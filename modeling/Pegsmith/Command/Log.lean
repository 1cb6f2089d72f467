import Pegsmith.Generation

set_option autoImplicit false

namespace Pegsmith.Command

inductive LogLevel where
  | off
  | error
  | warn
  | info
  | debug
  | trace
  deriving DecidableEq, Repr

namespace LogLevel

def rank : LogLevel → Nat
  | .off => 0
  | .error => 1
  | .warn => 2
  | .info => 3
  | .debug => 4
  | .trace => 5

def all : List LogLevel :=
  [.off, .error, .warn, .info, .debug, .trace]

def name : LogLevel → String
  | .off => "OFF"
  | .error => "ERROR"
  | .warn => "WARN"
  | .info => "INFO"
  | .debug => "DEBUG"
  | .trace => "TRACE"

def parse? (text : String) : Option LogLevel :=
  all.find? fun level => level.name == text.toUpper

def shows (asked level : LogLevel) : Bool :=
  level.rank ≤ asked.rank

def line (level : LogLevel) (text : String) : String :=
  " [" ++ level.name ++ "] " ++ text

end LogLevel

def noticeLevel : Notice → LogLevel
  | .sharedTokenType _ => .warn
  | .generated _ => .info

def noticeText : Notice → String
  | .sharedTokenType tokenType =>
      "`" ++ tokenType ++ "` has several lexers, only the first one is used"
  | .generated fileName => "generated `" ++ fileName ++ "`"

end Pegsmith.Command
