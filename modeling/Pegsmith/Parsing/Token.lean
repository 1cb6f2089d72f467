import Pegsmith.Parsing.Tape
import Pegsmith.Text.Quoted

set_option autoImplicit false

namespace Pegsmith.Parsing

structure Token where
  kind : String
  text : List Char
  offset : Nat
  deriving DecidableEq, Repr

namespace Token

def length (t : Token) : Nat :=
  Text.byteSize t.text

def stop (t : Token) : Nat :=
  t.offset + t.length

end Token

inductive ParseError where
  | noRule (offset : Nat) (remainder : List Char)
  | noMatch (nonTerminal : String) (offset : Nat)
  deriving DecidableEq, Repr

namespace ParseError

def offset : ParseError → Nat
  | .noRule offset _ | .noMatch _ offset => offset

def message : ParseError → String
  | .noRule offset remainder =>
      "no token rule matches at offset " ++ toString offset ++ ": " ++
        String.ofList (Text.Quoted.encode remainder)
  | .noMatch nonTerminal offset =>
      "could not parse `" ++ nonTerminal ++ "` at offset " ++ toString offset

end ParseError

def Tape.error (t : Tape) : ParseError :=
  .noRule t.offset t.remainder

end Pegsmith.Parsing
