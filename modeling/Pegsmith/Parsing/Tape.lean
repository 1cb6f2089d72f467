import Pegsmith.Fault
import Pegsmith.Text.Offset

set_option autoImplicit false

namespace Pegsmith.Parsing

/-- How many characters at the start of a text match. -/
abbrev Matcher := List Char → Option Nat

def Matcher.front (m : Matcher) (cs : List Char) : List Char :=
  cs.take ((m cs).getD 0)

theorem Matcher.front_append (m : Matcher) (cs : List Char) :
    m.front cs ++ cs.drop ((m cs).getD 0) = cs :=
  List.take_append_drop _ _

structure Tape where
  text : List Char
  offset : Nat := 0
  deriving DecidableEq, Repr

namespace Tape

def remainder (t : Tape) : List Char :=
  (Text.dropBytes? t.offset t.text).getD []

def atEnd (t : Tape) : Bool :=
  Text.byteSize t.text ≤ t.offset

def seek (t : Tape) (offset : Nat) : Except Fault Tape :=
  if Text.isBoundary t.text offset then .ok { t with offset } else .error .insideCharacter

def skip (t : Tape) (length : Nat) : Except Fault Tape := do
  t.seek (← addOffset t.offset length)

end Tape

end Pegsmith.Parsing
