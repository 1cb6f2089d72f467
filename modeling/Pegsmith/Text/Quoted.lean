import Pegsmith.Text.Category
import Pegsmith.Text.Property

set_option autoImplicit false

namespace Pegsmith.Text

def isPrintable (c : Char) : Bool :=
  if c.toNat < 127 then 32 ≤ c.toNat
  else !([.unassigned, .control, .format, .surrogate, .privateUse, .lineSeparator,
    .paragraphSeparator, .space].contains (category c))

def attaches (c : Char) : Bool :=
  128 ≤ c.toNat && Property.graphemeExtend.table.contains c.toNat

namespace Quoted

def hexDigits (n : Nat) : List Char :=
  Nat.toDigits 16 n

def byNumber (c : Char) : List Char :=
  ['\\', 'u', '\x7b'] ++ hexDigits c.toNat ++ ['\x7d']

def escapeChar (c : Char) : List Char :=
  match c with
  | '\x00' => ['\\', '0']
  | '\t' => ['\\', 't']
  | '\r' => ['\\', 'r']
  | '\n' => ['\\', 'n']
  | '\\' => ['\\', '\\']
  | '"' => ['\\', '"']
  | c => if isPrintable c && !attaches c then [c] else byNumber c

def encode (cs : List Char) : List Char :=
  '"' :: cs.flatMap escapeChar ++ ['"']

end Quoted

def quote (s : String) : String :=
  String.ofList (Quoted.encode s.toList)

end Pegsmith.Text
