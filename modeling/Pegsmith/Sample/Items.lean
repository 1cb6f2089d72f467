import Pegsmith.Sample.Basic

set_option autoImplicit false

namespace Pegsmith.Sample.Items

open Parsing

inductive Part where
  | items (numbers : List UInt32)
  | number (n : UInt32)
  deriving DecidableEq, Repr

def Part.number? : Part → Option UInt32
  | .number n => some n
  | _ => none

def lexer : Lexer :=
  [digits, symbol "Comma" ",", symbol "Bang" "!", spaces "Space"]

def list : Parsing.Alternative Unit Part :=
  ⟨separated (read "number") "Comma", value fun
    | [.list numbers] => (members? Part.number? numbers).map .items
    | _ => none⟩

def single : Parsing.Alternative Unit Part :=
  ⟨read "number", value fun
    | [.own (.number n)] => some (.items [n])
    | _ => none⟩

def alternatives (items : List (Parsing.Alternative Unit Part)) :
    String → List (Parsing.Alternative Unit Part)
  | "items" => items
  | "number" =>
      [⟨.token "Number" .token, value fun
          | [.token t] => some (.number (word t.text))
          | _ => none⟩]
  | _ => []

def rules (items : List (Parsing.Alternative Unit Part)) : Rules Unit Part :=
  { lexer, names := ["items", "number"], alternatives := alternatives items }

def greedy : Rules Unit Part :=
  rules [list, single]

def lazy : Rules Unit Part :=
  rules [single, list]

end Pegsmith.Sample.Items
