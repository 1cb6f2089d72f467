import Pegsmith.Sample.Basic

set_option autoImplicit false

namespace Pegsmith.Sample

open Parsing

structure Table where
  header : List (List Char)
  rows : List (List UInt32)
  deriving DecidableEq, Repr

namespace Table

def column? (t : Table) (name : List Char) : Option (List UInt32) := do
  let i ← t.header.findIdx? (· == name)
  t.rows.mapM (·[i]?)

inductive Part where
  | table (t : Table)
  | line (numbers : List UInt32)
  | number (n : UInt32)
  deriving DecidableEq, Repr

def Part.line? : Part → Option (List UInt32)
  | .line numbers => some numbers
  | _ => none

def Part.number? : Part → Option UInt32
  | .number n => some n
  | _ => none

def isNameStart (c : Char) : Bool :=
  c.isAlpha || c == '_'

def isNamePart (c : Char) : Bool :=
  c.isAlphanum || c == '_'

def lexer : Lexer :=
  [digits, ⟨"Field", .word isNameStart isNamePart, false⟩, symbol "Comma" ",", newLine,
    spaces "Space"]

def alternatives : String → List (Parsing.Alternative Unit Part)
  | "table" =>
      [⟨.sequence [.sequence [separated (.token "Field" .text) "Comma"],
          .sequence [skip "NewLine", separated (read "line") "NewLine",
            .optional (skip "NewLine") .nothing]], value fun
          | [.list header, .list rows] => do
              return .table ⟨← header.mapM Value.text?, ← members? Part.line? rows⟩
          | _ => none⟩]
  | "line" =>
      [⟨separated (read "number") "Comma", value fun
          | [.list numbers] => (members? Part.number? numbers).map .line
          | _ => none⟩]
  | "number" =>
      [⟨.token "Number" .token, value fun
          | [.token t] => some (.number (Sample.word t.text))
          | _ => none⟩]
  | _ => []

def rules : Rules Unit Part :=
  { lexer, names := ["table", "line", "number"], alternatives }

def parse (text : List Char) : Except Stop (Value Part) :=
  (rules.parseAll "table" text ()).1

end Table

end Pegsmith.Sample
