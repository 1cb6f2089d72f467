import Pegsmith.Sample.Basic

set_option autoImplicit false

namespace Pegsmith.Sample

open Parsing

inductive SyntaxTree where
  | number (n : Int64)
  | negate (operand : SyntaxTree)
  | binary (left : SyntaxTree) (operator : String) (right : SyntaxTree)
  deriving DecidableEq, Repr

namespace SyntaxTree

def evaluate : SyntaxTree → Int64
  | .number n => n
  | .negate operand => -operand.evaluate
  | .binary left operator right =>
      if operator = "Minus" then left.evaluate - right.evaluate
      else left.evaluate + right.evaluate

def lexer : Lexer :=
  [digits, symbol "LeftParen" "(", symbol "RightParen" ")", symbol "Plus" "+", symbol "Minus" "-",
    ⟨"Whitespace", .run Text.isBlank, true⟩]

def nested : Build Unit SyntaxTree :=
  value fun
    | [.own t] => some t
    | [.default] => some (.number 0)
    | _ => none

def operation : Plan :=
  .sequence [.sequence [read "term"],
    .sequence [.sequence [.choice [.token "Plus" .kind, .token "Minus" .kind]],
      .sequence [read "expression"]]]

def alternatives : String → List (Parsing.Alternative Unit SyntaxTree)
  | "expression" =>
      [⟨operation, value fun
          | [.own left, .kind operator, .own right] => some (.binary left operator right)
          | _ => none⟩,
        ⟨read "term", nested⟩]
  | "term" =>
      [⟨.sequence [skip "Minus", read "term"], value fun
          | [.own t] => some (.negate t)
          | _ => none⟩,
        ⟨read "primary", nested⟩]
  | "primary" =>
      [⟨.token "Number" .token, value fun
          | [.token t] => some (.number (integer t.text))
          | _ => none⟩,
        ⟨.sequence [skip "LeftParen", .optional (read "expression") .default, skip "RightParen"],
          nested⟩]
  | _ => []

def rules : Rules Unit SyntaxTree :=
  { lexer, names := ["expression", "term", "primary"], alternatives }

def parse (text : List Char) : Except Stop (Value SyntaxTree) :=
  (rules.parse "expression" ⟨text, 0⟩ ()).1

end SyntaxTree

end Pegsmith.Sample
