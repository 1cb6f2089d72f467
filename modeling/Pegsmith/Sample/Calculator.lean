import Pegsmith.Sample.Basic

set_option autoImplicit false

namespace Pegsmith.Sample.Calculator

open Parsing

def lexer : Lexer :=
  [digits, symbol "LeftParen" "(", symbol "RightParen" ")", symbol "Plus" "+", symbol "Minus" "-",
    spaces "Whitespace"]

def binary (left : Int64) (operator : String) (right : Int64) : Int64 :=
  if operator = "Minus" then left - right else left + right

def same : Build Nat Int64 :=
  value fun
    | [.own n] => some n
    | _ => none

def operation : Plan :=
  .sequence [.sequence [read "term"],
    .sequence [.sequence [.choice [.token "Plus" .kind, .token "Minus" .kind]],
      .sequence [read "expression"]]]

def alternatives : String → List (Parsing.Alternative Nat Int64)
  | "expression" =>
      [⟨operation, value fun
          | [.own left, .kind operator, .own right] => some (binary left operator right)
          | _ => none⟩,
        ⟨read "term", same⟩]
  | "term" =>
      [⟨.sequence [skip "Minus", read "term"], value fun
          | [.own n] => some (-n)
          | _ => none⟩,
        ⟨read "primary", same⟩]
  | "primary" =>
      [⟨.token "Number" .token, fun
          | [.token t], converted => some (.ok (integer t.text), converted + 1)
          | _, _ => none⟩,
        ⟨.sequence [skip "LeftParen", read "expression", skip "RightParen"], same⟩]
  | _ => []

def rules : Rules Nat Int64 :=
  { lexer, names := ["expression", "term", "primary"], alternatives }

def evaluate (text : List Char) (converted : Nat) : Except Stop (Value Int64) × Nat :=
  rules.parseAll "expression" text converted

end Pegsmith.Sample.Calculator
