import Mathlib.Data.List.Chain
import Pegsmith.Proofs.Parsing.Tiling
import Pegsmith.Sample.Calculator

set_option autoImplicit false

namespace Pegsmith.Sample.Arithmetic

open Parsing

structure Lexeme where
  kind : String
  text : List Char
  deriving DecidableEq

namespace Lexeme

def ofToken (t : Token) : Lexeme :=
  ⟨t.kind, t.text⟩

def number (digits : List Char) : Lexeme :=
  ⟨"Number", digits⟩

def leftParen : Lexeme := ⟨"LeftParen", ['(']⟩

def rightParen : Lexeme := ⟨"RightParen", [')']⟩

def plus : Lexeme := ⟨"Plus", ['+']⟩

def minus : Lexeme := ⟨"Minus", ['-']⟩

def symbols : List Lexeme := [leftParen, rightParen, plus, minus]

@[simp] theorem kind_number (digits : List Char) : (number digits).kind = "Number" := rfl
@[simp] theorem kind_leftParen : leftParen.kind = "LeftParen" := rfl
@[simp] theorem kind_rightParen : rightParen.kind = "RightParen" := rfl
@[simp] theorem kind_plus : plus.kind = "Plus" := rfl
@[simp] theorem kind_minus : minus.kind = "Minus" := rfl

theorem kind_of_cons {x y : Lexeme} {xs ys : List Lexeme} (same : x :: xs = y :: ys) :
    x.kind = y.kind :=
  congrArg kind (List.cons.inj same).1

end Lexeme

/-- Splits a text into lexemes and blanks. How far a number goes is not said. -/
inductive Splits (isBlank : Char → Bool) : List Char → List Lexeme → Prop where
  | nil : Splits isBlank [] []
  | blank {c : Char} {cs : List Char} {xs : List Lexeme} (blank : isBlank c = true)
      (rest : Splits isBlank cs xs) : Splits isBlank (c :: cs) xs
  | symbol {x : Lexeme} {cs : List Char} {xs : List Lexeme} (member : x ∈ Lexeme.symbols)
      (rest : Splits isBlank cs xs) : Splits isBlank (x.text ++ cs) (x :: xs)
  | number {digits cs : List Char} {xs : List Lexeme} (filled : digits ≠ [])
      (all : ∀ d ∈ digits, d.isDigit = true) (rest : Splits isBlank cs xs) :
      Splits isBlank (digits ++ cs) (.number digits :: xs)

inductive Sign where
  | plus
  | minus
  deriving DecidableEq

namespace Sign

def lexeme : Sign → Lexeme
  | .plus => .plus
  | .minus => .minus

def apply : Sign → Int64 → Int64 → Int64
  | .plus, a, b => a + b
  | .minus, a, b => a - b

theorem lexeme_mem (s : Sign) : s.lexeme ∈ Lexeme.symbols := by
  cases s <;> decide

theorem lexeme_inj {s s' : Sign} (same : s.lexeme = s'.lexeme) : s = s' := by
  cases s <;> cases s' <;> first | rfl | exact absurd same (by decide)

end Sign

inductive Level where
  | expression
  | term
  | primary
  deriving DecidableEq

inductive Derivation : Level → Type where
  | operation (left : Derivation .term) (sign : Sign) (right : Derivation .expression) :
      Derivation .expression
  | term (only : Derivation .term) : Derivation .expression
  | negated (inner : Derivation .term) : Derivation .term
  | primary (only : Derivation .primary) : Derivation .term
  | number (digits : List Char) : Derivation .primary
  | bracketed (inner : Derivation .expression) : Derivation .primary

/-- The number that digits stand for, the greatest one if it does not fit. -/
def greatest (digits : List Char) : Int64 :=
  let n := Nat.ofDigitChars 10 digits 0
  if (n : Int) ≤ Int64.maxValue.toInt then .ofNat n else Int64.maxValue

theorem integer_eq_greatest (digits : List Char) : integer digits = greatest digits := by
  have limit : Int64.maxValue.toInt = (integerLimit : Int) := by decide
  rw [integer, greatest, decimal, limit]
  by_cases fits : (Nat.ofDigitChars 10 digits 0 : Int) ≤ integerLimit
  · rw [if_pos fits, Nat.min_eq_left (by omega)]
  · rw [if_neg fits, Nat.min_eq_right (by omega)]
    rfl

namespace Derivation

def lexemes {level : Level} : Derivation level → List Lexeme
  | .operation left sign right => left.lexemes ++ sign.lexeme :: right.lexemes
  | .term only | .primary only => only.lexemes
  | .negated inner => .minus :: inner.lexemes
  | .number digits => [.number digits]
  | .bracketed inner => .leftParen :: (inner.lexemes ++ [.rightParen])

def value {level : Level} : Derivation level → Int64
  | .operation left sign right => sign.apply left.value right.value
  | .term only | .primary only => only.value
  | .negated inner => -inner.value
  | .number digits => greatest digits
  | .bracketed inner => inner.value

def MayFollow (level : Level) (rest : List Lexeme) : Prop :=
  level = .expression → ∀ sign : Sign, rest.head? ≠ some sign.lexeme

theorem unambiguous {level : Level} (d e : Derivation level) {rest more : List Lexeme}
    (same : d.lexemes ++ rest = e.lexemes ++ more) (ends : MayFollow level rest)
    (other : MayFollow level more) : d = e ∧ rest = more := by
  have term (xs : List Lexeme) : MayFollow .term xs := by simp [MayFollow]
  have primary (xs : List Lexeme) : MayFollow .primary xs := by simp [MayFollow]
  have closes (xs : List Lexeme) : MayFollow .expression (.rightParen :: xs) := by
    rintro - (_ | _) <;> simp [Sign.lexeme, Lexeme.rightParen, Lexeme.plus, Lexeme.minus]
  -- Both derivations begin alike; after a term, the next lexeme says whether it is an operation.
  induction d generalizing rest more with
  | operation left sign right ihLeft ihRight =>
    cases e with
    | operation left' sign' right' =>
      simp only [lexemes, List.append_assoc, List.cons_append] at same
      obtain ⟨rfl, behind⟩ := ihLeft left' same (term _) (term _)
      obtain ⟨sameSign, further⟩ := List.cons.inj behind
      obtain rfl := Sign.lexeme_inj sameSign
      obtain ⟨rfl, rfl⟩ := ihRight right' further ends other
      exact ⟨rfl, rfl⟩
    | term only =>
      simp only [lexemes, List.append_assoc, List.cons_append] at same
      obtain ⟨-, rfl⟩ := ihLeft only same (term _) (term _)
      exact absurd rfl (other rfl sign)
  | term only ih =>
    cases e with
    | operation left sign right =>
      simp only [lexemes, List.append_assoc, List.cons_append] at same
      obtain ⟨-, rfl⟩ := ih left same (term _) (term _)
      exact absurd rfl (ends rfl sign)
    | term only' =>
      obtain ⟨rfl, rfl⟩ := ih only' same (term _) (term _)
      exact ⟨rfl, rfl⟩
  | negated inner ih =>
    cases e with
    | negated inner' =>
      obtain ⟨rfl, rfl⟩ := ih inner' (List.cons.inj same).2 (term _) (term _)
      exact ⟨rfl, rfl⟩
    | primary only => cases only <;> exact absurd (Lexeme.kind_of_cons same) (by simp)
  | primary only ih =>
    cases e with
    | negated => cases only <;> exact absurd (Lexeme.kind_of_cons same) (by simp)
    | primary only' =>
      obtain ⟨rfl, rfl⟩ := ih only' same (primary _) (primary _)
      exact ⟨rfl, rfl⟩
  | number digits =>
    cases e with
    | number =>
      obtain ⟨⟨⟩, rfl⟩ := List.cons.inj same
      exact ⟨rfl, rfl⟩
    | bracketed => exact absurd (Lexeme.kind_of_cons same) (by simp)
  | bracketed inner ih =>
    cases e with
    | number => exact absurd (Lexeme.kind_of_cons same) (by simp)
    | bracketed inner' =>
      simp only [lexemes, List.append_assoc, List.cons_append, List.nil_append] at same
      obtain ⟨rfl, behind⟩ := ih inner' (List.cons.inj same).2 (closes rest) (closes more)
      obtain rfl := (List.cons.inj behind).2
      exact ⟨rfl, rfl⟩

end Derivation

def Spaced (xs : List Lexeme) : Prop :=
  xs.IsChain fun x y => x.kind = "Number" → y.kind ≠ "Number"

theorem Spaced.cons {x : Lexeme} {xs : List Lexeme} (symbol : x.kind ≠ "Number")
    (spaced : Spaced xs) : Spaced (x :: xs) :=
  List.isChain_cons.mpr ⟨fun _ _ number => absurd number symbol, spaced⟩

theorem Derivation.spaced {level : Level} (d : Derivation level) {rest : List Lexeme}
    (spaced : Spaced rest) (apart : ∀ x ∈ rest.head?, x.kind ≠ "Number") :
    Spaced (d.lexemes ++ rest) := by
  induction d generalizing rest with
  | operation left sign right ihLeft ihRight =>
    have symbol : sign.lexeme.kind ≠ "Number" := by cases sign <;> decide
    rw [lexemes, List.append_assoc, List.cons_append]
    exact ihLeft ((ihRight spaced apart).cons symbol) (by simpa using symbol)
  | term only ih | primary only ih => exact ih spaced apart
  | negated inner ih => exact (ih spaced apart).cons (by simp)
  | number digits => exact List.isChain_cons.mpr ⟨fun y first _ => apart y first, spaced⟩
  | bracketed inner ih =>
    rw [lexemes, List.cons_append, List.append_assoc]
    exact (ih (spaced.cons (by simp)) (by simp)).cons (by simp)

theorem Derivation.spaced_lexemes {level : Level} (d : Derivation level) : Spaced d.lexemes := by
  have spaced := d.spaced List.IsChain.nil (by simp)
  rwa [List.append_nil] at spaced

end Pegsmith.Sample.Arithmetic
