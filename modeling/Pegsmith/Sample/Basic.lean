import Pegsmith.Parsing.Matcher
import Pegsmith.Parsing.Rules
import Pegsmith.Text.Blank

set_option autoImplicit false

namespace Pegsmith.Sample

open Parsing

def digits : Rule :=
  ⟨"Number", .run Char.isDigit, false⟩

def symbol (kind text : String) : Rule :=
  ⟨kind, .exactly text.toList, false⟩

def newLine : Rule :=
  ⟨"NewLine", .orElse (.exactly ['\r', '\n']) (.exactly ['\n']), false⟩

def spaces (kind : String) : Rule :=
  ⟨kind, .run fun c => c == ' ' || c == '\t', true⟩

def skip (kind : String) : Plan :=
  .token kind .nothing

def read (name : String) : Plan :=
  .call name true none

def separated (item : Plan) (separator : String) : Plan :=
  .concat [.single item, .loop (.sequence [skip separator, item]) false true]

def decimal (digits : List Char) : Nat :=
  Nat.ofDigitChars 10 digits 0

def wordLimit : Nat := 0xFFFFFFFF

def word (digits : List Char) : UInt32 :=
  .ofNat (min (decimal digits) wordLimit)

def integerLimit : Nat := 0x7FFFFFFFFFFFFFFF

def integer (digits : List Char) : Int64 :=
  .ofNat (min (decimal digits) integerLimit)

theorem word_toNat (digits : List Char) : (word digits).toNat = min (decimal digits) wordLimit := by
  have inside : min (decimal digits) wordLimit < 2 ^ 32 :=
    Nat.lt_of_le_of_lt (Nat.min_le_right ..) (by decide)
  simp only [word, UInt32.toNat_ofNat']
  exact Nat.mod_eq_of_lt inside

theorem word_of_decimal {digits : List Char} {n : UInt32} (same : decimal digits = n.toNat) :
    word digits = n := by
  have fits : decimal digits ≤ wordLimit := same ▸ Nat.le_of_lt_succ n.toNat_lt
  rw [word, Nat.min_eq_left fits, same, UInt32.ofNat_toNat]

def value {σ α : Type} (f : List (Value α) → Option α) : Build σ α := fun vs s =>
  (f vs).map fun a => (.ok a, s)

def members? {α β : Type} (sort : α → Option β) (vs : List (Value α)) : Option (List β) :=
  vs.mapM fun v => v.own? >>= sort

def add (a b : UInt32) : Except Fault UInt32 :=
  if a.toNat + b.toNat ≤ wordLimit then .ok (a + b) else .error .additionOverflow

def multiply (a b : UInt32) : Except Fault UInt32 :=
  if a.toNat * b.toNat ≤ wordLimit then .ok (a * b) else .error .multiplicationOverflow

end Pegsmith.Sample
