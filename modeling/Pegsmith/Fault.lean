
set_option autoImplicit false

namespace Pegsmith

inductive Fault where
  | blockOrder
  | unclosedBlocks
  | insideCharacter
  | additionOverflow
  | subtractionOverflow
  | multiplicationOverflow
  | evaluatedTwice (position : Nat)
  | invalidRule (regex : String)
  | stackOverflow
  deriving DecidableEq, Repr

def Fault.message : Fault → String
  | .blockOrder => "Blocks must be closed in the reverse order of opening"
  | .unclosedBlocks => "Unclosed blocks remaining"
  | .insideCharacter => "Seeking into the middle of a character"
  | .additionOverflow => "attempt to add with overflow"
  | .subtractionOverflow => "attempt to subtract with overflow"
  | .multiplicationOverflow => "attempt to multiply with overflow"
  | .evaluatedTwice position => "Non-terminal evaluated twice at position " ++ toString position
  | .invalidRule regex => "Invalid token rule `" ++ regex ++ "`"
  | .stackOverflow => "stack overflow"

/-- Offsets and lengths are 64-bit words. -/
def offsetLimit : Nat := 0x10000000000000000

def addOffset (a b : Nat) : Except Fault Nat :=
  if a + b < offsetLimit then .ok (a + b) else .error .additionOverflow

def subOffset (a b : Nat) : Except Fault Nat :=
  if b ≤ a then .ok (a - b) else .error .subtractionOverflow

theorem addOffset_eq_ok_iff {a b c : Nat} :
    addOffset a b = .ok c ↔ c = a + b ∧ a + b < offsetLimit := by
  unfold addOffset
  split
  · next inside => simp [inside, eq_comm]
  · next outside => simp [outside]

end Pegsmith
