
set_option autoImplicit false

namespace Pegsmith.Text

abbrev Scan := StateT (List Char) Option

def after? : List Char → List Char → Option (List Char)
  | [], cs => some cs
  | _ :: _, [] => none
  | w :: ws, c :: cs => if w == c then after? ws cs else none

theorem after?_append (w cs : List Char) : after? w (w ++ cs) = some cs := by
  induction w with
  | nil => rfl
  | cons c w ih => simpa [after?] using ih

theorem eq_append_of_after? {w cs rest : List Char} (h : after? w cs = some rest) :
    cs = w ++ rest := by
  induction w generalizing cs with
  | nil => simpa [after?] using h
  | cons c w ih =>
      cases cs with
      | nil => simp [after?] at h
      | cons d cs =>
          simp only [after?] at h
          split at h
          · next hc => simp [ih h, eq_of_beq hc]
          · cases h

def hexValue? (c : Char) : Option Nat :=
  if c.isDigit then some (c.toNat - 48)
  else if 'a' ≤ c && c ≤ 'f' then some (c.toNat - 87)
  else if 'A' ≤ c && c ≤ 'F' then some (c.toNat - 55)
  else none

namespace Scan

def peek? : Scan (Option Char) := do
  return (← get).head?

def atEnd : Scan Bool := do
  return (← get).isEmpty

def next : Scan Char := do
  match ← get with
  | c :: cs => set cs; return c
  | [] => failure

def expect (c : Char) : Scan Unit := do
  guard ((← next) == c)

def skipWord (word : String) : Scan Bool := do
  match after? word.toList (← get) with
  | some rest => set rest; return true
  | none => return false

def takeWhile (p : Char → Bool) : Scan (List Char) := do
  let cs ← get
  set (cs.dropWhile p)
  return cs.takeWhile p

def charOfCode (n : Nat) : Scan Char :=
  if n.isValidChar then return Char.ofNat n else failure

end Scan

end Pegsmith.Text
