import Mathlib
import Pegsmith.Pattern.Lexeme
import Pegsmith.Proofs.Results

set_option autoImplicit false

namespace Pegsmith.Pattern

inductive Splits : List Char → List Symbol → Prop where
  | nil : Splits [] []
  | blank {c : Char} {cs : List Char} {symbols : List Symbol} (blank : Text.isBlank c = true)
      (rest : Splits cs symbols) : Splits (c :: cs) symbols
  | mark {m : Mark} {cs : List Char} {symbols : List Symbol} (rest : Splits cs symbols) :
      Splits (m.char :: cs) (.mark m :: symbols)
  | name {c : Char} {more cs : List Char} {symbols : List Symbol} (starts : startsName c = true)
      (continues : ∀ d ∈ more, continuesName d = true)
      (longest : ∀ d ∈ cs.head?, continuesName d = false) (rest : Splits cs symbols) :
      Splits (c :: (more ++ cs)) (.name (c :: more) :: symbols)

theorem Mark.char_of_ofChar? {c : Char} {m : Mark} (found : Mark.ofChar? c = some m) :
    m.char = c := by
  unfold Mark.ofChar? at found
  split at found <;> cases found <;> rfl

theorem Mark.not_blank (m : Mark) : Text.isBlank m.char = false := by
  cases m <;> rfl

theorem Mark.not_startsName (m : Mark) : startsName m.char = false := by
  cases m <;> rfl

theorem Mark.not_continuesName (m : Mark) : continuesName m.char = false := by
  cases m <;> rfl

theorem continuesName_of_startsName {c : Char} (starts : startsName c = true) :
    continuesName c = true := by
  simp only [startsName, continuesName, Char.isAlphanum, Bool.or_eq_true] at starts ⊢
  tauto

theorem Splits.continues_of_mem {cs : List Char} {symbols : List Symbol} (splits : Splits cs symbols)
    {name : List Char} (member : .name name ∈ symbols) :
    ∀ c ∈ name, continuesName c = true := by
  induction splits with
  | nil => cases member
  | blank _ _ ih => exact ih member
  | mark _ ih => exact ih (by simpa using member)
  | name starts continues _ _ ih =>
    rcases List.mem_cons.mp member with same | later
    · cases same
      exact List.forall_mem_cons.mpr ⟨continuesName_of_startsName starts, continues⟩
    · exact ih later

theorem isUpper_iff {c : Char} : c.isUpper = true ↔ 65 ≤ c.toNat ∧ c.toNat ≤ 90 := by
  simp [Char.isUpper, UInt32.le_iff_toNat_le, ← Char.toNat_val]

theorem isLower_iff {c : Char} : c.isLower = true ↔ 97 ≤ c.toNat ∧ c.toNat ≤ 122 := by
  simp [Char.isLower, UInt32.le_iff_toNat_le, ← Char.toNat_val]

theorem isDigit_iff {c : Char} : c.isDigit = true ↔ 48 ≤ c.toNat ∧ c.toNat ≤ 57 := by
  simp [Char.isDigit, UInt32.le_iff_toNat_le, ← Char.toNat_val]

theorem isLower_of_isUpper {c : Char} (upper : c.isUpper = true) : c.isLower = false := by
  rw [isUpper_iff] at upper
  rw [Bool.eq_false_iff, ne_eq, isLower_iff]
  omega

theorem not_blank_of_continuesName {c : Char} (continues : continuesName c = true) :
    Text.isBlank c = false := by
  simp only [continuesName, Char.isAlphanum, Char.isAlpha, Bool.or_eq_true, isUpper_iff,
    isLower_iff, isDigit_iff, beq_iff_eq] at continues
  simp only [Text.isBlank, Bool.or_eq_false_iff, Bool.and_eq_false_iff, decide_eq_false_iff_not,
    beq_eq_false_iff_ne]
  rcases continues with ((upper | lower) | digit) | rfl
  · omega
  · omega
  · omega
  · decide

theorem not_continuesName_head (cs : List Char) :
    ∀ d ∈ (cs.dropWhile continuesName).head?, continuesName d = false := by
  intro d first
  have stopped := List.head?_dropWhile_not continuesName cs
  rw [Option.mem_def.mp first] at stopped
  exact stopped

theorem splits_of_lex {start : Nat} {cs : List Char} {ls : List Lexeme}
    (read : lex start cs = .ok ls) : Splits cs (ls.map (·.symbol)) := by
  match cs with
  | [] =>
    rw [lex] at read
    cases read
    exact .nil
  | c :: cs =>
    rw [lex] at read
    -- A blank, a name as far as it goes, or a mark.
    by_cases blank : Text.isBlank c = true
    · rw [if_pos blank] at read
      exact .blank blank (splits_of_lex read)
    rw [if_neg blank] at read
    by_cases starts : startsName c = true
    · rw [if_pos starts] at read
      obtain ⟨rest, found, rfl⟩ := ok_of_exceptMap read
      have split : cs.takeWhile continuesName ++ cs.dropWhile continuesName = cs :=
        List.takeWhile_append_dropWhile
      have continues (d : Char) (member : d ∈ cs.takeWhile continuesName) :
          continuesName d = true :=
        List.mem_takeWhile_imp member
      have named := Splits.name starts continues (not_continuesName_head cs) (splits_of_lex found)
      rwa [split] at named
    · rw [if_neg starts] at read
      cases marks : Mark.ofChar? c with
      | none =>
        rw [marks] at read
        cases read
      | some m =>
        rw [marks] at read
        obtain ⟨rest, found, rfl⟩ := ok_of_exceptMap read
        rw [← Mark.char_of_ofChar? marks]
        exact .mark (splits_of_lex found)
termination_by cs.length
decreasing_by
  · simp
  · exact Nat.lt_succ_of_le (List.length_dropWhile_le ..)
  · simp

theorem lex_of_splits {cs : List Char} {symbols : List Symbol} (splits : Splits cs symbols)
    (start : Nat) : ∃ ls, lex start cs = .ok ls ∧ ls.map (·.symbol) = symbols := by
  induction splits generalizing start with
  | nil => exact ⟨[], by simp [lex], rfl⟩
  | blank blank rest ih =>
    obtain ⟨ls, read, same⟩ := ih _
    exact ⟨ls, by rw [lex, if_pos blank, read], same⟩
  | @mark m cs symbols rest ih =>
    obtain ⟨ls, read, same⟩ := ih (start + m.char.utf8Size)
    refine ⟨⟨.mark m, start⟩ :: ls, ?_, by rw [List.map_cons, same]⟩
    rw [lex, if_neg (by simp [m.not_blank]), if_neg (by simp [m.not_startsName]),
      Mark.ofChar?_char]
    simp only [read, Except.map]
  | @name c more cs symbols starts continues longest rest ih =>
    obtain ⟨ls, read, same⟩ := ih (start + c.utf8Size + Text.byteSize more)
    refine ⟨⟨.name (c :: more), start⟩ :: ls, ?_, by rw [List.map_cons, same]⟩
    have solid := not_blank_of_continuesName (continuesName_of_startsName starts)
    -- What goes on with a name is taken as far as it goes, which is where the name ends.
    have taken : (more ++ cs).takeWhile continuesName = more := by
      rw [List.takeWhile_append_of_pos continues]
      cases cs with
      | nil => simp
      | cons d cs => simp [longest d rfl]
    have left : (more ++ cs).dropWhile continuesName = cs := by
      rw [List.dropWhile_append_of_pos continues]
      cases cs with
      | nil => rfl
      | cons d cs => simp [longest d rfl]
    rw [lex, if_neg (by simp [solid]), if_pos starts]
    simp only [taken, left, read, Except.map]

theorem Splits.unique {cs : List Char} {symbols symbols' : List Symbol}
    (splits : Splits cs symbols) (splits' : Splits cs symbols') : symbols = symbols' := by
  obtain ⟨ls, read, rfl⟩ := lex_of_splits splits 0
  obtain ⟨ls', read', rfl⟩ := lex_of_splits splits' 0
  rw [Except.ok.inj (read.symm.trans read')]

end Pegsmith.Pattern
