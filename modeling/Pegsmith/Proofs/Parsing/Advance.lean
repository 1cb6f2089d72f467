import Pegsmith.Parsing.Lexer

set_option autoImplicit false

namespace Pegsmith.Parsing

structure Tape.Within (text : List Char) (start : Nat) (t : Tape) : Prop where
  same : t.text = text
  boundary : Text.isBoundary text t.offset = true
  behind : start ≤ t.offset

namespace Tape

variable {text : List Char} {start : Nat} {t u : Tape}

theorem Within.of_le {earlier : Nat} (within : t.Within text start) (less : earlier ≤ start) :
    t.Within text earlier :=
  ⟨within.same, within.boundary, Nat.le_trans less within.behind⟩

theorem Within.here (within : t.Within text start) : t.Within text t.offset :=
  ⟨within.same, within.boundary, Nat.le_refl _⟩

theorem Within.split (within : t.Within text start) :
    ∃ front, text = front ++ t.remainder ∧ Text.byteSize front = t.offset := by
  obtain ⟨rest, left⟩ := Option.isSome_iff_exists.mp within.boundary
  rw [remainder, within.same, left, Option.getD_some]
  exact Text.eq_append_of_dropBytes? left

theorem within_of_append {front rest : List Char} (same : t.text = front ++ rest)
    (size : t.offset = Text.byteSize front) (less : start ≤ t.offset) :
    t.Within (front ++ rest) start := by
  refine ⟨same, ?_, less⟩
  rw [Text.isBoundary, size, Text.dropBytes?_byteSize]
  rfl

theorem Within.offset_le (within : t.Within text start) : t.offset ≤ Text.byteSize text := by
  obtain ⟨front, same, size⟩ := within.split
  have total := congrArg Text.byteSize same
  rw [Text.byteSize_append] at total
  omega

theorem Within.remainder_lt (within : t.Within text start) (later : u.Within text start)
    (less : t.offset < u.offset) : u.remainder.length < t.remainder.length := by
  obtain ⟨front, same, size⟩ := within.split
  obtain ⟨longer, again, larger⟩ := later.split
  refine Nat.lt_of_not_le fun notLess => ?_
  have count := congrArg List.length (same.symm.trans again)
  rw [List.length_append, List.length_append] at count
  -- With as much left or more, what has been read is no longer than before.
  have shorter : longer.length ≤ front.length := by omega
  obtain ⟨more, rfl⟩ : ∃ more, front = longer ++ more := by
    obtain ⟨more, split⟩ :=
      List.prefix_of_prefix_length_le ⟨_, again.symm⟩ ⟨_, same.symm⟩ shorter
    exact ⟨more, split.symm⟩
  rw [Text.byteSize_append] at size
  omega

end Tape

namespace Lexer

theorem scan_front (lexer : Lexer) (skip offset : Nat) (cs : List Char) :
    ∃ front rest, cs = front ++ rest ∧
      (lexer.scan skip offset cs).2 = offset + Text.byteSize front ∧
      ∀ token, (lexer.scan skip offset cs).1 = .ok (some token) → front ≠ [] := by
  -- The induction is on the text that is left: ignored text goes to the front that is skipped, and
  -- the first token ends the scan.
  induction cs generalizing skip offset with
  | nil => exact ⟨[], [], rfl, by simp [scan], by simp [scan]⟩
  | cons c cs ih =>
    have skipped (k : Nat) : ∃ front rest, c :: cs = front ++ rest ∧
        (lexer.scan k (offset + c.utf8Size) cs).2 = offset + Text.byteSize front ∧
        ∀ token, (lexer.scan k (offset + c.utf8Size) cs).1 = .ok (some token) → front ≠ [] := by
      obtain ⟨front, rest, same, stop, -⟩ := ih k (offset + c.utf8Size)
      refine ⟨c :: front, rest, by rw [same]; rfl, ?_, by simp⟩
      rw [stop, Text.byteSize_cons, Nat.add_assoc]
    match skip with
    | k + 1 => exact skipped k
    | 0 =>
      rw [scan]
      cases decided : lexer.first? (c :: cs) with
      | none => exact ⟨[], c :: cs, rfl, rfl, by simp⟩
      | some found =>
        obtain ⟨rule, front⟩ := found
        obtain ⟨-, same, filled⟩ := front_of_first? decided
        by_cases ignored : rule.ignored = true
        · simp only [ignored, if_true]
          exact skipped (front.length - 1)
        · simp only [ignored]
          refine ⟨front, (c :: cs).drop ((rule.matcher (c :: cs)).getD 0), ?_, rfl, ?_⟩
          · rw [same]
            exact (Matcher.front_append ..).symm
          · exact fun _ _ => filled

variable {lexer : Lexer} {text : List Char} {start : Nat} {t : Tape}

theorem next_offset (lexer : Lexer) (t : Tape) :
    (lexer.next t).2.offset = (lexer.scan 0 t.offset t.remainder).2 := rfl

theorem next_within (within : t.Within text start) :
    (lexer.next t).2.Within text t.offset ∧
      ∀ token, (lexer.next t).1 = .ok (some token) → t.offset < (lexer.next t).2.offset := by
  obtain ⟨read, same, size⟩ := within.split
  obtain ⟨front, rest, left, stop, filled⟩ := lexer.scan_front 0 t.offset t.remainder
  rw [left, ← List.append_assoc] at same
  constructor
  · rw [same]
    apply Tape.within_of_append
    · rw [← same]
      exact within.same
    · rw [Text.byteSize_append, size]
      exact stop
    · rw [next_offset, stop]
      exact Nat.le_add_right ..
  · intro token found
    have some := filled token found
    rw [next_offset, stop]
    cases front with
    | nil => exact (some rfl).elim
    | cons c cs =>
      have positive := c.utf8Size_pos
      rw [Text.byteSize_cons]
      omega

theorem nextIf_within {kind : String} (within : t.Within text start) :
    (lexer.nextIf kind t).2.Within text t.offset ∧
      ∀ token, (lexer.nextIf kind t).1 = .ok (some token) →
        token.kind = kind ∧ t.offset < (lexer.nextIf kind t).2.offset := by
  have after := @next_within lexer text start t within
  rw [nextIf]
  generalize lexer.next t = answer at after ⊢
  obtain ⟨answer, u⟩ := answer
  match answer with
  | .error e => exact ⟨after.1, by simp⟩
  | .ok none => exact ⟨within.here, by simp⟩
  | .ok (some token) =>
    by_cases same : token.kind = kind
    · simp only [same, if_true]
      refine ⟨after.1, ?_⟩
      rintro _ ⟨⟩
      exact ⟨same, after.2 token rfl⟩
    · simp only [same, if_false]
      exact ⟨within.here, by simp⟩

end Lexer

end Pegsmith.Parsing
