import Pegsmith.Proofs.Parsing.Commuting
import Pegsmith.Proofs.Parsing.Metering
import Pegsmith.Proofs.Sample.Evaluation

set_option autoImplicit false

namespace Pegsmith.Sample

open Parsing

variable {σ α : Type} {kind : String}

theorem value_silent {plan : Plan} {f : List (Value α) → Option α}
    (leaves : .terminal kind ∉ plan.leaves) : (⟨plan, value f⟩ : Parsing.Alternative σ α).Silent kind := by
  refine ⟨leaves, fun vs s answer r built => ?_⟩
  obtain ⟨a, -, same⟩ := Option.map_eq_some_iff.mp built
  exact (Prod.mk.inj same).2.symm

theorem value_additive (f : List (Value α) → Option α) : (value f).Additive := by
  intro k vs n
  simp only [value, Option.map_map]
  rfl

namespace Calculator

theorem meters : rules.Meters "primary" "Number" where
  first := by
    refine ⟨_, _, _, rfl, fun token n => ⟨_, rfl⟩, ?_⟩
    simp only [List.forall_mem_singleton]
    exact value_silent (by decide)
  silent := by
    intro other apart a member
    change a ∈ alternatives other at member
    unfold alternatives at member
    split at member
    · simp only [List.mem_cons, List.not_mem_nil, or_false] at member
      rcases member with rfl | rfl <;> exact value_silent (by decide)
    · simp only [List.mem_cons, List.not_mem_nil, or_false] at member
      rcases member with rfl | rfl <;> exact value_silent (by decide)
    · exact absurd rfl apart
    · cases member

theorem additive (name : String) : ∀ a ∈ rules.alternatives name, a.build.Additive := by
  intro a member
  change a ∈ alternatives name at member
  unfold alternatives at member
  split at member
  · simp only [List.mem_cons, List.not_mem_nil, or_false] at member
    rcases member with rfl | rfl <;> exact value_additive _
  · simp only [List.mem_cons, List.not_mem_nil, or_false] at member
    rcases member with rfl | rfl <;> exact value_additive _
  · simp only [List.mem_cons, List.not_mem_nil, or_false] at member
    rcases member with rfl | rfl
    · intro k vs n
      dsimp only
      split <;> rfl
    · exact value_additive _
  · cases member

open Arithmetic

theorem isPrefix_of_splits {text front read left : List Char} {xs : List Lexeme}
    (whole : text = read ++ left)
    (ends : left ≠ [] → ∀ rule ∈ lexer, rule.matcher.front left = [])
    (isFront : front <+: text) (splits : Splits isBlank front xs) : front <+: read := by
  rcases List.prefix_or_prefix_of_prefix isFront ⟨left, whole.symm⟩ with shorter | ⟨more, rfl⟩
  · exact shorter
  · cases more with
    | nil => rw [List.append_nil]
    | cons c more =>
      obtain ⟨rest, same⟩ := isFront
      rw [whole, List.append_assoc] at same
      -- The lexeme of the front that holds this character would be read from what is left.
      have begun : left = c :: (more ++ rest) := (List.append_cancel_left same).symm
      obtain ⟨rule, member, matched⟩ :=
        splits.exists_front (c := c) (by simp) (more ++ rest)
      rw [← begun] at matched
      exact absurd (ends (by simp [begun]) rule member) matched

/-- Every number is converted once. An answer comes with as many conversions as there are numbers
among the tokens of the text; without one there are no more than among those of the longest front
that splits into lexemes and blanks. A second evaluation counts on from the first. -/
theorem evaluate_converts_once (text : List Char) (converted : Nat) :
    ∃ tokens error read left,
      lexer.all ⟨text, 0⟩ = (tokens, error, Tape.between read left) ∧ text = read ++ left ∧
      Splits isBlank read (tokens.map Lexeme.ofToken) ∧
      (∀ front xs, front <+: text → Splits isBlank front xs → front <+: read) ∧
      (evaluate text 0).2 ≤ tokens.countP (·.kind = "Number") ∧
      (∀ v, (evaluate text 0).1 = .ok v →
        left = [] ∧ (evaluate text 0).2 = tokens.countP (·.kind = "Number")) ∧
      evaluate text converted = ((evaluate text 0).1, converted + (evaluate text 0).2) := by
  obtain ⟨pieces, left, tiles, ends⟩ := lexer.exists_tiles text
  obtain ⟨error, reads, ended⟩ := tiles.exists_reads ends []
  have all : lexer.all ⟨text, 0⟩ = (Piece.tokens 0 pieces, error,
      Tape.between (Piece.textOf pieces) left) := reads.all
  have whole := tiles.eq_append
  obtain ⟨most, exact⟩ := meters.counts_once "expression" text 0
  rw [show rules.lexer.all ⟨text, 0⟩ = _ from all, Nat.zero_add] at most exact
  refine ⟨_, error, _, left, all, whole, splits_of_tiles tiles 0, fun front xs => ?_, most,
    fun v answered => ?_, Rules.parseAll_add additive "expression" text converted 0⟩
  · exact isPrefix_of_splits whole ends
  · obtain ⟨rfl, counted⟩ := exact v answered
    exact ⟨ended, counted⟩

example : (evaluate "((1))+2)".toList 5).2 = 7 := by cbv

end Calculator

end Pegsmith.Sample
