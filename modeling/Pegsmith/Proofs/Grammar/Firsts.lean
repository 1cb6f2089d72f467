import Mathlib.Data.List.Basic
import Mathlib.Data.List.Induction
import Pegsmith.Grammar.Tokens

set_option autoImplicit false

namespace Pegsmith

/-- `ys` has each member of `xs` once, where it appears first. -/
structure IsFirsts {α : Type} [BEq α] (xs ys : List α) : Prop where
  mem : ∀ y, y ∈ ys ↔ y ∈ xs
  ordered : ys.Pairwise fun a b => xs.idxOf a < xs.idxOf b

theorem IsFirsts.nodup {α : Type} [BEq α] {xs ys : List α} (firsts : IsFirsts xs ys) :
    ys.Nodup := by
  refine firsts.ordered.imp fun before => ?_
  rintro rfl
  exact Nat.lt_irrefl _ before

section Firsts

variable {α : Type} [BEq α] [LawfulBEq α]

theorem IsFirsts.ordered_snoc {xs ys : List α} (firsts : IsFirsts xs ys) (x : α) :
    ys.Pairwise fun a b => (xs ++ [x]).idxOf a < (xs ++ [x]).idxOf b := by
  refine firsts.ordered.imp_of_mem fun {a b} ha hb before => ?_
  rwa [List.idxOf_append_of_mem ((firsts.mem a).mp ha),
    List.idxOf_append_of_mem ((firsts.mem b).mp hb)]

theorem IsFirsts.snoc_old {xs ys : List α} {x : α} (firsts : IsFirsts xs ys) (old : x ∈ xs) :
    IsFirsts (xs ++ [x]) ys := by
  refine ⟨fun y => ?_, firsts.ordered_snoc x⟩
  rw [firsts.mem, List.mem_append, List.mem_singleton]
  exact ⟨.inl, fun member => member.elim id (· ▸ old)⟩

theorem IsFirsts.snoc_new {xs ys : List α} {x : α} (firsts : IsFirsts xs ys) (new : x ∉ xs) :
    IsFirsts (xs ++ [x]) (ys ++ [x]) := by
  refine ⟨fun y => by simp [firsts.mem], ?_⟩
  refine List.pairwise_append.mpr ⟨firsts.ordered_snoc x, by simp, ?_⟩
  intro a ha b hb
  cases List.mem_singleton.mp hb
  have member := (firsts.mem a).mp ha
  rw [List.idxOf_append_of_mem member, List.idxOf_append_of_notMem new]
  exact Nat.lt_add_right _ (List.idxOf_lt_length_of_mem member)

omit [LawfulBEq α] in
theorem TokenTable.firsts_snoc (xs : List α) (x : α) :
    firsts (xs ++ [x]) = if (firsts xs).contains x then firsts xs else firsts xs ++ [x] := by
  rw [firsts, List.foldl_append]
  rfl

theorem TokenTable.isFirsts_firsts (xs : List α) : IsFirsts xs (TokenTable.firsts xs) := by
  induction xs using List.reverseRecOn with
  | nil => exact ⟨by simp [firsts], .nil⟩
  | append_singleton xs x ih =>
    rw [firsts_snoc]
    by_cases old : x ∈ xs
    · rw [if_pos (by simpa [ih.mem] using old)]
      exact ih.snoc_old old
    · rw [if_neg (by simpa [ih.mem] using old)]
      exact ih.snoc_new old

theorem TokenTable.mem_firsts {xs : List α} {x : α} : x ∈ TokenTable.firsts xs ↔ x ∈ xs :=
  (TokenTable.isFirsts_firsts xs).mem x

end Firsts

end Pegsmith
