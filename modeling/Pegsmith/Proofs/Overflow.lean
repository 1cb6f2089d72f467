import Pegsmith.Fault
import Pegsmith.Proofs.Results

set_option autoImplicit false

namespace Pegsmith

theorem mapM_eq_ok_iff {ε α β : Type} {f : α → Except ε β} {xs : List α} {ys : List β} :
    xs.mapM f = .ok ys ↔ List.Forall₂ (fun x y => f x = .ok y) xs ys := by
  induction xs generalizing ys with
  | nil =>
    rw [List.mapM_nil, List.forall₂_nil_left_iff, eq_comm]
    exact Except.ok.injEq ys [] ▸ Iff.rfl
  | cons x xs ih =>
    rw [List.mapM_cons]
    constructor
    · intro returned
      obtain ⟨y, first, returned⟩ := ok_of_bind returned
      obtain ⟨rest, others, same⟩ := ok_of_bind returned
      cases same
      exact .cons first (ih.mp others)
    · rintro (_ | ⟨first, others⟩)
      rw [first, ih.mpr others]
      rfl

/-- A computation uses up the stack if there is that reason, and gives something if there is none. -/
def OverflowsIff {α : Type} (computed : Except Fault α) (reason : Prop) : Prop :=
  reason ∧ computed = .error .stackOverflow ∨ ¬reason ∧ ∃ a, computed = .ok a

namespace OverflowsIff

variable {α β : Type} {x : Except Fault α} {P Q : Prop}

theorem error_iff (overflows : OverflowsIff x P) {f : Fault} :
    x = .error f ↔ f = .stackOverflow ∧ P := by
  rcases overflows with ⟨reason, rfl⟩ | ⟨none, a, rfl⟩
  · simp [reason, eq_comm]
  · simp [none]

theorem exists_ok_iff (overflows : OverflowsIff x P) : (∃ a, x = .ok a) ↔ ¬P := by
  rcases overflows with ⟨reason, rfl⟩ | ⟨none, a, rfl⟩
  · simp [reason]
  · simp [none]

theorem congr (overflows : OverflowsIff x P) (same : P ↔ Q) : OverflowsIff x Q :=
  propext same ▸ overflows

theorem of_ok (a : α) : OverflowsIff (.ok a) False :=
  .inr ⟨id, a, rfl⟩

theorem bind {f : α → Except Fault β} {R : α → Prop} (first : OverflowsIff x P)
    (rest : ∀ a, x = .ok a → OverflowsIff (f a) (R a)) :
    OverflowsIff (x >>= f) (P ∨ ∃ a, x = .ok a ∧ R a) := by
  rcases first with ⟨reason, rfl⟩ | ⟨none, a, rfl⟩
  · exact .inl ⟨.inl reason, rfl⟩
  · refine (rest a rfl).congr ?_
    simp [none]

theorem map {f : α → β} (overflows : OverflowsIff x P) : OverflowsIff (do return f (← x)) P :=
  (overflows.bind fun a _ => of_ok (f a)).congr (by simp)

theorem mapM {f : α → Except Fault β} {R : α → Prop} {xs : List α}
    (each : ∀ x ∈ xs, OverflowsIff (f x) (R x)) : OverflowsIff (xs.mapM f) (∃ x ∈ xs, R x) := by
  induction xs with
  | nil => exact (of_ok []).congr (by simp)
  | cons x xs ih =>
    rw [List.mapM_cons, List.exists_mem_cons_iff]
    have first := each x List.mem_cons_self
    have others := ih fun y member => each y (List.mem_cons_of_mem x member)
    refine (first.bind fun y _ => others.map (f := (y :: ·))).congr ?_
    -- What comes behind is looked at only if the first one gives something.
    have known := first.exists_ok_iff
    constructor
    · rintro (here | ⟨_, _, later⟩)
      · exact .inl here
      · exact .inr later
    · rintro (here | later)
      · exact .inl here
      · by_cases reason : R x
        · exact .inl reason
        · obtain ⟨y, gives⟩ := known.mpr reason
          exact .inr ⟨y, gives, later⟩

end OverflowsIff

end Pegsmith
