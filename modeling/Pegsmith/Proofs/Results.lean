import Mathlib.Data.List.Forall2

set_option autoImplicit false

namespace Pegsmith

theorem ok_of_bind {ε α β : Type} {x : Except ε α} {f : α → Except ε β} {b : β}
    (returned : (x >>= f) = .ok b) : ∃ a, x = .ok a ∧ f a = .ok b := by
  cases x with
  | error e => cases returned
  | ok a => exact ⟨a, rfl, returned⟩

theorem ok_of_map {ε α β : Type} {x : Except ε α} {f : α → β} {b : β}
    (returned : (do return f (← x)) = Except.ok b) : ∃ a, x = .ok a ∧ b = f a := by
  obtain ⟨a, found, same⟩ := ok_of_bind returned
  exact ⟨a, found, (Except.ok.inj same).symm⟩

theorem ok_of_exceptMap {ε α β : Type} {x : Except ε α} {f : α → β} {b : β}
    (returned : x.map f = .ok b) : ∃ a, x = .ok a ∧ f a = b := by
  cases x with
  | error e => cases returned
  | ok a => exact ⟨a, rfl, Except.ok.inj returned⟩

theorem ok_of_mapError {ε ε' α : Type} {x : Except ε α} {f : ε → ε'} {a : α}
    (returned : x.mapError f = .ok a) : x = .ok a := by
  cases x with
  | error e => cases returned
  | ok b => exact congrArg Except.ok (Except.ok.inj returned)

theorem error_of_mapError {ε ε' α : Type} {x : Except ε α} {f : ε → ε'} {e' : ε'}
    (failed : x.mapError f = .error e') : ∃ e, x = .error e ∧ f e = e' := by
  cases x with
  | error e => exact ⟨e, rfl, Except.error.inj failed⟩
  | ok a => cases failed

theorem exists_mapM {α β : Type} {f : α → Option β} {as : List α}
    (each : ∀ a ∈ as, ∃ b, f a = some b) : ∃ bs, as.mapM f = some bs := by
  induction as with
  | nil => exact ⟨[], rfl⟩
  | cons a as ih =>
    obtain ⟨b, first⟩ := each a List.mem_cons_self
    obtain ⟨bs, rest⟩ := ih fun c member => each c (List.mem_cons_of_mem a member)
    exact ⟨b :: bs, by simp [List.mapM_cons, first, rest]⟩

theorem forall₂_of_mapM {α β : Type} {f : α → Option β} {xs : List α} {ys : List β}
    (read : xs.mapM f = some ys) : List.Forall₂ (fun y x => f x = some y) ys xs := by
  induction xs generalizing ys with
  | nil =>
    cases read
    exact .nil
  | cons x xs ih =>
    rw [List.mapM_cons] at read
    obtain ⟨y, found, read⟩ := Option.bind_eq_some_iff.mp read
    obtain ⟨rest, others, read⟩ := Option.bind_eq_some_iff.mp read
    cases read
    exact .cons found (ih others)

theorem lookup_filter_ne {β : Type} (entries : List (String × β)) {name other : String}
    (apart : other ≠ name) :
    (entries.filter (·.1 != name)).lookup other = entries.lookup other := by
  induction entries with
  | nil => rfl
  | cons entry entries ih =>
    obtain ⟨key, value⟩ := entry
    by_cases same : key = name
    · subst same
      rw [List.filter_cons_of_neg (by simp), ih, List.lookup_cons, beq_false_of_ne apart]
    · rw [List.filter_cons_of_pos (by simpa using same), List.lookup_cons, List.lookup_cons, ih]

section Forall₂

variable {α β γ : Type} {R : α → β → Prop} {S : β → γ → Prop} {xs : List α} {ys : List β}
  {zs : List γ}

theorem forall₂_filterMap {f : α → Option β} (each : ∀ x ∈ xs, ∃ y, f x = some y) :
    List.Forall₂ (fun x y => f x = some y) xs (xs.filterMap f) := by
  induction xs with
  | nil => exact .nil
  | cons x xs ih =>
    obtain ⟨y, found⟩ := each x List.mem_cons_self
    rw [List.filterMap_cons_some found]
    exact .cons found (ih fun z member => each z (List.mem_cons_of_mem x member))

theorem forall₂_filter_filterMap {p : α → Bool} {f : α → Option β} (xs : List α)
    (given : ∀ x, p x = true → ∃ y, f x = some y ∧ R x y) (left : ∀ x, p x = false → f x = none) :
    List.Forall₂ R (xs.filter p) (xs.filterMap f) := by
  induction xs with
  | nil => exact .nil
  | cons x xs ih =>
    cases holds : p x with
    | false => simpa [holds, left x holds] using ih
    | true =>
      obtain ⟨y, found, related⟩ := given x holds
      simpa [holds, found] using ⟨related, ih⟩

theorem exists_right_of_forall₂ (related : List.Forall₂ R xs ys) {x : α} (member : x ∈ xs) :
    ∃ y ∈ ys, R x y := by
  induction related with
  | nil => cases member
  | @cons _ y _ _ first _ ih =>
    cases member with
    | head => exact ⟨y, List.mem_cons_self, first⟩
    | tail _ later =>
      obtain ⟨z, found, related⟩ := ih later
      exact ⟨z, List.mem_cons_of_mem y found, related⟩

theorem exists_left_of_forall₂ (related : List.Forall₂ R xs ys) {y : β} (member : y ∈ ys) :
    ∃ x ∈ xs, R x y :=
  exists_right_of_forall₂ (R := flip R) related.flip member

theorem forall₂_comp (first : List.Forall₂ R xs ys) (second : List.Forall₂ S ys zs) :
    List.Forall₂ (fun x z => ∃ y, R x y ∧ S y z) xs zs := by
  induction first generalizing zs with
  | nil =>
    cases second
    exact .nil
  | cons related _ ih =>
    cases second with
    | cons related' rest => exact .cons ⟨_, related, related'⟩ (ih rest)

theorem map_eq_of_forall₂ (related : List.Forall₂ R xs ys) {f : α → γ} {g : β → γ}
    (same : ∀ x y, R x y → f x = g y) : xs.map f = ys.map g := by
  induction related with
  | nil => rfl
  | cons here _ ih => rw [List.map_cons, List.map_cons, same _ _ here, ih]

theorem flatMap_eq_of_forall₂ (related : List.Forall₂ R xs ys) {f : α → List γ} {g : β → List γ}
    (same : ∀ x y, R x y → f x = g y) : xs.flatMap f = ys.flatMap g := by
  rw [List.flatMap_def, List.flatMap_def, map_eq_of_forall₂ related same]

theorem filterMap_eq_of_forall₂ (related : List.Forall₂ R xs ys) {f : α → Option γ}
    {g : β → Option γ} (same : ∀ x y, R x y → f x = g y) : xs.filterMap f = ys.filterMap g := by
  induction related with
  | nil => rfl
  | cons here _ ih => rw [List.filterMap_cons, List.filterMap_cons, same _ _ here, ih]

end Forall₂

end Pegsmith
