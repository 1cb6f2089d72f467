import Mathlib
import Pegsmith.Proofs.Code.Name
import Pegsmith.Proofs.Results

set_option autoImplicit false

namespace Pegsmith.Code

abbrev Counts := List (String × Nat)

def count (counts : Counts) (kind : String) : Nat :=
  (counts.lookup kind).getD 0

def draw (counts : Counts) (kind : String) : Counts :=
  (kind, count counts kind + 1) :: counts.filter (·.1 != kind)

theorem count_draw (counts : Counts) (kind other : String) :
    count (draw counts kind) other = count counts other + if other = kind then 1 else 0 := by
  by_cases same : other = kind
  · subst same
    simp [count, draw]
  · have kept := lookup_filter_ne counts same
    simp [count, draw, same, List.lookup_cons, beq_false_of_ne same, kept]

structure Name where
  kind : String
  number : Nat
  deriving DecidableEq

namespace Name

def text (x : Name) : String :=
  x.kind ++ toString x.number

structure IsPlain (x : Name) : Prop where
  continues : ∀ c ∈ x.kind.toList, Pattern.continuesName c = true
  ends : ∀ c ∈ x.kind.toList.getLast?, c.isDigit = false

theorem toList_text (x : Name) : x.text.toList = x.kind.toList ++ Nat.toDigits 10 x.number := by
  simp [text]

theorem isDigit_of_mem_toDigits {n : Nat} {c : Char} (member : c ∈ Nat.toDigits 10 n) :
    c.isDigit = true :=
  Nat.isDigit_of_mem_toDigits (by decide) (by decide) member

theorem continuesName_of_mem_text {x : Name} (plain : x.IsPlain) {c : Char}
    (member : c ∈ x.text.toList) : Pattern.continuesName c = true := by
  rw [toList_text] at member
  rcases List.mem_append.mp member with front | digit
  · exact plain.continues c front
  · simp [Pattern.continuesName, Char.isAlphanum, isDigit_of_mem_toDigits digit]

theorem plain_of_stem {stem : String}
    (continues : ∀ c ∈ stem.toList, Pattern.continuesName c = true) (n : Nat) :
    (⟨stem ++ "_", n⟩ : Name).IsPlain := by
  constructor
  · intro c member
    rw [String.toList_append, List.mem_append] at member
    rcases member with letter | underscore
    · exact continues c letter
    · obtain rfl : c = '_' := by simpa using underscore
      rfl
  · simp

theorem text_toList_ne_nil (x : Name) : x.text.toList ≠ [] := by
  simp [toList_text, Nat.toDigits_ne_nil]

theorem dropWhile_reverse_text {x : Name} (plain : x.IsPlain) :
    x.text.toList.reverse.dropWhile Char.isDigit = x.kind.toList.reverse := by
  have digits : ∀ c ∈ (Nat.toDigits 10 x.number).reverse, c.isDigit = true :=
    fun c member => isDigit_of_mem_toDigits (List.mem_reverse.mp member)
  rw [toList_text, List.reverse_append, List.dropWhile_append_of_pos digits]
  have ends := plain.ends
  rw [← List.head?_reverse] at ends
  cases reversed : x.kind.toList.reverse with
  | nil => rfl
  | cons c cs =>
    rw [reversed] at ends
    exact List.dropWhile_cons_of_neg (by simp [ends c rfl])

theorem text_inj {x y : Name} (first : x.IsPlain) (second : y.IsPlain) :
    x.text = y.text ↔ x = y := by
  refine ⟨fun same => ?_, congrArg text⟩
  have kinds := dropWhile_reverse_text first
  rw [same, dropWhile_reverse_text second] at kinds
  have kind : y.kind = x.kind := String.toList_injective (List.reverse_injective kinds)
  rw [text, text, kind] at same
  have number : x.number = y.number := by simpa using same
  cases x
  cases y
  simp_all

end Name

inductive Draws : Counts → List Name → Counts → Prop where
  | nil {counts : Counts} : Draws counts [] counts
  | cons {counts counts' : Counts} {kind : String} {names : List Name}
      (rest : Draws (draw counts kind) names counts') :
      Draws counts (⟨kind, count counts kind + 1⟩ :: names) counts'

namespace Draws

variable {counts counts' counts'' : Counts} {names others : List Name}

theorem append (first : Draws counts names counts') (second : Draws counts' others counts'') :
    Draws counts (names ++ others) counts'' := by
  induction first with
  | nil => exact second
  | cons _ ih => exact .cons (ih second)

theorem count_eq (draws : Draws counts names counts') (kind : String) :
    count counts' kind = count counts kind + names.countP (·.kind = kind) := by
  induction draws with
  | nil => rfl
  | @cons _ _ drawn _ _ ih =>
    rw [ih, count_draw, List.countP_cons]
    by_cases same : kind = drawn
    · simp [same]
      omega
    · simp [same, eq_comm]

theorem count_eq_of_kind {kind other : String} (draws : Draws counts names counts')
    (kinds : ∀ x ∈ names, x.kind = kind) (apart : kind ≠ other) :
    count counts' other = count counts other := by
  have none : names.countP (·.kind = other) = 0 :=
    List.countP_eq_zero.mpr fun x member => by simp [kinds x member, apart]
  rw [draws.count_eq, none, Nat.add_zero]

theorem mem_iff (draws : Draws counts names counts') (x : Name) :
    x ∈ names ↔ count counts x.kind < x.number ∧ x.number ≤ count counts' x.kind := by
  induction draws with
  | nil => simp
  | @cons counts _ kind names rest ih =>
    -- The first name has the number next to the count, all others of its kind are above.
    have increases := rest.count_eq x.kind
    rw [List.mem_cons, ih, count_draw] at *
    by_cases same : x.kind = kind
    · have here : x = ⟨kind, count counts kind + 1⟩ ↔ x.number = count counts kind + 1 := by
        cases x
        simp_all
      rw [here]
      simp only [same, if_true] at *
      omega
    · have here : x ≠ ⟨kind, count counts kind + 1⟩ := fun head => same (congrArg Name.kind head)
      simp [here, same]

theorem nodup (draws : Draws counts names counts') : names.Nodup := by
  induction draws with
  | nil => exact List.nodup_nil
  | @cons counts _ kind _ rest ih =>
    refine List.nodup_cons.mpr ⟨fun member => ?_, ih⟩
    have later := ((rest.mem_iff _).mp member).1
    simp [count_draw] at later

theorem nodup_of_subperm (draws : Draws counts names counts') (drawn : others.Subperm names) :
    others.Nodup := by
  obtain ⟨same, perm, sublist⟩ := drawn
  exact perm.nodup_iff.mp (draws.nodup.sublist sublist)

end Draws

end Pegsmith.Code
