import Mathlib
import Pegsmith.Proofs.Plan.Soundness

set_option autoImplicit false

namespace Pegsmith

namespace Plan

def parts : Plan → List Plan
  | .token _ _ | .call _ _ _ => []
  | .sequence parts | .concat parts | .choice parts => parts
  | .single inner | .present inner | .pack inner | .collect inner _ | .loop inner _ _
  | .optional inner _ => [inner]

def Contains : Plan → Plan → Prop :=
  Relation.ReflTransGen fun p part => part ∈ p.parts

def Everywhere (holds : Plan → Prop) (p : Plan) : Prop :=
  ∀ part, p.Contains part → holds part

theorem everywhere_iff {holds : Plan → Prop} {p : Plan} :
    p.Everywhere holds ↔ holds p ∧ ∀ part ∈ p.parts, part.Everywhere holds := by
  constructor
  · intro each
    exact ⟨each p .refl, fun part member inner inside => each inner (.head member inside)⟩
  · rintro ⟨itself, each⟩ inner inside
    obtain rfl | ⟨part, member, deeper⟩ := inside.cases_head
    · exact itself
    · exact each part member inner deeper

theorem everywhere_around {holds : Plan → Prop} {p inner : Plan} (itself : holds p)
    (around : p.parts = [inner]) (each : inner.Everywhere holds) : p.Everywhere holds := by
  rw [everywhere_iff, around]
  exact ⟨itself, List.forall_mem_singleton.mpr each⟩

theorem Everywhere.mono {holds others : Plan → Prop} {p : Plan} (each : p.Everywhere holds)
    (weaker : ∀ part, holds part → others part) : p.Everywhere others :=
  fun part inside => weaker part (each part inside)

def isHollow : Plan → Bool
  | .optional inner .keep => inner.arity == 0
  | _ => false

end Plan

namespace Demand

def inner : Demand → List Demand
  | .list _ item => [item]
  | .optional _ value => [value]
  | .tuple _ members => [members]
  | .pair first rest => [first, rest]
  | .empty | .rawToken _ | .text _ | .tokenKind _ | .named _ => []

def Contains : Demand → Demand → Prop :=
  Relation.ReflTransGen fun demand part => part ∈ demand.inner

def asksOptionalUnit : Demand → Bool
  | .optional _ value => value == .empty || value.asksOptionalUnit
  | .list _ item => item.asksOptionalUnit
  | .tuple _ members => members.asksOptionalUnit
  | .pair first rest => first.asksOptionalUnit || rest.asksOptionalUnit
  | .empty | .rawToken _ | .text _ | .tokenKind _ | .named _ => false

theorem not_asksOptionalUnit_inside {demand part : Demand} (inside : part ∈ demand.inner)
    (noUnit : demand.asksOptionalUnit = false) : part.asksOptionalUnit = false := by
  cases demand with
  | list type item | tuple type item =>
    obtain rfl := List.mem_singleton.mp inside
    exact noUnit
  | optional type value =>
    obtain rfl := List.mem_singleton.mp inside
    rw [asksOptionalUnit, Bool.or_eq_false_iff] at noUnit
    exact noUnit.2
  | pair first rest =>
    rw [asksOptionalUnit, Bool.or_eq_false_iff] at noUnit
    rcases List.mem_pair.mp inside with rfl | rfl
    · exact noUnit.1
    · exact noUnit.2
  | empty | rawToken | text | tokenKind | named => cases inside

end Demand

/-- All branches of a choice have as many values as one demand, inside of the given one or empty,
is wide. Any other plan will do. -/
def Plan.WideAs (demand : Demand) : Plan → Prop
  | .choice branches =>
    ∃ asked, (asked = .empty ∨ demand.Contains asked) ∧
      ∀ branch ∈ branches, branch.arity = asked.width
  | _ => True

theorem Plan.WideAs.mono {demand part : Demand} {plan : Plan} (wide : plan.WideAs part)
    (inside : demand.Contains part) : plan.WideAs demand := by
  cases plan with
  | choice branches =>
    obtain ⟨asked, empty | deeper, each⟩ := wide
    · exact ⟨asked, .inl empty, each⟩
    · exact ⟨asked, .inr (inside.trans deeper), each⟩
  | _ => trivial

theorem Plan.WideAs.arity_eq {demand : Demand} {branches : List Plan}
    (wide : (Plan.choice branches).WideAs demand) :
    ∀ branch ∈ branches, branch.arity = (Plan.choice branches).arity := by
  obtain ⟨asked, -, each⟩ := wide
  rw [Plan.arity]
  exact Plan.arity_eq_firstArity each

namespace FitContext

open Plan (everywhere_iff everywhere_around)
open TypeContext (filled_of_fitsItems)

variable {cx : FitContext}

theorem arity_convert_pos {demand : Demand} {plan : Plan} (some : 0 < plan.arity) :
    0 < (convert demand plan).arity := by
  obtain kept | ⟨type, item, -, collected⟩ := convert_cases demand plan
  · rwa [kept]
  · rw [collected]
    exact Nat.zero_lt_one

mutual

theorem Fits.arity_pos {p : Pattern} {demand : Demand} {plan : Plan}
    (fits : cx.Fits p demand plan) (filled : demand ≠ .empty) : 0 < plan.arity := by
  match fits with
  | .skim _ _ => exact (filled rfl).elim
  | .text | .rawToken | .tokenKind | .call _ _ | .callInto _ _ _ | .single _ _ | .present _ _
  | .zeroOrMore _ | .oneOrMore _ | .keep _ => simp [Plan.arity]
  | .sequence _ items => exact items.arity_pos filled
  | .choice _ branches _ =>
    match branches with
    | .cons head _ => exact head.arity_pos filled
  | .default _ _ inner => exact inner.arity_pos filled
  | .group _ inner => exact inner.arity_pos filled

theorem FitsItems.arity_pos {ps : List Pattern} {demand : Demand} {plan : Plan}
    (fits : cx.FitsItems ps demand plan) (filled : demand ≠ .empty) : 0 < plan.arity := by
  match fits with
  | .skim _ _ => exact (filled rfl).elim
  | .one one parts => exact parts.arities_pos filled (by omega)
  | .pair several front _ =>
    have counts := Pattern.valued_splitValued _ (Nat.lt_trans Nat.zero_lt_one several)
    have first := front.arity_pos (filled_of_fitsItems front (by omega))
    exact Nat.add_pos_left (arity_convert_pos first) _
  | .pack _ _ | .concat _ _ => exact Nat.zero_lt_one

theorem FitsEach.arities_pos {ps : List Pattern} {demand : Demand} {plans : List Plan}
    (fits : cx.FitsEach ps demand plans) (filled : demand ≠ .empty)
    (some : 0 < Pattern.valued ps) : 0 < Plan.arities plans := by
  match fits with
  | .nil => cases some
  | .void void _ tail =>
    rw [Pattern.valued_cons, void] at some
    exact Nat.add_pos_right _ (tail.arities_pos filled some)
  | .valued _ head _ => exact Nat.add_pos_left (head.arity_pos filled) _

end

def SoundFor (demand : Demand) (part : Plan) : Prop :=
  part.WideAs demand ∧ (demand.asksOptionalUnit = false → part.isHollow = false)

theorem sound_convert {demand other : Demand} {plan : Plan}
    (sound : plan.Everywhere (SoundFor demand)) :
    (convert other plan).Everywhere (SoundFor demand) := by
  obtain kept | ⟨type, item, -, collected⟩ := convert_cases other plan
  · rwa [kept]
  · rw [collected]
    exact everywhere_around ⟨trivial, fun _ => rfl⟩ rfl sound

theorem sound_mono {demand part : Demand} {plan : Plan} (inside : part ∈ demand.inner)
    (sound : plan.Everywhere (SoundFor part)) : plan.Everywhere (SoundFor demand) :=
  sound.mono fun _ both => ⟨both.1.mono (.single inside),
    fun noUnit => both.2 (Demand.not_asksOptionalUnit_inside inside noUnit)⟩

theorem sound_inside {demand part : Demand} {plan : Plan} (inside : part ∈ demand.inner)
    (sound : plan.Everywhere (SoundFor part)) :
    (convert part plan).Everywhere (SoundFor demand) :=
  sound_convert (sound_mono inside sound)

mutual

theorem Skims.sound {discarded : Bool} {p : Pattern} {plan : Plan} (demand : Demand)
    (skims : cx.Skims discarded p plan) : plan.Everywhere (SoundFor demand) := by
  match skims with
  | .terminal | .nonTerminal _ =>
    exact everywhere_iff.mpr ⟨⟨trivial, fun _ => rfl⟩, List.forall_mem_nil _⟩
  | .sequence items =>
    exact everywhere_iff.mpr ⟨⟨trivial, fun _ => rfl⟩, items.sound demand⟩
  | .choice branches =>
    -- Nothing is asked for, whatever the demand is.
    have wide : (Plan.choice _).WideAs demand := ⟨.empty, .inl rfl, branches.arity⟩
    exact everywhere_iff.mpr ⟨⟨wide, fun _ => rfl⟩, branches.sound demand⟩
  | .zeroOrMore _ inner | .oneOrMore _ inner | .optional _ inner =>
    exact everywhere_around ⟨trivial, fun _ => rfl⟩ rfl (inner.sound demand)
  | .group _ inner | .discard inner => exact inner.sound demand

theorem SkimsEach.sound {discarded : Bool} {ps : List Pattern} {plans : List Plan}
    (demand : Demand) (skims : cx.SkimsEach discarded ps plans) :
    ∀ plan ∈ plans, plan.Everywhere (SoundFor demand) := by
  match skims with
  | .nil => simp
  | .cons _ head tail => exact List.forall_mem_cons.mpr ⟨head.sound demand, tail.sound demand⟩

end

mutual

theorem Fits.sound {p : Pattern} {demand : Demand} {plan : Plan} (fits : cx.Fits p demand plan) :
    plan.Everywhere (SoundFor demand) := by
  match fits with
  | .skim _ inner => exact inner.sound _
  | .text | .rawToken | .tokenKind | .call _ _ | .callInto _ _ _ =>
    exact everywhere_iff.mpr ⟨⟨trivial, fun _ => rfl⟩, List.forall_mem_nil _⟩
  | .single _ inner | .present _ inner | .zeroOrMore inner | .oneOrMore inner =>
    exact everywhere_around ⟨trivial, fun _ => rfl⟩ rfl
      (sound_inside List.mem_cons_self inner.sound)
  | .keep inner =>
    refine everywhere_around ⟨trivial, fun noUnit => ?_⟩ rfl
      (sound_inside List.mem_cons_self inner.sound)
    -- Where anything but a unit is asked for, the inside has values.
    simp only [Demand.asksOptionalUnit, Bool.or_eq_false_iff, beq_eq_false_iff_ne] at noUnit
    simpa [Plan.isHollow] using (arity_convert_pos (inner.arity_pos noUnit.1)).ne'
  | .sequence _ items => exact items.sound
  | .choice _ branches _ =>
    have wide : (Plan.choice _).WideAs demand := ⟨demand, .inr .refl, branches.arity⟩
    exact everywhere_iff.mpr ⟨⟨wide, fun _ => rfl⟩, branches.sound⟩
  | .default _ _ inner => exact everywhere_around ⟨trivial, fun _ => rfl⟩ rfl inner.sound
  | .group _ inner => exact inner.sound

theorem FitsItems.sound {ps : List Pattern} {demand : Demand} {plan : Plan}
    (fits : cx.FitsItems ps demand plan) : plan.Everywhere (SoundFor demand) := by
  match fits with
  | .skim _ parts => exact everywhere_iff.mpr ⟨⟨trivial, fun _ => rfl⟩, parts.sound _⟩
  | .one _ parts | .concat _ parts =>
    exact everywhere_iff.mpr ⟨⟨trivial, fun _ => rfl⟩, parts.sound⟩
  | .pair _ front back =>
    refine everywhere_iff.mpr ⟨⟨trivial, fun _ => rfl⟩, List.forall_mem_cons.mpr ⟨?_, ?_⟩⟩
    · exact sound_inside List.mem_cons_self front.sound
    · exact List.forall_mem_singleton.mpr
        (sound_inside (List.mem_cons_of_mem _ List.mem_cons_self) back.sound)
  | .pack _ inner =>
    -- The members of a tuple are not converted.
    exact everywhere_around ⟨trivial, fun _ => rfl⟩ rfl
      (sound_mono List.mem_cons_self inner.sound)

theorem FitsEach.sound {ps : List Pattern} {demand : Demand} {plans : List Plan}
    (fits : cx.FitsEach ps demand plans) : ∀ plan ∈ plans, plan.Everywhere (SoundFor demand) := by
  match fits with
  | .nil => simp
  | .void _ head tail => exact List.forall_mem_cons.mpr ⟨head.sound _, tail.sound⟩
  | .valued _ head tail => exact List.forall_mem_cons.mpr ⟨head.sound, tail.sound⟩

theorem FitsBranches.sound {ps : List Pattern} {demand : Demand} {plans : List Plan}
    (fits : cx.FitsBranches ps demand plans) :
    ∀ plan ∈ plans, plan.Everywhere (SoundFor demand) := by
  match fits with
  | .nil => simp
  | .cons head tail => exact List.forall_mem_cons.mpr ⟨head.sound, tail.sound⟩

end

theorem sound_of_plan {p : Pattern} {demand : Demand} {plan : Plan}
    (made : cx.plan p demand = .ok plan) : plan.Everywhere (SoundFor demand) := by
  obtain ⟨inner, fits, rfl⟩ := fits_of_plan made
  exact sound_convert fits.sound

end FitContext

end Pegsmith
