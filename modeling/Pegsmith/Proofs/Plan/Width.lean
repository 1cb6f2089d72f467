import Mathlib
import Pegsmith.Grammar.Lowered
import Pegsmith.Proofs.Plan.Parts
import Pegsmith.Proofs.Types.Views

set_option autoImplicit false

namespace Pegsmith

namespace Demand

variable {types : TypeSystem} {tokenType t : HostType}

theorem width_of_within {n : Nat} {demand : Demand}
    (read : within types tokenType n t = some demand) :
    demand.width = 1 ∨ types.view t = .unit := by
  cases n with
  | zero => cases read
  | succ n =>
    rw [within] at read
    split at read
    · cases read
      exact .inl rfl
    · split at read
      · cases read
        exact .inl rfl
      · split at read
        case h_8 unit => exact .inr unit
        case h_5 | h_6 | h_7 =>
          obtain ⟨_, -, rfl⟩ := Option.map_eq_some_iff.mp read
          exact .inl rfl
        all_goals
          cases read
          exact .inl rfl

theorem width_of_ofParams {params : List HostType} {demand : Demand}
    (read : ofParams types tokenType params = .ok demand)
    (noUnit : ∀ t ∈ params, types.view t ≠ .unit) : demand.width = params.length := by
  obtain ⟨demands, each, rfl⟩ := ofParams_eq_ok_iff.mp read
  clear read
  rw [width_chain]
  induction each with
  | nil => rfl
  | @cons t first ts rest found _ ih =>
    obtain ⟨here, others⟩ := List.forall_mem_cons.mp noUnit
    have one := (width_of_within (ofType_eq_ok_iff.mp found)).resolve_right here
    rw [List.foldr_cons, one, ih others, List.length_cons, Nat.add_comm]

end Demand

namespace FitContext

variable {cx : FitContext}

/-- A plan has as many values as its demand is wide, and so has every branch of every choice that is
fitted to a demand, so fitting never reports branches that differ. The values of a plan are as many
as the parameters it was fitted to, unless one of these is a unit. -/
theorem plan_arity (cx : FitContext) :
    (∀ (p : Pattern) (demand : Demand) (plan : Plan), cx.plan p demand = .ok plan →
      plan.arity = demand.width ∧ plan.Everywhere (Plan.WideAs demand)) ∧
    (∀ (a b : Pattern) (demand : Demand) (branches : List Plan),
      cx.fitBranches (Pattern.choice a b).branches demand = .ok branches →
        ∀ branch ∈ branches, branch.arity = demand.width) ∧
    (∀ (p : Pattern) (demand : Demand) (choice : Pattern),
      cx.plan p demand ≠ .error (.branchArity choice)) ∧
    (∀ (g : Grammar) (c : Catalog) (a : Alternative) (target : Target) (demand : Demand)
      (plan : Plan), Demand.ofParams c.types g.tokenType target.params = .ok demand →
      (g.fitContext c.types).plan a.pattern demand = .ok plan →
      plan.arity ≠ target.params.length → ∃ t ∈ target.params, t.tupleElems? = some []) := by
  refine ⟨fun p demand plan made => ⟨arity_of_plan made, ?_⟩, fun a b demand branches made => ?_,
    fun p demand => (returns_plan cx p demand).ne_branchArity,
    fun g c a target demand plan read made differ => ?_⟩
  · exact (sound_of_plan made).mono fun _ both => both.1
  · exact (fits_of_fitBranches made).arity
  · by_contra noUnit
    refine differ ((arity_of_plan made).trans (Demand.width_of_ofParams read fun t member unit => ?_))
    exact noUnit ⟨t, member, Catalog.tupleElems?_of_view unit⟩

end FitContext

namespace Pattern

def kept (ps : List Pattern) : Nat :=
  (ps.map keptLeaves).sum

theorem kept_cons (p : Pattern) (ps : List Pattern) : kept (p :: ps) = p.keptLeaves + kept ps :=
  List.sum_cons

theorem kept_items (p : Pattern) : kept p.items = p.keptLeaves := by
  induction p with
  | sequence first second _ ih => rw [items, kept_cons, ih, keptLeaves]
  | _ => simp [items, kept]

theorem kept_splitValued (ps : List Pattern) :
    kept (splitValued ps).1 + kept (splitValued ps).2 = kept ps := by
  conv_rhs => rw [← splitValued_append ps]
  simp [kept]

theorem keptLeaves_pos {p : Pattern} (valued : p.isVoid = false) : 0 < p.keptLeaves := by
  rw [Nat.pos_iff_ne_zero]
  intro none
  rw [isVoid_of_keptLeaves_eq_zero none] at valued
  cases valued

theorem valued_le_kept (ps : List Pattern) : valued ps ≤ kept ps := by
  induction ps with
  | nil => exact Nat.le_refl 0
  | cons p ps ih =>
    rw [valued_cons, kept_cons]
    cases void : p.isVoid with
    | true => simpa using Nat.le_add_left_of_le ih
    | false =>
      have := keptLeaves_pos void
      simp only [Bool.false_eq_true, if_false]
      omega

end Pattern

namespace FitContext

variable {cx : FitContext}

mutual

theorem Fits.width_le {p : Pattern} {demand : Demand} {plan : Plan} (fits : cx.Fits p demand plan)
    (valued : p.isVoid = false) : demand.width ≤ p.keptLeaves := by
  match fits with
  | .skim void _ =>
    rw [void] at valued
    cases valued
  | .text | .rawToken | .tokenKind => exact Nat.le_refl 1
  | .call _ asked | .callInto _ asked _ =>
    rw [Demand.width_of_type? asked]
    exact Nat.le_refl 1
  | .single _ _ | .present _ _ | .zeroOrMore _ | .oneOrMore _ | .keep _ =>
    exact Pattern.keptLeaves_pos valued
  | .sequence _ items =>
    rw [← Pattern.kept_items]
    exact items.width_le
  | .choice _ branches _ =>
    -- The first branch stands for the others, so it is the one that has values for sure.
    match branches with
    | .cons head _ =>
      rw [Pattern.keptLeaves]
      exact Nat.le_add_right_of_le (head.width_le valued)
  | .default _ _ inner | .group _ inner =>
    rw [Pattern.keptLeaves]
    exact inner.width_le valued

theorem FitsItems.width_le {ps : List Pattern} {demand : Demand} {plan : Plan}
    (fits : cx.FitsItems ps demand plan) : demand.width ≤ Pattern.kept ps := by
  match fits with
  | .skim _ _ => exact Nat.zero_le _
  | .one one parts => exact parts.width_le (by omega)
  | .pair _ front back =>
    rw [← Pattern.kept_splitValued, Demand.width]
    exact Nat.add_le_add front.width_le back.width_le
  | .pack several _ | .concat several _ =>
    -- The one value is made of several items, and each of these has a leaf of its own.
    exact Nat.le_trans (Nat.le_of_lt several) (Pattern.valued_le_kept ps)

theorem FitsEach.width_le {ps : List Pattern} {demand : Demand} {plans : List Plan}
    (fits : cx.FitsEach ps demand plans) (some : 0 < Pattern.valued ps) :
    demand.width ≤ Pattern.kept ps := by
  match fits with
  | .nil => cases some
  | .void void _ tail =>
    rw [Pattern.valued_cons, void] at some
    rw [Pattern.kept_cons]
    exact Nat.le_add_left_of_le (tail.width_le some)
  | .valued valued head _ =>
    rw [Pattern.kept_cons]
    exact Nat.le_add_right_of_le (head.width_le valued)

end

theorem width_le_of_plan {p : Pattern} {demand : Demand} {plan : Plan}
    (made : cx.plan p demand = .ok plan) : demand.width ≤ p.keptLeaves := by
  obtain ⟨inner, fits, -⟩ := fits_of_plan made
  cases void : p.isVoid with
  | false => exact fits.width_le void
  | true =>
    -- What carries no value is refused as a whole where a value is asked for.
    rw [FitContext.plan, void, Bool.true_and] at made
    split at made
    · cases made
    · next none =>
      rw [decide_eq_true_eq, Nat.not_lt, Nat.le_zero] at none
      exact none ▸ Nat.zero_le _

end FitContext

end Pegsmith
