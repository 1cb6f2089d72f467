import Mathlib.Data.Option.NAry
import Mathlib.Tactic.Tauto
import Pegsmith.Proofs.Plan.Derivation

set_option autoImplicit false

namespace Pegsmith

namespace Plan

mutual

def ends : Plan → List Plan
  | .token kind use => [.token kind use]
  | .call nonTerminal keep into => [.call nonTerminal keep into]
  | .sequence parts | .concat parts | .choice parts => endsEach parts
  | .single inner | .present inner | .pack inner | .collect inner _ | .loop inner _ _
  | .optional inner _ => inner.ends

def endsEach : List Plan → List Plan
  | [] => []
  | p :: ps => p.ends ++ endsEach ps

end

theorem ends_convert (demand : Demand) (plan : Plan) :
    (FitContext.convert demand plan).ends = plan.ends := by
  obtain kept | ⟨type, item, -, collected⟩ := FitContext.convert_cases demand plan
  · rw [kept]
  · rw [collected]
    rfl

end Plan

namespace FitContext

def both (xs ys : Option (List Plan)) : Option (List Plan) :=
  Option.map₂ (· ++ ·) xs ys

@[simp] theorem none_both (ys : Option (List Plan)) : both none ys = none := rfl

@[simp] theorem both_none (xs : Option (List Plan)) : both xs none = none :=
  Option.map₂_none_right ..

@[simp] theorem both_nil (xs : Option (List Plan)) : both xs (some []) = xs := by
  cases xs <;> simp [both]

@[simp] theorem nil_both (ys : Option (List Plan)) : both (some []) ys = ys := by
  cases ys <;> simp [both]

theorem both_assoc (xs ys zs : Option (List Plan)) :
    both (both xs ys) zs = both xs (both ys zs) :=
  Option.map₂_assoc List.append_assoc

def endsOf (x : Except FitError Plan) : Option (List Plan) :=
  x.toOption.map Plan.ends

def endsOfEach (x : Except FitError (List Plan)) : Option (List Plan) :=
  x.toOption.map Plan.endsEach

@[simp] theorem endsOf_ok (plan : Plan) : endsOf (.ok plan) = some plan.ends := rfl

@[simp] theorem endsOf_error (e : FitError) : endsOf (.error e) = none := rfl

@[simp] theorem endsOfEach_nil : endsOfEach (.ok []) = some [] := rfl

theorem endsOf_map {x : Except FitError Plan} {f : Plan → Plan}
    (same : ∀ plan, (f plan).ends = plan.ends) : endsOf (do return f (← x)) = endsOf x := by
  cases x with
  | error e => rfl
  | ok plan => exact congrArg some (same plan)

theorem endsOf_mapEach {x : Except FitError (List Plan)} {f : List Plan → Plan}
    (same : ∀ plans, (f plans).ends = Plan.endsEach plans) :
    endsOf (do return f (← x)) = endsOfEach x := by
  cases x with
  | error e => rfl
  | ok plans => exact congrArg some (same plans)

theorem endsOfEach_cons (x : Except FitError Plan) (y : Except FitError (List Plan)) :
    endsOfEach (do
      let plan ← x
      return plan :: (← y)) = both (endsOf x) (endsOfEach y) := by
  cases x with
  | error e => rfl
  | ok plan => cases y <;> rfl

theorem isSome_endsOf {x : Except FitError Plan} :
    (endsOf x).isSome = true ↔ ∃ plan, x = .ok plan := by
  cases x <;> simp

variable {cx : FitContext}

def skimEnds (cx : FitContext) : Bool → Pattern → Option (List Plan)
  | discarded, .terminal kind _ => if discarded then some [.token kind .nothing] else none
  | discarded, .nonTerminal name =>
    if discarded && (cx.value? name).isSome then some [.call name false none] else none
  | discarded, .sequence p q | discarded, .choice p q =>
    both (cx.skimEnds discarded p) (cx.skimEnds discarded q)
  | discarded, .zeroOrMore p | discarded, .oneOrMore p | discarded, .optional p
  | discarded, .group p => cx.skimEnds discarded p
  | _, .discard p => cx.skimEnds true p

theorem skimEnds_of_valued {p : Pattern} (valued : p.isVoid = false) :
    cx.skimEnds false p = none := by
  induction p with
  | terminal | nonTerminal => rfl
  | sequence p q ihP ihQ =>
    rw [Pattern.isVoid_sequence, Bool.and_eq_false_iff] at valued
    cases valued with
    | inl first => rw [skimEnds, ihP first, none_both]
    | inr second => rw [skimEnds, ihQ second, both_none]
  | choice p q ih _ => rw [skimEnds, ih valued, none_both]
  | zeroOrMore p ih | oneOrMore p ih | optional p ih | group p ih => exact ih valued
  | discard => cases valued

theorem endsOf_matchPart_of_valued {p : Pattern} (valued : p.isVoid = false) :
    endsOf (cx.matchPart false p) = none := by
  rw [matchPart, valued]
  rfl

theorem endsOfEach_matchEach_cons (discarded : Bool) (p : Pattern) (ps : List Pattern) :
    endsOfEach (cx.matchEach discarded (p :: ps)) =
      both (endsOf (cx.matchPart discarded p)) (endsOfEach (cx.matchEach discarded ps)) := by
  rw [matchEach, endsOfEach_cons]

theorem endsOfEach_matchEach_single (discarded : Bool) (p : Pattern) :
    endsOfEach (cx.matchEach discarded [p]) = endsOf (cx.matchPart discarded p) := by
  rw [endsOfEach_matchEach_cons, matchEach, endsOfEach_nil, both_nil]

structure Skimmed (cx : FitContext) (discarded : Bool) (p : Pattern) : Prop where
  part : endsOf (cx.matchPart discarded p) = cx.skimEnds discarded p
  items : endsOfEach (cx.matchEach discarded p.items) = cx.skimEnds discarded p
  branches : endsOfEach (cx.matchEach discarded p.branches) = cx.skimEnds discarded p

theorem part_of_matchOnly {discarded : Bool} {p : Pattern}
    (only : (discarded || p.isVoid) = true →
      endsOf (cx.matchOnly discarded p) = cx.skimEnds discarded p) :
    endsOf (cx.matchPart discarded p) = cx.skimEnds discarded p := by
  by_cases void : (discarded || p.isVoid) = true
  · rw [matchPart, if_pos void, only void]
  · rw [Bool.not_eq_true, Bool.or_eq_false_iff] at void
    rw [void.1, endsOf_matchPart_of_valued void.2, skimEnds_of_valued void.2]

theorem skimmed (cx : FitContext) (discarded : Bool) (p : Pattern) : cx.Skimmed discarded p := by
  have single {discarded : Bool} {p : Pattern}
      (part : endsOf (cx.matchPart discarded p) = cx.skimEnds discarded p) :
      endsOfEach (cx.matchEach discarded [p]) = cx.skimEnds discarded p := by
    rw [endsOfEach_matchEach_single, part]
  have whole {discarded : Bool} {p : Pattern} (items : p.items = [p]) (branches : p.branches = [p])
      (part : endsOf (cx.matchPart discarded p) = cx.skimEnds discarded p) :
      cx.Skimmed discarded p :=
    ⟨part, items ▸ single part, branches ▸ single part⟩
  -- A sequence needs the items of its back, and a choice its branches, so all three go together.
  induction p generalizing discarded with
  | terminal kind decode =>
    refine whole rfl rfl (part_of_matchOnly fun void => ?_)
    cases discarded with
    | true => rw [matchOnly]; rfl
    | false => cases void
  | nonTerminal name =>
    refine whole rfl rfl (part_of_matchOnly fun void => ?_)
    cases discarded with
    | true =>
      rw [matchOnly, skimEnds, Bool.true_and]
      split <;> rfl
    | false => cases void
  | sequence p q ihP ihQ =>
    have items : endsOfEach (cx.matchEach discarded (Pattern.sequence p q).items) =
        cx.skimEnds discarded (.sequence p q) := by
      rw [Pattern.items, endsOfEach_matchEach_cons, (ihP discarded).part, (ihQ discarded).items,
        skimEnds]
    have part : endsOf (cx.matchPart discarded (.sequence p q)) =
        cx.skimEnds discarded (.sequence p q) := by
      refine part_of_matchOnly fun _ => ?_
      rw [matchOnly, endsOf_mapEach (fun _ => by rw [Plan.ends]), items]
    exact ⟨part, items, single part⟩
  | choice p q ihP ihQ =>
    have branches : endsOfEach (cx.matchEach discarded (Pattern.choice p q).branches) =
        cx.skimEnds discarded (.choice p q) := by
      rw [Pattern.branches, endsOfEach_matchEach_cons, (ihP discarded).part,
        (ihQ discarded).branches, skimEnds]
    have part : endsOf (cx.matchPart discarded (.choice p q)) =
        cx.skimEnds discarded (.choice p q) := by
      refine part_of_matchOnly fun _ => ?_
      rw [matchOnly, endsOf_mapEach (fun _ => by rw [Plan.ends]), branches]
    exact ⟨part, single part, branches⟩
  | zeroOrMore p ih | oneOrMore p ih | optional p ih =>
    refine whole rfl rfl (part_of_matchOnly fun _ => ?_)
    rw [matchOnly, endsOf_map (fun _ => by rw [Plan.ends]), (ih discarded).part, skimEnds]
  | group p ih =>
    refine whole rfl rfl (part_of_matchOnly fun _ => ?_)
    rw [matchOnly, (ih discarded).part, skimEnds]
  | discard p ih =>
    refine whole rfl rfl (part_of_matchOnly fun _ => ?_)
    rw [matchOnly, skimEnds, ← (ih true).part, matchPart, Bool.true_or, if_pos rfl]

theorem plan_empty_eq (cx : FitContext) (p : Pattern) :
    cx.plan p .empty = cx.matchPart false p := by
  rw [plan, Demand.width, if_neg (by simp), fit.eq_def, if_pos rfl]
  cases cx.matchPart false p <;> rfl

def KnownCalls (cx : FitContext) (leaves : List Pattern.Leaf) : Prop :=
  ∀ name, Pattern.Leaf.nonTerminal name ∈ leaves → (cx.value? name).isSome = true

theorem knownCalls_append (leaves others : List Pattern.Leaf) :
    cx.KnownCalls (leaves ++ others) ↔ cx.KnownCalls leaves ∧ cx.KnownCalls others := by
  simp only [KnownCalls, List.mem_append, or_imp, forall_and]

theorem isSome_both {xs ys : Option (List Plan)} :
    (both xs ys).isSome = true ↔ xs.isSome = true ∧ ys.isSome = true := by
  cases xs <;> cases ys <;> simp [both]

theorem isSome_skimEnds {discarded : Bool} {p : Pattern} :
    (cx.skimEnds discarded p).isSome = true ↔
      (discarded = true ∨ p.keptLeaves = 0) ∧ cx.KnownCalls p.leaves := by
  induction p generalizing discarded with
  | terminal => cases discarded <;> simp [skimEnds, Pattern.keptLeaves, KnownCalls, Pattern.leaves]
  | nonTerminal name =>
    cases discarded <;> simp [skimEnds, Pattern.keptLeaves, KnownCalls, Pattern.leaves]
  | sequence p q ihP ihQ | choice p q ihP ihQ =>
    rw [skimEnds, isSome_both, ihP, ihQ, Pattern.keptLeaves, Nat.add_eq_zero_iff, Pattern.leaves,
      knownCalls_append]
    tauto
  | zeroOrMore p ih | oneOrMore p ih | optional p ih | group p ih => exact ih
  | discard p ih =>
    rw [skimEnds, ih, Pattern.keptLeaves]
    simp [KnownCalls, Pattern.leaves]

theorem arity_of_mem_skimEnds {discarded : Bool} {p : Pattern} {ends : List Plan}
    (found : cx.skimEnds discarded p = some ends) : ∀ plan ∈ ends, plan.arity = 0 := by
  induction p generalizing discarded ends with
  | terminal | nonTerminal =>
    rw [skimEnds] at found
    split at found <;> cases found
    simp [Plan.arity]
  | sequence p q ihP ihQ | choice p q ihP ihQ =>
    rw [skimEnds, both, Option.map₂_eq_some_iff] at found
    obtain ⟨first, second, left, right, rfl⟩ := found
    exact List.forall_mem_append.mpr ⟨ihP left, ihQ right⟩
  | zeroOrMore p ih | oneOrMore p ih | optional p ih | group p ih | discard p ih => exact ih found

/-- Where nothing is asked for, a pattern has a plan exactly if each of its leaves is discarded
and every non-terminal that it calls has a value, and no end of the plan gives one. -/
theorem plan_empty (cx : FitContext) (p : Pattern) :
    ((∃ plan, cx.plan p .empty = .ok plan) ↔
      p.keptLeaves = 0 ∧
        ∀ name, Pattern.Leaf.nonTerminal name ∈ p.leaves → (cx.value? name).isSome = true) ∧
    ∀ plan, cx.plan p .empty = .ok plan → ∀ part ∈ plan.ends, part.arity = 0 := by
  rw [plan_empty_eq]
  constructor
  · rw [← isSome_endsOf, (cx.skimmed false p).part, isSome_skimEnds]
    simp [KnownCalls]
  · intro plan made
    have found := (cx.skimmed false p).part
    rw [made, endsOf_ok] at found
    exact arity_of_mem_skimEnds found.symm

end FitContext

end Pegsmith
