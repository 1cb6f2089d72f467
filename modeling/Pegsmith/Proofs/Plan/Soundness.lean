import Mathlib
import Pegsmith.Proofs.Plan.Search
import Pegsmith.Proofs.Plan.Typing

/-!
Fitting is sound up to lists that are settled: what a derivation builds has the types that were
asked for exactly when its plan is settled.
-/

set_option autoImplicit false

namespace Pegsmith

namespace TypeContext

open FitContext (convert)

variable {c : TypeContext}

structure Silent (c : TypeContext) (plan : Plan) : Prop where
  typed : plan.HasTypes c []
  settled : ∀ ts, plan.settled c ts = true

theorem Silent.arity {plan : Plan} (silent : c.Silent plan) : plan.arity = 0 :=
  silent.typed.length

theorem Silent.isFinal {plan : Plan} (silent : c.Silent plan) : plan.isFinal c = false :=
  silent.typed.isFinal

theorem Silent.sequence {plans : List Plan} (each : ∀ plan ∈ plans, c.Silent plan) :
    c.Silent (.sequence plans) := by
  induction plans with
  | nil => exact ⟨.sequence .nil, fun _ => rfl⟩
  | cons plan plans ih =>
    have head := each plan List.mem_cons_self
    have tail := ih fun other member => each other (List.mem_cons_of_mem _ member)
    constructor
    · cases tail.typed with
      | sequence typed => exact .sequence (.cons head.typed typed)
    · intro ts
      have rest := tail.settled (ts.drop plan.arity)
      rw [Plan.settled] at rest
      rw [Plan.settled, Plan.settledInOrder, head.settled, rest, Bool.true_and]

theorem Silent.choice {plans : List Plan} (nonempty : plans ≠ [])
    (each : ∀ plan ∈ plans, c.Silent plan) : c.Silent (.choice plans) := by
  have typed : (Plan.choice plans).HasTypes c [] :=
    .choice nonempty fun plan member => (each plan member).typed
  refine ⟨typed, fun ts => ?_⟩
  have final := typed.isFinal
  rw [Plan.isFinal] at final
  rw [Plan.settled, Bool.and_eq_true, List.all_eq_true]
  constructor
  · intro plan member
    rw [(each plan member).isFinal, final]
    rfl
  · exact Plan.settledEach_iff.mpr fun plan member => (each plan member).settled ts

mutual

theorem silent_of_skims (c : TypeContext) {cx : FitContext} {discarded : Bool} {p : Pattern} {plan : Plan}
    (skims : cx.Skims discarded p plan) : c.Silent plan := by
  match skims with
  | .terminal => exact ⟨.skip, fun _ => rfl⟩
  | .nonTerminal _ => exact ⟨.pass, fun _ => rfl⟩
  | .sequence items => exact .sequence (silent_of_skimsEach c items).1
  | .choice branches =>
    have each := silent_of_skimsEach c branches
    apply Silent.choice _ each.1
    intro none
    have count := each.2
    rw [none, Pattern.branches] at count
    cases count
  | .zeroOrMore _ inner | .oneOrMore _ inner =>
    exact ⟨.rounds (silent_of_skims c inner).typed, fun _ => rfl⟩
  | .optional _ inner => exact ⟨.attempt (silent_of_skims c inner).typed, fun _ => rfl⟩
  | .group _ inner | .discard inner => exact silent_of_skims c inner

theorem silent_of_skimsEach (c : TypeContext) {cx : FitContext} {discarded : Bool}
    {ps : List Pattern} {plans : List Plan} (skims : cx.SkimsEach discarded ps plans) :
    (∀ plan ∈ plans, c.Silent plan) ∧ plans.length = ps.length := by
  match skims with
  | .nil => simp
  | .cons _ head tail =>
    have rest := silent_of_skimsEach c tail
    simpa [silent_of_skims c head, rest.2] using rest.1

end

/-- The types that a plan has before its list is converted. -/
def built (c : TypeContext) (demand : Demand) (final : Bool) (ts : List HostType) :
    List ValueType :=
  match demand with
  | .list t _ => if c.convertsInto t && !final then (c.inside ts).map .vec else ts.map .host
  | _ => ts.map .host

def Serves (c : TypeContext) (demand : Demand) (ts : List HostType) (vs : List ValueType) : Prop :=
  match demand with
  | .list t _ => ∃ v item, c.types.view t = .list item ∧ vs = [v] ∧ c.IsList v item
  | _ => vs = ts.map .host

/-- Before conversion, a plan for a demand is well typed exactly when it is settled. -/
structure Meets (c : TypeContext) (demand : Demand) (ts : List HostType) (plan : Plan) :
    Prop where
  arity : plan.arity = ts.length
  typed : plan.settled c ts = true → plan.HasTypes c (c.built demand (plan.isFinal c) ts)
  settled : ∀ vs, c.Serves demand ts vs → plan.HasTypes c vs → plan.settled c ts = true

theorem Asks.list_inv {t : HostType} {demand : Demand} {ts : List HostType}
    (asks : c.Asks (.list t demand) ts) :
    ∃ item, ts = [t] ∧ c.types.view t = .list item ∧ c.Asks demand [item] ∧
      c.convertsInto t = !(t.head? == some "Vec") ∧ c.inside [t] = [item] := by
  cases asks with
  | @list _ item _ noKind view inner =>
    refine ⟨item, rfl, view, inner, ?_, by rw [inside_single, view]; rfl⟩
    simp [convertsInto, view, noKind, bne]

theorem Asks.built_list {t item : HostType} {demand : Demand} {v : ValueType}
    (asks : c.Asks (.list t demand) [t]) (view : c.types.view t = .list item)
    (choices : v = .host t ∨ v = .vec item ∧ c.convertsInto t = true) :
    c.built (.list t demand) (c.isFinal v) [t] = [v] := by
  obtain ⟨_, -, same, -, -, inside⟩ := asks.list_inv
  cases view.symm.trans same
  rcases choices with rfl | ⟨rfl, converts⟩
  · cases converts : c.convertsInto t <;> simp [built, TypeContext.isFinal, converts]
  · simp [built, TypeContext.isFinal, converts, inside]

theorem Asks.built_choices {t item : HostType} {demand : Demand}
    (asks : c.Asks (.list t demand) [t]) (view : c.types.view t = .list item) (final : Bool) :
    c.built (.list t demand) final [t] = [.host t] ∨
      c.built (.list t demand) final [t] = [.vec item] ∧ c.convertsInto t = true := by
  obtain ⟨_, -, same, -, -, inside⟩ := asks.list_inv
  cases view.symm.trans same
  rw [built, inside]
  by_cases converts : c.convertsInto t = true
  · cases final <;> simp [converts]
  · simp [converts]

theorem Asks.serves {demand : Demand} {ts : List HostType} (asks : c.Asks demand ts)
    (final : Bool) : c.Serves demand ts (c.built demand final ts) := by
  cases asks with
  | @list t item _ _ view _ =>
    simp only [Serves, built]
    split
    · exact ⟨.vec item, item, view, by rw [inside_single, view]; rfl, .inl rfl⟩
    · exact ⟨.host t, item, view, rfl, .inr ⟨t, rfl, view⟩⟩
  | _ => rfl

theorem convert_list {t : HostType} (noVec : t.head? ≠ some "Vec") (inner : Demand)
    (plan : Plan) :
    (∃ name keep into, plan = .call name keep into ∧ convert (.list t inner) plan = plan) ∨
      convert (.list t inner) plan = .collect plan t := by
  have converts : (Demand.list t inner).isVec = false := by simp [Demand.isVec, noVec]
  cases plan with
  | call name keep into => exact .inl ⟨name, keep, into, rfl, by simp [FitContext.convert]⟩
  | _ => exact .inr (by simp [FitContext.convert, converts])

theorem Meets.convert {demand : Demand} {ts : List HostType} {plan : Plan}
    (meets : c.Meets demand ts plan) (asks : c.Asks demand ts) :
    (convert demand plan).HasTypes c (ts.map .host) ↔ plan.settled c ts = true := by
  cases demand with
  | list t inner =>
    obtain ⟨item, rfl, view, -, converts, inside⟩ := asks.list_inv
    -- A `Vec` is what matching builds, so that nothing is left to convert.
    by_cases vec : t.head? = some "Vec"
    · have kept : FitContext.convert (.list t inner) plan = plan := by
        simp [FitContext.convert, Demand.isVec, vec]
      have built : c.built (.list t inner) (plan.isFinal c) [t] = [.host t] := by
        simp [TypeContext.built, converts, vec]
      rw [kept]
      constructor
      · exact meets.settled [.host t] ⟨.host t, item, view, rfl, .inr ⟨t, rfl, view⟩⟩
      · intro settled
        have typed := meets.typed settled
        rwa [built] at typed
    · rcases convert_list vec inner plan with
        ⟨name, keep, into, rfl, kept⟩ | collected
      · rw [kept]
        constructor
        · exact fun _ => rfl
        -- A call has a type of the host program, and not the `Vec` that matching builds.
        · intro settled
          have typed := meets.typed settled
          rw [TypeContext.built] at typed
          split at typed
          · rw [inside] at typed
            cases typed
          · exact typed
      · rw [collected]
        constructor
        · intro typed
          cases typed with
          | @collect _ v other _ typed source list =>
            exact meets.settled [v] ⟨v, other, list, rfl, source⟩ typed
        · intro settled
          obtain ⟨v, other, list, same, source⟩ := asks.serves (plan.isFinal c)
          have typed := meets.typed settled
          rw [same] at typed
          exact .collect typed source list
  | _ =>
    constructor
    · exact meets.settled _ rfl
    · exact meets.typed

theorem Meets.arity_convert {demand : Demand} {ts : List HostType} {plan : Plan}
    (meets : c.Meets demand ts plan) (asks : c.Asks demand ts) :
    (FitContext.convert demand plan).arity = ts.length := by
  cases asks with
  | @list t _ inner _ _ _ =>
    by_cases vec : t.head? = some "Vec"
    · simpa [FitContext.convert, Demand.isVec, vec] using meets.arity
    · rcases convert_list vec inner plan with ⟨_, _, _, _, kept⟩ | collected
      · rw [kept]
        exact meets.arity
      · rw [collected]
        rfl
  | _ => exact meets.arity

structure Fills (c : TypeContext) (t : HostType) (plan : Plan) : Prop where
  typed : plan.settled c [t] = true → ∃ vs, plan.HasTypes c vs ∧ c.Together vs t
  settled : ∀ vs, c.Together vs t → plan.HasTypes c vs → plan.settled c [t] = true

theorem Silent.fills {t : HostType} {plan : Plan} (silent : c.Silent plan)
    (unit : c.types.view t = .unit) : c.Fills t plan :=
  ⟨fun _ => ⟨[], silent.typed, .inr (.inl ⟨rfl, unit⟩)⟩, fun _ _ _ => silent.settled [t]⟩

theorem Meets.fills {demand : Demand} {t : HostType} {plan : Plan}
    (meets : c.Meets demand [t] plan) (asks : c.Asks demand [t]) :
    c.Fills t (FitContext.convert demand plan) := by
  have arity : (FitContext.convert demand plan).arity = 1 := meets.arity_convert asks
  constructor
  · intro settled
    rw [Plan.settled_convert] at settled
    exact ⟨[.host t], (meets.convert asks).mpr settled, .inl rfl⟩
  · intro vs together typed
    have count := typed.length
    rw [arity] at count
    rw [Plan.settled_convert]
    rcases together with rfl | ⟨rfl, -⟩ | ⟨members, several, rfl, -⟩
    · exact (meets.convert asks).mp typed
    · cases count
    · rw [List.length_map] at count
      omega

theorem IsVec.isList {v : ValueType} {item : HostType} (list : c.IsVec v item) :
    c.IsList v item := by
  rcases list with rfl | ⟨t, rfl, view, -⟩
  · exact .inl rfl
  · exact .inr ⟨t, rfl, view⟩

theorem IsList.unique {v : ValueType} {item other : HostType} (first : c.IsList v item)
    (second : c.IsList v other) : item = other := by
  rcases first with rfl | ⟨t, rfl, view⟩
  · rcases second with same | ⟨t, same, -⟩
    · cases same
      rfl
    · cases same
  · rcases second with same | ⟨u, same, again⟩
    · cases same
    · cases same
      cases view.symm.trans again
      rfl

theorem Asks.built_vec {t item : HostType} {demand : Demand} (asks : c.Asks (.list t demand) [t])
    (view : c.types.view t = .list item) :
    ∃ v, c.IsVec v item ∧ c.built (.list t demand) false [t] = [v] := by
  obtain ⟨_, -, same, -, converts, -⟩ := asks.list_inv
  cases view.symm.trans same
  by_cases vec : t.head? = some "Vec"
  · refine ⟨.host t, .inr ⟨t, rfl, view, vec⟩, ?_⟩
    simp [built, converts, vec]
  · refine ⟨.vec item, .inl rfl, ?_⟩
    simp [built, converts, vec, inside_single, view, TypeView.inside]

theorem Fills.list {t item : HostType} {demand : Demand} {plan whole : Plan}
    (fills : c.Fills item plan) (asks : c.Asks (.list t demand) [t])
    (view : c.types.view t = .list item) (arity : whole.arity = 1)
    (final : whole.isFinal c = false)
    (settled : whole.settled c [t] = plan.settled c (c.inside [t]))
    (types : ∀ vs, whole.HasTypes c vs ↔ ∃ ws item v, plan.HasTypes c ws ∧ c.Together ws item ∧
      c.IsVec v item ∧ vs = [v]) : c.Meets (.list t demand) [t] whole := by
  rw [inside_single, view, TypeView.inside] at settled
  refine ⟨arity, fun isSettled => ?_, fun vs serves typed => ?_⟩
  · rw [settled] at isSettled
    obtain ⟨vs, typed, together⟩ := fills.typed isSettled
    obtain ⟨v, vec, same⟩ := asks.built_vec view
    rw [final, same]
    exact (types [v]).mpr ⟨vs, item, v, typed, together, vec, rfl⟩
  · obtain ⟨v, other, list, rfl, source⟩ := serves
    obtain ⟨ws, inner, w, typed, together, vec, same⟩ := (types [v]).mp typed
    cases same
    -- A list has one type of items, so what was built fits no other place.
    cases view.symm.trans list
    cases vec.isList.unique source
    rw [settled]
    exact fills.settled ws together typed

theorem Fills.optional {t value : HostType} {demand : Demand} {plan whole : Plan}
    (fills : c.Fills value plan) (view : c.types.view t = .optional value)
    (arity : whole.arity = 1) (settled : whole.settled c [t] = plan.settled c (c.inside [t]))
    (types : ∀ vs, whole.HasTypes c vs ↔ ∃ ws value t, plan.HasTypes c ws ∧
      c.Together ws value ∧ c.types.view t = .optional value ∧ vs = [.host t]) :
    c.Meets (.optional t demand) [t] whole := by
  rw [inside_single, view, TypeView.inside] at settled
  refine ⟨arity, fun isSettled => ?_, fun vs serves typed => ?_⟩
  · rw [settled] at isSettled
    obtain ⟨vs, typed, together⟩ := fills.typed isSettled
    exact (types [.host t]).mpr ⟨vs, value, t, typed, together, view, rfl⟩
  · cases serves
    obtain ⟨ws, inner, u, typed, together, option, same⟩ := (types [.host t]).mp typed
    cases same
    cases view.symm.trans option
    rw [settled]
    exact fills.settled ws together typed

theorem Fills.single {t item : HostType} {demand : Demand} {plan : Plan}
    (fills : c.Fills item plan) (asks : c.Asks (.list t demand) [t])
    (view : c.types.view t = .list item) : c.Meets (.list t demand) [t] (.single plan) := by
  refine fills.list asks view rfl rfl rfl fun vs => ⟨fun typed => ?_, ?_⟩
  · cases typed with
    | single typed together vec => exact ⟨_, _, _, typed, together, vec, rfl⟩
  · rintro ⟨ws, item, v, typed, together, vec, rfl⟩
    exact .single typed together vec

theorem Fills.loop {t item : HostType} {demand : Demand} {plan : Plan} (atLeastOne : Bool)
    (fills : c.Fills item plan) (asks : c.Asks (.list t demand) [t])
    (view : c.types.view t = .list item) :
    c.Meets (.list t demand) [t] (.loop plan atLeastOne true) := by
  refine fills.list asks view rfl rfl rfl fun vs => ⟨fun typed => ?_, ?_⟩
  · cases typed with
    | loop typed together vec => exact ⟨_, _, _, typed, together, vec, rfl⟩
  · rintro ⟨ws, item, v, typed, together, vec, rfl⟩
    exact .loop typed together vec

theorem Fills.present {t value : HostType} {demand : Demand} {plan : Plan}
    (fills : c.Fills value plan) (view : c.types.view t = .optional value) :
    c.Meets (.optional t demand) [t] (.present plan) := by
  refine fills.optional view rfl rfl fun vs => ⟨fun typed => ?_, ?_⟩
  · cases typed with
    | present typed together option => exact ⟨_, _, _, typed, together, option, rfl⟩
  · rintro ⟨ws, value, t, typed, together, option, rfl⟩
    exact .present typed together option

theorem Fills.keep {t value : HostType} {demand : Demand} {plan : Plan}
    (fills : c.Fills value plan) (view : c.types.view t = .optional value) :
    c.Meets (.optional t demand) [t] (.optional plan .keep) := by
  refine fills.optional view rfl rfl fun vs => ⟨fun typed => ?_, ?_⟩
  · cases typed with
    | keep typed together option => exact ⟨_, _, _, typed, together, option, rfl⟩
  · rintro ⟨ws, value, t, typed, together, option, rfl⟩
    exact .keep typed together option

theorem Asks.serves_host {demand : Demand} {ts : List HostType} (asks : c.Asks demand ts) :
    c.Serves demand ts (ts.map .host) := by
  cases asks with
  | @list t item _ _ view _ => exact ⟨.host t, item, view, rfl, .inr ⟨t, rfl, view⟩⟩
  | _ => rfl

theorem head?_host (ts : List HostType) :
    (ts.map ValueType.host).head?.any c.isFinal = ts.head?.any c.convertsInto := by
  cases ts <;> rfl

theorem Asks.built_host {demand : Demand} {ts : List HostType} {final : Bool}
    (asks : c.Asks demand ts) (same : final = ts.head?.any c.convertsInto) :
    c.built demand final ts = ts.map .host := by
  cases asks with
  | list =>
    rw [same]
    simp [built]
  | _ => rfl

theorem Meets.direct {demand : Demand} {ts : List HostType} {plan : Plan}
    (asks : c.Asks demand ts) (typed : plan.HasTypes c (ts.map .host))
    (settled : plan.settled c ts = true) : c.Meets demand ts plan := by
  refine ⟨?_, fun _ => ?_, fun _ _ _ => settled⟩
  · rw [typed.length, List.length_map]
  · rwa [asks.built_host (typed.isFinal.trans (head?_host ts))]

theorem Asks.type {demand : Demand} {ts : List HostType} {t : HostType} (asks : c.Asks demand ts)
    (type : demand.type? = some t) : ts = [t] := by
  cases asks <;> simp_all [Demand.type?]

theorem Meets.pack {t : HostType} {members : List HostType} {demand : Demand} {plan : Plan}
    (meets : c.Meets demand members plan) (asks : c.Asks demand members)
    (view : c.types.view t = .tuple members) : c.Meets (.tuple t demand) [t] (.pack plan) := by
  have inside : c.inside [t] = members := by
    rw [inside_single, view, TypeView.inside]
  refine ⟨rfl, fun settled => ?_, fun vs serves typed => ?_⟩
  · rw [Plan.settled, inside, Bool.and_eq_true] at settled
    have typed := meets.typed settled.1
    -- A list that is the only member is not converted any more.
    rw [asks.built_host (eq_of_beq settled.2)] at typed
    exact .pack typed view
  · cases serves
    cases typed with
    | @pack _ others _ typed tuple =>
      cases view.symm.trans tuple
      rw [Plan.settled, inside, Bool.and_eq_true]
      refine ⟨meets.settled _ asks.serves_host typed, ?_⟩
      rw [typed.isFinal, head?_host, beq_self_eq_true]

theorem Meets.default {demand : Demand} {ts : List HostType} {plan : Plan}
    (meets : c.Meets demand ts plan) : c.Meets demand ts (.optional plan .default) := by
  refine ⟨meets.arity, fun settled => .default (meets.typed settled), fun vs serves typed => ?_⟩
  cases typed with
  | default typed => exact meets.settled vs serves typed

theorem Meets.choice {demand : Demand} {ts : List HostType} {plans : List Plan}
    (nonempty : plans ≠ []) (each : ∀ plan ∈ plans, c.Meets demand ts plan) :
    c.Meets demand ts (.choice plans) := by
  refine ⟨?_, fun settled => ?_, fun vs serves typed => ?_⟩
  · match plans, nonempty, each with
    | plan :: _, _, each => exact (each plan List.mem_cons_self).arity
  · rw [Plan.settled, Bool.and_eq_true, List.all_eq_true, Plan.settledEach_iff] at settled
    refine .choice nonempty fun plan member => ?_
    have typed := (each plan member).typed (settled.2 plan member)
    rwa [eq_of_beq (settled.1 plan member)] at typed
  · have final := typed.isFinal
    cases typed with
    | choice _ same =>
      rw [Plan.settled, Bool.and_eq_true, List.all_eq_true, Plan.settledEach_iff]
      constructor
      -- Branches of the same types have lists that are all final or all a `Vec`.
      · intro plan member
        rw [Plan.isFinal] at final
        rw [(same plan member).isFinal, final, beq_self_eq_true]
      · intro plan member
        exact (each plan member).settled vs serves (same plan member)

theorem hasTypes_sequence {plans : List Plan} {vs : List ValueType} :
    (Plan.sequence plans).HasTypes c vs ↔ Plan.HaveTypes c plans vs := by
  constructor
  · intro typed
    cases typed with
    | sequence each => exact each
  · exact .sequence

theorem hasTypes_silent_cons {plan : Plan} {plans : List Plan} {vs : List ValueType}
    (silent : c.Silent plan) :
    (Plan.sequence (plan :: plans)).HasTypes c vs ↔ (Plan.sequence plans).HasTypes c vs := by
  rw [hasTypes_sequence, hasTypes_sequence]
  constructor
  · intro typed
    cases typed with
    | @cons _ _ ws _ head tail =>
      have none := head.length
      rw [silent.arity] at none
      rw [List.eq_nil_of_length_eq_zero none.symm]
      exact tail
  · exact fun typed => .cons silent.typed typed

theorem Meets.silent_cons {demand : Demand} {ts : List HostType} {plan : Plan}
    {plans : List Plan} (silent : c.Silent plan) (meets : c.Meets demand ts (.sequence plans)) :
    c.Meets demand ts (.sequence (plan :: plans)) := by
  -- A part without values neither adds a type nor decides whether the first list is final.
  have final : (Plan.sequence (plan :: plans)).isFinal c = (Plan.sequence plans).isFinal c := by
    simp only [Plan.isFinal, Plan.anyFinal, silent.arity, if_true]
  have settled : (Plan.sequence (plan :: plans)).settled c ts =
      (Plan.sequence plans).settled c ts := by
    simp [Plan.settled, Plan.settledInOrder, silent.arity, silent.settled]
  refine ⟨?_, ?_, ?_⟩
  · have arity := meets.arity
    rw [Plan.arity] at arity
    rw [Plan.arity, Plan.arities, silent.arity, arity, Nat.zero_add]
  · rw [settled, final, hasTypes_silent_cons silent]
    exact meets.typed
  · intro vs serves
    rw [settled, hasTypes_silent_cons silent]
    exact meets.settled vs serves

theorem Meets.cons_silent {demand : Demand} {ts : List HostType} {plan : Plan}
    {plans : List Plan} (meets : c.Meets demand ts plan) (valued : ts ≠ [])
    (silent : c.Silent (.sequence plans)) : c.Meets demand ts (.sequence (plan :: plans)) := by
  -- What is silent adds no types, and whether something is final is seen from the first value.
  have count : plan.arity ≠ 0 := by
    rw [meets.arity]
    exact fun none => valued (List.eq_nil_of_length_eq_zero none)
  have settled : (Plan.sequence (plan :: plans)).settled c ts = plan.settled c ts := by
    have rest := silent.settled (ts.drop plan.arity)
    rw [Plan.settled] at rest
    rw [Plan.settled, Plan.settledInOrder, rest, Bool.and_true, meets.arity, List.take_length]
  have types (vs : List ValueType) :
      (Plan.sequence (plan :: plans)).HasTypes c vs ↔ plan.HasTypes c vs := by
    rw [hasTypes_sequence]
    constructor
    · intro typed
      cases typed with
      | @cons _ _ _ ws head tail =>
        have none := (Plan.HasTypes.sequence tail).length
        rw [silent.arity] at none
        rw [List.eq_nil_of_length_eq_zero none.symm, List.append_nil]
        exact head
    · intro typed
      have whole := Plan.HaveTypes.cons typed (hasTypes_sequence.mp silent.typed)
      rwa [List.append_nil] at whole
  refine ⟨?_, ?_, ?_⟩
  · rw [Plan.arity, Plan.arities, ← Plan.arity, silent.arity, meets.arity, Nat.add_zero]
  · rw [settled, types, Plan.isFinal, Plan.anyFinal, if_neg count]
    exact meets.typed
  · intro vs serves
    rw [settled, types]
    exact meets.settled vs serves

def Part (c : TypeContext) (demand : Demand) (ts : List HostType) (p : Pattern) (plan : Plan) :
    Prop :=
  if p.isVoid then c.Silent plan else c.Meets demand ts plan

theorem Part.silent {demand : Demand} {ts : List HostType} {p : Pattern} {plan : Plan}
    (part : c.Part demand ts p plan) (void : p.isVoid = true) : c.Silent plan := by
  rwa [Part, if_pos void] at part

theorem Part.meets {demand : Demand} {ts : List HostType} {p : Pattern} {plan : Plan}
    (part : c.Part demand ts p plan) (valued : p.isVoid = false) : c.Meets demand ts plan := by
  rwa [Part, if_neg (by simp [valued])] at part

theorem silent_of_parts {demand : Demand} {ts : List HostType} {ps : List Pattern}
    {plans : List Plan} (parts : List.Forall₂ (c.Part demand ts) ps plans)
    (none : Pattern.valued ps = 0) : c.Silent (.sequence plans) := by
  apply Silent.sequence
  induction parts with
  | nil => simp
  | @cons p plan _ _ head tail ih =>
    rw [Pattern.valued_cons] at none
    cases void : p.isVoid with
    | true =>
      rw [void] at none
      simpa [head.silent void] using ih none
    | false => simp [void] at none

theorem Meets.one {demand : Demand} {ts : List HostType} {ps : List Pattern} {plans : List Plan}
    (parts : List.Forall₂ (c.Part demand ts) ps plans) (one : Pattern.valued ps = 1)
    (valued : ts ≠ []) : c.Meets demand ts (.sequence plans) := by
  induction parts with
  | nil => cases one
  | @cons p plan _ _ head tail ih =>
    rw [Pattern.valued_cons] at one
    cases void : p.isVoid with
    | true =>
      rw [void] at one
      exact Meets.silent_cons (head.silent void) (ih one)
    | false =>
      have rest : c.Silent (.sequence _) := silent_of_parts tail (by simpa [void] using one)
      exact (head.meets void).cons_silent valued rest

theorem haveTypes_two {first second : Plan} {vs : List ValueType}
    (typed : Plan.HaveTypes c [first, second] vs) :
    ∃ one others, first.HasTypes c one ∧ second.HasTypes c others ∧ one ++ others = vs := by
  cases typed with
  | cons head tail =>
    cases tail with
    | cons next none =>
      cases none
      exact ⟨_, _, head, next, by rw [List.append_nil]⟩

theorem Meets.pair {t : HostType} {ts : List HostType} {first rest : Demand} {head tail : Plan}
    (front : c.Meets first [t] head) (back : c.Meets rest ts tail) (asksFirst : c.Asks first [t])
    (asksRest : c.Asks rest ts) : c.Meets (.pair first rest) (t :: ts)
      (.sequence [FitContext.convert first head, FitContext.convert rest tail]) := by
  have arity : (FitContext.convert first head).arity = 1 := front.arity_convert asksFirst
  have arities : (FitContext.convert rest tail).arity = ts.length := back.arity_convert asksRest
  have settled : (Plan.sequence [FitContext.convert first head,
      FitContext.convert rest tail]).settled c (t :: ts) = (head.settled c [t] && tail.settled c ts) := by
    simp [Plan.settled, Plan.settledInOrder, arity, arities, Plan.settled_convert]
  refine ⟨?_, fun isSettled => ?_, fun vs serves typed => ?_⟩
  · simp only [Plan.arity, Plan.arities, arity, arities, List.length_cons]
    omega
  · rw [settled, Bool.and_eq_true] at isSettled
    have one := (front.convert asksFirst).mpr isSettled.1
    have others := (back.convert asksRest).mpr isSettled.2
    have both := Plan.HaveTypes.cons one (.cons others .nil)
    rw [List.append_nil] at both
    exact .sequence both
  · cases serves
    rw [settled, Bool.and_eq_true]
    obtain ⟨one, others, typedOne, typedOthers, same⟩ := haveTypes_two (hasTypes_sequence.mp typed)
    have cut : one ++ others = [.host t] ++ ts.map .host := same
    -- The first plan gives one value, so the types are cut behind it.
    obtain ⟨rfl, rfl⟩ := List.append_inj cut (by rw [← typedOne.length, arity]; rfl)
    exact ⟨(front.convert asksFirst).mp typedOne, (back.convert asksRest).mp typedOthers⟩

theorem lists_of_parts {t item : HostType} {demand : Demand} {ps : List Pattern}
    {plans : List Plan} (parts : List.Forall₂ (c.Part (.list t demand) [t]) ps plans)
    (asks : c.Asks (.list t demand) [t]) (view : c.types.view t = .list item)
    (settled : Plan.settledEach c plans [t] = true) :
    ∃ vs, Plan.HaveTypes c plans vs ∧ vs.length = Pattern.valued ps ∧
      ∀ v ∈ vs, v = .host t ∨ v = .vec item ∧ c.convertsInto t = true := by
  induction parts with
  | nil => exact ⟨[], .nil, rfl, by simp⟩
  | @cons p plan _ _ head tail ih =>
    rw [Plan.settledEach, Bool.and_eq_true] at settled
    obtain ⟨vs, typed, count, choices⟩ := ih settled.2
    rw [Pattern.valued_cons]
    cases void : p.isVoid with
    | true => exact ⟨vs, .cons (head.silent void).typed typed, by simpa using count, choices⟩
    | false =>
      -- A part of the list gives one of the final type or a `Vec`, and may differ from the parts behind
      -- it: they are all put into one.
      have first := (head.meets void).typed settled.1
      rcases asks.built_choices view (plan.isFinal c) with same | ⟨same, converts⟩
      · rw [same] at first
        refine ⟨_, .cons first typed, by simp [count], ?_⟩
        simpa using choices
      · rw [same] at first
        refine ⟨_, .cons first typed, by simp [count], ?_⟩
        simpa [converts] using choices

theorem settled_of_lists {t item : HostType} {demand : Demand} {ps : List Pattern}
    {plans : List Plan} {vs : List ValueType}
    (parts : List.Forall₂ (c.Part (.list t demand) [t]) ps plans)
    (view : c.types.view t = .list item) (typed : Plan.HaveTypes c plans vs)
    (lists : ∀ v ∈ vs, c.IsList v item) : Plan.settledEach c plans [t] = true := by
  induction parts generalizing vs with
  | nil => rfl
  | @cons p plan _ _ head tail ih =>
    cases typed with
    | @cons _ _ ws us first others =>
      have rest := ih others fun v member => lists v (List.mem_append_right ws member)
      rw [Plan.settledEach, rest, Bool.and_true]
      cases void : p.isVoid with
      | true => exact (head.silent void).settled [t]
      | false =>
        have meets := head.meets void
        obtain ⟨v, rfl⟩ := List.length_eq_one_iff.mp (first.length.symm.trans meets.arity)
        exact meets.settled [v] ⟨v, item, view, rfl, lists v (by simp)⟩ first

theorem Meets.concat {t : HostType} {demand : Demand} {ps : List Pattern} {plans : List Plan}
    (parts : List.Forall₂ (c.Part (.list t demand) [t]) ps plans)
    (several : 1 < Pattern.valued ps) (asks : c.Asks (.list t demand) [t]) :
    c.Meets (.list t demand) [t] (.concat plans) := by
  obtain ⟨item, -, view, -, -, -⟩ := asks.list_inv
  refine ⟨rfl, fun settled => ?_, fun vs serves typed => ?_⟩
  · rw [Plan.settled] at settled
    obtain ⟨vs, typed, count, choices⟩ := lists_of_parts parts asks view settled
    -- There are several lists, and the first one decides the type of the whole.
    match vs, count with
    | [], count => simp [← count] at several
    | v :: vs, _ =>
      have lists (w : ValueType) (member : w ∈ v :: vs) : c.IsList w item := by
        rcases choices w member with rfl | ⟨rfl, -⟩
        · exact .inr ⟨t, rfl, view⟩
        · exact .inl rfl
      have whole : (Plan.concat plans).HasTypes c [v] := .concat typed lists
      have same := asks.built_list view (choices v List.mem_cons_self)
      rw [whole.isFinal]
      exact same.symm ▸ whole
  · obtain ⟨v, other, list, rfl, source⟩ := serves
    cases view.symm.trans list
    cases typed with
    | concat each lists =>
      cases (lists v List.mem_cons_self).unique source
      exact settled_of_lists parts view each lists

theorem isVoid_of_fits_empty {cx : FitContext} {p : Pattern} {plan : Plan}
    (fits : cx.Fits p .empty plan) : p.isVoid = true ∧ cx.Skims false p plan := by
  cases fits with
  | skim void inner => exact ⟨void, inner⟩
  | call _ asked | callInto _ asked _ => cases asked
  | sequence filled _ | choice filled _ _ | default filled _ _ | group filled _ =>
    exact (filled rfl).elim

theorem valued_of_fitsEach_empty {cx : FitContext} {ps : List Pattern} {plans : List Plan}
    (fits : cx.FitsEach ps .empty plans) : Pattern.valued ps = 0 := by
  induction ps generalizing plans with
  | nil => rfl
  | cons p ps ih =>
    cases fits with
    | void void _ tail => simp [Pattern.valued_cons, void, ih tail]
    | valued valued head _ => simp [(isVoid_of_fits_empty head).1] at valued

theorem filled_of_fitsItems {cx : FitContext} {ps : List Pattern} {demand : Demand} {plan : Plan}
    (fits : cx.FitsItems ps demand plan) (some : 0 < Pattern.valued ps) : demand ≠ .empty := by
  rintro rfl
  cases fits with
  | skim none _ => omega
  | one _ parts => rw [valued_of_fitsEach_empty parts] at some; omega

theorem fills_of_meets {p : Pattern} {demand : Demand} {t : HostType} {plan : Plan}
    (fits : c.fit.Fits p demand plan) (asks : c.Asks demand [t])
    (meets : demand ≠ .empty → c.Meets demand [t] plan) :
    c.Fills t (FitContext.convert demand plan) := by
  by_cases filled : demand = .empty
  -- A place of the unit type asks for no value, and what fills it has none.
  · subst filled
    cases asks with
    | unit unit => exact (silent_of_skims c (isVoid_of_fits_empty fits).2).fills unit
  · exact (meets filled).fills asks

mutual

theorem meets_of_fits {p : Pattern} {demand : Demand} {ts : List HostType} {plan : Plan}
    (fits : c.fit.Fits p demand plan) (asks : c.Asks demand ts) (filled : demand ≠ .empty) :
    c.Meets demand ts plan := by
  match fits with
  | .skim _ _ => exact (filled rfl).elim
  -- Leaves: each use of a token has its own type, and a call has the one that is asked for.
  | .text =>
    cases asks with
    | text text => exact .direct (.text text) (.text text) rfl
  | .rawToken =>
    cases asks with
    | rawToken raw => exact .direct (.rawToken raw) (.token raw) rfl
  | .tokenKind =>
    cases asks with
    | tokenKind => exact .direct .tokenKind .kind rfl
  | .call typed asked =>
    cases asks.type asked
    exact .direct asks (.call typed) rfl
  | .callInto typed asked converts =>
    cases asks.type asked
    exact .direct asks (.callInto typed converts) rfl
  -- What is asked for inside may be a unit, so the inside fills its place without meeting it.
  | .single _ inner =>
    obtain ⟨item, rfl, view, asksItem, -, -⟩ := asks.list_inv
    exact (fills_of_meets inner asksItem (meets_of_fits inner asksItem)).single asks view
  | .zeroOrMore inner | .oneOrMore inner =>
    obtain ⟨item, rfl, view, asksItem, -, -⟩ := asks.list_inv
    exact (fills_of_meets inner asksItem (meets_of_fits inner asksItem)).loop _ asks view
  | .present _ inner =>
    cases asks with
    | optional view asksValue =>
      exact (fills_of_meets inner asksValue (meets_of_fits inner asksValue)).present view
  | .keep inner =>
    cases asks with
    | optional view asksValue =>
      exact (fills_of_meets inner asksValue (meets_of_fits inner asksValue)).keep view
  | .sequence _ items => exact meets_of_fitsItems items asks filled
  | .choice _ branches _ =>
    refine .choice ?_ (meets_of_fitsBranches branches asks filled)
    rintro rfl
    cases branches
  | .default _ _ inner => exact (meets_of_fits inner asks filled).default
  | .group _ inner => exact meets_of_fits inner asks filled

theorem meets_of_fitsItems {ps : List Pattern} {demand : Demand} {ts : List HostType}
    {plan : Plan} (fits : c.fit.FitsItems ps demand plan) (asks : c.Asks demand ts)
    (filled : demand ≠ .empty) : c.Meets demand ts plan := by
  match fits with
  | .skim _ _ => exact (filled rfl).elim
  | .one one parts => exact .one (parts_of_fitsEach parts asks filled) one (asks.ne_nil filled)
  | .pair several front back =>
    have counts := Pattern.valued_splitValued _ (Nat.lt_trans Nat.zero_lt_one several)
    cases asks with
    | pair head tail =>
      have first := filled_of_fitsItems front (by omega)
      have rest := filled_of_fitsItems back (by omega)
      exact .pair (meets_of_fitsItems front head first) (meets_of_fitsItems back tail rest) head tail
  | .pack several inner =>
    cases asks with
    | tuple tuple members =>
      have some := filled_of_fitsItems inner (by omega)
      exact .pack (meets_of_fitsItems inner members some) members tuple
  | .concat several parts =>
    obtain ⟨item, rfl, -⟩ := asks.list_inv
    exact .concat (parts_of_fitsEach parts asks filled) several asks

theorem parts_of_fitsEach {ps : List Pattern} {demand : Demand} {ts : List HostType}
    {plans : List Plan} (fits : c.fit.FitsEach ps demand plans) (asks : c.Asks demand ts)
    (filled : demand ≠ .empty) : List.Forall₂ (c.Part demand ts) ps plans := by
  match fits with
  | .nil => exact .nil
  | .void void head tail =>
    refine .cons ?_ (parts_of_fitsEach tail asks filled)
    rw [Part, if_pos void]
    exact silent_of_skims c head
  | .valued valued head tail =>
    refine .cons ?_ (parts_of_fitsEach tail asks filled)
    rw [Part, if_neg (by simp [valued])]
    exact meets_of_fits head asks filled

theorem meets_of_fitsBranches {ps : List Pattern} {demand : Demand} {ts : List HostType}
    {plans : List Plan} (fits : c.fit.FitsBranches ps demand plans) (asks : c.Asks demand ts)
    (filled : demand ≠ .empty) : ∀ plan ∈ plans, c.Meets demand ts plan := by
  match fits with
  | .nil => simp
  | .cons head tail =>
    intro plan member
    cases member with
    | head => exact meets_of_fits head asks filled
    | tail _ later => exact meets_of_fitsBranches tail asks filled plan later

end

/-- Fitting to parameters is sound exactly as far as the plan is settled: no choice in it mixes a
list of the final type with a `Vec`, and no list that is the only member of a tuple is left
unconverted. -/
theorem plan_hasTypes_iff {p : Pattern} {params : List HostType} {demand : Demand} {plan : Plan}
    (read : c.demand params = .ok demand) (made : c.fit.plan p demand = .ok plan)
    (noUnit : ∀ t ∈ params, c.types.view t ≠ .unit) :
    plan.HasTypes c (params.map .host) ↔ plan.settled c params = true := by
  obtain ⟨inner, fits, rfl⟩ := FitContext.fits_of_plan made
  rw [Plan.settled_convert]
  have asks := asks_demand read
  by_cases filled : demand = .empty
  -- Without parameters the plan only matches.
  · rw [filled] at fits asks ⊢
    have silent := silent_of_skims c (isVoid_of_fits_empty fits).2
    cases asks with
    | nothing => exact ⟨fun _ => silent.settled [], fun _ => silent.typed⟩
    | unit unit => exact (noUnit _ List.mem_cons_self unit).elim
  · exact (meets_of_fits fits asks filled).convert asks

def numberLists : TypeContext :=
  ⟨Catalog.types {}, .named "TokenType", fun name =>
    if name = "number" then some (.named "u32")
    else if name = "items" then some numberDeque else none⟩

def mixedPlan : Plan :=
  .collect (.choice [.call "items" true none, .single (.call "number" true none)]) numberDeque

theorem mixedPlan_not_hasTypes :
    numberLists.demand [numberDeque] = .ok (.list numberDeque (.named (.named "u32"))) ∧
      numberLists.fit.plan (.choice (.nonTerminal "items") (.nonTerminal "number"))
        (.list numberDeque (.named (.named "u32"))) = .ok mixedPlan ∧
      (∀ t ∈ [numberDeque], numberLists.types.view t ≠ .unit) ∧
      ¬mixedPlan.HasTypes numberLists [.host numberDeque] := by
  have read : numberLists.demand [numberDeque] =
      .ok (.list numberDeque (.named (.named "u32"))) := by
    cbv
  have made : numberLists.fit.plan (.choice (.nonTerminal "items") (.nonTerminal "number"))
      (.list numberDeque (.named (.named "u32"))) = .ok mixedPlan := by
    cbv
  have noUnit : ∀ t ∈ [numberDeque], numberLists.types.view t ≠ .unit := by
    intro t member
    cases List.mem_singleton.mp member
    have view : numberLists.types.view numberDeque = .list (.named "u32") := by cbv
    simp [view]
  have unsettled : mixedPlan.settled numberLists [numberDeque] = false := by cbv
  refine ⟨read, made, noUnit, fun typed => ?_⟩
  have settled := (plan_hasTypes_iff read made noUnit).mp typed
  rw [unsettled] at settled
  cases settled

end TypeContext

end Pegsmith
