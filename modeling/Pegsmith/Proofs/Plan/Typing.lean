import Mathlib.Data.List.Forall2
import Pegsmith.Proofs.Plan.Derivation
import Pegsmith.Proofs.Overflow

set_option autoImplicit false

namespace Pegsmith

/-- The type of a value: a type of the host program, or the `Vec` that matching builds, whatever
the type system says about a type of that name. -/
inductive ValueType where
  | host (t : HostType)
  | vec (item : HostType)

structure TypeContext where
  types : TypeSystem
  tokenType : HostType
  value? : String → Option HostType

theorem Demand.ofParams_eq_ok_iff {types : TypeSystem} {tokenType : HostType}
    {params : List HostType} {demand : Demand} :
    ofParams types tokenType params = .ok demand ↔
      ∃ demands, List.Forall₂ (fun t d => ofType types tokenType t = .ok d) params demands ∧
        demand = chain demands := by
  constructor
  · intro read
    obtain ⟨demands, each, rfl⟩ := ok_of_map read
    exact ⟨demands, mapM_eq_ok_iff.mp each, rfl⟩
  · rintro ⟨demands, each, rfl⟩
    rw [ofParams, mapM_eq_ok_iff.mpr each]
    rfl

namespace TypeContext

variable (c : TypeContext)

def fit : FitContext :=
  ⟨c.types.isSubtype, c.value?⟩

def demand (params : List HostType) : Except Fault Demand :=
  Demand.ofParams c.types c.tokenType params

def IsVec (v : ValueType) (item : HostType) : Prop :=
  v = .vec item ∨ ∃ t, v = .host t ∧ c.types.view t = .list item ∧ t.head? = some "Vec"

def IsList (v : ValueType) (item : HostType) : Prop :=
  v = .vec item ∨ ∃ t, v = .host t ∧ c.types.view t = .list item

def Together (vs : List ValueType) (t : HostType) : Prop :=
  vs = [.host t] ∨ (vs = [] ∧ c.types.view t = .unit) ∨
    ∃ members, 2 ≤ members.length ∧ vs = members.map .host ∧ c.types.view t = .tuple members

end TypeContext

namespace Plan

mutual

inductive HasTypes (c : TypeContext) : Plan → List ValueType → Prop where
  | skip {kind : String} : HasTypes c (.token kind .nothing) []
  | token {kind : String} {t : HostType} (raw : c.types.view t = .rawToken) :
      HasTypes c (.token kind .token) [.host t]
  | text {kind : String} {t : HostType} (text : c.types.view t = .text) :
      HasTypes c (.token kind .text) [.host t]
  | kind {kind : String} : HasTypes c (.token kind .kind) [.host c.tokenType]
  | pass {name : String} {into : Option HostType} : HasTypes c (.call name false into) []
  | call {name : String} {t : HostType} (typed : c.value? name = some t) :
      HasTypes c (.call name true none) [.host t]
  | callInto {name : String} {value t : HostType} (typed : c.value? name = some value)
      (converts : c.types.isSubtype value t = true) :
      HasTypes c (.call name true (some t)) [.host t]
  | sequence {parts : List Plan} {vs : List ValueType} (each : HaveTypes c parts vs) :
      HasTypes c (.sequence parts) vs
  | single {inner : Plan} {vs : List ValueType} {item : HostType} {v : ValueType}
      (typed : HasTypes c inner vs) (one : c.Together vs item) (list : c.IsVec v item) :
      HasTypes c (.single inner) [v]
  | present {inner : Plan} {vs : List ValueType} {value t : HostType} (typed : HasTypes c inner vs)
      (one : c.Together vs value) (option : c.types.view t = .optional value) :
      HasTypes c (.present inner) [.host t]
  | pack {inner : Plan} {members : List HostType} {t : HostType}
      (typed : HasTypes c inner (members.map .host)) (tuple : c.types.view t = .tuple members) :
      HasTypes c (.pack inner) [.host t]
  | collect {inner : Plan} {v : ValueType} {item t : HostType} (typed : HasTypes c inner [v])
      (source : c.IsList v item) (list : c.types.view t = .list item) :
      HasTypes c (.collect inner t) [.host t]
  | concat {parts : List Plan} {v : ValueType} {vs : List ValueType} {item : HostType}
      (each : HaveTypes c parts (v :: vs)) (lists : ∀ w ∈ v :: vs, c.IsList w item) :
      HasTypes c (.concat parts) [v]
  | rounds {inner : Plan} {atLeastOne : Bool} {vs : List ValueType} (typed : HasTypes c inner vs) :
      HasTypes c (.loop inner atLeastOne false) []
  | loop {inner : Plan} {atLeastOne : Bool} {vs : List ValueType} {item : HostType} {v : ValueType}
      (typed : HasTypes c inner vs) (one : c.Together vs item) (list : c.IsVec v item) :
      HasTypes c (.loop inner atLeastOne true) [v]
  | attempt {inner : Plan} {vs : List ValueType} (typed : HasTypes c inner vs) :
      HasTypes c (.optional inner .nothing) []
  | keep {inner : Plan} {vs : List ValueType} {value t : HostType} (typed : HasTypes c inner vs)
      (one : c.Together vs value) (option : c.types.view t = .optional value) :
      HasTypes c (.optional inner .keep) [.host t]
  | default {inner : Plan} {vs : List ValueType} (typed : HasTypes c inner vs) :
      HasTypes c (.optional inner .default) vs
  | choice {branches : List Plan} {vs : List ValueType} (nonempty : branches ≠ [])
      (same : ∀ branch ∈ branches, HasTypes c branch vs) : HasTypes c (.choice branches) vs

inductive HaveTypes (c : TypeContext) : List Plan → List ValueType → Prop where
  | nil : HaveTypes c [] []
  | cons {plan : Plan} {plans : List Plan} {vs ws : List ValueType} (head : HasTypes c plan vs)
      (tail : HaveTypes c plans ws) : HaveTypes c (plan :: plans) (vs ++ ws)

end

end Plan

namespace TypeContext

/-- A list type that a `Vec` has to be converted into. -/
def convertsInto (c : TypeContext) (t : HostType) : Bool :=
  match c.types.view t with
  | .list _ => t.head? != some "Vec" && decide (t ≠ c.tokenType)
  | _ => false

def isFinal (c : TypeContext) : ValueType → Bool
  | .host t => c.convertsInto t
  | .vec _ => false

theorem convertsInto_tokenType (c : TypeContext) : c.convertsInto c.tokenType = false := by
  unfold convertsInto
  split <;> simp

theorem convertsInto_eq_false {c : TypeContext} {t : HostType}
    (noList : ∀ item, c.types.view t ≠ .list item) : c.convertsInto t = false := by
  unfold convertsInto
  split
  · next item list => exact (noList item list).elim
  · rfl

theorem IsVec.isFinal {c : TypeContext} {v : ValueType} {item : HostType}
    (list : c.IsVec v item) : c.isFinal v = false := by
  rcases list with rfl | ⟨t, rfl, view, head⟩
  · rfl
  · simp [TypeContext.isFinal, convertsInto, view, head]

end TypeContext

namespace Plan

mutual

def isFinal (c : TypeContext) : Plan → Bool
  | .token _ _ | .call _ false _ | .single _ | .present _ | .pack _ | .loop _ _ _ |
    .optional _ .nothing | .optional _ .keep => false
  | .call name true none => (c.value? name).any c.convertsInto
  | .call _ true (some t) | .collect _ t => c.convertsInto t
  | .sequence parts | .concat parts | .choice parts => anyFinal c parts
  | .optional inner .default => inner.isFinal c

def anyFinal (c : TypeContext) : List Plan → Bool
  | [] => false
  | plan :: plans => if plan.arity = 0 then anyFinal c plans else plan.isFinal c

end

mutual

theorem HasTypes.length {c : TypeContext} {plan : Plan} {vs : List ValueType}
    (typed : plan.HasTypes c vs) : plan.arity = vs.length := by
  match typed with
  | .skip | .token _ | .text _ | .kind | .pass | .call _ | .callInto _ _ | .single _ _ _ |
    .present _ _ _ | .pack _ _ | .collect _ _ _ | .concat _ _ | .rounds _ | .loop _ _ _ |
    .attempt _ | .keep _ _ _ => simp [arity]
  | .sequence each =>
    rw [arity]
    exact each.length
  | .default typed =>
    rw [arity]
    exact typed.length
  | @HasTypes.choice _ branches _ nonempty same =>
    match branches, nonempty, same with
    | branch :: _, _, same =>
      rw [arity, firstArity]
      exact (same branch List.mem_cons_self).length

theorem HaveTypes.length {c : TypeContext} {plans : List Plan} {vs : List ValueType}
    (typed : HaveTypes c plans vs) : arities plans = vs.length := by
  match typed with
  | .nil => rfl
  | .cons head tail => rw [arities, head.length, tail.length, List.length_append]

end

theorem anyFinal_of_same {c : TypeContext} {n : Nat} {final : Bool} {plans : List Plan}
    (nonempty : plans ≠ []) (same : ∀ plan ∈ plans, plan.arity = n ∧ plan.isFinal c = final)
    (none : n = 0 → final = false) : anyFinal c plans = final := by
  induction plans with
  | nil => exact (nonempty rfl).elim
  | cons plan plans ih =>
    obtain ⟨arity, isFinal⟩ := same plan List.mem_cons_self
    rw [anyFinal]
    by_cases silent : plan.arity = 0
    · rw [if_pos silent]
      match plans with
      | [] => exact (none (arity ▸ silent)).symm
      | _ :: _ => exact ih (by simp) fun plan member => same plan (List.mem_cons_of_mem _ member)
    · rw [if_neg silent, isFinal]

mutual

theorem HasTypes.isFinal {c : TypeContext} {plan : Plan} {vs : List ValueType}
    (typed : plan.HasTypes c vs) : plan.isFinal c = vs.head?.any c.isFinal := by
  match typed with
  | .skip | .pass | .rounds _ | .attempt _ => rfl
  | .token raw => exact (TypeContext.convertsInto_eq_false (by simp [raw])).symm
  | .text text => exact (TypeContext.convertsInto_eq_false (by simp [text])).symm
  | .kind => exact c.convertsInto_tokenType.symm
  | .call typed => simp [Plan.isFinal, typed, TypeContext.isFinal]
  | .callInto _ _ | .collect _ _ _ => rfl
  | .single _ _ list | .loop _ _ list => exact list.isFinal.symm
  | .present _ _ option | .keep _ _ option =>
    exact (TypeContext.convertsInto_eq_false (by simp [option])).symm
  | .pack _ tuple => exact (TypeContext.convertsInto_eq_false (by simp [tuple])).symm
  | .sequence each | .concat each _ =>
    rw [Plan.isFinal, each.anyFinal]
    try rfl
  | .default typed =>
    rw [Plan.isFinal]
    exact typed.isFinal
  | @HasTypes.choice _ branches _ nonempty same =>
    rw [Plan.isFinal]
    apply anyFinal_of_same nonempty (n := vs.length)
    · intro branch member
      exact ⟨(same branch member).length, (same branch member).isFinal⟩
    · intro none
      rw [List.eq_nil_of_length_eq_zero none]
      rfl

theorem HaveTypes.anyFinal {c : TypeContext} {plans : List Plan} {vs : List ValueType}
    (typed : HaveTypes c plans vs) : anyFinal c plans = vs.head?.any c.isFinal := by
  match typed with
  | .nil => rfl
  | @HaveTypes.cons _ plan plans vs ws head tail =>
    have arity := head.length
    rw [Plan.anyFinal]
    match vs, arity with
    | [], arity =>
      rw [if_pos (by simpa using arity), tail.anyFinal]
      rfl
    | v :: vs, arity =>
      rw [if_neg (by simp [arity]), head.isFinal]
      rfl

end

end Plan

def TypeView.inside : TypeView → List HostType
  | .list item => [item]
  | .optional value => [value]
  | .tuple members => members
  | _ => []

def TypeContext.inside (c : TypeContext) (ts : List HostType) : List HostType :=
  ts.flatMap fun t => (c.types.view t).inside

theorem TypeContext.inside_single (c : TypeContext) (t : HostType) :
    c.inside [t] = (c.types.view t).inside :=
  List.flatMap_singleton ..

namespace Plan

mutual

/-- Whether a plan for values of the given types has its lists converted where they have to be.
The branches of a choice produce either all a `Vec` or all a list of the final type, and the first
member of a tuple has its final type. -/
def settled (c : TypeContext) : Plan → List HostType → Bool
  | .token _ _, _ | .call _ _ _, _ | .loop _ _ false, _ | .optional _ .nothing, _ => true
  | .sequence parts, ts => settledInOrder c parts ts
  | .single inner, ts | .present inner, ts | .loop inner _ true, ts | .optional inner .keep, ts =>
    inner.settled c (c.inside ts)
  | .pack inner, ts =>
    inner.settled c (c.inside ts) &&
      inner.isFinal c == (c.inside ts).head?.any c.convertsInto
  | .collect inner _, ts | .optional inner .default, ts => inner.settled c ts
  | .concat parts, ts => settledEach c parts ts
  | .choice branches, ts =>
    branches.all (fun branch => branch.isFinal c == anyFinal c branches) &&
      settledEach c branches ts

def settledInOrder (c : TypeContext) : List Plan → List HostType → Bool
  | [], _ => true
  | plan :: plans, ts =>
    plan.settled c (ts.take plan.arity) && settledInOrder c plans (ts.drop plan.arity)

def settledEach (c : TypeContext) : List Plan → List HostType → Bool
  | [], _ => true
  | plan :: plans, ts => plan.settled c ts && settledEach c plans ts

end

theorem settledEach_iff {c : TypeContext} {plans : List Plan} {ts : List HostType} :
    settledEach c plans ts = true ↔ ∀ plan ∈ plans, plan.settled c ts = true := by
  induction plans with
  | nil => simp [settledEach]
  | cons plan plans ih => simp [settledEach, ih]

theorem settled_convert (c : TypeContext) (demand : Demand) (plan : Plan) (ts : List HostType) :
    (FitContext.convert demand plan).settled c ts = plan.settled c ts := by
  obtain kept | ⟨type, item, -, collected⟩ := FitContext.convert_cases demand plan
  · rw [kept]
  · rw [collected]
    rfl

end Plan

namespace TypeContext

inductive Asks (c : TypeContext) : Demand → List HostType → Prop where
  | nothing : Asks c .empty []
  | unit {t : HostType} (unit : c.types.view t = .unit) : Asks c .empty [t]
  | rawToken {t : HostType} (raw : c.types.view t = .rawToken) : Asks c (.rawToken t) [t]
  | text {t : HostType} (text : c.types.view t = .text) : Asks c (.text t) [t]
  | tokenKind : Asks c (.tokenKind c.tokenType) [c.tokenType]
  | named {t : HostType} : Asks c (.named t) [t]
  | list {t item : HostType} {demand : Demand} (noKind : t ≠ c.tokenType)
      (list : c.types.view t = .list item) (inner : Asks c demand [item]) :
      Asks c (.list t demand) [t]
  | optional {t value : HostType} {demand : Demand} (option : c.types.view t = .optional value)
      (inner : Asks c demand [value]) : Asks c (.optional t demand) [t]
  | tuple {t : HostType} {members : List HostType} {demand : Demand}
      (tuple : c.types.view t = .tuple members) (inner : Asks c demand members) :
      Asks c (.tuple t demand) [t]
  | pair {t : HostType} {ts : List HostType} {first rest : Demand} (head : Asks c first [t])
      (tail : Asks c rest ts) : Asks c (.pair first rest) (t :: ts)

variable {c : TypeContext}

theorem Asks.ne_nil {demand : Demand} {ts : List HostType} (asks : c.Asks demand ts)
    (filled : demand ≠ .empty) : ts ≠ [] := by
  cases asks <;> simp at filled ⊢

theorem asks_chain {demands : List Demand} {ts : List HostType}
    (each : List.Forall₂ (fun demand t => c.Asks demand [t]) demands ts) :
    c.Asks (Demand.chain demands) ts := by
  induction each with
  | nil => exact .nothing
  | cons head tail ih =>
    cases tail with
    | nil => exact head
    | cons _ _ => exact .pair head ih

theorem asks_within {n : Nat} {t : HostType} {demand : Demand}
    (read : Demand.within c.types c.tokenType n t = some demand) : c.Asks demand [t] := by
  induction n generalizing t demand with
  | zero => cases read
  | succ n ih =>
    -- The order of the cases is the one in which a type is looked at: text, the token type, all others.
    rw [Demand.within] at read
    split at read
    · next text =>
      cases read
      exact .text text
    · split at read
      · next kind =>
        cases read
        rw [kind]
        exact .tokenKind
      · next noKind =>
        split at read
        · next text =>
          cases read
          exact .text text
        · next raw =>
          cases read
          exact .rawToken raw
        · cases read
          exact .named
        · cases read
          exact .named
        · next item list =>
          obtain ⟨inner, found, rfl⟩ := Option.map_eq_some_iff.mp read
          exact .list noKind list (ih found)
        · next value option =>
          obtain ⟨inner, found, rfl⟩ := Option.map_eq_some_iff.mp read
          exact .optional option (ih found)
        · next members tuple =>
          obtain ⟨inner, found, rfl⟩ := Option.map_eq_some_iff.mp read
          exact .tuple tuple (asks_chain ((forall₂_of_mapM found).imp fun _ _ => ih))
        · next unit =>
          cases read
          exact .unit unit

theorem asks_demand {params : List HostType} {demand : Demand}
    (read : c.demand params = .ok demand) : c.Asks demand params := by
  obtain ⟨demands, each, rfl⟩ := Demand.ofParams_eq_ok_iff.mp read
  refine asks_chain (each.flip.imp fun _ _ found => ?_)
  exact asks_within (Demand.ofType_eq_ok_iff.mp found)

end TypeContext

end Pegsmith
