import Pegsmith.Plan.Fit

set_option autoImplicit false

namespace Pegsmith

def Pattern.isLeaf : Pattern → Bool
  | .terminal _ _ | .nonTerminal _ => true
  | _ => false

def Pattern.valued (ps : List Pattern) : Nat :=
  ps.countP fun p => !p.isVoid

theorem Pattern.valued_nil : Pattern.valued [] = 0 := rfl

theorem Pattern.valued_cons (p : Pattern) (ps : List Pattern) :
    Pattern.valued (p :: ps) = Pattern.valued ps + if p.isVoid then 0 else 1 := by
  cases void : p.isVoid <;> simp [Pattern.valued, void]

theorem Pattern.valued_splitValued (ps : List Pattern) (some : 0 < Pattern.valued ps) :
    Pattern.valued (Pattern.splitValued ps).1 = 1 ∧
      Pattern.valued (Pattern.splitValued ps).2 + 1 = Pattern.valued ps := by
  -- The split ends with the first valued item, so all others stand behind it.
  induction ps with
  | nil => simp [Pattern.valued_nil] at some
  | cons p ps ih =>
    cases void : p.isVoid with
    | true =>
      rw [Pattern.valued_cons, void] at some
      simpa [Pattern.splitValued, void, Pattern.valued_cons] using ih some
    | false => simp [Pattern.splitValued, void, Pattern.valued_cons, Pattern.valued_nil]

theorem Pattern.valued_gt_one {ps : List Pattern} (notNone : ¬Pattern.valued ps = 0)
    (notOne : ¬Pattern.valued ps = 1) : 1 < Pattern.valued ps := by
  omega

namespace Plan

theorem firstArity_eq_of_all {branches : List Plan} {n : Nat} (nonempty : branches ≠ [])
    (each : ∀ branch ∈ branches, branch.arity = n) : firstArity branches = n := by
  cases branches with
  | nil => exact (nonempty rfl).elim
  | cons branch _ => exact each branch List.mem_cons_self

theorem arity_eq_firstArity {branches : List Plan} {n : Nat}
    (each : ∀ branch ∈ branches, branch.arity = n) :
    ∀ branch ∈ branches, branch.arity = firstArity branches := by
  intro branch member
  rw [firstArity_eq_of_all (List.ne_nil_of_mem member) each, each branch member]

theorem all_firstArity {branches : List Plan} {n : Nat}
    (each : ∀ branch ∈ branches, branch.arity = n) :
    branches.all (·.arity == firstArity branches) = true := by
  simpa using arity_eq_firstArity each

theorem arities_eq_zero {plans : List Plan} (silent : ∀ plan ∈ plans, plan.arity = 0) :
    arities plans = 0 := by
  induction plans with
  | nil => rfl
  | cons plan plans ih =>
    obtain ⟨head, tail⟩ := List.forall_mem_cons.mp silent
    rw [arities, head, ih tail]

end Plan

theorem Demand.width_of_type? {demand : Demand} {t : HostType} (typed : demand.type? = some t) :
    demand.width = 1 := by
  cases demand <;> first | rfl | cases typed

namespace FitContext

mutual

/-- The plans that only match. Outside of discarded parts every part has to be void. -/
inductive Skims (cx : FitContext) : Bool → Pattern → Plan → Prop where
  | terminal {discarded : Bool} {kind : String} {decode : Bool} :
      Skims cx discarded (.terminal kind decode) (.token kind .nothing)
  | nonTerminal {discarded : Bool} {name : String} {value : HostType}
      (typed : cx.value? name = some value) :
      Skims cx discarded (.nonTerminal name) (.call name false none)
  | sequence {discarded : Bool} {a b : Pattern} {plans : List Plan}
      (items : SkimsEach cx discarded (Pattern.sequence a b).items plans) :
      Skims cx discarded (.sequence a b) (.sequence plans)
  | choice {discarded : Bool} {a b : Pattern} {plans : List Plan}
      (branches : SkimsEach cx discarded (Pattern.choice a b).branches plans) :
      Skims cx discarded (.choice a b) (.choice plans)
  | zeroOrMore {discarded : Bool} {p : Pattern} {plan : Plan} (void : (discarded || p.isVoid) = true)
      (inner : Skims cx discarded p plan) :
      Skims cx discarded (.zeroOrMore p) (.loop plan false false)
  | oneOrMore {discarded : Bool} {p : Pattern} {plan : Plan} (void : (discarded || p.isVoid) = true)
      (inner : Skims cx discarded p plan) :
      Skims cx discarded (.oneOrMore p) (.loop plan true false)
  | optional {discarded : Bool} {p : Pattern} {plan : Plan} (void : (discarded || p.isVoid) = true)
      (inner : Skims cx discarded p plan) :
      Skims cx discarded (.optional p) (.optional plan .nothing)
  | group {discarded : Bool} {p : Pattern} {plan : Plan} (void : (discarded || p.isVoid) = true)
      (inner : Skims cx discarded p plan) : Skims cx discarded (.group p) plan
  | discard {discarded : Bool} {p : Pattern} {plan : Plan} (inner : Skims cx true p plan) :
      Skims cx discarded (.discard p) plan

inductive SkimsEach (cx : FitContext) : Bool → List Pattern → List Plan → Prop where
  | nil {discarded : Bool} : SkimsEach cx discarded [] []
  | cons {discarded : Bool} {p : Pattern} {ps : List Pattern} {plan : Plan} {plans : List Plan}
      (void : (discarded || p.isVoid) = true) (head : Skims cx discarded p plan)
      (tail : SkimsEach cx discarded ps plans) : SkimsEach cx discarded (p :: ps) (plan :: plans)

end

mutual

inductive Fits (cx : FitContext) : Pattern → Demand → Plan → Prop where
  | skim {p : Pattern} {plan : Plan} (void : p.isVoid = true) (inner : Skims cx false p plan) :
      Fits cx p .empty plan
  | text {kind : String} {decode : Bool} {type : HostType} :
      Fits cx (.terminal kind decode) (.text type) (.token kind .text)
  | rawToken {kind : String} {type : HostType} :
      Fits cx (.terminal kind false) (.rawToken type) (.token kind .token)
  | tokenKind {kind : String} {type : HostType} :
      Fits cx (.terminal kind false) (.tokenKind type) (.token kind .kind)
  | call {name : String} {demand : Demand} {type : HostType} (typed : cx.value? name = some type)
      (asked : demand.type? = some type) :
      Fits cx (.nonTerminal name) demand (.call name true none)
  | callInto {name : String} {demand : Demand} {value type : HostType}
      (typed : cx.value? name = some value) (asked : demand.type? = some type)
      (converts : cx.isSubtype value type = true) :
      Fits cx (.nonTerminal name) demand (.call name true (some type))
  | single {p : Pattern} {type : HostType} {item : Demand} {plan : Plan} (leaf : p.isLeaf = true)
      (inner : Fits cx p item plan) : Fits cx p (.list type item) (.single (convert item plan))
  | present {p : Pattern} {type : HostType} {value : Demand} {plan : Plan} (leaf : p.isLeaf = true)
      (inner : Fits cx p value plan) :
      Fits cx p (.optional type value) (.present (convert value plan))
  | sequence {a b : Pattern} {demand : Demand} {plan : Plan} (filled : demand ≠ .empty)
      (items : FitsItems cx (Pattern.sequence a b).items demand plan) :
      Fits cx (.sequence a b) demand plan
  | choice {a b : Pattern} {demand : Demand} {plans : List Plan} (filled : demand ≠ .empty)
      (branches : FitsBranches cx (Pattern.choice a b).branches demand plans)
      (even : ∀ plan ∈ plans, plan.arity = Plan.firstArity plans) :
      Fits cx (.choice a b) demand (.choice plans)
  | zeroOrMore {p : Pattern} {type : HostType} {item : Demand} {plan : Plan}
      (inner : Fits cx p item plan) :
      Fits cx (.zeroOrMore p) (.list type item) (.loop (convert item plan) false true)
  | oneOrMore {p : Pattern} {type : HostType} {item : Demand} {plan : Plan}
      (inner : Fits cx p item plan) :
      Fits cx (.oneOrMore p) (.list type item) (.loop (convert item plan) true true)
  | keep {p : Pattern} {type : HostType} {value : Demand} {plan : Plan}
      (inner : Fits cx p value plan) :
      Fits cx (.optional p) (.optional type value) (.optional (convert value plan) .keep)
  | default {p : Pattern} {demand : Demand} {plan : Plan} (filled : demand ≠ .empty)
      (kept : ∀ type value, demand ≠ .optional type value) (inner : Fits cx p demand plan) :
      Fits cx (.optional p) demand (.optional plan .default)
  | group {p : Pattern} {demand : Demand} {plan : Plan} (filled : demand ≠ .empty)
      (inner : Fits cx p demand plan) : Fits cx (.group p) demand plan

inductive FitsItems (cx : FitContext) : List Pattern → Demand → Plan → Prop where
  | skim {ps : List Pattern} {plans : List Plan} (none : Pattern.valued ps = 0)
      (parts : SkimsEach cx false ps plans) : FitsItems cx ps .empty (.sequence plans)
  | one {ps : List Pattern} {demand : Demand} {plans : List Plan} (one : Pattern.valued ps = 1)
      (parts : FitsEach cx ps demand plans) : FitsItems cx ps demand (.sequence plans)
  | pair {ps : List Pattern} {first rest : Demand} {head tail : Plan}
      (several : 1 < Pattern.valued ps)
      (front : FitsItems cx (Pattern.splitValued ps).1 first head)
      (back : FitsItems cx (Pattern.splitValued ps).2 rest tail) :
      FitsItems cx ps (.pair first rest) (.sequence [convert first head, convert rest tail])
  | pack {ps : List Pattern} {type : HostType} {members : Demand} {plan : Plan}
      (several : 1 < Pattern.valued ps) (inner : FitsItems cx ps members plan) :
      FitsItems cx ps (.tuple type members) (.pack plan)
  | concat {ps : List Pattern} {type : HostType} {item : Demand} {plans : List Plan}
      (several : 1 < Pattern.valued ps) (parts : FitsEach cx ps (.list type item) plans) :
      FitsItems cx ps (.list type item) (.concat plans)

inductive FitsEach (cx : FitContext) : List Pattern → Demand → List Plan → Prop where
  | nil {demand : Demand} : FitsEach cx [] demand []
  | void {p : Pattern} {ps : List Pattern} {demand : Demand} {plan : Plan} {plans : List Plan}
      (void : p.isVoid = true) (head : Skims cx false p plan) (tail : FitsEach cx ps demand plans) :
      FitsEach cx (p :: ps) demand (plan :: plans)
  | valued {p : Pattern} {ps : List Pattern} {demand : Demand} {plan : Plan} {plans : List Plan}
      (valued : p.isVoid = false) (head : Fits cx p demand plan)
      (tail : FitsEach cx ps demand plans) : FitsEach cx (p :: ps) demand (plan :: plans)

inductive FitsBranches (cx : FitContext) : List Pattern → Demand → List Plan → Prop where
  | nil {demand : Demand} : FitsBranches cx [] demand []
  | cons {p : Pattern} {ps : List Pattern} {demand : Demand} {plan : Plan} {plans : List Plan}
      (head : Fits cx p demand plan) (tail : FitsBranches cx ps demand plans) :
      FitsBranches cx (p :: ps) demand (plan :: plans)

end

theorem convert_cases (demand : Demand) (plan : Plan) :
    convert demand plan = plan ∨
      ∃ type item, demand = .list type item ∧ convert demand plan = .collect plan type := by
  unfold convert
  split
  · next type item =>
    split
    · exact .inl rfl
    · split
      · exact .inl rfl
      · exact .inr ⟨type, item, rfl, rfl⟩
  · exact .inl rfl

theorem arity_convert {demand : Demand} {plan : Plan} (arity : plan.arity = demand.width) :
    (convert demand plan).arity = demand.width := by
  obtain kept | ⟨type, item, rfl, collected⟩ := convert_cases demand plan
  · rw [kept, arity]
  · rw [collected]
    rfl

variable {cx : FitContext}

mutual

theorem Skims.arity {discarded : Bool} {p : Pattern} {plan : Plan}
    (skims : cx.Skims discarded p plan) : plan.arity = 0 := by
  match skims with
  | .terminal | .nonTerminal _ | .zeroOrMore _ _ | .oneOrMore _ _ | .optional _ _ =>
    simp [Plan.arity]
  | .sequence items =>
    rw [Plan.arity]
    exact Plan.arities_eq_zero items.arity
  | .choice branches =>
    match branches with
    | .cons _ head _ =>
      rw [Plan.arity, Plan.firstArity]
      exact head.arity
  | .group _ inner | .discard inner => exact inner.arity

theorem SkimsEach.arity {discarded : Bool} {ps : List Pattern} {plans : List Plan}
    (skims : cx.SkimsEach discarded ps plans) : ∀ plan ∈ plans, plan.arity = 0 := by
  match skims with
  | .nil => simp
  | .cons _ head tail => exact List.forall_mem_cons.mpr ⟨head.arity, tail.arity⟩

end

mutual

theorem Fits.arity {p : Pattern} {demand : Demand} {plan : Plan} (fits : cx.Fits p demand plan) :
    plan.arity = demand.width := by
  match fits with
  | .skim _ inner => exact inner.arity
  | .text | .rawToken | .tokenKind | .single _ _ | .present _ _ | .zeroOrMore _ | .oneOrMore _
  | .keep _ => simp [Plan.arity, Demand.width]
  | .call _ asked | .callInto _ asked _ => simp [Plan.arity, Demand.width_of_type? asked]
  | .sequence _ items => exact items.arity
  | .choice _ branches _ =>
    -- A choice has the arity of its first branch; the others are dealt with one by one.
    match branches with
    | .cons head _ =>
      rw [Plan.arity, Plan.firstArity]
      exact head.arity
  | .default _ _ inner =>
    rw [Plan.arity]
    exact inner.arity
  | .group _ inner => exact inner.arity

theorem FitsItems.arity {ps : List Pattern} {demand : Demand} {plan : Plan}
    (fits : cx.FitsItems ps demand plan) : plan.arity = demand.width := by
  match fits with
  | .skim _ parts =>
    rw [Plan.arity]
    exact Plan.arities_eq_zero parts.arity
  | .one one parts =>
    rw [Plan.arity, parts.arities, one, Nat.one_mul]
  | .pair _ front back =>
    rw [Plan.arity, Plan.arities, Plan.arities, Plan.arities, arity_convert front.arity,
      arity_convert back.arity]
    rfl
  | .pack _ _ | .concat _ _ => simp [Plan.arity, Demand.width]

theorem FitsEach.arities {ps : List Pattern} {demand : Demand} {plans : List Plan}
    (fits : cx.FitsEach ps demand plans) :
    Plan.arities plans = Pattern.valued ps * demand.width := by
  match fits with
  | .nil => simp [Plan.arities, Pattern.valued_nil]
  | .void void head tail =>
    rw [Plan.arities, head.arity, tail.arities, Pattern.valued_cons, void]
    simp
  | .valued valued head tail =>
    rw [Plan.arities, head.arity, tail.arities, Pattern.valued_cons, valued]
    simp [Nat.add_mul, Nat.add_comm]

theorem FitsBranches.arity {ps : List Pattern} {demand : Demand} {plans : List Plan}
    (fits : cx.FitsBranches ps demand plans) : ∀ plan ∈ plans, plan.arity = demand.width := by
  match fits with
  | .nil => simp
  | .cons head tail => exact List.forall_mem_cons.mpr ⟨head.arity, tail.arity⟩

end

end FitContext

def numberDeque : HostType :=
  .path "" "VecDeque" (.angle false [.type (.named "u32")] false)

end Pegsmith
