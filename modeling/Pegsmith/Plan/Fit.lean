import Pegsmith.Pattern.Printer
import Pegsmith.Pattern.Shape
import Pegsmith.Plan.Basic
import Pegsmith.Types.Demand

/-!
Fitting a pattern to a demand: the plan that matches the pattern and produces the values that are
asked for. Parts that carry a value line up with the demands, other parts only have to match. A
single value fills a list or an optional value, lists that follow each other are joined, and a
list is converted once, where it fills its place.
-/

set_option autoImplicit false

namespace Pegsmith

inductive FitError where
  | mismatch (items : List Pattern) (demand : Demand)
  | branchArity (choice : Pattern)
  | unknownValue (nonTerminal : String)
  deriving DecidableEq

namespace FitError

def shapeOf : List Pattern → Shape
  | [] => .empty
  | [p] => p.shape
  | p :: ps => .pair p.shape (shapeOf ps)

def message : FitError → String
  | .mismatch items demand =>
      "`" ++ " ".intercalate (items.map Pattern.text) ++ "` produces " ++ (shapeOf items).text ++
        " where " ++ demand.describe ++ " is required"
  | .branchArity choice =>
      "the branches of `" ++ choice.text ++ "` produce different numbers of values"
  | .unknownValue nonTerminal => "non-terminal `" ++ nonTerminal ++ "` has no value type"

end FitError

structure FitContext where
  isSubtype : HostType → HostType → Bool
  value? : String → Option HostType

namespace Pattern

def weight : Pattern → Nat
  | .terminal _ _ | .nonTerminal _ => 1
  | .sequence first second | .choice first second => first.weight + second.weight + 3
  | .zeroOrMore inner | .oneOrMore inner | .optional inner | .group inner | .discard inner =>
      inner.weight + 1

def weights (ps : List Pattern) : Nat :=
  ps.foldr (fun p n => p.weight + 1 + n) 0

@[simp] theorem weights_nil : weights [] = 0 := rfl

@[simp] theorem weights_cons (p : Pattern) (ps : List Pattern) :
    weights (p :: ps) = p.weight + 1 + weights ps := rfl

@[simp] theorem weights_append (ps qs : List Pattern) :
    weights (ps ++ qs) = weights ps + weights qs := by
  induction ps with
  | nil => simp
  | cons p ps ih =>
      rw [List.cons_append, weights_cons, weights_cons, ih]
      omega

theorem weights_items_le (p : Pattern) : weights p.items ≤ p.weight + 1 := by
  induction p with
  | sequence a b _ ih => simp only [items, weights_cons, weight]; omega
  | _ => simp [items]

theorem weights_branches_le (p : Pattern) : weights p.branches ≤ p.weight + 1 := by
  induction p with
  | choice a b _ ih => simp only [branches, weights_cons, weight]; omega
  | _ => simp [branches]

theorem weights_items_lt (a b : Pattern) (n : Nat) :
    2 * weights (sequence a b).items + n + 1 < 2 * (sequence a b).weight + n := by
  have := weights_items_le b
  simp only [items, weights_cons, weight]
  omega

theorem weights_branches_lt (a b : Pattern) (n : Nat) :
    2 * weights (choice a b).branches + n + 1 < 2 * (choice a b).weight + n := by
  have := weights_branches_le b
  simp only [branches, weights_cons, weight]
  omega

def splitValued : List Pattern → List Pattern × List Pattern
  | [] => ([], [])
  | p :: ps =>
      if p.isVoid then let (front, back) := splitValued ps; (p :: front, back) else ([p], ps)

theorem splitValued_append (ps : List Pattern) :
    (splitValued ps).1 ++ (splitValued ps).2 = ps := by
  induction ps with
  | nil => rfl
  | cons p ps ih =>
      simp only [splitValued]
      split <;> simp [ih]

theorem weights_splitValued (ps : List Pattern) :
    weights (splitValued ps).1 + weights (splitValued ps).2 = weights ps := by
  rw [← weights_append, splitValued_append]

end Pattern

namespace FitContext

mutual

/-- The plan that only matches. Outside of discarded parts every part of the pattern is asked
whether it carries a value. -/
def matchOnly (cx : FitContext) (discarded : Bool) : Pattern → Except FitError Plan
  | .terminal kind _ => .ok (.token kind .nothing)
  | .nonTerminal name =>
      if (cx.value? name).isSome then .ok (.call name false none) else .error (.unknownValue name)
  | .sequence a b => do return .sequence (← cx.matchEach discarded (Pattern.sequence a b).items)
  | .choice a b => do return .choice (← cx.matchEach discarded (Pattern.choice a b).branches)
  | .zeroOrMore p => do return .loop (← cx.matchPart discarded p) false false
  | .oneOrMore p => do return .loop (← cx.matchPart discarded p) true false
  | .optional p => do return .optional (← cx.matchPart discarded p) .nothing
  | .group p => cx.matchPart discarded p
  | .discard p => cx.matchOnly true p
termination_by p => 2 * p.weight
decreasing_by
  all_goals first
    | exact Nat.lt_of_succ_lt (Pattern.weights_items_lt a b 0)
    | exact Nat.lt_of_succ_lt (Pattern.weights_branches_lt a b 0)
    | (simp only [Pattern.weight]; omega)

def matchPart (cx : FitContext) (discarded : Bool) (p : Pattern) : Except FitError Plan :=
  if discarded || p.isVoid then cx.matchOnly discarded p else .error (.mismatch [p] .empty)
termination_by 2 * p.weight + 1

def matchEach (cx : FitContext) (discarded : Bool) : List Pattern → Except FitError (List Plan)
  | [] => .ok []
  | p :: ps => do
      let plan ← cx.matchPart discarded p
      return plan :: (← cx.matchEach discarded ps)
termination_by ps => 2 * Pattern.weights ps
decreasing_by all_goals simp only [Pattern.weights_cons]; omega

end

/-- A list that was built by matching becomes a list of the type in demand. A called non-terminal
has that type already. -/
def convert (demand : Demand) (plan : Plan) : Plan :=
  match demand with
  | .list type _ =>
      if demand.isVec then plan
      else
        match plan with
        | .call .. => plan
        | _ => .collect plan type
  | _ => plan

def fitTerminal (kind : String) (decode : Bool) (demand : Demand) : Except FitError Plan :=
  let refuse : Except FitError Plan := .error (.mismatch [.terminal kind decode] demand)
  match demand with
  | .text _ => .ok (.token kind .text)
  | .rawToken _ => if decode then refuse else .ok (.token kind .token)
  | .tokenKind _ => if decode then refuse else .ok (.token kind .kind)
  | .list _ item => do return .single (convert item (← fitTerminal kind decode item))
  | .optional _ inner => do return .present (convert inner (← fitTerminal kind decode inner))
  | _ => refuse

def callFor? (cx : FitContext) (name : String) (value : HostType) (type : Option HostType) :
    Option Plan :=
  type.bind fun type =>
    if type = value then some (.call name true none)
    else if cx.isSubtype value type then some (.call name true (some type))
    else none

def fitCall (cx : FitContext) (name : String) (value : HostType) (demand : Demand) :
    Except FitError Plan :=
  match cx.callFor? name value demand.type? with
  | some plan => .ok plan
  | none =>
      match demand with
      | .list _ item => do return .single (convert item (← cx.fitCall name value item))
      | .optional _ inner => do return .present (convert inner (← cx.fitCall name value inner))
      | _ => .error (.mismatch [.nonTerminal name] demand)

def demandWeight : Demand → Nat
  | .empty => 0
  | .rawToken _ | .text _ | .tokenKind _ | .named _ => 1
  | .list _ inner | .optional _ inner | .tuple _ inner => demandWeight inner + 1
  | .pair first rest => demandWeight first + demandWeight rest + 1

mutual

/-- The plan of a pattern for a demand. What produces a value may not go unused. -/
def fit (cx : FitContext) (p : Pattern) (demand : Demand) : Except FitError Plan :=
  if demand = .empty then cx.matchPart false p
  else
    match p with
    | .terminal kind decode => fitTerminal kind decode demand
    | .nonTerminal name =>
        match cx.value? name with
        | none => .error (.unknownValue name)
        | some value => cx.fitCall name value demand
    | .sequence a b => cx.fitItems (Pattern.sequence a b).items demand
    | .choice a b => do
        let branches ← cx.fitBranches (Pattern.choice a b).branches demand
        if branches.all (·.arity == Plan.firstArity branches) then return .choice branches
        else .error (.branchArity (.choice a b))
    | .zeroOrMore inner =>
        match demand with
        | .list _ item => do return .loop (convert item (← cx.fit inner item)) false true
        | _ => .error (.mismatch [.zeroOrMore inner] demand)
    | .oneOrMore inner =>
        match demand with
        | .list _ item => do return .loop (convert item (← cx.fit inner item)) true true
        | _ => .error (.mismatch [.oneOrMore inner] demand)
    | .optional inner =>
        match demand with
        | .optional _ value => do return .optional (convert value (← cx.fit inner value)) .keep
        | demand => do return .optional (← cx.fit inner demand) .default
    | .group inner => cx.fit inner demand
    | .discard inner => .error (.mismatch [.discard inner] demand)
termination_by 2 * p.weight + 2 * demandWeight demand
decreasing_by
  all_goals first
    | exact Pattern.weights_items_lt ..
    | exact Nat.lt_of_succ_lt (Pattern.weights_branches_lt ..)
    | (simp only [Pattern.weight, demandWeight]; omega)

/-- The plan of items that follow each other. Two or more that carry values are split behind the
first one for a pair, packed for a tuple, and joined for a list. -/
def fitItems (cx : FitContext) (ps : List Pattern) (demand : Demand) : Except FitError Plan :=
  match ps.countP (fun p => !p.isVoid) with
  | 0 =>
      if demand = .empty then do return .sequence (← cx.matchEach false ps)
      else .error (.mismatch ps demand)
  | 1 => do return .sequence (← cx.fitEach ps demand)
  | _ =>
      match demand with
      | .pair first rest => do
          let head ← cx.fitItems (Pattern.splitValued ps).1 first
          let tail ← cx.fitItems (Pattern.splitValued ps).2 rest
          return .sequence [convert first head, convert rest tail]
      | .tuple _ members => do return .pack (← cx.fitItems ps members)
      | .list type item => do return .concat (← cx.fitEach ps (.list type item))
      | demand => .error (.mismatch ps demand)
termination_by 2 * Pattern.weights ps + 2 * demandWeight demand + 1
decreasing_by
  all_goals have := Pattern.weights_splitValued ps
  all_goals first
    | omega
    | (simp only [demandWeight]; omega)

def fitEach (cx : FitContext) (ps : List Pattern) (demand : Demand) :
    Except FitError (List Plan) :=
  match ps with
  | [] => .ok []
  | p :: ps => do
      let plan ← if p.isVoid then cx.matchPart false p else cx.fit p demand
      return plan :: (← cx.fitEach ps demand)
termination_by 2 * Pattern.weights ps + 2 * demandWeight demand
decreasing_by all_goals simp only [Pattern.weights_cons]; omega

def fitBranches (cx : FitContext) (ps : List Pattern) (demand : Demand) :
    Except FitError (List Plan) :=
  match ps with
  | [] => .ok []
  | p :: ps => do
      let plan ← cx.fit p demand
      return plan :: (← cx.fitBranches ps demand)
termination_by 2 * Pattern.weights ps + 2 * demandWeight demand
decreasing_by all_goals simp only [Pattern.weights_cons]; omega

end

/-- The plan of a whole pattern. One that carries no value is refused as a whole when a value is
asked for. -/
def plan (cx : FitContext) (p : Pattern) (demand : Demand) : Except FitError Plan :=
  if p.isVoid && 0 < demand.width then .error (.mismatch [p] demand)
  else do return convert demand (← cx.fit p demand)

end FitContext

end Pegsmith
