import Pegsmith.Proofs.Plan.Derivation
import Pegsmith.Proofs.Results

set_option autoImplicit false

namespace Pegsmith

namespace FitContext

open Pattern (valued_gt_one)

/-- What a search returns has a property. One that fails does not complain about branches. -/
def Returns {α : Type} (holds : α → Prop) : Except FitError α → Prop
  | .ok a => holds a
  | .error e => ∀ choice, e ≠ .branchArity choice

section Returns

variable {α β : Type} {holds : α → Prop} {others : β → Prop} {x : Except FitError α}

theorem Returns.of_ok {a : α} (returns : Returns holds x) (made : x = .ok a) : holds a := by
  rw [made] at returns
  exact returns

theorem Returns.ne_branchArity (returns : Returns holds x) (choice : Pattern) :
    x ≠ .error (.branchArity choice) := by
  rintro rfl
  exact returns choice rfl

theorem returns_ok {a : α} (here : holds a) : Returns holds (.ok a) :=
  here

theorem returns_mismatch (items : List Pattern) (demand : Demand) :
    Returns holds (.error (.mismatch items demand)) :=
  nofun

theorem returns_unknownValue (name : String) : Returns holds (.error (.unknownValue name)) :=
  nofun

theorem Returns.mono {weaker : α → Prop} (returns : Returns holds x)
    (passes : ∀ a, holds a → weaker a) : Returns weaker x := by
  cases x with
  | error e => exact returns
  | ok a => exact passes a returns

theorem Returns.bind {f : α → Except FitError β} (first : Returns holds x)
    (rest : ∀ a, holds a → Returns others (f a)) : Returns others (x >>= f) := by
  cases x with
  | error e => exact first
  | ok a => exact rest a first

theorem Returns.map {f : α → β} (first : Returns holds x)
    (passes : ∀ a, holds a → others (f a)) : Returns others (do return f (← x)) :=
  first.bind passes

theorem Returns.cons {y : Except FitError (List α)} {rest all : List α → Prop}
    (head : Returns holds x) (tail : Returns rest y)
    (both : ∀ a as, holds a → rest as → all (a :: as)) :
    Returns all (do
      let a ← x
      return a :: (← y)) :=
  head.bind fun a here => tail.map fun as others => both a as here others

end Returns

theorem skims (cx : FitContext) :
    (∀ (discarded : Bool) (p : Pattern),
      Returns (cx.Skims discarded p) (cx.matchOnly discarded p)) ∧
    (∀ (discarded : Bool) (p : Pattern),
      Returns (fun plan => (discarded || p.isVoid) = true ∧ cx.Skims discarded p plan)
        (cx.matchPart discarded p)) ∧
    (∀ (discarded : Bool) (ps : List Pattern),
      Returns (cx.SkimsEach discarded ps) (cx.matchEach discarded ps)) := by
  apply FitContext.matchOnly.mutual_induct cx
  -- A token, and a call of a non-terminal with or without a value type.
  case case1 =>
    intro discarded kind decode
    rw [matchOnly]
    exact returns_ok .terminal
  case case2 =>
    intro discarded name typed
    rw [matchOnly, if_pos typed]
    obtain ⟨value, typed⟩ := Option.isSome_iff_exists.mp typed
    exact returns_ok (.nonTerminal typed)
  case case3 =>
    intro discarded name untyped
    rw [matchOnly, if_neg untyped]
    exact returns_unknownValue name
  -- Sequences and choices.
  case case4 =>
    intro discarded a b items
    rw [matchOnly]
    exact items.map fun _ => .sequence
  case case5 =>
    intro discarded a b branches
    rw [matchOnly]
    exact branches.map fun _ => .choice
  -- What stands around one part, which has to be void unless all of it is discarded.
  case case6 =>
    intro discarded p inner
    rw [matchOnly]
    exact inner.map fun _ part => .zeroOrMore part.1 part.2
  case case7 =>
    intro discarded p inner
    rw [matchOnly]
    exact inner.map fun _ part => .oneOrMore part.1 part.2
  case case8 =>
    intro discarded p inner
    rw [matchOnly]
    exact inner.map fun _ part => .optional part.1 part.2
  case case9 =>
    intro discarded p inner
    rw [matchOnly]
    exact inner.mono fun _ part => .group part.1 part.2
  case case10 =>
    intro discarded p inner
    rw [matchOnly]
    exact inner.mono fun _ => .discard
  case case11 =>
    intro discarded p void inner
    rw [matchPart, if_pos void]
    exact inner.mono fun _ part => ⟨void, part⟩
  case case12 =>
    intro discarded p valued
    rw [matchPart, if_neg valued]
    exact returns_mismatch [p] .empty
  -- Parts one by one.
  case case13 =>
    intro discarded
    rw [matchEach]
    exact returns_ok .nil
  case case14 =>
    intro discarded p ps head tail
    rw [matchEach]
    exact head.cons tail fun _ _ part => .cons part.1 part.2

theorem fits_of_fitTerminal (cx : FitContext) (kind : String) (decode : Bool) (demand : Demand) :
    Returns (cx.Fits (.terminal kind decode) demand) (fitTerminal kind decode demand) := by
  induction demand with
  | text type => exact returns_ok .text
  | rawToken type =>
    cases decode with
    | true => exact returns_mismatch _ _
    | false => exact returns_ok .rawToken
  | tokenKind type =>
    cases decode with
    | true => exact returns_mismatch _ _
    | false => exact returns_ok .tokenKind
  | list type item ih => exact ih.map fun _ => .single rfl
  | optional type value ih => exact ih.map fun _ => .present rfl
  | empty | named | tuple | pair => exact returns_mismatch _ _

variable {cx : FitContext} {name : String} {value : HostType}

theorem fits_of_callFor? {demand : Demand} {plan : Plan} (typed : cx.value? name = some value)
    (made : cx.callFor? name value demand.type? = some plan) :
    cx.Fits (.nonTerminal name) demand plan := by
  obtain ⟨type, asked, made⟩ := Option.bind_eq_some_iff.mp made
  by_cases same : type = value
  · rw [if_pos same] at made
    cases made
    exact .call (same ▸ typed) asked
  · rw [if_neg same] at made
    by_cases converts : cx.isSubtype value type = true
    · rw [if_pos converts] at made
      cases made
      exact .callInto typed asked converts
    · rw [if_neg converts] at made
      cases made

theorem fits_of_fitCall (typed : cx.value? name = some value) (demand : Demand) :
    Returns (cx.Fits (.nonTerminal name) demand) (cx.fitCall name value demand) := by
  induction demand with
  | list type item ih =>
    rw [fitCall]
    split
    · next plan direct => exact returns_ok (fits_of_callFor? typed direct)
    · exact ih.map fun _ => .single rfl
  | optional type inner ih =>
    rw [fitCall]
    split
    · next plan direct => exact returns_ok (fits_of_callFor? typed direct)
    · exact ih.map fun _ => .present rfl
  | empty | rawToken | text | tokenKind | named | tuple | pair =>
    simp only [fitCall]
    split
    · next plan direct => exact returns_ok (fits_of_callFor? typed direct)
    · exact returns_mismatch _ _

theorem fitItems_of_several {ps : List Pattern} {demand : Demand}
    (several : 1 < Pattern.valued ps) :
    cx.fitItems ps demand =
      match demand with
      | .pair first rest => do
          let head ← cx.fitItems (Pattern.splitValued ps).1 first
          let tail ← cx.fitItems (Pattern.splitValued ps).2 rest
          return .sequence [convert first head, convert rest tail]
      | .tuple _ members => do return .pack (← cx.fitItems ps members)
      | .list type item => do return .concat (← cx.fitEach ps (.list type item))
      | demand => .error (.mismatch ps demand) := by
  rw [fitItems.eq_def]
  split
  · next none => exact absurd none (Nat.ne_zero_of_lt several)
  · next one => exact absurd one (Nat.ne_of_gt several)
  · rfl

theorem fits (cx : FitContext) :
    (∀ (p : Pattern) (demand : Demand), Returns (cx.Fits p demand) (cx.fit p demand)) ∧
    (∀ (ps : List Pattern) (demand : Demand),
      Returns (cx.FitsBranches ps demand) (cx.fitBranches ps demand)) ∧
    (∀ (ps : List Pattern) (demand : Demand),
      Returns (cx.FitsItems ps demand) (cx.fitItems ps demand)) ∧
    (∀ (ps : List Pattern) (demand : Demand),
      Returns (cx.FitsEach ps demand) (cx.fitEach ps demand)) := by
  -- One case for each branch of the search; the conditions on the way become premises of the rule.
  have skimPart : ∀ p, Returns (fun plan => p.isVoid = true ∧ cx.Skims false p plan)
      (cx.matchPart false p) := (skims cx).2.1 false
  apply FitContext.fit.mutual_induct cx
  -- Nothing is asked for.
  case case1 =>
    intro p
    rw [fit.eq_def, if_pos rfl]
    exact (skimPart p).mono fun _ part => .skim part.1 part.2
  -- Leaves.
  case case2 =>
    intro demand filled kind decode
    rw [fit, if_neg filled]
    exact fits_of_fitTerminal cx kind decode demand
  case case3 =>
    intro demand filled name untyped
    rw [fit, if_neg filled, untyped]
    exact returns_unknownValue name
  case case4 =>
    intro demand filled name value typed
    rw [fit, if_neg filled, typed]
    exact fits_of_fitCall typed demand
  case case5 =>
    intro demand filled a b items
    rw [fit, if_neg filled]
    exact items.mono fun _ => .sequence filled
  case case6 =>
    -- The one place that compares branches: all of them are as wide as the demand.
    intro demand filled a b branches
    rw [fit, if_neg filled]
    refine branches.bind fun plans each => ?_
    rw [if_pos (Plan.all_firstArity each.arity)]
    exact returns_ok (.choice filled each (Plan.arity_eq_firstArity each.arity))
  -- Repetitions need a list.
  case case7 =>
    intro p type item filled inner
    rw [fit, if_neg filled]
    exact inner.map fun _ => .zeroOrMore
  case case9 =>
    intro p type item filled inner
    rw [fit, if_neg filled]
    exact inner.map fun _ => .oneOrMore
  case case8 | case10 =>
    intro demand filled p noList
    rw [fit, if_neg filled]
    · exact returns_mismatch _ _
    · exact noList
  -- An optional part fills an optional value, and anything else by default.
  case case11 =>
    intro p type value filled inner
    rw [fit, if_neg filled]
    exact inner.map fun _ => .keep
  case case12 =>
    intro p demand noOption filled inner
    rw [fit, if_neg filled]
    · exact inner.map fun _ => .default filled noOption
    · exact noOption
  case case13 =>
    intro demand filled p inner
    rw [fit, if_neg filled]
    exact inner.mono fun _ => .group filled
  case case14 =>
    intro demand filled p
    rw [fit, if_neg filled]
    exact returns_mismatch _ _
  case case15 =>
    intro demand
    rw [fitBranches]
    exact returns_ok .nil
  case case16 =>
    intro demand p ps head tail
    rw [fitBranches]
    exact head.cons tail fun _ _ => .cons
  -- Items of which none, one, or several carry a value.
  case case17 =>
    intro ps none
    rw [fitItems.eq_def, none]
    exact ((skims cx).2.2 false ps).map fun _ => .skim none
  case case18 =>
    intro ps demand none filled
    rw [fitItems.eq_def, none]
    simp only [if_neg filled]
    exact returns_mismatch _ _
  case case19 =>
    intro ps demand one parts
    rw [fitItems.eq_def, one]
    exact parts.map fun _ => .one one
  case case20 =>
    intro ps first rest notNone notOne front back
    have several := valued_gt_one notNone notOne
    rw [fitItems_of_several several]
    exact front.bind fun _ before => back.map fun _ => .pair several before
  case case21 =>
    intro ps type members notNone notOne inner
    have several := valued_gt_one notNone notOne
    rw [fitItems_of_several several]
    exact inner.map fun _ => .pack several
  case case22 =>
    intro ps type item notNone notOne parts
    have several := valued_gt_one notNone notOne
    rw [fitItems_of_several several]
    exact parts.map fun _ => .concat several
  case case23 =>
    intro ps demand noPair noTuple noList notNone notOne
    rw [fitItems_of_several (valued_gt_one notNone notOne)]
    cases demand with
    | pair first rest => exact (noPair first rest rfl).elim
    | tuple type members => exact (noTuple type members rfl).elim
    | list type item => exact (noList type item rfl).elim
    | empty | rawToken | text | tokenKind | named | optional => exact returns_mismatch _ _
  -- Each item by itself; those that carry no value only have to match.
  case case24 =>
    intro demand
    rw [fitEach]
    exact returns_ok .nil
  case case25 =>
    intro demand p ps void tail
    rw [fitEach, if_pos void]
    exact (skimPart p).cons tail fun _ _ part => .void void part.2
  case case26 =>
    intro demand p ps valued tail head
    rw [fitEach, if_neg valued]
    exact head.cons tail fun _ _ => .valued (by simpa using valued)

theorem fits_of_fitBranches {ps : List Pattern} {demand : Demand} {plans : List Plan}
    (made : cx.fitBranches ps demand = .ok plans) : cx.FitsBranches ps demand plans :=
  ((fits cx).2.1 ps demand).of_ok made

theorem returns_plan (cx : FitContext) (p : Pattern) (demand : Demand) :
    Returns (fun plan => ∃ inner, cx.Fits p demand inner ∧ plan = convert demand inner)
      (cx.plan p demand) := by
  rw [plan]
  split
  · exact returns_mismatch _ _
  · exact ((fits cx).1 p demand).map fun inner fits => ⟨inner, fits, rfl⟩

theorem fits_of_plan {p : Pattern} {demand : Demand} {plan : Plan}
    (made : cx.plan p demand = .ok plan) :
    ∃ inner, cx.Fits p demand inner ∧ plan = convert demand inner :=
  (returns_plan cx p demand).of_ok made

theorem arity_of_plan {p : Pattern} {demand : Demand} {plan : Plan}
    (made : cx.plan p demand = .ok plan) : plan.arity = demand.width := by
  obtain ⟨inner, fits, rfl⟩ := fits_of_plan made
  exact arity_convert fits.arity

end FitContext

end Pegsmith
