import Mathlib
import Pegsmith.Proofs.Grammar.LeftCalls
import Pegsmith.Proofs.Results

set_option autoImplicit false

namespace Pegsmith

inductive Halt where
  | reentered (nonTerminal : String) (position : Nat)
  | exhausted
  deriving DecidableEq

abbrev Outcome := Except Halt (Option Nat)

namespace Outcome

def andThen (first second : Nat → Outcome) (i : Nat) : Outcome := do
  match ← first i with
  | some j => second j
  | none => return none

def orElse (first second : Nat → Outcome) (i : Nat) : Outcome := do
  match ← first i with
  | some j => return some j
  | none => second i

/-- Rounds up to the first one that fails or takes no token, and whether any has matched. -/
def rounds (step : Nat → Outcome) : Nat → Bool → Nat → Except Halt (Bool × Nat)
  | 0, _, _ => .error .exhausted
  | n + 1, matched, i => do
    match ← step i with
    | none => return (matched, i)
    | some j => if j = i then return (true, i) else rounds step n true j

end Outcome

def Pattern.descend (tokens : List String) (call : String → Nat → Outcome) :
    Pattern → Nat → Outcome
  | .terminal kind _, i => .ok (if tokens[i]? = some kind then some (i + 1) else none)
  | .nonTerminal name, i => call name i
  | .sequence a b, i => Outcome.andThen (a.descend tokens call) (b.descend tokens call) i
  | .choice a b, i => Outcome.orElse (a.descend tokens call) (b.descend tokens call) i
  | .zeroOrMore p, i => do
    let (_, j) ← Outcome.rounds (p.descend tokens call) (tokens.length + 1) false i
    return some j
  | .oneOrMore p, i => do
    let (matched, j) ← Outcome.rounds (p.descend tokens call) (tokens.length + 1) false i
    return if matched then some j else none
  | .optional p, i => do return some ((← p.descend tokens call i).getD i)
  | .group p, i | .discard p, i => p.descend tokens call i

namespace Grammar

def attempt (match? : Pattern → Nat → Outcome) : List Alternative → Nat → Outcome
  | [], _ => .ok none
  | a :: as, i => Outcome.orElse (match? a.pattern) (attempt match? as) i

/-- Matches a non-terminal from a position, with the non-terminals and positions that are being
matched. -/
def descend (g : Grammar) (tokens : List String) :
    Nat → List (String × Nat) → String → Nat → Outcome
  | 0, _, _, _ => .error .exhausted
  | n + 1, active, name, i =>
    if active.contains (name, i) then .error (.reentered name i)
    else
      attempt (Pattern.descend tokens (g.descend tokens n ((name, i) :: active)))
        (g.alternativesOf name) i

end Grammar

namespace Outcome

/-- There is an outcome, and a match ends behind where it began, inside of the tokens, and further
on if it has to take a token. -/
def Settles (length : Nat) (takes : Bool) (i : Nat) (outcome : Outcome) : Prop :=
  ∃ r, outcome = .ok r ∧
    ∀ j, r = some j → i ≤ j ∧ (i < j → j ≤ length) ∧ (takes = true → i < j)

variable {length i : Nat} {first second step : Nat → Outcome} {a b takes : Bool}

theorem settles_andThen (head : Settles length a i (first i))
    (tail : ∀ j, i ≤ j → (i < j → j ≤ length) → (a = true → i < j) →
      Settles length b j (second j)) :
    Settles length (a || b) i (andThen first second i) := by
  obtain ⟨r, returned, moves⟩ := head
  cases r with
  | none => exact ⟨none, by rw [andThen, returned]; rfl, by simp⟩
  | some j =>
    obtain ⟨forward, inside, taken⟩ := moves j rfl
    obtain ⟨r, next, further⟩ := tail j forward inside taken
    refine ⟨r, by rw [andThen, returned]; exact next, fun k same => ?_⟩
    obtain ⟨onward, within, more⟩ := further k same
    refine ⟨by omega, by omega, fun must => ?_⟩
    rcases Bool.or_eq_true .. |>.mp must with left | right
    · have := taken left
      omega
    · have := more right
      omega

theorem settles_orElse (left : Settles length a i (first i))
    (right : Settles length b i (second i)) :
    Settles length (a && b) i (orElse first second i) := by
  obtain ⟨r, returned, moves⟩ := left
  cases r with
  | none =>
    obtain ⟨r, next, further⟩ := right
    refine ⟨r, by rw [orElse, returned]; exact next, fun k same => ?_⟩
    obtain ⟨onward, within, more⟩ := further k same
    exact ⟨onward, within, fun must => more (Bool.and_eq_true .. |>.mp must).2⟩
  | some j =>
    refine ⟨some j, by rw [orElse, returned]; rfl, fun k same => ?_⟩
    obtain ⟨forward, inside, taken⟩ := moves k same
    exact ⟨forward, inside, fun must => taken (Bool.and_eq_true .. |>.mp must).1⟩

theorem rounds_settle {n : Nat} (matched : Bool) (enough : length - i < n)
    (each : ∀ j, i ≤ j → (i < j → j ≤ length) → Settles length takes j (step j)) :
    ∃ any j, rounds step n matched i = .ok (any, j) ∧ i ≤ j ∧ (i < j → j ≤ length) ∧
      (takes = true → any = true → matched = true ∨ i < j) := by
  -- Every round but the last one takes a token, so there are no more rounds than tokens and one.
  induction n generalizing i matched with
  | zero => omega
  | succ n ih =>
    obtain ⟨r, returned, moves⟩ := each i (Nat.le_refl i) (fun less => (Nat.lt_irrefl i less).elim)
    cases r with
    | none =>
      refine ⟨matched, i, by rw [rounds, returned]; rfl, Nat.le_refl i, by omega, ?_⟩
      exact fun _ any => .inl any
    | some j =>
      obtain ⟨forward, inside, taken⟩ := moves j rfl
      by_cases still : j = i
      · refine ⟨true, i, ?_, Nat.le_refl i, by omega, fun must _ => ?_⟩
        · rw [rounds, returned]
          exact if_pos still
        · have := taken must
          omega
      · have bound := inside (by omega)
        obtain ⟨any, k, rest, onward, within, -⟩ :=
          ih (i := j) true (by omega) fun k later less =>
            each k (by omega) fun _ => by omega
        refine ⟨any, k, ?_, by omega, by omega, fun _ _ => .inr (by omega)⟩
        rw [rounds, returned]
        exact (if_neg still).trans rest

end Outcome

open Outcome (Settles)

variable {tokens : List String} {call : String → Nat → Outcome} {mayBeEmpty : String → Bool}

theorem settles_onward {names : List String} {i j : Nat}
    (now : ∀ name ∈ names, Settles tokens.length (!mayBeEmpty name) i (call name i))
    (later : ∀ name j, i < j → j ≤ tokens.length →
      Settles tokens.length (!mayBeEmpty name) j (call name j))
    (forward : i ≤ j) (inside : i < j → j ≤ tokens.length) :
    ∀ name ∈ names, Settles tokens.length (!mayBeEmpty name) j (call name j) := by
  intro name member
  rcases Nat.eq_or_lt_of_le forward with rfl | less
  · exact now name member
  · exact later name j less (inside less)

theorem Pattern.settles_descend {p : Pattern} {i : Nat}
    (now : ∀ name ∈ p.firstCalls mayBeEmpty,
      Settles tokens.length (!mayBeEmpty name) i (call name i))
    (later : ∀ name j, i < j → j ≤ tokens.length →
      Settles tokens.length (!mayBeEmpty name) j (call name j)) :
    Settles tokens.length (p.takesToken mayBeEmpty) i (p.descend tokens call i) := by
  -- Only calls that the pattern may make at its position are needed here; all others stand further
  -- on, where every call settles.
  induction p generalizing i with
  | terminal kind decode =>
    by_cases here : tokens[i]? = some kind
    · have inside : i < tokens.length := (List.getElem?_eq_some_iff.mp here).1
      refine ⟨some (i + 1), by rw [descend, if_pos here], ?_⟩
      rintro j ⟨⟩
      exact ⟨by omega, by omega, by omega⟩
    · exact ⟨none, by rw [descend, if_neg here], by simp⟩
  | nonTerminal name => exact now name List.mem_cons_self
  | sequence a b ihA ihB =>
    rw [firstCalls] at now
    refine Outcome.settles_andThen (ihA ?_ later) fun j forward inside taken => ihB ?_ ?_
    · exact fun name member => now name (List.mem_append_left _ member)
    · intro name member
      by_cases still : j = i
      -- Without a token taken, the calls of the second part count as first ones.
      · subst still
        have noToken : ¬a.takesToken mayBeEmpty = true := fun takes => Nat.lt_irrefl j (taken takes)
        rw [if_neg noToken] at now
        exact now name (List.mem_append_right _ member)
      · exact later name j (by omega) (inside (by omega))
    · exact fun name k less bound => later name k (by omega) bound
  | choice a b ihA ihB =>
    rw [firstCalls] at now
    exact Outcome.settles_orElse
      (ihA (fun name member => now name (List.mem_append_left _ member)) later)
      (ihB (fun name member => now name (List.mem_append_right _ member)) later)
  | zeroOrMore p ih =>
    have each (j : Nat) (forward : i ≤ j) (inside : i < j → j ≤ tokens.length) :
        Settles tokens.length (p.takesToken mayBeEmpty) j (p.descend tokens call j) :=
      ih (settles_onward now later forward inside) fun name k less => later name k (by omega)
    obtain ⟨any, j, found, forward, inside, -⟩ :=
      Outcome.rounds_settle (n := tokens.length + 1) false (by omega) each
    refine ⟨some j, by rw [descend, found]; rfl, ?_⟩
    rintro k ⟨⟩
    exact ⟨forward, inside, by simp [takesToken]⟩
  | oneOrMore p ih =>
    have each (j : Nat) (forward : i ≤ j) (inside : i < j → j ≤ tokens.length) :
        Settles tokens.length (p.takesToken mayBeEmpty) j (p.descend tokens call j) :=
      ih (settles_onward now later forward inside) fun name k less => later name k (by omega)
    obtain ⟨any, j, found, forward, inside, taken⟩ :=
      Outcome.rounds_settle (n := tokens.length + 1) false (by omega) each
    refine ⟨if any then some j else none, by rw [descend, found]; rfl, ?_⟩
    cases any with
    | false => simp
    | true =>
      rintro k ⟨⟩
      exact ⟨forward, inside, fun takes => (taken takes rfl).resolve_left Bool.false_ne_true⟩
  | optional p ih =>
    obtain ⟨r, returned, moves⟩ := ih now later
    refine ⟨some (r.getD i), by rw [descend, returned]; rfl, ?_⟩
    rintro j ⟨⟩
    cases r with
    | none => exact ⟨Nat.le_refl i, by simp, by simp [takesToken]⟩
    | some j =>
      obtain ⟨forward, inside, -⟩ := moves j rfl
      exact ⟨forward, inside, by simp [takesToken]⟩
  | group p ih | discard p ih => exact ih now later

namespace Grammar

noncomputable def height (g : Grammar) (name : String) : Nat :=
  if g.has name then g.rank name + 1 else 0

theorem height_le (g : Grammar) (name : String) : g.height name ≤ g.nonTerminals.length + 1 := by
  have bound := g.rank_le name
  rw [height]
  split <;> omega

theorem alternativesOf_eq_nil {g : Grammar} {name : String} (unknown : g.has name = false) :
    g.alternativesOf name = [] := by
  have missing : g.nonTerminals.find? (·.name == name) = none := by
    rw [List.find?_eq_none]
    exact List.any_eq_false.mp unknown
  rw [alternativesOf, missing]
  rfl

theorem height_lt {g : Grammar} (none : g.recursionProblems = []) {name callee : String}
    {a : Alternative} (alternative : a ∈ g.alternativesOf name)
    (called : callee ∈ a.pattern.firstCalls g.empties.contains) :
    g.height callee < g.height name := by
  have known : g.has name = true := by
    by_contra unknown
    rw [alternativesOf_eq_nil (by simpa using unknown)] at alternative
    cases alternative
  rw [height, height, if_pos known]
  split
  · next has =>
    have less := rank_lt none (mem_calls.mpr ⟨has, a, alternative, called⟩)
    omega
  · omega

noncomputable def reserve (g : Grammar) (tokens : List String) (name : String) (i : Nat) : Nat :=
  (g.nonTerminals.length + 2) * (tokens.length - i) + g.height name

theorem reserve_lt (g : Grammar) {name callee : String} {i j : Nat} (less : i < j)
    (inside : j ≤ tokens.length) : g.reserve tokens callee j < g.reserve tokens name i := by
  have bound := g.height_le callee
  have step : (g.nonTerminals.length + 2) * (tokens.length - j + 1) ≤
      (g.nonTerminals.length + 2) * (tokens.length - i) :=
    Nat.mul_le_mul_left _ (by omega)
  rw [Nat.mul_add, Nat.mul_one] at step
  rw [reserve, reserve]
  omega

theorem takesToken_of_not_empty {g : Grammar} {name : String} {a : Alternative}
    (alternative : a ∈ g.alternativesOf name) (filled : (!g.empties.contains name) = true) :
    a.pattern.takesToken g.empties.contains = true := by
  -- An alternative that may match without a token puts its non-terminal among the empty ones.
  by_contra empty
  rw [alternativesOf] at alternative
  cases found : g.nonTerminals.find? (·.name == name) with
  | none =>
    rw [found] at alternative
    cases alternative
  | some n =>
    rw [found] at alternative
    have same : n.name = name := by simpa using List.find?_some found
    have member : name ∈ g.empties := by
      apply g.emptyStep_empties_subset
      exact mem_emptyStep.mpr
        ⟨n, List.mem_of_find?_eq_some found, same, a, alternative, by simpa using empty⟩
    simp [member] at filled

theorem settles_attempt {match? : Pattern → Nat → Outcome} {length i : Nat} {takes : Bool}
    {as : List Alternative}
    (each : ∀ a ∈ as, ∃ b, (takes = true → b = true) ∧
      Settles length b i (match? a.pattern i)) :
    Settles length takes i (attempt match? as i) := by
  induction as with
  | nil => exact ⟨none, rfl, by simp⟩
  | cons a as ih =>
    obtain ⟨b, most, first⟩ := each a List.mem_cons_self
    have rest := ih fun other member => each other (List.mem_cons_of_mem _ member)
    obtain ⟨r, returned, moves⟩ := Outcome.settles_orElse first rest
    refine ⟨r, returned, fun j same => ?_⟩
    obtain ⟨forward, inside, taken⟩ := moves j same
    exact ⟨forward, inside, fun must => taken (by simp [most must, must])⟩

theorem settles_descend {g : Grammar} (none : g.recursionProblems = []) {n : Nat}
    {active : List (String × Nat)} {name : String} {i : Nat}
    (enough : g.reserve tokens name i < n)
    (under : ∀ entry ∈ active, g.reserve tokens name i < g.reserve tokens entry.1 entry.2) :
    Settles tokens.length (!g.empties.contains name) i (g.descend tokens n active name i) := by
  induction n generalizing active name i with
  | zero => cases enough
  | succ n ih =>
    -- What is being matched has more in reserve than this call, so this is none of it.
    have fresh : ¬active.contains (name, i) = true := by
      intro member
      exact Nat.lt_irrefl _ (under (name, i) (by simpa using member))
    -- Every call made from here has less in reserve than all that are being matched.
    have call {callee : String} {j : Nat}
        (less : g.reserve tokens callee j < g.reserve tokens name i) :
        Settles tokens.length (!g.empties.contains callee) j
          (g.descend tokens n ((name, i) :: active) callee j) := by
      refine ih (by omega) ?_
      rintro entry (_ | ⟨_, member⟩)
      · exact less
      · exact Nat.lt_trans less (under entry member)
    rw [descend, if_neg fresh]
    refine settles_attempt fun a alternative => ⟨_, takesToken_of_not_empty alternative, ?_⟩
    refine Pattern.settles_descend (fun callee called => call ?_) fun callee j less inside =>
      call (g.reserve_lt less inside)
    have lower := height_lt none alternative called
    rw [reserve, reserve]
    omega

end Grammar

def Outcome.Extends (less more : Nat → Outcome) : Prop :=
  ∀ i r, less i = .ok r → more i = .ok r

namespace Outcome

variable {first second step first' second' step' : Nat → Outcome}

theorem andThen_extends (head : Extends first first') (tail : Extends second second') :
    Extends (andThen first second) (andThen first' second') := by
  intro i r returned
  rw [andThen] at returned ⊢
  obtain ⟨s, found, returned⟩ := ok_of_bind returned
  rw [head i s found]
  cases s with
  | none => exact returned
  | some j => exact tail j r returned

theorem orElse_extends (left : Extends first first') (right : Extends second second') :
    Extends (orElse first second) (orElse first' second') := by
  intro i r returned
  rw [orElse] at returned ⊢
  obtain ⟨s, found, returned⟩ := ok_of_bind returned
  rw [left i s found]
  cases s with
  | none => exact right i r returned
  | some j => exact returned

theorem rounds_extend (each : Extends step step') {n i : Nat} {matched : Bool}
    {result : Bool × Nat} (returned : rounds step n matched i = .ok result) :
    rounds step' n matched i = .ok result := by
  induction n generalizing matched i with
  | zero => cases returned
  | succ n ih =>
    rw [rounds] at returned ⊢
    obtain ⟨r, found, returned⟩ := ok_of_bind returned
    rw [each i r found]
    cases r with
    | none => exact returned
    | some j =>
      by_cases still : j = i
      · exact (if_pos still).trans ((if_pos still).symm.trans returned)
      · exact (if_neg still).trans (ih ((if_neg still).symm.trans returned))

end Outcome

open Outcome (Extends)

theorem Pattern.descend_extends {call' : String → Nat → Outcome}
    (each : ∀ name, Extends (call name) (call' name)) (p : Pattern) :
    Extends (p.descend tokens call) (p.descend tokens call') := by
  induction p with
  | terminal => exact fun _ _ returned => returned
  | nonTerminal name => exact each name
  | sequence a b ihA ihB => exact Outcome.andThen_extends ihA ihB
  | choice a b ihA ihB => exact Outcome.orElse_extends ihA ihB
  | zeroOrMore p ih | oneOrMore p ih =>
    intro i r returned
    obtain ⟨result, found, returned⟩ := ok_of_bind returned
    rw [descend, Outcome.rounds_extend ih found]
    exact returned
  | optional p ih =>
    intro i r returned
    obtain ⟨result, found, returned⟩ := ok_of_bind returned
    rw [descend, ih i result found]
    exact returned
  | group p ih | discard p ih => exact ih

namespace Grammar

theorem attempt_extends {match? more? : Pattern → Nat → Outcome}
    (each : ∀ p, Extends (match? p) (more? p)) (as : List Alternative) :
    Extends (attempt match? as) (attempt more? as) := by
  induction as with
  | nil => exact fun _ _ returned => returned
  | cons a as ih => exact Outcome.orElse_extends (each a.pattern) ih

theorem descend_extends (g : Grammar) {n : Nat} {active : List (String × Nat)} {name : String} :
    Extends (g.descend tokens n active name) (g.descend tokens (n + 1) active name) := by
  induction n generalizing active name with
  | zero =>
    intro i r returned
    cases returned
  | succ n ih =>
    intro i r returned
    rw [descend] at returned ⊢
    by_cases again : active.contains (name, i) = true
    · rw [if_pos again] at returned
      cases returned
    · rw [if_neg again] at returned ⊢
      exact attempt_extends (fun p => Pattern.descend_extends (fun _ => ih) p) _ i r returned

/-- Without a left recursion that is reported, descent from any position ends with one and the
same result however many more steps than this it is given, and it never enters a non-terminal at a
position at which it is still matching it: that would be the result. -/
theorem descend_ends {g : Grammar} (none : g.recursionProblems = []) (tokens : List String)
    (name : String) (i : Nat) :
    ∃ r, ∀ n, (g.nonTerminals.length + 2) * (tokens.length - i + 1) ≤ n →
      g.descend tokens n [] name i = .ok r := by
  have bound := g.height_le name
  have enough : g.reserve tokens name i < (g.nonTerminals.length + 2) * (tokens.length - i + 1) := by
    rw [reserve, Nat.mul_add, Nat.mul_one]
    omega
  obtain ⟨r, returned, -⟩ : Settles tokens.length (!g.empties.contains name) i
      (g.descend tokens _ [] name i) := settles_descend none enough (by simp)
  refine ⟨r, fun n more => ?_⟩
  induction n, more using Nat.le_induction with
  | base => exact returned
  | succ n _ ih => exact g.descend_extends i r ih

def numberList : Grammar :=
  { name := "Numbers", tokenType := .named "TokenType"
    nonTerminals :=
      [{ name := "items", location := ⟨"Numbers.items", none⟩
         alternatives := [⟨⟨"Numbers.items#1", none⟩, "number (@Comma items)?",
          .sequence (.nonTerminal "number") (.optional (.group (.sequence
            (.discard (.terminal "Comma" false)) (.nonTerminal "items")))),
          .construct (.named "Items")⟩] },
       { name := "number", location := ⟨"Numbers.number", none⟩
         alternatives := [⟨⟨"Numbers.number#1", none⟩, "$Number", .terminal "Number" true,
          .construct (.named "Number")⟩] }] }

theorem numberList_descend_ends :
    numberList.recursionProblems = [] ∧
      ∃ r, ∀ n, (numberList.nonTerminals.length + 2) *
          (["Number", "Comma", "Number"].length - 0 + 1) ≤ n →
        numberList.descend ["Number", "Comma", "Number"] n [] "items" 0 = .ok r := by
  have none : numberList.recursionProblems = [] := by cbv
  exact ⟨none, descend_ends none ["Number", "Comma", "Number"] "items" 0⟩

end Grammar

end Pegsmith
