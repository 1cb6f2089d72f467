import Pegsmith.Proofs.Parsing.Memoized
import Pegsmith.Proofs.Plan.Leaves

set_option autoImplicit false

namespace Pegsmith.Parsing

open Run

variable {σ τ α β γ : Type}

/-- A property of runs from places behind one on, which holds of looking for tokens of some kinds,
of going back to that place, and of runs one after the other. Only the tape may decide what is run. -/
structure Stepwise (lexer : Lexer) (kinds : String → Prop)
    (P : Nat → (β : Type) → Run σ β → Prop) : Prop where
  pure : ∀ {β : Type} (start : Nat) (b : β), P start β (pure b)
  stop : ∀ {β : Type} (start : Nat) (e : Stop), P start β (stop e)
  bind : ∀ {β γ : Type} {start : Nat} {run : Run σ β} {next : β → Run σ γ},
    P start β run → (∀ b, P start γ (next b)) → P start γ (run >>= next)
  position : ∀ {β : Type} {start : Nat} {next : Nat → Run σ β},
    (∀ place, P place β (next place)) → P start β (position >>= next)
  restore : ∀ start : Nat, P start Unit (restore start)
  tape : ∀ {β : Type} {start : Nat} {next : Tape × σ → Run σ β},
    (∀ t s r, next (t, s) = next (t, r)) → (∀ t s, P start β (next (t, s))) →
      P start β (get >>= next)
  take? : ∀ {kind : String} (start : Nat), kinds kind →
    P start (Option Token) (take? lexer kind)

namespace Stepwise

variable {lexer : Lexer} {kinds : String → Prop} {P : Nat → (β : Type) → Run σ β → Prop}
  (steps : Stepwise lexer kinds P)

include steps

theorem map {start : Nat} {run : Run σ β} (holds : P start β run) (f : β → γ) :
    P start γ (do return f (← run)) :=
  steps.bind holds fun b => steps.pure start (f b)

theorem useful (start : Nat) (v : Option β) : P start β (useful v) := by
  cases v with
  | none => exact steps.stop start .stuck
  | some b => exact steps.pure start b

theorem oneValue {start : Nat} {run : Run σ (Outputs α)} (holds : P start _ run)
    (f : List (Value α) → Option (Value α)) : P start _ (oneValue run f) := by
  apply steps.bind holds
  intro found
  cases found with
  | none => exact steps.pure start none
  | some vs => exact steps.map (steps.useful start (f vs)) fun v => some [v]

theorem rounds {body : Run σ (Outputs α)} (holds : ∀ start, P start _ body) (n start : Nat) :
    P start _ (rounds body n) := by
  induction n generalizing start with
  | zero => exact steps.stop start .stuck
  | succ n ih =>
    -- A round begins where the last one ended, and gives back what a failed body has taken.
    apply steps.position
    intro start
    apply steps.bind (holds start)
    intro found
    cases found with
    | none => exact steps.map (steps.restore start) fun _ => []
    | some vs =>
      apply steps.position
      intro now
      by_cases still : now = start
      · simp only [still, if_true]
        exact steps.pure start [vs]
      · simp only [still, if_false]
        exact steps.map (ih now) (vs :: ·)

theorem loop {body : Run σ (Outputs α)} (holds : ∀ start, P start _ body) (atLeastOne keep : Bool)
    (start : Nat) : P start _ (loop body atLeastOne keep) := by
  apply steps.tape (fun _ _ _ => rfl)
  intro t _
  apply steps.bind (steps.rounds holds (t.remainder.length + 2) start)
  intro found
  split
  · exact steps.pure start none
  · exact steps.pure start _

theorem optional {body : Run σ (Outputs α)} (holds : ∀ start, P start _ body) (arity : Nat)
    (fallback : Fallback) (start : Nat) : P start _ (optional body arity fallback) := by
  apply steps.position
  intro start
  apply steps.bind (holds start)
  intro found
  cases found with
  | none => exact steps.map (steps.restore start) fun _ => _
  | some vs => exact steps.pure start _

variable {call : String → Run σ (Option (Value α))}

mutual

theorem evaluate (calls : ∀ name start, P start _ (call name)) :
    (plan : Plan) → (∀ kind, .terminal kind ∈ plan.leaves → kinds kind) →
      ∀ start, P start _ (evaluate lexer call plan)
  | .token kind use, only, start => by
    rw [Parsing.evaluate]
    exact steps.map (steps.take? start (only kind List.mem_cons_self)) _
  | .call name keep into, _, start => by
    rw [Parsing.evaluate]
    exact steps.map (calls name start) _
  | .sequence parts, only, start => by
    rw [Parsing.evaluate]
    exact evaluateParts calls parts only start
  | .single inner, only, start | .present inner, only, start | .pack inner, only, start => by
    rw [Parsing.evaluate]
    exact steps.oneValue (evaluate calls inner only start) _
  | .collect inner _, only, start => by
    rw [Parsing.evaluate]
    exact evaluate calls inner only start
  | .concat parts, only, start => by
    rw [Parsing.evaluate]
    exact steps.oneValue (evaluateParts calls parts only start) _
  | .loop inner atLeastOne keep, only, start => by
    rw [Parsing.evaluate]
    exact steps.loop (evaluate calls inner only) atLeastOne keep start
  | .optional inner fallback, only, start => by
    rw [Parsing.evaluate]
    exact steps.optional (evaluate calls inner only) inner.arity fallback start
  | .choice branches, only, start => by
    rw [Parsing.evaluate]
    exact steps.position fun place => evaluateBranches calls branches only place

theorem evaluateParts (calls : ∀ name start, P start _ (call name)) :
    (plans : List Plan) → (∀ kind, .terminal kind ∈ Plan.leavesEach plans → kinds kind) →
      ∀ start, P start _ (evaluateParts lexer call plans)
  | [], _, start => by
    rw [Parsing.evaluateParts]
    exact steps.pure start (some [])
  | plan :: plans, only, start => by
    rw [Parsing.evaluateParts]
    have first := evaluate calls plan (fun kind leaf => only kind (List.mem_append_left _ leaf))
    have rest := evaluateParts calls plans
      (fun kind leaf => only kind (List.mem_append_right _ leaf))
    apply steps.bind (first start)
    intro found
    cases found with
    | none => exact steps.pure start none
    | some vs => exact steps.map (rest start) _

theorem evaluateBranches (calls : ∀ name start, P start _ (call name)) :
    (plans : List Plan) → (∀ kind, .terminal kind ∈ Plan.leavesEach plans → kinds kind) →
      ∀ start, P start _ (evaluateBranches lexer call start plans)
  | [], _, start => by
    rw [Parsing.evaluateBranches]
    exact steps.pure start none
  | plan :: plans, only, start => by
    rw [Parsing.evaluateBranches]
    have first := evaluate calls plan (fun kind leaf => only kind (List.mem_append_left _ leaf))
    have rest := evaluateBranches calls plans
      (fun kind leaf => only kind (List.mem_append_right _ leaf))
    apply steps.bind (first start)
    intro found
    cases found with
    | none => exact steps.bind (steps.restore start) fun _ => rest start
    | some vs => exact steps.pure start (some vs)

end

theorem firstMatch {as : List (Alternative τ α)}
    {finish : Build τ α → List (Value α) → Run σ (Value α)} (start : Nat)
    (calls : ∀ name start, P start _ (call name))
    (only : ∀ a ∈ as, ∀ kind, .terminal kind ∈ a.plan.leaves → kinds kind)
    (finishes : ∀ a ∈ as, ∀ vs, P start _ (finish a.build vs)) :
    P start _ (Rules.firstMatch lexer call finish start as) := by
  induction as with
  | nil => exact steps.pure start none
  | cons a as ih =>
    rw [Rules.firstMatch]
    apply steps.bind (steps.evaluate calls a.plan (only a List.mem_cons_self) start)
    intro found
    cases found with
    | none =>
      have rest := ih (fun b member => only b (List.mem_cons_of_mem a member))
        (fun b member => finishes b (List.mem_cons_of_mem a member))
      exact steps.bind (steps.restore start) fun _ => rest
    | some vs => exact steps.map (finishes a List.mem_cons_self vs) some

end Stepwise

end Pegsmith.Parsing
