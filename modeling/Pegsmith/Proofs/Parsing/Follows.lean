import Pegsmith.Parsing.Evaluate
import Pegsmith.Proofs.Parsing.Advance

set_option autoImplicit false

namespace Pegsmith.Parsing

variable {σ τ β γ : Type}

def Run.runFrom (run : Run σ β) (t : Tape) (s : σ) : Except Stop β × Tape × σ :=
  run.run (t, s)

namespace Run

theorem runFrom_bind (x : Run σ β) (f : β → Run σ γ) (t : Tape) (s : σ) :
    (x >>= f).runFrom t s = match x.runFrom t s with
      | (.ok b, t, s) => (f b).runFrom t s
      | (.error e, t, s) => (.error e, t, s) := by
  simp only [runFrom, ExceptT.run, bind, ExceptT.bind, ExceptT.mk, StateT.bind]
  generalize x (t, s) = answer
  obtain ⟨answer, t, s⟩ := answer
  cases answer <;> rfl

theorem runFrom_position (t : Tape) (s : σ) :
    (position : Run σ Nat).runFrom t s = (.ok t.offset, t, s) := rfl

theorem runFrom_get (t : Tape) (s : σ) :
    (get : Run σ (Tape × σ)).runFrom t s = (.ok (t, s), t, s) := rfl

theorem runFrom_restore (offset : Nat) (t : Tape) (s : σ) :
    (restore offset : Run σ Unit).runFrom t s =
      if Text.isBoundary t.text offset then (.ok (), { t with offset }, s)
      else (.error (.fault .insideCharacter), t, s) := by
  rw [restore, runFrom_bind, runFrom_get]
  simp only [Tape.seek]
  split <;> rfl

theorem runFrom_take? (lexer : Lexer) (kind : String) (t : Tape) (s : σ) :
    (take? lexer kind : Run σ (Option Token)).runFrom t s =
      ((lexer.nextIf kind t).1.mapError .error, (lexer.nextIf kind t).2, s) := by
  rw [take?, runFrom_bind, runFrom_get]
  rcases found : lexer.nextIf kind t with ⟨answer, u⟩
  simp only [found]
  cases answer <;> rfl

theorem runFrom_ofFault (r : Except Fault β) (t : Tape) (s : σ) :
    (ofFault r : Run σ β).runFrom t s = (r.mapError .fault, t, s) := by
  cases r <;> rfl

end Run

open Run

/-- A run follows another one from places behind `start`: unless that one is stuck, it answers the
same and leaves the tape at the same place, behind `start` again, and the invariant holds again. -/
def Follows (text : List Char) (start : Nat) (invariant : τ → Prop) (leader : Run Unit β)
    (run : Run τ β) : Prop :=
  ∀ t s, t.Within text start → invariant s → (leader.runFrom t ()).1 ≠ .error .stuck →
    ∃ s', run.runFrom t s = ((leader.runFrom t ()).1, (leader.runFrom t ()).2.1, s') ∧
      ∀ b, (leader.runFrom t ()).1 = .ok b →
        (leader.runFrom t ()).2.1.Within text start ∧ invariant s'

namespace Follows

variable {text : List Char} {start : Nat} {invariant : τ → Prop}

theorem pure (b : β) : Follows text start invariant (pure b) (pure b) := by
  intro t s within holds _
  exact ⟨s, rfl, fun _ _ => ⟨within, holds⟩⟩

theorem stop (e : Stop) : Follows text start invariant (stop e : Run Unit β) (stop e) := by
  intro t s _ _ _
  exact ⟨s, rfl, fun _ answered => by cases answered⟩

theorem bind {leader : Run Unit β} {run : Run τ β} {next : β → Run Unit γ} {after : β → Run τ γ}
    (first : Follows text start invariant leader run)
    (rest : ∀ b, Follows text start invariant (next b) (after b)) :
    Follows text start invariant (leader >>= next) (run >>= after) := by
  intro t s within holds free
  have led := first t s within holds
  rw [runFrom_bind] at free ⊢
  rw [runFrom_bind]
  generalize leader.runFrom t () = answer at free led ⊢
  obtain ⟨answer, u, ⟨⟩⟩ := answer
  match answer with
  | .error e =>
    obtain ⟨s', same, -⟩ := led (by simpa using free)
    exact ⟨s', by rw [same], fun _ answered => by cases answered⟩
  | .ok b =>
    obtain ⟨s', same, kept⟩ := led (by simp)
    obtain ⟨inside, holds⟩ := kept b rfl
    obtain ⟨s'', again, further⟩ := rest b u s' inside holds free
    exact ⟨s'', by rw [same]; exact again, further⟩

theorem position {next : Nat → Run Unit γ} {after : Nat → Run τ γ}
    (rest : ∀ offset, start ≤ offset → Follows text start invariant (next offset) (after offset)) :
    Follows text start invariant (position >>= next) (position >>= after) := by
  intro t s within holds free
  rw [runFrom_bind, runFrom_position] at free ⊢
  exact rest t.offset within.behind t s within holds free

theorem restore {offset : Nat} (behind : start ≤ offset) :
    Follows text start invariant (restore offset) (restore offset) := by
  intro t s within holds _
  rw [runFrom_restore, runFrom_restore]
  by_cases boundary : Text.isBoundary t.text offset = true
  · rw [if_pos boundary, if_pos boundary]
    exact ⟨s, rfl, fun _ _ => ⟨⟨within.same, within.same ▸ boundary, behind⟩, holds⟩⟩
  · rw [if_neg boundary, if_neg boundary]
    exact ⟨s, rfl, fun _ answered => by cases answered⟩

theorem take? (lexer : Lexer) (kind : String) :
    Follows text start invariant (take? lexer kind) (take? lexer kind) := by
  intro t s within holds _
  rw [runFrom_take?, runFrom_take?]
  exact ⟨s, rfl, fun _ _ => ⟨(Lexer.nextIf_within within).1.of_le within.behind, holds⟩⟩

theorem useful (v : Option β) : Follows text start invariant (useful v) (useful v) := by
  cases v with
  | none => exact stop .stuck
  | some b => exact pure b

theorem map {leader : Run Unit β} {run : Run τ β} (f : β → γ)
    (first : Follows text start invariant leader run) :
    Follows text start invariant (do return f (← leader)) (do return f (← run)) :=
  first.bind fun b => pure (f b)

variable {α : Type} {leader : Run Unit (Outputs α)} {run : Run τ (Outputs α)}

theorem oneValue (first : Follows text start invariant leader run)
    (f : List (Value α) → Option (Value α)) :
    Follows text start invariant (oneValue leader f) (oneValue run f) := by
  refine first.bind fun found => ?_
  cases found with
  | none => exact pure none
  | some vs => exact (useful (f vs)).bind fun v => pure (some [v])

theorem rounds (first : Follows text start invariant leader run) (n : Nat) :
    Follows text start invariant (rounds leader n) (rounds run n) := by
  induction n with
  | zero => exact stop .stuck
  | succ n ih =>
    refine position fun place behind => first.bind fun found => ?_
    cases found with
    | none => exact (restore behind).bind fun _ => pure []
    | some vs =>
      refine position fun now _ => ?_
      by_cases still : now = place
      · simp only [still, if_true]
        exact pure [vs]
      · simp only [still, if_false]
        exact ih.bind fun rest => pure (vs :: rest)

theorem loop (first : Follows text start invariant leader run) (atLeastOne keep : Bool) :
    Follows text start invariant (loop leader atLeastOne keep) (loop run atLeastOne keep) := by
  intro t s within holds free
  rw [Parsing.loop, runFrom_bind, runFrom_get] at free ⊢
  rw [Parsing.loop, runFrom_bind, runFrom_get]
  refine ((first.rounds (t.remainder.length + 2)).bind fun found => ?_) t s within holds free
  split
  · exact pure none
  · exact pure _

theorem optional (first : Follows text start invariant leader run) (arity : Nat)
    (fallback : Fallback) :
    Follows text start invariant (optional leader arity fallback)
      (optional run arity fallback) := by
  refine position fun place behind => first.bind fun found => ?_
  cases found with
  | none => exact (restore behind).bind fun _ => pure _
  | some vs => exact pure _

variable {lead : String → Run Unit (Option (Value α))} {call : String → Run τ (Option (Value α))}

mutual

theorem evaluate (lexer : Lexer) (calls : ∀ name, Follows text start invariant (lead name) (call name)) :
    (plan : Plan) → Follows text start invariant (evaluate lexer lead plan) (evaluate lexer call plan)
  | .token kind use => by
    rw [Parsing.evaluate, Parsing.evaluate]
    exact (take? lexer kind).map _
  | .call name keep into => by
    rw [Parsing.evaluate, Parsing.evaluate]
    exact (calls name).map _
  | .sequence parts => by
    rw [Parsing.evaluate, Parsing.evaluate]
    exact evaluateParts lexer calls parts
  | .single inner | .present inner | .pack inner => by
    rw [Parsing.evaluate, Parsing.evaluate]
    exact (evaluate lexer calls inner).oneValue _
  | .collect inner type => by
    rw [Parsing.evaluate, Parsing.evaluate]
    exact evaluate lexer calls inner
  | .concat parts => by
    rw [Parsing.evaluate, Parsing.evaluate]
    exact (evaluateParts lexer calls parts).oneValue _
  | .loop inner atLeastOne keep => by
    rw [Parsing.evaluate, Parsing.evaluate]
    exact (evaluate lexer calls inner).loop atLeastOne keep
  | .optional inner fallback => by
    rw [Parsing.evaluate, Parsing.evaluate]
    exact (evaluate lexer calls inner).optional inner.arity fallback
  | .choice branches => by
    rw [Parsing.evaluate, Parsing.evaluate]
    exact position fun place behind => evaluateBranches lexer calls behind branches

theorem evaluateParts (lexer : Lexer)
    (calls : ∀ name, Follows text start invariant (lead name) (call name)) :
    (plans : List Plan) → Follows text start invariant (evaluateParts lexer lead plans)
      (evaluateParts lexer call plans)
  | [] => by
    rw [Parsing.evaluateParts, Parsing.evaluateParts]
    exact pure (some [])
  | plan :: plans => by
    rw [Parsing.evaluateParts, Parsing.evaluateParts]
    refine (evaluate lexer calls plan).bind fun found => ?_
    cases found with
    | none => exact pure none
    | some vs => exact (evaluateParts lexer calls plans).map _

theorem evaluateBranches (lexer : Lexer)
    (calls : ∀ name, Follows text start invariant (lead name) (call name)) {place : Nat}
    (behind : start ≤ place) :
    (plans : List Plan) → Follows text start invariant (evaluateBranches lexer lead place plans)
      (evaluateBranches lexer call place plans)
  | [] => by
    rw [Parsing.evaluateBranches, Parsing.evaluateBranches]
    exact pure none
  | plan :: plans => by
    rw [Parsing.evaluateBranches, Parsing.evaluateBranches]
    refine (evaluate lexer calls plan).bind fun found => ?_
    cases found with
    | none => exact (restore behind).bind fun _ => evaluateBranches lexer calls behind plans
    | some vs => exact pure (some vs)

end

end Follows

end Pegsmith.Parsing
