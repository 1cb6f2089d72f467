import Pegsmith.Proofs.Parsing.Shift
import Pegsmith.Proofs.Parsing.Steps

set_option autoImplicit false

namespace Pegsmith.Parsing

open Run

variable {σ α β γ : Type}

def Commutes (f : σ → σ) (run : Run σ β) : Prop :=
  ∀ t s, run.runFrom t (f s) =
    ((run.runFrom t s).1, (run.runFrom t s).2.1, f (run.runFrom t s).2.2)

namespace Commutes

variable {f : σ → σ}

theorem bind {run : Run σ β} {next : β → Run σ γ} (first : Commutes f run)
    (rest : ∀ b, Commutes f (next b)) : Commutes f (run >>= next) := by
  intro t s
  rw [runFrom_bind, runFrom_bind, first t s]
  rcases run.runFrom t s with ⟨_ | b, u, r⟩
  · rfl
  · exact rest b u r

theorem pure (b : β) : Commutes f (pure b) := fun _ _ => rfl

theorem position {next : Nat → Run σ β} (rest : ∀ place, Commutes f (next place)) :
    Commutes f (position >>= next) := fun t s => rest t.offset t s

theorem ofFault (r : Except Fault β) : Commutes f (ofFault r) := by
  intro t s
  rw [runFrom_ofFault, runFrom_ofFault]

theorem restore (place : Nat) : Commutes f (restore place) := by
  intro t s
  rw [runFrom_restore, runFrom_restore]
  split <;> rfl

theorem steps (lexer : Lexer) (f : σ → σ) :
    Stepwise lexer (fun _ => True) fun _ _ run => Commutes f run where
  pure _ b := pure b
  stop _ _ := fun _ _ => rfl
  bind := bind
  position := position
  restore := restore
  tape blind each := by
    intro t s
    rw [runFrom_bind, runFrom_bind, runFrom_get, runFrom_get]
    simp only [blind t (f s) s]
    exact each t s t s
  take? _ _ := by
    intro t s
    rw [runFrom_take?, runFrom_take?]

end Commutes

def Build.Additive (build : Build Nat α) : Prop :=
  ∀ k vs n, build vs (k + n) = (build vs n).map (Prod.map id (k + ·))

namespace Rules

variable {rules : Rules Nat α}

def Memos.ahead (k : Nat) (m : Memos Nat α) : Memos Nat α :=
  { m with logic := k + m.logic }

theorem buildKept_commutes {build : Build Nat α} (additive : build.Additive) (k : Nat)
    (vs : List (Value α)) : Commutes (Memos.ahead k) (buildKept build vs) := by
  intro t m
  rw [buildKept, runFrom_buildWith, runFrom_buildWith, Memos.ahead, additive]
  rcases build vs m.logic with _ | ⟨answer, n⟩ <;> rfl

theorem record_commutes (k : Nat) (name : String) (place : Nat) (memo : Memo (Value α)) :
    Commutes (Memos.ahead k) (record name place memo) := by
  intro t m
  rw [runFrom_record_eq, runFrom_record_eq]
  rfl

theorem keepOutcome_commutes (k : Nat) (name : String) (start : Nat)
    (found : Option (Value α)) : Commutes (Memos.ahead k) (keepOutcome name start found) := by
  cases found with
  | none => exact (record_commutes k name start .failure).bind fun _ => .pure none
  | some value =>
    apply Commutes.position
    intro now
    apply (Commutes.ofFault (subOffset now start)).bind
    intro consumed
    exact (record_commutes k name start (.success consumed value)).bind fun _ => .pure _

theorem replay_commutes (k : Nat) (memo : Memo (Value α)) (start : Nat) :
    Commutes (Memos.ahead k) (replay memo start : Run (Memos Nat α) (Option (Value α))) := by
  apply (Commutes.ofFault (memo.replay start)).bind
  intro outcome
  exact (Commutes.restore outcome.1).bind fun _ => .pure outcome.2

theorem memoized_commutes
    (additive : ∀ name, ∀ a ∈ rules.alternatives name, a.build.Additive) (k n : Nat)
    (name : String) : Commutes (Memos.ahead k) (rules.memoized n name) := by
  have steps := @Commutes.steps (Memos Nat α) rules.lexer (Memos.ahead k)
  induction n generalizing name with
  | zero => exact steps.stop 0 .stuck
  | succ n ih =>
    rw [memoized_succ]
    apply Commutes.position
    intro start t m
    rw [runFrom_bind, runFrom_bind, runFrom_get, runFrom_get]
    have same : (m.ahead k).outcome? name start = m.outcome? name start := rfl
    simp only [same]
    -- The outcomes are the same on both sides, so both replay one or neither does.
    cases m.outcome? name start with
    | some memo => exact replay_commutes k memo start t m
    | none =>
      have found := steps.firstMatch start (fun name _ => ih name)
        (fun _ _ _ _ => trivial) fun a member => buildKept_commutes (additive name a member) k
      exact found.bind (keepOutcome_commutes k name start) t m

theorem parseAll_add (additive : ∀ name, ∀ a ∈ rules.alternatives name, a.build.Additive)
    (name : String) (text : List Char) (k n : Nat) :
    rules.parseAll name text (k + n) =
      ((rules.parseAll name text n).1, k + (rules.parseAll name text n).2) := by
  have parsed : rules.parse name ⟨text, 0⟩ (k + n) = ((rules.parse name ⟨text, 0⟩ n).1,
      (rules.parse name ⟨text, 0⟩ n).2.1, k + (rules.parse name ⟨text, 0⟩ n).2.2) := by
    have ran := memoized_commutes additive k (rules.depth ⟨text, 0⟩) name ⟨text, 0⟩
      ({ logic := n } : Memos Nat α)
    rw [runFrom, runFrom, Memos.ahead] at ran
    rw [parse, parse, ran]
    rfl
  rw [parseAll, parseAll, parsed]
  rcases rules.parse name ⟨text, 0⟩ n with ⟨_ | value, u, counted⟩
  · rfl
  · simp only
    rcases rules.lexer.next u with ⟨_ | _ | token, v⟩ <;> rfl

end Rules

end Pegsmith.Parsing
