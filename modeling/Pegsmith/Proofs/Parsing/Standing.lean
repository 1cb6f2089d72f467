import Pegsmith.Proofs.Parsing.Steps

set_option autoImplicit false

namespace Pegsmith.Parsing

open Run

variable {σ α β γ : Type}

namespace Rules

def Retains (run : Run (Memos σ α) β) : Prop :=
  ∀ t m name place, (m.outcome? name place).isSome →
    ((run.runFrom t m).2.2.outcome? name place).isSome

namespace Retains

theorem bind {run : Run (Memos σ α) β} {next : β → Run (Memos σ α) γ} (first : Retains run)
    (rest : ∀ b, Retains (next b)) : Retains (run >>= next) := by
  intro t m name place held
  have after := first t m name place held
  rw [runFrom_bind]
  generalize run.runFrom t m = answer at after ⊢
  obtain ⟨_ | b, u, r⟩ := answer
  · exact after
  · exact rest b u r name place after

theorem position {next : Nat → Run (Memos σ α) β} (rest : ∀ place, Retains (next place)) :
    Retains (Run.position >>= next) :=
  fun t => rest t.offset t

theorem restore (offset : Nat) : Retains (restore offset : Run (Memos σ α) Unit) := by
  intro t m name place held
  rw [runFrom_restore]
  split <;> exact held

theorem ofFault (r : Except Fault β) : Retains (ofFault r : Run (Memos σ α) β) := by
  intro t m name place held
  rw [runFrom_ofFault]
  exact held

theorem steps (lexer : Lexer) :
    Stepwise lexer (fun _ => True) fun _ _ (run : Run (Memos σ α) _) => Retains run where
  pure _ _ := fun _ _ _ _ held => held
  stop _ _ := fun _ _ _ _ held => held
  bind := bind
  position := position
  restore start := restore start
  tape _ each := fun t m => each t m t m
  take? _ _ := by
    intro t m name place held
    rw [runFrom_take?]
    exact held

theorem buildKept (build : Build σ α) (vs : List (Value α)) : Retains (buildKept build vs) := by
  intro t m name place held
  rw [Rules.buildKept, runFrom_buildWith]
  split <;> exact held

theorem record (name : String) (place : Nat) (memo : Memo (Value α)) :
    Retains (record name place memo : Run (Memos σ α) Unit) := by
  intro t m other there held
  rw [runFrom_record_eq, Memos.outcome?_insert]
  split
  · rfl
  · exact held

theorem keepOutcome (name : String) (place : Nat) (found : Option (Value α)) :
    Retains (keepOutcome name place found : Run (Memos σ α) (Option (Value α))) := by
  have steps := steps (σ := σ) (α := α) []
  cases found with
  | none => exact (record name place .failure).bind fun _ => steps.pure place none
  | some value =>
    refine position fun now => (ofFault _).bind fun consumed => ?_
    exact (record name place (.success consumed value)).bind fun _ => steps.pure now (some value)

end Retains

theorem runFrom_replay_state (memo : Memo (Value α)) (start : Nat) (t : Tape) (m : Memos σ α) :
    ((replay memo start).runFrom t m).2.2 = m := by
  rw [runFrom_replay_eq]
  split
  · rfl
  · split <;> rfl

theorem retains_memoized (rules : Rules σ α) (n : Nat) (name : String) :
    Retains (rules.memoized n name) := by
  induction n generalizing name with
  | zero => exact (Retains.steps []).stop 0 .stuck
  | succ n ih =>
    intro t m
    cases held : m.outcome? name t.offset with
    | some memo =>
      rw [memoized_of_outcome held, runFrom_replay_state]
      exact fun _ _ same => same
    | none =>
      have tried : Retains (firstMatch rules.lexer (rules.memoized n) buildKept t.offset
          (rules.alternatives name)) :=
        (Retains.steps rules.lexer).firstMatch t.offset (fun callee _ => ih callee)
          (fun _ _ _ _ => trivial) fun a _ => Retains.buildKept a.build
      rw [memoized_of_free held]
      exact (tried.bind (Retains.keepOutcome name t.offset)) t m

theorem outcome?_of_record {name : String} {place : Nat} {memo : Memo (Value α)} {t u : Tape}
    {m r : Memos σ α} (ran : (record name place memo).runFrom t m = (.ok (), u, r)) :
    u = t ∧ r.outcome? name place = some memo := by
  rw [runFrom_record_eq] at ran
  obtain ⟨-, rfl, rfl⟩ : _ ∧ t = u ∧ (m.insert name place memo).1 = r := by simpa using ran
  exact ⟨rfl, by simp [Memos.outcome?_insert]⟩

theorem ok_of_runFrom_bind {x : Run σ β} {f : β → Run σ γ} {t u : Tape} {s r : σ} {c : γ}
    (ran : (x >>= f).runFrom t s = (.ok c, u, r)) :
    ∃ b v q, x.runFrom t s = (.ok b, v, q) ∧ (f b).runFrom v q = (.ok c, u, r) := by
  rw [runFrom_bind] at ran
  rcases first : x.runFrom t s with ⟨_ | b, v, q⟩ <;> rw [first] at ran
  · cases ran
  · exact ⟨b, v, q, rfl, ran⟩

theorem outcome?_of_keepOutcome {name : String} {place : Nat} {found kept : Option (Value α)}
    {t u : Tape} {m r : Memos σ α}
    (ran : (keepOutcome name place found).runFrom t m = (.ok kept, u, r)) :
    r.outcome? name place = some (memoOf (u.offset - place) kept) := by
  cases found with
  | none =>
    obtain ⟨_, v, q, recorded, rest⟩ := ok_of_runFrom_bind ran
    cases rest
    exact (outcome?_of_record recorded).2
  | some value =>
    obtain ⟨now, _, _, here, ran⟩ := ok_of_runFrom_bind ran
    cases here
    obtain ⟨consumed, _, _, difference, ran⟩ := ok_of_runFrom_bind ran
    obtain ⟨_, w, p, recorded, rest⟩ := ok_of_runFrom_bind ran
    cases rest
    obtain ⟨rfl, held⟩ := outcome?_of_record recorded
    rw [runFrom_ofFault, subOffset] at difference
    split at difference
    · cases difference
      exact held
    · cases difference

theorem memo_of_replay {t u : Tape} {m r : Memos σ α} {memo : Memo (Value α)}
    {found : Option (Value α)} (ran : (replay memo t.offset).runFrom t m = (.ok found, u, r)) :
    memo = memoOf (u.offset - t.offset) found := by
  rw [runFrom_replay_eq] at ran
  rcases replayed : memo.replay t.offset with f | ⟨offset, value⟩ <;> rw [replayed] at ran
  · cases ran
  · simp only at ran
    split at ran
    · cases ran
      cases memo with
      | failure =>
        cases replayed
        rfl
      | success consumed value =>
        obtain ⟨sum, added, same⟩ := ok_of_exceptMap replayed
        cases same
        obtain ⟨rfl, -⟩ := addOffset_eq_ok_iff.mp added
        rw [memoOf, Nat.add_sub_cancel_left]
    · cases ran

/-- Each call that gives something leaves its outcome in the tables, no outcome is ever lost, and a
call that has an outcome tries no alternative again. -/
structure EvaluatesOnce (rules : Rules σ α) : Prop where
  stands : ∀ n name t m found u r, (rules.memoized n name).runFrom t m = (.ok found, u, r) →
    r.outcome? name t.offset = some (memoOf (u.offset - t.offset) found)
  stays : ∀ n name, Retains (rules.memoized n name)
  replays : ∀ n name t m memo, m.outcome? name t.offset = some memo →
    (rules.memoized (n + 1) name).runFrom t m = (replay memo t.offset).runFrom t m

theorem evaluatesOnce (rules : Rules σ α) : rules.EvaluatesOnce where
  stands n name t m found u r ran := by
    cases n with
    | zero => cases ran
    | succ n =>
      cases held : m.outcome? name t.offset with
      | some memo =>
        have same := runFrom_replay_state memo t.offset t m
        rw [memoized_of_outcome held] at ran
        rw [ran] at same
        obtain rfl : r = m := same
        rw [held, memo_of_replay ran]
      | none =>
        rw [memoized_of_free held] at ran
        obtain ⟨_, _, _, -, kept⟩ := ok_of_runFrom_bind ran
        exact outcome?_of_keepOutcome kept
  stays := retains_memoized rules
  replays _ _ _ _ _ := memoized_of_outcome

end Rules

end Pegsmith.Parsing
