import Pegsmith.Proofs.Parsing.Outcomes

set_option autoImplicit false

namespace Pegsmith.Parsing

open Run

variable {σ α β γ : Type} {lexer : Lexer} {e : ParseError} {t u v : Tape}

def Halts (t : Tape) (run : Run σ β) (e : ParseError) (u : Tape) : Prop :=
  ∀ s, ∃ r, run.runFrom t s = (.error (.error e), u, r)

theorem Gives.halts {run : Run σ β} {next : β → Run σ γ} {b : β} (first : Gives t run b u)
    (rest : Halts u (next b) e v) : Halts t (run >>= next) e v := by
  intro s
  obtain ⟨r, ran⟩ := first s
  rw [runFrom_bind, ran]
  exact rest r

namespace Halts

theorem bind {run : Run σ β} {next : β → Run σ γ} (halts : Halts t run e u) :
    Halts t (run >>= next) e u := by
  intro s
  obtain ⟨r, ran⟩ := halts s
  exact ⟨r, by rw [runFrom_bind, ran]⟩

theorem position {next : Nat → Run σ γ} (rest : Halts t (next t.offset) e u) :
    Halts t (position >>= next) e u := rest

variable {call : String → Run σ (Option (Value α))} {body : Run σ (Outputs α)}
  {plan : Plan} {plans : List Plan} {vs : List (Value α)}

theorem token {kind : String} (failed : lexer.nextIf kind t = (.error e, u)) (use : TokenUse) :
    Halts t (evaluate lexer call (.token kind use)) e u := by
  have stopped : Halts t (take? lexer kind : Run σ (Option Token)) e u :=
    fun s => ⟨s, by rw [runFrom_take?, failed]; rfl⟩
  rw [evaluate]
  exact stopped.bind

theorem called {name : String} (halts : Halts t (call name) e u) :
    Halts t (evaluate lexer call (.call name true none)) e u := by
  rw [evaluate]
  exact halts.bind

theorem sequence (halts : Halts t (evaluateParts lexer call plans) e u) :
    Halts t (evaluate lexer call (.sequence plans)) e u := by
  rwa [evaluate]

theorem part (first : Halts t (evaluate lexer call plan) e u) :
    Halts t (evaluateParts lexer call (plan :: plans)) e u := by
  rw [evaluateParts]
  exact first.bind

theorem part_behind (first : Gives t (evaluate lexer call plan) (some vs) u)
    (rest : Halts u (evaluateParts lexer call plans) e v) :
    Halts t (evaluateParts lexer call (plan :: plans)) e v := by
  rw [evaluateParts]
  exact first.halts rest.bind

theorem oneValue {f : List (Value α) → Option (Value α)} (halts : Halts t body e u) :
    Halts t (oneValue body f) e u := by
  rw [Parsing.oneValue]
  exact halts.bind

theorem round {n : Nat} (halts : Halts t body e u) : Halts t (rounds body (n + 1)) e u := by
  rw [rounds]
  exact position halts.bind

theorem round_behind {n : Nat} (first : Gives t body (some vs) u) (further : u.offset ≠ t.offset)
    (rest : Halts u (rounds body n) e v) : Halts t (rounds body (n + 1)) e v := by
  rw [rounds]
  apply position
  apply first.halts
  apply position
  rw [if_neg further]
  exact rest.bind

theorem loop {atLeastOne keep : Bool} (halts : Halts t (rounds body (t.remainder.length + 2)) e u) :
    Halts t (loop body atLeastOne keep) e u := by
  intro s
  rw [Parsing.loop, runFrom_bind, runFrom_get]
  exact halts.bind s

theorem alternative {b : Alternative σ α} {bs : List (Alternative σ α)} {offset : Nat}
    (halts : Halts t (evaluate lexer call b.plan) e u) :
    Halts t (Rules.firstMatch lexer call (Rules.buildWith id fun s _ => s) offset (b :: bs))
      e u := by
  rw [Rules.firstMatch]
  exact halts.bind

theorem plain {rules : Rules σ α} {name : String} {n : Nat} (positive : 0 < n)
    (halts : Halts t (Rules.firstMatch rules.lexer (rules.plain (n - 1))
      (Rules.buildWith id fun s _ => s) t.offset (rules.alternatives name)) e u) :
    Halts t (rules.plain n name) e u := by
  obtain ⟨n, rfl⟩ := Nat.exists_eq_add_one_of_ne_zero (Nat.pos_iff_ne_zero.mp positive)
  rw [Rules.plain]
  exact position halts

end Halts

variable {text : List Char} {start : Nat} {holds : List (Value α) → Prop}

inductive Proceeds (text : List Char) (holds : β → Prop) (t : Tape) (run : Run σ (Option β)) :
    Prop where
  | found {b : β} {u : Tape} (held : holds b) (inside : u.Within text t.offset)
      (further : t.offset < u.offset) (gives : Gives t run (some b) u)
  | missing {u : Tape} (same : u.text = text) (gives : Gives t run none u)
  | stopped {place : Nat} {rest : List Char} {u : Tape} (behind : t.offset ≤ place)
      (halts : Halts t run (.noRule place rest) u)

theorem proceeds_token {call : String → Run σ (Option (Value α))} (kind : String) (use : TokenUse)
    (within : t.Within text start) :
    Proceeds text (fun vs => ∃ token : Token, vs = useToken use token) t
      (evaluate lexer call (.token kind use)) := by
  obtain ⟨e, u, failed, inside, rfl, -⟩ | refuses | ⟨token, u, -, called, same⟩ :=
    @Ends.nextIf_cases lexer _ _ _ kind within.here
  · exact .stopped inside.behind (.token failed use)
  · exact .missing within.same (.refused refuses use)
  · have takes := Lexer.Takes.one called
    exact .found ⟨token, rfl⟩ (takes.within within) (takes.offset_lt within (by simp))
      (.token called same use)

theorem gives_or_halts_rounds {body : Run σ (Outputs α)} {n : Nat}
    (each : ∀ u, u.Within text t.offset → Proceeds text holds u body)
    (within : t.Within text start) (enough : t.remainder.length < n) :
    (∃ found u, (∀ vs ∈ found, holds vs) ∧ u.Within text t.offset ∧
      Gives t (rounds body n) found u) ∨
      ∃ place rest u, t.offset ≤ place ∧ Halts t (rounds body n) (.noRule place rest) u := by
  induction n generalizing t start with
  | zero => omega
  | succ n ih =>
    cases each t within.here with
    | missing same gives => exact .inl ⟨[], t, by simp, within.here, .no_round within same gives⟩
    | stopped behind halts => exact .inr ⟨_, _, _, behind, .round halts⟩
    | @found vs u held inside further gives =>
      -- What is left gets shorter with every round.
      have fewer := within.here.remainder_lt inside further
      have later (v : Tape) (beyond : v.Within text u.offset) : v.Within text t.offset :=
        beyond.of_le inside.behind
      have moved : u.offset ≠ t.offset := by omega
      obtain ⟨found, v, all, beyond, more⟩ | ⟨place, rest, v, behind, halts⟩ :=
        ih (fun v beyond => each v (later v beyond)) inside (by omega)
      · have both : ∀ ws ∈ vs :: found, holds ws := List.forall_mem_cons.mpr ⟨held, all⟩
        exact .inl ⟨vs :: found, v, both, later v beyond, gives.round moved more⟩
      · exact .inr ⟨place, rest, v, by omega, halts.round_behind gives moved⟩

end Pegsmith.Parsing
