import Pegsmith.Proofs.Parsing.Giving

set_option autoImplicit false

namespace Pegsmith.Parsing

open Run

variable {σ α β γ : Type} {lexer : Lexer} {text : List Char} {start : Nat} {t u v w : Tape}

def Comes (t : Tape) (run : Run σ β) (x : Except Fault β) (u : Tape) : Prop :=
  ∀ s, ∃ v r, run.runFrom t s = (x.mapError .fault, v, r) ∧ ∀ b, x = .ok b → v = u

theorem Gives.comes {run : Run σ β} {b : β} (gives : Gives t run b u) :
    Comes t run (.ok b) u := by
  intro s
  obtain ⟨r, ran⟩ := gives s
  exact ⟨u, r, ran, fun _ _ => rfl⟩

theorem Gives.comes_bind {run : Run σ β} {next : β → Run σ γ} {b : β} {x : Except Fault γ}
    (first : Gives t run b u) (rest : Comes u (next b) x v) : Comes t (run >>= next) x v := by
  intro s
  obtain ⟨r, ran⟩ := first s
  rw [runFrom_bind, ran]
  exact rest r

namespace Gives

variable {call : String → Run σ (Option (Value α))} {body : Run σ (Outputs α)} {plan : Plan}

theorem map {run : Run σ β} {b : β} (gives : Gives t run b u) (g : β → γ) :
    Gives t (do return g (← run)) (g b) u :=
  gives.bind (pure _)

theorem not_called {name : String} (gives : Gives t (call name) none u) :
    Gives t (evaluate lexer call (.call name true none)) none u := by
  rw [evaluate]
  exact gives.bind (pure _)

theorem oneValue {f : List (Value α) → Option (Value α)} {vs : List (Value α)} {v : Value α}
    (gives : Gives t body (some vs) u) (makes : f vs = some v) :
    Gives t (Parsing.oneValue body f) (some [v]) u := by
  rw [Parsing.oneValue]
  apply gives.bind
  simp only [makes]
  exact .bind (.pure v) (.pure _)

theorem no_value {f : List (Value α) → Option (Value α)} (gives : Gives t body none u) :
    Gives t (Parsing.oneValue body f) none u := by
  rw [Parsing.oneValue]
  exact gives.bind (pure _)

theorem no_alternative (offset : Nat) :
    Gives t (Rules.firstMatch lexer call (Rules.buildWith id fun (s : σ) _ => s) offset []) none t := by
  rw [Rules.firstMatch]
  exact pure _

theorem no_round {n : Nat} (within : t.Within text start) (same : u.text = text)
    (missing : Gives t body none u) : Gives t (rounds body (n + 1)) [] t := by
  rw [rounds]
  exact position (missing.bind (restore within same (pure [])))

theorem round {n : Nat} {vs : List (Value α)} {found : List (List (Value α))}
    (first : Gives t body (some vs) u) (further : u.offset ≠ t.offset)
    (rest : Gives u (rounds body n) found v) : Gives t (rounds body (n + 1)) (vs :: found) v := by
  rw [rounds]
  apply position
  apply first.bind
  apply position
  rw [if_neg further]
  exact rest.bind (pure _)

theorem loop {found : List (List (Value α))}
    (gives : Gives t (rounds body (t.remainder.length + 2)) found u) :
    Gives t (Parsing.loop body false true) (some [.list (found.map Value.together)]) u := by
  have mapped := gives.map fun found => some [Value.list (found.map Value.together)]
  intro s
  rw [Parsing.loop, runFrom_bind, runFrom_get]
  exact mapped s

theorem optional_missing {fallback : Fallback} (within : t.Within text start) (same : u.text = text)
    (missing : Gives t (evaluate lexer call plan) none u) :
    Gives t (evaluate lexer call (.optional plan fallback))
      (some (fill plan.arity fallback none)) t := by
  rw [evaluate, Parsing.optional]
  exact position (missing.bind (restore within same (pure _)))

end Gives

namespace Comes

theorem gives {run : Run σ β} {b : β} (comes : Comes t run (.ok b) u) : Gives t run b u := by
  intro s
  obtain ⟨v, r, ran, place⟩ := comes s
  obtain rfl := place b rfl
  exact ⟨r, ran⟩

theorem fault_bind {run : Run σ β} {next : β → Run σ γ} {f : Fault}
    (stops : Comes t run (.error f) u) : Comes t (run >>= next) (.error f) v := by
  intro s
  obtain ⟨place, r, ran, -⟩ := stops s
  rw [runFrom_bind, ran]
  exact ⟨place, r, rfl, fun _ answered => by cases answered⟩

theorem map {run : Run σ β} {x : Except Fault β} (comes : Comes t run x u) (g : β → γ) :
    Comes t (do return g (← run)) (x.map g) u := by
  cases x with
  | error f => exact comes.fault_bind
  | ok b => exact (comes.gives.map g).comes

theorem position {next : Nat → Run σ γ} {x : Except Fault γ}
    (rest : Comes t (next t.offset) x v) : Comes t (position >>= next) x v := rest

variable {call : String → Run σ (Option (Value α))} {plan : Plan} {plans : List Plan}
  {body : Run σ (Outputs α)} {x : Except Fault β} {y : Except Fault γ}
  {f : β → List (Value α)} {g : γ → List (Value α)} {vs : List (Value α)}

theorem called {name : String} {f : β → α}
    (comes : Comes t (call name) (x.map fun b => some (.own (f b))) u) :
    Comes t (evaluate lexer call (.call name true none)) (x.map fun b => some [.own (f b)]) u := by
  cases x with
  | error fault =>
    rw [evaluate]
    exact comes.fault_bind
  | ok b => exact (Gives.called comes.gives).comes

theorem sequence {found : Except Fault (Outputs α)}
    (comes : Comes t (evaluateParts lexer call plans) found u) :
    Comes t (evaluate lexer call (.sequence plans)) found u := by
  rwa [evaluate]

theorem part (first : Comes t (evaluate lexer call plan) (x.map fun b => some (f b)) u)
    (rest : Comes u (evaluateParts lexer call plans) (y.map fun c => some (g c)) v) :
    Comes t (evaluateParts lexer call (plan :: plans))
      ((do return (← x, ← y)).map fun both : β × γ => some (f both.1 ++ g both.2)) v := by
  rw [evaluateParts]
  cases x with
  | error fault => exact first.fault_bind
  | ok b =>
    have joined := rest.map fun found => found.map (f b ++ ·)
    refine first.gives.comes_bind ?_
    cases y <;> exact joined

theorem part_behind (first : Gives t (evaluate lexer call plan) (some vs) u)
    (rest : Comes u (evaluateParts lexer call plans) (y.map fun c => some (g c)) v) :
    Comes t (evaluateParts lexer call (plan :: plans)) (y.map fun c => some (vs ++ g c)) v := by
  have both := part (x := .ok ()) (f := fun _ => vs) first.comes rest
  cases y <;> exact both

theorem part_ahead (first : Comes t (evaluate lexer call plan) (x.map fun b => some (f b)) u)
    (silent : Gives u (evaluateParts lexer call plans) (some []) v) :
    Comes t (evaluateParts lexer call (plan :: plans)) (x.map fun b => some (f b)) v := by
  have both := first.part (y := .ok ()) (g := fun _ => []) silent.comes
  cases x with
  | error fault => exact both
  | ok b => simpa [bind, Except.bind, pure, Except.pure, Except.map] using both

theorem oneValue {build : List (Value α) → Option (Value α)} {h : β → Value α}
    (comes : Comes t body (x.map fun b => some (f b)) u)
    (makes : ∀ b, build (f b) = some (h b)) :
    Comes t (oneValue body build) (x.map fun b => some [h b]) u := by
  cases x with
  | error fault =>
    rw [Parsing.oneValue]
    exact comes.fault_bind
  | ok b => exact (comes.gives.oneValue (makes b)).comes

theorem round {n : Nat} {g : γ → List (List (Value α))}
    (first : Comes t body (x.map fun b => some (f b)) u) (further : u.offset ≠ t.offset)
    (rest : Comes u (rounds body n) (y.map g) v) :
    Comes t (rounds body (n + 1))
      ((do return (← x, ← y)).map fun both : β × γ => f both.1 :: g both.2) v := by
  rw [rounds]
  refine position ?_
  cases x with
  | error fault => exact first.fault_bind
  | ok b =>
    refine first.gives.comes_bind (position ?_)
    rw [if_neg further]
    have joined := rest.map (f b :: ·)
    cases y <;> exact joined

theorem loop {f : β → List (List (Value α))}
    (comes : Comes t (rounds body (t.remainder.length + 2)) (x.map f) u) :
    Comes t (loop body false true)
      (x.map fun b => some [Value.list ((f b).map Value.together)]) u := by
  have mapped := comes.map fun found => some [Value.list (found.map Value.together)]
  intro s
  rw [Parsing.loop, runFrom_bind, runFrom_get]
  cases x <;> exact mapped s

variable {b : Alternative σ α} {bs : List (Alternative σ α)} {offset : Nat}

theorem alternative {f : γ → List (Value α)} {h : γ → α}
    (comes : Comes t (evaluate lexer call b.plan) (y.map fun c => some (f c)) u)
    (makes : ∀ c, b.build.Makes (f c) (h c)) :
    Comes t (Rules.firstMatch lexer call (Rules.buildWith id fun s _ => s) offset (b :: bs))
      (y.map fun c => some (.own (h c))) u := by
  cases y with
  | error fault =>
    rw [Rules.firstMatch]
    exact comes.fault_bind
  | ok c => exact (Gives.alternative comes.gives (makes c)).comes

theorem built {h : γ → α} (gives : Gives t (evaluate lexer call b.plan) (some vs) u)
    (builds : ∀ s, ∃ r, b.build vs s = some (y.map h, r)) :
    Comes t (Rules.firstMatch lexer call (Rules.buildWith id fun s _ => s) offset (b :: bs))
      (y.map fun c => some (.own (h c))) u := by
  have built : Comes u (Rules.buildWith id (fun s _ => s) b.build vs)
      ((y.map h).map Value.own) u := by
    intro s
    obtain ⟨r, made⟩ := builds s
    exact ⟨u, r, by rw [Rules.runFrom_buildWith, show b.build vs (id s) = _ from made],
      fun _ _ => rfl⟩
  have kept := built.map some
  rw [Rules.firstMatch]
  refine gives.comes_bind ?_
  cases y <;> exact kept

theorem plain {rules : Rules σ α} {name : String} {n : Nat} {found : Except Fault (Option (Value α))}
    (positive : 0 < n)
    (comes : Comes t (Rules.firstMatch rules.lexer (rules.plain (n - 1))
      (Rules.buildWith id fun s _ => s) t.offset (rules.alternatives name)) found u) :
    Comes t (rules.plain n name) found u := by
  obtain ⟨n, rfl⟩ := Nat.exists_eq_add_one_of_ne_zero (Nat.pos_iff_ne_zero.mp positive)
  rw [Rules.plain]
  exact position comes

end Comes

namespace Rules

variable {rules : Rules σ α} {good : String → α → Prop}

theorem Regular.parseAll_of_comes (regular : rules.Regular good) {name : String} {n : Nat}
    {x : Except Fault β} {f : β → α} (short : Text.byteSize text < offsetLimit)
    (comes : ∀ m, n ≤ m →
      Comes ⟨text, 0⟩ (rules.plain m name) (x.map fun b => some (.own (f b))) u)
    (last : rules.lexer.next u = (.ok none, v)) (logic : σ) :
    (rules.parseAll name text logic).1 = (x.map fun b => .own (f b)).mapError .fault := by
  have within := Tape.within_start text
  obtain ⟨w, r, given, ends⟩ := comes (max n (rules.depth ⟨text, 0⟩)) (Nat.le_max_left ..) logic
  obtain ⟨after, parsed⟩ := regular.parse_of_plain within short (Nat.le_max_right ..) ⟨r, given⟩
  cases x with
  | error fault =>
    rw [parseAll, parsed]
    rfl
  | ok b =>
    obtain rfl := ends _ rfl
    exact parseAll_eq_ok_iff.mpr ⟨w, after, v, parsed, last⟩

end Rules

end Pegsmith.Parsing
