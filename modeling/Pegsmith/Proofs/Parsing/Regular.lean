import Pegsmith.Proofs.Parsing.Memoized
import Pegsmith.Proofs.Parsing.Yield

/-!
Rules on which the reader without tables answers. Every alternative takes a token, calls before that
only non-terminals declared further down, and builds a value of all that its plan may yield. Then a
call inside a call either stands further on or reads a non-terminal further down, so that as many
calls as `Rules.depth` are enough, and the only fault left is that of a sum out of range.
-/

set_option autoImplicit false

namespace Pegsmith.Parsing

open Run

variable {α β γ : Type} {text : List Char} {start : Nat} {t u : Tape}

inductive Stop.Expected : Stop → Prop where
  | error (e : ParseError) : Expected (.error e)
  | overflow : Expected (.fault .additionOverflow)

def Answers (t : Tape) (run : Run Unit β) (post : β → Tape → Prop) : Prop :=
  match run.runFrom t () with
  | (.ok b, u, ()) => post b u
  | (.error stop, _, ()) => stop.Expected

namespace Answers

variable {run : Run Unit β} {post mid : β → Tape → Prop}

theorem pure {b : β} (holds : post b t) : Answers t (pure b : Run Unit β) post := holds

theorem mono (answers : Answers t run mid) (weaker : ∀ b u, mid b u → post b u) :
    Answers t run post := by
  rw [Answers] at answers ⊢
  generalize run.runFrom t () = answer at answers ⊢
  obtain ⟨answer, u, ⟨⟩⟩ := answer
  cases answer with
  | error stop => exact answers
  | ok b => exact weaker b u answers

theorem bind {next : β → Run Unit γ} {post : γ → Tape → Prop} (first : Answers t run mid)
    (rest : ∀ b u, mid b u → Answers u (next b) post) : Answers t (run >>= next) post := by
  rw [Answers] at first ⊢
  rw [runFrom_bind]
  generalize run.runFrom t () = answer at first ⊢
  obtain ⟨answer, u, ⟨⟩⟩ := answer
  cases answer with
  | error stop => exact first
  | ok b => exact rest b u first

theorem position {next : Nat → Run Unit γ} {post : γ → Tape → Prop}
    (rest : Answers t (next t.offset) post) : Answers t (position >>= next) post := rest

theorem get {next : Tape × Unit → Run Unit γ} {post : γ → Tape → Prop}
    (rest : Answers t (next (t, ())) post) : Answers t (get >>= next) post := rest

theorem restore {next : Unit → Run Unit γ} {post : γ → Tape → Prop} (within : t.Within text start)
    (same : u.text = text) (rest : Answers t (next ()) post) :
    Answers u (restore t.offset >>= next) post := by
  have back : ({ u with offset := t.offset } : Tape) = t := by rw [same, ← within.same]
  have boundary : Text.isBoundary u.text t.offset = true := same ▸ within.boundary
  rw [Answers, runFrom_bind, runFrom_restore, if_pos boundary, back]
  exact rest

theorem useful {v : Option β} {b : β} (found : v = some b) (holds : post b t) :
    Answers t (useful v) post := by
  subst found
  exact holds

theorem free (answers : Answers t run post) : (run.runFrom t ()).1 ≠ .error .stuck := by
  rw [Answers] at answers
  generalize run.runFrom t () = answer at answers
  obtain ⟨answer, u, ⟨⟩⟩ := answer
  cases answer with
  | error stop =>
    rintro ⟨⟩
    cases answers
  | ok b => simp

end Answers

structure Found (text : List Char) (takes : Bool) (property : β → Prop) (t : Tape)
    (found : Option β) (u : Tape) : Prop where
  within : u.Within text t.offset
  holds : ∀ b, found = some b → property b
  further : ∀ b, found = some b → takes = true → t.offset < u.offset

namespace Found

variable {takes : Bool} {property : β → Prop}

theorem missing (within : u.Within text t.offset) : Found text takes property t none u :=
  ⟨within, by simp, by simp⟩

theorem some {b : β} (within : u.Within text t.offset) (holds : property b)
    (further : takes = true → t.offset < u.offset) : Found text takes property t (some b) u :=
  ⟨within, by simpa using holds, fun _ _ => further⟩

end Found

def Called (text : List Char) (good : String → α → Prop)
    (call : String → Run Unit (Option (Value α))) (name : String) (t : Tape) : Prop :=
  Answers t (call name) (Found text true (fun v => ∃ a, good name a ∧ v = .own a) t)

structure Reach (text : List Char) (good : String → α → Prop)
    (call : String → Run Unit (Option (Value α))) (names : List String) (t : Tape) : Prop where
  now : ∀ name ∈ names, Called text good call name t
  later : ∀ name u, u.Within text t.offset → t.offset < u.offset → Called text good call name u

variable {good : String → α → Prop} {call : String → Run Unit (Option (Value α))}

theorem Tape.Within.eq_or_lt (within : t.Within text start) (later : u.Within text t.offset) :
    u = t ∨ t.offset < u.offset := by
  rcases Nat.eq_or_lt_of_le later.behind with same | less
  · left
    obtain ⟨_, _⟩ := t
    obtain ⟨_, _⟩ := u
    have texts := later.same.trans within.same.symm
    simp only at same texts
    rw [same, texts]
  · exact .inr less

namespace Reach

variable {names fewer : List String}

theorem subset (reach : Reach text good call names t) (part : ∀ name ∈ fewer, name ∈ names) :
    Reach text good call fewer t :=
  ⟨fun name member => reach.now name (part name member), reach.later⟩

theorem onward (reach : Reach text good call names t) (within : t.Within text start)
    (later : u.Within text t.offset) (here : u = t → ∀ name ∈ fewer, name ∈ names) :
    Reach text good call fewer u := by
  rcases within.eq_or_lt later with same | less
  · subst same
    exact reach.subset (here rfl)
  · constructor
    · exact fun name _ => reach.later name u later less
    · intro name v behind beyond
      exact reach.later name v (behind.of_le later.behind) (Nat.lt_trans less beyond)

end Reach

namespace Answers

variable {takes : Bool} {property : List (Value α) → Prop} {body : Run Unit (Outputs α)}

theorem oneValue {f : List (Value α) → Option (Value α)} {become : List (Value α) → Prop}
    (answers : Answers t body (Found text takes property t))
    (one : ∀ vs, property vs → ∃ v, f vs = some v ∧ become [v]) :
    Answers t (oneValue body f) (Found text takes become t) := by
  refine answers.bind fun found u read => ?_
  cases found with
  | none => exact pure (.missing read.within)
  | some vs =>
    obtain ⟨v, defined, holds⟩ := one vs (read.holds vs rfl)
    have built : Answers u (Run.useful (f vs)) fun w u' => w = v ∧ u' = u :=
      useful defined ⟨rfl, rfl⟩
    refine built.bind ?_
    rintro _ _ ⟨rfl, rfl⟩
    exact pure (.some read.within holds (read.further vs rfl))

theorem rounds {n : Nat} (within : t.Within text start) (enough : t.remainder.length < n)
    (each : ∀ u, u.Within text t.offset → Answers u body (Found text takes property u)) :
    Answers t (rounds body n) fun found u => u.Within text t.offset ∧
      (∀ vs ∈ found, property vs) ∧ (found ≠ [] → takes = true → t.offset < u.offset) := by
  -- Every round but the last takes a character, so there are no more rounds than characters left and
  -- one.
  induction n generalizing t start with
  | zero => omega
  | succ n ih =>
    rw [Parsing.rounds]
    refine position ((each t within.here).bind fun found u read => ?_)
    cases found with
    | none => exact restore within read.within.same (pure ⟨within.here, by simp, by simp⟩)
    | some vs =>
      have holds := read.holds vs rfl
      refine position ?_
      by_cases still : u.offset = t.offset
      · rw [if_pos still]
        exact pure ⟨read.within, by simpa using holds, fun _ => read.further vs rfl⟩
      · rw [if_neg still]
        have behind := read.within.behind
        have fewer := within.remainder_lt (read.within.of_le within.behind) (by omega)
        refine (ih read.within (by omega) fun v later =>
          each v (later.of_le behind)).bind fun rest v after => ?_
        obtain ⟨later, all, -⟩ := after
        have beyond := later.behind
        exact pure ⟨later.of_le behind, by simpa using ⟨holds, all⟩, fun _ _ => by omega⟩

theorem loop {inner : Plan} {atLeastOne keep : Bool} (within : t.Within text start)
    (each : ∀ u, u.Within text t.offset →
      Answers u body (Found text inner.takesToken (inner.Yields good) u)) :
    Answers t (loop body atLeastOne keep)
      (Found text (Plan.loop inner atLeastOne keep).takesToken
        ((Plan.loop inner atLeastOne keep).Yields good) t) := by
  rw [Parsing.loop]
  have enough : t.remainder.length < t.remainder.length + 2 := by omega
  refine get ((rounds within enough each).bind fun found u read => ?_)
  obtain ⟨inside, all, further⟩ := read
  by_cases short : (atLeastOne && found.isEmpty) = true
  · rw [if_pos short]
    exact pure (.missing inside)
  · rw [if_neg short]
    have yields : (Plan.loop inner atLeastOne keep).Yields good
        (if keep then [.list (found.map Value.together)] else []) := by
      rw [Plan.Yields]
      exact ⟨found, all, rfl⟩
    refine pure (.some inside yields fun takes => ?_)
    rw [Plan.takesToken, Bool.and_eq_true] at takes
    refine further ?_ takes.2
    rintro rfl
    exact short (by simp [takes.1])

theorem optional {inner : Plan} {fallback : Fallback} (within : t.Within text start)
    (answers : Answers t body (Found text inner.takesToken (inner.Yields good) t)) :
    Answers t (optional body inner.arity fallback)
      (Found text (Plan.optional inner fallback).takesToken
        ((Plan.optional inner fallback).Yields good) t) := by
  rw [Parsing.optional]
  refine position (answers.bind fun found u read => ?_)
  have filled (v : Tape) (inside : v.Within text t.offset) :
      Found text false ((Plan.optional inner fallback).Yields good) t
        (some (fill inner.arity fallback found)) v := by
    refine .some inside ?_ (by simp)
    rw [Plan.Yields]
    unfold fill
    generalize (if inner.arity = 0 then .nothing else fallback : Fallback) = fallback
    cases fallback with
    | nothing => rfl
    | keep =>
      cases found with
      | none => exact .inl rfl
      | some vs => exact .inr ⟨vs, read.holds vs rfl, rfl⟩
    | default =>
      cases found with
      | none => exact .inl rfl
      | some vs => exact .inr (read.holds vs rfl)
  cases found with
  | none => exact restore within read.within.same (pure (filled t within.here))
  | some vs => exact pure (filled u read.within)

variable (lexer : Lexer)

theorem token {kind : String} {use : TokenUse} (within : t.Within text start) :
    Answers t (Parsing.evaluate lexer call (.token kind use))
      (Found text true ((Plan.token kind use).Yields good) t) := by
  rw [Answers, Parsing.evaluate, runFrom_bind, runFrom_take?]
  have read := @Lexer.nextIf_within lexer text start t kind within
  generalize lexer.nextIf kind t = answer at read ⊢
  obtain ⟨answer, u⟩ := answer
  obtain ⟨inside, taken⟩ := read
  match answer with
  | .error e => exact .error e
  | .ok none => exact .missing inside
  | .ok (some token) =>
    obtain ⟨same, further⟩ := taken token rfl
    exact .some inside ⟨token, same, rfl⟩ fun _ => further

theorem called {name : String} {keep : Bool} {into : Option HostType}
    (answers : Called text good call name t) :
    Answers t (Parsing.evaluate lexer call (.call name keep into))
      (Found text true ((Plan.call name keep into).Yields good) t) := by
  rw [Parsing.evaluate]
  refine answers.bind fun found u read => ?_
  cases found with
  | none => exact pure (.missing read.within)
  | some v =>
    obtain ⟨a, holds, rfl⟩ := read.holds v rfl
    exact pure (.some read.within ⟨a, holds, rfl⟩ (read.further _ rfl))

mutual

theorem evaluate {start : Nat} {t : Tape} (within : t.Within text start) :
    (plan : Plan) → plan.joinsLists = true → Reach text good call plan.firstCalls t →
      Answers t (Parsing.evaluate lexer call plan)
        (Found text plan.takesToken (plan.Yields good) t)
  | .token kind use, _, _ => token lexer within
  | .call name keep into, _, reach => called lexer (reach.now name List.mem_cons_self)
  | .sequence parts, joins, reach => by
    rw [Parsing.evaluate]
    exact evaluateParts within parts joins reach
  | .single inner, joins, reach => by
    rw [Parsing.evaluate]
    exact (evaluate within inner joins reach).oneValue fun vs yields => ⟨_, rfl, vs, yields, rfl⟩
  | .present inner, joins, reach => by
    rw [Parsing.evaluate]
    exact (evaluate within inner joins reach).oneValue fun vs yields => ⟨_, rfl, vs, yields, rfl⟩
  | .pack inner, joins, reach => by
    rw [Parsing.evaluate]
    exact (evaluate within inner joins reach).oneValue fun vs yields => ⟨_, rfl, vs, yields, rfl⟩
  | .collect inner type, joins, reach => by
    rw [Parsing.evaluate]
    exact evaluate within inner joins reach
  | .concat parts, joins, reach => by
    rw [Plan.joinsLists, Bool.and_eq_true] at joins
    rw [Parsing.evaluate]
    refine (evaluateParts within parts joins.2 reach).oneValue fun vs yields => ?_
    obtain ⟨items, joined⟩ := Plan.exists_concat?_of_yields joins.1 yields
    exact ⟨.list items, by rw [joined]; rfl, vs, items, yields, joined, rfl⟩
  | .loop inner atLeastOne keep, joins, reach => by
    rw [Parsing.evaluate]
    refine loop within fun u later => evaluate later inner joins ?_
    exact reach.onward within later fun _ _ member => member
  | .optional inner fallback, joins, reach => by
    rw [Parsing.evaluate]
    exact optional within (evaluate within inner joins reach)
  | .choice branches, joins, reach => by
    rw [Parsing.evaluate]
    exact position (evaluateBranches within branches joins reach)

theorem evaluateParts {start : Nat} {t : Tape} (within : t.Within text start) :
    (plans : List Plan) → Plan.allJoinLists plans = true →
      Reach text good call (Plan.firstCallsOf plans) t →
      Answers t (Parsing.evaluateParts lexer call plans)
        (Found text (Plan.anyTakesToken plans) (Plan.YieldsAll good plans) t)
  | [], _, _ => by
    rw [Parsing.evaluateParts]
    exact pure (.some within.here rfl (by simp [Plan.anyTakesToken]))
  | plan :: plans, joins, reach => by
    rw [Plan.allJoinLists, Bool.and_eq_true] at joins
    rw [Plan.firstCallsOf] at reach
    rw [Parsing.evaluateParts]
    have first := evaluate within plan joins.1 (reach.subset fun _ => List.mem_append_left _)
    refine first.bind fun found u read => ?_
    cases found with
    | none => exact pure (.missing read.within)
    | some vs =>
      have taken := read.further vs rfl
      have onward : Reach text good call (Plan.firstCallsOf plans) u := by
        refine reach.onward within read.within fun still name member => ?_
        -- Without a token taken, the calls of the other parts count as first ones.
        have noToken : ¬plan.takesToken = true := fun takes =>
          Nat.lt_irrefl t.offset (still ▸ taken takes)
        rw [if_neg noToken]
        exact List.mem_append_right _ member
      refine (evaluateParts read.within plans joins.2 onward).bind fun rest v after => ?_
      have inside := after.within.of_le read.within.behind
      cases rest with
      | none => exact pure (.missing inside)
      | some ws =>
        refine pure (.some inside ⟨vs, ws, read.holds vs rfl, after.holds ws rfl, rfl⟩ fun takes => ?_)
        have behind := read.within.behind
        have beyond := after.within.behind
        rw [Plan.anyTakesToken, Bool.or_eq_true] at takes
        rcases takes with here | there
        · have := taken here
          omega
        · have := after.further ws rfl there
          omega

theorem evaluateBranches {start : Nat} {t : Tape} (within : t.Within text start) :
    (plans : List Plan) → Plan.allJoinLists plans = true →
      Reach text good call (Plan.branchCalls plans) t →
      Answers t (Parsing.evaluateBranches lexer call t.offset plans)
        (Found text (Plan.allTakeToken plans) (Plan.YieldsSome good plans) t)
  | [], _, _ => by
    rw [Parsing.evaluateBranches]
    exact pure (.missing within.here)
  | plan :: plans, joins, reach => by
    rw [Plan.allJoinLists, Bool.and_eq_true] at joins
    rw [Plan.branchCalls] at reach
    rw [Parsing.evaluateBranches]
    have first := evaluate within plan joins.1 (reach.subset fun _ => List.mem_append_left _)
    refine first.bind fun found u read => ?_
    cases found with
    | none =>
      have rest := evaluateBranches within plans joins.2
        (reach.subset fun _ => List.mem_append_right _)
      refine restore within read.within.same (rest.mono fun found v after => ⟨after.within, ?_, ?_⟩)
      · exact fun vs same => .inr (after.holds vs same)
      · intro vs same takes
        rw [Plan.allTakeToken, Bool.and_eq_true] at takes
        exact after.further vs same takes.2
    | some vs =>
      refine pure (.some read.within (.inl (read.holds vs rfl)) fun takes => ?_)
      rw [Plan.allTakeToken, Bool.and_eq_true] at takes
      exact read.further vs rfl takes.1

end

end Answers

variable {σ : Type}

/-- An alternative that builds a good value of all that its plan yields, whatever the state of the
logic, unless a sum is out of range. -/
structure Alternative.Builds (good : String → α → Prop) (name : String) (a : Alternative σ α) :
    Prop where
  built : ∀ vs s, a.plan.Yields good vs → ∃ answer s', a.build vs s = some (answer, s') ∧
    ((∃ v, answer = .ok v ∧ good name v) ∨ answer = .error .additionOverflow)
  even : a.build.Even

structure Alternative.Regular (rank : String → Nat) (good : String → α → Prop) (name : String)
    (a : Alternative σ α) : Prop where
  takes : a.plan.takesToken = true
  joins : a.plan.joinsLists = true
  lower : ∀ callee ∈ a.plan.firstCalls, rank callee < rank name
  builds : a.Builds good name

namespace Rules

def rank (rules : Rules σ α) (name : String) : Nat :=
  rules.names.length - rules.names.idxOf name

def Regular (rules : Rules σ α) (good : String → α → Prop) : Prop :=
  ∀ name, ∀ a ∈ rules.alternatives name, a.Regular rules.rank good name

theorem Regular.stateless {rules : Rules σ α} (regular : rules.Regular good) (s : σ) :
    (rules.stateless s).Regular good := by
  intro name a member
  obtain ⟨b, listed, rfl⟩ := List.mem_map.mp member
  have each := regular name b listed
  refine ⟨each.takes, each.joins, each.lower, fun vs _ yields => ?_, fun _ _ _ => rfl⟩
  obtain ⟨answer, s', built, holds⟩ := each.builds.built vs s yields
  exact ⟨answer, (), by simp [Build.stateless, built], holds⟩

theorem buildWith_answers {name : String} {a : Alternative Unit α}
    (builds : a.Builds good name) {vs : List (Value α)} (yields : a.plan.Yields good vs) :
    Answers t (buildWith id (fun s _ => s) a.build vs) fun v u =>
      (∃ b, good name b ∧ v = .own b) ∧ u = t := by
  obtain ⟨answer, s, built, holds⟩ := builds.built vs () yields
  have same : a.build vs (id ()) = some (answer, s) := built
  rw [Answers, runFrom_buildWith, same]
  rcases holds with ⟨b, rfl, holds⟩ | rfl
  · exact ⟨⟨b, holds, rfl⟩, rfl⟩
  · exact .overflow

theorem firstMatch_answers {rank : String → Nat} {name : String} (lexer : Lexer)
    {as : List (Alternative Unit α)} (regular : ∀ a ∈ as, a.Regular rank good name)
    (within : t.Within text start)
    (reach : ∀ a ∈ as, Reach text good call a.plan.firstCalls t) :
    Answers t (firstMatch lexer call (buildWith id fun s _ => s) t.offset as)
      (Found text true (fun v => ∃ b, good name b ∧ v = .own b) t) := by
  induction as with
  | nil => exact .pure (.missing within.here)
  | cons a as ih =>
    have each := regular a List.mem_cons_self
    rw [firstMatch]
    refine (Answers.evaluate lexer within a.plan each.joins
      (reach a List.mem_cons_self)).bind fun found u read => ?_
    cases found with
    | none =>
      exact .restore within read.within.same (ih
        (fun b member => regular b (List.mem_cons_of_mem a member))
        fun b member => reach b (List.mem_cons_of_mem a member))
    | some vs =>
      refine (buildWith_answers each.builds (read.holds vs rfl)).bind ?_
      rintro v _ ⟨holds, rfl⟩
      exact .pure (.some read.within holds fun _ => read.further vs rfl each.takes)

theorem rank_le (rules : Rules σ α) (name : String) : rules.rank name ≤ rules.names.length :=
  Nat.sub_le ..

def reserve (rules : Rules σ α) (name : String) (t : Tape) : Nat :=
  (rules.names.length + 1) * t.remainder.length + rules.rank name

theorem reserve_lt_depth (rules : Rules σ α) (name : String) (t : Tape) :
    rules.reserve name t < rules.depth t := by
  have bound := rules.rank_le name
  rw [reserve, depth, Nat.mul_add]
  omega

theorem reserve_lt {rules : Rules σ α} {name callee : String}
    (less : u.remainder.length < t.remainder.length) :
    rules.reserve callee u < rules.reserve name t := by
  have bound := rules.rank_le callee
  have product : (rules.names.length + 1) * (u.remainder.length + 1) ≤
      (rules.names.length + 1) * t.remainder.length := Nat.mul_le_mul_left _ less
  rw [Nat.mul_add] at product
  rw [reserve, reserve]
  omega

theorem plain_called {rules : Rules Unit α} (regular : rules.Regular good) {n : Nat}
    {name : String} (within : t.Within text start) (enough : rules.reserve name t < n) :
    Called text good (rules.plain n) name t := by
  -- The induction is on the bound. A call at the same place reads a non-terminal further down, and a
  -- call further on has less text left: both need less than this one.
  induction n generalizing t start name with
  | zero => omega
  | succ n ih =>
    rw [Called, plain]
    refine .position (firstMatch_answers rules.lexer (regular name) within fun a member => ?_)
    constructor
    · intro callee called
      have lower := (regular name a member).lower callee called
      refine ih within ?_
      rw [reserve] at enough ⊢
      omega
    · intro callee u later further
      have less := within.remainder_lt (later.of_le within.behind) further
      have smaller : rules.reserve callee u < rules.reserve name t := reserve_lt less
      exact ih later (by omega)

theorem faithful_empty (leader : Rules Unit α) (n : Nat) (logic : σ) :
    leader.Faithful text n { logic } ({ logic } : Memos σ α) := by
  refine ⟨fun name place memo held => ?_, fun _ _ _ _ => rfl⟩
  simp [Memos.outcome?, Memos.table, MemoTable.get?] at held

theorem Regular.parse_eq {rules : Rules σ α} (regular : rules.Regular good) (name : String)
    (logic : σ) (within : t.Within text start) (short : Text.byteSize text < offsetLimit) :
    ∃ found u, (∃ s, rules.parse name t logic = (answer name t.offset found, u, s)) ∧
      (∀ n, rules.depth t ≤ n →
        ∃ s, rules.parsePlain n name t logic = (answer name t.offset found, u, s)) ∧
      ∀ stop, found = .error stop → stop.Expected := by
  have even (name : String) (a : Alternative σ α) (member : a ∈ rules.alternatives name) :
      a.build.Even := (regular name a member).builds.even
  have called : Called text good ((rules.stateless logic).plain (rules.depth t)) name t :=
    plain_called (regular.stateless logic) within ((rules.stateless logic).reserve_lt_depth name t)
  have free := called.free
  obtain ⟨m, kept, -⟩ := memoized_follows even logic short (Nat.le_refl (rules.depth t)) name
    { logic } t { logic } within (faithful_empty _ _ logic) free
  have without (n : Nat) (enough : rules.depth t ≤ n) :=
    plain_follows_stateless even logic enough name t logic within trivial free
  rw [Called, Answers] at called
  generalize ((rules.stateless logic).plain (rules.depth t) name).runFrom t () = outcome
    at called kept without
  obtain ⟨found, u, ⟨⟩⟩ := outcome
  refine ⟨found, u, ⟨m.logic, ?_⟩, fun n enough => ?_, ?_⟩
  · rw [runFrom] at kept
    rw [parse, kept]
  · obtain ⟨s, same, -⟩ := without n enough
    rw [runFrom] at same
    exact ⟨s, by rw [parsePlain, same]⟩
  · rintro stop rfl
    exact called

end Rules

end Pegsmith.Parsing
