import Pegsmith.Proofs.Parsing.Memoized

set_option autoImplicit false

namespace Pegsmith

theorem Text.dropBytes?_add (xs ys : List Char) (n : Nat) :
    dropBytes? (byteSize xs + n) (xs ++ ys) = dropBytes? n ys := by
  induction xs with
  | nil => rw [byteSize_nil, Nat.zero_add, List.nil_append]
  | cons c cs ih =>
    have positive := c.utf8Size_pos
    obtain ⟨k, size⟩ : ∃ k, byteSize (c :: cs) + n = k + 1 :=
      ⟨byteSize (c :: cs) + n - 1, by simp; omega⟩
    rw [byteSize_cons] at size
    rw [byteSize_cons, size, List.cons_append, dropBytes?, if_pos (by omega), ← ih]
    congr 1
    omega

namespace Parsing

def Token.shift (k : Nat) (t : Token) : Token :=
  { t with offset := k + t.offset }

def ParseError.shift (k : Nat) : ParseError → ParseError
  | .noRule offset remainder => .noRule (k + offset) remainder
  | .noMatch nonTerminal offset => .noMatch nonTerminal (k + offset)

def Stop.shift (k : Nat) : Stop → Stop
  | .error e => .error (e.shift k)
  | .fault (.evaluatedTwice place) => .fault (.evaluatedTwice (k + place))
  | stop => stop

namespace Value

variable {α : Type} {k : Nat}

mutual

def shift (k : Nat) : Value α → Value α
  | .token t => .token (t.shift k)
  | .list items => .list (shiftAll k items)
  | .present v => .present (v.shift k)
  | .tuple members => .tuple (shiftAll k members)
  | .text cs => .text cs
  | .kind name => .kind name
  | .own a => .own a
  | .missing => .missing
  | .default => .default

def shiftAll (k : Nat) : List (Value α) → List (Value α)
  | [] => []
  | v :: vs => v.shift k :: shiftAll k vs

end

theorem shiftAll_eq_map (vs : List (Value α)) : shiftAll k vs = vs.map (shift k) := by
  induction vs with
  | nil => rfl
  | cons v vs ih => rw [shiftAll, ih, List.map_cons]

theorem shift_list (vs : List (Value α)) : (Value.list vs).shift k = .list (vs.map (shift k)) := by
  rw [shift, shiftAll_eq_map]

theorem together_map_shift (vs : List (Value α)) :
    together (vs.map (shift k)) = (together vs).shift k := by
  match vs with
  | [] => simp [together, shift, shiftAll]
  | [v] => rfl
  | v :: w :: vs => simp [together, shift, shiftAll, shiftAll_eq_map]

theorem items?_shift (v : Value α) : (v.shift k).items? = v.items?.map (List.map (shift k)) := by
  cases v <;> simp [shift, items?, shiftAll_eq_map]

theorem concat?_map_shift (vs : List (Value α)) :
    concat? (vs.map (shift k)) = (concat? vs).map (List.map (shift k)) := by
  rw [concat?, concat?]
  induction vs with
  | nil => rfl
  | cons v vs ih =>
    rw [List.map_cons, List.mapM_cons, List.mapM_cons, items?_shift]
    cases v.items? with
    | none => rfl
    | some items =>
      cases rest : vs.mapM items? <;> cases moved : (vs.map (shift k)).mapM items? <;>
        simp_all

theorem own?_shift (v : Value α) : (v.shift k).own? = v.own? := by
  cases v <;> rfl

theorem text?_shift (v : Value α) : (v.shift k).text? = v.text? := by
  cases v <;> rfl

end Value

section Outputs

variable {α : Type} {k : Nat}

theorem useToken_shift (use : TokenUse) (t : Token) :
    (useToken use (t.shift k) : List (Value α)) = (useToken use t).map (Value.shift k) := by
  cases use <;> rfl

theorem fill_map_shift (arity : Nat) (fallback : Fallback) (found : Outputs α) :
    fill arity fallback (found.map (List.map (Value.shift k))) =
      (fill arity fallback found).map (Value.shift k) := by
  unfold fill
  generalize (if arity = 0 then .nothing else fallback : Fallback) = fallback
  cases fallback <;> cases found <;>
    simp [Value.together_map_shift, Value.shift, List.map_replicate]

end Outputs

def Tape.after (read : List Char) (t : Tape) : Tape :=
  ⟨read ++ t.text, Text.byteSize read + t.offset⟩

variable {read text : List Char}

theorem Tape.remainder_after (read : List Char) (t : Tape) :
    (t.after read).remainder = t.remainder := by
  rw [remainder, remainder, after, Text.dropBytes?_add]

theorem Tape.isBoundary_after (read : List Char) (t : Tape) (offset : Nat) :
    Text.isBoundary (t.after read).text (Text.byteSize read + offset) =
      Text.isBoundary t.text offset := by
  rw [Text.isBoundary, Text.isBoundary, after, Text.dropBytes?_add]

namespace Lexer

def shiftAnswer (k : Nat) : Except ParseError (Option Token) → Except ParseError (Option Token)
  | .ok found => .ok (found.map (Token.shift k))
  | .error e => .error (e.shift k)

variable (lexer : Lexer)

theorem scan_shift (k skip offset : Nat) (cs : List Char) :
    lexer.scan skip (k + offset) cs =
      (shiftAnswer k (lexer.scan skip offset cs).1, k + (lexer.scan skip offset cs).2) := by
  induction cs generalizing skip offset with
  | nil => rfl
  | cons c cs ih =>
    match skip with
    | n + 1 => rw [scan, scan, Nat.add_assoc, ih]
    | 0 =>
      rw [scan, scan]
      cases lexer.first? (c :: cs) with
      | none => rfl
      | some found =>
        obtain ⟨rule, front⟩ := found
        by_cases ignored : rule.ignored = true
        · simp only [ignored, if_true]
          rw [Nat.add_assoc, ih]
        · simp only [ignored, Nat.add_assoc]
          rfl

theorem next_after (read : List Char) (t : Tape) :
    lexer.next (t.after read) =
      (shiftAnswer (Text.byteSize read) (lexer.next t).1, (lexer.next t).2.after read) := by
  have scanned := lexer.scan_shift (Text.byteSize read) 0 t.offset t.remainder
  rw [next, Tape.remainder_after, next]
  simp only [Tape.after, scanned]

theorem nextIf_after (kind : String) (read : List Char) (t : Tape) :
    lexer.nextIf kind (t.after read) =
      (shiftAnswer (Text.byteSize read) (lexer.nextIf kind t).1,
        (lexer.nextIf kind t).2.after read) := by
  rw [nextIf, nextIf, next_after]
  rcases lexer.next t with ⟨_ | _ | token, u⟩
  · rfl
  · rfl
  · simp only [shiftAnswer, Option.map_some, Token.shift]
    split <;> rfl

end Lexer

variable {σ τ α β γ : Type}

inductive Outcome (k : Nat) (agree : β → γ → Prop) : Except Stop β → Except Stop γ → Prop
  | ok {b : β} {c : γ} : agree b c → Outcome k agree (.ok b) (.ok c)
  | error (e : Stop) : Outcome k agree (.error e) (.error (e.shift k))

/-- From the same place of the text that both share, two runs end at the same place of it. -/
def InStep (read text : List Char) (states : σ → τ → Prop) (agree : β → γ → Prop)
    (run : Run σ β) (after : Run τ γ) : Prop :=
  ∀ t s r, t.Within text 0 → states s r →
    (run.runFrom t s).2.1.Within text 0 ∧
      (after.runFrom (t.after read) r).2.1 = (run.runFrom t s).2.1.after read ∧
      states (run.runFrom t s).2.2 (after.runFrom (t.after read) r).2.2 ∧
      Outcome (Text.byteSize read) agree (run.runFrom t s).1 (after.runFrom (t.after read) r).1

namespace InStep

open Run

variable {states : σ → τ → Prop}

theorem pure {agree : β → γ → Prop} {b : β} {c : γ} (holds : agree b c) :
    InStep read text states agree (pure b) (pure c) :=
  fun _ _ _ within related => ⟨within, rfl, related, .ok holds⟩

theorem stop {agree : β → γ → Prop} (e : Stop) :
    InStep read text states agree (stop e) (stop (e.shift (Text.byteSize read))) :=
  fun _ _ _ within related => ⟨within, rfl, related, .error e⟩

theorem bind {β' γ' : Type} {agree : β → γ → Prop} {agree' : β' → γ' → Prop} {run : Run σ β}
    {after : Run τ γ} {next : β → Run σ β'} {further : γ → Run τ γ'}
    (first : InStep read text states agree run after)
    (rest : ∀ b c, agree b c → InStep read text states agree' (next b) (further c)) :
    InStep read text states agree' (run >>= next) (after >>= further) := by
  intro t s r within related
  rw [runFrom_bind, runFrom_bind]
  have led := first t s r within related
  generalize run.runFrom t s = x at led ⊢
  generalize after.runFrom (t.after read) r = y at led ⊢
  obtain ⟨_, u, s'⟩ := x
  obtain ⟨_, v, r'⟩ := y
  obtain ⟨inside, rfl, related', outcome⟩ := led
  cases outcome with
  | ok holds => exact rest _ _ holds u s' r' inside related'
  | error e => exact ⟨inside, rfl, related', .error e⟩

theorem get {agree : β → γ → Prop} {next : Tape × σ → Run σ β} {further : Tape × τ → Run τ γ}
    (rest : ∀ t s r, t.Within text 0 → states s r →
      InStep read text states agree (next (t, s)) (further (t.after read, r))) :
    InStep read text states agree (get >>= next) (get >>= further) :=
  fun t s r within related => rest t s r within related t s r within related

theorem position :
    InStep read text states (fun n m => m = Text.byteSize read + n ∧ n ≤ Text.byteSize text)
      position position :=
  fun _ _ _ within related => ⟨within, rfl, related, .ok ⟨rfl, within.offset_le⟩⟩

theorem restore (offset : Nat) :
    InStep read text states (fun _ _ => True) (restore offset)
      (restore (Text.byteSize read + offset)) := by
  intro t s r within related
  rw [runFrom_restore, runFrom_restore, Tape.isBoundary_after]
  by_cases boundary : Text.isBoundary t.text offset = true
  · rw [if_pos boundary, if_pos boundary]
    exact ⟨⟨within.same, within.same ▸ boundary, Nat.zero_le _⟩, rfl, related, .ok trivial⟩
  · rw [if_neg boundary, if_neg boundary]
    exact ⟨within, rfl, related, .error _⟩

theorem take? (lexer : Lexer) (kind : String) :
    InStep read text states (fun a b => b = a.map (Token.shift (Text.byteSize read)))
      (take? lexer kind) (take? lexer kind) := by
  intro t s r within related
  rw [runFrom_take?, runFrom_take?, Lexer.nextIf_after]
  refine ⟨(Lexer.nextIf_within within).1.of_le (Nat.zero_le _), rfl, related, ?_⟩
  rcases (lexer.nextIf kind t).1 with e | found
  · exact .error (.error e)
  · exact .ok rfl

theorem useful {agree : β → γ → Prop} {v : Option β} {w : Option γ}
    (same : Option.Rel agree v w) : InStep read text states agree (useful v) (useful w) := by
  cases same with
  | none => exact stop .stuck
  | some holds => exact pure holds

theorem ofFault {agree : β → γ → Prop} {x : Except Fault β} {y : Except Fault γ}
    (same : Outcome (Text.byteSize read) agree (x.mapError .fault) (y.mapError .fault)) :
    InStep read text states agree (ofFault x) (ofFault y) := by
  intro t s r within related
  rw [runFrom_ofFault, runFrom_ofFault]
  exact ⟨within, rfl, related, same⟩

abbrev ofOutputs (k : Nat) (found moved : Outputs α) : Prop :=
  moved = found.map (List.map (Value.shift k))

def ofCall (found same : Option (Value α)) : Prop :=
  same = found ∧ ∀ v, found = some v → ∃ a, v = .own a

variable {run : Run σ (Outputs α)} {after : Run τ (Outputs α)}

theorem oneValue {f : List (Value α) → Option (Value α)}
    (first : InStep read text states (ofOutputs (Text.byteSize read)) run after)
    (moves : ∀ vs, f (vs.map (Value.shift (Text.byteSize read))) =
      (f vs).map (Value.shift (Text.byteSize read))) :
    InStep read text states (ofOutputs (Text.byteSize read)) (oneValue run f)
      (oneValue after f) := by
  refine first.bind ?_
  rintro found _ rfl
  cases found with
  | none => exact pure rfl
  | some vs =>
    have same : Option.Rel (fun v w => w = v.shift (Text.byteSize read)) (f vs)
        (f (vs.map (Value.shift (Text.byteSize read)))) := by
      rw [moves]
      cases f vs with
      | none => exact .none
      | some v => exact .some rfl
    refine (useful same).bind ?_
    rintro v _ rfl
    exact pure rfl

theorem rounds (first : InStep read text states (ofOutputs (Text.byteSize read)) run after)
    (n : Nat) :
    InStep read text states
      (fun found moved => moved = found.map (List.map (Value.shift (Text.byteSize read))))
      (rounds run n) (rounds after n) := by
  induction n with
  | zero => exact stop .stuck
  | succ n ih =>
    refine position.bind ?_
    rintro start _ ⟨rfl, -⟩
    refine first.bind ?_
    rintro found _ rfl
    cases found with
    | none => exact (restore start).bind fun _ _ _ => pure rfl
    | some vs =>
      refine position.bind ?_
      rintro now _ ⟨rfl, -⟩
      by_cases still : now = start
      · subst still
        simp only [if_true]
        exact pure rfl
      · have apart : ¬Text.byteSize read + now = Text.byteSize read + start := by omega
        simp only [still, apart, if_false]
        refine ih.bind ?_
        rintro rest _ rfl
        exact pure rfl

theorem loop (first : InStep read text states (ofOutputs (Text.byteSize read)) run after)
    (atLeastOne keep : Bool) :
    InStep read text states (ofOutputs (Text.byteSize read)) (loop run atLeastOne keep)
      (loop after atLeastOne keep) := by
  refine get fun t s r _ _ => ?_
  simp only [Tape.remainder_after]
  refine (first.rounds _).bind ?_
  rintro found _ rfl
  have none : (found.map (List.map (Value.shift (Text.byteSize read)))).isEmpty =
      found.isEmpty := List.isEmpty_map
  rw [none]
  split
  · exact pure rfl
  · cases keep with
    | false => exact pure rfl
    | true =>
      refine pure ?_
      simp [ofOutputs, Value.shift_list, Value.together_map_shift]

theorem optional (first : InStep read text states (ofOutputs (Text.byteSize read)) run after)
    (arity : Nat) (fallback : Fallback) :
    InStep read text states (ofOutputs (Text.byteSize read)) (optional run arity fallback)
      (optional after arity fallback) := by
  refine position.bind ?_
  rintro start _ ⟨rfl, -⟩
  refine first.bind ?_
  rintro found _ rfl
  have filled : ofOutputs (Text.byteSize read) (some (fill arity fallback found))
      (some (fill arity fallback (found.map (List.map (Value.shift (Text.byteSize read)))))) := by
    rw [fill_map_shift]
    rfl
  cases found with
  | none => exact (restore start).bind fun _ _ _ => pure filled
  | some vs => exact pure filled

variable {call : String → Run σ (Option (Value α))} {callAfter : String → Run τ (Option (Value α))}

mutual

theorem evaluate (lexer : Lexer)
    (calls : ∀ name, InStep read text states ofCall (call name) (callAfter name)) :
    (plan : Plan) → InStep read text states (ofOutputs (Text.byteSize read))
      (evaluate lexer call plan) (evaluate lexer callAfter plan)
  | .token kind use => by
    rw [Parsing.evaluate, Parsing.evaluate]
    refine (take? lexer kind).bind ?_
    rintro found _ rfl
    refine pure ?_
    cases found with
    | none => rfl
    | some t => exact congrArg some (useToken_shift use t)
  | .call name keep into => by
    rw [Parsing.evaluate, Parsing.evaluate]
    refine (calls name).bind ?_
    rintro _ found ⟨rfl, own⟩
    refine pure ?_
    cases found with
    | none => rfl
    | some v =>
      obtain ⟨a, rfl⟩ := own v rfl
      cases keep <;> rfl
  | .sequence parts => by
    rw [Parsing.evaluate, Parsing.evaluate]
    exact evaluateParts lexer calls parts
  | .single inner => by
    rw [Parsing.evaluate, Parsing.evaluate]
    refine (evaluate lexer calls inner).oneValue fun vs => ?_
    simp [Value.shift_list, Value.together_map_shift]
  | .present inner => by
    rw [Parsing.evaluate, Parsing.evaluate]
    refine (evaluate lexer calls inner).oneValue fun vs => ?_
    simp [Value.shift, Value.together_map_shift]
  | .pack inner => by
    rw [Parsing.evaluate, Parsing.evaluate]
    refine (evaluate lexer calls inner).oneValue fun vs => ?_
    simp [Value.shift, Value.shiftAll_eq_map]
  | .collect inner type => by
    rw [Parsing.evaluate, Parsing.evaluate]
    exact evaluate lexer calls inner
  | .concat parts => by
    rw [Parsing.evaluate, Parsing.evaluate]
    refine (evaluateParts lexer calls parts).oneValue fun vs => ?_
    rw [Value.concat?_map_shift]
    cases Value.concat? vs with
    | none => rfl
    | some items => exact congrArg some (Value.shift_list items).symm
  | .loop inner atLeastOne keep => by
    rw [Parsing.evaluate, Parsing.evaluate]
    exact (evaluate lexer calls inner).loop atLeastOne keep
  | .optional inner fallback => by
    rw [Parsing.evaluate, Parsing.evaluate]
    exact (evaluate lexer calls inner).optional inner.arity fallback
  | .choice branches => by
    rw [Parsing.evaluate, Parsing.evaluate]
    refine position.bind ?_
    rintro start _ ⟨rfl, -⟩
    exact evaluateBranches lexer calls start branches

theorem evaluateParts (lexer : Lexer)
    (calls : ∀ name, InStep read text states ofCall (call name) (callAfter name)) :
    (plans : List Plan) → InStep read text states (ofOutputs (Text.byteSize read))
      (evaluateParts lexer call plans) (evaluateParts lexer callAfter plans)
  | [] => by
    rw [Parsing.evaluateParts, Parsing.evaluateParts]
    exact pure rfl
  | plan :: plans => by
    rw [Parsing.evaluateParts, Parsing.evaluateParts]
    refine (evaluate lexer calls plan).bind ?_
    rintro found _ rfl
    cases found with
    | none => exact pure rfl
    | some vs =>
      refine (evaluateParts lexer calls plans).bind ?_
      rintro rest _ rfl
      refine pure ?_
      cases rest <;> simp [ofOutputs]

theorem evaluateBranches (lexer : Lexer)
    (calls : ∀ name, InStep read text states ofCall (call name) (callAfter name)) (start : Nat) :
    (plans : List Plan) → InStep read text states (ofOutputs (Text.byteSize read))
      (evaluateBranches lexer call start plans)
      (evaluateBranches lexer callAfter (Text.byteSize read + start) plans)
  | [] => by
    rw [Parsing.evaluateBranches, Parsing.evaluateBranches]
    exact pure rfl
  | plan :: plans => by
    rw [Parsing.evaluateBranches, Parsing.evaluateBranches]
    refine (evaluate lexer calls plan).bind ?_
    rintro found _ rfl
    cases found with
    | none => exact (restore start).bind fun _ _ _ => evaluateBranches lexer calls start plans
    | some vs => exact pure rfl

end

structure SameTables (read text : List Char) (m after : Rules.Memos σ α) : Prop where
  logic : after.logic = m.logic
  outcomes : ∀ name place,
    after.outcome? name (Text.byteSize read + place) = m.outcome? name place
  inside : ∀ name place consumed value, m.outcome? name place = some (.success consumed value) →
    (∃ a, value = .own a) ∧ place + consumed ≤ Text.byteSize text

end InStep

structure Build.Placeless (build : Build σ α) : Prop where
  same : ∀ k vs s, build (vs.map (Value.shift k)) s = build vs s
  fault : ∀ k vs s f r, build vs s = some (.error f, r) → (Stop.fault f).shift k = .fault f

theorem subOffset_add (k a b : Nat) : subOffset (k + a) (k + b) = subOffset a b := by
  rw [subOffset, subOffset]
  by_cases less : b ≤ a
  · rw [if_pos less, if_pos (by omega), Nat.add_sub_add_left]
  · rw [if_neg less, if_neg (by omega)]

namespace InStep

open Run

theorem SameTables.insert {m after : Rules.Memos σ α} {name : String} {place : Nat}
    {memo : Memo (Value α)} (same : SameTables read text m after)
    (inside : ∀ consumed value, memo = .success consumed value →
      (∃ a, value = .own a) ∧ place + consumed ≤ Text.byteSize text) :
    SameTables read text (m.insert name place memo).1
      (after.insert name (Text.byteSize read + place) memo).1 := by
  refine ⟨same.logic, fun other there => ?_, fun other there consumed value held => ?_⟩
  · simp only [Rules.Memos.outcome?_insert, same.outcomes, Nat.add_left_cancel_iff]
  · rw [Rules.Memos.outcome?_insert] at held
    split at held
    · next here =>
      obtain ⟨rfl, rfl⟩ := here
      exact inside consumed value (Option.some.inj held)
    · exact same.inside other there consumed value held

theorem record {name : String} {place : Nat} {memo : Memo (Value α)}
    (inside : ∀ consumed value, memo = .success consumed value →
      (∃ a, value = .own a) ∧ place + consumed ≤ Text.byteSize text) :
    InStep read text (SameTables (σ := σ) read text) (fun _ _ => True)
      (Rules.record name place memo) (Rules.record name (Text.byteSize read + place) memo) := by
  intro t m after within same
  rw [Rules.runFrom_record_eq, Rules.runFrom_record_eq, same.outcomes]
  refine ⟨within, rfl, same.insert inside, ?_⟩
  cases m.outcome? name place with
  | none => exact .ok trivial
  | some _ => exact .error (.fault (.evaluatedTwice place))

theorem buildKept {build : Build σ α} (placeless : build.Placeless) (vs : List (Value α)) :
    InStep read text (SameTables read text) (fun v w => w = v ∧ ∃ a, v = .own a)
      (Rules.buildKept build vs)
      (Rules.buildKept build (vs.map (Value.shift (Text.byteSize read)))) := by
  intro t m after within same
  rw [Rules.buildKept, Rules.buildKept, Rules.runFrom_buildWith, Rules.runFrom_buildWith,
    placeless.same, same.logic]
  cases built : build vs m.logic with
  | none => exact ⟨within, rfl, same, .error .stuck⟩
  | some result =>
    obtain ⟨answer, logic⟩ := result
    refine ⟨within, rfl, ⟨rfl, same.outcomes, same.inside⟩, ?_⟩
    cases answer with
    | ok a => exact .ok ⟨rfl, a, rfl⟩
    | error f =>
      have unmoved := placeless.fault (Text.byteSize read) vs m.logic f logic built
      have stopped : Outcome (Text.byteSize read) (fun v w : Value α => w = v ∧ ∃ a, v = .own a)
        (.error (.fault f)) (.error ((Stop.fault f).shift (Text.byteSize read))) := .error _
      rwa [unmoved] at stopped

theorem keepOutcome {name : String} {start : Nat} {found : Option (Value α)}
    (own : ∀ v, found = some v → ∃ a, v = .own a) :
    InStep read text (SameTables (σ := σ) read text) ofCall
      (Rules.keepOutcome name start found)
      (Rules.keepOutcome name (Text.byteSize read + start) found) := by
  cases found with
  | none => exact (record (by simp)).bind fun _ _ _ => pure ⟨rfl, by simp⟩
  | some value =>
    refine position.bind ?_
    rintro now _ ⟨rfl, bound⟩
    -- What is kept is how far the match goes, and that does not depend on the place.
    rw [subOffset_add]
    by_cases behind : start ≤ now
    · have difference : subOffset now start = .ok (now - start) := if_pos behind
      have step : InStep read text (SameTables (σ := σ) (α := α) read text)
          (fun n m => m = n ∧ n = now - start) (Run.ofFault (subOffset now start))
          (Run.ofFault (subOffset now start)) := by
        rw [difference]
        exact ofFault (.ok ⟨rfl, rfl⟩)
      refine step.bind ?_
      rintro _ _ ⟨rfl, rfl⟩
      refine (record ?_).bind fun _ _ _ => pure ⟨rfl, own⟩
      rintro _ _ ⟨⟩
      exact ⟨own value rfl, by omega⟩
    · have below : subOffset now start = .error .subtractionOverflow := if_neg behind
      have step : InStep read text (SameTables (σ := σ) (α := α) read text) (fun _ _ => False)
          (Run.ofFault (subOffset now start)) (Run.ofFault (subOffset now start)) := by
        rw [below]
        exact ofFault (.error (.fault .subtractionOverflow))
      exact step.bind fun _ _ absurd => absurd.elim

theorem firstMatch {states : σ → σ → Prop} {lexer : Lexer}
    {call callAfter : String → Run σ (Option (Value α))} {τ : Type}
    (calls : ∀ name, InStep read text states ofCall (call name) (callAfter name))
    {finish : Build τ α → List (Value α) → Run σ (Value α)} {as : List (Alternative τ α)}
    (finishes : ∀ a ∈ as, ∀ vs, InStep read text states (fun v w => w = v ∧ ∃ a, v = .own a)
      (finish a.build vs) (finish a.build (vs.map (Value.shift (Text.byteSize read)))))
    (start : Nat) :
    InStep read text states ofCall (Rules.firstMatch lexer call finish start as)
      (Rules.firstMatch lexer callAfter finish (Text.byteSize read + start) as) := by
  induction as with
  | nil => exact pure ⟨rfl, by simp⟩
  | cons a as ih =>
    rw [Rules.firstMatch, Rules.firstMatch]
    refine (evaluate lexer calls a.plan).bind ?_
    rintro found _ rfl
    cases found with
    | none =>
      exact (restore start).bind fun _ _ _ =>
        ih fun b member => finishes b (List.mem_cons_of_mem a member)
    | some vs =>
      refine (finishes a List.mem_cons_self vs).bind ?_
      rintro v _ ⟨rfl, own⟩
      exact pure ⟨rfl, by simpa using own⟩

theorem replay {states : σ → τ → Prop} {place : Nat} {memo : Memo (Value α)}
    (short : Text.byteSize (read ++ text) < offsetLimit)
    (inside : ∀ consumed value, memo = .success consumed value →
      (∃ a, value = .own a) ∧ place + consumed ≤ Text.byteSize text) :
    InStep read text states ofCall
      (Rules.replay memo place) (Rules.replay memo (Text.byteSize read + place)) := by
  have replayed : Outcome (Text.byteSize read)
      (fun x y => y = (Text.byteSize read + x.1, x.2) ∧ ofCall x.2 y.2)
      ((memo.replay place).mapError .fault)
      ((memo.replay (Text.byteSize read + place)).mapError .fault) := by
    rw [Text.byteSize_append] at short
    cases memo with
    | failure => exact .ok ⟨rfl, rfl, by simp⟩
    | success consumed value =>
      obtain ⟨own, bound⟩ := inside consumed value rfl
      have here : addOffset place consumed = .ok (place + consumed) :=
        addOffset_eq_ok_iff.mpr ⟨rfl, by omega⟩
      have there : addOffset (Text.byteSize read + place) consumed =
          .ok (Text.byteSize read + (place + consumed)) :=
        addOffset_eq_ok_iff.mpr ⟨by omega, by omega⟩
      rw [Memo.replay, Memo.replay, here, there]
      exact .ok ⟨rfl, rfl, by simpa using own⟩
  refine (ofFault replayed).bind ?_
  rintro ⟨offset, value⟩ _ ⟨rfl, same⟩
  exact (restore offset).bind fun _ _ _ => pure same

end InStep

namespace Rules

variable {rules : Rules σ α}

theorem memoized_inStep
    (placeless : ∀ name, ∀ a ∈ rules.alternatives name, a.build.Placeless)
    (short : Text.byteSize (read ++ text) < offsetLimit) (n : Nat) (name : String) :
    InStep read text (InStep.SameTables read text) InStep.ofCall (rules.memoized n name)
      (rules.memoized n name) := by
  induction n generalizing name with
  | zero => exact .stop .stuck
  | succ n ih =>
    rw [memoized_succ]
    refine InStep.position.bind ?_
    rintro start _ ⟨rfl, -⟩
    refine .get fun t m after _ same => ?_
    simp only [same.outcomes]
    cases held : m.outcome? name start with
    | some memo =>
      refine InStep.replay short ?_
      rintro consumed value rfl
      exact same.inside name start consumed value held
    | none =>
      refine (InStep.firstMatch ih (fun a member => InStep.buildKept (placeless name a member))
        start).bind ?_
      rintro _ found ⟨rfl, own⟩
      exact InStep.keepOutcome own

theorem parse_after (placeless : ∀ name, ∀ a ∈ rules.alternatives name, a.build.Placeless)
    (name : String) {t : Tape} (within : t.Within text 0) (logic : σ)
    (short : Text.byteSize (read ++ text) < offsetLimit) :
    rules.parse name (t.after read) logic =
      ((rules.parse name t logic).1.mapError (Stop.shift (Text.byteSize read)),
        (rules.parse name t logic).2.1.after read, (rules.parse name t logic).2.2) := by
  have sameDepth : rules.depth (t.after read) = rules.depth t := by
    rw [depth, depth, Tape.remainder_after]
  have empty : InStep.SameTables read text ({ logic } : Memos σ α) { logic } := by
    refine ⟨rfl, fun _ _ => ?_, fun _ _ _ _ held => ?_⟩
    · simp [Memos.outcome?, Memos.table, MemoTable.get?]
    · simp [Memos.outcome?, Memos.table, MemoTable.get?] at held
  obtain ⟨-, places, same, outcome⟩ :=
    memoized_inStep placeless short (rules.depth t) name t _ _ within empty
  rw [Run.runFrom, Run.runFrom] at places same outcome
  rw [parse, parse, sameDepth]
  generalize (rules.memoized (rules.depth t) name).run (t, { logic }) = x at places same outcome ⊢
  generalize (rules.memoized (rules.depth t) name).run (t.after read, { logic }) = y
    at places same outcome ⊢
  obtain ⟨found, u, m⟩ := x
  obtain ⟨moved, v, after⟩ := y
  obtain rfl := places
  have logics := same.logic
  dsimp only at logics outcome ⊢
  rw [logics]
  cases outcome with
  | error e => rfl
  | ok agree =>
    obtain ⟨rfl, -⟩ := agree
    rename_i found
    cases found <;> rfl

end Rules

end Parsing

end Pegsmith
