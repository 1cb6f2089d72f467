import Mathlib.Data.List.Forall2
import Pegsmith.Parsing.Rules
import Pegsmith.Proofs.Parsing.Follows
import Pegsmith.Proofs.Results

/-!
Keeping outcomes changes no answer. The reader without tables and the one with them both follow a
reader without tables and without a logic state. The tables only hold outcomes that this reader
has, and reading a non-terminal fills no place that takes as many calls as its own: so the place it
was called at is still free when its outcome is recorded.
-/

set_option autoImplicit false

namespace Pegsmith.Parsing

open Run

variable {σ τ α β : Type}

def Build.Even (build : Build σ α) : Prop :=
  ∀ vs s r, (build vs s).map Prod.fst = (build vs r).map Prod.fst

def Build.stateless (s : σ) (build : Build σ α) : Build Unit α := fun vs _ =>
  (build vs s).map fun (answer, _) => (answer, ())

namespace Rules

def stateless (rules : Rules σ α) (s : σ) : Rules Unit α :=
  { lexer := rules.lexer, names := rules.names
    alternatives := fun name =>
      (rules.alternatives name).map fun a => ⟨a.plan, a.build.stateless s⟩ }

theorem runFrom_buildWith (view : τ → σ) (update : σ → τ → τ) (build : Build σ α)
    (vs : List (Value α)) (t : Tape) (s : τ) :
    (buildWith view update build vs).runFrom t s = match build vs (view s) with
      | none => (.error .stuck, t, s)
      | some (answer, logic) => ((answer.map .own).mapError .fault, t, update logic s) := by
  rw [buildWith, runFrom_bind, runFrom_get]
  rcases built : build vs (view s) with _ | ⟨answer, logic⟩
  · simp only [built]
    rfl
  · simp only [built]
    cases answer <;> rfl

end Rules

namespace Follows

variable {text : List Char} {start : Nat} {invariant : τ → Prop}

theorem buildWith {view : τ → σ} {update : σ → τ → τ} {build : Build σ α} (even : build.Even)
    (kept : ∀ logic s, invariant s → invariant (update logic s)) (s : σ) (vs : List (Value α)) :
    Follows text start invariant (Rules.buildWith id (fun r _ => r) (build.stateless s) vs)
      (Rules.buildWith view update build vs) := by
  intro t r within holds free
  rw [Rules.runFrom_buildWith] at free ⊢
  rw [Rules.runFrom_buildWith]
  have same := even vs s (view r)
  rw [Build.stateless] at free ⊢
  cases first : build vs s with
  | none =>
    rw [first] at free
    exact (free rfl).elim
  | some built =>
    cases second : build vs (view r) with
    | none =>
      rw [first, second] at same
      cases same
    | some again =>
      rw [first, second] at same
      obtain ⟨answer, logic⟩ := built
      obtain ⟨answer', logic'⟩ := again
      cases same
      exact ⟨update logic' r, rfl, fun _ _ => ⟨within, kept logic' r holds⟩⟩

variable {lead : String → Run Unit (Option (Value α))} {call : String → Run τ (Option (Value α))}

theorem firstMatch {lexer : Lexer}
    (calls : ∀ name, Follows text start invariant (lead name) (call name))
    {leadFinish : Build Unit α → List (Value α) → Run Unit (Value α)}
    {finish : Build σ α → List (Value α) → Run τ (Value α)} {place : Nat} (behind : start ≤ place)
    {leaders : List (Alternative Unit α)} {as : List (Alternative σ α)}
    (finishes : List.Forall₂ (fun leader a => leader.plan = a.plan ∧
      ∀ vs, Follows text start invariant (leadFinish leader.build vs) (finish a.build vs))
      leaders as) :
    Follows text start invariant (Rules.firstMatch lexer lead leadFinish place leaders)
      (Rules.firstMatch lexer call finish place as) := by
  induction finishes with
  | nil => exact pure none
  | @cons leader a _ _ first _ ih =>
    rw [Rules.firstMatch, Rules.firstMatch, first.1]
    refine (evaluate lexer calls a.plan).bind fun found => ?_
    cases found with
    | none => exact (restore behind).bind fun _ => ih
    | some vs => exact (first.2 vs).map some

theorem plain {leader : Rules Unit α} {rules : Rules τ α} (lexer : leader.lexer = rules.lexer)
    (alternatives : ∀ name start, List.Forall₂ (fun a b => a.plan = b.plan ∧
      ∀ vs, Follows text start (fun _ : τ => True)
        (Rules.buildWith id (fun r _ => r) a.build vs)
        (Rules.buildWith id (fun r _ => r) b.build vs))
      (leader.alternatives name) (rules.alternatives name))
    {n m : Nat} (fewer : n ≤ m) (name : String) :
    Follows text start (fun _ : τ => True) (leader.plain n name) (rules.plain m name) := by
  induction n generalizing m name start with
  | zero => exact fun _ _ _ _ free => (free rfl).elim
  | succ n ih =>
    obtain ⟨m, rfl⟩ : ∃ k, m = k + 1 := ⟨m - 1, by omega⟩
    rw [Rules.plain, Rules.plain, lexer]
    refine position fun place behind => ?_
    exact firstMatch (fun callee => ih (by omega) callee) behind (alternatives name start)

end Follows

namespace Rules

theorem stateless_alternatives {rules : Rules σ α} {name : String}
    (even : ∀ a ∈ rules.alternatives name, a.build.Even) (s : σ) {text : List Char} {start : Nat}
    {invariant : τ → Prop} {view : τ → σ} {update : σ → τ → τ}
    (kept : ∀ logic r, invariant r → invariant (update logic r)) :
    List.Forall₂ (fun a b => a.plan = b.plan ∧ ∀ vs, Follows text start invariant
        (buildWith id (fun r _ => r) a.build vs) (buildWith view update b.build vs))
      ((rules.stateless s).alternatives name) (rules.alternatives name) := by
  rw [stateless, List.forall₂_map_left_iff, List.forall₂_same]
  exact fun a member => ⟨rfl, fun vs => Follows.buildWith (even a member) kept s vs⟩

theorem plain_follows (leader : Rules Unit α) {text : List Char} {start n m : Nat}
    (fewer : n ≤ m) (name : String) :
    Follows text start (fun _ : Unit => True) (leader.plain n name) (leader.plain m name) := by
  -- Without a state of the logic a build follows itself, so the same rules follow themselves.
  have itself (build : Build Unit α) : build.stateless () = build := by
    funext vs s
    simp [Build.stateless]
  refine Follows.plain rfl (fun name start => ?_) fewer name
  rw [List.forall₂_same]
  refine fun a _ => ⟨rfl, fun vs => ?_⟩
  have even : a.build.Even := fun _ _ _ => rfl
  have follows : Follows text start (fun _ : Unit => True)
      (buildWith id (fun r _ => r) (a.build.stateless ()) vs)
      (buildWith id (fun r _ => r) a.build vs) := Follows.buildWith even (fun _ _ holds => holds) () vs
  rwa [itself] at follows

theorem plain_follows_stateless {rules : Rules σ α}
    (even : ∀ name, ∀ a ∈ rules.alternatives name, a.build.Even) (s : σ) {text : List Char}
    {start n m : Nat} (fewer : n ≤ m) (name : String) :
    Follows text start (fun _ : σ => True) ((rules.stateless s).plain n name)
      (rules.plain m name) := by
  have lexer : (rules.stateless s).lexer = rules.lexer := rfl
  exact Follows.plain lexer
    (fun name _ => stateless_alternatives (even name) s fun _ _ holds => holds) fewer name

namespace Memos

def outcome? (m : Memos σ α) (name : String) (place : Nat) : Option (Memo (Value α)) :=
  (m.table name).get? place

theorem outcome?_insert (m : Memos σ α) (name other : String) (place there : Nat)
    (memo : Memo (Value α)) :
    (m.insert name place memo).1.outcome? other there =
      if name = other ∧ place = there then some memo else m.outcome? other there := by
  by_cases same : name = other
  · subst same
    simp only [outcome?, insert, table, List.lookup_cons, beq_self_eq_true, Option.getD_some,
      MemoTable.get?_insert, true_and]
  · simp only [outcome?, insert, table, List.lookup_cons, beq_false_of_ne (Ne.symm same), same,
      false_and, if_false]
    rw [lookup_filter_ne _ (Ne.symm same)]

end Memos

def buildKept (build : Build σ α) (vs : List (Value α)) : Run (Memos σ α) (Value α) :=
  buildWith Memos.logic (fun s m => { m with logic := s }) build vs

def memoOf (consumed : Nat) : Option (Value α) → Memo (Value α)
  | some value => .success consumed value
  | none => .failure

def keepOutcome (name : String) (start : Nat) (found : Option (Value α)) :
    Run (Memos σ α) (Option (Value α)) :=
  match found with
  | some value => do
    record name start (.success (← ofFault (subOffset (← position) start)) value)
    return some value
  | none => do
    record name start .failure
    return none

def replay (memo : Memo (Value α)) (start : Nat) : Run τ (Option (Value α)) := do
  let (offset, value) ← ofFault (memo.replay start)
  restore offset
  return value

theorem firstMatch_finish (lexer : Lexer) (call : String → Run τ (Option (Value α)))
    (finish : Build σ α → List (Value α) → Run τ (Value α)) (after : Value α → Run τ Unit)
    (place : Nat) (as : List (Alternative σ α)) :
    firstMatch lexer call (fun build vs => do
        let value ← finish build vs
        after value
        return value) place as = do
      match ← firstMatch lexer call finish place as with
      | some value => do
        after value
        return some value
      | none => return none := by
  -- Only the alternative that matches is followed by anything, and it is the last one tried.
  induction as with
  | nil => simp [firstMatch]
  | cons a as ih =>
    rw [firstMatch, firstMatch, bind_assoc]
    refine bind_congr fun found => ?_
    cases found with
    | none =>
      rw [ih, bind_assoc]
    | some vs => simp

theorem memoized_succ (rules : Rules σ α) (n : Nat) (name : String) :
    rules.memoized (n + 1) name = (do
      let start ← position
      match (← get).2.outcome? name start with
      | some memo => replay memo start
      | none =>
        let found ← firstMatch rules.lexer (rules.memoized n) buildKept start
          (rules.alternatives name)
        keepOutcome name start found) := by
  rw [memoized]
  refine bind_congr fun start => bind_congr fun state => ?_
  simp only [Memos.outcome?]
  cases (state.2.table name).get? start with
  | some memo => rfl
  | none =>
    let after (value : Value α) : Run (Memos σ α) Unit := do
      record name start (.success (← ofFault (subOffset (← position) start)) value)
    have behind := firstMatch_finish rules.lexer (rules.memoized n) buildKept after start
      (rules.alternatives name)
    simp only [after, bind_assoc] at behind
    refine (congrArg (· >>= _) behind).trans ?_
    rw [bind_assoc]
    refine bind_congr fun found => ?_
    cases found <;> simp [keepOutcome]

section Calls

variable {rules : Rules σ α} {n : Nat} {name : String} {t : Tape} {m : Memos σ α}

theorem memoized_of_outcome {memo : Memo (Value α)} (held : m.outcome? name t.offset = some memo) :
    (rules.memoized (n + 1) name).runFrom t m = (replay memo t.offset).runFrom t m := by
  rw [memoized_succ, runFrom_bind, runFrom_position]
  simp only
  rw [runFrom_bind, runFrom_get]
  simp only [held]

theorem memoized_of_free (free : m.outcome? name t.offset = none) :
    (rules.memoized (n + 1) name).runFrom t m = (do
      let found ← firstMatch rules.lexer (rules.memoized n) buildKept t.offset
        (rules.alternatives name)
      keepOutcome name t.offset found).runFrom t m := by
  rw [memoized_succ, runFrom_bind, runFrom_position]
  simp only
  rw [runFrom_bind, runFrom_get]
  simp only [free]

end Calls

theorem runFrom_replay_eq (memo : Memo (Value α)) (start : Nat) (t : Tape) (s : τ) :
    (replay memo start).runFrom t s = match memo.replay start with
      | .error f => (.error (.fault f), t, s)
      | .ok (offset, value) =>
        if Text.isBoundary t.text offset then (.ok value, { t with offset }, s)
        else (.error (.fault .insideCharacter), t, s) := by
  rw [replay, runFrom_bind, runFrom_ofFault]
  rcases memo.replay start with f | ⟨offset, value⟩
  · rfl
  · simp only [Except.mapError, runFrom_bind, runFrom_restore]
    by_cases boundary : Text.isBoundary t.text offset = true
    · simp only [boundary, if_true]
      rfl
    · simp only [boundary, if_false, Bool.false_eq_true]

theorem runFrom_record_eq (name : String) (place : Nat) (memo : Memo (Value α)) (t : Tape)
    (m : Memos σ α) :
    (record name place memo).runFrom t m =
      (((m.outcome? name place).elim (.ok ()) fun _ => .error (.fault (.evaluatedTwice place))), t,
        (m.insert name place memo).1) := by
  rw [record, runFrom_bind, runFrom_get]
  have fault : (m.insert name place memo).2 =
      (m.outcome? name place).map fun _ => .evaluatedTwice place := rfl
  generalize m.outcome? name place = held at fault ⊢
  rcases inserted : m.insert name place memo with ⟨after, again⟩
  rw [inserted] at fault
  simp only [inserted]
  cases held <;> cases fault <;> rfl

theorem plain_eq_of_le (leader : Rules Unit α) {text : List Char} {t : Tape} {start n m : Nat}
    {name : String} (within : t.Within text start) (fewer : n ≤ m)
    (free : ((leader.plain n name).runFrom t ()).1 ≠ .error .stuck) :
    (leader.plain m name).runFrom t () = (leader.plain n name).runFrom t () := by
  obtain ⟨_, same, -⟩ := leader.plain_follows fewer name t () within trivial free
  exact same

theorem plain_unique (leader : Rules Unit α) {text : List Char} {t : Tape} {start n m : Nat}
    {name : String} (within : t.Within text start)
    (free : ((leader.plain n name).runFrom t ()).1 ≠ .error .stuck)
    (other : ((leader.plain m name).runFrom t ()).1 ≠ .error .stuck) :
    (leader.plain n name).runFrom t () = (leader.plain m name).runFrom t () := by
  rcases Nat.le_total n m with fewer | fewer
  · exact (leader.plain_eq_of_le within fewer free).symm
  · exact leader.plain_eq_of_le within fewer other

theorem firstMatch_none {lexer : Lexer} {lead : String → Run Unit (Option (Value α))}
    {text : List Char} {start : Nat} {t u : Tape} {finish : Build Unit α → List (Value α) →
      Run Unit (Value α)} {leaders : List (Alternative Unit α)}
    (calls : ∀ name, Follows text start (fun _ : Unit => True) (lead name) (lead name))
    (within : t.Within text start)
    (failed : (firstMatch lexer lead finish t.offset leaders).runFrom t () = (.ok none, u, ())) :
    u = t := by
  -- After each alternative that does not match the tape is moved back.
  induction leaders with
  | nil =>
    cases failed
    rfl
  | cons a leaders ih =>
    have moves := Follows.evaluate lexer calls a.plan t () within trivial
    rw [firstMatch, runFrom_bind] at failed
    generalize (evaluate lexer lead a.plan).runFrom t () = answer at failed moves
    obtain ⟨answer, v, ⟨⟩⟩ := answer
    match answer with
    | .error e => cases failed
    | .ok none =>
      obtain ⟨_, -, kept⟩ := moves (by simp)
      have back : ({ v with offset := t.offset } : Tape) = t := by
        rw [(kept none rfl).1.same, ← within.same]
      have boundary : Text.isBoundary v.text t.offset = true := by
        rw [(kept none rfl).1.same]
        exact within.boundary
      simp only [runFrom_bind, runFrom_restore, boundary, if_true, back] at failed
      exact ih failed
    | .ok (some vs) =>
      simp only [runFrom_bind] at failed
      generalize (finish a.build vs).runFrom v () = answer at failed
      obtain ⟨answer, w, ⟨⟩⟩ := answer
      cases answer <;> cases failed

theorem plain_none {leader : Rules Unit α} {text : List Char} {start n : Nat} {t u : Tape}
    {name : String} (within : t.Within text start)
    (failed : (leader.plain n name).runFrom t () = (.ok none, u, ())) : u = t := by
  cases n with
  | zero => cases failed
  | succ n =>
    rw [plain, runFrom_bind, runFrom_position] at failed
    exact firstMatch_none (fun _ => leader.plain_follows (Nat.le_refl n) _) within failed

def Recorded (leader : Rules Unit α) (text : List Char) (name : String) (place : Nat) :
    Memo (Value α) → Prop
  | .success consumed value => ∃ n, Text.isBoundary text (place + consumed) = true ∧
      (leader.plain n name).runFrom ⟨text, place⟩ () =
        (.ok (some value), ⟨text, place + consumed⟩, ())
  | .failure => ∃ n, (leader.plain n name).runFrom ⟨text, place⟩ () =
      (.ok none, ⟨text, place⟩, ())

/-- Tables that hold nothing but outcomes of reading without tables, and nothing new about what
takes more than `n` calls inside each other. -/
structure Faithful (leader : Rules Unit α) (text : List Char) (n : Nat) (before m : Memos σ α) :
    Prop where
  recorded : ∀ name place memo, m.outcome? name place = some memo →
    leader.Recorded text name place memo
  kept : ∀ name place, Text.isBoundary text place = true →
    ((leader.plain n name).runFrom ⟨text, place⟩ ()).1 = .error .stuck →
    m.outcome? name place = before.outcome? name place

theorem plain_stuck_of_le (leader : Rules Unit α) {text : List Char} {place n m : Nat}
    {name : String} (boundary : Text.isBoundary text place = true) (fewer : n ≤ m)
    (stuck : ((leader.plain m name).runFrom ⟨text, place⟩ ()).1 = .error .stuck) :
    ((leader.plain n name).runFrom ⟨text, place⟩ ()).1 = .error .stuck := by
  by_contra free
  have within : ({ text, offset := place } : Tape).Within text place :=
    ⟨rfl, boundary, Nat.le_refl _⟩
  rw [leader.plain_eq_of_le within fewer free] at stuck
  exact free stuck

theorem Faithful.trans {leader : Rules Unit α} {text : List Char} {n : Nat}
    {before between m : Memos σ α} (second : leader.Faithful text n between m)
    (first : leader.Faithful text (n + 1) before between) :
    leader.Faithful text (n + 1) before m := by
  -- What needs more calls than the larger bound needs more than the smaller one too.
  refine ⟨second.recorded, fun name place boundary stuck => ?_⟩
  have less := leader.plain_stuck_of_le boundary (Nat.le_succ n) stuck
  rw [second.kept name place boundary less, first.kept name place boundary stuck]

theorem runFrom_record (name : String) (place : Nat) (memo : Memo (Value α)) (t : Tape)
    (m : Memos σ α) (free : m.outcome? name place = none) :
    (record name place memo).runFrom t m = (.ok (), t, (m.insert name place memo).1) := by
  rw [runFrom_record_eq, free]
  rfl

theorem runFrom_replay {leader : Rules Unit α} {text : List Char} {start n : Nat} {t : Tape}
    {name : String} {memo : Memo (Value α)} (within : t.Within text start)
    (short : Text.byteSize text < offsetLimit)
    (recorded : leader.Recorded text name t.offset memo)
    (free : ((leader.plain n name).runFrom t ()).1 ≠ .error .stuck) (s : τ) :
    (replay memo t.offset).runFrom t s =
      (((leader.plain n name).runFrom t ()).1, ((leader.plain n name).runFrom t ()).2.1, s) := by
  -- Whatever bound the outcome was recorded under, it is the one under this bound.
  have place : t = ⟨text, t.offset⟩ := by rw [← within.same]
  rw [runFrom_replay_eq]
  cases memo with
  | success consumed value =>
    obtain ⟨k, boundary, outcome⟩ := recorded
    rw [← place] at outcome
    have same := leader.plain_unique within free (m := k) (by simp [outcome])
    have later : ({ text, offset := t.offset + consumed } : Tape).Within text t.offset :=
      ⟨rfl, boundary, Nat.le_add_right ..⟩
    have bound : t.offset + consumed ≤ Text.byteSize text := later.offset_le
    have sum : addOffset t.offset consumed = .ok (t.offset + consumed) :=
      addOffset_eq_ok_iff.mpr ⟨rfl, by omega⟩
    rw [same, outcome, Memo.replay, sum]
    simp only [Except.map, within.same, boundary, if_true]
  | failure =>
    obtain ⟨k, outcome⟩ := recorded
    rw [← place] at outcome
    have same := leader.plain_unique within free (m := k) (by simp [outcome])
    rw [same, outcome, Memo.replay]
    simp only [within.same, within.boundary, if_true]
    exact congrArg (fun u => (Except.ok none, u, s)) place.symm

theorem runFrom_keepOutcome {name : String} {place : Nat} {found : Option (Value α)} {u : Tape}
    {m : Memos σ α} (free : m.outcome? name place = none) (behind : place ≤ u.offset) :
    (keepOutcome name place found).runFrom u m =
      (.ok found, u, (m.insert name place (memoOf (u.offset - place) found)).1) := by
  cases found with
  | none =>
    simp only [keepOutcome, runFrom_bind, runFrom_record _ _ _ _ _ free]
    rfl
  | some value =>
    have difference : subOffset u.offset place = .ok (u.offset - place) := if_pos behind
    simp only [keepOutcome, runFrom_bind, runFrom_position, runFrom_ofFault, difference,
      Except.mapError, runFrom_record _ _ _ _ _ free]
    rfl

theorem recorded_of_plain {leader : Rules Unit α} {text : List Char} {start n : Nat} {t u : Tape}
    {name : String} {found : Option (Value α)} (within : t.Within text start)
    (inside : u.Within text t.offset)
    (outcome : (leader.plain n name).runFrom t () = (.ok found, u, ())) :
    leader.Recorded text name t.offset (memoOf (u.offset - t.offset) found) := by
  have place : t = ⟨text, t.offset⟩ := by rw [← within.same]
  cases found with
  | none =>
    obtain rfl := plain_none within outcome
    exact ⟨n, by rw [← place, outcome]⟩
  | some value =>
    have back : t.offset + (u.offset - t.offset) = u.offset := Nat.add_sub_cancel' inside.behind
    refine ⟨n, ?_, ?_⟩
    · rw [back]
      exact inside.boundary
    · rw [back, ← place, outcome, ← inside.same]

theorem Faithful.insert {leader : Rules Unit α} {text : List Char} {n place : Nat}
    {before m : Memos σ α} {name : String} {memo : Memo (Value α)}
    (faithful : leader.Faithful text n before m) (genuine : leader.Recorded text name place memo)
    (free : ((leader.plain n name).runFrom ⟨text, place⟩ ()).1 ≠ .error .stuck) :
    leader.Faithful text n before (m.insert name place memo).1 := by
  constructor
  · intro other there memo' held
    rw [Memos.outcome?_insert] at held
    split at held
    · next here =>
      obtain ⟨rfl, rfl⟩ := here
      cases held
      exact genuine
    · exact faithful.recorded other there memo' held
  · intro other there boundary stuck
    have apart : ¬(name = other ∧ place = there) := by
      rintro ⟨rfl, rfl⟩
      exact free stuck
    rw [Memos.outcome?_insert, if_neg apart, faithful.kept other there boundary stuck]

theorem runFrom_fresh {rules : Rules σ α} {logic : σ} {text : List Char} {start n : Nat}
    {name : String} {before s : Memos σ α} {t : Tape}
    {call : String → Run (Memos σ α) (Option (Value α))}
    (body : Follows text t.offset ((rules.stateless logic).Faithful text n s)
      (firstMatch rules.lexer ((rules.stateless logic).plain n) (buildWith id fun r _ => r) t.offset
        ((rules.stateless logic).alternatives name))
      (firstMatch rules.lexer call buildKept t.offset (rules.alternatives name)))
    (within : t.Within text start)
    (faithful : (rules.stateless logic).Faithful text (n + 1) before s)
    (fresh : s.outcome? name t.offset = none)
    (stuck : (((rules.stateless logic).plain n name).runFrom t ()).1 = .error .stuck)
    (free : (((rules.stateless logic).plain (n + 1) name).runFrom t ()).1 ≠ .error .stuck) :
    ∃ s', (do
        let found ← firstMatch rules.lexer call buildKept t.offset (rules.alternatives name)
        keepOutcome name t.offset found).runFrom t s =
        ((((rules.stateless logic).plain (n + 1) name).runFrom t ()).1,
          (((rules.stateless logic).plain (n + 1) name).runFrom t ()).2.1, s') ∧
      ∀ b, (((rules.stateless logic).plain (n + 1) name).runFrom t ()).1 = .ok b →
        (((rules.stateless logic).plain (n + 1) name).runFrom t ()).2.1.Within text start ∧
          (rules.stateless logic).Faithful text (n + 1) before s' := by
  have whole : ((rules.stateless logic).plain (n + 1) name).runFrom t () =
      (firstMatch rules.lexer ((rules.stateless logic).plain n) (buildWith id fun r _ => r)
        t.offset ((rules.stateless logic).alternatives name)).runFrom t () := by
    rw [plain, runFrom_bind, runFrom_position]
    rfl
  have place : t = ⟨text, t.offset⟩ := by rw [← within.same]
  have led := body t s within.here ⟨faithful.recorded, fun _ _ _ _ => rfl⟩ (whole ▸ free)
  rw [← whole] at led
  rw [runFrom_bind]
  rcases outcome : ((rules.stateless logic).plain (n + 1) name).runFrom t () with ⟨answer, u, ⟨⟩⟩
  rw [outcome] at led free
  obtain ⟨r, same, after⟩ := led
  rw [same]
  cases answer with
  | error e => exact ⟨r, rfl, fun _ answered => by cases answered⟩
  | ok found =>
    obtain ⟨inside, kept⟩ := after found rfl
    -- Nothing that takes as many calls was recorded on the way, so the place is still free.
    have stillFree : r.outcome? name t.offset = none := by
      rw [kept.kept name t.offset within.boundary (place ▸ stuck), fresh]
    have genuine := recorded_of_plain within inside outcome
    have enough : (((rules.stateless logic).plain (n + 1) name).runFrom
        ⟨text, t.offset⟩ ()).1 ≠ .error .stuck := by
      rw [← place, outcome]
      exact free
    exact ⟨_, runFrom_keepOutcome stillFree inside.behind, fun _ _ =>
      ⟨inside.of_le within.behind, (kept.trans faithful).insert genuine enough⟩⟩

theorem memoized_follows {rules : Rules σ α}
    (even : ∀ name, ∀ a ∈ rules.alternatives name, a.build.Even) (logic : σ) {text : List Char}
    (short : Text.byteSize text < offsetLimit) {start n m : Nat} (fewer : n ≤ m) (name : String)
    (before : Memos σ α) :
    Follows text start ((rules.stateless logic).Faithful text n before)
      ((rules.stateless logic).plain n name) (rules.memoized m name) := by
  induction n generalizing m name start before with
  | zero => exact fun _ _ _ _ free => (free rfl).elim
  | succ n ih =>
    intro t s within faithful free
    -- Where fewer calls are enough, the tables change no more than with those.
    by_cases again : (((rules.stateless logic).plain n name).runFrom t ()).1 ≠ .error .stuck
    · obtain ⟨s', same, after⟩ := ih (m := m) (by omega) name s t s within
        ⟨faithful.recorded, fun _ _ _ _ => rfl⟩ again
      have more := (rules.stateless logic).plain_eq_of_le within (Nat.le_succ n) again
      refine ⟨s', by rw [same, more], fun b answered => ?_⟩
      rw [more] at answered ⊢
      obtain ⟨inside, further⟩ := after b answered
      exact ⟨inside, further.trans faithful⟩
    · have stuck := not_not.mp again
      obtain ⟨m, rfl⟩ : ∃ k, m = k + 1 := ⟨m - 1, by omega⟩
      cases hit : s.outcome? name t.offset with
      | some memo =>
        rw [memoized_of_outcome hit]
        refine ⟨s, runFrom_replay within short (faithful.recorded _ _ _ hit) free s, ?_⟩
        intro b answered
        obtain ⟨_, -, inside⟩ :=
          (rules.stateless logic).plain_follows (Nat.le_refl _) name t () within trivial free
        exact ⟨(inside b answered).1, faithful⟩
      | none =>
        have calls (callee : String) : Follows text t.offset
            ((rules.stateless logic).Faithful text n s)
            ((rules.stateless logic).plain n callee) (rules.memoized m callee) :=
          ih (by omega) callee s
        rw [memoized_of_free hit]
        refine runFrom_fresh (Follows.firstMatch calls (Nat.le_refl _) ?_) within faithful hit
          stuck free
        exact stateless_alternatives (even name) logic fun _ _ holds =>
          ⟨holds.recorded, holds.kept⟩

end Rules

end Pegsmith.Parsing
