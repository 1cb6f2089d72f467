import Pegsmith.Proofs.Parsing.Giving
import Pegsmith.Proofs.Parsing.Shift
import Pegsmith.Proofs.Parsing.Starts
import Pegsmith.Proofs.Parsing.Steps

set_option autoImplicit false

namespace Pegsmith.Parsing

open Run

variable {σ α β γ : Type}

structure Alternative.Silent (kind : String) (a : Alternative σ α) : Prop where
  leaves : .terminal kind ∉ a.plan.leaves
  unchanged : ∀ vs s answer r, a.build vs s = some (answer, r) → r = s

/-- Rules that count the tokens of a kind, each when a non-terminal reads it before all else. -/
structure Rules.Meters (rules : Rules Nat α) (name kind : String) : Prop where
  first : ∃ use build others, rules.alternatives name = ⟨.token kind use, build⟩ :: others ∧
    (∀ token n, ∃ a, build (useToken use token) n = some (.ok a, n + 1)) ∧
    ∀ a ∈ others, a.Silent kind
  silent : ∀ other ≠ name, ∀ a ∈ rules.alternatives other, a.Silent kind

structure Meter where
  lexer : Lexer
  text : List Char
  name : String
  kind : String

namespace Meter

open Rules

variable {w : Meter} {base start place : Nat} {m r : Memos Nat α} {other : String}
  {memo : Memo (Value α)}

def HasCounted (w : Meter) (m : Memos Nat α) (place : Nat) : Prop :=
  (m.outcome? w.name place).isSome = true

instance (w : Meter) (m : Memos Nat α) : DecidablePred (w.HasCounted m) := fun _ =>
  inferInstanceAs (Decidable (_ = true))

/-- A place that tokens lead to, before which all of the kind have been counted. -/
structure Settled (w : Meter) (m : Memos Nat α) (place : Nat) : Prop where
  reaches : w.lexer.Reaches w.text place
  counted : ∀ p, w.lexer.Begins w.kind w.text p → p < place → w.HasCounted m p

/-- Each place from which the non-terminal has been read counts once, and all that has been matched
ends where all before has been counted. -/
structure Tallied (w : Meter) (base : Nat) (m : Memos Nat α) : Prop where
  total : m.logic = base + ((w.lexer.placesOf w.kind w.text).filter (w.HasCounted m)).card
  ends : ∀ other place consumed v, m.outcome? other place = some (.success consumed v) →
    w.Settled m (place + consumed)

theorem Settled.of_le (settled : w.Settled m place) (reaches : w.lexer.Reaches w.text start)
    (less : start ≤ place) : w.Settled m start :=
  ⟨reaches, fun p begins before => settled.counted p begins (Nat.lt_of_lt_of_le before less)⟩

theorem Settled.next {token : Token} {u : Tape} (settled : w.Settled m place)
    (called : w.lexer.next ⟨w.text, place⟩ = (.ok (some token), u))
    (here : w.lexer.Begins w.kind w.text place → w.HasCounted m place) :
    u = ⟨w.text, u.offset⟩ ∧ place ≤ u.offset ∧ w.Settled m u.offset := by
  have inside := (@Lexer.next_within w.lexer _ _ _ settled.reaches.within).1
  rw [called] at inside
  have same : u = ⟨w.text, u.offset⟩ := by rw [← inside.same]
  obtain ⟨tokens, takes⟩ := settled.reaches
  refine ⟨same, inside.behind, ⟨_, same ▸ takes.append (.one called)⟩, fun p begins before => ?_⟩
  -- No token begins between here and the end of the next one.
  rcases Nat.lt_trichotomy p place with earlier | rfl | later
  · exact settled.counted p begins earlier
  · exact here begins
  · obtain ⟨found, v, again, ends⟩ := settled.reaches.next_of_lt begins.1 later
    obtain rfl := (Prod.mk.inj (called.symm.trans again)).2
    omega

theorem hasCounted_insert (place p : Nat) :
    w.HasCounted (m.insert other place memo).1 p ↔
      (other = w.name ∧ place = p) ∨ w.HasCounted m p := by
  rw [HasCounted, HasCounted, Memos.outcome?_insert]
  split <;> simp_all

theorem Settled.insert (settled : w.Settled m start) (place : Nat) :
    w.Settled (m.insert other place memo).1 start :=
  ⟨settled.reaches, fun p begins before =>
    (hasCounted_insert place p).mpr (.inr (settled.counted p begins before))⟩

theorem Tallied.ends_insert (tallied : w.Tallied base m)
    (here : ∀ consumed v, memo = .success consumed v →
      w.Settled (m.insert other place memo).1 (place + consumed)) :
    ∀ another there consumed v,
      (m.insert other place memo).1.outcome? another there = some (.success consumed v) →
        w.Settled (m.insert other place memo).1 (there + consumed) := by
  intro another there consumed v held
  rw [Memos.outcome?_insert] at held
  split at held
  · next same =>
    obtain ⟨-, rfl⟩ := same
    exact here consumed v (Option.some.inj held)
  · exact (tallied.ends another there consumed v held).insert place

theorem Tallied.insert_silent (tallied : w.Tallied base m)
    (silent : other = w.name → ¬w.lexer.Begins w.kind w.text place)
    (here : ∀ consumed v, memo = .success consumed v → w.Settled m (place + consumed)) :
    w.Tallied base (m.insert other place memo).1 := by
  refine ⟨?_, tallied.ends_insert fun consumed v same => (here consumed v same).insert place⟩
  have same : (w.lexer.placesOf w.kind w.text).filter (w.HasCounted (m.insert other place memo).1) =
      (w.lexer.placesOf w.kind w.text).filter (w.HasCounted m) := by
    refine Finset.filter_congr fun p member => ?_
    rw [hasCounted_insert, or_iff_right]
    rintro ⟨named, rfl⟩
    exact silent named (Lexer.mem_placesOf.mp member)
  rw [same]
  exact tallied.total

theorem Tallied.count (tallied : w.Tallied base m)
    (begins : w.lexer.Begins w.kind w.text place) (free : ¬w.HasCounted m place)
    (here : ∀ consumed v, memo = .success consumed v →
      w.Settled (m.insert w.name place memo).1 (place + consumed)) :
    w.Tallied base { (m.insert w.name place memo).1 with logic := m.logic + 1 } := by
  refine ⟨?_, fun another there consumed v held =>
    ⟨(tallied.ends_insert here another there consumed v held).reaches,
      (tallied.ends_insert here another there consumed v held).counted⟩⟩
  have grown : (w.lexer.placesOf w.kind w.text).filter
        (w.HasCounted (m.insert w.name place memo).1) =
      insert place ((w.lexer.placesOf w.kind w.text).filter (w.HasCounted m)) := by
    ext p
    simp only [Finset.mem_filter, Finset.mem_insert, hasCounted_insert, true_and]
    constructor
    · rintro ⟨member, rfl | before⟩
      · exact .inl rfl
      · exact .inr ⟨member, before⟩
    · rintro (rfl | ⟨member, before⟩)
      · exact ⟨Lexer.mem_placesOf.mpr begins, .inl rfl⟩
      · exact ⟨member, .inr before⟩
  have fresh : place ∉ (w.lexer.placesOf w.kind w.text).filter (w.HasCounted m) := by
    simp [free]
  change m.logic + 1 = base + ((w.lexer.placesOf w.kind w.text).filter
    (w.HasCounted (m.insert w.name place memo).1)).card
  rw [grown, Finset.card_insert_of_notMem fresh, tallied.total, Nat.add_assoc]

def Keeps (w : Meter) (base start : Nat) : Except Stop β × Tape × Memos Nat α → Prop
  | (.ok _, u, r) => ∃ place, u = ⟨w.text, place⟩ ∧ start ≤ place ∧ w.Settled r place ∧
      w.Tallied base r
  | (.error _, _, r) => w.Tallied base r

def Tracks (w : Meter) (base start : Nat) (run : Run (Memos Nat α) β) : Prop :=
  w.lexer.Reaches w.text start → ∀ place m, start ≤ place → w.Settled m place →
    w.Tallied base m → w.Keeps base start (run.runFrom ⟨w.text, place⟩ m)

theorem Keeps.tallied {found : Except Stop β} {u : Tape}
    (keeps : w.Keeps base start (found, u, m)) : w.Tallied base m := by
  cases found with
  | error e => exact keeps
  | ok b =>
    obtain ⟨_, -, -, -, tallied⟩ := keeps
    exact tallied

theorem Keeps.of_le {after : Except Stop β × Tape × Memos Nat α}
    (keeps : w.Keeps base place after) (less : start ≤ place) : w.Keeps base start after := by
  obtain ⟨_ | b, u, r⟩ := after
  · exact keeps
  · obtain ⟨further, same, beyond, settled, tallied⟩ := keeps
    exact ⟨further, same, Nat.le_trans less beyond, settled, tallied⟩

theorem Keeps.bind {t : Tape} {run : Run (Memos Nat α) β} {next : β → Run (Memos Nat α) γ}
    (first : w.Keeps base start (run.runFrom t m)) (reaches : w.lexer.Reaches w.text start)
    (rest : ∀ b, w.Tracks base start (next b)) :
    w.Keeps base start ((run >>= next).runFrom t m) := by
  rw [runFrom_bind]
  generalize run.runFrom t m = after at first ⊢
  obtain ⟨_ | b, u, r⟩ := after
  · exact first
  · obtain ⟨further, rfl, beyond, settled, tallied⟩ := first
    exact rest b reaches further r beyond settled tallied

namespace Tracks

theorem pure (b : β) : w.Tracks base start (pure b : Run (Memos Nat α) β) :=
  fun _ place _ behind settled tallied => ⟨place, rfl, behind, settled, tallied⟩

theorem position {next : Nat → Run (Memos Nat α) β}
    (rest : ∀ place, w.Tracks base place (next place)) :
    w.Tracks base start (position >>= next) := by
  intro _ place m behind settled tallied
  exact (rest place settled.reaches place m (Nat.le_refl _) settled tallied).of_le behind

theorem restore (start : Nat) :
    w.Tracks base start (restore start : Run (Memos Nat α) Unit) := by
  intro reaches place m behind settled tallied
  rw [runFrom_restore]
  split
  · exact ⟨start, rfl, Nat.le_refl _, settled.of_le reaches behind, tallied⟩
  · exact tallied

theorem take? {kind : String} (other : kind ≠ w.kind) (start : Nat) :
    w.Tracks base start (take? w.lexer kind : Run (Memos Nat α) (Option Token)) := by
  intro _ place m behind settled tallied
  rw [runFrom_take?, Lexer.nextIf]
  rcases called : w.lexer.next ⟨w.text, place⟩ with ⟨_ | _ | token, u⟩
  · exact tallied
  · exact ⟨place, rfl, behind, settled, tallied⟩
  · simp only
    by_cases same : token.kind = kind
    · rw [if_pos same]
      obtain ⟨here, less, further⟩ := settled.next called fun begins => by
        obtain ⟨-, found, v, again, kinds⟩ := begins
        obtain ⟨rfl, -⟩ : token = found ∧ _ := by simpa using called.symm.trans again
        exact absurd (same.symm.trans kinds) other
      exact ⟨u.offset, here, Nat.le_trans behind less, further, tallied⟩
    · rw [if_neg same]
      exact ⟨place, rfl, behind, settled, tallied⟩

theorem steps (w : Meter) (base : Nat) :
    Stepwise w.lexer (· ≠ w.kind) fun start _ run => w.Tracks (α := α) base start run where
  pure _ := pure
  stop _ _ := fun _ _ _ _ _ tallied => tallied
  bind first rest := fun reaches place m behind settled tallied =>
    (first reaches place m behind settled tallied).bind reaches rest
  position := position
  restore := restore
  tape _ each := fun reaches place m behind settled tallied =>
    each ⟨w.text, place⟩ m reaches place m behind settled tallied
  take? start other := take? other start

theorem buildKept {build : Build Nat α}
    (unchanged : ∀ vs s answer r, build vs s = some (answer, r) → r = s) (vs : List (Value α)) :
    w.Tracks base start (Rules.buildKept build vs) := by
  intro _ place m behind settled tallied
  rw [Rules.buildKept, runFrom_buildWith]
  cases built : build vs m.logic with
  | none => exact tallied
  | some result =>
    obtain ⟨answer, n⟩ := result
    obtain rfl := unchanged vs _ answer n built
    cases answer with
    | error f => exact tallied
    | ok a => exact ⟨place, rfl, behind, settled, tallied⟩

theorem record {other : String}
    (silent : other = w.name → ¬w.lexer.Begins w.kind w.text place)
    (here : ∀ consumed v, memo = .success consumed v → place + consumed = start) :
    w.Tracks base start (Rules.record other place memo) := by
  intro reaches now m behind settled tallied
  rw [runFrom_record_eq]
  have after : w.Tallied base (m.insert other place memo).1 := by
    refine tallied.insert_silent silent fun consumed v same => ?_
    rw [here consumed v same]
    exact settled.of_le reaches behind
  cases m.outcome? other place with
  | none => exact ⟨now, rfl, behind, settled.insert place, after⟩
  | some _ => exact after

theorem keepOutcome {other : String}
    (silent : other = w.name → ¬w.lexer.Begins w.kind w.text start) (found : Option (Value α)) :
    w.Tracks base start (Rules.keepOutcome other start found) := by
  have steps := steps (α := α) w base
  cases found with
  | none => exact steps.map (record silent (by simp)) fun _ => none
  | some value =>
    apply position
    intro now
    by_cases less : start ≤ now
    · have difference : subOffset now start = .ok (now - start) := if_pos less
      rw [difference]
      refine steps.map (record silent ?_) fun _ => some value
      rintro consumed _ ⟨⟩
      omega
    · have below : subOffset now start = .error .subtractionOverflow := if_neg less
      rw [below]
      exact fun _ _ _ _ _ tallied => tallied

end Tracks

theorem Tallied.replay (tallied : w.Tallied base m) (settled : w.Settled m place)
    (held : m.outcome? other place = some memo) {offset : Nat} {value : Option (Value α)}
    (replayed : memo.replay place = .ok (offset, value)) :
    place ≤ offset ∧ w.Settled m offset := by
  cases memo with
  | failure =>
    cases replayed
    exact ⟨Nat.le_refl _, settled⟩
  | success consumed v =>
    rw [Memo.replay] at replayed
    cases sum : addOffset place consumed with
    | error f =>
      rw [sum] at replayed
      cases replayed
    | ok further =>
      rw [sum] at replayed
      cases replayed
      obtain ⟨rfl, -⟩ := addOffset_eq_ok_iff.mp sum
      exact ⟨Nat.le_add_right .., tallied.ends other place consumed v held⟩

theorem replay_keeps (settled : w.Settled m place) (tallied : w.Tallied base m)
    (held : m.outcome? other place = some memo) :
    w.Keeps base place ((replay memo place).runFrom ⟨w.text, place⟩ m) := by
  rw [runFrom_replay_eq]
  rcases replayed : memo.replay place with f | ⟨offset, value⟩
  · exact tallied
  · obtain ⟨behind, ended⟩ := tallied.replay settled held replayed
    simp only
    split
    · exact ⟨offset, rfl, behind, ended, tallied⟩
    · exact tallied

variable {rules : Rules Nat α} {call : String → Run (Memos Nat α) (Option (Value α))}

theorem firstMatch_keeps (meters : rules.Meters w.name w.kind)
    (calls : ∀ name start, w.Tracks base start (call name)) (settled : w.Settled m place)
    (tallied : w.Tallied base m)
    (silent : other = w.name → ¬w.lexer.Begins w.kind w.text place) :
    w.Keeps base place ((firstMatch w.lexer call buildKept place
      (rules.alternatives other)).runFrom ⟨w.text, place⟩ m) := by
  have quiet (as : List (Alternative Nat α)) (each : ∀ a ∈ as, a.Silent w.kind) :
      w.Tracks base place (firstMatch w.lexer call buildKept place as) := by
    apply (Tracks.steps w base).firstMatch _ calls
    · rintro a member kind leaf rfl
      exact (each a member).leaves leaf
    · exact fun a member => Tracks.buildKept (each a member).unchanged
  by_cases named : other = w.name
  · obtain ⟨use, build, others, listed, -, each⟩ := meters.first
    have rest := (Tracks.steps w base).bind (Tracks.restore place) fun _ => quiet others each
    rw [named, listed, firstMatch, runFrom_bind, evaluate, runFrom_bind, runFrom_take?]
    obtain ⟨e, u, failed, -⟩ | refused | ⟨token, u, -, called, kinds⟩ :=
      @Ends.nextIf_cases w.lexer _ _ _ w.kind settled.reaches.within
    · rw [failed]
      exact tallied
    · rw [refused]
      exact rest settled.reaches place m (Nat.le_refl _) settled tallied
    · exact absurd ⟨settled.reaches, token, u, called, kinds⟩ (silent named)
  · exact quiet _ (meters.silent other named) settled.reaches place m (Nat.le_refl _) settled tallied

theorem begins_keeps (meters : rules.Meters w.name w.kind) (settled : w.Settled m place)
    (tallied : w.Tallied base m) (begins : w.lexer.Begins w.kind w.text place)
    (free : m.outcome? w.name place = none) :
    w.Keeps base place ((do
      let found ← firstMatch w.lexer call buildKept place (rules.alternatives w.name)
      keepOutcome w.name place found).runFrom ⟨w.text, place⟩ m) := by
  obtain ⟨use, build, others, listed, counts, -⟩ := meters.first
  obtain ⟨-, token, u, called, kinds⟩ := begins
  obtain ⟨a, built⟩ := counts token m.logic
  -- The first alternative takes the token, so it is the one whose build counts.
  have matched : (firstMatch w.lexer call buildKept place (rules.alternatives w.name)).runFrom
      ⟨w.text, place⟩ m = (.ok (some (.own a)), u, { m with logic := m.logic + 1 }) := by
    rw [listed, firstMatch, runFrom_bind, evaluate, runFrom_bind, runFrom_take?,
      Lexer.nextIf_of_next called kinds]
    change ((do return some (← buildKept build (useToken use token)) :
      Run (Memos Nat α) (Option (Value α)))).runFrom u m = _
    rw [runFrom_bind, buildKept, runFrom_buildWith, built]
    rfl
  have free' : ({ m with logic := m.logic + 1 } : Memos Nat α).outcome? w.name place = none := free
  have counted : w.HasCounted
      (m.insert w.name place (memoOf (u.offset - place) (some (.own a)))).1 place :=
    (hasCounted_insert place place).mpr (.inl ⟨rfl, rfl⟩)
  obtain ⟨here, less, further⟩ := (settled.insert place).next called fun _ => counted
  rw [runFrom_bind, matched]
  simp only
  rw [runFrom_keepOutcome free' less]
  refine ⟨u.offset, here, less, ⟨further.reaches, further.counted⟩,
    tallied.count ⟨settled.reaches, token, u, called, kinds⟩ (by simp [HasCounted, free]) ?_⟩
  rintro consumed v ⟨⟩
  rw [Nat.add_sub_cancel' less]
  exact further

theorem memoized_tracks {w : Meter} {rules : Rules Nat α} (lexer : rules.lexer = w.lexer)
    (meters : rules.Meters w.name w.kind) (n : Nat) (other : String) (start : Nat) :
    w.Tracks base start (rules.memoized n other) := by
  induction n generalizing other start with
  | zero => exact (Tracks.steps w base).stop start .stuck
  | succ n ih =>
    intro _ place m behind settled tallied
    refine Keeps.of_le ?_ behind
    cases held : m.outcome? other place with
    | some memo =>
      rw [memoized_of_outcome held]
      exact replay_keeps settled tallied held
    | none =>
      rw [memoized_of_free held, lexer]
      -- Only this call counts, and it leaves an outcome that keeps it from counting again.
      by_cases counts : other = w.name ∧ w.lexer.Begins w.kind w.text place
      · obtain ⟨rfl, begins⟩ := counts
        exact begins_keeps meters settled tallied begins held
      · have silent (named : other = w.name) (begins : w.lexer.Begins w.kind w.text place) :
            False := counts ⟨named, begins⟩
        exact (firstMatch_keeps meters ih settled tallied silent).bind settled.reaches fun found =>
          Tracks.keepOutcome silent found

theorem tallied_empty (w : Meter) (base : Nat) : w.Tallied base ({ logic := base } : Memos Nat α) := by
  constructor <;> simp [HasCounted, Memos.outcome?, Memos.table, MemoTable.get?]

theorem Settled.filter_eq {u : Tape} (settled : w.Settled m place)
    (last : w.lexer.next ⟨w.text, place⟩ = (.ok none, u)) :
    (w.lexer.placesOf w.kind w.text).filter (w.HasCounted m) = w.lexer.placesOf w.kind w.text := by
  refine Finset.filter_true_of_mem fun p member => ?_
  have begins := Lexer.mem_placesOf.mp member
  rcases Nat.lt_trichotomy p place with earlier | rfl | later
  · exact settled.counted p begins earlier
  · obtain ⟨-, token, v, called, -⟩ := begins
    rw [last] at called
    cases called
  · obtain ⟨token, v, called, -⟩ := settled.reaches.next_of_lt begins.1 later
    rw [last] at called
    cases called

end Meter

namespace Rules

variable {rules : Rules Nat α} {name kind : String}

theorem parseAll_logic (rules : Rules σ α) (name : String) (text : List Char) (logic : σ) :
    (rules.parseAll name text logic).2 = (rules.parse name ⟨text, 0⟩ logic).2.2 := by
  rw [parseAll]
  rcases rules.parse name ⟨text, 0⟩ logic with ⟨_ | value, u, after⟩
  · rfl
  · simp only
    rcases rules.lexer.next u with ⟨_ | _ | token, v⟩ <;> rfl

theorem Meters.counts_once (meters : rules.Meters name kind) (other : String) (text : List Char)
    (base : Nat) :
    (rules.parseAll other text base).2 ≤
        base + (rules.lexer.all ⟨text, 0⟩).1.countP (·.kind = kind) ∧
      ∀ v, (rules.parseAll other text base).1 = .ok v →
        (rules.lexer.all ⟨text, 0⟩).2.1 = none ∧ (rules.parseAll other text base).2 =
          base + (rules.lexer.all ⟨text, 0⟩).1.countP (·.kind = kind) := by
  have start : (⟨rules.lexer, text, name, kind⟩ : Meter).Settled ({ logic := base } : Memos Nat α) 0 :=
    ⟨⟨[], .nil _⟩, fun _ _ before => absurd before (Nat.not_lt_zero _)⟩
  have tracks : (⟨rules.lexer, text, name, kind⟩ : Meter).Tracks base 0
      (rules.memoized (rules.depth ⟨text, 0⟩) other) := Meter.memoized_tracks rfl meters _ other 0
  have keeps := tracks start.reaches 0 { logic := base } (Nat.le_refl 0) start
    (Meter.tallied_empty _ base)
  rw [runFrom] at keeps
  generalize ran : (rules.memoized (rules.depth ⟨text, 0⟩) other).run (⟨text, 0⟩, { logic := base }) =
    after at keeps
  obtain ⟨found, u, m⟩ := after
  have counted : (rules.parseAll other text base).2 = m.logic := by
    rw [parseAll_logic, parse, ran]
  -- The places that are counted are among those where the tokens begin.
  rw [counted, keeps.tallied.total, ← Lexer.card_placesOf]
  refine ⟨Nat.add_le_add_left (Finset.card_filter_le ..) base, fun v answered => ?_⟩
  obtain ⟨place, logic, last, parsed, ended⟩ := parseAll_eq_ok_iff.mp answered
  rw [parse, ran] at parsed
  obtain ⟨given, rfl, -⟩ : answer other 0 found = .ok v ∧ u = place ∧ m.logic = logic := by
    simpa using parsed
  cases found with
  | error e => cases given
  | ok b =>
    obtain ⟨place, rfl, -, settled, -⟩ := keeps
    obtain ⟨tokens, takes⟩ := settled.reaches
    have reads : rules.lexer.Reads ⟨text, 0⟩ tokens none last := ⟨_, takes, ended⟩
    exact ⟨by rw [reads.all_start], by rw [settled.filter_eq ended]⟩

end Rules

end Pegsmith.Parsing
