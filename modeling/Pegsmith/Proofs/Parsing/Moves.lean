import Mathlib
import Pegsmith.Parsing.Matcher
import Pegsmith.Parsing.Search
import Pegsmith.Proofs.Parsing.Tiling
import Pegsmith.Proofs.Results

set_option autoImplicit false

namespace Pegsmith.Parsing

def Search.OnBoundaries (rule : Search) : Prop :=
  ∀ cs start stop, rule cs = some (start, stop) →
    Text.isBoundary cs start = true ∧ Text.isBoundary cs stop = true

theorem Matcher.search_onBoundaries (m : Matcher) : m.search.OnBoundaries := by
  intro cs start stop found
  obtain ⟨n, -, same⟩ := Option.map_eq_some_iff.mp found
  cases same
  have cut := Text.dropBytes?_byteSize (cs.take n) (cs.drop n)
  rw [List.take_append_drop] at cut
  exact ⟨by cases cs <;> rfl, by rw [Text.isBoundary, cut]; rfl⟩

theorem Matcher.size?_search (m : Matcher) (cs : List Char) :
    m.search.size? cs = if m.front cs = [] then none else some (Text.byteSize (m.front cs)) := by
  rw [Search.size?, search, front]
  cases m cs with
  | none => rfl
  | some n =>
    have zero : 0 = Text.byteSize (cs.take n) ↔ cs.take n = [] := by
      cases cs.take n with
      | nil => simp
      | cons c front => simp [(Nat.add_pos_left c.utf8Size_pos _).ne]
    simp only [Option.map_some, Option.getD_some, ne_eq, not_true_eq_false, false_or, zero]

theorem Search.exists_of_size? {rule : Search} {cs : List Char} {size : Nat}
    (rules : rule.OnBoundaries) (found : rule.size? cs = some size) :
    ∃ taken rest, cs = taken ++ rest ∧ taken ≠ [] ∧ Text.byteSize taken = size := by
  rw [size?] at found
  split at found
  · cases found
  · next searched =>
    split at found
    · cases found
    · next here =>
      cases found
      obtain ⟨rest, cut⟩ := Option.isSome_iff_exists.mp (rules cs _ _ searched).2
      obtain ⟨taken, split, length⟩ := Text.eq_append_of_dropBytes? cut
      refine ⟨taken, rest, split, ?_, length⟩
      rintro rfl
      -- A match that is empty and begins at the place ends there as well.
      rw [Text.byteSize_nil] at length
      omega

namespace Tape

def Step.OnBoundaries : Step → Prop
  | .token rule _ | .pass rule => rule.OnBoundaries
  | .seek _ | .restore _ | .skip _ | .atEnd | .remainder | .text | .error => True

inductive Goes (text : List Char) (t : Tape) : Answer × Tape → Prop where
  | stays {answer : Answer} (cuts : answer ≠ .badCut)
      (taken : ∀ token, answer ≠ .token (some token)) : Goes text t (answer, t)
  | moves {answer : Answer} {u : Tape} (reached : u.Within text 0)
      (moved : answer = .done ∨ answer = .passed true) : Goes text t (answer, u)
  | takes {read taken rest : List Char} {kind : String} (whole : text = read ++ (taken ++ rest))
      (here : t = ⟨read ++ (taken ++ rest), Text.byteSize read⟩) (filled : taken ≠ []) :
      Goes text t (.token (some ⟨kind, taken, Text.byteSize read⟩),
        { t with offset := Text.byteSize read + Text.byteSize taken })

/-- A step cuts the text only where it can be cut, moves the tape only if it succeeds, and answers a
token with what the tape has been moved over. -/
structure Steady (t : Tape) (st : Step) : Prop where
  cuts : (t.step st).1 ≠ .badCut
  stays : ∀ fault, (t.step st).1 = .fault fault → (t.step st).2 = t
  misses : (t.step st).1 = .token none ∨ (t.step st).1 = .passed false → (t.step st).2 = t
  token : ∀ token, (t.step st).1 = .token (some token) →
    token.text ≠ [] ∧ token.offset = t.offset ∧ token.stop = (t.step st).2.offset ∧
      Text.slice? t.text token.offset token.stop = some token.text

def run (t : Tape) (steps : List Step) : Tape :=
  steps.foldl (fun t st => (t.step st).2) t

variable {text : List Char} {t : Tape} {st : Step} {rule : Search}

theorem rest?_eq (within : t.Within text 0) : t.rest? = some t.remainder := by
  obtain ⟨rest, cut⟩ := Option.isSome_iff_exists.mp (within.same ▸ within.boundary)
  rw [rest?, remainder, cut]
  rfl

theorem behind_cases (within : t.Within text 0) (rules : rule.OnBoundaries) :
    (rule.size? t.remainder = none ∧ t.behind rule = .ok none) ∨
      (∃ fault, t.behind rule = .error (.fault fault)) ∨
        ∃ read taken rest, t = between read (taken ++ rest) ∧ text = read ++ (taken ++ rest) ∧
          taken ≠ [] ∧ t.behind rule = .ok (some (Text.byteSize read + Text.byteSize taken)) := by
  rw [behind, rest?_eq within]
  dsimp only
  cases found : rule.size? t.remainder with
  | none => exact .inl ⟨rfl, rfl⟩
  | some size =>
    obtain ⟨taken, rest, left, filled, length⟩ := Search.exists_of_size? rules found
    obtain ⟨read, whole, place⟩ := within.eq_between
    rw [left] at whole place
    have offset : t.offset = Text.byteSize read := by rw [place, between]
    cases sum : addOffset t.offset size with
    | error fault => exact .inr (.inl ⟨fault, by simp [sum, Except.map, Except.mapError]⟩)
    | ok stop =>
      obtain ⟨same, -⟩ := addOffset_eq_ok_iff.mp sum
      rw [offset, ← length] at same
      exact .inr (.inr ⟨read, taken, rest, place, whole, filled, by simp [sum, same, Except.map,
        Except.mapError]⟩)

theorem within_seek {u : Tape} {offset : Nat} (within : t.Within text 0)
    (moves : t.seek offset = .ok u) : u.Within text 0 := by
  unfold seek at moves
  split at moves
  · next boundary =>
    cases moves
    exact ⟨within.same, within.same ▸ boundary, Nat.zero_le _⟩
  · cases moves

theorem goes_moved {target : Except Fault Tape}
    (reaches : ∀ u, target = .ok u → u.Within text 0) : Goes text t (t.moved target) := by
  cases target with
  | ok u => exact .moves (reaches u rfl) (.inl rfl)
  | error fault => exact .stays (by simp) (by simp)

theorem goes_step (within : t.Within text 0) (sound : st.OnBoundaries) :
    Goes text t (t.step st) := by
  have left := rest?_eq within
  cases st with
  | token rule kind =>
    rw [step]
    rcases behind_cases within sound with
      ⟨-, missed⟩ | ⟨fault, failed⟩ | ⟨read, taken, rest, here, whole, filled, found⟩
    · rw [missed]
      exact .stays (by simp) (by simp)
    · rw [failed]
      exact .stays (by simp) (by simp)
    · -- The tape stands behind what has been read, so the slice is what the rule took.
      have cut : Text.slice? t.text t.offset (Text.byteSize read + Text.byteSize taken) =
          some taken := here ▸ Text.slice?_append read taken rest
      have place : t.offset = Text.byteSize read := by rw [here, between]
      rw [found]
      dsimp only
      rw [cut, place]
      exact .takes whole here filled
  | pass rule =>
    rw [step]
    rcases behind_cases within sound with
      ⟨-, missed⟩ | ⟨fault, failed⟩ | ⟨read, taken, rest, here, whole, -, found⟩
    · rw [missed]
      exact .stays (by simp) (by simp)
    · rw [failed]
      exact .stays (by simp) (by simp)
    · rw [found]
      refine .moves ?_ (.inr rfl)
      rw [here, whole, ← between_append, ← List.append_assoc]
      exact within_of_append rfl rfl (Nat.zero_le _)
  | seek offset | restore offset => exact goes_moved fun u => within_seek within
  | skip length =>
    refine goes_moved fun u reached => ?_
    obtain ⟨offset, -, reached⟩ := ok_of_bind reached
    exact within_seek within reached
  | atEnd | text => exact .stays (by simp) (by simp)
  | remainder | error =>
    rw [step, left]
    exact .stays (by simp) (by simp)

theorem steady_step (within : t.Within text 0) (sound : st.OnBoundaries) : t.Steady st := by
  have goes := goes_step within sound
  generalize answered : t.step st = result at goes
  cases goes with
  | stays cuts taken =>
    exact ⟨by simpa [answered] using cuts, by simp [answered], by simp [answered],
      fun token found => absurd (by simpa [answered] using found) (taken token)⟩
  | moves _ moved => rcases moved with rfl | rfl <;> constructor <;> simp [answered]
  | takes whole here filled =>
    refine ⟨by simp [answered], by simp [answered], by simp [answered], fun token found => ?_⟩
    rw [answered] at found ⊢
    cases found
    subst here
    exact ⟨filled, rfl, rfl, Text.slice?_append ..⟩

theorem within_step (within : t.Within text 0) (sound : st.OnBoundaries) :
    (t.step st).2.Within text 0 := by
  have goes := goes_step within sound
  generalize t.step st = result at goes
  cases goes with
  | stays => exact within
  | moves reached => exact reached
  | takes whole here =>
    subst here
    rw [← List.append_assoc] at whole
    subst whole
    exact within_of_append (by simp) (by simp) (Nat.zero_le _)

theorem within_run {steps : List Step} (within : t.Within text 0)
    (sound : ∀ st ∈ steps, st.OnBoundaries) : (run t steps).Within text 0 := by
  induction steps generalizing t with
  | nil => exact within
  | cons st steps ih =>
    refine ih (within_step within (sound st List.mem_cons_self)) fun st' member => ?_
    exact sound st' (List.mem_cons_of_mem st member)

theorem step_token_search {m : Matcher} {kind : String} (within : t.Within text 0)
    (fits : Text.byteSize text < offsetLimit) :
    t.step (.token m.search kind) =
      if m.front t.remainder = [] then (.token none, t)
      else (.token (some ⟨kind, m.front t.remainder, t.offset⟩),
        { t with offset := t.offset + Text.byteSize (m.front t.remainder) }) := by
  obtain ⟨read, whole, place⟩ := within.eq_between
  have offset : t.offset = Text.byteSize read := by rw [place, between]
  rw [step, behind, rest?_eq within]
  dsimp only
  rw [Matcher.size?_search]
  split_ifs with empty
  · rfl
  have parts := m.front_append t.remainder
  generalize m.front t.remainder = front at *
  have size := congrArg Text.byteSize whole
  rw [← parts, Text.byteSize_append, Text.byteSize_append] at size
  have sum := addOffset_eq_ok_iff.mpr
    ⟨rfl, show t.offset + Text.byteSize front < offsetLimit by omega⟩
  have cut : Text.slice? t.text t.offset (t.offset + Text.byteSize front) = some front := by
    rw [within.same, offset, whole, ← parts]
    exact Text.slice?_append ..
  simp [sum, cut, Except.map, Except.mapError]

/-- After any steps the tape stands between two characters of its text, so what is left of it and
the error there can be told, and so it is with every further step. -/
theorem run_steady {steps : List Step} (sound : ∀ st ∈ steps, st.OnBoundaries) :
    (run ⟨text, 0⟩ steps).text = text ∧
      Text.isBoundary text (run ⟨text, 0⟩ steps).offset = true ∧
      (run ⟨text, 0⟩ steps).offset ≤ Text.byteSize text ∧
      ((run ⟨text, 0⟩ steps).step .remainder).1 = .text (run ⟨text, 0⟩ steps).remainder ∧
      ((run ⟨text, 0⟩ steps).step .error).1 = .error (run ⟨text, 0⟩ steps).error ∧
      ∀ st : Step, st.OnBoundaries → (run ⟨text, 0⟩ steps).Steady st := by
  have within := within_run (within_start text) sound
  have left := rest?_eq within
  refine ⟨within.same, within.boundary, within.offset_le, ?_, ?_, fun st => steady_step within⟩
  · rw [step, left]
    rfl
  · rw [step, left]
    rfl

def wander : List Step :=
  [.token (Matcher.run Char.isDigit).search "Digits", .skip 1, .skip (offsetLimit - 1), .seek 2,
    .skip (offsetLimit - 1), .pass (Matcher.run Char.isDigit).search,
    .token (Matcher.word (· == 'ß') Char.isDigit).search "Sharp"]

theorem run_steady_wander :
    (∀ st ∈ wander, st.OnBoundaries) ∧ (run ⟨['é', '4', 'ß', '5'], 0⟩ wander).offset = 6 ∧
      (run ⟨['é', '4', 'ß', '5'], 0⟩ wander).text = ['é', '4', 'ß', '5'] ∧
      (run ⟨['é', '4', 'ß', '5'], 0⟩ wander).Steady (.seek 1) := by
  have sound : ∀ st ∈ wander, st.OnBoundaries := by
    simp [wander, Step.OnBoundaries, Matcher.search_onBoundaries]
  obtain ⟨same, -, -, -, -, steady⟩ := @run_steady ['é', '4', 'ß', '5'] wander sound
  exact ⟨sound, by decide +kernel, same, steady (.seek 1) trivial⟩

end Tape

end Pegsmith.Parsing
