import Mathlib
import Pegsmith.Proofs.Pattern.Reading

set_option autoImplicit false

namespace Pegsmith.Pattern

def isName (starts : Char → Bool) (name : String) : Bool :=
  match name.toList with
  | [] => false
  | c :: cs => starts c && cs.all continuesName

def wellNamed : Pattern → Bool
  | .terminal kind _ => isName Char.isUpper kind
  | .nonTerminal name => isName Char.isLower name
  | .sequence first second | .choice first second => first.wellNamed && second.wellNamed
  | .zeroOrMore inner | .oneOrMore inner | .optional inner | .group inner | .discard inner =>
      inner.wellNamed

def withoutGroups : Pattern → Pattern
  | .terminal kind decode => .terminal kind decode
  | .nonTerminal name => .nonTerminal name
  | .sequence first second => .sequence first.withoutGroups second.withoutGroups
  | .choice first second => .choice first.withoutGroups second.withoutGroups
  | .zeroOrMore inner => .zeroOrMore inner.withoutGroups
  | .oneOrMore inner => .oneOrMore inner.withoutGroups
  | .optional inner => .optional inner.withoutGroups
  | .group inner => inner.withoutGroups
  | .discard inner => .discard inner.withoutGroups

def enclosed (p : Pattern) (needed : Bool) : Pattern :=
  if needed then .group p else p

/-- The pattern with a group for each pair of brackets that its text has in a place that demands
a level. -/
def grouped (demand : Level) (p : Pattern) : Pattern :=
  enclosed
    (match p with
    | .terminal kind decode => .terminal kind decode
    | .nonTerminal name => .nonTerminal name
    | .sequence first second => .sequence (first.grouped .repetition) (second.grouped .sequence)
    | .choice first second => .choice (first.grouped .sequence) (second.grouped .choice)
    | .zeroOrMore inner => .zeroOrMore (inner.grouped .discard)
    | .oneOrMore inner => .oneOrMore (inner.grouped .discard)
    | .optional inner => .optional (inner.grouped .discard)
    | .group inner => .group (inner.grouped .choice)
    | .discard inner => .discard (inner.grouped .atom))
    (decide (p.level.rank < demand.rank))

@[simp] theorem withoutGroups_enclosed (p : Pattern) (needed : Bool) :
    (p.enclosed needed).withoutGroups = p.withoutGroups := by
  cases needed <;> rfl

theorem withoutGroups_grouped (demand : Level) (p : Pattern) :
    (p.grouped demand).withoutGroups = p.withoutGroups := by
  induction p generalizing demand <;> rw [grouped, withoutGroups_enclosed] <;>
    simp_all [withoutGroups]

theorem Level.not_rank_lt_choice (l : Level) : ¬ l.rank < Level.choice.rank :=
  Nat.not_lt_zero _

theorem Level.rank_le_atom (l : Level) : l.rank ≤ Level.atom.rank := by
  cases l <;> decide

@[simp] theorem bracketed_at_choice (text : String) (l : Level) :
    bracketed text (decide (l.rank < Level.choice.rank)) = text := by
  simp [bracketed, Level.not_rank_lt_choice]

@[simp] theorem enclosed_at_choice (p : Pattern) (l : Level) :
    p.enclosed (decide (l.rank < Level.choice.rank)) = p := by
  simp [enclosed, Level.not_rank_lt_choice]

theorem textAt_eq (demand : Level) (p : Pattern) :
    p.textAt demand = bracketed p.text (decide (p.level.rank < demand.rank)) := by
  rw [text, textAt.eq_def demand, textAt.eq_def .choice, bracketed_at_choice]

theorem grouped_eq (demand : Level) (p : Pattern) :
    p.grouped demand = (p.grouped .choice).enclosed (decide (p.level.rank < demand.rank)) := by
  rw [grouped.eq_def demand, grouped.eq_def .choice, enclosed_at_choice]

theorem level_grouped (p : Pattern) : (p.grouped .choice).level = p.level := by
  cases p <;> rw [grouped, enclosed_at_choice] <;> rfl

theorem textAt_enclosed (demand : Level) (p : Pattern) :
    (p.enclosed (decide (p.level.rank < demand.rank))).textAt demand = p.textAt demand := by
  by_cases looser : p.level.rank < demand.rank
  · have closed : ¬ (group p).level.rank < demand.rank := Nat.not_lt_of_le demand.rank_le_atom
    rw [textAt_eq demand (enclosed _ _), textAt_eq demand p]
    simp [enclosed, looser, closed, bracketed, text, textAt, Level.not_rank_lt_choice]
  · simp [enclosed, looser]

theorem textAt_grouped (demand : Level) {p : Pattern} (same : (p.grouped .choice).text = p.text) :
    (p.grouped demand).textAt demand = p.textAt demand := by
  rw [grouped_eq, ← level_grouped, textAt_enclosed, textAt_eq, textAt_eq demand p, same,
    level_grouped]

theorem text_grouped (p : Pattern) : (p.grouped .choice).text = p.text := by
  induction p with
  | terminal | nonTerminal => simp only [grouped, enclosed_at_choice]
  | sequence first second ihFirst ihSecond | choice first second ihFirst ihSecond =>
    simp only [text, textAt, bracketed_at_choice, grouped, enclosed_at_choice,
      textAt_grouped _ ihFirst, textAt_grouped _ ihSecond]
  | zeroOrMore inner ih | oneOrMore inner ih | optional inner ih | group inner ih
  | discard inner ih =>
    simp only [text, textAt, bracketed_at_choice, grouped, enclosed_at_choice,
      textAt_grouped _ ih]

theorem grouped_of_le {demand : Level} {p : Pattern} (tight : demand.rank ≤ p.level.rank) :
    p.grouped demand = p.grouped .choice := by
  rw [grouped_eq]
  simp [enclosed, Nat.not_lt_of_le tight]

theorem Derivation.grouped_pattern {rule : Rule} (t : Derivation rule) :
    t.pattern.grouped .choice = t.pattern := by
  have placed (demand : Level) {r : Rule} (u : Derivation r) (fits : r.level = demand)
      (ih : u.pattern.grouped .choice = u.pattern) : u.pattern.grouped demand = u.pattern := by
    rw [grouped_of_le (fits ▸ u.rank_le_pattern), ih]
  induction t with
  | branch only ih | item only ih | once only ih | kept only ih | plain only ih => exact ih
  | branches first rest ihFirst ihRest =>
    simp [pattern, grouped, ihRest,
      placed .sequence first rfl ihFirst]
  | items first rest ihFirst ihRest =>
    simp [pattern, grouped,
      placed .repetition first rfl ihFirst, placed .sequence rest rfl ihRest]
  | repeated inner how ih =>
    cases how <;>
      simp [pattern, Repeat.apply, grouped,
        placed .discard inner rfl ih]
  | discarded inner ih =>
    simp [pattern, grouped, placed .atom inner rfl ih]
  | bracketed inner ih => simp [pattern, grouped, ih]
  | terminal | decoded | nonTerminal =>
    simp [pattern, grouped]

theorem Splits.append {cs ds : List Char} {symbols symbols' : List Symbol}
    (front : Splits cs symbols) (apart : ∀ d ∈ ds.head?, continuesName d = false)
    (back : Splits ds symbols') : Splits (cs ++ ds) (symbols ++ symbols') := by
  induction front with
  | nil => exact back
  | blank blank rest ih => exact .blank blank ih
  | mark rest ih => exact .mark ih
  | @name c more cs symbols starts continues longest rest ih =>
    have longest' : ∀ d ∈ (cs ++ ds).head?, continuesName d = false := by
      cases cs with
      | nil => exact apart
      | cons d cs => exact longest
    rw [List.cons_append, List.append_assoc]
    exact .name starts continues longest' ih

def Level.rule : Level → Rule
  | .choice => .choice
  | .sequence => .sequence
  | .repetition => .repetition
  | .discard => .discard
  | .atom => .group

def Writes (rule : Rule) (text : String) (p : Pattern) : Prop :=
  ∃ t : Derivation rule, Splits text.toList t.symbols ∧ t.pattern = p

theorem Level.rank_le_of_ne {l demand : Level} (ne : demand ≠ l)
    (looser : demand.rank ≤ l.rank) : demand.rank ≤ l.rank - 1 := by
  cases demand <;> cases l <;> first | contradiction | decide

theorem Writes.loosened {l demand : Level} {inner : String} {p : Pattern}
    (written : Writes l.rule inner p) (looser : demand.rank ≤ l.rank) :
    Writes demand.rule inner p := by
  by_cases same : demand = l
  · exact same ▸ written
  have le := Level.rank_le_of_ne same looser
  obtain ⟨t, splits, pattern_eq⟩ := written
  -- One level looser is one more production; the rest of the way is shorter.
  cases l with
  | choice => exact absurd (by cases demand <;> simp_all [Level.rank]) same
  | sequence => exact Writes.loosened (l := .choice) ⟨.branch t, splits, pattern_eq⟩ le
  | repetition => exact Writes.loosened (l := .sequence) ⟨.item t, splits, pattern_eq⟩ le
  | discard => exact Writes.loosened (l := .repetition) ⟨.once t, splits, pattern_eq⟩ le
  | atom => exact Writes.loosened (l := .discard) ⟨.kept t, splits, pattern_eq⟩ le
termination_by l.rank
decreasing_by all_goals subst_vars; decide

namespace Writes

theorem of_splits {rule : Rule} {text : String} {cs : List Char} (t : Derivation rule)
    (chars : text.toList = cs) (splits : Splits cs t.symbols) : Writes rule text t.pattern :=
  ⟨t, chars ▸ splits, rfl⟩

variable {demand : Level} {first second inner : String} {p q : Pattern}

theorem group (written : Writes .choice inner p) :
    Writes .group ("(" ++ inner ++ ")") (.group p) := by
  obtain ⟨t, splits, rfl⟩ := written
  have closed := splits.append (by simp [Mark.not_continuesName]) (.mark (m := .closeParen) .nil)
  have whole : Splits ('(' :: (inner.toList ++ [')'])) (Derivation.bracketed t).symbols :=
    .mark (m := .openParen) closed
  exact of_splits (.bracketed t) (by simp) whole

theorem placed (written : Writes p.level.rule inner q) :
    Writes demand.rule (bracketed inner (decide (p.level.rank < demand.rank)))
      (q.enclosed (decide (p.level.rank < demand.rank))) := by
  by_cases looser : p.level.rank < demand.rank
  · have whole : Writes Level.choice.rule inner q := written.loosened (Nat.zero_le _)
    have group : Writes Level.atom.rule ("(" ++ inner ++ ")") (.group q) := whole.group
    simpa [bracketed, enclosed, looser] using group.loosened demand.rank_le_atom
  · simpa [bracketed, enclosed, looser] using written.loosened (Nat.le_of_not_lt looser)

theorem choice (front : Writes .sequence first p) (back : Writes .choice second q) :
    Writes .choice (first ++ " | " ++ second) (.choice p q) := by
  obtain ⟨t, splits, rfl⟩ := front
  obtain ⟨u, splits', rfl⟩ := back
  have bar : Splits (' ' :: '|' :: ' ' :: second.toList) (.mark .bar :: u.symbols) :=
    .blank rfl (.mark (m := .bar) (.blank rfl splits'))
  have whole : Splits (first.toList ++ ' ' :: '|' :: ' ' :: second.toList)
      (Derivation.branches t u).symbols :=
    splits.append (by simp [continuesName]) bar
  exact of_splits (.branches t u) (by simp) whole

theorem sequence (front : Writes .repetition first p) (back : Writes .sequence second q) :
    Writes .sequence (first ++ " " ++ second) (.sequence p q) := by
  obtain ⟨t, splits, rfl⟩ := front
  obtain ⟨u, splits', rfl⟩ := back
  have whole : Splits (first.toList ++ ' ' :: second.toList) (Derivation.items t u).symbols :=
    splits.append (by simp [continuesName]) (.blank rfl splits')
  exact of_splits (.items t u) (by simp) whole

theorem repeated (written : Writes .discard inner p) (how : Repeat) :
    Writes .repetition (inner ++ how.mark.char.toString) (how.apply p) := by
  obtain ⟨t, splits, rfl⟩ := written
  have whole : Splits (inner.toList ++ [how.mark.char]) (Derivation.repeated t how).symbols :=
    splits.append (by simp [Mark.not_continuesName]) (.mark .nil)
  exact of_splits (.repeated t how) (by simp) whole

theorem discard (written : Writes .group inner p) :
    Writes .discard ("@" ++ inner) (.discard p) := by
  obtain ⟨t, splits, rfl⟩ := written
  have whole : Splits ('@' :: inner.toList) (Derivation.discarded t).symbols :=
    .mark (m := .discard) splits
  exact of_splits (.discarded t) (by simp) whole

end Writes

theorem splits_of_isName {starts : Char → Bool} {name : String} (named : isName starts name = true)
    (letter : ∀ c, starts c = true → startsName c = true) :
    Splits name.toList [.name name.toList] ∧ name.toList.head?.any starts = true := by
  unfold isName at named
  cases chars : name.toList with
  | nil => simp [chars] at named
  | cons c cs =>
    obtain ⟨first, rest⟩ : starts c = true ∧ ∀ d ∈ cs, continuesName d = true := by
      simpa [chars] using named
    have whole := Splits.name (letter c first) rest (by simp) .nil
    exact ⟨by simpa using whole, by simpa using first⟩

theorem startsName_of_isUpper {c : Char} (upper : c.isUpper = true) : startsName c = true := by
  simp [startsName, Char.isAlpha, upper]

theorem startsName_of_isLower {c : Char} (lower : c.isLower = true) : startsName c = true := by
  simp [startsName, Char.isAlpha, lower]

theorem writes_terminal {kind : String} (named : isName Char.isUpper kind = true)
    (decode : Bool) :
    Writes .group ((if decode then "$" else "") ++ kind) (.terminal kind decode) := by
  obtain ⟨splits, name⟩ := splits_of_isName named fun _ => startsName_of_isUpper
  cases decode with
  | false =>
    have written := Writes.of_splits (.plain (.terminal _ name)) rfl splits
    simpa [Derivation.pattern] using written
  | true =>
    have marked : Splits ('$' :: kind.toList) [.mark .decode, .name kind.toList] :=
      .mark (m := .decode) splits
    have written : Writes .group ("$" ++ kind) _ :=
      .of_splits (.plain (.decoded _ name)) (by simp) marked
    simpa [Derivation.pattern] using written

theorem writes_nonTerminal {name : String} (named : isName Char.isLower name = true) :
    Writes .group name (.nonTerminal name) := by
  obtain ⟨splits, lower⟩ := splits_of_isName named fun _ => startsName_of_isLower
  have written := Writes.of_splits (.plain (.nonTerminal _ lower)) rfl splits
  simpa [Derivation.pattern] using written

theorem writes_textAt (demand : Level) {p : Pattern}
    (written : Writes p.level.rule p.text (p.grouped .choice)) :
    Writes demand.rule (p.textAt demand) (p.grouped demand) := by
  rw [textAt_eq, grouped_eq]
  exact written.placed

theorem writes_text {p : Pattern} (names : p.wellNamed = true) :
    Writes p.level.rule p.text (p.grouped .choice) := by
  induction p <;>
    simp only [text, textAt, bracketed_at_choice, grouped, enclosed_at_choice]
  case terminal kind decode => exact writes_terminal names decode
  case nonTerminal name => exact writes_nonTerminal names
  case sequence first second ihFirst ihSecond =>
    simp only [wellNamed, Bool.and_eq_true] at names
    exact .sequence (writes_textAt .repetition (ihFirst names.1))
      (writes_textAt .sequence (ihSecond names.2))
  case choice first second ihFirst ihSecond =>
    simp only [wellNamed, Bool.and_eq_true] at names
    exact .choice (writes_textAt .sequence (ihFirst names.1))
      (writes_textAt .choice (ihSecond names.2))
  case zeroOrMore inner ih => exact .repeated (writes_textAt .discard (ih names)) .zeroOrMore
  case oneOrMore inner ih => exact .repeated (writes_textAt .discard (ih names)) .oneOrMore
  case optional inner ih => exact .repeated (writes_textAt .discard (ih names)) .optional
  case group inner ih => exact .group (writes_textAt .choice (ih names))
  case discard inner ih => exact .discard (writes_textAt .atom (ih names))

/-- The text of a pattern reads back, up to groups, as the pattern, and exactly as the pattern if
that is what some text is read as. -/
theorem parse_text {p : Pattern} (names : p.wellNamed = true) :
    ∃ q, parse p.text = .ok q ∧ q.withoutGroups = p.withoutGroups ∧ q.text = p.text ∧
      (q = p ↔ ∃ source, parse source = .ok p) := by
  obtain ⟨t, splits, pattern_eq⟩ := writes_textAt .choice (writes_text names)
  have read : parse p.text = .ok (p.grouped .choice) := pattern_eq ▸ parse_of_splits t splits
  refine ⟨p.grouped .choice, read, withoutGroups_grouped _ _, text_grouped p, fun same => ?_, ?_⟩
  · exact ⟨p.text, read.trans (congrArg Except.ok same)⟩
  · rintro ⟨source, read⟩
    obtain ⟨u, -, rfl⟩ := derives_of_parse read
    exact u.grouped_pattern

/-- Nothing reads as this one: sequences and choices nest to the left, and what repeats is repeated
and discarded without a group. -/
theorem parse_text_nested :
    let p : Pattern :=
      .choice (.choice (.sequence (.sequence (.terminal "A" true) (.nonTerminal "b"))
        (.discard (.oneOrMore (.zeroOrMore (.nonTerminal "c_1"))))) (.nonTerminal "d"))
        (.optional (.choice (.terminal "E2" false) (.nonTerminal "f")))
    p.text = "(($A b) @((c_1*)+) | d) | (E2 | f)?" ∧
    ∃ q, parse p.text = .ok q ∧ q.withoutGroups = p.withoutGroups ∧ q.text = p.text ∧
      (q = p ↔ ∃ source, parse source = .ok p) := by
  intro p
  exact ⟨by decide +kernel, parse_text (p := p) (by decide +kernel)⟩

end Pegsmith.Pattern
