import Mathlib
import Pegsmith.Proofs.Pattern.Lexemes

set_option autoImplicit false

namespace Pegsmith.Pattern

/-- The text ends inside a name, so that a letter or a digit behind it belongs to this name. -/
def endsInName (front : List Char) : Bool :=
  (front.reverse.takeWhile continuesName).any startsName

/-- Behind this text a lexeme must start with the character, and none does. -/
def startsNone (front : List Char) (c : Char) : Bool :=
  !Text.isBlank c && !startsName c && (Mark.ofChar? c).isNone &&
    !(continuesName c && endsInName front)

def Startable (front cs : List Char) : Prop :=
  ∀ before c after, cs = before ++ c :: after → startsNone (front ++ before) c = false

theorem startable_nil (front : List Char) : Startable front [] := by
  intro before c after split
  simp at split

theorem startable_cons {front cs : List Char} {c : Char} :
    Startable front (c :: cs) ↔ startsNone front c = false ∧ Startable (front ++ [c]) cs := by
  constructor
  · intro all
    refine ⟨by simpa using all [] c cs rfl, fun before d after split => ?_⟩
    simpa using all (c :: before) d after (by simp [split])
  · rintro ⟨first, rest⟩ before d after split
    cases before with
    | nil =>
      cases split
      simpa using first
    | cons e before =>
      cases split
      simpa using rest before d after rfl

theorem startable_append {front xs ys : List Char} :
    Startable front (xs ++ ys) ↔ Startable front xs ∧ Startable (front ++ xs) ys := by
  induction xs generalizing front with
  | nil => simp [startable_nil]
  | cons c xs ih => simp [startable_cons, ih, and_assoc]

theorem endsInName_cons {front more : List Char} {c : Char} (starts : startsName c = true)
    (continues : ∀ d ∈ more, continuesName d = true) : endsInName (front ++ c :: more) = true := by
  have run : ∀ d ∈ (c :: more).reverse, continuesName d = true := by
    simpa [or_imp, forall_and, continuesName_of_startsName starts] using continues
  rw [endsInName, List.reverse_append, List.takeWhile_append_of_pos run]
  simp [starts]

theorem endsInName_snoc {front : List Char} {c : Char} (apart : continuesName c = false) :
    endsInName (front ++ [c]) = false := by
  simp [endsInName, apart]

theorem startable_name {front more : List Char} {c : Char} (starts : startsName c = true)
    (continues : ∀ d ∈ more, continuesName d = true) : Startable front (c :: more) := by
  rw [startable_cons]
  refine ⟨by simp [startsNone, starts], ?_⟩
  intro before d after split
  rw [split] at continues
  have inName : endsInName (front ++ c :: before) = true :=
    endsInName_cons starts fun e member => continues e (by simp [member])
  have goesOn : continuesName d = true := continues d (by simp)
  simp [startsNone, goesOn, inName]

def Lexeme.StandsIn (source : List Char) (l : Lexeme) : Prop :=
  ∃ front back, source = front ++ (l.symbol.chars ++ back) ∧ Text.byteSize front = l.start

inductive Lexed (front cs : List Char) : Except Error (List Lexeme) → Prop where
  | ok {ls : List Lexeme} (stands : ∀ l ∈ ls, l.StandsIn (front ++ cs))
      (clear : Startable front cs) : Lexed front cs (.ok ls)
  | error {before after : List Char} {c : Char} (split : cs = before ++ c :: after)
      (clear : Startable front before) (stuck : startsNone (front ++ before) c = true) :
      Lexed front cs (.error ⟨.unexpectedCharacter c,
        ⟨Text.byteSize (front ++ before), Text.byteSize (front ++ before) + c.utf8Size⟩⟩)

namespace Lexed

variable {front cs : List Char} {result : Except Error (List Lexeme)}

theorem behind {read : List Char} (clear : Startable front read)
    (rest : Lexed (front ++ read) cs result) : Lexed front (read ++ cs) result := by
  cases rest with
  | ok stands clear' =>
    exact .ok (by simpa using stands) (startable_append.mpr ⟨clear, clear'⟩)
  | @error before after c split clear' stuck =>
    have whole : read ++ cs = (read ++ before) ++ c :: after := by simp [split]
    have located := Lexed.error whole (startable_append.mpr ⟨clear, clear'⟩) (by simpa using stuck)
    simpa using located

theorem skip {c : Char} (clear : startsNone front c = false)
    (rest : Lexed (front ++ [c]) cs result) : Lexed front (c :: cs) result :=
  behind (startable_cons.mpr ⟨clear, startable_nil _⟩) rest

theorem cons {l : Lexeme} (stands : l.StandsIn (front ++ cs)) (rest : Lexed front cs result) :
    Lexed front cs (result.map (l :: ·)) := by
  cases rest with
  | ok others clear => exact .ok (List.forall_mem_cons.mpr ⟨stands, others⟩) clear
  | error split clear stuck => exact .error split clear stuck

end Lexed

theorem lexed_lex (front cs : List Char)
    (apart : ∀ d ∈ cs.head?, continuesName d = true → endsInName front = false) :
    Lexed front cs (lex (Text.byteSize front) cs) := by
  match cs with
  | [] =>
    rw [lex]
    exact .ok (by simp) (startable_nil front)
  | c :: cs =>
    have next : Text.byteSize front + c.utf8Size = Text.byteSize (front ++ [c]) := by simp
    rw [lex]
    by_cases blank : Text.isBlank c = true
    · have solid : continuesName c = false := by
        by_contra goesOn
        simp [not_blank_of_continuesName (by simpa using goesOn)] at blank
      rw [if_pos blank, next]
      apply Lexed.skip
      · simp [startsNone, blank]
      · exact lexed_lex (front ++ [c]) cs fun d _ _ => endsInName_snoc solid
    rw [if_neg blank]
    by_cases starts : startsName c = true
    · have continues : ∀ d ∈ cs.takeWhile continuesName, continuesName d = true :=
        fun d => List.mem_takeWhile_imp
      have size : Text.byteSize front + c.utf8Size + Text.byteSize (cs.takeWhile continuesName) =
          Text.byteSize (front ++ c :: cs.takeWhile continuesName) := by
        simp [Nat.add_assoc]
      have whole : c :: cs = (c :: cs.takeWhile continuesName) ++ cs.dropWhile continuesName := by
        simp
      simp only [if_pos starts, size]
      have rest := lexed_lex (front ++ c :: cs.takeWhile continuesName)
        (cs.dropWhile continuesName) fun d first goesOn => by
          simp [not_continuesName_head cs d first] at goesOn
      have stands : Lexeme.StandsIn (front ++ (c :: cs))
          ⟨.name (c :: cs.takeWhile continuesName), Text.byteSize front⟩ :=
        ⟨front, cs.dropWhile continuesName, by rw [whole]; rfl, rfl⟩
      apply Lexed.cons stands
      rw [whole]
      exact .behind (startable_name starts continues) rest
    · rw [if_neg starts]
      cases marks : Mark.ofChar? c with
      | none =>
        -- A letter or digit here would belong to a name further in front.
        have stuck : startsNone (front ++ []) c = true := by
          have outside := apart c rfl
          cases goesOn : continuesName c <;> simp_all [startsNone]
        have whole : c :: cs = [] ++ c :: cs := rfl
        simpa using Lexed.error whole (startable_nil front) stuck
      | some m =>
        obtain rfl := Mark.char_of_ofChar? marks
        have stands : Lexeme.StandsIn (front ++ m.char :: cs) ⟨.mark m, Text.byteSize front⟩ :=
          ⟨front, cs, rfl, rfl⟩
        apply Lexed.cons stands
        rw [next]
        apply Lexed.skip
        · simp [startsNone]
        · exact lexed_lex (front ++ [m.char]) cs fun d _ _ => endsInName_snoc m.not_continuesName
termination_by cs.length
decreasing_by
  · simp
  · simpa using List.length_dropWhile_le ..
  · simp

theorem lexed_source (source : List Char) : Lexed [] source (lex 0 source) :=
  lexed_lex [] source fun _ _ _ => rfl

theorem slice?_of_split {source : String} {front cs back : List Char}
    (split : source.toList = front ++ (cs ++ back)) :
    Span.slice? ⟨Text.byteSize front, Text.byteSize front + Text.byteSize cs⟩ source =
      some (String.ofList cs) := by
  rw [Span.slice?, split, Text.slice?_append]
  rfl

theorem Lexeme.StandsIn.slice? {source : String} {l : Lexeme} (stands : l.StandsIn source.toList) :
    l.span.slice? source = some l.text := by
  obtain ⟨front, back, split, size⟩ := stands
  rw [span, ← size]
  exact slice?_of_split split

theorem Lexeme.StandsIn.stop_le {source : List Char} {l : Lexeme} (stands : l.StandsIn source) :
    l.span.stop ≤ Text.byteSize source := by
  obtain ⟨front, back, split, size⟩ := stands
  simp only [span, ← size, split, Text.byteSize_append]
  omega

end Pegsmith.Pattern
