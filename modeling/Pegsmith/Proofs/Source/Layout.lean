import Mathlib
import Pegsmith.Proofs.Source.Spacing

set_option autoImplicit false

namespace Pegsmith.Source

inductive Leaf where
  | word (text : String)
  | lifetime (name : String)
  | literal (kind : LiteralKind) (text : String)

inductive Piece where
  | leaf (l : Leaf)
  | mark (c : Char)
  | pair (c d : Char)
  | group (delimiter : Delimiter) (inner : List Piece)

theorem forall_mem_of_all {α : Type} {P : α → Prop} [DecidablePred P] {l : List α}
    (all : l.all fun a => decide (P a)) : ∀ a ∈ l, P a := by
  simpa using all

def blanks : List Char :=
  [' ', '\n', '\t', '\r']

def wordEnds : List Char :=
  blanks ++ ['<', '>', ',', ':', ';', '=', '*', '&', '(', ')', '[', ']']

def Apart (cs : List Char) : Prop :=
  ∀ c ∈ cs.head?, c ∈ wordEnds

def gluing : List Char :=
  ['<', '(', '[', '&', ',', ':']

/-- What the printer writes as it is, apart from a word behind it. -/
structure IsSolid (text : String) : Prop where
  noBlank : ' ' ∉ text.toList
  noComma : ',' ∉ text.toList
  ends : ∃ c ∈ text.toList.getLast?, c ∉ gluing

def startsWord (c : Char) : Bool :=
  Text.startsIdentifier c && !isSourceBlank c && c.toNat != 0xFEFF

def isWord (word : String) : Bool :=
  word.toList.head?.any startsWord && word.toList.all Text.continuesIdentifier

def isLiteral (kind : LiteralKind) (text : String) : Bool :=
  let cs := text.toList
  !cs.contains ' ' && !cs.contains ',' && (cs.getLast?.any fun c => !gluing.contains c) &&
    scanLiteral cs == some (kind, cs, [])

def typeMarks : List Char :=
  ['<', '>', ':', ',', '&', '*', '+', '-', '=', ';', '!', '?']

def typePairs : List (Char × Char) :=
  [(':', ':'), ('-', '>')]

namespace Leaf

def isValid : Leaf → Bool
  | .word w => isWord w
  | .lifetime name => isWord name
  | .literal kind text => isLiteral kind text

def text : Leaf → String
  | .word w => w
  | .lifetime name => "'" ++ name
  | .literal _ text => text

def tree : Leaf → Tree
  | .word w => .word w
  | .lifetime name => .lifetime name
  | .literal kind text => .literal kind text

end Leaf

mutual

def Piece.text : Piece → String
  | .leaf l => l.text
  | .mark c => String.ofList [c]
  | .pair c d => String.ofList [c, d]
  | .group d inner => enclosed d (spaced (texts inner))

def texts : List Piece → List String
  | [] => []
  | p :: ps => p.text :: texts ps

end

def textOf (ps : List Piece) : String :=
  spaced (texts ps)

inductive Lexical : List Piece → Prop where
  | nil : Lexical []
  | leaf {l : Leaf} {ps : List Piece} (valid : l.isValid) (rest : Lexical ps) :
      Lexical (.leaf l :: ps)
  | mark {c : Char} {ps : List Piece} (known : c ∈ typeMarks) (rest : Lexical ps) :
      Lexical (.mark c :: ps)
  | pair {c d : Char} {ps : List Piece} (known : (c, d) ∈ typePairs) (rest : Lexical ps) :
      Lexical (.pair c d :: ps)
  | group {d : Delimiter} {inner ps : List Piece} (bare : d ≠ .brace) (inside : Lexical inner)
      (rest : Lexical ps) : Lexical (.group d inner :: ps)

theorem texts_append (ps qs : List Piece) : texts (ps ++ qs) = texts ps ++ texts qs := by
  induction ps with
  | nil => rfl
  | cons p ps ih => rw [List.cons_append, texts, texts, ih, List.cons_append]

theorem Lexical.append {ps qs : List Piece} (first : Lexical ps) (second : Lexical qs) :
    Lexical (ps ++ qs) := by
  induction first with
  | nil => exact second
  | leaf valid _ ih => exact .leaf valid ih
  | mark known _ ih => exact .mark known ih
  | pair known _ ih => exact .pair known ih
  | group bare inside _ _ ih => exact .group bare inside ih

def openChar : Delimiter → Char
  | .paren => '('
  | .bracket => '['
  | .brace => '\x7b'

def closeChar : Delimiter → Char
  | .paren => ')'
  | .bracket => ']'
  | .brace => '\x7d'

theorem led_textOf_cons (p : Piece) (ps : List Piece) :
    led (textOf (p :: ps)) = led p.text ++ led (textOf ps) := by
  rw [textOf, textOf, led_spaced, led_spaced, texts, List.flatMap_cons]

theorem led_textOf_append (ps qs : List Piece) :
    led (textOf (ps ++ qs)) = led (textOf ps) ++ led (textOf qs) := by
  rw [textOf, textOf, textOf, led_spaced, led_spaced, led_spaced, texts_append,
    List.flatMap_append]

theorem led_enclosed {d : Delimiter} (bare : d ≠ .brace) (inner : String) :
    led (enclosed d inner) = ' ' :: openChar d :: ((led inner).tail ++ [closeChar d]) := by
  rw [tail_led]
  cases d with
  | paren => simp [led, enclosed, openChar, closeChar]
  | bracket => simp [led, enclosed, openChar, closeChar]
  | brace => exact absurd rfl bare

theorem led_group {d : Delimiter} (bare : d ≠ .brace) (inner : List Piece) :
    led (Piece.group d inner).text =
      ' ' :: openChar d :: ((led (textOf inner)).tail ++ [closeChar d]) := by
  rw [Piece.text, led_enclosed bare, textOf]

inductive Laid : List Piece → List Char → Prop where
  | nil : Laid [] []
  | blank {c : Char} {ps : List Piece} {cs : List Char} (known : c ∈ blanks) (rest : Laid ps cs) :
      Laid ps (c :: cs)
  | leaf {l : Leaf} {ps : List Piece} {cs : List Char} (valid : l.isValid) (apart : Apart cs)
      (rest : Laid ps cs) : Laid (.leaf l :: ps) (l.text.toList ++ cs)
  | mark {c : Char} {ps : List Piece} {cs : List Char} (known : c ∈ typeMarks)
      (rest : Laid ps cs) : Laid (.mark c :: ps) (c :: cs)
  | pair {c d : Char} {ps : List Piece} {cs : List Char} (known : (c, d) ∈ typePairs)
      (rest : Laid ps cs) : Laid (.pair c d :: ps) (c :: d :: cs)
  | group {d : Delimiter} {inner ps : List Piece} {is cs : List Char} (bare : d ≠ .brace)
      (inside : Laid inner is) (rest : Laid ps cs) :
      Laid (.group d inner :: ps) (openChar d :: (is ++ closeChar d :: cs))

theorem isWord_iff {w : String} : isWord w ↔
    ∃ c cs, w.toList = c :: cs ∧ startsWord c ∧ ∀ x ∈ c :: cs, Text.continuesIdentifier x := by
  rw [isWord]
  cases w.toList with
  | nil => simp
  | cons c cs => simp

theorem isSolid_of_word {quote : List Char} {w text : String} (word : isWord w)
    (spelled : text.toList = quote ++ w.toList) (quoted : quote = [] ∨ quote = ['\'']) :
    IsSolid text := by
  obtain ⟨c, cs, same, -, all⟩ := isWord_iff.mp word
  have inside (x : Char) (outside : Text.continuesIdentifier x = false) : x ∉ c :: cs :=
    fun member => by
      have continues := all x member
      rw [outside] at continues
      cases continues
  have outside : ∀ x ∈ [' ', ','] ++ gluing, Text.continuesIdentifier x = false :=
    forall_mem_of_all (by decide)
  have bare (x : Char) (member : x ∈ [' ', ',']) : x ∉ text.toList := by
    rw [spelled, same, List.mem_append, not_or]
    refine ⟨?_, inside x (outside x (List.mem_append_left _ member))⟩
    obtain rfl | rfl := quoted
    · simp
    · rintro quote
      obtain rfl := List.mem_singleton.mp quote
      exact absurd member (by decide)
  obtain ⟨last, ends⟩ : ∃ last, (c :: cs).getLast? = some last :=
    ⟨_, List.getLast?_eq_some_getLast (List.cons_ne_nil c cs)⟩
  refine ⟨bare ' ' (by simp), bare ',' (by simp), last, ?_, fun glued => ?_⟩
  · rw [spelled, same, List.getLast?_append_of_ne_nil _ (List.cons_ne_nil c cs), ends]
    rfl
  · exact inside last (outside last (List.mem_append_right _ glued)) (List.mem_of_getLast? ends)

theorem isLiteral_iff {kind : LiteralKind} {text : String} : isLiteral kind text ↔
    IsSolid text ∧ scanLiteral text.toList = some (kind, text.toList, []) := by
  rw [isLiteral]
  simp only [Bool.and_eq_true, Bool.not_eq_true', beq_iff_eq, List.contains_eq_mem,
    decide_eq_false_iff_not, Option.any_eq_true]
  exact ⟨fun ⟨⟨⟨blank, comma⟩, ends⟩, scan⟩ => ⟨⟨blank, comma, ends⟩, scan⟩,
    fun ⟨⟨blank, comma, ends⟩, scan⟩ => ⟨⟨⟨blank, comma⟩, ends⟩, scan⟩⟩

theorem Leaf.isSolid {l : Leaf} (valid : l.isValid) : IsSolid l.text := by
  cases l with
  | word w => exact isSolid_of_word valid (List.nil_append _).symm (.inl rfl)
  | lifetime name =>
    exact isSolid_of_word valid (by rw [text, String.toList_append]; rfl) (.inr rfl)
  | literal kind text => exact (isLiteral_iff.mp valid).1

namespace IsSolid

variable {text : String} (solid : IsSolid text)
include solid

theorem reverse_eq_cons : ∃ c more, text.toList.reverse = c :: more ∧ c ∉ gluing := by
  obtain ⟨c, last, plain⟩ := solid.ends
  obtain ⟨front, whole⟩ := List.getLast?_eq_some_iff.mp last
  exact ⟨c, front.reverse, by rw [whole]; simp, plain⟩

theorem toList_ne_nil : text.toList ≠ [] := by
  obtain ⟨c, more, reversed, -⟩ := solid.reverse_eq_cons
  intro empty
  rw [empty] at reversed
  cases reversed

end IsSolid

def IsGap (cs : List Char) : Prop :=
  cs = [] ∨ cs = [' ']

theorem IsGap.reverse {cs : List Char} (small : IsGap cs) : cs.reverse = cs := by
  obtain rfl | rfl := small <;> rfl

theorem Laid.gap {ps : List Piece} {gap cs : List Char} (rest : Laid ps cs) (small : IsGap gap) :
    Laid ps (gap ++ cs) := by
  obtain rfl | rfl := small
  · exact rest
  · exact .blank (by decide) rest

theorem spaceComma_eq (c : Char) : ∃ gap, HostType.spaceComma c = c :: gap ∧ IsGap gap := by
  rw [HostType.spaceComma]
  split
  · next comma => exact ⟨[' '], by rw [eq_of_beq comma], .inr rfl⟩
  · exact ⟨[], rfl, .inl rfl⟩

theorem flatMap_spaceComma {cs : List Char} (solid : ',' ∉ cs) :
    cs.flatMap HostType.spaceComma = cs := by
  induction cs with
  | nil => rfl
  | cons c cs ih =>
    rw [List.mem_cons, not_or] at solid
    rw [List.flatMap_cons, ih solid.2, HostType.spaceComma, if_neg (by simpa using Ne.symm solid.1)]
    rfl

theorem Apart.spaceCommas {cs : List Char} (apart : Apart cs) :
    Apart (cs.flatMap HostType.spaceComma) := by
  cases cs with
  | nil => exact apart
  | cons c cs =>
    obtain ⟨gap, same, -⟩ := spaceComma_eq c
    rw [List.flatMap_cons, same]
    exact apart

theorem Laid.spaceCommas {ps : List Piece} {cs : List Char} (laid : Laid ps cs) :
    Laid ps (cs.flatMap HostType.spaceComma) := by
  induction laid with
  | nil => exact .nil
  | @blank c _ cs known _ ih =>
    have plain : ∀ c ∈ blanks, c ≠ ',' := forall_mem_of_all (by decide)
    rw [List.flatMap_cons, HostType.spaceComma, if_neg (by simpa using plain c known)]
    exact .blank known ih
  | @leaf l ps cs valid apart _ ih =>
    rw [List.flatMap_append, flatMap_spaceComma (l.isSolid valid).noComma]
    exact .leaf valid apart.spaceCommas ih
  | @mark c ps cs known _ ih =>
    obtain ⟨gap, same, small⟩ := spaceComma_eq c
    rw [List.flatMap_cons, same]
    exact .mark known (ih.gap small)
  | @pair c d ps cs known _ ih =>
    have plain : ∀ p ∈ typePairs, p.1 ≠ ',' ∧ p.2 ≠ ',' := by decide
    obtain ⟨first, second⟩ := plain (c, d) known
    rw [List.flatMap_cons, List.flatMap_cons, HostType.spaceComma, HostType.spaceComma,
      if_neg (by simpa using first), if_neg (by simpa using second)]
    exact .pair known ih
  | @group d inner ps is cs bare _ _ ihInner ih =>
    have outer : openChar d ≠ ',' ∧ closeChar d ≠ ',' := by cases d <;> decide
    rw [List.flatMap_cons, List.flatMap_append, List.flatMap_cons, HostType.spaceComma,
      HostType.spaceComma, if_neg (by simpa using outer.1), if_neg (by simpa using outer.2)]
    exact .group bare ihInner ih

theorem mem_wordEnds_of_joins {d c : Char} {more piece : List Char}
    (joined : HostType.joins (d :: more) (String.ofList (c :: piece))) (plain : d ∉ gluing) :
    c ∈ wordEnds := by
  rw [HostType.joins, Bool.or_eq_true, Bool.or_eq_true, List.contains_iff_mem] at joined
  obtain (known | opened) | rooted := joined
  · have starts : ∀ text ∈ ["<", ">", ",", "::", ")", "]"],
        text.toList.head?.all fun x => decide (x ∈ wordEnds) := by decide +kernel
    simpa using starts _ known
  · have glued : ∀ x ∈ ['<', '(', '[', '&', ','], x ∈ gluing := forall_mem_of_all (by decide)
    exact absurd (glued d (List.contains_iff_mem.mp opened)) plain
  · obtain ⟨_, same⟩ := List.isPrefixOf_iff_prefix.mp rooted
    exact absurd (by rw [← (List.cons.inj same).1]; decide) plain

def EndsInWord (before : List Char) : Prop :=
  ∃ d more, before = d :: more ∧ d ∉ gluing

theorem written_blank_cons (before : List Char) {c : Char} (solid : c ≠ ' ') (rest : List Char) :
    ∃ gap, IsGap gap ∧
      HostType.written before (' ' :: c :: rest) =
        gap ++ c :: HostType.written (c :: (gap ++ before)) rest ∧
      (EndsInWord before → ∀ behind, Apart (gap ++ c :: behind)) := by
  have first : (c :: rest).takeWhile (· != ' ') = c :: rest.takeWhile (· != ' ') :=
    List.takeWhile_cons_of_pos (by simpa using solid)
  have kept (before : List Char) :
      HostType.written before (c :: rest) = c :: HostType.written (c :: before) rest := by
    rw [HostType.written, if_neg solid]
  rw [HostType.written, if_pos rfl, first, kept, kept]
  by_cases dropped : HostType.joins before (String.ofList (c :: rest.takeWhile (· != ' ')))
  · rw [if_pos dropped]
    refine ⟨[], .inl rfl, rfl, ?_⟩
    rintro ⟨d, more, rfl, word⟩ behind
    simpa [Apart] using mem_wordEnds_of_joins dropped word
  · rw [if_neg dropped]
    exact ⟨[' '], .inr rfl, rfl, fun _ _ => by simp [Apart, wordEnds, blanks]⟩

theorem written_led_of_open {d : Delimiter} (bare : d ≠ .brace) (before : List Char) (text : String)
    (rest : List Char) :
    HostType.written (openChar d :: before) (led text ++ rest) =
      HostType.written (openChar d :: before) ((led text).tail ++ rest) := by
  have opens (piece : String) : HostType.joins (openChar d :: before) piece := by
    cases d with
    | paren => exact Bool.or_eq_true_iff.mpr (.inl (Bool.or_eq_true_iff.mpr (.inr rfl)))
    | bracket => exact Bool.or_eq_true_iff.mpr (.inl (Bool.or_eq_true_iff.mpr (.inr rfl)))
    | brace => exact absurd rfl bare
  by_cases empty : text = ""
  · rw [empty]
    rfl
  · rw [led_of_ne empty, List.cons_append, HostType.written, if_pos rfl, if_pos (opens _)]
    rfl

theorem written_textOf {ps : List Piece} (lexical : Lexical ps) (before rest : List Char) :
    ∃ out, HostType.written before (led (textOf ps) ++ rest) =
        out ++ HostType.written (out.reverse ++ before) rest ∧
      Laid ps out ∧ (EndsInWord before → Apart out) := by
  -- The blank in front of a piece stays or goes, depending on what has been written before. It goes
  -- behind a word only in front of what ends the word by itself.
  induction lexical generalizing before rest with
  | nil => exact ⟨[], rfl, .nil, fun _ => nofun⟩
  | @leaf l ps valid _ ih =>
    have solid := (l.isSolid valid).noBlank
    obtain ⟨c, cs, same⟩ := List.exists_cons_of_ne_nil (l.isSolid valid).toList_ne_nil
    obtain ⟨d, more, reversed, word⟩ := (l.isSolid valid).reverse_eq_cons
    rw [same, List.mem_cons, not_or] at solid
    obtain ⟨gap, small, step, apart⟩ :=
      written_blank_cons before (Ne.symm solid.1) (cs ++ (led (textOf ps) ++ rest))
    have back : l.text.toList.reverse ++ (gap ++ before) = cs.reverse ++ c :: (gap ++ before) := by
      rw [same, List.reverse_cons, List.append_assoc, List.singleton_append]
    obtain ⟨out, later, laid, parted⟩ := ih (l.text.toList.reverse ++ (gap ++ before)) rest
    have tail := parted ⟨d, more ++ (gap ++ before), by rw [reversed, List.cons_append], word⟩
    refine ⟨gap ++ (l.text.toList ++ out), ?_, (Laid.leaf valid tail laid).gap small, ?_⟩
    · have spelled : led (textOf (.leaf l :: ps)) ++ rest =
          ' ' :: c :: (cs ++ (led (textOf ps) ++ rest)) := by
        simp [led_textOf_cons, Piece.text, led_of_toList same]
      rw [spelled, step, HostType.written_append solid.2, ← back, later, same]
      simp [small.reverse]
    · rw [same]
      exact fun word => apart word (cs ++ out)
  | @mark c ps known _ ih =>
    have solid : ∀ c ∈ typeMarks, c ≠ ' ' := forall_mem_of_all (by decide)
    obtain ⟨gap, small, step, apart⟩ :=
      written_blank_cons before (solid c known) (led (textOf ps) ++ rest)
    obtain ⟨out, later, laid, -⟩ := ih (c :: (gap ++ before)) rest
    refine ⟨gap ++ c :: out, ?_, (Laid.mark known laid).gap small, fun word => apart word out⟩
    have spelled : led (textOf (.mark c :: ps)) ++ rest =
        ' ' :: c :: (led (textOf ps) ++ rest) := by
      rw [led_textOf_cons, Piece.text, led_of_toList String.toList_ofList]
      rfl
    rw [spelled, step, later]
    simp [small.reverse]
  | @pair c d ps known _ ih =>
    have solid : ∀ p ∈ typePairs, p.1 ≠ ' ' ∧ p.2 ≠ ' ' := by decide
    have first : c ≠ ' ' := (solid (c, d) known).1
    have second : d ≠ ' ' := (solid (c, d) known).2
    obtain ⟨gap, small, step, apart⟩ :=
      written_blank_cons before first (d :: (led (textOf ps) ++ rest))
    obtain ⟨out, later, laid, -⟩ := ih (d :: c :: (gap ++ before)) rest
    refine ⟨gap ++ c :: d :: out, ?_, (Laid.pair known laid).gap small, fun word => apart word _⟩
    have spelled : led (textOf (.pair c d :: ps)) ++ rest =
        ' ' :: c :: d :: (led (textOf ps) ++ rest) := by
      rw [led_textOf_cons, Piece.text, led_of_toList String.toList_ofList]
      rfl
    rw [spelled, step, HostType.written, if_neg second, later]
    simp [small.reverse]
  | @group d inner ps bare _ _ ihInner ih =>
    have solid : openChar d ≠ ' ' ∧ closeChar d ≠ ' ' := by cases d <;> decide
    obtain ⟨gap, small, step, apart⟩ := written_blank_cons before solid.1
      ((led (textOf inner)).tail ++ closeChar d :: (led (textOf ps) ++ rest))
    obtain ⟨outInner, within, laidInner, -⟩ := ihInner (openChar d :: (gap ++ before))
      (closeChar d :: (led (textOf ps) ++ rest))
    obtain ⟨out, later, laid, -⟩ :=
      ih (closeChar d :: (outInner.reverse ++ openChar d :: (gap ++ before))) rest
    refine ⟨gap ++ openChar d :: (outInner ++ closeChar d :: out), ?_,
      (Laid.group bare laidInner laid).gap small, fun word => apart word _⟩
    have spelled : led (textOf (.group d inner :: ps)) ++ rest = ' ' :: openChar d ::
        ((led (textOf inner)).tail ++ closeChar d :: (led (textOf ps) ++ rest)) := by
      simp [led_textOf_cons, led_group bare]
    rw [spelled, step, ← written_led_of_open bare, within, HostType.written, if_neg solid.2, later]
    simp [small.reverse]

theorem laid_text {t : HostType} {ps : List Piece} (lexical : Lexical ps) (key : t.key = textOf ps) :
    Laid ps t.text.toList := by
  obtain ⟨out, pass, laid, -⟩ := written_textOf lexical [] []
  rw [List.append_nil, HostType.written, List.append_nil] at pass
  rw [HostType.toList_text, key, pass]
  exact laid.spaceCommas

end Pegsmith.Source
