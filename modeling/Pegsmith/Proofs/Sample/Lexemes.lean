import Mathlib.Data.List.TakeWhile
import Pegsmith.Proofs.Sample.Arithmetic

set_option autoImplicit false

namespace Pegsmith

namespace Parsing.Matcher

variable {p : Char → Bool} {front cs : List Char}

theorem front_run_append (filled : front ≠ []) (all : ∀ c ∈ front, p c = true)
    (stops : ∀ c ∈ cs.head?, p c = false) : (run p).front (front ++ cs) = front := by
  obtain ⟨c, more, rfl⟩ := List.exists_cons_of_ne_nil filled
  have ends : cs.takeWhile p = [] := by
    cases cs with
    | nil => rfl
    | cons d cs => rw [List.takeWhile_cons_of_neg (by simp [stops d rfl])]
  rw [run, List.cons_append, front_word_cons (all c List.mem_cons_self),
    List.takeWhile_append_of_pos fun d member => all d (List.mem_cons_of_mem c member), ends,
    List.append_nil]

theorem all_front_run (p : Char → Bool) (cs : List Char) : ∀ c ∈ (run p).front cs, p c = true := by
  cases cs with
  | nil => simp [front]
  | cons c cs =>
    by_cases holds : p c = true
    · rw [run, front_word_cons holds]
      exact List.forall_mem_cons.mpr ⟨holds, fun d member => List.mem_takeWhile_imp member⟩
    · rw [run, front_word_eq_nil (by simpa using holds)]
      simp

theorem front_exactly_of_ne {c d : Char} (ne : d ≠ c) (cs : List Char) :
    (exactly [d]).front (c :: cs) = [] := by
  simp [front, exactly, ne]

theorem front_exactly_eq_of_ne_nil {text : List Char} (filled : (exactly text).front cs ≠ []) :
    (exactly text).front cs = text := by
  by_cases starts : text.isPrefixOf cs = true
  · obtain ⟨rest, rfl⟩ := List.isPrefixOf_iff_prefix.mp starts
    exact front_exactly_append text rest
  · simp [front, exactly, starts] at filled

end Parsing.Matcher

namespace Sample.Arithmetic

open Parsing Tape

def symbolRule (x : Lexeme) : Rule :=
  ⟨x.kind, .exactly x.text, false⟩

def blankRule (isBlank : Char → Bool) : Rule :=
  ⟨"Whitespace", .run isBlank, true⟩

def lexer (isBlank : Char → Bool) : Lexer :=
  digits :: Lexeme.symbols.map symbolRule ++ [blankRule isBlank]

def BlanksApart (isBlank : Char → Bool) : Prop :=
  ∀ c, isBlank c = true → c.isDigit = false ∧ ∀ x ∈ Lexeme.symbols, x.text ≠ [c]

variable {isBlank : Char → Bool} {read cs : List Char} {xs : List Lexeme}

theorem exists_text_of_symbol {x : Lexeme} (member : x ∈ Lexeme.symbols) :
    ∃ c, x.text = [c] ∧ c.isDigit = false := by
  simp only [Lexeme.symbols, List.mem_cons, List.not_mem_nil, or_false] at member
  rcases member with rfl | rfl | rfl | rfl <;> exact ⟨_, rfl, rfl⟩

theorem isFirst_digits {front : List Char} (filled : front ≠ [])
    (all : ∀ d ∈ front, d.isDigit = true) (stops : ∀ c ∈ cs.head?, c.isDigit = false) :
    Piece.IsFirst (lexer isBlank) (front ++ cs) ⟨digits, front⟩ :=
  ⟨[], _, rfl, by simp, Matcher.front_run_append filled all stops, filled⟩

theorem isFirst_symbol {x : Lexeme} (member : x ∈ Lexeme.symbols) (cs : List Char) :
    Piece.IsFirst (lexer isBlank) (x.text ++ cs) ⟨symbolRule x, x.text⟩ := by
  simp only [Lexeme.symbols, List.mem_cons, List.not_mem_nil, or_false] at member
  rcases member with rfl | rfl | rfl | rfl <;> exact Lexer.first?_eq_some_iff.mp rfl

theorem isFirst_blank {c : Char} (apart : BlanksApart isBlank) (blank : isBlank c = true)
    (cs : List Char) :
    Piece.IsFirst (lexer isBlank) (c :: cs) ⟨blankRule isBlank, c :: cs.takeWhile isBlank⟩ := by
  obtain ⟨notDigit, notSymbol⟩ := apart c blank
  refine ⟨digits :: Lexeme.symbols.map symbolRule, [], rfl, fun rule member => ?_,
    Matcher.front_word_cons blank, List.cons_ne_nil _ _⟩
  rcases List.mem_cons.mp member with rfl | symbol
  · exact Matcher.front_word_eq_nil notDigit
  · obtain ⟨x, listed, rfl⟩ := List.mem_map.mp symbol
    obtain ⟨d, text, -⟩ := exists_text_of_symbol listed
    have ne : d ≠ c := by
      rintro rfl
      exact notSymbol x listed text
    rw [symbolRule, text]
    exact Matcher.front_exactly_of_ne ne cs

theorem next_blanks (apart : BlanksApart isBlank) (read cs : List Char) :
    (lexer isBlank).next (between read cs) =
      (lexer isBlank).next (between (read ++ cs.takeWhile isBlank) (cs.dropWhile isBlank)) := by
  cases cs with
  | nil => simp
  | cons c cs =>
    by_cases blank : isBlank c = true
    · have first := isFirst_blank apart blank cs
      have whole : (c :: cs).takeWhile isBlank ++ (c :: cs).dropWhile isBlank = c :: cs :=
        List.takeWhile_append_dropWhile
      rw [← List.takeWhile_cons_of_pos blank] at first
      have skipped := @Lexer.next_ignored (lexer isBlank)
        ⟨blankRule isBlank, (c :: cs).takeWhile isBlank⟩ read ((c :: cs).dropWhile isBlank)
      simp only [whole] at skipped
      exact skipped first rfl
    · rw [List.takeWhile_cons_of_neg blank, List.dropWhile_cons_of_neg blank, List.append_nil]

theorem next_blank (apart : BlanksApart isBlank) {c : Char} (blank : isBlank c = true)
    (read cs : List Char) :
    (lexer isBlank).next (between read (c :: cs)) =
      (lexer isBlank).next (between (read ++ [c]) cs) := by
  rw [next_blanks apart, next_blanks apart (read ++ [c]), List.takeWhile_cons_of_pos blank,
    List.dropWhile_cons_of_pos blank, List.append_assoc, List.singleton_append]

theorem Splits.head_number {c : Char} (apart : BlanksApart isBlank)
    (splits : Splits isBlank (c :: cs) xs) (digit : c.isDigit = true) :
    ∃ x ∈ xs.head?, x.kind = "Number" := by
  generalize whole : c :: cs = text at splits
  cases splits with
  | nil => cases whole
  | blank blank _ =>
    obtain ⟨rfl, -⟩ := List.cons.inj whole
    simp [(apart c blank).1] at digit
  | symbol member _ =>
    obtain ⟨d, text, notDigit⟩ := exists_text_of_symbol member
    rw [text] at whole
    obtain ⟨rfl, -⟩ := List.cons.inj whole
    simp [notDigit] at digit
  | number => exact ⟨_, rfl, rfl⟩

theorem Splits.ends_number (apart : BlanksApart isBlank) (splits : Splits isBlank cs xs)
    (symbol : ∀ y ∈ xs.head?, y.kind ≠ "Number") : ∀ c ∈ cs.head?, c.isDigit = false := by
  intro c first
  obtain ⟨more, rfl⟩ := List.head?_eq_some_iff.mp first
  rw [← Bool.not_eq_true]
  intro digit
  obtain ⟨y, next, number⟩ := splits.head_number apart digit
  exact symbol y next number

theorem reads_of_splits (apart : BlanksApart isBlank) (splits : Splits isBlank cs xs)
    (spaced : Spaced xs) (read : List Char) : ∃ tokens u,
      (lexer isBlank).Reads (between read cs) tokens none u ∧
        tokens.map Lexeme.ofToken = xs := by
  -- A number of the split is one of the lexer: if a digit followed, so would a number.
  induction splits generalizing read with
  | nil => exact ⟨[], _, ⟨_, .nil _, Lexer.next_end read⟩, rfl⟩
  | @blank c cs xs blank _ ih =>
    obtain ⟨tokens, u, reads, same⟩ := ih spaced (read ++ [c])
    exact ⟨tokens, u, reads.of_next_eq (next_blank apart blank read cs), same⟩
  | @symbol x cs xs member _ ih =>
    obtain ⟨tokens, u, reads, rfl⟩ := ih (List.isChain_cons.mp spaced).2 (read ++ x.text)
    exact ⟨_, u, reads.token (Lexer.next_token (isFirst_symbol member cs) rfl), rfl⟩
  | @number front cs xs filled all rest ih =>
    obtain ⟨symbol, spaced⟩ := List.isChain_cons.mp spaced
    have stops := rest.ends_number apart fun y next => symbol y next rfl
    obtain ⟨tokens, u, reads, rfl⟩ := ih spaced (read ++ front)
    exact ⟨_, u, reads.token (Lexer.next_token (isFirst_digits filled all stops) rfl), rfl⟩

def Lexeme.IsValid (x : Lexeme) : Prop :=
  x ∈ symbols ∨ ∃ digits, x = number digits

theorem Lexeme.IsValid.eq_of_kind {x : Lexeme} (valid : x.IsValid) (y : Lexeme)
    (member : y ∈ symbols) (same : x.kind = y.kind) : x = y := by
  rcases valid with symbol | ⟨digits, rfl⟩
  · simp only [symbols, List.mem_cons, List.not_mem_nil, or_false] at symbol member
    rcases symbol with rfl | rfl | rfl | rfl <;> rcases member with rfl | rfl | rfl | rfl <;>
      simp_all
  · simp only [symbols, List.mem_cons, List.not_mem_nil, or_false] at member
    rcases member with rfl | rfl | rfl | rfl <;> simp_all

theorem Splits.valid (splits : Splits isBlank cs xs) : ∀ x ∈ xs, x.IsValid := by
  induction splits with
  | nil => simp
  | blank _ _ ih => exact ih
  | symbol member _ ih => exact List.forall_mem_cons.mpr ⟨.inl member, ih⟩
  | number _ _ _ ih => exact List.forall_mem_cons.mpr ⟨.inr ⟨_, rfl⟩, ih⟩

theorem Splits.blanks {front : List Char} (all : ∀ c ∈ front, isBlank c = true)
    (splits : Splits isBlank cs xs) : Splits isBlank (front ++ cs) xs := by
  induction front with
  | nil => exact splits
  | cons c front ih =>
    rw [List.forall_mem_cons] at all
    exact .blank all.1 (ih all.2)

theorem splits_of_tiles {pieces : List Piece} {left : List Char}
    (tiles : (lexer isBlank).Tiles cs pieces left) (offset : Nat) :
    Splits isBlank (Piece.textOf pieces) ((Piece.tokens offset pieces).map Lexeme.ofToken) := by
  -- Each piece is what its rule says, so the rules of the lexer are gone through.
  induction tiles generalizing offset with
  | nil => exact .nil
  | @cons p ps cs left first _ ih =>
    have rest := ih (offset + Text.byteSize p.text)
    obtain ⟨earlier, later, split, -, same, filled⟩ := first
    have member : p.rule ∈ lexer isBlank := by simp [split]
    obtain ⟨rule, text⟩ := p
    rw [Piece.textOf_cons]
    simp only [lexer, List.cons_append, List.mem_cons, List.mem_append, List.mem_map,
      List.not_mem_nil, or_false] at member
    rcases member with rfl | ⟨x, listed, rfl⟩ | rfl
    · refine .number filled ?_ rest
      rw [← same]
      exact Matcher.all_front_run Char.isDigit _
    · obtain rfl : text = x.text :=
        same.symm.trans (Matcher.front_exactly_eq_of_ne_nil (same.symm ▸ filled))
      exact .symbol listed rest
    · refine .blanks ?_ rest
      rw [← same]
      exact Matcher.all_front_run isBlank _

theorem Splits.exists_front {c : Char} (splits : Splits isBlank cs xs) (member : c ∈ cs)
    (rest : List Char) : ∃ rule ∈ lexer isBlank, rule.matcher.front (c :: rest) ≠ [] := by
  have run {p : Char → Bool} (holds : p c = true) : (Matcher.run p).front (c :: rest) ≠ [] := by
    rw [Matcher.run, Matcher.front_word_cons holds]
    exact List.cons_ne_nil _ _
  induction splits with
  | nil => cases member
  | @blank d cs xs blank _ ih =>
    rcases List.mem_cons.mp member with rfl | later
    · exact ⟨blankRule isBlank, by simp [lexer], run blank⟩
    · exact ih later
  | @symbol x cs xs listed _ ih =>
    obtain ⟨d, text, -⟩ := exists_text_of_symbol listed
    rw [text, List.singleton_append] at member
    rcases List.mem_cons.mp member with rfl | later
    · refine ⟨symbolRule x, List.mem_cons_of_mem _
        (List.mem_append_left _ (List.mem_map_of_mem listed)), ?_⟩
      rw [symbolRule, text]
      exact (Matcher.front_exactly_append [c] rest).symm ▸ List.cons_ne_nil c []
    · exact ih later
  | @number digits cs xs filled all _ ih =>
    rcases List.mem_append.mp member with here | later
    · exact ⟨Sample.digits, by simp [lexer], run (all c here)⟩
    · exact ih later

theorem splits_of_reads {tokens : List Token} {u : Tape}
    (reads : (lexer isBlank).Reads (between read cs) tokens none u) :
    Splits isBlank cs (tokens.map Lexeme.ofToken) := by
  obtain ⟨pieces, left, tiles, ends⟩ := (lexer isBlank).exists_tiles cs
  obtain ⟨error, tiled, ended⟩ := tiles.exists_reads ends read
  obtain ⟨rfl, rfl, -⟩ := reads.unique tiled
  obtain rfl : left = [] := ended
  rw [tiles.eq_append, List.append_nil]
  exact splits_of_tiles tiles _

theorem Splits.derivation_unique (apart : BlanksApart isBlank) {d e : Derivation .expression}
    (splits : Splits isBlank cs d.lexemes) (again : Splits isBlank cs e.lexemes) : d = e := by
  obtain ⟨tokens, u, reads, spelled⟩ := reads_of_splits apart splits d.spaced_lexemes []
  obtain ⟨tokens', u', reads', spelled'⟩ := reads_of_splits apart again e.spaced_lexemes []
  obtain ⟨rfl, -⟩ := reads.unique reads'
  have same : d.lexemes ++ [] = e.lexemes ++ [] := by rw [← spelled, ← spelled']
  exact (d.unambiguous e same (by simp [Derivation.MayFollow])
    (by simp [Derivation.MayFollow])).1

end Sample.Arithmetic

end Pegsmith
