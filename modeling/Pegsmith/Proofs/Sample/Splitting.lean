import Pegsmith.Proofs.Sample.Lexemes

/-!
Texts that split into the lexemes of a lexer, where the first character of a lexeme tells its kind.
What the lexer reads is such a split, and it reads every split in which no lexeme could go on into
the one behind it.
-/

set_option autoImplicit false

namespace Pegsmith

namespace Parsing.Matcher

variable {first rest : Char → Bool} {front cs : List Char}

theorem all_of_front_word (whole : (word first rest).front front = front) (filled : front ≠ []) :
    ∃ c more, front = c :: more ∧ first c = true ∧ ∀ d ∈ more, rest d = true := by
  obtain ⟨c, more, rfl⟩ := List.exists_cons_of_ne_nil filled
  by_cases starts : first c = true
  · rw [front_word_cons starts, List.cons.injEq, List.takeWhile_eq_self_iff] at whole
    exact ⟨c, more, rfl, starts, whole.2⟩
  · rw [front_word_eq_nil (by simpa using starts)] at whole
    cases whole

theorem front_word_append {c : Char} {more : List Char} (starts : first c = true)
    (goes : ∀ d ∈ more, rest d = true) (stops : ∀ d ∈ cs.head?, rest d = false) :
    (word first rest).front (c :: more ++ cs) = c :: more := by
  have ends : cs.takeWhile rest = [] := by
    cases cs with
    | nil => rfl
    | cons d cs => rw [List.takeWhile_cons_of_neg (by simp [stops d rfl])]
  rw [List.cons_append, front_word_cons starts, List.takeWhile_append_of_pos goes, ends,
    List.append_nil]

theorem front_word_front (cs : List Char) :
    (word first rest).front ((word first rest).front cs) = (word first rest).front cs := by
  cases cs with
  | nil => rfl
  | cons c cs =>
    by_cases starts : first c = true
    · rw [front_word_cons starts, front_word_cons starts, List.takeWhile_takeWhile]
      simp
    · rw [front_word_eq_nil (by simpa using starts)]
      rfl

theorem front_exactly_front {text : List Char} (cs : List Char) :
    (exactly text).front ((exactly text).front cs) = (exactly text).front cs := by
  by_cases matched : (exactly text).front cs = []
  · rw [matched]
    simp [front]
  · have same := front_exactly_append text []
    rw [List.append_nil] at same
    rw [front_exactly_eq_of_ne_nil matched, same]

end Parsing.Matcher

namespace Sample

open Parsing Tape
open Arithmetic (Lexeme)

/-- Pieces of a text one after the other, of which a rule matches each as a whole. The rules that
are not ignored give lexemes. How far a rule would go on is not said. -/
inductive SplitsBy (lexer : Lexer) : List Char → List Lexeme → Prop where
  | nil : SplitsBy lexer [] []
  | blank {rule : Rule} {front cs : List Char} {xs : List Lexeme} (member : rule ∈ lexer)
      (ignored : rule.ignored = true) (filled : front ≠ [])
      (whole : rule.matcher.front front = front) (rest : SplitsBy lexer cs xs) :
      SplitsBy lexer (front ++ cs) xs
  | lexeme {rule : Rule} {front cs : List Char} {xs : List Lexeme} (member : rule ∈ lexer)
      (kept : rule.ignored = false) (filled : front ≠ [])
      (whole : rule.matcher.front front = front) (rest : SplitsBy lexer cs xs) :
      SplitsBy lexer (front ++ cs) (⟨rule.kind, front⟩ :: xs)

theorem SplitsBy.append {lexer : Lexer} {cs ds : List Char} {xs ys : List Lexeme}
    (first : SplitsBy lexer cs xs) (second : SplitsBy lexer ds ys) :
    SplitsBy lexer (cs ++ ds) (xs ++ ys) := by
  induction first with
  | nil => exact second
  | blank member ignored filled whole _ ih =>
    rw [List.append_assoc]
    exact .blank member ignored filled whole ih
  | lexeme member kept filled whole _ ih =>
    rw [List.append_assoc]
    exact .lexeme member kept filled whole ih

theorem SplitsBy.one {lexer : Lexer} {rule : Rule} {front : List Char} (member : rule ∈ lexer)
    (kept : rule.ignored = false) (filled : front ≠ []) (whole : rule.matcher.front front = front) :
    SplitsBy lexer front [⟨rule.kind, front⟩] := by
  have splits := SplitsBy.lexeme member kept filled whole .nil
  rwa [List.append_nil] at splits

theorem SplitsBy.gap {lexer : Lexer} {rule : Rule} {front : List Char} (member : rule ∈ lexer)
    (ignored : rule.ignored = true) (filled : front ≠ [])
    (whole : rule.matcher.front front = front) : SplitsBy lexer front [] := by
  have splits := SplitsBy.blank member ignored filled whole .nil
  rwa [List.append_nil] at splits

section Pieces

variable {lexer : Lexer} {front : List Char}

theorem SplitsBy.digits (member : digits ∈ lexer) (filled : front ≠ [])
    (all : ∀ c ∈ front, c.isDigit = true) : SplitsBy lexer front [⟨"Number", front⟩] := by
  have whole : (Matcher.run Char.isDigit).front (front ++ []) = front :=
    Matcher.front_run_append filled all (by simp)
  rw [List.append_nil] at whole
  exact .one member rfl filled whole

theorem SplitsBy.symbol (kind text : String) (member : symbol kind text ∈ lexer)
    (filled : text.toList ≠ []) : SplitsBy lexer text.toList [⟨kind, text.toList⟩] := by
  have whole := Matcher.front_exactly_append text.toList []
  rw [List.append_nil] at whole
  exact .one member rfl filled whole

theorem SplitsBy.spaces {kind : String} (member : spaces kind ∈ lexer)
    (all : ∀ c ∈ front, c = ' ' ∨ c = '\t') : SplitsBy lexer front [] := by
  by_cases filled : front = []
  · rw [filled]
    exact .nil
  · have whole : (Matcher.run fun c => c == ' ' || c == '\t').front (front ++ []) = front :=
      Matcher.front_run_append filled (by simpa using all) (by simp)
    rw [List.append_nil] at whole
    exact .gap member rfl filled whole

end Pieces

variable {kindOf : Char → Option String} {absorbs : String → String → Bool}

/-- A rule that only matches where a character of its kind begins, and that goes on behind what it
matches with characters of the kinds that it absorbs only. -/
structure Told (kindOf : Char → Option String) (absorbs : String → String → Bool) (rule : Rule) :
    Prop where
  begins : ∀ c cs, rule.matcher.front (c :: cs) ≠ [] → kindOf c = some rule.kind
  again : ∀ cs, rule.matcher.front (rule.matcher.front cs) = rule.matcher.front cs
  ends : ∀ front cs, rule.matcher.front front = front → front ≠ [] →
    (∀ c ∈ cs.head?, ∀ kind, kindOf c = some kind → absorbs rule.kind kind = false) →
    rule.matcher.front (front ++ cs) = front

theorem told_word {kind : String} {first rest : Char → Bool} {ignored : Bool}
    (starts : ∀ c, first c = true → kindOf c = some kind)
    (goes : ∀ c, rest c = true → ∃ other, kindOf c = some other ∧ absorbs kind other = true) :
    Told kindOf absorbs ⟨kind, .word first rest, ignored⟩ where
  begins c cs matched := by
    by_cases begun : first c = true
    · exact starts c begun
    · rw [Matcher.front_word_eq_nil (by simpa using begun)] at matched
      exact absurd rfl matched
  again := Matcher.front_word_front
  ends front cs whole filled stops := by
    obtain ⟨c, more, rfl, begun, all⟩ := Matcher.all_of_front_word whole filled
    refine Matcher.front_word_append begun all fun d next => ?_
    rw [← Bool.not_eq_true]
    intro further
    obtain ⟨other, kinds, absorbed⟩ := goes d further
    rw [stops d next other kinds] at absorbed
    cases absorbed

theorem told_run {kind : String} {p : Char → Bool} {ignored : Bool}
    (same : ∀ c, p c = true → kindOf c = some kind) (goes : absorbs kind kind = true) :
    Told kindOf absorbs ⟨kind, .run p, ignored⟩ :=
  told_word same fun c holds => ⟨kind, same c holds, goes⟩

theorem told_spaces {kind : String} (same : ∀ c ∈ [' ', '\t'], kindOf c = some kind)
    (goes : absorbs kind kind = true) : Told kindOf absorbs (spaces kind) := by
  refine told_run (fun c blank => same c ?_) goes
  simpa using blank

theorem told_exactly {kind : String} {c : Char} {more : List Char} {ignored : Bool}
    (starts : kindOf c = some kind) :
    Told kindOf absorbs ⟨kind, .exactly (c :: more), ignored⟩ where
  begins d cs matched := by
    have same := Matcher.front_exactly_eq_of_ne_nil matched
    obtain ⟨rest, split⟩ : ∃ rest, (Matcher.exactly (c :: more)).front (d :: cs) ++ rest = d :: cs :=
      ⟨_, Matcher.front_append _ _⟩
    rw [same, List.cons_append] at split
    rw [← (List.cons.inj split).1]
    exact starts
  again := Matcher.front_exactly_front
  ends front cs whole filled _ := by
    obtain rfl : front = c :: more := by
      rw [← whole]
      exact Matcher.front_exactly_eq_of_ne_nil (whole.symm ▸ filled)
    exact Matcher.front_exactly_append _ _

theorem front_newLine (cs : List Char) : newLine.matcher.front cs = match cs with
    | '\r' :: '\n' :: _ => ['\r', '\n']
    | '\n' :: _ => ['\n']
    | _ => [] := by
  split
  · simp [newLine, Matcher.front, Matcher.orElse, Matcher.exactly]
  · simp [newLine, Matcher.front, Matcher.orElse, Matcher.exactly]
  · next noReturn noBreak =>
    rcases cs with _ | ⟨c, _ | ⟨d, cs⟩⟩ <;>
      simp_all [newLine, Matcher.front, Matcher.orElse, Matcher.exactly] <;> grind

theorem told_newLine (starts : ∀ c ∈ ['\r', '\n'], kindOf c = some "NewLine") :
    Told kindOf absorbs newLine where
  begins c cs matched := by
    rw [front_newLine] at matched
    split at matched
    · next same =>
      obtain ⟨rfl, -⟩ := List.cons.inj same
      exact starts _ (by simp)
    · next same =>
      obtain ⟨rfl, -⟩ := List.cons.inj same
      exact starts _ (by simp)
    · exact absurd rfl matched
  again cs := by
    rw [front_newLine cs]
    split <;> rfl
  ends front cs whole filled _ := by
    rw [front_newLine] at whole
    split at whole
    · rw [← whole]
      rfl
    · rw [← whole]
      rfl
    · exact absurd whole.symm filled

structure TellsKinds (lexer : Lexer) (kindOf : Char → Option String)
    (absorbs : String → String → Bool) : Prop where
  distinct : (lexer.map Rule.kind).Nodup
  told : ∀ rule ∈ lexer, Told kindOf absorbs rule
  blanks : ∀ rule ∈ lexer, rule.ignored = true → (∃ p, rule.matcher = .run p) ∧
    ∀ other ∈ lexer, other.ignored = false → absorbs other.kind rule.kind = false

namespace TellsKinds

variable {lexer : Lexer} {rule : Rule} {front cs : List Char} {xs : List Lexeme} {p : Char → Bool}
  (tells : TellsKinds lexer kindOf absorbs)

include tells

theorem isFirst (member : rule ∈ lexer) (filled : front ≠ [])
    (matched : rule.matcher.front (front ++ cs) = front) :
    Piece.IsFirst lexer (front ++ cs) ⟨rule, front⟩ := by
  obtain ⟨earlier, later, split⟩ := List.append_of_mem member
  refine ⟨earlier, later, split, fun other before => ?_, matched, filled⟩
  -- A rule before this one that matched would have the kind of this one.
  obtain ⟨c, more, rfl⟩ := List.exists_cons_of_ne_nil filled
  by_contra found
  have kinds := (tells.told other (by simp [split, before])).begins c (more ++ cs) found
  have same := (tells.told rule member).begins c (more ++ cs)
    (by rw [← List.cons_append, matched]; exact filled)
  have distinct := tells.distinct
  rw [split, List.map_append, List.map_cons, List.nodup_append] at distinct
  exact distinct.2.2 _ (List.mem_map_of_mem before) _ List.mem_cons_self
    (Option.some.inj (kinds.symm.trans same))

theorem next_blanks (member : rule ∈ lexer) (ignored : rule.ignored = true)
    (runs : rule.matcher = .run p) (read cs : List Char) :
    lexer.next (between read cs) =
      lexer.next (between (read ++ cs.takeWhile p) (cs.dropWhile p)) := by
  cases cs with
  | nil => simp
  | cons c cs =>
    by_cases blank : p c = true
    · have whole : (c :: cs).takeWhile p ++ (c :: cs).dropWhile p = c :: cs :=
        List.takeWhile_append_dropWhile
      have first : Piece.IsFirst lexer ((c :: cs).takeWhile p ++ (c :: cs).dropWhile p)
          ⟨rule, (c :: cs).takeWhile p⟩ := by
        apply tells.isFirst member (by simp [List.takeWhile_cons_of_pos blank])
        rw [whole, runs, Matcher.run, Matcher.front_word_cons blank,
          List.takeWhile_cons_of_pos blank]
      have skipped : lexer.next (between read ((c :: cs).takeWhile p ++ (c :: cs).dropWhile p)) =
          lexer.next (between (read ++ (c :: cs).takeWhile p) ((c :: cs).dropWhile p)) :=
        Lexer.next_ignored first ignored
      rwa [whole] at skipped
    · rw [List.takeWhile_cons_of_neg blank, List.dropWhile_cons_of_neg blank, List.append_nil]

theorem next_skip (member : rule ∈ lexer) (ignored : rule.ignored = true)
    (runs : rule.matcher = .run p) (all : ∀ c ∈ front, p c = true) (read cs : List Char) :
    lexer.next (between read (front ++ cs)) = lexer.next (between (read ++ front) cs) := by
  -- Both go on behind the blanks that follow.
  rw [tells.next_blanks member ignored runs, tells.next_blanks member ignored runs (read ++ front),
    List.takeWhile_append_of_pos all, List.dropWhile_append_of_pos all, List.append_assoc]

theorem head_cases {c : Char} {kind : String} (splits : SplitsBy lexer (c :: cs) xs)
    (kinds : kindOf c = some kind) :
    (∃ rule ∈ lexer, rule.ignored = true ∧ rule.kind = kind) ∨ ∃ x ∈ xs.head?, x.kind = kind := by
  have tellsFront {rule : Rule} {front : List Char} {rest : List Char} (member : rule ∈ lexer)
      (filled : front ≠ []) (whole : rule.matcher.front front = front)
      (begun : front ++ rest = c :: cs) : rule.kind = kind := by
    obtain ⟨d, more, rfl⟩ := List.exists_cons_of_ne_nil filled
    rw [List.cons_append] at begun
    obtain ⟨rfl, -⟩ := List.cons.inj begun
    have same := (tells.told rule member).begins d more (by rw [whole]; exact filled)
    exact Option.some.inj (same.symm.trans kinds)
  generalize begun : c :: cs = text at splits
  cases splits with
  | nil => cases begun
  | blank member ignored filled whole _ =>
    exact .inl ⟨_, member, ignored, tellsFront member filled whole begun.symm⟩
  | lexeme member kept filled whole _ =>
    exact .inr ⟨_, rfl, tellsFront member filled whole begun.symm⟩

theorem reads_of_splits (splits : SplitsBy lexer cs xs)
    (apart : xs.IsChain fun x y => absorbs x.kind y.kind = false) (read : List Char) :
    ∃ tokens u, lexer.Reads (between read cs) tokens none u ∧
      tokens.map Lexeme.ofToken = xs := by
  induction splits generalizing read with
  | nil => exact ⟨[], _, ⟨_, .nil _, Lexer.next_end read⟩, rfl⟩
  | @blank rule front cs xs member ignored filled whole _ ih =>
    obtain ⟨⟨p, runs⟩, -⟩ := tells.blanks rule member ignored
    have all : ∀ c ∈ front, p c = true := by
      rw [← whole, runs]
      exact Matcher.all_front_run p front
    obtain ⟨tokens, u, reads, same⟩ := ih apart (read ++ front)
    exact ⟨tokens, u, reads.of_next_eq (tells.next_skip member ignored runs all read cs), same⟩
  | @lexeme rule front cs xs member kept filled whole rest ih =>
    obtain ⟨next, apart⟩ := List.isChain_cons.mp apart
    have matched : rule.matcher.front (front ++ cs) = front := by
      refine (tells.told rule member).ends front cs whole filled fun c first kind kinds => ?_
      obtain ⟨more, rfl⟩ := List.head?_eq_some_iff.mp first
      rcases tells.head_cases rest kinds with ⟨blank, listed, ignored, rfl⟩ | ⟨y, second, rfl⟩
      · exact (tells.blanks blank listed ignored).2 rule member kept
      · exact next y second
    obtain ⟨tokens, u, reads, rfl⟩ := ih apart (read ++ front)
    exact ⟨_, u, reads.token (Lexer.next_token (tells.isFirst member filled matched) kept), rfl⟩

theorem splits_of_tiles {pieces : List Piece} {left : List Char} (tiles : lexer.Tiles cs pieces left)
    (offset : Nat) :
    SplitsBy lexer (Piece.textOf pieces) ((Piece.tokens offset pieces).map Lexeme.ofToken) := by
  induction tiles generalizing offset with
  | nil => exact .nil
  | @cons p ps cs left first _ ih =>
    have rest := ih (offset + Text.byteSize p.text)
    obtain ⟨earlier, later, split, -, same, filled⟩ := first
    have member : p.rule ∈ lexer := by simp [split]
    have whole : p.rule.matcher.front p.text = p.text := by
      rw [← same]
      exact (tells.told p.rule member).again _
    rw [Piece.textOf_cons, Piece.tokens]
    by_cases ignored : p.rule.ignored = true
    · rw [if_pos ignored]
      exact .blank member ignored filled whole rest
    · rw [if_neg ignored]
      exact .lexeme member (by simpa using ignored) filled whole rest

theorem splits_of_reads {tokens : List Token} {u : Tape} {read : List Char}
    (reads : lexer.Reads (between read cs) tokens none u) :
    SplitsBy lexer cs (tokens.map Lexeme.ofToken) := by
  obtain ⟨pieces, left, tiles, ends⟩ := lexer.exists_tiles cs
  obtain ⟨error, tiled, ended⟩ := tiles.exists_reads ends read
  obtain ⟨rfl, rfl, -⟩ := reads.unique tiled
  obtain rfl : left = [] := ended
  rw [tiles.eq_append, List.append_nil]
  exact tells.splits_of_tiles tiles _

end TellsKinds

end Sample

end Pegsmith
