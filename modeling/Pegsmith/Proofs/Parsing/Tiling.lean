import Pegsmith.Proofs.Parsing.Advance

set_option autoImplicit false

namespace Pegsmith

namespace Parsing

structure Piece where
  rule : Rule
  text : List Char

namespace Piece

def IsFirst (lexer : Lexer) (cs : List Char) (p : Piece) : Prop :=
  ∃ earlier later, lexer = earlier ++ p.rule :: later ∧
    (∀ rule ∈ earlier, rule.matcher.front cs = []) ∧
    p.rule.matcher.front cs = p.text ∧ p.text ≠ []

def textOf (pieces : List Piece) : List Char :=
  pieces.flatMap text

def tokens : Nat → List Piece → List Token
  | _, [] => []
  | offset, p :: ps =>
      if p.rule.ignored then tokens (offset + Text.byteSize p.text) ps
      else ⟨p.rule.kind, p.text, offset⟩ :: tokens (offset + Text.byteSize p.text) ps

@[simp] theorem textOf_cons (p : Piece) (ps : List Piece) :
    textOf (p :: ps) = p.text ++ textOf ps :=
  List.flatMap_cons

theorem IsFirst.exists_append {lexer : Lexer} {cs : List Char} {p : Piece}
    (first : p.IsFirst lexer cs) : ∃ rest, cs = p.text ++ rest := by
  obtain ⟨_, _, -, -, same, -⟩ := first
  exact ⟨_, by rw [← same]; exact (Matcher.front_append ..).symm⟩

end Piece

namespace Lexer

variable {lexer : Lexer}

theorem first?_eq_some_iff {cs front : List Char} {rule : Rule} :
    lexer.first? cs = some (rule, front) ↔ Piece.IsFirst lexer cs ⟨rule, front⟩ := by
  simp only [first?, List.findSome?_eq_some_iff, Piece.IsFirst]
  constructor
  · rintro ⟨earlier, found, later, split, matched, none⟩
    by_cases empty : found.matcher.front cs = []
    · simp [empty] at matched
    · simp only [List.isEmpty_iff, empty, if_false, Option.some.injEq, Prod.mk.injEq] at matched
      obtain ⟨rfl, rfl⟩ := matched
      exact ⟨earlier, later, split, by simpa using none, rfl, empty⟩
  · rintro ⟨earlier, later, split, none, rfl, some⟩
    exact ⟨earlier, rule, later, split, by simp [some], by simpa using none⟩

theorem first?_eq_none_iff {cs : List Char} :
    lexer.first? cs = none ↔ ∀ rule ∈ lexer, rule.matcher.front cs = [] := by
  simp [first?, List.findSome?_eq_none_iff]

theorem scan_skip (offset : Nat) (xs cs : List Char) :
    lexer.scan xs.length offset (xs ++ cs) = lexer.scan 0 (offset + Text.byteSize xs) cs := by
  induction xs generalizing offset with
  | nil => rfl
  | cons x xs ih =>
    rw [List.length_cons, List.cons_append, scan, ih, Text.byteSize_cons, Nat.add_assoc]

theorem scan_piece {p : Piece} {cs : List Char} (offset : Nat)
    (first : p.IsFirst lexer (p.text ++ cs)) :
    lexer.scan 0 offset (p.text ++ cs) =
      if p.rule.ignored then lexer.scan 0 (offset + Text.byteSize p.text) cs
      else (.ok (some ⟨p.rule.kind, p.text, offset⟩), offset + Text.byteSize p.text) := by
  have found := first?_eq_some_iff.mpr first
  obtain ⟨_, _, -, -, -, filled⟩ := first
  obtain ⟨rule, text⟩ := p
  obtain ⟨x, xs, rfl⟩ := List.exists_cons_of_ne_nil filled
  rw [List.cons_append] at found ⊢
  simp only [scan, found, List.length_cons, Nat.add_sub_cancel, scan_skip, Text.byteSize_cons,
    Nat.add_assoc]

end Lexer

def Tape.between (read unread : List Char) : Tape :=
  ⟨read ++ unread, Text.byteSize read⟩

theorem Tape.remainder_between (read unread : List Char) :
    (between read unread).remainder = unread := by
  rw [remainder, between, Text.dropBytes?_byteSize, Option.getD_some]

theorem Tape.between_append (read piece unread : List Char) :
    between (read ++ piece) unread =
      { between read (piece ++ unread) with offset := Text.byteSize read + Text.byteSize piece } := by
  rw [between, between, List.append_assoc, Text.byteSize_append]

theorem Tape.within_start (text : List Char) : (⟨text, 0⟩ : Tape).Within text 0 :=
  ⟨rfl, by cases text <;> rfl, Nat.le_refl 0⟩

theorem Tape.Within.eq_between {text : List Char} {start : Nat} {t : Tape}
    (within : t.Within text start) : ∃ read, text = read ++ t.remainder ∧
      t = between read t.remainder := by
  obtain ⟨read, whole, size⟩ := within.split
  refine ⟨read, whole, ?_⟩
  rw [between, ← whole, size, ← within.same]

namespace Lexer

open Tape

variable {lexer : Lexer} {p : Piece} {read cs : List Char}

theorem next_between (read cs : List Char) :
    lexer.next (between read cs) = ((lexer.scan 0 (Text.byteSize read) cs).1,
      { between read cs with offset := (lexer.scan 0 (Text.byteSize read) cs).2 }) := by
  rw [next, remainder_between]
  rfl

theorem next_end (read : List Char) :
    lexer.next (between read []) = (.ok none, between read []) := by
  rw [next_between]
  rfl

theorem next_unreadable (filled : cs ≠ []) (none : ∀ rule ∈ lexer, rule.matcher.front cs = []) :
    lexer.next (between read cs) =
      (.error (.noRule (Text.byteSize read) cs), between read cs) := by
  obtain ⟨c, cs, rfl⟩ := List.exists_cons_of_ne_nil filled
  rw [next_between, scan, first?_eq_none_iff.mpr none]
  rfl

theorem next_ignored (first : p.IsFirst lexer (p.text ++ cs)) (ignored : p.rule.ignored = true) :
    lexer.next (between read (p.text ++ cs)) = lexer.next (between (read ++ p.text) cs) := by
  rw [next_between, next_between, scan_piece _ first, if_pos ignored, between_append,
    Text.byteSize_append]

theorem next_token (first : p.IsFirst lexer (p.text ++ cs)) (kept : p.rule.ignored = false) :
    lexer.next (between read (p.text ++ cs)) =
      (.ok (some ⟨p.rule.kind, p.text, Text.byteSize read⟩), between (read ++ p.text) cs) := by
  rw [next_between, scan_piece _ first, if_neg (by simp [kept]), between_append]

inductive Takes (lexer : Lexer) : Tape → List Token → Tape → Prop
  | nil (t : Tape) : Takes lexer t [] t
  | cons {t u v : Tape} {token : Token} {tokens : List Token} :
      lexer.next t = (.ok (some token), u) → Takes lexer u tokens v →
      Takes lexer t (token :: tokens) v

def Reads (lexer : Lexer) (t : Tape) (tokens : List Token) (error : Option ParseError) (u : Tape) :
    Prop :=
  ∃ v, lexer.Takes t tokens v ∧ lexer.next v = (error.elim (.ok none) .error, u)

theorem Reads.of_next_eq {t t' u : Tape} {tokens : List Token} {error : Option ParseError}
    (reads : lexer.Reads t' tokens error u) (same : lexer.next t = lexer.next t') :
    lexer.Reads t tokens error u := by
  obtain ⟨v, takes, last⟩ := reads
  cases takes with
  | nil => exact ⟨t, .nil t, same.trans last⟩
  | cons first rest => exact ⟨v, .cons (same.trans first) rest, last⟩

theorem Reads.token {t t' u : Tape} {token : Token} {tokens : List Token}
    {error : Option ParseError} (reads : lexer.Reads t' tokens error u)
    (first : lexer.next t = (.ok (some token), t')) : lexer.Reads t (token :: tokens) error u := by
  obtain ⟨v, takes, last⟩ := reads
  exact ⟨v, .cons first takes, last⟩

theorem allWithin_of_reads {n : Nat} {t u : Tape} {tokens : List Token} {error : Option ParseError}
    (reads : lexer.Reads t tokens error u) (enough : tokens.length < n) :
    lexer.allWithin n t = (tokens, error, u) := by
  obtain ⟨v, takes, last⟩ := reads
  obtain ⟨n, rfl⟩ : ∃ k, n = k + 1 := ⟨n - 1, by omega⟩
  induction takes generalizing n with
  | nil t =>
    rw [allWithin, last]
    cases error <;> rfl
  | cons first _ ih =>
    rw [List.length_cons] at enough
    obtain ⟨n, rfl⟩ : ∃ k, n = k + 1 := ⟨n - 1, by omega⟩
    rw [allWithin, first]
    simp only [ih last n (by omega)]

theorem Reads.unique {t u v : Tape} {tokens more : List Token} {error other : Option ParseError}
    (reads : lexer.Reads t tokens error u) (again : lexer.Reads t more other v) :
    tokens = more ∧ error = other ∧ u = v := by
  have enough : tokens.length < tokens.length + more.length + 1 := by omega
  have still : more.length < tokens.length + more.length + 1 := by omega
  have once := allWithin_of_reads reads enough
  have twice := allWithin_of_reads again still
  simpa using once.symm.trans twice

/-- A text is a row of pieces, each the first where it begins, and what is left behind them. -/
inductive Tiles (lexer : Lexer) : List Char → List Piece → List Char → Prop
  | nil (left : List Char) : Tiles lexer left [] left
  | cons {p : Piece} {ps : List Piece} {cs left : List Char} :
      p.IsFirst lexer (p.text ++ cs) → Tiles lexer cs ps left →
      Tiles lexer (p.text ++ cs) (p :: ps) left

theorem Tiles.eq_append {pieces : List Piece} {left : List Char}
    (tiles : lexer.Tiles cs pieces left) : cs = Piece.textOf pieces ++ left := by
  induction tiles with
  | nil => rfl
  | cons _ _ ih => rw [ih, Piece.textOf_cons, List.append_assoc]

theorem Tiles.length_tokens_le {pieces : List Piece} {left : List Char}
    (tiles : lexer.Tiles cs pieces left) (offset : Nat) :
    (Piece.tokens offset pieces).length ≤ cs.length := by
  induction tiles generalizing offset with
  | nil => exact Nat.zero_le _
  | @cons p _ cs _ first _ ih =>
    obtain ⟨_, _, -, -, -, filled⟩ := first
    have positive := List.length_pos_iff.mpr filled
    have fewer := ih (offset + Text.byteSize p.text)
    rw [Piece.tokens, List.length_append]
    split
    · omega
    · rw [List.length_cons]
      omega

theorem exists_tiles (lexer : Lexer) (cs : List Char) : ∃ pieces left, lexer.Tiles cs pieces left ∧
    (left ≠ [] → ∀ rule ∈ lexer, rule.matcher.front left = []) := by
  -- A piece is not empty, so less text is left behind it.
  induction size : cs.length using Nat.strongRecOn generalizing cs with
  | ind n ih =>
    cases found : lexer.first? cs with
    | none => exact ⟨[], cs, .nil cs, fun _ => first?_eq_none_iff.mp found⟩
    | some piece =>
      have first : Piece.IsFirst lexer cs ⟨piece.1, piece.2⟩ := first?_eq_some_iff.mp found
      obtain ⟨rest, rfl⟩ := first.exists_append
      obtain ⟨_, _, -, -, -, filled⟩ := id first
      have positive := List.length_pos_iff.mpr filled
      rw [List.length_append] at size
      obtain ⟨pieces, left, tiles, ends⟩ := ih rest.length (by omega) rest rfl
      exact ⟨_, left, .cons first tiles, ends⟩

theorem Tiles.reads {pieces : List Piece} {left : List Char} {error : Option ParseError}
    (tiles : lexer.Tiles cs pieces left)
    (last : lexer.next (between (read ++ Piece.textOf pieces) left) =
      (error.elim (.ok none) .error, between (read ++ Piece.textOf pieces) left)) :
    lexer.Reads (between read cs) (Piece.tokens (Text.byteSize read) pieces) error
      (between (read ++ Piece.textOf pieces) left) := by
  -- The call that skips an ignored piece is the one that reads what follows it.
  induction tiles generalizing read with
  | nil left =>
    rw [Piece.textOf, List.flatMap_nil, List.append_nil] at last ⊢
    exact ⟨_, .nil _, last⟩
  | @cons p ps cs left first _ ih =>
    rw [Piece.textOf_cons, ← List.append_assoc] at last ⊢
    have rest := ih last
    rw [Text.byteSize_append] at rest
    rw [Piece.tokens]
    by_cases ignored : p.rule.ignored = true
    · rw [if_pos ignored]
      exact rest.of_next_eq (next_ignored first ignored)
    · rw [if_neg ignored]
      exact rest.token (next_token first (by simpa using ignored))

theorem next_cases (lexer : Lexer) (read cs : List Char) : ∃ skipped left, cs = skipped ++ left ∧
    ((left = [] ∧ lexer.next (between read cs) = (.ok none, between (read ++ skipped) left)) ∨
      (left ≠ [] ∧ (∀ rule ∈ lexer, rule.matcher.front left = []) ∧
        lexer.next (between read cs) =
          (.error (.noRule (Text.byteSize (read ++ skipped)) left),
            between (read ++ skipped) left)) ∨
      ∃ (p : Piece) (rest : List Char), left = p.text ++ rest ∧ p.IsFirst lexer left ∧
        p.rule.ignored = false ∧
        lexer.next (between read cs) =
          (.ok (some ⟨p.rule.kind, p.text, Text.byteSize (read ++ skipped)⟩),
            between (read ++ skipped ++ p.text) rest)) := by
  obtain ⟨pieces, left, tiles, ends⟩ := lexer.exists_tiles cs
  induction tiles generalizing read with
  | nil left =>
    refine ⟨[], left, rfl, ?_⟩
    rw [List.append_nil]
    by_cases ended : left = []
    · exact .inl ⟨ended, by rw [ended]; exact next_end read⟩
    · exact .inr (.inl ⟨ended, ends ended, next_unreadable ended (ends ended)⟩)
  | @cons p _ cs _ first _ ih =>
    by_cases ignored : p.rule.ignored = true
    · obtain ⟨skipped, left, whole, called⟩ := ih (read ++ p.text) ends
      rw [next_ignored first ignored]
      refine ⟨p.text ++ skipped, left, by rw [whole, List.append_assoc], ?_⟩
      rwa [← List.append_assoc]
    · have kept : p.rule.ignored = false := by simpa using ignored
      refine ⟨[], _, rfl, .inr (.inr ⟨p, cs, rfl, first, kept, ?_⟩)⟩
      rw [List.append_nil]
      exact next_token first kept

namespace Takes

variable {t u v : Tape} {tokens more : List Token} {token : Token} {text : List Char} {start : Nat}

theorem one (called : lexer.next t = (.ok (some token), u)) : lexer.Takes t [token] u :=
  .cons called (.nil u)

theorem append (first : lexer.Takes t tokens u) (rest : lexer.Takes u more v) :
    lexer.Takes t (tokens ++ more) v := by
  induction first with
  | nil => exact rest
  | cons called _ ih => exact .cons called (ih rest)

theorem within (takes : lexer.Takes t tokens u) (within : t.Within text start) :
    u.Within text t.offset := by
  induction takes generalizing start with
  | nil => exact within.here
  | @cons t u v _ _ called _ ih =>
    have inside := (@next_within lexer _ _ _ within).1
    rw [called] at inside
    exact (ih inside).of_le inside.behind

theorem offset_lt (takes : lexer.Takes t tokens u) (within : t.Within text start)
    (filled : tokens ≠ []) : t.offset < u.offset := by
  cases takes with
  | nil => exact (filled rfl).elim
  | @cons t u v token _ called rest =>
    have next := @next_within lexer _ _ _ within
    rw [called] at next
    exact Nat.lt_of_lt_of_le (next.2 token rfl) (rest.within next.1).behind

theorem offset_eq_stop {last : Token} (takes : lexer.Takes t (tokens ++ [last]) u)
    (within : t.Within text start) : u.offset = last.stop := by
  induction tokens generalizing t start with
  | nil =>
    obtain _ | ⟨called, _ | _⟩ := takes
    obtain ⟨read, whole, same⟩ := within.eq_between
    rw [same] at called
    obtain ⟨skipped, left, -, ended | failed | ⟨p, rest, -, -, -, found⟩⟩ :=
      lexer.next_cases read t.remainder
    · rw [ended.2] at called
      cases called
    · rw [failed.2.2] at called
      cases called
    · rw [found] at called
      cases called
      exact Text.byteSize_append ..
  | cons token tokens ih =>
    obtain _ | ⟨called, rest⟩ := takes
    have inside := (@next_within lexer _ _ _ within).1
    rw [called] at inside
    exact ih rest inside

end Takes

theorem Tiles.slice?_tokens {pieces : List Piece} {left : List Char}
    (tiles : lexer.Tiles cs pieces left) :
    ∀ token ∈ Piece.tokens (Text.byteSize read) pieces,
      Text.slice? (read ++ cs) token.offset token.stop = some token.text := by
  induction tiles generalizing read with
  | nil => simp [Piece.tokens]
  | @cons p ps cs left _ _ ih =>
    have later := @ih (read ++ p.text)
    rw [Text.byteSize_append, List.append_assoc] at later
    intro token member
    rw [Piece.tokens] at member
    split at member
    · exact later token member
    · rcases List.mem_cons.mp member with rfl | member
      · exact Text.slice?_append read p.text cs
      · exact later token member

theorem Tiles.exists_reads {pieces : List Piece} {left : List Char}
    (tiles : lexer.Tiles cs pieces left)
    (ends : left ≠ [] → ∀ rule ∈ lexer, rule.matcher.front left = []) (read : List Char) :
    ∃ error, lexer.Reads (between read cs) (Piece.tokens (Text.byteSize read) pieces) error
        (between (read ++ Piece.textOf pieces) left) ∧
      match error with
      | none => left = []
      | some e => e = .noRule (Text.byteSize (read ++ Piece.textOf pieces)) left ∧ left ≠ [] ∧
          ∀ rule ∈ lexer, rule.matcher.front left = [] := by
  by_cases ended : left = []
  · subst ended
    exact ⟨none, tiles.reads (next_end _), rfl⟩
  · have none := ends ended
    exact ⟨some _, tiles.reads (next_unreadable ended none), rfl, ended, none⟩

theorem Reads.all {tokens : List Token} {error : Option ParseError} {u : Tape}
    (reads : lexer.Reads (between read cs) tokens error u) :
    lexer.all (between read cs) = (tokens, error, u) := by
  obtain ⟨pieces, left, tiles, ends⟩ := lexer.exists_tiles cs
  obtain ⟨error', tiled, -⟩ := tiles.exists_reads ends read
  obtain ⟨rfl, -⟩ := reads.unique tiled
  rw [Lexer.all, remainder_between]
  exact allWithin_of_reads reads (Nat.lt_succ_of_le (tiles.length_tokens_le _))

/-- From every place between two characters of a text, reading token by token ends. It goes through
the pieces of which the rest of the text consists, up to its end or to where it stops with an error;
there is text left there, and no rule matches anything of it. -/
theorem all_tiles (lexer : Lexer) (read unread : List Char) :
    ∃ tokens error pieces left,
      lexer.all (between read unread) =
        (tokens, error, between (read ++ Piece.textOf pieces) left) ∧
      lexer.Reads (between read unread) tokens error (between (read ++ Piece.textOf pieces) left) ∧
      lexer.Tiles unread pieces left ∧ unread = Piece.textOf pieces ++ left ∧
      tokens = Piece.tokens (Text.byteSize read) pieces ∧
      (∀ token ∈ tokens,
        Text.slice? (read ++ unread) token.offset token.stop = some token.text) ∧
      match error with
      | none => left = []
      | some e => e = .noRule (Text.byteSize (read ++ Piece.textOf pieces)) left ∧ left ≠ [] ∧
          ∀ rule ∈ lexer, rule.matcher.front left = [] := by
  obtain ⟨pieces, left, tiles, ends⟩ := lexer.exists_tiles unread
  obtain ⟨error, reads, ended⟩ := tiles.exists_reads ends read
  exact ⟨_, error, pieces, left, reads.all, reads, tiles, tiles.eq_append, rfl,
    tiles.slice?_tokens, ended⟩

end Lexer

end Parsing

end Pegsmith
