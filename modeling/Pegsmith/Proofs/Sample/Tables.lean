import Pegsmith.Proofs.Sample.Separated
import Pegsmith.Proofs.Sample.Splitting

set_option autoImplicit false

namespace Pegsmith.Sample.Table

open Parsing
open Arithmetic (Lexeme Spells)

def Field (xs : List Lexeme) (name : List Char) : Prop :=
  xs = [⟨"Field", name⟩]

def Number (xs : List Lexeme) (n : UInt32) : Prop :=
  ∃ digits, xs = [⟨"Number", digits⟩] ∧
    n.toNat = min (Nat.ofDigitChars 10 digits 0) (UInt32.size - 1)

def Line : List Lexeme → List UInt32 → Prop :=
  Separated Number "Comma"

/-- A line of names, and lines of numbers below it. The last line need not be ended. -/
def Sheet (xs : List Lexeme) (t : Table) : Prop :=
  ∃ names newLine lines ending, xs = names ++ newLine :: (lines ++ ending) ∧
    Separated Field "Comma" names t.header ∧ newLine.kind = "NewLine" ∧
    Separated Line "NewLine" lines t.rows ∧ LastBreak ending

def kindOf (c : Char) : Option String :=
  if c.isDigit then some "Number"
  else if isNameStart c then some "Field"
  else if c = ',' then some "Comma"
  else if c = '\r' ∨ c = '\n' then some "NewLine"
  else if c = ' ' ∨ c = '\t' then some "Space"
  else none

def absorbs (kind other : String) : Bool :=
  kind == "Number" && other == "Number" || kind == "Space" && other == "Space" ||
    kind == "Field" && (other == "Field" || other == "Number")

theorem not_isDigit_of_isNameStart {c : Char} (starts : isNameStart c = true) :
    c.isDigit = false := by
  simp only [isNameStart, Bool.or_eq_true, beq_iff_eq] at starts
  rcases starts with letter | rfl
  · simp only [Char.isAlpha, Char.isUpper, Char.isLower, Char.isDigit, Bool.or_eq_true,
      Bool.and_eq_true, decide_eq_true_eq, Bool.and_eq_false_iff, decide_eq_false_iff_not,
      UInt32.le_iff_toNat_le, ge_iff_le] at *
    simp at letter ⊢
    omega
  · decide

theorem kindOf_of_isDigit {c : Char} (digit : c.isDigit = true) : kindOf c = some "Number" :=
  if_pos digit

theorem kindOf_of_isNameStart {c : Char} (starts : isNameStart c = true) :
    kindOf c = some "Field" := by
  rw [kindOf, if_neg (by simp [not_isDigit_of_isNameStart starts]), if_pos starts]

theorem told_field : Told kindOf absorbs ⟨"Field", .word isNameStart isNamePart, false⟩ := by
  apply told_word fun c => kindOf_of_isNameStart
  intro c goes
  by_cases digit : c.isDigit = true
  · exact ⟨_, kindOf_of_isDigit digit, by decide⟩
  · have starts : isNameStart c = true := by
      simpa [isNamePart, isNameStart, Char.isAlphanum, digit] using goes
    exact ⟨_, kindOf_of_isNameStart starts, by decide⟩

theorem tellsKinds : TellsKinds lexer kindOf absorbs where
  distinct := by decide
  told rule member := by
    simp only [lexer, List.mem_cons, List.not_mem_nil, or_false] at member
    rcases member with rfl | rfl | rfl | rfl | rfl
    · exact told_run (fun c => kindOf_of_isDigit) (by decide)
    · exact told_field
    · exact told_exactly (by decide)
    · exact told_newLine
        (List.forall_mem_cons.mpr ⟨by decide, List.forall_mem_singleton.mpr (by decide)⟩)
    · exact told_spaces
        (List.forall_mem_cons.mpr ⟨by decide, List.forall_mem_singleton.mpr (by decide)⟩) (by decide)
  blanks rule member ignored := by
    simp only [lexer, List.mem_cons, List.not_mem_nil, or_false] at member
    rcases member with rfl | rfl | rfl | rfl | rfl <;> try cases ignored
    refine ⟨⟨_, rfl⟩, fun other listed kept => ?_⟩
    simp only [lexer, List.mem_cons, List.not_mem_nil, or_false] at listed
    rcases listed with rfl | rfl | rfl | rfl | rfl <;> first | decide | cases kept

theorem absorbs_comma (kind : String) :
    absorbs kind "Comma" = false ∧ absorbs "Comma" kind = false := by
  simp [absorbs]

theorem absorbs_newLine (kind : String) :
    absorbs kind "NewLine" = false ∧ absorbs "NewLine" kind = false := by
  simp [absorbs]

variable {xs : List Lexeme} {ns : List UInt32} {t : Table}

theorem Line.isChain (line : Line xs ns) :
    xs.IsChain fun x y => absorbs x.kind y.kind = false := by
  refine Separated.isChain line ?_ fun x y between => between ▸ absorbs_comma x.kind
  rintro _ n ⟨digits, rfl, -⟩
  exact .singleton _

theorem Sheet.isChain (sheet : Sheet xs t) :
    xs.IsChain fun x y => absorbs x.kind y.kind = false := by
  obtain ⟨names, newLine, lines, ending, rfl, header, broken, rows, final⟩ := sheet
  have first : names.IsChain fun x y => absorbs x.kind y.kind = false := by
    refine header.isChain ?_ fun x y between => between ▸ absorbs_comma x.kind
    rintro _ name rfl
    exact .singleton _
  have behind : lines.IsChain fun x y => absorbs x.kind y.kind = false :=
    rows.isChain (fun _ _ => Line.isChain) fun x y between => between ▸ absorbs_newLine x.kind
  apply isChain_append_cons first
  · exact final.isChain_append behind fun x y ended => ended ▸ absorbs_newLine x.kind
  · exact fun x => broken ▸ absorbs_newLine x.kind

variable {text : List Char} {m : Nat} {p u v : Tape}

theorem gives_number {n : UInt32} (number : Number xs n) (spells : Spells lexer p xs u)
    (enough : 1 ≤ m) : Gives p (rules.plain m "number") (some (.own (.number n))) u := by
  obtain ⟨digits, rfl, read⟩ := number
  obtain ⟨token, called, same⟩ := Spells.singleton_iff.mp spells
  have kind : token.kind = "Number" := congrArg Lexeme.kind same
  obtain rfl : token.text = digits := congrArg Lexeme.text same
  obtain rfl : word token.text = n := UInt32.toNat_inj.mp ((word_toNat _).trans read.symm)
  exact .plain enough (.alternative (.token called kind .token) fun s => ⟨s, rfl⟩)

theorem gives_line (line : Line xs ns) (within : p.Within text 0) (spells : Spells lexer p xs u)
    (last : lexer.Refuses "Comma" u) (enough : 2 ≤ m) :
    Gives p (rules.plain m "line") (some (.own (.line ns))) u := by
  have listed : Gives p (evaluate lexer (rules.plain (m - 1)) (separated (read "number") "Comma"))
      (some [.list (ns.map fun n => .own (.number n))]) u :=
    gives_separated (fun _ => True) _
      (fun _ n _ _ number _ spells _ => .called (gives_number number spells (by omega)))
      (fun _ _ _ _ _ => trivial) line within spells trivial (gives_no_item last)
      (spells.within within).same
  refine .plain (by omega) (.alternative listed fun s => ⟨s, ?_⟩)
  simp [value, members?_map Part.number? Part.number fun _ => rfl]

theorem gives_no_line (within : p.Within text 0) (refuses : lexer.Refuses "Number" p)
    (enough : 2 ≤ m) : Gives p (rules.plain m "line") none p := by
  have number : Gives p (rules.plain (m - 1) "number") none p :=
    .plain (by omega) (.next_alternative within within.same (.refused refuses .token)
      (.no_alternative _))
  exact .plain (by omega) (.next_alternative within within.same (gives_no_list (.not_called number))
    (.no_alternative _))

theorem gives_names {names : List (List Char)} (header : Separated Field "Comma" xs names)
    (within : p.Within text 0) (spells : Spells lexer p xs u) (last : lexer.Refuses "Comma" u) :
    Gives p (evaluate lexer (rules.plain m) (separated (.token "Field" .text) "Comma"))
      (some [.list (names.map .text)]) u := by
  refine gives_separated (fun _ => True) _ ?_ (fun _ _ _ _ _ => trivial) header within spells
    trivial (gives_no_item last) (spells.within within).same
  rintro _ name p u rfl - spells -
  obtain ⟨token, called, same⟩ := Spells.singleton_iff.mp spells
  obtain rfl : token.text = name := congrArg Lexeme.text same
  exact .token called (congrArg Lexeme.kind same) .text

theorem gives_rows {rows : List (List UInt32)} {ys : List Lexeme}
    (lines : Separated Line "NewLine" xs rows) (final : LastBreak ys)
    (within : p.Within text 0) (spells : Spells lexer p (xs ++ ys) u)
    (last : lexer.next u = (.ok none, v)) (enough : 2 ≤ m) :
    Gives p (evaluateParts lexer (rules.plain m) [separated (read "line") "NewLine",
      .optional (skip "NewLine") .nothing]) (some [.list (rows.map fun ns => .own (.line ns))]) u := by
  obtain ⟨q, middle, ended⟩ := Spells.append_iff.mp spells
  have inside := middle.within within
  -- A break behind the last line is given back by the rows, as no line follows, and then skipped.
  have no_line := gives_no_line ((spells.within within).of_le (Nat.zero_le _))
    (Lexer.refuses_of_end last _) enough
  obtain ⟨refuses, optional, w, same, stops⟩ :=
    gives_lastBreak final inside ended last (.not_called no_line)
  have listed := gives_separated (lexer.Refuses "Comma") (fun ns => .own (.line ns))
    (fun _ _ _ _ line within spells last => .called (gives_line line within spells last enough))
    (fun _ _ _ called kind => Lexer.refuses_of_next called (by simp [kind])) lines within middle
    (refuses "Comma" (by decide)) stops same
  exact .part listed (.part optional .none_left)

theorem gives_table (sheet : Sheet xs t) (within : p.Within text 0) (spells : Spells lexer p xs u)
    (last : lexer.next u = (.ok none, v)) (enough : 3 ≤ m) :
    Gives p (rules.plain m "table") (some (.own (.table t))) u := by
  obtain ⟨names, _, lines, ending, rfl, header, broken, rows, final⟩ := sheet
  obtain ⟨q, front, back⟩ := Spells.append_iff.mp spells
  obtain ⟨token, r, called, rfl, below⟩ := Spells.cons_iff.mp back
  have inside := (Lexer.Takes.one called).within (front.within within)
  have named := gives_names (m := m - 1) header within front
    (Lexer.refuses_of_next called (by simp [show token.kind = _ from broken]))
  have listed := gives_rows (m := m - 1) rows final (inside.of_le (Nat.zero_le _)) below last
    (by omega)
  have whole := Gives.part (.sequence (.part named .none_left))
    (.part (.sequence (.part (.token called broken .nothing) listed)) .none_left)
  refine .plain (by omega) (.alternative (.sequence whole) fun s => ⟨s, ?_⟩)
  simp [value, useToken, mapM_map_eq_some (f := Value.text?) (g := Value.text) fun _ => rfl,
    members?_map Part.line? Part.line fun _ => rfl]

variable {ts : List Token} {a : Part}

theorem number_of_derives (derives : rules.Derives m "number" ts a) :
    ∃ n, Number (ts.map Lexeme.ofToken) n ∧ a = .number n := by
  cases m with
  | zero => exact derives.elim
  | succ m =>
    obtain ⟨alternative, member, vs, _, _, spells, built⟩ := derives
    obtain rfl := List.mem_singleton.mp member
    obtain ⟨token, kind, rfl, rfl⟩ := spells
    cases built
    exact ⟨_, ⟨token.text, by rw [List.map_singleton, Lexeme.ofToken, kind], word_toNat _⟩, rfl⟩

theorem line_of_derives (derives : rules.Derives m "line" ts a) :
    ∃ ns, Line (ts.map Lexeme.ofToken) ns ∧ a = .line ns := by
  cases m with
  | zero => exact derives.elim
  | succ m =>
    obtain ⟨alternative, member, vs, _, _, spells, built⟩ := derives
    obtain rfl := List.mem_singleton.mp member
    obtain ⟨ns, line, rfl⟩ := separated_of_spells (g := fun n => .own (.number n))
      (fun ts vs one => by
        obtain ⟨a, number, rfl⟩ := spells_read.mp one
        obtain ⟨n, spelled, rfl⟩ := number_of_derives number
        exact ⟨n, spelled, rfl⟩) spells
    refine ⟨ns, line, ?_⟩
    simpa [value, members?_map Part.number? Part.number fun _ => rfl]
      using built.symm

theorem sheet_of_derives (derives : rules.Derives m "table" ts a) :
    ∃ t, Sheet (ts.map Lexeme.ofToken) t ∧ a = .table t := by
  cases m with
  | zero => exact derives.elim
  | succ m =>
    obtain ⟨alternative, member, vs, _, _, spells, built⟩ := derives
    obtain rfl := List.mem_singleton.mp member
    obtain ⟨front, _, us, _, first, others, rfl, rfl⟩ := spells
    obtain ⟨token, _, kind, rfl, below⟩ := spells_skip_cons (spells_one others)
    obtain ⟨middle, ending, _, ws, lines, last, rfl, rfl⟩ := below
    -- The header, the lines below it, and the line break that may end them.
    obtain ⟨names, header, rfl⟩ : ∃ names, Separated Field "Comma" (front.map Lexeme.ofToken) names ∧
        us = [.list (names.map .text)] :=
      separated_of_spells (fun ts vs one => by
        obtain ⟨token, kind, rfl, rfl⟩ := one
        exact ⟨token.text, by rw [Field, List.map_singleton, Lexeme.ofToken, kind], rfl⟩)
        (spells_one first)
    obtain ⟨rows, listed, rfl⟩ := separated_of_spells (g := fun ns => .own (.line ns))
      (fun ts vs one => by
        obtain ⟨a, line, rfl⟩ := spells_read.mp one
        obtain ⟨ns, spelled, rfl⟩ := line_of_derives line
        exact ⟨ns, spelled, rfl⟩) lines
    obtain ⟨final, rfl⟩ : LastBreak (ending.map Lexeme.ofToken) ∧ ws = [] := by
      rcases spells_one last with ⟨rfl, rfl⟩ | ⟨_, ⟨token, kind, rfl, -⟩, rfl⟩
      · exact ⟨.inl rfl, rfl⟩
      · exact ⟨.inr ⟨_, kind, rfl⟩, rfl⟩
    refine ⟨⟨names, rows⟩, ⟨_, .ofToken token, _, _, ?_, header, kind, listed, final⟩, ?_⟩
    · simp only [List.map_append, List.map_cons]
    · simpa [value, mapM_map_eq_some (f := Value.text?) (g := Value.text) fun _ => rfl,
        members?_map Part.line? Part.line fun _ => rfl] using built.symm

/-- A text is read as a table exactly if it splits into blanks and the lexemes of the format, of
which the names and the numbers are those of the table. -/
theorem parse_eq_ok_iff_sheet (text : List Char) (short : Text.byteSize text < offsetLimit)
    (v : Value Part) :
    parse text = .ok v ↔ ∃ xs t, SplitsBy lexer text xs ∧ Sheet xs t ∧ v = .own (.table t) := by
  constructor
  · -- The rules derive the answer from the tokens, and the tokens split the text.
    intro answered
    obtain ⟨place, after, u, parsed, last⟩ := Rules.parseAll_eq_ok_iff.mp answered
    have leaves := regular.leaves "table" () (Tape.within_start text) short
    rw [parsed] at leaves
    obtain ⟨a, n, tokens, token, rfl, derives, takes, -, -⟩ := leaves
    obtain ⟨t, sheet, rfl⟩ := sheet_of_derives derives
    have reads : lexer.Reads (Tape.between [] text) (tokens ++ [token]) none u :=
      ⟨place, takes, last⟩
    exact ⟨_, t, tellsKinds.splits_of_reads reads, sheet, rfl⟩
  · -- No lexeme of a sheet goes on into the next, so the lexer reads them as they are split.
    rintro ⟨xs, t, splits, sheet, rfl⟩
    obtain ⟨tokens, u, ⟨place, takes, last⟩, same⟩ :=
      tellsKinds.reads_of_splits splits sheet.isChain []
    have gives (m : Nat) (enough : 3 ≤ m) :=
      gives_table sheet (Tape.within_start text) ⟨tokens, takes, same⟩ last enough
    obtain ⟨after, parsed⟩ := regular.parse_of_gives (Tape.within_start text) short gives ()
    exact Rules.parseAll_eq_ok_iff.mpr ⟨place, after, u, parsed, last⟩

theorem parse_two_rows :
    Text.byteSize "a, b1\n1,20\n4294967296, 4\n".toList < offsetLimit ∧
      parse "a, b1\n1,20\n4294967296, 4\n".toList =
        .ok (.own (.table ⟨["a".toList, "b1".toList], [[1, 20], [0xFFFFFFFF, 4]]⟩)) ∧
      ∃ xs, SplitsBy lexer "a, b1\n1,20\n4294967296, 4\n".toList xs ∧
        Sheet xs ⟨["a".toList, "b1".toList], [[1, 20], [0xFFFFFFFF, 4]]⟩ := by
  have short : Text.byteSize "a, b1\n1,20\n4294967296, 4\n".toList < offsetLimit := by
    decide +kernel
  have read : parse "a, b1\n1,20\n4294967296, 4\n".toList =
      .ok (.own (.table ⟨["a".toList, "b1".toList], [[1, 20], [0xFFFFFFFF, 4]]⟩)) := by
    cbv
  obtain ⟨xs, t, splits, sheet, same⟩ := (parse_eq_ok_iff_sheet _ short _).mp read
  cases same
  exact ⟨short, read, xs, splits, sheet⟩

end Pegsmith.Sample.Table
