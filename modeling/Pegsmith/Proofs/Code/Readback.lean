import Mathlib
import Pegsmith.Parsing.Compiled
import Pegsmith.Proofs.Code.Spelling
import Pegsmith.Proofs.Code.Table
import Pegsmith.Proofs.Grammar.Entries

set_option autoImplicit false

namespace Pegsmith.Code

def IsOther (text : String) : Prop :=
  table? text = none ∧ text ≠ nextStart

def apart (cs ds : List Char) : Bool :=
  (cs.zip ds).any fun (c, d) => c != d

theorem apart_append {cs ds : List Char} (differ : apart cs ds) (more others : List Char) :
    apart (cs ++ more) (ds ++ others) := by
  induction cs generalizing ds with
  | nil => cases differ
  | cons c cs ih =>
    cases ds with
    | nil => cases differ
    | cons d ds =>
      simp only [apart, List.cons_append, List.zip_cons_cons, List.any_cons, Bool.or_eq_true]
        at differ ⊢
      exact differ.imp_right ih

theorem ne_of_apart {cs ds : List Char} (differ : apart cs ds) : cs ≠ ds := by
  rintro rfl
  induction cs with
  | nil => cases differ
  | cons c cs ih => exact ih (by simpa [apart] using differ)

def tableFront : List Char :=
  ['s', 't']

def nextFront : List Char :=
  ['p', 'u', 'b', ' ', 'f', 'n', ' ', 'n', 'e', 'x', 't', '(']

def startsOther (cs : List Char) : Bool :=
  apart cs tableFront && apart cs nextFront

theorem startsOther_append {cs : List Char} (starts : startsOther cs) (more : List Char) :
    startsOther (cs ++ more) := by
  rw [startsOther, Bool.and_eq_true] at starts ⊢
  have table := apart_append starts.1 more []
  have next := apart_append starts.2 more []
  rw [List.append_nil] at table next
  exact ⟨table, next⟩

-- The literals are long: they are looked at as lists of characters and never taken apart.
theorem toList_ofList_append_append (cs : List Char) (b c : String) :
    (String.ofList cs ++ b ++ c).toList = cs ++ (b.toList ++ c.toList) := by
  simp

theorem toList_tableStart : ∃ more, tableStart.toList = tableFront ++ more :=
  ⟨_, toList_ofList_append_append _ _ _⟩

theorem toList_nextStart : ∃ more, nextStart.toList = nextFront ++ more :=
  ⟨_, toList_ofList_append_append _ _ _⟩

theorem toList_nextStart_brace : ∃ more, nextStart.toList = more ++ [' ', '\x7b'] := by
  have whole (b : String) (cs : List Char) : (b ++ String.ofList cs).toList = b.toList ++ cs := by
    simp
  exact ⟨_, whole _ _⟩

theorem table?_of_apart {text : String} (differ : apart text.toList tableFront) :
    table? text = none := by
  rw [table?, Option.bind_eq_none_iff]
  intro cs after
  obtain ⟨more, start⟩ := toList_tableStart
  have same := Text.eq_append_of_after? after
  rw [start, List.append_assoc] at same
  exact (ne_of_apart (apart_append differ [] _) (by rw [same, List.append_nil])).elim

theorem table?_nextStart : table? nextStart = none := by
  obtain ⟨more, start⟩ := toList_nextStart
  have differ : apart nextFront tableFront := by decide
  exact table?_of_apart (start ▸ apart_append differ more [])

theorem isOther_of_startsOther {text : String} (starts : startsOther text.toList) :
    IsOther text := by
  rw [startsOther, Bool.and_eq_true] at starts
  refine ⟨table?_of_apart starts.1, ?_⟩
  rintro rfl
  obtain ⟨more, start⟩ := toList_nextStart
  exact ne_of_apart (apart_append starts.2 [] more) (by rw [start, List.append_nil])

theorem openLine_ofList_append {cs : List Char} (filled : cs ≠ []) (rest : String) :
    Writer.openLine (String.ofList cs ++ rest) = String.ofList cs ++ (rest ++ " \x7b") := by
  rw [openLine_of_ne, String.append_assoc]
  simp [filled]

theorem openLine_ofList {cs : List Char} (filled : cs ≠ []) :
    Writer.openLine (String.ofList cs) = String.ofList (cs ++ [' ', '\x7b']) := by
  rw [openLine_of_ne (by simpa using filled), String.ofList_append]

section

variable {cs : List Char} (starts : startsOther cs)
include starts

theorem ne_nil_of_startsOther : cs ≠ [] := by
  rintro rfl
  cases starts

theorem isOther_ofList : IsOther (String.ofList cs) :=
  isOther_of_startsOther (by rwa [String.toList_ofList])

theorem isOther_ofList_append (rest : String) : IsOther (String.ofList cs ++ rest) := by
  refine isOther_of_startsOther ?_
  rw [String.toList_append, String.toList_ofList]
  exact startsOther_append starts _

theorem isOther_openLine_append (rest : String) :
    IsOther (Writer.openLine (String.ofList cs ++ rest)) := by
  rw [openLine_ofList_append (ne_nil_of_startsOther starts)]
  exact isOther_ofList_append starts _

theorem isOther_openLine : IsOther (Writer.openLine (String.ofList cs)) := by
  rw [openLine_ofList (ne_nil_of_startsOther starts)]
  exact isOther_ofList (startsOther_append starts _)

end

theorem isOther_empty : IsOther "" := by
  obtain ⟨more, start⟩ := toList_tableStart
  obtain ⟨more', start'⟩ := toList_nextStart
  constructor
  · rw [table?, start]
    rfl
  · intro same
    rw [← same] at start'
    cases start'

theorem isOther_closeLine : IsOther Writer.closeLine :=
  isOther_ofList (by decide)

theorem isOther_allowance : IsOther allowance :=
  isOther_ofList_append (by decide) _

theorem isOther_kind (kind : String) : IsOther (kind ++ ",") := by
  -- A kind may begin in any way, so the line is told from the others by its end.
  have last : (kind ++ ",").toList.getLast? = some ',' := by simp
  constructor
  · rw [table?, Option.bind_eq_none_iff]
    intro cs after
    rw [Text.eq_append_of_after? after] at last
    rw [entries?]
    split
    · next texts found =>
      obtain ⟨front, rfl⟩ := exists_of_literals? found
      simp at last
    · rfl
  · obtain ⟨more, brace⟩ := toList_nextStart_brace
    intro same
    rw [same, brace] at last
    simp at last

def Writer.code (w : Writer) : List String :=
  w.lines.reverse.map Line.text

namespace Emit

def Prints (body : Emit Unit) (texts : List String) : Prop :=
  ∀ depth lines counts, ∃ added, added.reverse.map Line.text = texts ∧
    body.run ⟨⟨lines, depth⟩, counts⟩ = .ok ((), ⟨⟨added ++ lines, depth⟩, counts⟩)

variable {body next : Emit Unit} {texts more : List String}

namespace Prints

theorem pure : Prints (pure ()) [] :=
  fun _ _ _ => ⟨[], rfl, rfl⟩

theorem line (text : String) : Prints (line text) [text] :=
  fun depth _ _ => ⟨[⟨depth, text⟩], rfl, rfl⟩

theorem blank : Prints blank [""] :=
  fun _ _ _ => ⟨[⟨0, ""⟩], rfl, rfl⟩

theorem seq (first : Prints body texts) (rest : Prints next more) :
    Prints (body >>= fun _ => next) (texts ++ more) := by
  intro depth lines counts
  obtain ⟨added, rfl, ran⟩ := first depth lines counts
  obtain ⟨later, rfl, goesOn⟩ := rest depth (added ++ lines) counts
  refine ⟨later ++ added, by simp, ?_⟩
  rw [StateT.run_bind, ran, List.append_assoc]
  exact goesOn

theorem within (header : String) (inside : Prints body texts) :
    Prints (within header body) (Writer.openLine header :: (texts ++ [Writer.closeLine])) := by
  intro depth lines counts
  obtain ⟨added, rfl, ran⟩ := inside (depth + 1) (⟨depth, Writer.openLine header⟩ :: lines) counts
  refine ⟨⟨depth, Writer.closeLine⟩ :: (added ++ [⟨depth, Writer.openLine header⟩]), by simp, ?_⟩
  rw [run_within ran]
  simp

end Prints

def Carries (body : Emit Unit) (texts : List String) : Prop :=
  ∃ front back, Prints body (front ++ texts ++ back) ∧ ∀ text ∈ front ++ back, IsOther text

namespace Carries

theorem of_prints (prints : Prints body texts) : Carries body texts :=
  ⟨[], [], by simpa using prints, by simp⟩

theorem quiet (prints : Prints body texts) (other : ∀ text ∈ texts, IsOther text) :
    Carries body [] :=
  ⟨texts, [], by simpa using prints, by simpa using other⟩

theorem before (first : Carries body []) (rest : Carries next texts) :
    Carries (body >>= fun _ => next) texts := by
  obtain ⟨before, after, prints, others⟩ := first
  obtain ⟨front, back, prints', others'⟩ := rest
  refine ⟨before ++ after ++ front, back, by simpa using prints.seq prints', ?_⟩
  rw [List.append_assoc _ front, List.forall_mem_append]
  exact ⟨others, others'⟩

theorem after (first : Carries body texts) (rest : Carries next []) :
    Carries (body >>= fun _ => next) texts := by
  obtain ⟨front, back, prints, others⟩ := first
  obtain ⟨before, after, prints', others'⟩ := rest
  refine ⟨front, back ++ (before ++ after), by simpa using prints.seq prints', ?_⟩
  rw [← List.append_assoc, List.forall_mem_append]
  exact ⟨others, others'⟩

theorem line {text : String} (other : IsOther text) : Carries (Emit.line text) [] :=
  quiet (.line text) (List.forall_mem_singleton.mpr other)

theorem blank : Carries Emit.blank [] :=
  quiet .blank (List.forall_mem_singleton.mpr isOther_empty)

theorem within {header : String} (other : IsOther (Writer.openLine header))
    (inside : Carries body texts) : Carries (Emit.within header body) texts := by
  obtain ⟨front, back, prints, others⟩ := inside
  refine ⟨Writer.openLine header :: front, back ++ [Writer.closeLine],
    by simpa using prints.within header, ?_⟩
  rw [← List.append_assoc, List.cons_append, List.cons_append, List.forall_mem_cons,
    List.forall_mem_append, List.forall_mem_singleton]
  exact ⟨other, others, isOther_closeLine⟩

theorem forM {α : Type} {xs : List α} {f : α → Emit Unit} (each : ∀ x ∈ xs, Carries (f x) []) :
    Carries (xs.forM f) [] := by
  induction xs with
  | nil => exact of_prints .pure
  | cons x xs ih =>
    rw [List.forall_mem_cons] at each
    exact before each.1 (ih each.2)

end Carries

end Emit

open Emit

theorem emitKinds_carries (tokenType : String) (kinds : List String) :
    Carries (emitKinds tokenType kinds) [] := by
  have opening : IsOther (Writer.openLine s!"pub enum {tokenType}") :=
    isOther_openLine_append (by decide) _
  rw [emitKinds]
  refine .before (.line (isOther_ofList (by decide))) (.before (.line isOther_allowance)
    (.before (.line (isOther_ofList (by decide))) (.within opening ?_)))
  exact .forM fun kind _ => .line (isOther_kind kind)

theorem emitTable_carries (tokenType : String) (rules : List TokenRule) :
    Carries (emitTable tokenType rules) [tableStart ++ regexTable rules ++ "]));"] := by
  have named :
      IsOther s!"pub type Token<'a> = ::packrat_runtime::Token<'a, {tokenType}>;" := by
    rw [String.append_assoc]
    exact isOther_ofList_append (by decide) _
  exact .before (.line named) (.before .blank (.of_prints (.line _)))

theorem emitNextIf_carries (tokenType : String) : Carries (emitNextIf tokenType) [] := by
  have opening : IsOther (Writer.openLine
      (s!"pub fn next_if(&mut self, kind: {tokenType}) -> " ++ tokenResult)) := by
    rw [String.append_assoc, String.append_assoc]
    exact isOther_openLine_append (by decide) _
  rw [emitNextIf]
  refine .before (.line (isOther_ofList (by decide))) (.within opening
    (.before (.line (isOther_ofList (by decide))) (.within (isOther_openLine (by decide)) ?_)))
  refine .before (.line (isOther_ofList (by decide))) (.within (isOther_openLine (by decide)) ?_)
  exact .before (.line (isOther_ofList (by decide))) (.before (.line (isOther_ofList (by decide)))
    (.of_prints .pure))

theorem emitCursor_carries : Carries emitCursor [] := by
  have position : IsOther (Writer.openLine "fn position(&self) -> usize") :=
    isOther_openLine (by decide)
  have restore : IsOther (Writer.openLine "fn restore(&mut self, position: usize)") :=
    isOther_openLine (by decide)
  rw [emitCursor]
  refine .before (.line isOther_allowance) (.within (isOther_openLine (by decide)) ?_)
  exact .before (.within position (.line (isOther_ofList (by decide))))
    (.within restore (.line (isOther_ofList (by decide))))

theorem openLine_append_ne {cs ds : List Char} (differ : apart cs ds) (rest : String) :
    Writer.openLine (String.ofList cs ++ rest) ≠ String.ofList ds := by
  have filled : cs ≠ [] := by
    rintro rfl
    cases differ
  rw [openLine_ofList_append filled]
  intro same
  have chars := congrArg String.toList same
  rw [String.toList_append, String.toList_ofList, String.toList_ofList] at chars
  exact ne_of_apart (apart_append differ _ []) (chars.trans (List.append_nil ds).symm)

theorem emitAttempt_prints (tokenType : String) (rule : TokenRule) (i : Nat) :
    ∃ head action, Prints (emitAttempt tokenType rule i) [head, action, Writer.closeLine] ∧
      IsOther head ∧ IsOther action ∧ head ≠ "return Err(self.scanner.error());" ∧
      branch? tokenType head action = some (.ofRule rule i) := by
  rw [emitAttempt, Branch.ofRule]
  split
  · refine ⟨_, _, .within _ (.line _), ?_, isOther_ofList (by decide), ?_, branch?_skip tokenType i⟩
    · rw [String.append_assoc]
      exact isOther_openLine_append (by decide) _
    · rw [String.append_assoc]
      exact openLine_append_ne (by decide) _
  · refine ⟨_, _, .within _ (.line _), ?_, isOther_ofList (by decide), ?_,
      branch?_produce tokenType rule.kind i⟩
    · rw [String.append_assoc, String.append_assoc]
      exact isOther_openLine_append (by decide) _
    · rw [String.append_assoc, String.append_assoc]
      exact openLine_append_ne (by decide) _

theorem emitAttempts_prints (tokenType : String) (rules : List (TokenRule × Nat)) :
    ∃ texts, Prints (rules.forM fun (rule, i) => emitAttempt tokenType rule i) texts ∧
      (∀ text ∈ texts, IsOther text) ∧
      ∀ rest, attempts? tokenType (texts ++ "return Err(self.scanner.error());" :: rest) =
        some (rules.map fun (rule, i) => .ofRule rule i) := by
  induction rules with
  | nil => exact ⟨[], .pure, by simp, fun rest => by rw [List.nil_append, attempts?]; rfl⟩
  | cons first rules ih =>
    obtain ⟨rule, i⟩ := first
    obtain ⟨texts, prints, others, reads⟩ := ih
    obtain ⟨head, action, prints', head', action', goesOn, branch⟩ :=
      emitAttempt_prints tokenType rule i
    refine ⟨head :: action :: Writer.closeLine :: texts, prints'.seq prints, ?_, fun rest => ?_⟩
    · simp only [List.forall_mem_cons]
      exact ⟨head', action', isOther_closeLine, others⟩
    · rw [List.cons_append, List.cons_append, List.cons_append, Writer.closeLine, attempts?, branch,
        reads]
      · rfl
      · exact goesOn

theorem emitNext_carries (tokenType : String) (rules : List TokenRule) :
    ∃ texts, Carries (emitNext tokenType rules) (nextStart :: texts) ∧
      (∀ text ∈ texts, IsOther text) ∧
      ∀ rest, loop? tokenType (nextStart :: (texts ++ rest)) =
        some (rules.zipIdx.map fun (rule, i) => .ofRule rule i) := by
  obtain ⟨attempts, prints, others, reads⟩ := emitAttempts_prints tokenType rules.zipIdx
  have loop := Prints.within "'restart: loop" ((Prints.within "if self.scanner.is_at_end()"
    (.line "return Ok(None);")).seq (prints.seq (.line "return Err(self.scanner.error());")))
  have next := Carries.of_prints (loop.within ("pub fn next(&mut self) -> " ++ tokenResult))
  have start : Writer.openLine ("pub fn next(&mut self) -> " ++ tokenResult) = nextStart :=
    (openLine_ofList_append (by decide) _).trans (String.append_assoc ..).symm
  have opening : Writer.openLine "'restart: loop" = "'restart: loop \x7b" :=
    openLine_ofList (by decide)
  have ending : Writer.openLine "if self.scanner.is_at_end()" =
      "if self.scanner.is_at_end() \x7b" :=
    openLine_ofList (by decide)
  rw [start, opening, ending, Writer.closeLine] at next
  refine ⟨_, .before (.line (isOther_ofList_append (by decide) _))
    (.before (.line (isOther_ofList (by decide))) next), ?_, fun rest => ?_⟩
  · simp only [List.cons_append, List.append_assoc, List.nil_append, List.forall_mem_append,
      List.forall_mem_cons]
    exact ⟨isOther_ofList (by decide), isOther_ofList (by decide), isOther_ofList (by decide),
      isOther_closeLine, others, isOther_ofList (by decide), isOther_closeLine, isOther_closeLine,
      List.forall_mem_nil _⟩
  · simp only [List.cons_append, List.append_assoc, List.nil_append]
    rw [loop?, reads]

theorem emitReader_carries (tokenType : String) (rules : List TokenRule) :
    ∃ texts, Carries (emitReader tokenType rules) (nextStart :: texts) ∧
      (∀ text ∈ texts, IsOther text) ∧
      ∀ rest, loop? tokenType (nextStart :: (texts ++ rest)) =
        some (rules.zipIdx.map fun (rule, i) => .ofRule rule i) := by
  obtain ⟨texts, next, others, reads⟩ := emitNext_carries tokenType rules
  have behind := next.after (.before .blank (emitNextIf_carries tokenType))
  refine ⟨texts, ?_, others, reads⟩
  rw [emitReader]
  refine .before (.line isOther_allowance) (.before (.within (isOther_openLine (by decide))
    (.line (isOther_ofList (by decide)))) (.before .blank (.before (.line isOther_allowance)
      (.within (isOther_openLine (by decide)) ?_))))
  refine .before (.within (isOther_openLine (by decide)) (.line (isOther_ofList (by decide)))) ?_
  refine .before .blank (.before (.line (isOther_ofList (by decide))) (.before
    (.within (isOther_openLine (by decide)) (.line (isOther_ofList (by decide)))) ?_))
  refine .before .blank (.before (.within (isOther_openLine (by decide))
    (.line (isOther_ofList (by decide)))) ?_)
  exact .before .blank (.before (.within (isOther_openLine (by decide))
    (.line (isOther_ofList (by decide)))) (.before .blank behind))

theorem emitLexer_prints (t : TokenTable) :
    ∃ before between texts after,
      Prints (emitLexer t) (before ++ (tableStart ++ regexTable t.rules ++ "]));") ::
        (between ++ nextStart :: (texts ++ after))) ∧
      (∀ text ∈ before ++ between ++ texts ++ after, IsOther text) ∧
      loop? t.tokenType.text (nextStart :: (texts ++ after)) =
        some (t.rules.zipIdx.map fun (rule, i) => .ofRule rule i) := by
  obtain ⟨texts, reader, others, reads⟩ := emitReader_carries t.tokenType.text t.rules
  obtain ⟨front, back, prints, around⟩ :=
    Carries.before (emitKinds_carries t.tokenType.text t.kinds)
      (.before .blank (emitTable_carries t.tokenType.text t.rules))
  obtain ⟨front', back', prints', around'⟩ :=
    Carries.before .blank (reader.after (.before .blank emitCursor_carries))
  refine ⟨front, back ++ front', texts, back', ?_, ?_, reads back'⟩
  · simpa [emitLexer] using prints.seq prints'
  · simp only [List.forall_mem_append] at around around' ⊢
    exact ⟨⟨⟨around.1, around.2, around'.1⟩,
      others⟩, around'.2⟩

theorem Emit.Prints.run {body : Emit Unit} {texts : List String} (prints : Prints body texts) :
    ∃ e, body.run {} = .ok ((), e) ∧ emittedText body = .ok e.writer.text ∧
      e.writer.code = texts := by
  obtain ⟨added, rfl, ran⟩ := prints 0 [] []
  refine ⟨_, ran, ?_, by simp [Writer.code]⟩
  rw [emittedText, ran]
  rfl

theorem filterMap_table? {texts : List String} (others : ∀ text ∈ texts, IsOther text) :
    texts.filterMap table? = [] :=
  List.filterMap_eq_nil_iff.mpr fun text member => (others text member).1

theorem dropWhile_next {texts : List String} (others : ∀ text ∈ texts, IsOther text)
    (rest : List String) :
    (texts ++ rest).dropWhile (· != nextStart) = rest.dropWhile (· != nextStart) :=
  List.dropWhile_append_of_pos fun text member => bne_iff_ne.mpr (others text member).2

theorem isRegex_of_mem_read {isRegex : String → Bool} {type : HostType} {l : Description.Lexer}
    {rule : TokenRule} (member : rule ∈ (TokenTable.read isRegex type l).1.rules) :
    isRegex rule.regex = true := by
  obtain ⟨token, usable, declares⟩ :=
    exists_left_of_forall₂ (TokenTable.rules_read isRegex type l) member
  have checked := (List.mem_filter.mp usable).2
  rw [TokenTable.isUsable, declares.regex, Bool.and_eq_true] at checked
  exact checked.2

theorem compileRules_ok {regexes : List String} (checked : ∀ regex ∈ regexes,
    TokenTable.isRegex regex = true) : ∃ rules, Parsing.compileRules regexes = .ok rules := by
  induction regexes with
  | nil => exact ⟨[], rfl⟩
  | cons regex regexes ih =>
    rw [List.forall_mem_cons] at checked
    obtain ⟨r, parsed⟩ := Option.isSome_iff_exists.mp checked.1
    obtain ⟨rules, compiled⟩ := ih checked.2
    have first : Parsing.compileRule regex = .ok (Regex.machine r).matchLength? := by
      rw [Parsing.compileRule, parsed]
    refine ⟨(Regex.machine r).matchLength? :: rules, ?_⟩
    rw [Parsing.compileRules] at compiled ⊢
    rw [List.mapM_cons, first, compiled]
    rfl

/-- Whatever is in the regular expressions, an emitted lexer has one table, of literals that denote
just these; the branches of its loop use the entries one after the other, each for what its rule is
for. So what is compiled when the lexer runs is what was checked when it was emitted. -/
theorem emitLexer_reads_back (t : TokenTable) :
    ∃ e table, (emitLexer t).run {} = .ok ((), e) ∧ emittedText (emitLexer t) = .ok e.writer.text ∧
      e.writer.code.filterMap table? = [table] ∧ table = t.rules.map TokenRule.regex ∧
      branches? t.tokenType.text e.writer.code =
        some (t.rules.zipIdx.map fun (rule, i) => .ofRule rule i) ∧
      (∀ isRegex type l, t = (TokenTable.read isRegex type l).1 →
        ∀ regex ∈ table, isRegex regex = true) ∧
      ∀ type l, t = (TokenTable.ofLexer type l).1 →
        ∃ rules, Parsing.compileRules table = .ok rules := by
  obtain ⟨before, between, texts, after, prints, others, reads⟩ := emitLexer_prints t
  simp only [List.forall_mem_append] at others
  obtain ⟨⟨⟨front, middle⟩, inside⟩, back⟩ := others
  obtain ⟨e, ran, written, code⟩ := prints.run
  have checked {isRegex type l} (declared : t = (TokenTable.read isRegex type l).1) :
      ∀ regex ∈ t.rules.map TokenRule.regex, isRegex regex = true := by
    rw [List.forall_mem_map, declared]
    exact fun rule => isRegex_of_mem_read
  refine ⟨e, _, ran, written, ?_, rfl, ?_, fun _ _ _ => checked,
    fun _ _ declared => compileRules_ok (checked declared)⟩
  · rw [code, List.filterMap_append, filterMap_table? front,
      List.filterMap_cons_some (table?_emitted t.rules), List.filterMap_append,
      filterMap_table? middle, List.filterMap_cons_none table?_nextStart, List.filterMap_append,
      filterMap_table? inside, filterMap_table? back]
    rfl
  · -- The loop is looked for from the first line that opens the function, so the line of the table
    -- must not be taken for it.
    have other : (tableStart ++ regexTable t.rules ++ "]));") ≠ nextStart := by
      intro same
      cases (table?_emitted t.rules).symm.trans (same ▸ table?_nextStart)
    rw [branches?, code, dropWhile_next front, List.dropWhile_cons_of_pos (by simpa using other),
      dropWhile_next middle, List.dropWhile_cons_of_neg (by simp), reads]

def textsLexer : Description.Lexer where
  tokenType := "Token"
  tokens := [⟨"Text", some "\"(?:[^\"\\\\]|\\\\.)*\"", false⟩, ⟨"Gap", some "[\n ]+", true⟩]

def textsTable : TokenTable :=
  (TokenTable.ofLexer (.named "Token") textsLexer).1

theorem textsTable_reads_back :
    ∃ e table rules, (emitLexer textsTable).run {} = .ok ((), e) ∧
      e.writer.code.filterMap table? = [table] ∧
      table = ["\"(?:[^\"\\\\]|\\\\.)*\"", "[\n ]+"] ∧
      branches? "Token" e.writer.code = some [.produce 0 "Text", .skip 1] ∧
      Parsing.compileRules table = .ok rules := by
  have branches : (textsTable.rules.zipIdx.map fun (rule, i) => Branch.ofRule rule i) =
      [.produce 0 "Text", .skip 1] := by
    decide +kernel
  obtain ⟨e, table, ran, -, one, same, used, -, compiles⟩ := emitLexer_reads_back textsTable
  obtain ⟨rules, compiled⟩ := compiles (.named "Token") textsLexer rfl
  rw [branches] at used
  exact ⟨e, table, rules, ran, one, same.trans (by decide +kernel), used, compiled⟩

end Pegsmith.Code
