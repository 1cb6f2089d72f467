import Mathlib
import Pegsmith.Code.Lexer
import Pegsmith.Proofs.Code.Lines
import Pegsmith.Proofs.Source.Denotation

set_option autoImplicit false

namespace Pegsmith.Code

/-- What a list of literals denotes, of which the opening bracket has been read, and what follows on
the list. -/
def literals? (cs : List Char) : Option (List (List Char) × List Char) :=
  match cs with
  | ']' :: rest => some ([], rest)
  | '"' :: cs =>
      match _ : Source.denoted? cs with
      | some (text, ',' :: rest) =>
          (literals? (Source.skipBlanks rest)).map fun (texts, rest) => (text :: texts, rest)
      | some (text, ']' :: rest) => some ([text], rest)
      | _ => none
  | _ => none
termination_by cs.length
decreasing_by
  obtain ⟨front, same⟩ := Source.exists_of_denoted? ‹_›
  have shorter := (Source.skipBlanks_suffix rest).length_le
  rw [List.length_cons, same, List.length_append, List.length_cons]
  omega

def tableStart : String :=
  "static TOKEN_RULES: ::packrat_runtime::once_cell::sync::Lazy<::std::vec::Vec<" ++
    "::packrat_runtime::regex::Regex>> = ::packrat_runtime::once_cell::sync::Lazy::new(|| " ++
    "::packrat_runtime::compile_rules(&["

def entries? (cs : List Char) : Option (List String) :=
  match literals? cs with
  | some (texts, [')', ')', ';']) => some (texts.map String.ofList)
  | _ => none

/-- The regular expressions of the table, if a line declares it. -/
def table? (text : String) : Option (List String) :=
  (Text.after? tableStart.toList text.toList).bind entries?

inductive Branch where
  | skip (index : Nat)
  | produce (index : Nat) (kind : String)
  deriving DecidableEq, Repr

def Branch.ofRule (rule : TokenRule) (i : Nat) : Branch :=
  if rule.ignored then .skip i else .produce i rule.kind

def index? (cs : List Char) : Option (Nat × List Char) :=
  match cs.span Char.isDigit with
  | (d :: digits, ']' :: rest) => some (Nat.ofDigitChars 10 (d :: digits) 0, rest)
  | _ => none

def skipStart : String :=
  "if self.scanner.skip_rule(&TOKEN_RULES["

def skip? (head action : String) : Option Branch := do
  let (index, rest) ← index? (← Text.after? skipStart.toList head.toList)
  if rest = [')', ' ', '\x7b'] ∧ action = "continue 'restart;" then some (.skip index) else none

def produceStart : String :=
  "if let Some(token) = self.scanner.match_rule(&TOKEN_RULES["

def produce? (tokenType head action : String) : Option Branch := do
  let (index, rest) ← index? (← Text.after? produceStart.toList head.toList)
  let path ← Text.after? (", " ++ tokenType ++ "::").toList rest
  let kind ← path.dropSuffix? [')', ' ', '\x7b']
  if action = "return Ok(Some(token));" then some (.produce index (String.ofList kind)) else none

def branch? (tokenType head action : String) : Option Branch :=
  (skip? head action).or (produce? tokenType head action)

def attempts? (tokenType : String) : List String → Option (List Branch)
  | "return Err(self.scanner.error());" :: _ => some []
  | head :: action :: "\x7d" :: rest => do
      return (← branch? tokenType head action) :: (← attempts? tokenType rest)
  | _ => none

def nextStart : String :=
  "pub fn next(&mut self) -> " ++ tokenResult ++ " \x7b"

def loop? (tokenType : String) : List String → Option (List Branch)
  | _ :: "'restart: loop \x7b" :: "if self.scanner.is_at_end() \x7b" :: "return Ok(None);" ::
      "\x7d" :: rest => attempts? tokenType rest
  | _ => none

/-- The branches of the function that reads the next token. -/
def branches? (tokenType : String) (code : List String) : Option (List Branch) :=
  loop? tokenType (code.dropWhile (· != nextStart))

theorem literals?_of_comma {cs text rest : List Char}
    (denotes : Source.denoted? cs = some (text, ',' :: rest)) :
    literals? ('"' :: cs) =
      (literals? (Source.skipBlanks rest)).map fun (texts, rest) => (text :: texts, rest) := by
  rw [literals?]
  split
  · next found =>
    cases denotes.symm.trans found
    rfl
  · next found => cases denotes.symm.trans found
  · next comma _ => exact (comma _ _ denotes).elim

theorem literals?_of_bracket {cs text rest : List Char}
    (denotes : Source.denoted? cs = some (text, ']' :: rest)) :
    literals? ('"' :: cs) = some ([text], rest) := by
  rw [literals?]
  split
  · next found => cases denotes.symm.trans found
  · next found =>
    cases denotes.symm.trans found
    rfl
  · next bracket => exact (bracket _ _ denotes).elim

theorem literals?_intercalate (texts : List (List Char)) (rest : List Char) :
    literals? ([',', ' '].intercalate (texts.map Text.Quoted.encode) ++ ']' :: rest) =
      some (texts, rest) := by
  induction texts with
  | nil => simp [literals?]
  | cons text texts ih =>
    cases texts with
    | nil =>
      have denotes := Source.denoted?_append text (']' :: rest)
      simpa [Text.Quoted.encode] using literals?_of_bracket denotes
    | cons next texts =>
      -- Behind the comma and the blank there is the next literal.
      obtain ⟨tail, quote⟩ : ∃ tail,
          [',', ' '].intercalate ((next :: texts).map Text.Quoted.encode) ++ ']' :: rest =
            '"' :: tail := by
        cases texts <;> simp [Text.Quoted.encode, List.intercalate_cons_cons]
      have denotes := Source.denoted?_append text (',' :: ' ' :: '"' :: tail)
      have reads := literals?_of_comma denotes
      have skips : Source.skipBlanks (' ' :: '"' :: tail) = '"' :: tail := by
        rw [Source.skipBlanks, Source.skipBlanks] <;> simp
      rw [skips, ← quote, ih, quote] at reads
      rw [List.map_cons, List.map_cons, List.intercalate_cons_cons, ← List.map_cons,
        List.append_assoc, List.append_assoc, quote]
      simpa [Text.Quoted.encode] using reads

theorem literals?_regexTable (rules : List TokenRule) (rest : List Char) :
    literals? ((regexTable rules).toList ++ ']' :: rest) =
      some (rules.map fun rule => rule.regex.toList, rest) := by
  have quoted : (rules.map fun rule => Text.quote rule.regex).map String.toList =
      (rules.map fun rule => rule.regex.toList).map Text.Quoted.encode := by
    rw [List.map_map, List.map_map]
    exact List.map_congr_left fun rule _ => String.toList_ofList
  rw [regexTable, String.toList_intercalate, quoted]
  exact literals?_intercalate _ rest

theorem table?_emitted (rules : List TokenRule) :
    table? (tableStart ++ regexTable rules ++ "]));") = some (rules.map TokenRule.regex) := by
  have same : (tableStart ++ regexTable rules ++ "]));").toList =
      tableStart.toList ++ ((regexTable rules).toList ++ "]));".toList) := by
    rw [String.toList_append, String.toList_append, List.append_assoc]
  have reads : entries? ((regexTable rules).toList ++ "]));".toList) =
      some (rules.map TokenRule.regex) := by
    have reads := literals?_regexTable rules [')', ')', ';']
    simp [entries?, reads, Function.comp_def]
  rw [table?, same, Text.after?_append tableStart.toList, Option.bind_some, reads]

theorem exists_of_literals? {cs rest : List Char} {texts : List (List Char)}
    (found : literals? cs = some (texts, rest)) : ∃ front, cs = front ++ rest := by
  fun_induction literals? cs generalizing texts with
  | case1 rest' =>
    cases found
    exact ⟨[']'], rfl⟩
  | case2 cs text more denotes ih =>
    obtain ⟨⟨others, last⟩, found, same⟩ := Option.map_eq_some_iff.mp found
    cases same
    obtain ⟨front, rfl⟩ := Source.exists_of_denoted? denotes
    obtain ⟨blanks, same⟩ := Source.skipBlanks_suffix more
    obtain ⟨inner, same'⟩ := ih found
    rw [← same, same']
    exact ⟨'"' :: (front ++ ',' :: (blanks ++ inner)), by simp⟩
  | case3 cs text rest' denotes =>
    cases found
    obtain ⟨front, rfl⟩ := Source.exists_of_denoted? denotes
    exact ⟨'"' :: (front ++ [']']), by simp⟩
  | case4 | case5 => cases found

theorem index?_emitted (i : Nat) (rest : List Char) :
    index? ((toString i).toList ++ ']' :: rest) = some (i, rest) := by
  have all : ∀ c ∈ Nat.toDigits 10 i, c.isDigit = true :=
    fun c => Nat.isDigit_of_mem_toDigits (by decide) (by decide)
  have digits : (Nat.toDigits 10 i ++ ']' :: rest).span Char.isDigit =
      (Nat.toDigits 10 i, ']' :: rest) := by
    rw [List.span_eq_takeWhile_dropWhile, List.takeWhile_append_of_pos all,
      List.dropWhile_append_of_pos all]
    simp
  have value := Nat.ofDigitChars_ten_toDigits (n := i)
  have filled := Nat.toDigits_ne_nil (n := i) (b := 10)
  rw [Nat.toString_eq_ofList_toDigits, String.toList_ofList, index?, digits]
  generalize Nat.toDigits 10 i = ds at value filled
  cases ds with
  | nil => exact (filled rfl).elim
  | cons d ds => simp [value]

theorem branch?_skip (tokenType : String) (i : Nat) :
    branch? tokenType (Writer.openLine s!"if self.scanner.skip_rule(&TOKEN_RULES[{i}])")
      "continue 'restart;" = some (.skip i) := by
  have head : (Writer.openLine s!"if self.scanner.skip_rule(&TOKEN_RULES[{i}])").toList =
      skipStart.toList ++ ((toString i).toList ++ ']' :: [')', ' ', '\x7b']) := by
    rw [openLine_of_ne (by simp)]
    simp [skipStart]
  have reads : skip? (Writer.openLine s!"if self.scanner.skip_rule(&TOKEN_RULES[{i}])")
      "continue 'restart;" = some (.skip i) := by
    rw [skip?, head, Text.after?_append]
    simp only [Option.bind_eq_bind, Option.bind_some, index?_emitted, and_self, if_true]
  rw [branch?, reads, Option.some_or]

theorem branch?_produce (tokenType kind : String) (i : Nat) :
    branch? tokenType
      (Writer.openLine (s!"if let Some(token) = self.scanner.match_rule(&TOKEN_RULES[{i}], " ++
        s!"{tokenType}::{kind})")) "return Ok(Some(token));" = some (.produce i kind) := by
  generalize text : Writer.openLine _ = head
  have head' : head.toList =
      produceStart.toList ++ ((toString i).toList ++ ']' :: ((", " ++ tokenType ++ "::").toList ++
        (kind.toList ++ [')', ' ', '\x7b']))) := by
    rw [← text, openLine_of_ne (by simp)]
    simp [produceStart]
  have skips : skip? head "return Ok(Some(token));" = none := by
    have other : Text.after? skipStart.toList head.toList = none := by
      simp [head', skipStart, produceStart, Text.after?]
    rw [skip?, other]
    rfl
  have path := Text.after?_append (", " ++ tokenType ++ "::").toList
    (kind.toList ++ [')', ' ', '\x7b'])
  have named : (kind.toList ++ [')', ' ', '\x7b']).dropSuffix? [')', ' ', '\x7b'] =
      some kind.toList := List.dropSuffix?_eq_some_iff.mpr ⟨_, rfl, by simp⟩
  rw [branch?, skips, Option.none_or, produce?, head', Text.after?_append]
  simp only [Option.bind_eq_bind, Option.bind_some, index?_emitted, path, named, if_true,
    String.ofList_toList]

end Pegsmith.Code
