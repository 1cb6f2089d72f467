import Mathlib
import Pegsmith.Proofs.Code.Spelling
import Pegsmith.Proofs.Generation

set_option autoImplicit false

namespace Pegsmith

namespace Description

def Parser.respell (k : Nat) (pattern : String) (p : Parser) : Parser :=
  { p with productions := p.productions.modify k fun q => { q with pattern } }

def respell (i k : Nat) (pattern : String) (d : Description) : Description :=
  { d with parsers := d.parsers.modify i (·.respell k pattern) }

end Description

variable {p q : String} {e : Pattern}

theorem forall₂_modify {α : Type} {R : α → α → Prop} (refl : ∀ x, R x x) {f g : α → α}
    {xs : List α} {i : Nat} (here : ∀ x, xs[i]? = some x → R (f x) (g x)) :
    List.Forall₂ R (xs.modify i f) (xs.modify i g) := by
  induction xs generalizing i with
  | nil => cases i <;> exact .nil
  | cons x xs ih =>
    cases i with
    | zero => exact .cons (here x rfl) (List.forall₂_same.mpr fun y _ => refl y)
    | succ i => exact .cons (refl x) (ih fun y listed => here y (by simpa using listed))

theorem Description.Production.Alike.respell (ps : List Description.Production) (k : Nat) :
    List.Forall₂ (Description.Production.Alike p q)
      (ps.modify k fun r => { r with pattern := p }) (ps.modify k fun r => { r with pattern := q }) :=
  forall₂_modify (fun _ => ⟨rfl, .inl rfl, rfl, rfl⟩) fun _ _ => ⟨rfl, .inr ⟨rfl, rfl⟩, rfl, rfl⟩

/-- Files of one parser whose code differs in comments that quote the spellings. The code is laid out
if that is asked for, and stands below the header. -/
structure GeneratedParser.Alike (layOut : String → String) (options : Generation.Options)
    (p q : String) (out out' : GeneratedParser) : Prop where
  name : out.name = out'.name
  fileName : out.fileName = out'.fileName
  source : ∃ text text', Code.TextsAlike p q text text' ∧
    out.source = options.headerText ++ (if options.format then layOut text else text) ∧
    out'.source = options.headerText ++ if options.format then layOut text' else text'

structure Generation.Alike (layOut : String → String) (options : Generation.Options)
    (p q : String) (g h : Generation) : Prop where
  parsers : List.Forall₂ (GeneratedParser.Alike layOut options p q) g.parsers h.parsers
  diagnostics : SameCodes g.diagnostics h.diagnostics

theorem Code.TextsAlike.refl (text : String) : Code.TextsAlike p q text text :=
  ⟨text, [], [], .nil, by simp, by simp⟩

namespace Generation

variable {layOut : String → String} {options : Options} {catalog : Catalog} {lexers : Lexers}

theorem fileOf_alike (layOut : String → String) (options : Options) (name : String)
    {text text' : String} (alike : Code.TextsAlike p q text text') :
    (fileOf layOut options name text).Alike layOut options p q
      (fileOf layOut options name text') :=
  ⟨rfl, rfl, text, text', alike, rfl, rfl⟩

theorem lowered_alike (hp : Pattern.parse p = .ok e) (hq : Pattern.parse q = .ok e)
    (catalog : Catalog) (table : TokenTable) (parser : Description.Parser) (k : Nat) :
    Related Eq (fun x y => Option.Rel (LoweredGrammar.Alike p q) x.1 y.1 ∧ SameCodes x.2 y.2)
      (lowered catalog table (parser.respell k p)) (lowered catalog table (parser.respell k q)) := by
  have ⟨grammars, codes⟩ := Grammar.ofParser_alike hp hq
    (Description.Production.Alike.respell parser.productions k) parser table catalog.types
  have problems : SameCodes (grammarProblems catalog table (parser.respell k p))
      (grammarProblems catalog table (parser.respell k q)) :=
    codes.append (.of_eq grammars.recursionProblems)
  rw [lowered_eq, lowered_eq, problems.hasErrors]
  split
  · exact .ok ⟨.none, problems⟩
  · refine (Grammar.lower_alike catalog.types grammars).bind fun x y both => ?_
    obtain ⟨lower, more⟩ := both
    refine .ok ⟨?_, problems.append more⟩
    rw [more.hasErrors]
    split
    · exact .none
    · exact .some lower

def emitted? (catalog : Catalog) (lexers : Lexers) (p : Description.Parser) : Option String :=
  match tableFor catalog lexers p with
  | .error _ => none
  | .ok table =>
      match lowered catalog table p with
      | .ok (some l, _) => (Code.fileText table l).toOption
      | _ => none

theorem emitted?_of_lowered {parser : Description.Parser} {table : TokenTable} {l : LoweredGrammar}
    {ds : List Diagnostic} {text : String} (found : tableFor catalog lexers parser = .ok table)
    (done : lowered catalog table parser = .ok (some l, ds))
    (written : Code.fileText table l = .ok text) :
    emitted? catalog lexers parser = some text := by
  simp [emitted?, found, done, written, Except.toOption]

/-- Whether what is written for a parser is a file, if anything is. -/
def checked? (catalog : Catalog) (lexers : Lexers) (p : Description.Parser) : Option Bool :=
  (emitted? catalog lexers p).map Source.isFile

structure ResultsAlike (layOut : String → String) (options : Options) (p q : String)
    (r r' : Option GeneratedParser × List Diagnostic) : Prop where
  files : Option.Rel (GeneratedParser.Alike layOut options p q) r.1 r'.1
  codes : SameCodes r.2 r'.2

theorem ResultsAlike.refl {parser : Description.Parser}
    {r : Option GeneratedParser × List Diagnostic}
    (ran : ofParser layOut options catalog lexers parser = .ok r) :
    ResultsAlike layOut options p q r r := by
  refine ⟨?_, .of_eq rfl⟩
  obtain ⟨none | out, ds⟩ := r
  · exact .none
  · obtain ⟨_, l, text, -, -, -, rfl⟩ := steps_of_ofParser ran
    exact .some (fileOf_alike layOut options l.name (.refl text))

def Respells (layOut : String → String) (options : Options) (catalog : Catalog) (lexers : Lexers)
    (p q : String) (k : Nat) (parser : Description.Parser)
    (r r' : Option GeneratedParser × List Diagnostic) : Prop :=
  (checked? catalog lexers (parser.respell k p) = checked? catalog lexers (parser.respell k q) ∧
      ResultsAlike layOut options p q r r') ∨
    (checked? catalog lexers (parser.respell k p) ≠ checked? catalog lexers (parser.respell k q) ∧
      ¬SameCodes r.2 r'.2)

theorem ofParser_related (layOut : String → String) (options : Options) (catalog : Catalog)
    (lexers : Lexers) (hp : Pattern.parse p = .ok e) (hq : Pattern.parse q = .ok e) (k : Nat)
    (parser : Description.Parser) :
    Related Eq (Respells layOut options catalog lexers p q k parser)
      (ofParser layOut options catalog lexers (parser.respell k p))
      (ofParser layOut options catalog lexers (parser.respell k q)) := by
  cases found : tableFor catalog lexers parser with
  | error problem =>
    -- The tokens of a parser do not depend on its productions.
    have same (x : String) : tableFor catalog lexers (parser.respell k x) = .error problem := found
    rw [ofParser_of_tableFor (same _), ofParser_of_tableFor (same _)]
    exact .ok (.inl ⟨by simp [checked?, emitted?, same], .none, .of_eq rfl⟩)
  | ok table =>
    have same (x : String) : tableFor catalog lexers (parser.respell k x) = .ok table := found
    have both := lowered_alike hp hq catalog table parser k
    rcases done : lowered catalog table (parser.respell k p) with f | ⟨l?, ds⟩ <;>
      rcases done' : lowered catalog table (parser.respell k q) with f' | ⟨m?, es⟩ <;>
      rw [done, done'] at both
    · obtain ⟨rfl⟩ := both
      simp only [ofParser, same, done, done']
      exact .error rfl
    · cases both
    · cases both
    · obtain _ | ⟨rel, codes⟩ := both
      cases rel with
      | none =>
        rw [ofParser_of_not_lowered (same p) done, ofParser_of_not_lowered (same q) done']
        exact .ok (.inl ⟨by simp [checked?, emitted?, same, done, done'], .none, codes⟩)
      | @some l m alike =>
        -- Both texts are checked, and only a text that fails adds a diagnostic.
        obtain ⟨text, text', written, written', texts⟩ := Code.fileText_alike table alike
        rw [ofParser_of_lowered (same p) done written, ofParser_of_lowered (same q) done' written']
        refine .ok ?_
        rw [Respells, checked?, checked?, emitted?_of_lowered (same p) done written,
          emitted?_of_lowered (same q) done' written', Option.map_some, Option.map_some]
        cases valid : Source.isFile text <;> cases valid' : Source.isFile text'
        all_goals simp only [if_true, Bool.false_eq_true, if_false]
        · exact .inl ⟨trivial, .none, codes.append (.of_eq (by rw [alike.name]))⟩
        · refine .inr ⟨by simp, fun same => ?_⟩
          have longer := same.length_eq
          simp [codes.length_eq] at longer
        · refine .inr ⟨by simp, fun same => ?_⟩
          have longer := same.length_eq
          simp [codes.length_eq] at longer
        · exact .inl ⟨trivial, .some (alike.name ▸ fileOf_alike layOut options l.name texts), codes⟩

def ChecksAlike (d : Description) (i k : Nat) (p q : String) : Prop :=
  ∀ parser, d.parsers[i]? = some parser →
    checked? (Catalog.ofDescription d).1 (readLexers d.lexers).1 (parser.respell k p) =
      checked? (Catalog.ofDescription d).1 (readLexers d.lexers).1 (parser.respell k q)

theorem collected_respell {d : Description} {i k : Nat} {parser : Description.Parser}
    {before after : List (Option GeneratedParser × List Diagnostic)}
    {r r' : Option GeneratedParser × List Diagnostic} (listed : d.parsers[i]? = some parser)
    (unchanged : ∀ other ∈ before ++ after, ResultsAlike layOut options p q other other)
    (here : Respells layOut options (Catalog.ofDescription d).1 (readLexers d.lexers).1 p q k parser
      r r') :
    (collected d (before ++ r :: after)).Alike layOut options p q
        (collected d (before ++ r' :: after)) ↔ ChecksAlike d i k p q := by
  constructor
  · intro alike other found
    obtain rfl := Option.some.inj (listed.symm.trans found)
    rcases here with ⟨checks, -⟩ | ⟨-, differ⟩
    · exact checks
    · -- All other diagnostics are the same, so those of the parser are too.
      have codes := alike.diagnostics
      simp only [collected, SameCodes, List.map_append, List.flatMap_append, List.flatMap_cons,
        List.append_cancel_left_eq, List.append_cancel_right_eq] at codes
      exact absurd codes differ
  · intro checks
    rcases here with ⟨-, alike⟩ | ⟨differ, -⟩
    · rw [List.forall_mem_append] at unchanged
      have each : List.Forall₂ (ResultsAlike layOut options p q) (before ++ r :: after)
          (before ++ r' :: after) :=
        List.rel_append (List.forall₂_same.mpr unchanged.1)
          (.cons alike (List.forall₂_same.mpr unchanged.2))
      refine ⟨List.rel_filterMap (fun x y same => same.files) each, .append (.of_eq rfl) ?_⟩
      rw [SameCodes, List.map_flatMap, List.map_flatMap]
      exact flatMap_eq_of_forall₂ each fun x y same => same.codes
    · exact absurd (checks parser listed) differ

theorem ofDescription_related (layOut : String → String) (options : Options) (d : Description)
    (i k : Nat) (hp : Pattern.parse p = .ok e) (hq : Pattern.parse q = .ok e) :
    Related Eq (fun g h => g.Alike layOut options p q h ↔ ChecksAlike d i k p q)
      (ofDescription layOut options (d.respell i k p))
      (ofDescription layOut options (d.respell i k q)) := by
  let run := ofParser layOut options (Catalog.ofDescription d).1 (readLexers d.lexers).1
  have unchanged {parsers : List Description.Parser}
      {results : List (Option GeneratedParser × List Diagnostic)}
      (each : parsers.mapM run = .ok results) :
      ∀ r ∈ results, ResultsAlike layOut options p q r r := by
    intro r member
    obtain ⟨parser, -, ran⟩ := exists_left_of_forall₂ (mapM_eq_ok_iff.mp each) member
    exact .refl ran
  have runs (x : String) : ofDescription layOut options (d.respell i k x) = do
      return collected d (← (d.parsers.modify i (·.respell k x)).mapM run) :=
    rfl
  rw [runs, runs]
  cases listed : d.parsers[i]? with
  | none =>
    have beyond := List.getElem?_eq_none_iff.mp listed
    rw [List.modify_eq_self beyond, List.modify_eq_self beyond]
    cases each : d.parsers.mapM run with
    | error f => exact .error rfl
    | ok results =>
      refine .ok ⟨fun _ parser found => by simp [listed] at found, fun _ => ⟨?_, .of_eq rfl⟩⟩
      exact List.rel_filterMap (fun x y same => same.files)
        (List.forall₂_same.mpr (unchanged each))
  | some parser =>
    obtain ⟨within, rfl⟩ := List.getElem?_eq_some_iff.mp listed
    simp only [List.modify_eq_take_cons_drop within, List.mapM_append, List.mapM_cons, bind_assoc,
      pure_bind]
    refine (Related.self _).bind ?_
    rintro before _ ⟨rfl, front⟩
    refine (ofParser_related layOut options _ _ hp hq k d.parsers[i]).bind fun r r' here => ?_
    refine (Related.self _).map ?_
    rintro after _ ⟨rfl, back⟩
    exact collected_respell listed
      (List.forall_mem_append.mpr ⟨unchanged front, unchanged back⟩) here

/-- Two spellings of a pattern give the same files, with the same code up to comments that quote
them, and the same codes of diagnostics, exactly if what is written for the parser is a file with
both of them or with neither. If a parser tries an endless type, it does so with both spellings. -/
theorem ofDescription_respell (layOut : String → String) (options : Options) (d : Description)
    (i k : Nat) (hp : Pattern.parse p = .ok e) (hq : Pattern.parse q = .ok e) :
    (IsEndless (d.respell i k p) ∧ IsEndless (d.respell i k q) ∧
      ofDescription layOut options (d.respell i k p) = .error .stackOverflow ∧
      ofDescription layOut options (d.respell i k q) = .error .stackOverflow) ∨
    ¬IsEndless (d.respell i k p) ∧ ¬IsEndless (d.respell i k q) ∧
    ∃ g h, ofDescription layOut options (d.respell i k p) = .ok g ∧
      ofDescription layOut options (d.respell i k q) = .ok h ∧
      (g.Alike layOut options p q h ↔ ∀ parser, d.parsers[i]? = some parser →
        checked? (Catalog.ofDescription d).1 (readLexers d.lexers).1 (parser.respell k p) =
          checked? (Catalog.ofDescription d).1 (readLexers d.lexers).1 (parser.respell k q)) := by
  have both := ofDescription_related layOut options d i k hp hq
  have overflows (x : String) := overflows_ofDescription layOut options (d.respell i k x)
  cases ran : ofDescription layOut options (d.respell i k p) <;>
    cases ran' : ofDescription layOut options (d.respell i k q) <;>
    rw [ran, ran'] at both <;> cases both
  · next same =>
    subst same
    obtain ⟨rfl, endless⟩ := (overflows p).error_iff.mp ran
    exact .inl ⟨endless, ((overflows q).error_iff.mp ran').2, rfl, rfl⟩
  · next alike =>
    exact .inr ⟨(overflows p).exists_ok_iff.mp ⟨_, ran⟩, (overflows q).exists_ok_iff.mp ⟨_, ran'⟩,
      _, _, rfl, rfl, alike⟩

def pairs : Description :=
  { lexers := [⟨"Kind", [⟨"Digit", some "[0-9]", false⟩]⟩],
    parsers :=
      [{ name := "Pairs", tokenType := some "Kind",
         functions := [⟨"pair", ["Token<'_>", "Token<'_>"], "u8"⟩],
         productions := [⟨"pair", "Digit Digit", some "pair", none⟩] }],
    types := [{ name := "Kind", kind := .enum }] }

theorem pairs_respell_lines :
    let e : Pattern := .sequence (.terminal "Digit" false) (.terminal "Digit" false)
    let options : Options := { format := false }
    Pattern.parse "Digit Digit" = .ok e ∧ Pattern.parse "Digit\nDigit" = .ok e ∧
    ∃ g h, ofDescription id options (pairs.respell 0 0 "Digit Digit") = .ok g ∧
      ofDescription id options (pairs.respell 0 0 "Digit\nDigit") = .ok h ∧
      (g.Alike id options "Digit Digit" "Digit\nDigit" h ↔
        ∀ parser, pairs.parsers[0]? = some parser →
          checked? (Catalog.ofDescription pairs).1 (readLexers pairs.lexers).1
              (parser.respell 0 "Digit Digit") =
            checked? (Catalog.ofDescription pairs).1 (readLexers pairs.lexers).1
              (parser.respell 0 "Digit\nDigit")) := by
  intro e options
  have line : Pattern.parse "Digit Digit" = .ok e := by decide +kernel
  have lines : Pattern.parse "Digit\nDigit" = .ok e := by decide +kernel
  obtain ⟨endless, -⟩ | ⟨-, -, both⟩ := ofDescription_respell id options pairs 0 0 line lines
  · obtain ⟨parser, listed, endless⟩ := endless
    obtain rfl := List.mem_singleton.mp listed
    exact absurd endless (not_readsEndless_of_lowered (by decide +kernel))
  · exact ⟨line, lines, both⟩

end Generation

end Pegsmith
