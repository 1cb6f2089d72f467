import Mathlib
import Pegsmith.Generation
import Pegsmith.Proofs.Code.Balance
import Pegsmith.Proofs.Grammar.Endless

set_option autoImplicit false

namespace Pegsmith.Generation

variable {layOut : String → String} {options : Options} {catalog : Catalog} {lexers : Lexers}
  {p : Description.Parser} {table : TokenTable} {l : LoweredGrammar} {ds : List Diagnostic}
  {out : GeneratedParser}

def grammarProblems (catalog : Catalog) (table : TokenTable) (p : Description.Parser) :
    List Diagnostic :=
  (Grammar.ofParser p table catalog.types).2 ++
    (Grammar.ofParser p table catalog.types).1.recursionProblems

theorem lowered_eq (catalog : Catalog) (table : TokenTable) (p : Description.Parser) :
    lowered catalog table p =
      if hasErrors (grammarProblems catalog table p) then
        return (none, grammarProblems catalog table p)
      else do
        let (l, more) ← (Grammar.ofParser p table catalog.types).1.lower catalog.types
        return (if hasErrors more then none else some l,
          grammarProblems catalog table p ++ more) :=
  rfl

theorem lowered_of_errors (errors : hasErrors (grammarProblems catalog table p) = true) :
    lowered catalog table p = .ok (none, grammarProblems catalog table p) := by
  rw [lowered_eq, if_pos errors]
  rfl

theorem lowered_of_clean (clean : hasErrors (grammarProblems catalog table p) = false) :
    lowered catalog table p = do
      let (l, more) ← (Grammar.ofParser p table catalog.types).1.lower catalog.types
      return (if hasErrors more then none else some l,
        grammarProblems catalog table p ++ more) := by
  rw [lowered_eq, if_neg (by simp [clean])]

theorem errors_of_lowered (failed : lowered catalog table p = .ok (none, ds)) :
    hasErrors ds = true := by
  cases problems : hasErrors (grammarProblems catalog table p) with
  | true =>
    rw [lowered_of_errors problems] at failed
    cases failed
    exact problems
  | false =>
    rw [lowered_of_clean problems] at failed
    obtain ⟨⟨l, more⟩, -, same⟩ := ok_of_bind failed
    obtain ⟨left, rfl⟩ := Prod.mk.inj (Except.ok.inj same)
    split at left
    · next errors => rw [hasErrors_append, errors, Bool.or_true]
    · cases left

structure LowersTo (catalog : Catalog) (table : TokenTable) (p : Description.Parser)
    (l : LoweredGrammar) (ds more : List Diagnostic) : Prop where
  clean : hasErrors (grammarProblems catalog table p) = false
  result : (Grammar.ofParser p table catalog.types).1.lower catalog.types = .ok (l, more)
  settled : hasErrors more = false
  problems : ds = grammarProblems catalog table p ++ more

theorem lowersTo_of_lowered (done : lowered catalog table p = .ok (some l, ds)) :
    ∃ more, LowersTo catalog table p l ds more := by
  cases problems : hasErrors (grammarProblems catalog table p) with
  | true =>
    rw [lowered_of_errors problems] at done
    cases done
  | false =>
    rw [lowered_of_clean problems] at done
    obtain ⟨⟨l', more⟩, made, same⟩ := ok_of_bind done
    obtain ⟨left, rfl⟩ := Prod.mk.inj (Except.ok.inj same)
    split at left
    · cases left
    · next settled =>
      cases left
      exact ⟨more, problems, made, by simpa using settled, rfl⟩

theorem LowersTo.reads {more : List Diagnostic} (lowers : LowersTo catalog table p l ds more) :
    (Grammar.ofParser p table catalog.types).1.Reads catalog.types table p := by
  have clean := lowers.clean
  rw [grammarProblems, hasErrors_append, Bool.or_eq_false_iff] at clean
  exact Grammar.reads_of_ofParser clean.1

theorem ofParser_of_tableFor {problem : Option Diagnostic}
    (failed : tableFor catalog lexers p = .error problem) :
    ofParser layOut options catalog lexers p = .ok (none, problem.toList) := by
  simp only [ofParser, failed]

theorem ofParser_of_not_lowered (found : tableFor catalog lexers p = .ok table)
    (failed : lowered catalog table p = .ok (none, ds)) :
    ofParser layOut options catalog lexers p = .ok (none, ds) := by
  simp only [ofParser, found, failed]
  rfl

def fileOf (layOut : String → String) (options : Options) (name text : String) :
    GeneratedParser where
  name := name
  fileName := Code.snakeCase name ++ ".rs"
  source := options.headerText ++ if options.format then layOut text else text

theorem ofParser_of_lowered {text : String} (found : tableFor catalog lexers p = .ok table)
    (done : lowered catalog table p = .ok (some l, ds))
    (written : Code.fileText table l = .ok text) :
    ofParser layOut options catalog lexers p = .ok
      (if Source.isFile text then (some (fileOf layOut options l.name text), ds)
      else
        (none, ds ++ [⟨.malformedOutput, "generated code for `" ++ l.name ++ "` does not parse",
          ⟨"parser " ++ l.name, none⟩⟩])) := by
  simp only [ofParser, found, done, file, written, bind, Except.bind]
  cases Source.isFile text <;> rfl

/-- A grammar without errors that tries an endless type when it is lowered. -/
def ReadsEndless (catalog : Catalog) (lexers : Lexers) (p : Description.Parser) : Prop :=
  ∃ table, tableFor catalog lexers p = .ok table ∧
    hasErrors (grammarProblems catalog table p) = false ∧
    (Grammar.ofParser p table catalog.types).1.IsEndless catalog

theorem overflows_lowered (catalog : Catalog) (table : TokenTable) (p : Description.Parser) :
    OverflowsIff (lowered catalog table p) (hasErrors (grammarProblems catalog table p) = false ∧
      (Grammar.ofParser p table catalog.types).1.IsEndless catalog) := by
  cases problems : hasErrors (grammarProblems catalog table p) with
  | true =>
    rw [lowered_of_errors problems]
    exact (OverflowsIff.of_ok _).congr (by simp)
  | false =>
    rw [lowered_of_clean problems]
    exact (((Grammar.overflows_lower _ _).bind (R := fun _ => False)
      fun _ _ => .of_ok _)).congr (by simp)

theorem not_readsEndless_of_lowered
    (ends : (tableFor catalog lexers p).toOption.all fun table => (lowered catalog table p).isOk) :
    ¬ReadsEndless catalog lexers p := by
  rintro ⟨table, found, clean, endless⟩
  have ran := (overflows_lowered catalog table p).error_iff.mpr ⟨rfl, clean, endless⟩
  simp [found, ran, Except.toOption, Except.isOk, Except.toBool] at ends

theorem overflows_ofParser (layOut : String → String) (options : Options) (catalog : Catalog)
    (lexers : Lexers) (p : Description.Parser) :
    OverflowsIff (ofParser layOut options catalog lexers p) (ReadsEndless catalog lexers p) := by
  cases found : tableFor catalog lexers p with
  | error problem =>
    rw [ofParser_of_tableFor found]
    exact (OverflowsIff.of_ok _).congr (by simp [ReadsEndless, found])
  | ok table =>
    have lowers := overflows_lowered catalog table p
    have same : ReadsEndless catalog lexers p ↔ hasErrors (grammarProblems catalog table p) = false ∧
        (Grammar.ofParser p table catalog.types).1.IsEndless catalog := by
      simp [ReadsEndless, found]
    rcases done : lowered catalog table p with f | ⟨none | l, ds⟩
    · obtain ⟨rfl, endless⟩ := lowers.error_iff.mp done
      refine .inl ⟨same.mpr endless, ?_⟩
      simp only [ofParser, found, done]
      rfl
    · have ends := lowers.exists_ok_iff.mp ⟨_, done⟩
      exact .inr ⟨same.not.mpr ends, _, ofParser_of_not_lowered found done⟩
    · have ends := lowers.exists_ok_iff.mp ⟨_, done⟩
      obtain ⟨text, written⟩ := Code.fileText_eq_ok table l
      exact .inr ⟨same.not.mpr ends, _, ofParser_of_lowered found done written⟩

def IsEndless (d : Description) : Prop :=
  ∃ p ∈ d.parsers, ReadsEndless (Catalog.ofDescription d).1 (readLexers d.lexers).1 p

def collected (d : Description) (results : List (Option GeneratedParser × List Diagnostic)) :
    Generation where
  parsers := results.filterMap Prod.fst
  diagnostics := (Catalog.ofDescription d).2 ++ (readLexers d.lexers).2.1 ++
    results.flatMap Prod.snd
  notices := (readLexers d.lexers).2.2 ++
    (results.filterMap Prod.fst).map fun out => .generated out.fileName

theorem ofDescription_eq (layOut : String → String) (options : Options) (d : Description) :
    ofDescription layOut options d = do
      return collected d (← d.parsers.mapM
        (ofParser layOut options (Catalog.ofDescription d).1 (readLexers d.lexers).1)) :=
  rfl

theorem overflows_ofDescription (layOut : String → String) (options : Options) (d : Description) :
    OverflowsIff (ofDescription layOut options d) (IsEndless d) := by
  rw [ofDescription_eq]
  exact (OverflowsIff.mapM fun p _ => overflows_ofParser layOut options _ _ p).map

theorem ofDescription_cases (layOut : String → String) (options : Options) (d : Description) :
    (IsEndless d ∧ ofDescription layOut options d = .error .stackOverflow) ∨
    ¬IsEndless d ∧ ∃ generation results, ofDescription layOut options d = .ok generation ∧
      generation = collected d results ∧
      List.Forall₂ (fun p result => ofParser layOut options (Catalog.ofDescription d).1
        (readLexers d.lexers).1 p = .ok result) d.parsers results := by
  rcases overflows_ofDescription layOut options d with overflows | ⟨ends, generation, returned⟩
  · exact .inl overflows
  · obtain ⟨results, each, same⟩ := ok_of_map (ofDescription_eq layOut options d ▸ returned)
    exact .inr ⟨ends, generation, results, returned, same, mapM_eq_ok_iff.mp each⟩

theorem complete_of_lowered (done : lowered catalog table p = .ok (some l, ds)) :
    l.Complete catalog table p := by
  obtain ⟨more, lowers⟩ := lowersTo_of_lowered done
  exact Grammar.complete_of_lower lowers.reads lowers.result lowers.settled

def sums : Description :=
  { lexers := [⟨"Kind", [⟨"Digits", some "[0-9]+", false⟩, ⟨"Plus", some "\\+", false⟩]⟩],
    parsers :=
      [{ name := "Sums", tokenType := some "Kind",
         functions :=
           [⟨"add", ["Term", "Term"], "Term"⟩, ⟨"lone", ["Number"], "Number"⟩],
         productions :=
           [⟨"term", "number @Plus term", some "add", none⟩,
            ⟨"number", "$Digits", none, some "Number"⟩, ⟨"term", "number", some "lone", none⟩] }],
    types :=
      [{ name := "Number", base := some "Term", constructors := [⟨"Number::new", ["String"]⟩] }] }

def conversions (l : LoweredGrammar) : List (String × List (String × Option HostType)) :=
  l.nonTerminals.map fun n => (n.name, n.alternatives.map fun a => (a.text, a.into))

example :
    let catalog := (Catalog.ofDescription sums).1
    (sums.parsers.flatMap fun p =>
      (tableFor catalog (readLexers sums.lexers).1 p).toOption.toList.flatMap fun table =>
        (lowered catalog table p).toOption.toList.flatMap fun r => r.1.toList.flatMap conversions) =
    [("term", [("number @Plus term", none), ("number", some (.named "Term"))]),
      ("number", [("$Digits", none)])] := by
  decide +kernel

theorem steps_of_ofParser (emits : ofParser layOut options catalog lexers p = .ok (some out, ds)) :
    ∃ table l text, tableFor catalog lexers p = .ok table ∧
      lowered catalog table p = .ok (some l, ds) ∧ Code.fileText table l = .ok text ∧
      out = fileOf layOut options l.name text := by
  cases found : tableFor catalog lexers p with
  | error problem =>
    rw [ofParser_of_tableFor found] at emits
    cases emits
  | ok table =>
    rcases done : lowered catalog table p with f | ⟨none | l, ds'⟩
    · simp only [ofParser, found, done] at emits
      cases emits
    · rw [ofParser_of_not_lowered found done] at emits
      cases emits
    · obtain ⟨text, written⟩ := Code.fileText_eq_ok table l
      rw [ofParser_of_lowered found done written] at emits
      split at emits <;> cases emits
      exact ⟨table, l, text, rfl, done, written, rfl⟩

/-- The file of a parser is the code of a token table and a lowered grammar, laid out if that is
asked for, below the header. -/
structure WrittenFrom (layOut : String → String) (options : Options) (d : Description)
    (p : Description.Parser) (table : TokenTable) (l : LoweredGrammar) (out : GeneratedParser) :
    Prop where
  tokens : tableFor (Catalog.ofDescription d).1 (readLexers d.lexers).1 p = .ok table
  grammar : ∃ ds, lowered (Catalog.ofDescription d).1 table p = .ok (some l, ds)
  source : ∃ text, Code.fileText table l = .ok text ∧
    out.source = options.headerText ++ if options.format then layOut text else text

/-- A run returns unless a parser tries an endless type, and each parser of the description that a
file is generated for has one that is written from a complete grammar. -/
theorem ofDescription_complete (layOut : String → String) (options : Options) (d : Description) :
    (IsEndless d ∧ ofDescription layOut options d = .error .stackOverflow) ∨
    ¬IsEndless d ∧ ∃ generation results, ofDescription layOut options d = .ok generation ∧
      generation.parsers = results.filterMap Prod.fst ∧
      List.Forall₂ (fun p result => ofParser layOut options (Catalog.ofDescription d).1
          (readLexers d.lexers).1 p = .ok result ∧
        ∀ out, result.1 = some out → ∃ table l, WrittenFrom layOut options d p table l out ∧
          l.Complete (Catalog.ofDescription d).1 table p)
        d.parsers results := by
  obtain overflows | ⟨ends, generation, results, returned, rfl, each⟩ :=
    ofDescription_cases layOut options d
  · exact .inl overflows
  · refine .inr ⟨ends, _, results, returned, rfl, each.imp fun p result emits => ⟨emits, ?_⟩⟩
    obtain ⟨_, ds⟩ := result
    rintro out rfl
    obtain ⟨table, l, text, found, done, written, rfl⟩ := steps_of_ofParser emits
    exact ⟨table, l, ⟨found, ⟨ds, done⟩, text, written, rfl⟩, complete_of_lowered done⟩

end Pegsmith.Generation
