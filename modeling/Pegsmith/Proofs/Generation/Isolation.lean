import Mathlib
import Pegsmith.Proofs.Generation

set_option autoImplicit false

namespace Pegsmith

structure GeneratedParser.NamedAfter (out : GeneratedParser) (p : Description.Parser) : Prop where
  name : out.name = p.name
  fileName : out.fileName = Code.snakeCase p.name ++ ".rs"

namespace Generation

def lexerOf (ls : List Description.Lexer) (t : HostType) : Option Description.Lexer :=
  ls.find? fun l => HostType.parse? l.tokenType = some t

def tableOf (t : HostType) (l : Description.Lexer) : Option TokenTable :=
  if hasErrors (TokenTable.ofLexer t l).2 then none else some (TokenTable.ofLexer t l).1

structure ReadsLexers (ls : List Description.Lexer)
    (known : Lexers × List Diagnostic × List Notice) : Prop where
  tables : ∀ t, known.1.lookup t = (lexerOf ls t).map (tableOf t)
  reported : ∀ t l, lexerOf ls t = some l → (TokenTable.ofLexer t l).2 ⊆ known.2.1

theorem lexerOf_append_singleton (ls : List Description.Lexer) (l : Description.Lexer)
    (t : HostType) :
    lexerOf (ls ++ [l]) t =
      (lexerOf ls t).or (if HostType.parse? l.tokenType = some t then some l else none) := by
  simp [lexerOf, List.find?_singleton]

theorem ReadsLexers.addLexer {ls : List Description.Lexer}
    {known : Lexers × List Diagnostic × List Notice} (reads : ReadsLexers ls known)
    (l : Description.Lexer) : ReadsLexers (ls ++ [l]) (addLexer known l) := by
  obtain ⟨lexers, ds, notices⟩ := known
  obtain ⟨tables, reported⟩ := reads
  simp only at tables reported
  unfold Generation.addLexer
  cases typed : HostType.parse? l.tokenType with
  | none =>
    refine ⟨fun t => ?_, fun t l' first => ?_⟩
    · simp [lexerOf_append_singleton, typed, tables]
    · rw [lexerOf_append_singleton, typed] at first
      exact reported t l' (by simpa using first)
  | some type =>
    cases seen : lexerOf ls type with
    | some earlier =>
      -- Nothing is added, and the lexer is the first one of no type.
      have found : (lexers.lookup type).isSome = true := by simp [tables, seen]
      have same (t : HostType) : lexerOf (ls ++ [l]) t = lexerOf ls t := by
        rw [lexerOf_append_singleton, typed]
        by_cases equal : type = t
        · simp [← equal, seen]
        · simp [equal]
      simp only [found, if_true]
      exact ⟨fun t => by rw [same, tables], fun t l' first => reported t l' (same t ▸ first)⟩
    | none =>
      have missing : (lexers.lookup type).isSome = false := by simp [tables, seen]
      simp only [missing, Bool.false_eq_true, if_false]
      refine ⟨fun t => ?_, fun t l' first => ?_⟩
      · rw [List.lookup_append, lexerOf_append_singleton, typed, tables]
        by_cases equal : t = type
        · subst equal
          simp [seen, tableOf]
        · simp [List.lookup_cons, beq_false_of_ne equal, Ne.symm equal]
      · rw [lexerOf_append_singleton, typed] at first
        by_cases equal : type = t
        · subst equal
          obtain rfl : l = l' := by simpa [seen] using first
          exact List.subset_append_right _ _
        · have earlier := reported t l' (by simpa [equal] using first)
          exact List.Subset.trans earlier (List.subset_append_left _ _)

theorem readsLexers (ls : List Description.Lexer) : ReadsLexers ls (readLexers ls) := by
  induction ls using List.reverseRecOn with
  | nil => exact ⟨fun _ => rfl, fun _ _ first => nomatch first⟩
  | append_singleton ls l ih =>
    rw [readLexers, List.foldl_append]
    exact ih.addLexer l

variable {layOut : String → String} {options : Options} {catalog : Catalog}
  {ls : List Description.Lexer} {p : Description.Parser} {out : GeneratedParser}
  {ds : List Diagnostic}

structure HasBrokenLexer (ls : List Description.Lexer) (p : Description.Parser) (t : HostType)
    (l : Description.Lexer) : Prop where
  typed : ∃ src, p.tokenType = some src ∧ HostType.parse? src = some t
  first : lexerOf ls t = some l
  errors : hasErrors (TokenTable.ofLexer t l).2 = true

theorem lookup_readLexers_eq_some_none {t : HostType} :
    (readLexers ls).1.lookup t = some none ↔
      ∃ l, lexerOf ls t = some l ∧ hasErrors (TokenTable.ofLexer t l).2 = true := by
  rw [(readsLexers ls).tables, Option.map_eq_some_iff]
  simp [tableOf]

theorem error_of_tableFor {problem : Option Diagnostic}
    (failed : tableFor catalog (readLexers ls).1 p = .error problem) :
    (∃ d, problem = some d ∧ d.isError = true) ∨ (problem = none ∧ ∃ t l, HasBrokenLexer ls p t l) := by
  unfold tableFor at failed
  split at failed
  · cases failed
    exact .inl ⟨_, rfl, rfl⟩
  split at failed
  · cases failed
    exact .inl ⟨_, rfl, rfl⟩
  next src named =>
  split at failed
  · cases failed
    exact .inl ⟨_, rfl, rfl⟩
  next t typed =>
  split at failed
  · cases failed
    exact .inl ⟨_, rfl, rfl⟩
  split at failed
  · cases failed
    exact .inl ⟨_, rfl, rfl⟩
  · next broken =>
    cases failed
    obtain ⟨l, first, errors⟩ := lookup_readLexers_eq_some_none.mp broken
    exact .inr ⟨rfl, t, l, ⟨src, named, typed⟩, first, errors⟩
  · cases failed

theorem not_hasBrokenLexer_of_tableFor {table : TokenTable}
    (found : tableFor catalog (readLexers ls).1 p = .ok table) (t : HostType)
    (l : Description.Lexer) : ¬HasBrokenLexer ls p t l := by
  rintro ⟨⟨src, named, typed⟩, first, errors⟩
  have broken := lookup_readLexers_eq_some_none.mpr ⟨l, first, errors⟩
  unfold tableFor at found
  split at found
  · cases found
  · simp only [named, typed, broken] at found
    split at found <;> cases found

theorem clean_of_lowered {table : TokenTable} {l : LoweredGrammar}
    (done : lowered catalog table p = .ok (some l, ds)) : hasErrors ds = false := by
  obtain ⟨more, lowers⟩ := lowersTo_of_lowered done
  rw [lowers.problems, hasErrors_append, lowers.clean, lowers.settled, Bool.or_false]

theorem name_of_lowered {table : TokenTable} {l : LoweredGrammar}
    (done : lowered catalog table p = .ok (some l, ds)) : l.name = p.name := by
  obtain ⟨more, lowers⟩ := lowersTo_of_lowered done
  obtain ⟨results, -, same⟩ := ok_of_map lowers.result
  cases same
  rfl

structure Accounted (ls : List Description.Lexer) (p : Description.Parser)
    (result : Option GeneratedParser × List Diagnostic) : Prop where
  missing : result.1 = none ↔ hasErrors result.2 = true ∨ ∃ t l, HasBrokenLexer ls p t l
  name : ∀ out, result.1 = some out → out.NamedAfter p

theorem Accounted.of_none
    (reason : hasErrors ds = true ∨ ∃ t l, HasBrokenLexer ls p t l) : Accounted ls p (none, ds) :=
  ⟨⟨fun _ => reason, fun _ => rfl⟩, by simp⟩

theorem accounted_of_ofParser {result : Option GeneratedParser × List Diagnostic}
    (ran : ofParser layOut options catalog (readLexers ls).1 p = .ok result) :
    Accounted ls p result := by
  cases found : tableFor catalog (readLexers ls).1 p with
  | error problem =>
    rw [ofParser_of_tableFor found] at ran
    cases ran
    apply Accounted.of_none
    obtain ⟨d, rfl, error⟩ | ⟨rfl, broken⟩ := error_of_tableFor found
    · exact .inl (by simpa [hasErrors] using error)
    · exact .inr broken
  | ok table =>
    have sound := not_hasBrokenLexer_of_tableFor found
    rcases done : lowered catalog table p with f | ⟨none | l, ds⟩
    · simp only [ofParser, found, done] at ran
      cases ran
    · rw [ofParser_of_not_lowered found done] at ran
      cases ran
      exact .of_none (.inl (errors_of_lowered done))
    · obtain ⟨text, written⟩ := Code.fileText_eq_ok table l
      rw [ofParser_of_lowered found done written] at ran
      cases valid : Source.isFile text with
      | false =>
        simp only [valid, Bool.false_eq_true, if_false] at ran
        cases ran
        apply Accounted.of_none
        rw [hasErrors_append]
        exact .inl (Bool.or_true _)
      | true =>
        simp only [valid, if_true] at ran
        cases ran
        refine ⟨⟨fun missing => (Option.some_ne_none _ missing).elim, fun reason => ?_⟩, ?_⟩
        · rcases reason with errors | ⟨t, l, broken⟩
          · exact absurd (clean_of_lowered done) (by simp [errors])
          · exact absurd broken (sound t l)
        · rintro _ ⟨⟩
          have name := name_of_lowered done
          exact ⟨name, by rw [fileOf, name]⟩

theorem forall₂_of_no_errors {run : Description.Parser → Except Fault
      (Option GeneratedParser × List Diagnostic)} {common : List Diagnostic}
    {parsers : List Description.Parser}
    {results : List (Option GeneratedParser × List Diagnostic)}
    (each : List.Forall₂ (fun p r => run p = .ok r) parsers results)
    (accounted : ∀ p r, run p = .ok r → Accounted ls p r)
    (shown : ∀ p t l, HasBrokenLexer ls p t l → (TokenTable.ofLexer t l).2 ⊆ common)
    (clean : hasErrors (common ++ results.flatMap Prod.snd) = false) :
    List.Forall₂ (fun p out => (∃ ds, run p = .ok (some out, ds)) ∧ out.NamedAfter p) parsers
      (results.filterMap Prod.fst) := by
  rw [hasErrors_append, Bool.or_eq_false_iff] at clean
  obtain ⟨commonClean, ownClean⟩ := clean
  simp only [hasErrors, List.any_eq_false] at commonClean ownClean
  -- Each result has a file, since what would be missing has been reported.
  have filled : ∀ r ∈ results, ∃ out, r.1 = some out := by
    intro r member
    obtain ⟨p, -, ran⟩ := exists_left_of_forall₂ each member
    rw [← Option.ne_none_iff_exists']
    intro missing
    obtain errors | ⟨t, l, broken⟩ := (accounted p r ran).missing.mp missing
    · obtain ⟨d, own, error⟩ := List.any_eq_true.mp errors
      exact ownClean d (List.mem_flatMap_of_mem member own) error
    · obtain ⟨d, reported, error⟩ := List.any_eq_true.mp broken.errors
      exact commonClean d (shown p t l broken reported) error
  refine (forall₂_comp each (forall₂_filterMap filled)).imp ?_
  rintro p out ⟨⟨_, ds⟩, ran, rfl⟩
  exact ⟨⟨ds, ran⟩, (accounted p _ ran).name out rfl⟩

theorem HasBrokenLexer.reported {t : HostType} {l : Description.Lexer}
    (broken : HasBrokenLexer ls p t l) (ds : List Diagnostic) :
    (TokenTable.ofLexer t l).2 ⊆ ds ++ (readLexers ls).2.1 :=
  List.subset_append_of_subset_right _ ((readsLexers ls).reported t l broken.first)

theorem named_of_no_errors {d : Description} {g : Generation}
    (returned : ofDescription layOut options d = .ok g) (clean : hasErrors g.diagnostics = false) :
    List.Forall₂ (fun p out => out.NamedAfter p) d.parsers g.parsers := by
  obtain ⟨results, each, rfl⟩ := ok_of_map (ofDescription_eq layOut options d ▸ returned)
  exact (forall₂_of_no_errors (mapM_eq_ok_iff.mp each) (fun _ _ => accounted_of_ofParser)
    (fun _ _ _ broken => broken.reported _) clean).imp fun _ _ made => made.2

/-- The lexers and types of a description fix what is reported once, in front, and what each parser
gives, whatever other parsers there are, as long as none of them uses up the stack: a parser that
does so, which is one that tries an endless type, takes the files of all others with it. Where a
parser gives something, it has no file exactly if there is an error of its own or its token type has
a lexer with errors, all of which are reported in front. So without an error there is one file for
each parser, in their order. -/
theorem ofDescription_isolates (layOut : String → String) (options : Options)
    (lexers : List Description.Lexer) (types : List Description.TypeEntry) :
    ∃ (common : List Diagnostic)
      (run : Description.Parser → Except Fault (Option GeneratedParser × List Diagnostic)),
      (∀ parsers results, List.Forall₂ (fun p r => run p = .ok r) parsers results →
        ∃ notices, ofDescription layOut options { lexers, parsers, types } = .ok
          { parsers := results.filterMap Prod.fst
            diagnostics := common ++ results.flatMap Prod.snd
            notices }) ∧
      (∀ p f, run p = .error f ↔ f = .stackOverflow ∧
        ReadsEndless (Catalog.ofDescription { lexers, types }).1 (readLexers lexers).1 p) ∧
      (∀ parsers f, ofDescription layOut options { lexers, parsers, types } = .error f ↔
        ∃ p ∈ parsers, run p = .error f) ∧
      (∀ p r, run p = .ok r →
        (r.1 = none ↔ hasErrors r.2 = true ∨ ∃ t l, HasBrokenLexer lexers p t l)) ∧
      (∀ p t l, HasBrokenLexer lexers p t l → (TokenTable.ofLexer t l).2 ⊆ common) ∧
      ∀ parsers generation,
        ofDescription layOut options { lexers, parsers, types } = .ok generation →
        hasErrors generation.diagnostics = false →
        List.Forall₂ (fun p out => (∃ ds, run p = .ok (some out, ds)) ∧ out.name = p.name) parsers
          generation.parsers := by
  let catalog := (Catalog.ofDescription { lexers, types }).1
  let run := ofParser layOut options catalog (readLexers lexers).1
  have overflows (p : Description.Parser) :
      OverflowsIff (run p) (ReadsEndless catalog (readLexers lexers).1 p) :=
    overflows_ofParser layOut options catalog _ p
  have shown (p : Description.Parser) (t : HostType) (l : Description.Lexer)
      (broken : HasBrokenLexer lexers p t l) :
      (TokenTable.ofLexer t l).2 ⊆ (Catalog.ofDescription { lexers, types }).2 ++
        (readLexers lexers).2.1 :=
    broken.reported _
  have accounted (p : Description.Parser) (r : Option GeneratedParser × List Diagnostic)
      (ran : run p = .ok r) : Accounted lexers p r :=
    accounted_of_ofParser ran
  refine ⟨_, run, fun parsers results each => ?_, fun p f => (overflows p).error_iff,
    fun parsers f => ?_, fun p r ran => (accounted p r ran).missing, shown,
    fun parsers generation returned clean => ?_⟩
  · have ran : parsers.mapM run = .ok results := mapM_eq_ok_iff.mpr each
    refine ⟨(collected { lexers, parsers, types } results).notices, ?_⟩
    change (do return collected { lexers, parsers, types } (← parsers.mapM run)) = _
    rw [ran]
    rfl
  · rw [(overflows_ofDescription layOut options _).error_iff]
    simp only [(overflows _).error_iff]
    constructor
    · rintro ⟨rfl, p, listed, endless⟩
      exact ⟨p, listed, rfl, endless⟩
    · rintro ⟨p, listed, rfl, endless⟩
      exact ⟨rfl, p, listed, endless⟩
  · obtain ⟨results, each, rfl⟩ := ok_of_map (ofDescription_eq layOut options _ ▸ returned)
    exact (forall₂_of_no_errors (mapM_eq_ok_iff.mp each) accounted shown clean).imp
      fun _ _ made => ⟨made.1, made.2.name⟩

def digits : Description where
  lexers := [⟨"Kind", [⟨"Digit", some "[0-9]", false⟩]⟩]
  parsers :=
    [{ name := "Bad", tokenType := some "Kind",
       productions := [⟨"value", "Digit", none, some "T"⟩] },
     { name := "Good", tokenType := some "Kind", functions := [⟨"f", ["Token<'_>"], "u8"⟩],
       productions := [⟨"digit", "Digit", some "f", none⟩] }]
  types := shadowed

theorem digits_lost :
    (∃ g, ofDescription id {} { digits with parsers := digits.parsers.drop 1 } = .ok g) ∧
      ofDescription id {} digits = .error .stackOverflow := by
  refine ⟨(overflows_ofDescription _ _ _).exists_ok_iff.mpr ?_, by decide +kernel⟩
  rintro ⟨p, listed, endless⟩
  obtain rfl := List.mem_singleton.mp listed
  exact absurd endless (not_readsEndless_of_lowered (by decide +kernel))

example :
    let p : Description.Parser := { name := "Digits", tokenType := some "Kind" }
    (ofDescription id {} { lexers := [⟨"Kind", []⟩], parsers := [p, { p with name := "Sums" }] }).toOption.map
      (fun g => (g.parsers, g.diagnostics.map (·.code))) = some ([], [.noTokenRules]) := by
  decide +kernel

end Generation

end Pegsmith
