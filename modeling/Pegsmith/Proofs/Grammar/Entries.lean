import Pegsmith.Proofs.Grammar.Firsts
import Pegsmith.Proofs.Results

set_option autoImplicit false

namespace Pegsmith.TokenTable

variable {isRegex : String → Bool} {token : Description.Token} {tokens : List Description.Token}
  {path : String}

def isUsable (isRegex : String → Bool) (token : Description.Token) : Bool :=
  isKindName token.name && token.regex.any isRegex

def isRefused (isRegex : String → Bool) (token : Description.Token) : Bool :=
  !isKindName token.name || token.regex.any fun regex => !isRegex regex

def refusal (token : Description.Token) : Code :=
  if isKindName token.name then .invalidRegex else .invalidType

structure Declares (token : Description.Token) (rule : TokenRule) : Prop where
  kind : rule.kind = token.name
  regex : token.regex = some rule.regex
  ignored : rule.ignored = token.ignored

theorem kind_entry (isRegex : String → Bool) (token : Description.Token) :
    (entry isRegex token).kind = if isKindName token.name then some token.name else none := by
  unfold entry
  cases isKindName token.name with
  | false => rfl
  | true =>
    cases token.regex with
    | none => rfl
    | some regex => cases compiles : isRegex regex <;> simp [compiles]

theorem rule_entry_of_usable (usable : isUsable isRegex token = true) :
    ∃ rule, (entry isRegex token).rule = some rule ∧ Declares token rule := by
  obtain ⟨name, regex, ignored⟩ := token
  simp only [isUsable, Bool.and_eq_true, Option.any_eq_true] at usable
  obtain ⟨named, source, rfl, compiles⟩ := usable
  exact ⟨⟨name, source, ignored⟩, by simp [entry, named, compiles], rfl, rfl, rfl⟩

theorem rule_entry_eq_none (usable : isUsable isRegex token = false) :
    (entry isRegex token).rule = none := by
  unfold isUsable at usable
  unfold entry
  cases named : isKindName token.name with
  | false => rfl
  | true =>
    cases declared : token.regex with
    | none => rfl
    | some regex =>
      have broken : isRegex regex = false := by simpa [named, declared] using usable
      simp [broken]

theorem problem_entry_of_refused (refused : isRefused isRegex token = true) :
    ∃ message, (entry isRegex token).problem = some (refusal token, message) := by
  unfold isRefused at refused
  unfold entry refusal
  cases named : isKindName token.name with
  | false => exact ⟨_, rfl⟩
  | true =>
    cases declared : token.regex with
    | none => simp [named, declared] at refused
    | some regex =>
      have broken : isRegex regex = false := by simpa [named, declared] using refused
      simp [broken]

theorem problem_entry_eq_none (refused : isRefused isRegex token = false) :
    (entry isRegex token).problem = none := by
  unfold isRefused at refused
  unfold entry
  cases named : isKindName token.name with
  | false => simp [named] at refused
  | true =>
    cases declared : token.regex with
    | none => rfl
    | some regex =>
      have compiles : isRegex regex = true := by simpa [named, declared] using refused
      simp [compiles]

theorem kinds_read (isRegex : String → Bool) (tokenType : HostType) (l : Description.Lexer) :
    IsFirsts ((l.tokens.map (·.name)).filter isKindName) (read isRegex tokenType l).1.kinds := by
  have names : (l.tokens.map (entry isRegex)).filterMap (·.kind) =
      (l.tokens.map (·.name)).filter isKindName := by
    induction l.tokens with
    | nil => rfl
    | cons token tokens ih =>
      by_cases named : isKindName token.name = true <;> simp [kind_entry, named, ih]
  have firsts := isFirsts_firsts ((l.tokens.map (entry isRegex)).filterMap (·.kind))
  rw [names] at firsts
  simpa [read, ofEntries, names] using firsts

theorem rules_read (isRegex : String → Bool) (tokenType : HostType) (l : Description.Lexer) :
    List.Forall₂ Declares (l.tokens.filter (isUsable isRegex))
      (read isRegex tokenType l).1.rules := by
  have sorted := forall₂_filter_filterMap (R := Declares) (p := isUsable isRegex)
    (f := fun token => (entry isRegex token).rule) l.tokens (fun _ => rule_entry_of_usable)
    fun _ => rule_entry_eq_none
  simpa [read, ofEntries, List.filterMap_map, Function.comp_def] using sorted

/-- What is reported about an entry by its number, which counts from one. -/
structure Refuses (path : String) (numbered : Description.Token × Nat) (d : Diagnostic) : Prop where
  code : d.code = refusal numbered.1
  location : d.location = ⟨path ++ ", token #" ++ toString (numbered.2 + 1), none⟩

theorem refuses_entryProblems (isRegex : String → Bool) (path : String)
    (tokens : List Description.Token) :
    List.Forall₂ (Refuses path) (tokens.zipIdx.filter fun numbered => isRefused isRegex numbered.1)
      (entryProblems path (tokens.map (entry isRegex))) := by
  have sorted := forall₂_filter_filterMap (R := Refuses path)
    (p := fun numbered => isRefused isRegex numbered.1)
    (f := fun numbered : Description.Token × Nat =>
      (entry isRegex numbered.1).problem.map fun problem =>
        ⟨problem.1, problem.2, ⟨path ++ ", token #" ++ toString (numbered.2 + 1), none⟩⟩)
    tokens.zipIdx ?_ ?_
  · simpa [entryProblems, List.zipIdx_map, List.filterMap_map, Function.comp_def] using sorted
  · intro numbered refused
    obtain ⟨message, reported⟩ := problem_entry_of_refused refused
    exact ⟨_, by rw [reported]; rfl, rfl, rfl⟩
  · intro numbered accepted
    rw [problem_entry_eq_none accepted, Option.map_none]

def unbacked (t : TokenTable) : List String :=
  t.kinds.filter fun kind => t.rules.all (·.kind != kind)

def neverProduced (path kind : String) : Diagnostic :=
  ⟨.kindWithoutRule, "token kind `" ++ kind ++ "` has no rule and is never produced", ⟨path, none⟩⟩

theorem tableProblems_eq (path : String) (t : TokenTable)
    (backed : ∀ rule ∈ t.rules, rule.kind ∈ t.kinds) :
    ∃ lacking, lacking.map (·.code) = (if t.rules = [] then [Code.noTokenRules] else []) ∧
      tableProblems path t = lacking ++ t.unbacked.map (neverProduced path) := by
  have same : (t.kinds.filter fun kind => !(t.rules.any (·.kind == kind))) = t.unbacked := by
    simp [unbacked, List.all_eq_not_any_not, bne]
  refine ⟨_, ?_, by rw [tableProblems, same]; rfl⟩
  by_cases none : t.rules = []
  · by_cases empty : t.kinds = [] <;> simp [none, empty]
  · -- A table with a rule has the kind of this rule.
    obtain ⟨rule, rest, split⟩ := List.exists_cons_of_ne_nil none
    have filled : t.kinds ≠ [] := List.ne_nil_of_mem (backed rule (by simp [split]))
    simp [none, filled]

theorem kind_mem_read (isRegex : String → Bool) (tokenType : HostType) (l : Description.Lexer) :
    ∀ rule ∈ (read isRegex tokenType l).1.rules,
      rule.kind ∈ (read isRegex tokenType l).1.kinds := by
  intro rule member
  obtain ⟨token, listed, declares⟩ := exists_left_of_forall₂ (rules_read isRegex tokenType l) member
  have usable : token ∈ l.tokens ∧ isKindName token.name = true ∧
      token.regex.any isRegex = true := by
    simpa [isUsable] using listed
  rw [(kinds_read isRegex tokenType l).mem, declares.kind]
  simp only [List.mem_filter, List.mem_map]
  exact ⟨⟨token, usable.1, rfl⟩, usable.2.1⟩

theorem hasErrors_eq_any_code (ds : List Diagnostic) :
    hasErrors ds = (ds.map (·.code)).any fun code => code.severity == .error := by
  rw [hasErrors, List.any_map]
  rfl

theorem hasErrors_refused {ds : List Diagnostic}
    (refused : List.Forall₂ (Refuses path)
      (tokens.zipIdx.filter fun numbered => isRefused isRegex numbered.1) ds) :
    hasErrors ds = tokens.any fun token => !isKindName token.name := by
  have codes : (tokens.zipIdx.filter fun numbered => isRefused isRegex numbered.1).map
      (fun numbered => refusal numbered.1) = ds.map (·.code) :=
    map_eq_of_forall₂ refused fun _ _ refuses => refuses.code.symm
  have severe (token : Description.Token) :
      (isRefused isRegex token && ((refusal token).severity == .error)) =
        !isKindName token.name := by
    by_cases named : isKindName token.name = true <;>
      simp [isRefused, refusal, named, Code.severity]
  have entries : tokens.zipIdx.map Prod.fst = tokens := by simp
  rw [hasErrors_eq_any_code, ← codes, List.any_map, List.any_filter]
  conv_rhs => rw [← entries, List.any_map]
  simp only [Function.comp_def, severe]

/-- A table and the diagnostics beside it account for every entry. Entries are refused before the
table is looked at, and a table that lacks a kind or a rule is reported before the kinds that no
rule makes. -/
structure Classifies (isRegex : String → Bool) (path : String) (tokens : List Description.Token)
    (t : TokenTable) (ds : List Diagnostic) : Prop where
  kinds : IsFirsts ((tokens.map (·.name)).filter isKindName) t.kinds
  rules : List.Forall₂ Declares (tokens.filter (isUsable isRegex)) t.rules
  backed : ∀ rule ∈ t.rules, rule.kind ∈ t.kinds
  reported : ∃ refused lacking,
    List.Forall₂ (Refuses path) (tokens.zipIdx.filter fun numbered => isRefused isRegex numbered.1)
      refused ∧
    lacking.map (·.code) = (if t.rules = [] then [Code.noTokenRules] else []) ∧
    ds = refused ++ (lacking ++ t.unbacked.map (neverProduced path))
  errors : hasErrors ds = true ↔ (∃ token ∈ tokens, isKindName token.name = false) ∨ t.rules = []

theorem read_classifies (isRegex : String → Bool) (tokenType : HostType) (l : Description.Lexer) :
    Classifies isRegex ("lexer " ++ tokenType.text) l.tokens (read isRegex tokenType l).1
      (read isRegex tokenType l).2 := by
  have refused := refuses_entryProblems isRegex ("lexer " ++ tokenType.text) l.tokens
  have backed := kind_mem_read isRegex tokenType l
  obtain ⟨lacking, codes, checked⟩ := tableProblems_eq ("lexer " ++ tokenType.text) _ backed
  refine ⟨kinds_read isRegex tokenType l, rules_read isRegex tokenType l, backed,
    ⟨_, lacking, refused, codes, congrArg (_ ++ ·) checked⟩, ?_⟩
  -- A kind without a rule is a warning, so only refused names and a missing rule are errors.
  have warnings : hasErrors ((read isRegex tokenType l).1.unbacked.map
      (neverProduced ("lexer " ++ tokenType.text))) = false := by
    simp [hasErrors, neverProduced, Diagnostic.isError, Diagnostic.severity, Code.severity]
  have lacks : hasErrors lacking = true ↔ (read isRegex tokenType l).1.rules = [] := by
    rw [hasErrors_eq_any_code, codes]
    split <;> simp_all [Code.severity]
  calc hasErrors (read isRegex tokenType l).2 = true
      ↔ hasErrors (entryProblems ("lexer " ++ tokenType.text) (l.tokens.map (entry isRegex)) ++
          (lacking ++ _)) = true := by rw [← checked]; rfl
    _ ↔ _ := by simp [hasErrors_append, hasErrors_refused refused, warnings, lacks]

example :
    let tokens : List Description.Token :=
      [⟨"Late", none, false⟩, ⟨"late", some "a", false⟩, ⟨"Broken", some "(", false⟩,
        ⟨"Late", some "a", true⟩]
    let t := ofEntries (.other "Token") (tokens.map (entry (· == "a")))
    t.kinds = ["Late", "Broken"] ∧ t.rules = [⟨"Late", "a", true⟩] ∧ t.unbacked = ["Broken"] := by
  decide

end Pegsmith.TokenTable
