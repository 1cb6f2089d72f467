import Mathlib
import Pegsmith.Proofs.Code.Name
import Pegsmith.Proofs.Generation

set_option autoImplicit false

namespace Pegsmith

namespace Description.Parser

def StemsApart (p : Description.Parser) : Prop :=
  ∀ q ∈ p.productions, ∀ r ∈ p.productions,
    Code.snakeCase q.name = Code.snakeCase r.name → q.name = r.name

/-- No two productions are named after a word that has no raw form and after that word with an
underscore behind it. -/
def WordsApart (p : Description.Parser) : Prop :=
  ∀ q ∈ p.productions, ∀ r ∈ p.productions,
    Code.snakeCase q.name ∈ Code.unraw → Code.snakeCase r.name ≠ Code.snakeCase q.name ++ "_"

end Description.Parser

def LoweredGrammar.names (l : LoweredGrammar) : List String :=
  l.nonTerminals.map (·.name)

theorem IsFirsts.nodup_map_iff {α β : Type} [BEq α] {xs ys : List α} (firsts : IsFirsts xs ys)
    (f : α → β) : (ys.map f).Nodup ↔ ∀ x ∈ xs, ∀ y ∈ xs, f x = f y → x = y := by
  rw [List.nodup_map_iff_inj_on firsts.nodup]
  simp only [firsts.mem]

namespace Generation

variable {catalog : Catalog} {table : TokenTable} {p : Description.Parser} {l : LoweredGrammar}
  {ds : List Diagnostic}

theorem named_of_lowered (done : lowered catalog table p = .ok (some l, ds)) :
    ∀ q ∈ p.productions, Grammar.isNonTerminalName q.name = true := by
  intro q declared
  obtain ⟨more, lowers⟩ := lowersTo_of_lowered done
  have read := lowers.reads
  -- A production is an alternative of the non-terminal of its name, which has read it.
  have listed := (read.names.mem q.name).mpr (List.mem_map_of_mem declared)
  obtain ⟨n, member, same⟩ := List.mem_map.mp listed
  have chosen : q ∈ p.productions.filter (·.name == n.name) := by simp [declared, same]
  obtain ⟨a, -, reads⟩ := exists_right_of_forall₂ (read.alternatives n member) chosen
  exact reads.named

theorem valid_names_of_lowered (done : lowered catalog table p = .ok (some l, ds)) :
    ∀ name ∈ l.names, ∀ c ∈ name.toList, Pattern.continuesName c = true := by
  intro name listed c occurs
  have declared := ((complete_of_lowered done).names.mem name).mp listed
  obtain ⟨q, member, rfl⟩ := List.mem_map.mp declared
  have named := named_of_lowered done q member
  rw [Grammar.isNonTerminalName, Bool.and_eq_true, List.all_eq_true] at named
  exact named.2 c occurs

theorem nodup_stems_iff (done : lowered catalog table p = .ok (some l, ds)) :
    (l.names.map Code.snakeCase).Nodup ↔ p.StemsApart := by
  rw [LoweredGrammar.names, (complete_of_lowered done).names.nodup_map_iff]
  simp only [List.forall_mem_map]
  rfl

theorem words_apart_iff (done : lowered catalog table p = .ok (some l, ds)) :
    (∀ word ∈ Code.unraw, word ∈ l.names.map Code.snakeCase →
      word ++ "_" ∉ l.names.map Code.snakeCase) ↔ p.WordsApart := by
  have declared (stem : String) : stem ∈ l.names.map Code.snakeCase ↔
      ∃ q ∈ p.productions, Code.snakeCase q.name = stem := by
    simp only [List.mem_map, LoweredGrammar.names, (complete_of_lowered done).names.mem]
    simp
  simp only [declared]
  constructor
  · intro apart q hq r hr word same
    exact apart _ word ⟨q, hq, rfl⟩ ⟨r, hr, same⟩
  · rintro apart _ word ⟨q, hq, rfl⟩ ⟨r, hr, same⟩
    exact apart q hq r hr word same

theorem nodup_rules_iff (done : lowered catalog table p = .ok (some l, ds)) :
    (l.names.map Code.ruleMethod).Nodup ↔ p.StemsApart ∧ p.WordsApart := by
  rw [Code.nodup_ruleMethod (valid_names_of_lowered done), nodup_stems_iff done,
    words_apart_iff done]

/-- A run returns unless a parser tries an endless type. In each generated file non-terminals have
different names. Their memo tables and their entry methods are different exactly if snake case tells
the names of the productions apart, and their rule methods exactly if moreover no name is a word like
`self` next to that word with an underscore behind it. -/
theorem ofDescription_members (layOut : String → String) (options : Options) (d : Description) :
    (IsEndless d ∧ ofDescription layOut options d = .error .stackOverflow) ∨
    ¬IsEndless d ∧ ∃ generation results, ofDescription layOut options d = .ok generation ∧
      generation.parsers = results.filterMap Prod.fst ∧
      List.Forall₂ (fun p result => ofParser layOut options (Catalog.ofDescription d).1
          (readLexers d.lexers).1 p = .ok result ∧
        ∀ out, result.1 = some out → ∃ table l, WrittenFrom layOut options d p table l out ∧
          l.names.Nodup ∧
          ((l.names.map Code.memoField).Nodup ↔ p.StemsApart) ∧
          ((l.names.map Code.entryMethod).Nodup ↔ p.StemsApart) ∧
          ((l.names.map Code.ruleMethod).Nodup ↔ p.StemsApart ∧ p.WordsApart))
        d.parsers results := by
  obtain overflows | ⟨ends, generation, results, returned, rfl, each⟩ :=
    ofDescription_cases layOut options d
  · exact .inl overflows
  refine .inr ⟨ends, _, results, returned, rfl, each.imp fun p result emits => ⟨emits, ?_⟩⟩
  obtain ⟨_, ds⟩ := result
  rintro out rfl
  obtain ⟨table, l, text, found, done, written, rfl⟩ := steps_of_ofParser emits
  refine ⟨table, l, ⟨found, ⟨ds, done⟩, text, written, rfl⟩, ?_, ?_, ?_, nodup_rules_iff done⟩
  · exact (complete_of_lowered done).names.nodup
  · rw [Code.nodup_memoField, nodup_stems_iff done]
  · rw [Code.nodup_entryMethod, nodup_stems_iff done]

end Generation

end Pegsmith
