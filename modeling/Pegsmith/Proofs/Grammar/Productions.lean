import Mathlib
import Pegsmith.Grammar.Basic
import Pegsmith.Proofs.Grammar.Firsts
import Pegsmith.Proofs.Types.Bases

set_option autoImplicit false

namespace Pegsmith

namespace Grammar

theorem forall₂_successes_of_forall₂ {α β : Type} {R : α → Except (List Diagnostic) β → Prop}
    {xs : List α} {results : List (Except (List Diagnostic) β)}
    (related : List.Forall₂ R xs results) (severe : ∀ x ds, R x (.error ds) → hasErrors ds = true)
    (clean : hasErrors (problems results) = false) :
    List.Forall₂ (fun x y => R x (.ok y)) xs (successes results) := by
  induction related with
  | nil => exact .nil
  | @cons x result xs results here _ ih =>
    cases result with
    | error ds =>
      have severe := severe x ds here
      simp [problems, severe] at clean
    | ok y =>
      have rest : hasErrors (problems results) = false := by
        simpa [problems] using clean
      have found := List.Forall₂.cons (R := fun x y => R x (.ok y)) here (ih rest)
      simpa [successes, Except.toOption] using found

theorem forall₂_successes {α β : Type} {f : α → Except (List Diagnostic) β} {xs : List α}
    (severe : ∀ x ds, f x = .error ds → hasErrors ds = true)
    (clean : hasErrors (problems (xs.map f)) = false) :
    List.Forall₂ (fun x y => f x = .ok y) xs (successes (xs.map f)) :=
  forall₂_successes_of_forall₂
    (List.forall₂_map_right_iff.mpr (List.forall₂_same.mpr fun _ _ => rfl)) severe clean

end Grammar

structure Target.IsOf (f : Description.Function) (t : Target) : Prop where
  maker : t.maker = .function f.name
  params : f.params.mapM Catalog.readType = .ok t.params
  returns : Catalog.readType f.returns = .ok t.returns

inductive Goal.MeantBy (p : Description.Parser) (q : Description.Production) : Goal → Prop where
  | function {f : Description.Function} {t : Target} (declared : f ∈ p.functions)
      (named : q.function = some f.name) (target : t.IsOf f) : Goal.MeantBy p q (.function t)
  | construct {src : String} {type : HostType} (named : q.construct = some src)
      (read : Catalog.readType src = .ok type) : Goal.MeantBy p q (.construct type)

structure Alternative.Reads (p : Description.Parser) (q : Description.Production)
    (a : Alternative) : Prop where
  named : Grammar.isNonTerminalName q.name = true
  text : a.text = q.pattern
  pattern : Pattern.parse q.pattern = .ok a.pattern
  goal : a.goal.MeantBy p q

namespace Grammar

theorem isOf_of_readFunction {parser : String} {f : Description.Function} {name : String}
    {t : Target} (read : readFunction parser f = .ok (name, t)) : name = f.name ∧ t.IsOf f := by
  unfold readFunction at read
  split at read
  · cases read
  · split at read <;> cases read
    exact ⟨rfl, rfl, by assumption, by assumption⟩

theorem readFunction_severe {parser : String} {f : Description.Function} {ds : List Diagnostic}
    (failed : readFunction parser f = .error ds) : hasErrors ds = true := by
  unfold readFunction at failed
  split at failed
  · cases failed
    rfl
  · split at failed <;> cases failed <;> rfl

variable {p : Description.Parser} {q : Description.Production} {location : Location}

theorem meantBy_of_readGoal {parser : String} {functions : List (String × Target)} {goal : Goal}
    (sound : ∀ name t, (name, t) ∈ functions → ∃ f ∈ p.functions, name = f.name ∧ t.IsOf f)
    (read : readGoal parser functions location q = .ok goal) : goal.MeantBy p q := by
  unfold readGoal at read
  split at read
  · next name named _ =>
    split at read
    · next t found =>
      cases read
      obtain ⟨_, _, split, -⟩ := List.lookup_eq_some_iff.mp found
      have member : (name, t) ∈ functions.reverse := by simp [split]
      obtain ⟨f, declared, rfl, target⟩ := sound name t (List.mem_reverse.mp member)
      exact .function declared named target
    · cases read
  · next src _ named =>
    split at read
    · cases read
      exact .construct named (by assumption)
    · cases read
  · cases read
  · cases read

theorem readGoal_severe {parser : String} {functions : List (String × Target)} {d : Diagnostic}
    (failed : readGoal parser functions location q = .error d) : d.isError = true := by
  unfold readGoal at failed
  split at failed
  · split at failed <;> cases failed
    rfl
  · split at failed <;> cases failed
    rfl
  · cases failed
    rfl
  · cases failed
    rfl

theorem reads_of_readProduction {parser : String} {functions : List (String × Target)}
    {a : Alternative}
    (sound : ∀ name t, (name, t) ∈ functions → ∃ f ∈ p.functions, name = f.name ∧ t.IsOf f)
    (read : readProduction parser functions location q = .ok a) : a.Reads p q := by
  unfold readProduction at read
  split at read
  · cases read
  · next named =>
    split at read
    · cases read
    · next pattern parsed =>
      obtain ⟨goal, found, rfl⟩ := ok_of_map read
      exact ⟨by simpa using named, rfl, parsed, meantBy_of_readGoal sound found⟩

theorem readProduction_severe {parser : String} {functions : List (String × Target)}
    {d : Diagnostic} (failed : readProduction parser functions location q = .error d) :
    d.isError = true := by
  unfold readProduction at failed
  split at failed
  · cases failed
    rfl
  · split at failed
    · cases failed
      rfl
    · cases goal : readGoal parser functions location q with
      | ok => simp [goal, bind, Except.bind, pure, Except.pure] at failed
      | error e =>
        rw [goal] at failed
        cases failed
        exact readGoal_severe goal

theorem map_fst_numbered (ps : List Description.Production) : (numbered ps).map Prod.fst = ps := by
  simp [numbered, Function.comp_def]

theorem forall₂_readProductions {parser : String} {functions : List (String × Target)}
    {ps : List Description.Production}
    (sound : ∀ name t, (name, t) ∈ functions → ∃ f ∈ p.functions, name = f.name ∧ t.IsOf f)
    (clean : hasErrors (problems (readProductions parser functions ps)) = false) :
    List.Forall₂ (fun q x => x.1 = q.name ∧ x.2.Reads p q) ps
      (successes (readProductions parser functions ps)) := by
  unfold readProductions at clean ⊢
  have read := forall₂_successes ?_ clean
  -- The number of a production is part of its location only.
  · conv => arg 2; rw [← map_fst_numbered ps]
    rw [List.forall₂_map_left_iff]
    refine read.imp fun r x found => ?_
    split at found <;> cases found
    exact ⟨rfl, reads_of_readProduction sound (by assumption)⟩
  · intro r ds failed
    split at failed <;> cases failed
    simpa [hasErrors] using readProduction_severe (by assumption)

theorem forall₂_group {ps : List Description.Production}
    {alternatives : List (String × Alternative)} {n : NonTerminal}
    (read : List.Forall₂ (fun q x => x.1 = q.name ∧ x.2.Reads p q) ps alternatives)
    (listed : n ∈ group p.name ps alternatives) :
    List.Forall₂ (fun q a => a.Reads p q) (ps.filter (·.name == n.name)) n.alternatives := by
  obtain ⟨name, -, rfl⟩ := List.mem_map.mp listed
  have same : (Relator.LiftFun (fun q (x : String × Alternative) => x.1 = q.name ∧ x.2.Reads p q)
      (· ↔ ·)) (fun q => (q.name == name) = true) fun x => (x.1 == name) = true := by
    rintro q x ⟨same, -⟩
    simp only [same]
  have filtered := List.rel_filter same read
  rw [List.forall₂_map_right_iff]
  exact filtered.imp fun q x both => both.2

theorem names_group {ps : List Description.Production}
    {alternatives : List (String × Alternative)}
    (read : List.Forall₂ (fun q x => x.1 = q.name ∧ x.2.Reads p q) ps alternatives) :
    IsFirsts (ps.map (·.name)) ((group p.name ps alternatives).map (·.name)) := by
  have named (name : String) (member : name ∈ ps.map (·.name)) : isNonTerminalName name = true := by
    obtain ⟨q, listed, rfl⟩ := List.mem_map.mp member
    obtain ⟨x, -, -, reads⟩ := exists_right_of_forall₂ read listed
    exact reads.named
  have all : (ps.map (·.name)).filter isNonTerminalName = ps.map (·.name) :=
    List.filter_eq_self.mpr named
  have firsts := TokenTable.isFirsts_firsts (ps.map (·.name))
  simpa [group, all, Function.comp_def] using firsts

theorem alternatives_ne_nil {ps : List Description.Production}
    {alternatives : List (String × Alternative)} {n : NonTerminal}
    (read : List.Forall₂ (fun q x => x.1 = q.name ∧ x.2.Reads p q) ps alternatives)
    (listed : n ∈ group p.name ps alternatives) : n.alternatives ≠ [] := by
  have named := ((names_group read).mem n.name).mp (List.mem_map_of_mem listed)
  obtain ⟨q, member, same⟩ := List.mem_map.mp named
  have chosen : q ∈ ps.filter (·.name == n.name) := by simp [member, same]
  obtain ⟨a, member, -⟩ := exists_right_of_forall₂ (forall₂_group read listed) chosen
  exact List.ne_nil_of_mem member

theorem readValue_severe {types : TypeSystem} {n : NonTerminal} {ds : List Diagnostic}
    (failed : readValue types n = .error ds) : hasErrors ds = true := by
  unfold readValue at failed
  split at failed <;> cases failed
  rfl

def Values (types : TypeSystem) (n : NonTerminal) (x : String × HostType) : Prop :=
  x.1 = n.name ∧ types.common (n.alternatives.map (·.goal.returns)) = .ok (some x.2)

theorem values_of_readValue {types : TypeSystem} {n : NonTerminal}
    {found : Option (String × HostType)} (filled : n.alternatives ≠ [])
    (read : readValue types n = .ok found) : ∃ x, found = some x ∧ Values types n x := by
  unfold readValue at read
  split at read
  · next t common =>
    cases read
    cases t with
    | none => exact absurd common (TypeSystem.common_ne_none (by simpa using filled))
    | some value => exact ⟨(n.name, value), rfl, rfl, common⟩
  · cases read

theorem forall₂_values {types : TypeSystem} {ns : List NonTerminal}
    (filled : ∀ n ∈ ns, n.alternatives ≠ [])
    (clean : hasErrors (problems (ns.map (readValue types))) = false) :
    List.Forall₂ (Values types) ns ((successes (ns.map (readValue types))).filterMap id) := by
  have read := forall₂_successes (fun _ _ => readValue_severe) clean
  generalize successes (ns.map (readValue types)) = found at read
  clear clean
  induction read with
  | nil => exact .nil
  | cons first rest ih =>
    obtain ⟨x, rfl, values⟩ := values_of_readValue (filled _ List.mem_cons_self) first
    have others := ih fun n member => filled n (List.mem_cons_of_mem _ member)
    simpa using List.Forall₂.cons values others

theorem lookup_values {types : TypeSystem} {ns : List NonTerminal}
    {values : List (String × HostType)} (related : List.Forall₂ (Values types) ns values)
    (distinct : (ns.map (·.name)).Nodup) {n : NonTerminal} (listed : n ∈ ns) :
    ∃ value, values.lookup n.name = some value ∧ Values types n (n.name, value) := by
  induction related with
  | nil => cases listed
  | @cons m x ns values first rest ih =>
    obtain ⟨name, value⟩ := x
    obtain ⟨rfl, common⟩ := first
    rw [List.map_cons, List.nodup_cons] at distinct
    cases listed with
    | head => exact ⟨value, List.lookup_cons_self, rfl, common⟩
    | tail _ later =>
      -- The first entry has another name, so the look-up goes on behind it.
      obtain ⟨value', found, same⟩ := ih distinct.2 later
      have ne : n.name ≠ m.name := fun same => distinct.1 (same ▸ List.mem_map_of_mem later)
      exact ⟨value', by rw [List.lookup_cons, beq_false_of_ne ne]; exact found, same⟩

/-- What holds of the grammar of a parser of which nothing is wrong. -/
structure Reads (types : TypeSystem) (tokens : TokenTable) (p : Description.Parser)
    (g : Grammar) : Prop where
  names : IsFirsts (p.productions.map (·.name)) (g.nonTerminals.map (·.name))
  alternatives : ∀ n ∈ g.nonTerminals,
    List.Forall₂ (fun q a => a.Reads p q) (p.productions.filter (·.name == n.name)) n.alternatives
  value : ∀ n ∈ g.nonTerminals, ∃ value, g.value? n.name = some value ∧
    types.common (n.alternatives.map (·.goal.returns)) = .ok (some value)
  leaves : ∀ n ∈ g.nonTerminals, ∀ a ∈ n.alternatives, ∀ leaf ∈ a.pattern.leaves,
    g.leafProblem tokens a.location leaf = none

theorem leafProblem_severe {g : Grammar} {tokens : TokenTable} {location : Location}
    {leaf : Pattern.Leaf} {d : Diagnostic} (wrong : g.leafProblem tokens location leaf = some d) :
    d.isError = true := by
  unfold leafProblem at wrong
  split at wrong <;> split at wrong <;> cases wrong <;> rfl

theorem leafProblem_eq_none {g : Grammar} {tokens : TokenTable}
    (clean : hasErrors (g.referenceProblems tokens) = false) {n : NonTerminal}
    (listed : n ∈ g.nonTerminals) {a : Alternative} (alternative : a ∈ n.alternatives)
    {leaf : Pattern.Leaf} (occurs : leaf ∈ a.pattern.leaves) :
    g.leafProblem tokens a.location leaf = none := by
  rw [Option.eq_none_iff_forall_ne_some]
  intro d wrong
  have reported : d ∈ g.referenceProblems tokens := by
    simp only [referenceProblems, List.mem_flatMap, List.mem_filterMap]
    exact ⟨n, listed, a, alternative, leaf, occurs, wrong⟩
  simp only [hasErrors, List.any_eq_false] at clean
  exact clean d reported (leafProblem_severe wrong)

theorem reads_of_ofParser {types : TypeSystem} {tokens : TokenTable}
    (clean : hasErrors (ofParser p tokens types).2 = false) :
    (ofParser p tokens types).1.Reads types tokens p := by
  simp only [ofParser, hasErrors_append, Bool.or_eq_false_iff] at clean
  obtain ⟨⟨⟨functions, alternatives⟩, references⟩, values⟩ := clean
  have declared := forall₂_successes (fun _ _ => readFunction_severe) functions
  have read := forall₂_readProductions (p := p) ?_ alternatives
  -- A non-terminal is there for the name of some production, which is one of its alternatives.
  · have filled (n : NonTerminal) (listed : n ∈ group p.name p.productions _) :=
      alternatives_ne_nil read listed
    have valued := forall₂_values filled values
    refine ⟨names_group read, fun n => forall₂_group read, fun n listed => ?_,
      fun n listed a alternative leaf => leafProblem_eq_none references listed alternative⟩
    obtain ⟨value, found, -, common⟩ := lookup_values valued (names_group read).nodup listed
    exact ⟨value, found, common⟩
  · intro name t member
    obtain ⟨f, listed, found⟩ := exists_left_of_forall₂ declared member
    exact ⟨f, listed, isOf_of_readFunction found⟩

end Grammar

end Pegsmith
