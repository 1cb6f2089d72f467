import Mathlib
import Pegsmith.Grammar.Lowered
import Pegsmith.Proofs.Grammar.Productions
import Pegsmith.Proofs.Overflow
import Pegsmith.Proofs.Plan.Leaves

set_option autoImplicit false

namespace Pegsmith

open Relation (TransGen)

inductive Target.Answers (types : TypeSystem) : Goal → Target → Prop where
  | function {t : Target} : Answers types (.function t) t
  | construct {type : HostType} {arity : Nat} {c : Constructor}
      (listed : c ∈ types.constructors type arity) :
      Answers types (.construct type) ⟨.constructor c.path, c.params, type⟩

theorem Target.Answers.returns {types : TypeSystem} {goal : Goal} {t : Target}
    (answers : t.Answers types goal) : t.returns = goal.returns := by
  cases answers <;> rfl

namespace Grammar

variable {g : Grammar} {types : TypeSystem} {a : Alternative} {t : Target} {plan : Plan}

theorem planFor_eq_ok_iff {result : Except String Plan} :
    g.planFor types a t = .ok result ↔
      ∃ demand, Demand.ofParams types g.tokenType t.params = .ok demand ∧
        g.planAs types a t demand = result := by
  constructor
  · intro made
    obtain ⟨demand, read, rfl⟩ := ok_of_map made
    exact ⟨demand, read, rfl⟩
  · rintro ⟨demand, read, rfl⟩
    rw [planFor, read]
    rfl

theorem outline_of_planAs {demand : Demand} (made : g.planAs types a t demand = .ok plan) :
    plan.outline.flat = (a.pattern.outline true).flat := by
  unfold planAs at made
  split at made
  · cases made
  · next found =>
    split at made <;> cases made
    obtain ⟨inner, fits, rfl⟩ := FitContext.fits_of_plan found
    rw [Plan.outline_convert, fits.outline]

theorem outline_of_planFor (made : g.planFor types a t = .ok (.ok plan)) :
    plan.outline.flat = (a.pattern.outline true).flat := by
  obtain ⟨demand, -, made⟩ := planFor_eq_ok_iff.mp made
  exact outline_of_planAs made

theorem firstFitting_cons_eq_ok {targets : List Target} {target : Target}
    (found : g.firstFitting types a (target :: targets) = .ok (.ok (t, plan))) :
    (t = target ∧ g.planFor types a target = .ok (.ok plan)) ∨
      ((∃ e, g.planFor types a target = .ok (.error e)) ∧
        g.firstFitting types a targets = .ok (.ok (t, plan))) := by
  rw [firstFitting] at found
  obtain ⟨result, made, found⟩ := ok_of_bind found
  cases result with
  | ok plan' =>
    cases found
    exact .inl ⟨rfl, made⟩
  | error e =>
    obtain ⟨rest, later, found⟩ := ok_of_bind found
    cases rest with
    | ok _ =>
      cases found
      exact .inr ⟨⟨e, made⟩, later⟩
    | error _ => cases found

theorem first_of_firstFitting {targets : List Target}
    (found : g.firstFitting types a targets = .ok (.ok (t, plan))) :
    ∃ before after, targets = before ++ t :: after ∧ g.planFor types a t = .ok (.ok plan) ∧
      ∀ other ∈ before, ∃ e, g.planFor types a other = .ok (.error e) := by
  induction targets with
  | nil => cases found
  | cons target rest ih =>
    rcases firstFitting_cons_eq_ok found with ⟨rfl, made⟩ | ⟨refused, later⟩
    · exact ⟨[], rest, rfl, made, by simp⟩
    · obtain ⟨before, after, rfl, made, none⟩ := ih later
      exact ⟨target :: before, after, rfl, made, List.forall_mem_cons.mpr ⟨refused, none⟩⟩

theorem answers_of_mem_candidates {type : HostType} {p : Pattern}
    (member : t ∈ candidates types type p) : t.Answers types (.construct type) := by
  obtain ⟨arity, -, member⟩ := List.mem_flatMap.mp member
  obtain ⟨c, listed, rfl⟩ := List.mem_map.mp member
  exact .construct listed

theorem lowerAlternative_eq_ok (lowered : g.lowerAlternative types a = .ok (.ok (t, plan))) :
    t.Answers types a.goal ∧ plan.outline.flat = (a.pattern.outline true).flat := by
  unfold lowerAlternative at lowered
  split at lowered
  · next target goal =>
    obtain ⟨result, planned, same⟩ := ok_of_map lowered
    obtain ⟨plan', rfl, same⟩ := ok_of_exceptMap (ok_of_mapError same.symm)
    cases same
    rw [goal]
    exact ⟨.function, outline_of_planFor planned⟩
  · next type goal =>
    split at lowered
    · cases lowered
    · obtain ⟨result, found, same⟩ := ok_of_map lowered
      obtain rfl := ok_of_mapError same.symm
      obtain ⟨before, after, tried, made, -⟩ := first_of_firstFitting found
      have member : t ∈ candidates types type a.pattern := by simp [tried]
      rw [goal]
      exact ⟨answers_of_mem_candidates member, outline_of_planFor made⟩

theorem lowerAlternative_severe {d : Diagnostic}
    (failed : g.lowerAlternative types a = .ok (.error d)) : d.isError = true := by
  unfold lowerAlternative at failed
  split at failed
  · obtain ⟨_, -, same⟩ := ok_of_map failed
    obtain ⟨e, -, rfl⟩ := error_of_mapError same.symm
    rfl
  · split at failed
    · cases failed
      rfl
    · obtain ⟨_, -, same⟩ := ok_of_map failed
      obtain ⟨e, -, rfl⟩ := error_of_mapError same.symm
      rfl

end Grammar

structure Lowered.Alternative.Lowers (types : TypeSystem) (value : HostType)
    (a : Pegsmith.Alternative) (b : Lowered.Alternative) : Prop where
  text : b.text = a.text
  outline : b.plan.outline.flat = (a.pattern.outline true).flat
  target : b.target.Answers types a.goal
  into : b.into = if b.target.returns = value then none else some value

structure Lowered.NonTerminal.Lowers (g : Grammar) (types : TypeSystem)
    (n : Pegsmith.NonTerminal) (m : Lowered.NonTerminal) : Prop where
  name : m.name = n.name
  value : g.value? n.name = some m.value
  alternatives :
    List.Forall₂ (Lowered.Alternative.Lowers types m.value) n.alternatives m.alternatives

namespace Grammar

variable {g : Grammar} {types : TypeSystem}

theorem lowers_of_lowerInto {value : HostType} {a : Alternative} {b : Lowered.Alternative}
    (lowered : g.lowerInto types value a = .ok (.ok b)) : b.Lowers types value a := by
  obtain ⟨result, made, same⟩ := ok_of_bind lowered
  cases result with
  | error d => cases same
  | ok found =>
    cases same
    obtain ⟨answers, outline⟩ := lowerAlternative_eq_ok made
    exact ⟨rfl, outline, answers, rfl⟩

theorem lowerInto_severe {value : HostType} {a : Alternative} {ds : List Diagnostic}
    (failed : g.lowerInto types value a = .ok (.error ds)) : hasErrors ds = true := by
  obtain ⟨result, made, same⟩ := ok_of_bind failed
  cases result with
  | ok found => cases same
  | error d =>
    cases same
    simpa [hasErrors] using lowerAlternative_severe made

theorem lowers_of_lowerNonTerminal {n : NonTerminal} {value : HostType} {m : Lowered.NonTerminal}
    {ds : List Diagnostic} (found : g.value? n.name = some value)
    (lowered : g.lowerNonTerminal types n value = .ok (m, ds)) (clean : hasErrors ds = false) :
    m.Lowers g types n := by
  obtain ⟨results, each, same⟩ := ok_of_map lowered
  cases same
  have made := forall₂_successes_of_forall₂ (mapM_eq_ok_iff.mp each) (fun _ _ => lowerInto_severe)
    clean
  exact ⟨rfl, found, made.imp fun _ _ => lowers_of_lowerInto⟩

theorem forall₂_lower {l : LoweredGrammar} {ds : List Diagnostic}
    (valued : ∀ n ∈ g.nonTerminals, ∃ value, g.value? n.name = some value)
    (lowered : g.lower types = .ok (l, ds)) (clean : hasErrors ds = false) :
    List.Forall₂ (Lowered.NonTerminal.Lowers g types) g.nonTerminals l.nonTerminals := by
  obtain ⟨results, each, same⟩ := ok_of_map lowered
  cases same
  have named : List.Forall₂ (fun n (m : NonTerminal × HostType) => m.1 = n ∧
      g.value? n.name = some m.2) g.nonTerminals g.valued := by
    refine (forall₂_filterMap fun n listed => ?_).imp fun n m found => ?_
    · obtain ⟨value, found⟩ := valued n listed
      exact ⟨(n, value), by rw [found]; rfl⟩
    · obtain ⟨value, given, rfl⟩ := Option.map_eq_some_iff.mp found
      exact ⟨rfl, given⟩
  have cleanEach : ∀ r ∈ results, hasErrors r.2 = false := by
    intro r member
    simp only [hasErrors, List.any_flatMap, List.any_eq_false] at clean
    simpa [hasErrors] using clean r member
  have both := (List.forall₂_and_left _ _).mpr ⟨cleanEach, (mapM_eq_ok_iff.mp each).flip⟩
  rw [List.forall₂_map_right_iff]
  refine (forall₂_comp named both.flip).imp ?_
  rintro n ⟨m, ds⟩ ⟨⟨_, value⟩, ⟨rfl, found⟩, clean, made⟩
  exact lowers_of_lowerNonTerminal found made clean

end Grammar

/-- An alternative carries a production: it has its text, matches what its pattern matches, and its
target is what the production asks for. -/
structure Lowered.Alternative.Carries (types : TypeSystem) (p : Description.Parser)
    (q : Description.Production) (a : Lowered.Alternative) : Prop where
  text : a.text = q.pattern
  plan : ∃ pattern, Pattern.parse q.pattern = .ok pattern ∧
    a.plan.outline.flat = (pattern.outline true).flat
  target : ∃ goal, goal.MeantBy p q ∧ a.target.Answers types goal

/-- The value of an alternative becomes that of its non-terminal: it has its type, or it is
converted from a type that is declared to derive from it. -/
inductive Lowered.Alternative.Joins (c : Catalog) (value : HostType) (a : Lowered.Alternative) :
    Prop where
  | same (returns : a.target.returns = value) (into : a.into = none)
  | converted (returns : a.target.returns ≠ value) (into : a.into = some value)
      (derives : TransGen c.HasBase a.target.returns value)

/-- A lowered grammar with a non-terminal for each name of a production, in the order of their first
appearance, that has exactly the productions of its name, in order, and with nothing that is not
defined. -/
structure LoweredGrammar.Complete (c : Catalog) (tokens : TokenTable) (p : Description.Parser)
    (l : LoweredGrammar) : Prop where
  names : IsFirsts (p.productions.map (·.name)) (l.nonTerminals.map (·.name))
  productions : ∀ n ∈ l.nonTerminals,
    List.Forall₂ (Lowered.Alternative.Carries c.types p) (p.productions.filter (·.name == n.name))
      n.alternatives
  nonTerminals : ∀ n ∈ l.nonTerminals, ∀ a ∈ n.alternatives, ∀ name,
    .nonTerminal name ∈ a.plan.leaves → name ∈ l.nonTerminals.map (·.name)
  terminals : ∀ n ∈ l.nonTerminals, ∀ a ∈ n.alternatives, ∀ kind,
    .terminal kind ∈ a.plan.leaves → kind ∈ tokens.kinds
  values : ∀ n ∈ l.nonTerminals, ∀ a ∈ n.alternatives, a.Joins c n.value

namespace Grammar

variable {c : Catalog} {tokens : TokenTable} {p : Description.Parser} {g : Grammar}

theorem joins_of_common {value : HostType} {n : NonTerminal} {a : Alternative}
    {b : Lowered.Alternative}
    (common : c.types.common (n.alternatives.map (·.goal.returns)) = .ok (some value))
    (listed : a ∈ n.alternatives) (lowers : b.Lowers c.types value a) : b.Joins c value := by
  have into := lowers.into
  by_cases same : b.target.returns = value
  · rw [if_pos same] at into
    exact .same same into
  rw [if_neg same] at into
  have derives := TypeSystem.derives_of_common (fun _ _ => Catalog.derives_of_isSubtype) common
    a.goal.returns (List.mem_map_of_mem listed)
  rw [← lowers.target.returns] at derives
  -- The common type is one that each type is or derives from, and here it is another one.
  obtain equal | derives := Relation.reflTransGen_iff_eq_or_transGen.mp derives
  · exact absurd equal.symm same
  · exact .converted same into derives

theorem has_iff {name : String} : g.has name = true ↔ name ∈ g.nonTerminals.map (·.name) := by
  simp [has]

theorem complete_of_lower {l : LoweredGrammar} {ds : List Diagnostic}
    (read : g.Reads c.types tokens p) (lowered : g.lower c.types = .ok (l, ds))
    (clean : hasErrors ds = false) : l.Complete c tokens p := by
  have valued (n : NonTerminal) (listed : n ∈ g.nonTerminals) :
      ∃ value, g.value? n.name = some value := by
    obtain ⟨value, found, -⟩ := read.value n listed
    exact ⟨value, found⟩
  have lowered := forall₂_lower valued lowered clean
  -- Lowering keeps the names, so what is defined in one grammar is defined in the other.
  have names : g.nonTerminals.map (·.name) = l.nonTerminals.map (·.name) := by
    rw [← List.forall₂_eq_eq_eq, List.forall₂_map_left_iff, List.forall₂_map_right_iff]
    exact lowered.imp fun n m related => related.name.symm
  refine ⟨names ▸ read.names, ?_, ?_, ?_, ?_⟩
  · intro m listed
    obtain ⟨n, found, name, -, lowers⟩ := exists_left_of_forall₂ lowered listed
    rw [name]
    refine (forall₂_comp (read.alternatives n found) lowers).imp ?_
    rintro q b ⟨a, reads, lowers⟩
    exact ⟨lowers.text.trans reads.text, ⟨a.pattern, reads.pattern, lowers.outline⟩,
      ⟨a.goal, reads.goal, lowers.target⟩⟩
  · intro m listed b alternative name occurs
    obtain ⟨n, found, -, -, lowers⟩ := exists_left_of_forall₂ lowered listed
    obtain ⟨a, member, lowers⟩ := exists_left_of_forall₂ lowers alternative
    rw [Plan.leaves_of_outline lowers.outline] at occurs
    have known := read.leaves n found a member (.nonTerminal name) occurs
    rw [← names, ← has_iff]
    simpa [leafProblem] using known
  · intro m listed b alternative kind occurs
    obtain ⟨n, found, -, -, lowers⟩ := exists_left_of_forall₂ lowered listed
    obtain ⟨a, member, lowers⟩ := exists_left_of_forall₂ lowers alternative
    rw [Plan.leaves_of_outline lowers.outline] at occurs
    have known := read.leaves n found a member (.terminal kind) occurs
    simpa [leafProblem, TokenTable.hasKind] using known
  · intro m listed b alternative
    obtain ⟨n, found, -, typed, lowers⟩ := exists_left_of_forall₂ lowered listed
    obtain ⟨a, member, lowers⟩ := exists_left_of_forall₂ lowers alternative
    obtain ⟨value, typed', common⟩ := read.value n found
    obtain rfl := Option.some.inj (typed.symm.trans typed')
    exact joins_of_common common member lowers

end Grammar

end Pegsmith
