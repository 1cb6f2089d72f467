import Mathlib
import Pegsmith.Grammar.Lowered
import Pegsmith.Grammar.Recursion
import Pegsmith.Proofs.Results

set_option autoImplicit false

namespace Pegsmith

variable {p q : String} {e : Pattern}

/-- The same text, or a text of which one spelling has been replaced by the other. -/
def Respelled (p q x y : String) : Prop :=
  x = y ∨ x = p ∧ y = q

structure Description.Production.Alike (p q : String) (a b : Description.Production) : Prop where
  name : a.name = b.name
  pattern : Respelled p q a.pattern b.pattern
  function : a.function = b.function
  construct : a.construct = b.construct

structure Alternative.Alike (p q : String) (a b : Alternative) : Prop where
  location : a.location = b.location
  text : Respelled p q a.text b.text
  pattern : a.pattern = b.pattern
  goal : a.goal = b.goal

structure NonTerminal.Alike (p q : String) (n m : NonTerminal) : Prop where
  name : n.name = m.name
  location : n.location = m.location
  alternatives : List.Forall₂ (Alternative.Alike p q) n.alternatives m.alternatives

theorem NonTerminal.Alike.patterns {n m : NonTerminal} (alike : n.Alike p q m) :
    n.alternatives.map (·.pattern) = m.alternatives.map (·.pattern) :=
  map_eq_of_forall₂ alike.alternatives fun _ _ same => same.pattern

structure Grammar.Alike (p q : String) (g h : Grammar) : Prop where
  name : g.name = h.name
  tokenType : g.tokenType = h.tokenType
  nonTerminals : List.Forall₂ (NonTerminal.Alike p q) g.nonTerminals h.nonTerminals
  values : g.values = h.values

def SameCodes (ds es : List Diagnostic) : Prop :=
  ds.map (·.code) = es.map (·.code)

theorem SameCodes.of_eq {ds es : List Diagnostic} (same : ds = es) : SameCodes ds es :=
  congrArg (List.map Diagnostic.code) same

theorem SameCodes.append {ds es ds' es' : List Diagnostic} (first : SameCodes ds es)
    (second : SameCodes ds' es') : SameCodes (ds ++ ds') (es ++ es') := by
  rw [SameCodes, List.map_append, List.map_append, first, second]

theorem SameCodes.length_eq {ds es : List Diagnostic} (same : SameCodes ds es) :
    ds.length = es.length := by
  simpa using congrArg List.length same

theorem SameCodes.hasErrors {ds es : List Diagnostic} (same : SameCodes ds es) :
    hasErrors ds = hasErrors es := by
  have severe (ds : List Diagnostic) :
      Pegsmith.hasErrors ds = (ds.map (·.code)).any (·.severity == .error) := by
    rw [List.any_map]
    rfl
  rw [severe, severe, same]

inductive Related {ε α : Type} (E : ε → ε → Prop) (R : α → α → Prop) :
    Except ε α → Except ε α → Prop where
  | error {e e' : ε} (related : E e e') : Related E R (.error e) (.error e')
  | ok {a a' : α} (related : R a a') : Related E R (.ok a) (.ok a')

namespace Related

variable {ε α β : Type} {E : ε → ε → Prop} {R : α → α → Prop} {S : β → β → Prop}
  {x y : Except ε α}

theorem self (x : Except ε α) : Related Eq (fun a b => a = b ∧ x = .ok a) x x := by
  cases x with
  | error e => exact .error rfl
  | ok a => exact .ok ⟨rfl, rfl⟩

theorem bind {f g : α → Except ε β} (first : Related E R x y)
    (rest : ∀ a b, R a b → Related E S (f a) (g b)) : Related E S (x >>= f) (y >>= g) := by
  cases first with
  | error same => exact .error same
  | ok same => exact rest _ _ same

theorem map {f g : α → β} (first : Related E R x y) (same : ∀ a b, R a b → S (f a) (g b)) :
    Related E S (do return f (← x)) (do return g (← y)) :=
  first.bind fun _ _ related => .ok (same _ _ related)

theorem mapM {ι : Type} {f g : ι → Except ε α} {Q : ι → ι → Prop} {xs ys : List ι}
    (alike : List.Forall₂ Q xs ys) (each : ∀ x y, Q x y → Related E R (f x) (g y)) :
    Related E (List.Forall₂ R) (xs.mapM f) (ys.mapM g) := by
  induction alike with
  | nil => exact .ok .nil
  | cons here _ ih =>
    rw [List.mapM_cons, List.mapM_cons]
    exact (each _ _ here).bind fun _ _ first => ih.map fun _ _ others => .cons first others

end Related

namespace Grammar

section Results

variable {α : Type} {R : α → α → Prop} {xs ys : List (Except (List Diagnostic) α)}

theorem sameCodes_problems (related : List.Forall₂ (Related SameCodes R) xs ys) :
    SameCodes (problems xs) (problems ys) := by
  rw [SameCodes, problems, problems, List.map_flatMap, List.map_flatMap]
  refine flatMap_eq_of_forall₂ related fun x y both => ?_
  cases both with
  | error same => exact same
  | ok _ => rfl

theorem forall₂_successes_of_related (related : List.Forall₂ (Related SameCodes R) xs ys) :
    List.Forall₂ R (successes xs) (successes ys) := by
  refine List.rel_filterMap (fun x y both => ?_) related
  cases both with
  | error _ => exact .none
  | ok same => exact .some same

end Results

theorem readProduction_related (hp : Pattern.parse p = .ok e) (hq : Pattern.parse q = .ok e)
    {a b : Description.Production} (alike : a.Alike p q b) (parser : String)
    (functions : List (String × Target)) (location : Location) :
    Related Eq (Alternative.Alike p q) (readProduction parser functions location a)
      (readProduction parser functions location b) := by
  have goals : readGoal parser functions location a = readGoal parser functions location b := by
    rw [readGoal, readGoal, alike.function, alike.construct, alike.name]
  have made (x y : String) (spelled : Respelled p q x y) (pattern : Pattern) :
      Related Eq (Alternative.Alike p q)
        (do return ⟨location, x, pattern, ← readGoal parser functions location a⟩)
        (do return ⟨location, y, pattern, ← readGoal parser functions location b⟩) := by
    rw [goals]
    cases readGoal parser functions location b with
    | error d => exact .error rfl
    | ok goal => exact .ok ⟨rfl, spelled, rfl, rfl⟩
  rw [readProduction, readProduction, alike.name]
  split
  · exact .error rfl
  rcases alike.pattern with same | ⟨rfl, rfl⟩
  · rw [same]
    cases Pattern.parse b.pattern with
    | error failure => exact .error rfl
    | ok pattern => exact made _ _ (.inl rfl) pattern
  · rw [hp, hq]
    exact made _ _ (.inr ⟨rfl, rfl⟩) e

theorem forall₂_zipIdx {α β : Type} {R : α → β → Prop} {xs : List α} {ys : List β}
    (related : List.Forall₂ R xs ys) (n : Nat) :
    List.Forall₂ (fun x y => R x.1 y.1 ∧ x.2 = y.2) (xs.zipIdx n) (ys.zipIdx n) := by
  induction related generalizing n with
  | nil => exact .nil
  | cons here _ ih => exact .cons ⟨here, rfl⟩ (ih (n + 1))

variable {ps qs : List Description.Production}

theorem names_of_alike (alike : List.Forall₂ (Description.Production.Alike p q) ps qs) :
    ps.map (·.name) = qs.map (·.name) :=
  map_eq_of_forall₂ alike fun _ _ same => same.name

theorem numbered_alike (alike : List.Forall₂ (Description.Production.Alike p q) ps qs) :
    List.Forall₂ (fun a b => a.1.Alike p q b.1 ∧ a.2 = b.2) (numbered ps) (numbered qs) := by
  -- The number of a production among those of its name depends on the names only.
  have count (ps : List Description.Production) (name : String) (i : Nat) :
      (ps.take i).countP (·.name == name) = ((ps.map (·.name)).take i).count name := by
    rw [← List.map_take, List.count, List.countP_map]
    rfl
  refine List.rel_map (fun a b same => ⟨same.1, ?_⟩) (forall₂_zipIdx alike 0)
  simp only [count, same.1.name, same.2, names_of_alike alike]

theorem readProductions_related (hp : Pattern.parse p = .ok e) (hq : Pattern.parse q = .ok e)
    (alike : List.Forall₂ (Description.Production.Alike p q) ps qs) (parser : String)
    (functions : List (String × Target)) :
    List.Forall₂ (Related SameCodes fun a b => a.1 = b.1 ∧ a.2.Alike p q b.2)
      (readProductions parser functions ps) (readProductions parser functions qs) := by
  refine List.rel_map (fun a b same => ?_) (numbered_alike alike)
  have location : productionLocation parser a = productionLocation parser b := by
    rw [productionLocation, productionLocation, same.1.name, same.2]
  rw [location]
  have read := readProduction_related hp hq same.1 parser functions (productionLocation parser b)
  generalize readProduction parser functions (productionLocation parser b) a.1 = x at read ⊢
  generalize readProduction parser functions (productionLocation parser b) b.1 = y at read ⊢
  cases read with
  | error same => exact .error (same ▸ rfl)
  | ok made => exact .ok ⟨same.1.name, made⟩

theorem group_alike {as bs : List (String × Alternative)}
    (named : List.Forall₂ (Description.Production.Alike p q) ps qs)
    (alike : List.Forall₂ (fun a b => a.1 = b.1 ∧ a.2.Alike p q b.2) as bs) (parser : String) :
    List.Forall₂ (NonTerminal.Alike p q) (group parser ps as) (group parser qs bs) := by
  rw [group, group, names_of_alike named, List.forall₂_map_left_iff, List.forall₂_map_right_iff,
    List.forall₂_same]
  refine fun name _ => ⟨rfl, rfl, ?_⟩
  refine List.rel_map (fun a b same => same.2) (List.rel_filter (fun a b same => ?_) alike)
  simp only [same.1]

variable {g h : Grammar}

theorem Alike.names (alike : g.Alike p q h) :
    g.nonTerminals.map (·.name) = h.nonTerminals.map (·.name) :=
  map_eq_of_forall₂ alike.nonTerminals fun _ _ same => same.name

theorem Alike.has (alike : g.Alike p q h) (name : String) : g.has name = h.has name := by
  have named (g : Grammar) : g.has name = (g.nonTerminals.map (·.name)).any (· == name) := by
    rw [List.any_map]
    rfl
  rw [named, named, alike.names]

theorem Alike.referenceProblems (alike : g.Alike p q h) (tokens : TokenTable) :
    g.referenceProblems tokens = h.referenceProblems tokens := by
  refine flatMap_eq_of_forall₂ alike.nonTerminals fun n m ns => ?_
  refine flatMap_eq_of_forall₂ ns.alternatives fun a b as => ?_
  have problem : g.leafProblem tokens a.location = h.leafProblem tokens b.location := by
    funext leaf
    cases leaf with
    | terminal kind => rw [leafProblem, leafProblem, alike.tokenType, as.location]
    | nonTerminal name => rw [leafProblem, leafProblem, alike.has, alike.name, as.location]
  rw [as.pattern, problem]

theorem readValue_alike (types : TypeSystem) {n m : NonTerminal} (alike : n.Alike p q m) :
    readValue types n = readValue types m := by
  have returns : n.alternatives.map (·.goal.returns) = m.alternatives.map (·.goal.returns) :=
    map_eq_of_forall₂ alike.alternatives fun _ _ same => by rw [same.goal]
  rw [readValue, readValue, returns, alike.name, alike.location]

theorem ofParser_alike (hp : Pattern.parse p = .ok e) (hq : Pattern.parse q = .ok e)
    (alike : List.Forall₂ (Description.Production.Alike p q) ps qs) (parser : Description.Parser)
    (tokens : TokenTable) (types : TypeSystem) :
    (ofParser { parser with productions := ps } tokens types).1.Alike p q
        (ofParser { parser with productions := qs } tokens types).1 ∧
      SameCodes (ofParser { parser with productions := ps } tokens types).2
        (ofParser { parser with productions := qs } tokens types).2 := by
  have read := readProductions_related hp hq alike parser.name
    (successes (parser.functions.map (readFunction parser.name)))
  have grouped := group_alike alike (forall₂_successes_of_related read) parser.name
  have values := map_eq_of_forall₂ grouped fun _ _ same => readValue_alike types same
  have made : (ofParser { parser with productions := ps } tokens types).1.Alike p q
      (ofParser { parser with productions := qs } tokens types).1 :=
    ⟨rfl, rfl, grouped, congrArg (fun values => (successes values).filterMap id) values⟩
  refine ⟨made, ?_⟩
  refine (((SameCodes.of_eq rfl).append (sameCodes_problems read)).append ?_).append ?_
  · exact .of_eq (made.referenceProblems tokens)
  · exact .of_eq (congrArg problems values)

theorem Alike.empties (alike : g.Alike p q h) : g.empties = h.empties := by
  have step : g.emptyStep = h.emptyStep := by
    funext known
    refine map_eq_of_forall₂ (List.rel_filter (fun n m ns => ?_) alike.nonTerminals)
      fun _ _ same => same.name
    have tried : n.alternatives.map (·.pattern) = m.alternatives.map (·.pattern) := ns.patterns
    have any (n : NonTerminal) :
        (n.alternatives.any fun a => !a.pattern.takesToken known.contains) =
          (n.alternatives.map (·.pattern)).any fun e => !e.takesToken known.contains := by
      rw [List.any_map]
      rfl
    simp only [any, tried]
  rw [Grammar.empties, Grammar.empties, step, alike.nonTerminals.length_eq]

theorem Alike.callTable (alike : g.Alike p q h) : g.callTable = h.callTable := by
  refine map_eq_of_forall₂ alike.nonTerminals fun n m ns => ?_
  have calls := flatMap_eq_of_forall₂ ns.alternatives
    (f := fun a => a.pattern.firstCalls g.empties.contains)
    (g := fun a => a.pattern.firstCalls h.empties.contains)
    fun a b as => by rw [as.pattern, alike.empties]
  have has : g.has = h.has := funext alike.has
  rw [calls, has, ns.name]

theorem Alike.recursionProblems (alike : g.Alike p q h) :
    g.recursionProblems = h.recursionProblems := by
  refine filterMap_eq_of_forall₂ alike.nonTerminals fun n m ns => ?_
  rw [alike.callTable, ns.name, ns.location]

end Grammar

structure Lowered.Alternative.Alike (p q : String) (a b : Lowered.Alternative) : Prop where
  text : Respelled p q a.text b.text
  plan : a.plan = b.plan
  target : a.target = b.target
  into : a.into = b.into

structure Lowered.NonTerminal.Alike (p q : String) (n m : Lowered.NonTerminal) : Prop where
  name : n.name = m.name
  value : n.value = m.value
  alternatives : List.Forall₂ (Lowered.Alternative.Alike p q) n.alternatives m.alternatives

structure LoweredGrammar.Alike (p q : String) (l m : LoweredGrammar) : Prop where
  name : l.name = m.name
  tokenType : l.tokenType = m.tokenType
  nonTerminals : List.Forall₂ (Lowered.NonTerminal.Alike p q) l.nonTerminals m.nonTerminals

namespace Grammar

variable {g h : Grammar} {a b : Alternative} (types : TypeSystem)

theorem Alike.value? (alike : g.Alike p q h) (name : String) : g.value? name = h.value? name := by
  rw [Grammar.value?, Grammar.value?, alike.values]

theorem planAs_related (alike : g.Alike p q h) (as : a.Alike p q b) (target : Target)
    (demand : Demand) :
    Related (fun _ _ => True) Eq (g.planAs types a target demand)
      (h.planAs types b target demand) := by
  have context : g.fitContext types = h.fitContext types := by
    unfold fitContext
    congr 1
    exact funext alike.value?
  rw [planAs, planAs, context, as.pattern]
  split
  · exact .error trivial
  · split
    · exact .ok rfl
    · exact .error trivial

theorem planFor_related (alike : g.Alike p q h) (as : a.Alike p q b) (target : Target) :
    Related Eq (Related (fun _ _ => True) Eq) (g.planFor types a target)
      (h.planFor types b target) := by
  rw [planFor, planFor, alike.tokenType]
  cases Demand.ofParams types h.tokenType target.params with
  | error f => exact .error rfl
  | ok demand => exact .ok (planAs_related types alike as target demand)

theorem firstFitting_related (alike : g.Alike p q h) (as : a.Alike p q b) (targets : List Target) :
    Related Eq (Related (fun _ _ => True) Eq) (g.firstFitting types a targets)
      (h.firstFitting types b targets) := by
  induction targets with
  | nil => exact .ok (.error trivial)
  | cons target rest ih =>
    rw [firstFitting, firstFitting]
    refine (planFor_related types alike as target).bind fun x y first => ?_
    cases first with
    | ok same => exact .ok (.ok (same ▸ rfl))
    | error _ =>
      refine ih.bind fun xs ys later => ?_
      cases later with
      | ok same => exact .ok (.ok same)
      | error _ => exact .ok (.error trivial)

theorem mapError_related {α : Type} {x y : Except String α}
    (both : Related (fun _ _ => True) Eq x y) (location : Location) :
    Related (fun d d' => d.code = d'.code) Eq
      (x.mapError fun message : String => (⟨.shapeMismatch, message, location⟩ : Diagnostic))
      (y.mapError fun message : String => (⟨.shapeMismatch, message, location⟩ : Diagnostic)) := by
  cases both with
  | error _ => exact .error rfl
  | ok same => exact .ok same

theorem lowerAlternative_related (alike : g.Alike p q h) (as : a.Alike p q b) :
    Related Eq (Related (fun d d' => d.code = d'.code) Eq) (g.lowerAlternative types a)
      (h.lowerAlternative types b) := by
  rw [lowerAlternative, lowerAlternative, as.goal, as.pattern, as.location]
  split
  · next target _ =>
    refine (planFor_related types alike as target).map fun x y planned =>
      mapError_related ?_ b.location
    cases planned with
    | error _ => exact .error trivial
    | ok same => exact .ok (same ▸ rfl)
  · split
    · exact .ok (.error rfl)
    · exact (firstFitting_related types alike as _).map fun x y found =>
        mapError_related found b.location

theorem lowerInto_related (alike : g.Alike p q h) (as : a.Alike p q b) (value : HostType) :
    Related Eq (Related SameCodes (Lowered.Alternative.Alike p q)) (g.lowerInto types value a)
      (h.lowerInto types value b) := by
  refine (lowerAlternative_related types alike as).bind fun x y lowered => ?_
  cases lowered with
  | error same => exact .ok (.error (by rw [SameCodes, List.map_cons, same]; rfl))
  | ok same =>
    subst same
    exact .ok (.ok ⟨as.text, rfl, rfl, rfl⟩)

theorem lowerNonTerminal_related (alike : g.Alike p q h) {n m : NonTerminal} (ns : n.Alike p q m)
    (value : HostType) :
    Related Eq (fun x y => x.1.Alike p q y.1 ∧ SameCodes x.2 y.2)
      (g.lowerNonTerminal types n value) (h.lowerNonTerminal types m value) :=
  -- Values and problems come from the same results, so both follow from how these are related.
  (Related.mapM ns.alternatives fun _ _ as => lowerInto_related types alike as value).map
    fun _ _ results =>
      ⟨⟨ns.name, rfl, forall₂_successes_of_related results⟩, sameCodes_problems results⟩

theorem Alike.valued (alike : g.Alike p q h) :
    List.Forall₂ (fun n m => n.1.Alike p q m.1 ∧ n.2 = m.2) g.valued h.valued := by
  refine List.rel_filterMap (fun n m ns => ?_) alike.nonTerminals
  rw [← ns.name, alike.value?]
  cases h.value? n.name with
  | none => exact .none
  | some value => exact .some ⟨ns, rfl⟩

theorem lower_alike (alike : g.Alike p q h) :
    Related Eq (fun x y => x.1.Alike p q y.1 ∧ SameCodes x.2 y.2) (g.lower types)
      (h.lower types) := by
  refine (Related.mapM (R := fun x y => x.1.Alike p q y.1 ∧ SameCodes x.2 y.2) alike.valued
    fun n m ns => ?_).map fun xs ys results => ⟨?_, ?_⟩
  · obtain ⟨n, value⟩ := n
    obtain ⟨m, _⟩ := m
    obtain ⟨same, rfl⟩ := ns
    exact lowerNonTerminal_related types alike same value
  · exact ⟨alike.name, alike.tokenType, List.rel_map (fun _ _ same => same.1) results⟩
  · rw [SameCodes, List.map_flatMap, List.map_flatMap]
    exact flatMap_eq_of_forall₂ results fun _ _ same => same.2

end Grammar

end Pegsmith
