import Mathlib
import Pegsmith.Generation
import Pegsmith.Proofs.Grammar.Lowering
import Pegsmith.Proofs.Types.Descent

set_option autoImplicit false

namespace Pegsmith

namespace Grammar

variable {g : Grammar} {types : TypeSystem} {a : Alternative}

def targets (types : TypeSystem) (a : Alternative) : List Target :=
  match a.goal with
  | .function target => [target]
  | .construct type => candidates types type a.pattern

/-- The targets of which the parameters are read, which are those up to the first that fits. -/
def tried (g : Grammar) (types : TypeSystem) (a : Alternative) : List Target → List Target
  | [] => []
  | target :: rest =>
      match g.planFor types a target with
      | .ok (.error _) => target :: g.tried types a rest
      | _ => [target]

/-- One of these targets has a parameter that leads to a list type that leads back to itself. -/
def Endless (c : Catalog) (tokenType : HostType) (ts : List Target) : Prop :=
  ∃ target ∈ ts, ∃ t ∈ target.params, c.LeadsToLoop tokenType t

variable {c : Catalog}

theorem overflows_planFor (target : Target) :
    OverflowsIff (g.planFor c.types a target) (∃ t ∈ target.params, c.LeadsToLoop g.tokenType t) :=
  c.overflows_ofParams.map

theorem overflows_firstFitting (ts : List Target) :
    OverflowsIff (g.firstFitting c.types a ts) (Endless c g.tokenType (g.tried c.types a ts)) := by
  induction ts with
  | nil => exact (OverflowsIff.of_ok _).congr (by simp [Endless, tried])
  | cons target rest ih =>
    have here := overflows_planFor (g := g) (c := c) (a := a) target
    rw [firstFitting, tried]
    cases made : g.planFor c.types a target with
    | error f =>
      obtain ⟨rfl, loops⟩ := here.error_iff.mp made
      exact .inl ⟨⟨target, List.mem_cons_self, loops⟩, rfl⟩
    | ok result =>
      have readable := here.exists_ok_iff.mp ⟨result, made⟩
      cases result with
      | ok plan =>
        refine .inr ⟨?_, _, rfl⟩
        simpa [Endless] using readable
      | error e =>
        change OverflowsIff (g.firstFitting c.types a rest >>= _) _
        refine (ih.bind (R := fun _ => False) fun result _ => ?_).congr ?_
        · cases result <;> exact .of_ok _
        · -- The first target is read to its end, so only what comes behind it may have none.
          simp only [Endless, List.exists_mem_cons_iff, and_false, exists_false, or_false]
          exact (or_iff_right readable).symm

theorem overflows_lowerAlternative (a : Alternative) :
    OverflowsIff (g.lowerAlternative c.types a)
      (Endless c g.tokenType (g.tried c.types a (targets c.types a))) := by
  cases goal : a.goal with
  | function target =>
    simp only [lowerAlternative, targets, goal]
    refine (overflows_planFor target).map.congr ?_
    have same : g.tried c.types a [target] = [target] := by
      rw [tried]
      split <;> rfl
    simp [Endless, same]
  | construct type =>
    simp only [lowerAlternative, targets, goal]
    split
    · next none =>
      rw [none]
      exact (OverflowsIff.of_ok _).congr (by simp [Endless, tried])
    · exact (overflows_firstFitting _).map

def IsEndless (g : Grammar) (c : Catalog) : Prop :=
  ∃ n ∈ g.nonTerminals, (g.value? n.name).isSome ∧ ∃ a ∈ n.alternatives,
    Endless c g.tokenType (g.tried c.types a (targets c.types a))

theorem overflows_lower (g : Grammar) (c : Catalog) :
    OverflowsIff (g.lower c.types) (g.IsEndless c) := by
  have alternative (value : HostType) (a : Alternative) :
      OverflowsIff (g.lowerInto c.types value a)
        (Endless c g.tokenType (g.tried c.types a (targets c.types a))) := by
    refine ((overflows_lowerAlternative a).bind (R := fun _ => False) fun result _ => ?_).congr
      (by simp)
    cases result <;> exact .of_ok _
  have each (n : NonTerminal) (value : HostType) :
      OverflowsIff (g.lowerNonTerminal c.types n value) (∃ a ∈ n.alternatives,
        Endless c g.tokenType (g.tried c.types a (targets c.types a))) :=
    (OverflowsIff.mapM fun a _ => alternative value a).map
  refine ((OverflowsIff.mapM fun m _ => each m.1 m.2).map).congr ?_
  simp only [IsEndless, valued, List.mem_filterMap, Option.map_eq_some_iff, Prod.exists,
    Option.isSome_iff_exists]
  constructor
  · rintro ⟨n, value, ⟨_, listed, _, valued, ⟨⟩⟩, endless⟩
    exact ⟨n, listed, ⟨value, valued⟩, endless⟩
  · rintro ⟨n, listed, ⟨value, valued⟩, endless⟩
    exact ⟨n, value, ⟨n, listed, value, valued, rfl⟩, endless⟩

end Grammar

/-- Reading a demand off a type ends, and with the demand that is used, exactly if no declared list
type that leads back to itself is reached, and otherwise uses up the stack. The same holds for the
parameters of a target, if one of them is such a type, and for lowering, if one of the targets that
are tried has such a parameter. -/
theorem Catalog.reading_ends_iff (c : Catalog) (tokenType : HostType) :
    (∀ t, (c.types.Ends tokenType t ↔ ¬c.LeadsToLoop tokenType t) ∧
      ((∃ n demand, Demand.within c.types tokenType n t = some demand) ↔
        ¬c.LeadsToLoop tokenType t) ∧
      (∀ n demand, Demand.within c.types tokenType n t = some demand →
        Demand.ofType c.types tokenType t = .ok demand) ∧
      ∀ f, Demand.ofType c.types tokenType t = .error f ↔
        f = .stackOverflow ∧ c.LeadsToLoop tokenType t) ∧
    (∀ params, ((∃ n demands, params.mapM (Demand.within c.types tokenType n) = some demands) ↔
        ∀ t ∈ params, ¬c.LeadsToLoop tokenType t) ∧
      (∀ n demands, params.mapM (Demand.within c.types tokenType n) = some demands →
        Demand.ofParams c.types tokenType params = .ok (Demand.chain demands)) ∧
      ∀ f, Demand.ofParams c.types tokenType params = .error f ↔
        f = .stackOverflow ∧ ∃ t ∈ params, c.LeadsToLoop tokenType t) ∧
    ((∀ t, c.types.Ends tokenType t) ↔ ∀ entry ∈ c.entries, ¬c.IsLoop tokenType entry.1) ∧
    ∀ g : Grammar, ((∃ l, g.lower c.types = .ok l) ↔ ¬g.IsEndless c) ∧
      ∀ f, g.lower c.types = .error f ↔ f = .stackOverflow ∧ g.IsEndless c := by
  refine ⟨fun t => ⟨ends_iff, exists_within_iff.trans ends_iff, fun n demand => ofType_of_within,
      fun f => c.overflows_ofType.error_iff⟩,
    fun params => ⟨?_, fun n demands => ofParams_of_mapM_within,
      fun f => c.overflows_ofParams.error_iff⟩, ends_all_iff,
    fun g => ⟨(g.overflows_lower c).exists_ok_iff, fun f => (g.overflows_lower c).error_iff⟩⟩
  simp only [exists_mapM_within_iff, ends_iff]

def nested : Description where
  lexers := [{ tokenType := "Kind", tokens := [{ name := "Nil", regex := some "n" }] }]
  parsers :=
    [{ name := "Nested", tokenType := some "Kind",
       functions := [{ name := "wrap", params := ["Nest"], returns := "Nest" }],
       productions := [{ name := "nest", pattern := "Nil+", function := some "wrap" }] }]
  types := [{ name := "Nest", listOf := some "Nest" }]

theorem nested_endless :
    (Catalog.ofDescription nested).2 = [] ∧
      Generation.ofDescription id {} nested = .error .stackOverflow ∧
      (∀ n, Demand.within (Catalog.ofDescription nested).1.types (.named "Kind") n
        (.named "Nest") = none) ∧
      ¬(Catalog.ofDescription nested).1.types.Ends (.named "Kind") (.named "Nest") := by
  have view : (Catalog.ofDescription nested).1.types.view (.named "Nest") =
      .list (.named "Nest") := by decide +kernel
  have other : HostType.named "Nest" ≠ .named "Kind" := by decide +kernel
  have noDemand (n : Nat) : Demand.within (Catalog.ofDescription nested).1.types (.named "Kind") n
      (.named "Nest") = none := by
    induction n with
    | zero => rfl
    | succ n ih => simp [Demand.within, view, other, ih]
  refine ⟨by decide +kernel, by decide +kernel, noDemand, fun ends => ?_⟩
  obtain ⟨n, demand, read⟩ := Catalog.exists_within_iff.mpr ends
  simp [noDemand n] at read

def shadowed : List Description.TypeEntry :=
  [{ name := "Nest", listOf := some "Nest" },
   { name := "T", constructors := [⟨"T::a", ["Nest"]⟩, ⟨"T::b", ["Token<'_>"]⟩] }]

end Pegsmith
