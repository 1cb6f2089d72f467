import Mathlib.Data.List.Chain
import Mathlib.Data.List.Nodup
import Mathlib.Logic.Relation
import Pegsmith.Proofs.Grammar.LeftCalls
import Pegsmith.Proofs.Results

set_option autoImplicit false

namespace Pegsmith

namespace Grammar

inductive MayBeEmpty (g : Grammar) : Pattern → Prop where
  | nonTerminal {n : NonTerminal} {a : Alternative} (listed : n ∈ g.nonTerminals)
      (alternative : a ∈ n.alternatives) (inner : MayBeEmpty g a.pattern) :
      MayBeEmpty g (.nonTerminal n.name)
  | sequence {p q : Pattern} (first : MayBeEmpty g p) (second : MayBeEmpty g q) :
      MayBeEmpty g (.sequence p q)
  | choiceFirst {p q : Pattern} (first : MayBeEmpty g p) : MayBeEmpty g (.choice p q)
  | choiceSecond {p q : Pattern} (second : MayBeEmpty g q) : MayBeEmpty g (.choice p q)
  | zeroOrMore {p : Pattern} : MayBeEmpty g (.zeroOrMore p)
  | oneOrMore {p : Pattern} (inner : MayBeEmpty g p) : MayBeEmpty g (.oneOrMore p)
  | optional {p : Pattern} : MayBeEmpty g (.optional p)
  | group {p : Pattern} (inner : MayBeEmpty g p) : MayBeEmpty g (.group p)
  | discard {p : Pattern} (inner : MayBeEmpty g p) : MayBeEmpty g (.discard p)

inductive MayCallFirst (g : Grammar) : Pattern → String → Prop where
  | nonTerminal {name : String} : MayCallFirst g (.nonTerminal name) name
  | sequenceFirst {p q : Pattern} {name : String} (first : MayCallFirst g p name) :
      MayCallFirst g (.sequence p q) name
  | sequenceSecond {p q : Pattern} {name : String} (empty : g.MayBeEmpty p)
      (second : MayCallFirst g q name) : MayCallFirst g (.sequence p q) name
  | choiceFirst {p q : Pattern} {name : String} (first : MayCallFirst g p name) :
      MayCallFirst g (.choice p q) name
  | choiceSecond {p q : Pattern} {name : String} (second : MayCallFirst g q name) :
      MayCallFirst g (.choice p q) name
  | zeroOrMore {p : Pattern} {name : String} (inner : MayCallFirst g p name) :
      MayCallFirst g (.zeroOrMore p) name
  | oneOrMore {p : Pattern} {name : String} (inner : MayCallFirst g p name) :
      MayCallFirst g (.oneOrMore p) name
  | optional {p : Pattern} {name : String} (inner : MayCallFirst g p name) :
      MayCallFirst g (.optional p) name
  | group {p : Pattern} {name : String} (inner : MayCallFirst g p name) :
      MayCallFirst g (.group p) name
  | discard {p : Pattern} {name : String} (inner : MayCallFirst g p name) :
      MayCallFirst g (.discard p) name

def CallsFirst (g : Grammar) (name callee : String) : Prop :=
  ∃ n ∈ g.nonTerminals, n.name = name ∧ ∃ a ∈ n.alternatives, g.MayCallFirst a.pattern callee

def LeftRecursive (g : Grammar) (name : String) : Prop :=
  Relation.TransGen g.CallsFirst name name

/-- A way along `step` from a name back to it that meets no name twice on the way. -/
structure WayAround (step : String → String → Prop) (root : String) (way : List String) :
    Prop where
  closed : ∃ between, way = root :: between ++ [root] ∧ (root :: between).Nodup
  steps : way.IsChain step

variable {g : Grammar}

theorem mayBeEmpty_of_takesToken {known : List String}
    (sound : ∀ name ∈ known, g.MayBeEmpty (.nonTerminal name)) {p : Pattern}
    (empty : p.takesToken known.contains = false) : g.MayBeEmpty p := by
  induction p with
  | terminal => cases empty
  | nonTerminal name => exact sound name (by simpa [Pattern.takesToken] using empty)
  | sequence p q ihP ihQ =>
    rw [Pattern.takesToken, Bool.or_eq_false_iff] at empty
    exact .sequence (ihP empty.1) (ihQ empty.2)
  | choice p q ihP ihQ =>
    rw [Pattern.takesToken, Bool.and_eq_false_iff] at empty
    cases empty with
    | inl first => exact .choiceFirst (ihP first)
    | inr second => exact .choiceSecond (ihQ second)
  | zeroOrMore => exact .zeroOrMore
  | oneOrMore p ih => exact .oneOrMore (ih empty)
  | optional => exact .optional
  | group p ih => exact .group (ih empty)
  | discard p ih => exact .discard (ih empty)

theorem mayBeEmpty_of_mem_emptyRound {n : Nat} :
    ∀ name ∈ g.emptyRound n, g.MayBeEmpty (.nonTerminal name) := by
  induction n with
  | zero => exact fun name member => (List.not_mem_nil member).elim
  | succ n ih =>
    intro name member
    obtain ⟨m, listed, rfl, a, alternative, empty⟩ := mem_emptyStep.mp member
    exact .nonTerminal listed alternative (mayBeEmpty_of_takesToken ih empty)

theorem takesToken_of_mayBeEmpty {p : Pattern} (empty : g.MayBeEmpty p) :
    p.takesToken g.empties.contains = false := by
  induction empty with
  | nonTerminal listed alternative _ ih =>
    -- One more round would find this non-terminal, and the last round found nothing new.
    have found := g.emptyStep_empties_subset
      (mem_emptyStep.mpr ⟨_, listed, rfl, _, alternative, ih⟩)
    simpa [Pattern.takesToken] using found
  | sequence _ _ ihP ihQ => rw [Pattern.takesToken, ihP, ihQ]; rfl
  | choiceFirst _ ih => rw [Pattern.takesToken, ih, Bool.false_and]
  | choiceSecond _ ih => rw [Pattern.takesToken, ih, Bool.and_false]
  | zeroOrMore | optional => rfl
  | oneOrMore _ ih | group _ ih | discard _ ih => exact ih

theorem takesToken_eq_false_iff {p : Pattern} :
    p.takesToken g.empties.contains = false ↔ g.MayBeEmpty p :=
  ⟨mayBeEmpty_of_takesToken mayBeEmpty_of_mem_emptyRound, takesToken_of_mayBeEmpty⟩

theorem mem_firstCalls_iff {p : Pattern} {name : String} :
    name ∈ p.firstCalls g.empties.contains ↔ g.MayCallFirst p name := by
  constructor
  · intro called
    induction p with
    | terminal => cases called
    | nonTerminal other =>
      cases List.mem_singleton.mp called
      exact .nonTerminal
    | sequence p q ihP ihQ =>
      rw [Pattern.firstCalls, List.mem_append] at called
      rcases called with first | second
      · exact .sequenceFirst (ihP first)
      · split at second
        · cases second
        · next empty =>
          rw [Bool.not_eq_true, takesToken_eq_false_iff] at empty
          exact .sequenceSecond empty (ihQ second)
    | choice p q ihP ihQ =>
      rw [Pattern.firstCalls, List.mem_append] at called
      exact called.elim (.choiceFirst <| ihP ·) (.choiceSecond <| ihQ ·)
    | zeroOrMore p ih => exact .zeroOrMore (ih called)
    | oneOrMore p ih => exact .oneOrMore (ih called)
    | optional p ih => exact .optional (ih called)
    | group p ih => exact .group (ih called)
    | discard p ih => exact .discard (ih called)
  · intro may
    induction may with
    | nonTerminal => exact List.mem_singleton_self _
    | sequenceFirst _ ih | choiceFirst _ ih => exact List.mem_append_left _ ih
    | sequenceSecond empty _ ih =>
      rw [Pattern.firstCalls, takesToken_eq_false_iff.mpr empty]
      exact List.mem_append_right _ ih
    | choiceSecond _ ih => exact List.mem_append_right _ ih
    | zeroOrMore _ ih | oneOrMore _ ih | optional _ ih | group _ ih | discard _ ih => exact ih

theorem mem_alternativesOf_iff (distinct : (g.nonTerminals.map (·.name)).Nodup) {name : String}
    {a : Alternative} :
    a ∈ g.alternativesOf name ↔ ∃ n ∈ g.nonTerminals, n.name = name ∧ a ∈ n.alternatives := by
  constructor
  · intro member
    rw [alternativesOf] at member
    cases found : g.nonTerminals.find? (·.name == name) with
    | none =>
      rw [found] at member
      cases member
    | some n =>
      rw [found] at member
      exact ⟨n, List.mem_of_find?_eq_some found, by simpa using List.find?_some found, member⟩
  · rintro ⟨n, listed, rfl, member⟩
    -- The name belongs to this non-terminal alone, so the look-up finds it.
    obtain ⟨m, found⟩ : ∃ m, g.nonTerminals.find? (·.name == n.name) = some m := by
      rw [← Option.isSome_iff_exists, List.find?_isSome]
      exact ⟨n, listed, beq_self_eq_true _⟩
    have same : m = n := List.inj_on_of_nodup_map distinct (List.mem_of_find?_eq_some found) listed
      (by simpa using List.find?_some found)
    rw [alternativesOf, found, same]
    exact member

theorem calls_iff (distinct : (g.nonTerminals.map (·.name)).Nodup) {name callee : String} :
    g.Calls name callee ↔ g.has callee = true ∧ g.CallsFirst name callee := by
  rw [Calls, mem_calls]
  refine and_congr_right fun _ => ?_
  constructor
  · rintro ⟨a, alternative, called⟩
    obtain ⟨n, listed, same, member⟩ := (mem_alternativesOf_iff distinct).mp alternative
    exact ⟨n, listed, same, a, member, mem_firstCalls_iff.mp called⟩
  · rintro ⟨n, listed, same, a, member, called⟩
    exact ⟨a, (mem_alternativesOf_iff distinct).mpr ⟨n, listed, same, member⟩,
      mem_firstCalls_iff.mpr called⟩

theorem has_of_callsFirst {name callee : String} (calls : g.CallsFirst name callee) :
    g.has name = true := by
  obtain ⟨n, listed, rfl, -⟩ := calls
  exact List.any_eq_true.mpr ⟨n, listed, beq_self_eq_true _⟩

theorem leftRecursive_iff (distinct : (g.nonTerminals.map (·.name)).Nodup) {name : String} :
    g.LeftRecursive name ↔ Relation.TransGen g.Calls name name := by
  constructor
  · intro back
    obtain ⟨callee, first, -⟩ := Relation.TransGen.head'_iff.mp back
    have known := has_of_callsFirst first
    have all (start : String) (way : Relation.TransGen g.CallsFirst start name) :
        Relation.TransGen g.Calls start name := by
      induction way using Relation.TransGen.head_induction_on with
      | single called => exact .single ((calls_iff distinct).mpr ⟨known, called⟩)
      | head called onward ih =>
        obtain ⟨next, further, -⟩ := Relation.TransGen.head'_iff.mp onward
        exact .head ((calls_iff distinct).mpr ⟨has_of_callsFirst further, called⟩) ih
    exact all name back
  · intro back
    exact Relation.TransGen.mono (fun _ _ called => ((calls_iff distinct).mp called).2) _ _ back

/-- The way of a search so far, last first: it started at the root, and all else on it was
visited. -/
structure OnWay (calls : String → List String) (root : String) (visited way : List String) :
    Prop where
  start : way.getLast? = some root
  steps : way.IsChain fun callee name => callee ∈ calls name
  nodup : way.Nodup
  met : ∀ name ∈ way, name = root ∨ name ∈ visited

variable {calls : String → List String} {root current callee : String} {n : Nat}
  {visited above work after cycle : List String}

theorem visited_subset_wayBack (calls : String → List String) (root : String) (n : Nat)
    (visited way work : List String) : visited ⊆ (wayBack calls root n visited way work).2 := by
  induction n generalizing visited way work with
  | zero =>
    rw [wayBack]
    exact List.Subset.refl _
  | succ n ih =>
    cases work with
    | nil =>
      rw [wayBack]
      · exact List.Subset.refl _
      · simp
    | cons callee rest =>
      rw [wayBack]
      split
      · exact List.Subset.refl _
      · split
        · exact ih ..
        · have through : visited ⊆ (wayBack calls root n (callee :: visited) (callee :: way)
              (calls callee)).2 := List.Subset.trans (List.subset_cons_self ..) (ih ..)
          split
          · next found => rwa [found] at through
          · next found =>
            rw [found] at through
            exact List.Subset.trans through (ih ..)

theorem OnWay.extend (way : OnWay calls root visited (current :: above))
    (called : callee ∈ calls current) (other : callee ≠ root) (fresh : callee ∉ visited) :
    OnWay calls root (callee :: visited) (callee :: current :: above) where
  start := by rw [List.getLast?_cons_cons]; exact way.start
  steps := way.steps.cons_cons called
  nodup := List.nodup_cons.mpr ⟨fun again => (way.met callee again).elim other fresh, way.nodup⟩
  met := List.forall_mem_cons.mpr ⟨.inr List.mem_cons_self, fun name member =>
    (way.met name member).imp id (List.mem_cons_of_mem _)⟩

theorem OnWay.mono (way : OnWay calls root visited above) (within : visited ⊆ after) :
    OnWay calls root after above :=
  { way with met := fun name member => (way.met name member).imp id (@within name) }

theorem OnWay.close (way : OnWay calls root visited (current :: above))
    (called : root ∈ calls current) :
    WayAround (fun name callee => callee ∈ calls name) root
      ((current :: above).reverse ++ [root]) := by
  obtain ⟨between, same⟩ : ∃ between, (current :: above).reverse = root :: between := by
    have start := way.start
    rw [List.getLast?_eq_head?_reverse] at start
    exact List.head?_eq_some_iff.mp start
  refine ⟨⟨between, congrArg (· ++ [root]) same, same ▸ List.nodup_reverse.mpr way.nodup⟩, ?_⟩
  have whole : (root :: current :: above).IsChain fun callee name => callee ∈ calls name :=
    way.steps.cons_cons called
  rw [← List.reverse_cons, List.isChain_reverse]
  exact whole

theorem wayAround_of_wayBack (way : OnWay calls root visited (current :: above))
    (called : ∀ callee ∈ work, callee ∈ calls current)
    (found : wayBack calls root n visited (current :: above) work = (some cycle, after)) :
    WayAround (fun name callee => callee ∈ calls name) root cycle := by
  -- The names that are still being searched are a way from the root, whichever callee comes next.
  induction n generalizing visited current above work after with
  | zero => cases found
  | succ n ih =>
    cases work with
    | nil =>
      rw [wayBack] at found
      · cases found
      · simp
    | cons callee rest =>
      obtain ⟨first, others⟩ := List.forall_mem_cons.mp called
      rw [wayBack] at found
      split at found
      · next back =>
        cases found
        exact way.close (back ▸ first)
      · next other =>
        split at found
        · exact ih way others found
        · next fresh =>
          split at found
          · next inner =>
            cases found
            exact ih (way.extend first other (by simpa using fresh)) (fun _ => id) inner
          · next seen inner =>
            have through := visited_subset_wayBack calls root n (callee :: visited)
              (callee :: current :: above) (calls callee)
            rw [inner] at through
            exact ih (way.mono (List.Subset.trans (List.subset_cons_self ..) through)) others found

theorem wayAround_of_cycle? {way : List String} (found : cycle? g.callTable root = some way) :
    WayAround g.Calls root way := by
  obtain ⟨after, found⟩ : ∃ after, wayBack g.calls root (searchSize g.callTable + 1) [] [root]
      (g.calls root) = (some way, after) := ⟨_, Prod.ext found rfl⟩
  exact wayAround_of_wayBack ⟨rfl, .singleton _, List.nodup_singleton _, by simp⟩
    (fun _ => id) found

theorem WayAround.back {step : String → String → Prop} {way : List String}
    (around : WayAround step root way) : Relation.TransGen step root root := by
  obtain ⟨⟨between, rfl, -⟩, steps⟩ := around
  obtain ⟨next, rest, same⟩ := List.exists_cons_of_ne_nil (List.append_ne_nil_of_right_ne_nil
    between (List.cons_ne_nil root []))
  rw [List.cons_append, same] at steps
  have last : (next :: rest).getLast (List.cons_ne_nil next rest) = root := by simp [← same]
  obtain ⟨first, others⟩ := List.isChain_cons_cons.mp steps
  exact .head' first (List.relationReflTransGen_of_exists_isChain_cons _ others last)

theorem WayAround.mono {step further : String → String → Prop} {way : List String}
    (around : WayAround step root way) (weaker : ∀ a b, step a b → further a b) :
    WayAround further root way :=
  ⟨around.closed, around.steps.imp weaker⟩

def leftRecursionProblem (n : NonTerminal) (way : List String) : Diagnostic :=
  ⟨.leftRecursion,
    "`" ++ n.name ++ "` is left recursive (" ++ " -> ".intercalate way ++
      "), parsing it will not terminate", n.location⟩

theorem recursionProblems_eq (g : Grammar) :
    g.recursionProblems = g.nonTerminals.filterMap fun n =>
      (cycle? g.callTable n.name).map (leftRecursionProblem n) := rfl

theorem isSome_cycle?_iff (distinct : (g.nonTerminals.map (·.name)).Nodup) {name : String} :
    (cycle? g.callTable name).isSome = true ↔ g.LeftRecursive name := by
  rw [leftRecursive_iff distinct]
  cases found : cycle? g.callTable name with
  | none => simpa using not_back_of_cycle? found
  | some way => simpa using (wayAround_of_cycle? found).back

theorem distinct_ofParser (p : Description.Parser) (tokens : TokenTable) (types : TypeSystem) :
    ((ofParser p tokens types).1.nonTerminals.map (·.name)).Nodup := by
  simpa [ofParser, group, Function.comp_def] using
    (TokenTable.isFirsts_firsts ((p.productions.map (·.name)).filter isNonTerminalName)).nodup

/-- The left recursions of a grammar are reported, each once and in the order of the
non-terminals, and every report spells a way of calls before a token that leads from the
non-terminal back to it and through no other one twice. -/
theorem recursionProblems_exact (p : Description.Parser) (tokens : TokenTable)
    (types : TypeSystem) :
    ∃ found : List NonTerminal,
      found.Sublist (ofParser p tokens types).1.nonTerminals ∧
      (found.map (·.name)).Nodup ∧
      (∀ n ∈ (ofParser p tokens types).1.nonTerminals,
        n ∈ found ↔ (ofParser p tokens types).1.LeftRecursive n.name) ∧
      List.Forall₂
        (fun n d => ∃ way, WayAround (ofParser p tokens types).1.CallsFirst n.name way ∧
          d = leftRecursionProblem n way)
        found (ofParser p tokens types).1.recursionProblems := by
  have distinct := distinct_ofParser p tokens types
  generalize (ofParser p tokens types).1 = g at distinct ⊢
  let report (n : NonTerminal) : Option Diagnostic :=
    (cycle? g.callTable n.name).map (leftRecursionProblem n)
  have comes (n : NonTerminal) : (report n).isSome = true ↔ g.LeftRecursive n.name := by
    rw [Option.isSome_map, isSome_cycle?_iff distinct]
  have sublist := List.filter_sublist (p := fun n => (report n).isSome) (l := g.nonTerminals)
  refine ⟨g.nonTerminals.filter fun n => (report n).isSome, sublist,
    distinct.sublist (sublist.map _), fun n listed => ?_, ?_⟩
  · rw [List.mem_filter, comes]
    exact and_iff_right listed
  · have same : g.recursionProblems =
        (g.nonTerminals.filter fun n => (report n).isSome).filterMap report := by
      rw [recursionProblems_eq, List.filterMap_filter]
      refine List.filterMap_congr fun n _ => ?_
      change report n = if (report n).isSome then report n else none
      cases report n <;> rfl
    rw [same]
    refine (forall₂_filterMap fun n member => ?_).imp fun n d made => ?_
    · exact Option.isSome_iff_exists.mp (List.mem_filter.mp member).2
    · obtain ⟨way, found, rfl⟩ := Option.map_eq_some_iff.mp made
      exact ⟨way, (wayAround_of_cycle? found).mono fun _ _ called =>
        ((calls_iff distinct).mp called).2, rfl⟩

end Grammar

end Pegsmith
