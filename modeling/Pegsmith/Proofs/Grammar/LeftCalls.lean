import Mathlib.Data.Finset.Card
import Mathlib.Logic.Relation
import Pegsmith.Grammar.Recursion
import Pegsmith.Proofs.Grammar.Firsts

set_option autoImplicit false

namespace Pegsmith

namespace Pattern

theorem takesToken_mono {f g : String → Bool} (more : ∀ name, f name = true → g name = true)
    {p : Pattern} (takes : p.takesToken g = true) : p.takesToken f = true := by
  induction p with
  | terminal => rfl
  | nonTerminal name =>
    rw [takesToken, Bool.not_eq_true'] at takes ⊢
    cases empty : f name with
    | false => rfl
    | true => rw [more name empty] at takes; exact takes
  | sequence a b ihA ihB =>
    rw [takesToken, Bool.or_eq_true] at takes ⊢
    exact takes.imp ihA ihB
  | choice a b ihA ihB =>
    rw [takesToken, Bool.and_eq_true] at takes ⊢
    exact ⟨ihA takes.1, ihB takes.2⟩
  | zeroOrMore | optional => cases takes
  | oneOrMore p ih | group p ih | discard p ih => exact ih takes

end Pattern

namespace Grammar

theorem mem_emptyStep {g : Grammar} {known : List String} {name : String} :
    name ∈ g.emptyStep known ↔ ∃ n ∈ g.nonTerminals, n.name = name ∧
      ∃ a ∈ n.alternatives, a.pattern.takesToken known.contains = false := by
  simp only [emptyStep, List.mem_map, List.mem_filter, List.any_eq_true, Bool.not_eq_true']
  constructor
  · rintro ⟨n, ⟨listed, empty⟩, same⟩
    exact ⟨n, listed, same, empty⟩
  · rintro ⟨n, listed, same, empty⟩
    exact ⟨n, ⟨listed, empty⟩, same⟩

theorem emptyStep_subset {g : Grammar} {known more : List String} (within : known ⊆ more) :
    g.emptyStep known ⊆ g.emptyStep more := by
  intro name member
  obtain ⟨n, listed, same, a, alternative, empty⟩ := mem_emptyStep.mp member
  refine mem_emptyStep.mpr ⟨n, listed, same, a, alternative, ?_⟩
  rw [Bool.eq_false_iff] at empty ⊢
  intro takes
  refine empty (Pattern.takesToken_mono ?_ takes)
  intro other
  simpa using @within other

def emptyRound (g : Grammar) (n : Nat) : List String :=
  Nat.repeat g.emptyStep n []

theorem emptyRound_subset (g : Grammar) (n : Nat) : g.emptyRound n ⊆ g.emptyRound (n + 1) := by
  induction n with
  | zero => exact List.nil_subset _
  | succ n ih => exact emptyStep_subset ih

theorem card_emptyRound_le (g : Grammar) (n : Nat) :
    (g.emptyRound n).toFinset.card ≤ g.nonTerminals.length := by
  cases n with
  | zero => exact Nat.zero_le _
  | succ n =>
    have within : (g.emptyRound (n + 1)).length ≤ g.nonTerminals.length := by
      rw [emptyRound, Nat.repeat, emptyStep, List.length_map]
      exact List.length_filter_le ..
    exact Nat.le_trans (List.toFinset_card_le _) within

theorem card_emptyRound_lt {g : Grammar} {n : Nat}
    (more : ¬g.emptyRound (n + 1) ⊆ g.emptyRound n) :
    (g.emptyRound n).toFinset.card < (g.emptyRound (n + 1)).toFinset.card := by
  apply Finset.card_lt_card
  constructor
  · intro name member
    rw [List.mem_toFinset] at member ⊢
    exact g.emptyRound_subset n member
  · intro within
    refine more fun name member => ?_
    rw [← List.mem_toFinset] at member ⊢
    exact within member

theorem emptyRound_done (g : Grammar) (n : Nat) :
    g.emptyRound (n + 1) ⊆ g.emptyRound n ∨ n < (g.emptyRound (n + 1)).toFinset.card := by
  -- A round finds nothing new, or as many are known as there were rounds.
  induction n with
  | zero =>
    by_cases done : g.emptyRound 1 ⊆ g.emptyRound 0
    · exact .inl done
    · exact .inr (Nat.zero_lt_of_lt (card_emptyRound_lt done))
  | succ n ih =>
    by_cases done : g.emptyRound (n + 1 + 1) ⊆ g.emptyRound (n + 1)
    · exact .inl done
    · rcases ih with stable | count
      · exact (done (emptyStep_subset stable)).elim
      · have more := card_emptyRound_lt done
        exact .inr (by omega)

theorem emptyStep_empties_subset (g : Grammar) : g.emptyStep g.empties ⊆ g.empties := by
  rcases g.emptyRound_done g.nonTerminals.length with done | many
  · exact done
  · have few := g.card_emptyRound_le (g.nonTerminals.length + 1)
    omega

def alternativesOf (g : Grammar) (name : String) : List Alternative :=
  ((g.nonTerminals.find? (·.name == name)).map (·.alternatives)).getD []

def calls (g : Grammar) (name : String) : List String :=
  (g.callTable.lookup name).getD []

theorem lookup_map {α β : Type} (xs : List α) (key : α → String) (f : α → β) (name : String) :
    (xs.map fun x => (key x, f x)).lookup name = (xs.find? fun x => key x == name).map f := by
  induction xs with
  | nil => rfl
  | cons x xs ih =>
    rw [List.map_cons, List.lookup_cons, List.find?_cons, Bool.beq_comm]
    cases key x == name with
    | true => rfl
    | false => exact ih

theorem mem_calls {g : Grammar} {name callee : String} :
    callee ∈ g.calls name ↔ g.has callee = true ∧
      ∃ a ∈ g.alternativesOf name, callee ∈ a.pattern.firstCalls g.empties.contains := by
  rw [calls, callTable, lookup_map, alternativesOf]
  cases g.nonTerminals.find? (·.name == name) with
  | none => simp
  | some n => simp [TokenTable.mem_firsts, and_comm]

def unvisited (root : String) (visited : List String) : List (String × List String) → Nat
  | [] => 0
  | (name, callees) :: table =>
    (if name = root ∨ name ∈ visited then 0 else callees.length + 1) + unvisited root visited table

theorem unvisited_le {table : List (String × List String)} {root : String}
    {visited more : List String} (within : visited ⊆ more) :
    unvisited root more table ≤ unvisited root visited table := by
  induction table with
  | nil => exact Nat.le_refl _
  | cons entry table ih =>
    rw [unvisited, unvisited]
    by_cases done : entry.1 = root ∨ entry.1 ∈ visited
    · rw [if_pos done, if_pos (done.imp id (@within _))]
      omega
    · rw [if_neg done]
      split <;> omega

theorem unvisited_cons {table : List (String × List String)} {root callee : String}
    {visited : List String} (other : callee ≠ root) (fresh : callee ∉ visited) :
    ((table.lookup callee).getD []).length + unvisited root (callee :: visited) table ≤
      unvisited root visited table := by
  induction table with
  | nil => exact Nat.le_refl _
  | cons entry table ih =>
    obtain ⟨name, callees⟩ := entry
    rw [List.lookup_cons, unvisited, unvisited]
    by_cases same : callee = name
    · subst same
      have rest : unvisited root (callee :: visited) table ≤ unvisited root visited table :=
        unvisited_le (List.subset_cons_self ..)
      rw [beq_self_eq_true, if_pos (.inr List.mem_cons_self), if_neg (not_or.mpr ⟨other, fresh⟩)]
      simp only [Option.getD_some]
      omega
    · rw [beq_false_of_ne same]
      simp only [List.mem_cons, Ne.symm same, false_or]
      omega

theorem searchSize_cons (entry : String × List String) (table : List (String × List String)) :
    searchSize (entry :: table) = entry.2.length + 1 + searchSize table := rfl

theorem unvisited_nil (table : List (String × List String)) (root : String) :
    ((table.lookup root).getD []).length + unvisited root [] table ≤
      searchSize table := by
  have all (table : List (String × List String)) :
      unvisited root [] table ≤ searchSize table := by
    induction table with
    | nil => exact Nat.le_refl _
    | cons entry table ih =>
      rw [unvisited, searchSize_cons]
      split <;> omega
  induction table with
  | nil => exact Nat.le_refl _
  | cons entry table ih =>
    obtain ⟨name, callees⟩ := entry
    have rest := all table
    rw [List.lookup_cons, unvisited, searchSize_cons]
    by_cases same : root = name
    · subst same
      rw [beq_self_eq_true, if_pos (.inl rfl)]
      simp only [Option.getD_some]
      omega
    · rw [beq_false_of_ne same]
      simp only [Ne.symm same, List.not_mem_nil, or_self, if_false]
      omega

theorem wayBack_eq_none {table : List (String × List String)} {root : String} {n : Nat}
    {visited way work after : List String}
    (enough : work.length + unvisited root visited table < n)
    (none : wayBack (fun name => (table.lookup name).getD []) root n visited way work =
      (none, after)) :
    visited ⊆ after ∧ (∀ callee ∈ work, callee ≠ root ∧ callee ∈ after) ∧
      ∀ name ∈ after, name ∉ visited → ∀ callee ∈ (table.lookup name).getD [],
        callee ≠ root ∧ callee ∈ after := by
  -- The induction is on the steps. Each takes one name off the work; a name that is met for the first
  -- time pays for the calls that it adds with what is unvisited no more.
  induction n generalizing visited way work after with
  | zero => cases enough
  | succ n ih =>
    cases work with
    | nil =>
      rw [wayBack] at none
      · cases none
        exact ⟨List.Subset.refl _, by simp, fun _ member fresh => (fresh member).elim⟩
      · simp
    | cons callee rest =>
      rw [wayBack] at none
      rw [List.length_cons] at enough
      split at none
      · cases none
      · next other =>
        split at none
        · next known =>
          have found := ih (by omega) none
          refine ⟨found.1, ?_, found.2.2⟩
          rintro x (_ | ⟨_, later⟩)
          · exact ⟨other, found.1 (by simpa using known)⟩
          · exact found.2.1 x later
        · next fresh =>
          split at none
          · cases none
          · next seen inner =>
            have fits : ((table.lookup callee).getD []).length +
                unvisited root (callee :: visited) table ≤ unvisited root visited table :=
              unvisited_cons other (by simpa using fresh)
            -- First what this name calls is searched, then the rest of the work with all that was seen there.
            have deeper := ih (by omega) inner
            have through : visited ⊆ seen := fun x member =>
              deeper.1 (List.mem_cons_of_mem _ member)
            have fewer : unvisited root seen table ≤ unvisited root visited table :=
              unvisited_le through
            have later := ih (by omega) none
            refine ⟨fun x member => later.1 (through member), ?_, ?_⟩
            · rintro x (_ | ⟨_, next⟩)
              · exact ⟨other, later.1 (deeper.1 List.mem_cons_self)⟩
              · exact later.2.1 x next
            · intro name member old x called
              -- What was visited is this name, or was met below it, or in the rest of the work.
              by_cases before : name ∈ seen
              · by_cases itself : name = callee
                · subst itself
                  have found := deeper.2.1 x called
                  exact ⟨found.1, later.1 found.2⟩
                · have found := deeper.2.2 name before (by simp [itself, old]) x called
                  exact ⟨found.1, later.1 found.2⟩
              · exact later.2.2 name member before x called

def Calls (g : Grammar) (name callee : String) : Prop :=
  callee ∈ g.calls name

theorem cycle?_of_no_problems {g : Grammar} (none : g.recursionProblems = []) {name : String}
    (has : g.has name = true) : cycle? g.callTable name = .none := by
  obtain ⟨n, listed, same⟩ := List.any_eq_true.mp has
  cases found : cycle? g.callTable name with
  | none => rfl
  | some way =>
    have absent := List.filterMap_eq_nil_iff.mp none n listed
    rw [eq_of_beq same, found] at absent
    cases absent

theorem calls_eq_nil {g : Grammar} {name : String} (unknown : g.has name = false) :
    g.calls name = [] := by
  rw [calls, callTable, lookup_map]
  have missing : g.nonTerminals.find? (·.name == name) = none := by
    rw [List.find?_eq_none]
    exact List.any_eq_false.mp unknown
  rw [missing]
  rfl

theorem not_back_of_cycle? {g : Grammar} {root : String}
    (search : cycle? g.callTable root = .none) : ¬Relation.TransGen g.Calls root root := by
  intro back
  obtain ⟨after, found⟩ :
      ∃ after, wayBack g.calls root (searchSize g.callTable + 1)
        [] [root] (g.calls root) = (.none, after) :=
    ⟨_, Prod.ext search rfl⟩
  have enough := unvisited_nil g.callTable root
  have closed := wayBack_eq_none (Nat.lt_succ_of_le enough) found
  have visited : ∀ name, Relation.TransGen g.Calls root name → name ≠ root ∧ name ∈ after := by
    intro name way
    induction way with
    | single called => exact closed.2.1 _ called
    | tail _ called ih => exact closed.2.2 _ ih.2 (by simp) _ called
  exact (visited root back).1 rfl

theorem not_calls_back {g : Grammar} (none : g.recursionProblems = []) (root : String) :
    ¬Relation.TransGen g.Calls root root := by
  intro back
  by_cases has : g.has root = true
  · exact not_back_of_cycle? (cycle?_of_no_problems none has) back
  · obtain ⟨callee, called, -⟩ := Relation.TransGen.head'_iff.mp back
    rw [Calls, calls_eq_nil (by simpa using has)] at called
    cases called

noncomputable def rank (g : Grammar) (name : String) : Nat := by
  classical
  exact ((g.nonTerminals.map (·.name)).toFinset.filter (Relation.TransGen g.Calls name)).card

theorem rank_le (g : Grammar) (name : String) : g.rank name ≤ g.nonTerminals.length := by
  classical
  have names := List.toFinset_card_le (g.nonTerminals.map (·.name))
  rw [List.length_map] at names
  exact Nat.le_trans (Finset.card_filter_le ..) names

theorem rank_lt {g : Grammar} (none : g.recursionProblems = []) {name callee : String}
    (called : g.Calls name callee) : g.rank callee < g.rank name := by
  classical
  apply Finset.card_lt_card
  rw [Finset.ssubset_iff_of_subset]
  · obtain ⟨n, listed, same⟩ := List.any_eq_true.mp (mem_calls.mp called).1
    refine ⟨callee, ?_, ?_⟩
    · rw [Finset.mem_filter, List.mem_toFinset]
      exact ⟨List.mem_map.mpr ⟨n, listed, eq_of_beq same⟩, .single called⟩
    · rw [Finset.mem_filter]
      exact fun back => not_calls_back none callee back.2
  -- All that the callee reaches is reached from here, and the callee itself is not in its own reach.
  · exact Finset.monotone_filter_right _ fun _ _ way => Relation.TransGen.head called way

end Grammar

end Pegsmith
