import Pegsmith.Proofs.Grammar.Productions

set_option autoImplicit false

namespace Pegsmith

namespace Pattern

def nodes : Pattern → List Pattern
  | .terminal kind decode => [.terminal kind decode]
  | .nonTerminal name => [.nonTerminal name]
  | .sequence first second => .sequence first second :: (first.nodes ++ second.nodes)
  | .choice first second => .choice first second :: (first.nodes ++ second.nodes)
  | .zeroOrMore inner => .zeroOrMore inner :: inner.nodes
  | .oneOrMore inner => .oneOrMore inner :: inner.nodes
  | .optional inner => .optional inner :: inner.nodes
  | .group inner => .group inner :: inner.nodes
  | .discard inner => .discard inner :: inner.nodes

def leaf? : Pattern → Option Leaf
  | .terminal kind _ => some (.terminal kind)
  | .nonTerminal name => some (.nonTerminal name)
  | _ => none

theorem leaves_eq_filterMap_nodes (p : Pattern) : p.leaves = p.nodes.filterMap leaf? := by
  induction p <;> simp_all [leaves, nodes, leaf?, List.filterMap_cons]

def Leaf.isUnresolved (kinds names : List String) : Leaf → Bool
  | .terminal kind => !kinds.contains kind
  | .nonTerminal name => !names.contains name

end Pattern

namespace Grammar

def namesOf (ns : List NonTerminal) : List String :=
  ns.map (·.name)

def occurrences (g : Grammar) : List (Location × Pattern.Leaf) :=
  g.nonTerminals.flatMap fun n => n.alternatives.flatMap fun a =>
    (a.pattern.nodes.filterMap Pattern.leaf?).map (a.location, ·)

def unknown (g : Grammar) : Location × Pattern.Leaf → Diagnostic
  | (location, .terminal kind) =>
      ⟨.unknownTerminal, "`" ++ g.tokenType.text ++ "` has no token kind `" ++ kind ++ "`",
        location⟩
  | (location, .nonTerminal name) =>
      ⟨.unknownNonTerminal, "`" ++ g.name ++ "` has no non-terminal `" ++ name ++ "`", location⟩

theorem has_eq (g : Grammar) (name : String) :
    g.has name = (namesOf g.nonTerminals).contains name := by
  simp [has, namesOf, List.any_eq]

theorem leafProblem_eq (g : Grammar) (tokens : TokenTable) (location : Location)
    (leaf : Pattern.Leaf) :
    g.leafProblem tokens location leaf =
      if leaf.isUnresolved tokens.kinds (namesOf g.nonTerminals) then
        some (g.unknown (location, leaf))
      else none := by
  cases leaf with
  | terminal kind =>
    by_cases known : kind ∈ tokens.kinds <;>
      simp [leafProblem, TokenTable.hasKind, Pattern.Leaf.isUnresolved, unknown, known]
  | nonTerminal name =>
    by_cases known : name ∈ namesOf g.nonTerminals <;>
      simp [leafProblem, has_eq, Pattern.Leaf.isUnresolved, unknown, known]

theorem referenceProblems_eq (g : Grammar) (tokens : TokenTable) :
    g.referenceProblems tokens =
      (g.occurrences.filter fun place =>
        place.2.isUnresolved tokens.kinds (namesOf g.nonTerminals)).map g.unknown := by
  have here (a : Alternative) : a.pattern.leaves.filterMap (g.leafProblem tokens a.location) =
      (((a.pattern.nodes.filterMap Pattern.leaf?).map (a.location, ·)).filter fun place =>
        place.2.isUnresolved tokens.kinds (namesOf g.nonTerminals)).map g.unknown := by
    rw [Pattern.leaves_eq_filterMap_nodes]
    induction a.pattern.nodes.filterMap Pattern.leaf? with
    | nil => rfl
    | cons leaf leaves ih =>
      cases unresolved : leaf.isUnresolved tokens.kinds (namesOf g.nonTerminals) <;>
        simp [leafProblem_eq g tokens a.location leaf, unresolved, ih]
  simp only [referenceProblems, occurrences, List.filter_flatMap, List.map_flatMap, here]

structure Tally where
  nonTerminals : List NonTerminal := []
  problems : List Diagnostic := []

def opened (parser name : String) (ns : List NonTerminal) : List NonTerminal :=
  if isNonTerminalName name && !ns.any (·.name == name) then
    ns ++ [{ name, location := ⟨parser ++ "." ++ name, none⟩ }]
  else ns

def appended (name : String) (a : Alternative) (ns : List NonTerminal) : List NonTerminal :=
  ns.map fun n => if n.name == name then { n with alternatives := n.alternatives ++ [a] } else n

def declared (p : Description.Parser) : List (String × Target) :=
  successes (p.functions.map (readFunction p.name))

/-- Why a production is no alternative. Its name comes first: the pattern behind a bad name is not
read. -/
inductive Refuses (p : Description.Parser) (path : String) (q : Description.Production) :
    Diagnostic → Prop where
  | name {message : String} (unnamed : isNonTerminalName q.name = false) :
      Refuses p path q ⟨.malformedPattern, message, ⟨path, none⟩⟩
  | pattern {message : String} {e : Pattern.Error} (named : isNonTerminalName q.name = true)
      (malformed : Pattern.parse q.pattern = .error e) :
      Refuses p path q ⟨.malformedPattern, message, ⟨path, some e.span⟩⟩
  | goal {code : Code} {message : String} {pattern : Pattern}
      (named : isNonTerminalName q.name = true) (wellFormed : Pattern.parse q.pattern = .ok pattern)
      (unresolved : readGoal p.name (declared p) ⟨path, none⟩ q =
        .error ⟨code, message, ⟨path, none⟩⟩)
      (kind : code = .unresolvedTarget ∨ code = .invalidType) :
      Refuses p path q ⟨code, message, ⟨path, none⟩⟩

inductive Enters (p : Description.Parser) (q : Description.Production) (number : Nat)
    (before : Tally) : Tally → Prop where
  | appended {a : Alternative} (reads : a.Reads p q)
      (located : a.location = productionLocation p.name (q, number)) :
      Enters p q number before
        ⟨appended q.name a (opened p.name q.name before.nonTerminals), before.problems⟩
  | refused {d : Diagnostic}
      (refuses : Refuses p (productionLocation p.name (q, number)).path q d) :
      Enters p q number before
        ⟨opened p.name q.name before.nonTerminals, before.problems ++ [d]⟩

inductive Entered (p : Description.Parser) : List Description.Production → Tally → Prop where
  | none : Entered p [] {}
  | next {qs : List Description.Production} {q : Description.Production} {before after : Tally}
      (entered : Entered p qs before)
      (enters : Enters p q (qs.countP (·.name == q.name) + 1) before after) :
      Entered p (qs ++ [q]) after

variable {p : Description.Parser}

theorem sound_declared (p : Description.Parser) :
    ∀ name t, (name, t) ∈ declared p → ∃ f ∈ p.functions, name = f.name ∧ t.IsOf f := by
  intro name t member
  simp only [declared, successes, List.mem_filterMap, List.mem_map] at member
  obtain ⟨_, ⟨f, listed, rfl⟩, found⟩ := member
  cases read : readFunction p.name f with
  | error ds => simp [read, Except.toOption] at found
  | ok target =>
    have same : target = (name, t) := by simpa [read, Except.toOption] using found
    exact ⟨f, listed, isOf_of_readFunction (same ▸ read)⟩

theorem readGoal_refuses {parser path : String} {functions : List (String × Target)}
    {q : Description.Production} {d : Diagnostic}
    (failed : readGoal parser functions ⟨path, none⟩ q = .error d) :
    ∃ code message, d = ⟨code, message, ⟨path, none⟩⟩ ∧
      (code = .unresolvedTarget ∨ code = .invalidType) := by
  unfold readGoal at failed
  split at failed
  · split at failed <;> cases failed
    exact ⟨_, _, rfl, .inl rfl⟩
  · split at failed <;> cases failed
    exact ⟨_, _, rfl, .inr rfl⟩
  · cases failed
    exact ⟨_, _, rfl, .inl rfl⟩
  · cases failed
    exact ⟨_, _, rfl, .inl rfl⟩

theorem readProduction_refuses {path : String} {q : Description.Production} {d : Diagnostic}
    (failed : readProduction p.name (declared p) ⟨path, none⟩ q = .error d) :
    Refuses p path q d := by
  unfold readProduction at failed
  split at failed
  · next unnamed =>
    cases failed
    exact .name (by simpa using unnamed)
  · next named =>
    have named : isNonTerminalName q.name = true := by simpa using named
    split at failed
    · cases failed
      exact .pattern named (by assumption)
    · next pattern parsed =>
      cases goal : readGoal p.name (declared p) ⟨path, none⟩ q with
      | ok => simp [goal, bind, Except.bind, pure, Except.pure] at failed
      | error e =>
        rw [goal] at failed
        cases failed
        obtain ⟨code, message, rfl, kind⟩ := readGoal_refuses goal
        exact .goal named parsed goal kind

theorem location_of_readProduction {parser : String} {functions : List (String × Target)}
    {location : Location} {q : Description.Production} {a : Alternative}
    (read : readProduction parser functions location q = .ok a) : a.location = location := by
  unfold readProduction at read
  split at read
  · cases read
  · split at read
    · cases read
    · obtain ⟨goal, -, rfl⟩ := ok_of_map read
      rfl

section Results

variable {α β : Type} (results : List (Except (List β) α))

theorem successes_ok (x : α) : successes (results ++ [.ok x]) = successes results ++ [x] := by
  simp [successes, Except.toOption]

theorem successes_error (ds : List β) : successes (results ++ [.error ds]) = successes results := by
  simp [successes, Except.toOption, List.filterMap_cons]

theorem problems_ok (x : α) : problems (results ++ [.ok x]) = problems results := by
  simp [problems]

theorem problems_error (ds : List β) :
    problems (results ++ [.error ds]) = problems results ++ ds := by
  simp [problems]

end Results

theorem numbered_snoc (qs : List Description.Production) (q : Description.Production) :
    numbered (qs ++ [q]) = numbered qs ++ [(q, qs.countP (·.name == q.name) + 1)] := by
  have whole : (qs ++ [q]).take (qs.length + 1) = qs ++ [q] := List.take_of_length_le (by simp)
  rw [numbered, List.zipIdx_append, List.map_append]
  refine congrArg₂ (· ++ ·) (List.map_congr_left ?_) (by simp [whole])
  rintro ⟨r, i⟩ member
  have bound : i < qs.length := List.snd_lt_of_mem_zipIdx member
  simp [List.take_append_of_le_length (show i + 1 ≤ qs.length from bound)]

theorem readProductions_snoc (parser : String) (functions : List (String × Target))
    (qs : List Description.Production) (q : Description.Production) :
    readProductions parser functions (qs ++ [q]) = readProductions parser functions qs ++
      [match readProduction parser functions
          (productionLocation parser (q, qs.countP (·.name == q.name) + 1)) q with
        | .ok a => .ok (q.name, a)
        | .error d => .error [d]] := by
  rw [readProductions, numbered_snoc, List.map_append]
  rfl

theorem names_successes {parser : String} {functions : List (String × Target)}
    {qs : List Description.Production} {x : String × Alternative}
    (member : x ∈ successes (readProductions parser functions qs)) : x.1 ∈ qs.map (·.name) := by
  simp only [successes, readProductions, List.mem_filterMap, List.mem_map] at member
  obtain ⟨_, ⟨r, listed, rfl⟩, found⟩ := member
  have production : r.1 ∈ qs := map_fst_numbered qs ▸ List.mem_map_of_mem listed
  split at found
  · cases found
    exact List.mem_map_of_mem production
  · cases found

theorem opened_group {qs : List Description.Production}
    {alternatives : List (String × Alternative)}
    (owned : ∀ x ∈ alternatives, x.1 ∈ qs.map (·.name)) (q : Description.Production) :
    group p.name (qs ++ [q]) alternatives = opened p.name q.name (group p.name qs alternatives) := by
  have known : (group p.name qs alternatives).any (·.name == q.name) =
      (TokenTable.firsts ((qs.map (·.name)).filter isNonTerminalName)).contains q.name := by
    simp [group, List.any_eq]
  cases named : isNonTerminalName q.name with
  | false => simp [opened, group, named]
  | true =>
    simp only [opened, known, named, Bool.true_and, Bool.not_eq_true']
    cases old : (TokenTable.firsts ((qs.map (·.name)).filter isNonTerminalName)).contains
      q.name with
    | true =>
      have same : TokenTable.firsts ((qs.map (·.name)).filter isNonTerminalName ++ [q.name]) =
          TokenTable.firsts ((qs.map (·.name)).filter isNonTerminalName) := by
        rw [TokenTable.firsts_snoc, if_pos old]
      simp [group, named, same]
    | false =>
      -- No alternative has the name of a production that has not been seen.
      have absent : q.name ∉ qs.map (·.name) := by
        intro member
        have seen : q.name ∈ TokenTable.firsts ((qs.map (·.name)).filter isNonTerminalName) :=
          TokenTable.mem_firsts.mpr (List.mem_filter.mpr ⟨member, named⟩)
        simp [seen] at old
      have none : alternatives.filter (·.1 == q.name) = [] := by
        apply List.filter_eq_nil_iff.mpr
        intro x member same
        exact absent (eq_of_beq same ▸ owned x member)
      have last : TokenTable.firsts ((qs.map (·.name)).filter isNonTerminalName ++ [q.name]) =
          TokenTable.firsts ((qs.map (·.name)).filter isNonTerminalName) ++ [q.name] := by
        rw [TokenTable.firsts_snoc, if_neg (by simpa using old)]
      simp [group, named, last, none]

theorem appended_group (qs : List Description.Production)
    (alternatives : List (String × Alternative)) (name : String) (a : Alternative) :
    group p.name qs (alternatives ++ [(name, a)]) =
      appended name a (group p.name qs alternatives) := by
  simp only [group, appended, List.map_map, Function.comp_def]
  refine List.map_congr_left fun other _ => ?_
  by_cases same : other = name
  · simp [same]
  · simp [same, Ne.symm same]

def tally (p : Description.Parser) (qs : List Description.Production) : Tally :=
  ⟨group p.name qs (successes (readProductions p.name (declared p) qs)),
    problems (readProductions p.name (declared p) qs)⟩

theorem enters_tally (p : Description.Parser) (qs : List Description.Production)
    (q : Description.Production) :
    Enters p q (qs.countP (·.name == q.name) + 1) (tally p qs) (tally p (qs ++ [q])) := by
  have owned : ∀ x ∈ successes (readProductions p.name (declared p) qs), x.1 ∈ qs.map (·.name) :=
    fun _ => names_successes
  have opens := opened_group (p := p) owned q
  cases read : readProduction p.name (declared p)
      (productionLocation p.name (q, qs.countP (·.name == q.name) + 1)) q with
  | ok a =>
    have after : tally p (qs ++ [q]) =
        ⟨appended q.name a (opened p.name q.name (tally p qs).nonTerminals),
          (tally p qs).problems⟩ := by
      simp only [tally, readProductions_snoc, read, successes_ok, problems_ok, appended_group,
        opens]
    rw [after]
    exact .appended (reads_of_readProduction (sound_declared p) read)
      (location_of_readProduction read)
  | error d =>
    have after : tally p (qs ++ [q]) =
        ⟨opened p.name q.name (tally p qs).nonTerminals, (tally p qs).problems ++ [d]⟩ := by
      simp only [tally, readProductions_snoc, read, successes_error, problems_error, opens]
    rw [after]
    exact .refused (readProduction_refuses read)

theorem entered_tally (p : Description.Parser) (qs : List Description.Production) :
    Entered p qs (tally p qs) := by
  induction qs using List.reverseRecOn with
  | nil => exact .none
  | append_singleton qs q ih => exact .next ih (enters_tally p qs q)

def countOf (ns : List NonTerminal) : Nat :=
  (ns.map (·.alternatives.length)).sum

theorem namesOf_opened (parser name : String) (ns : List NonTerminal) :
    namesOf (opened parser name ns) =
      if isNonTerminalName name = true ∧ name ∉ namesOf ns then namesOf ns ++ [name]
      else namesOf ns := by
  have same : ns.any (·.name == name) = (namesOf ns).contains name := by
    simp [namesOf, List.any_eq]
  have test : (isNonTerminalName name && !ns.any (·.name == name)) = true ↔
      isNonTerminalName name = true ∧ name ∉ namesOf ns := by
    simp [same]
  rw [opened]
  split
  · next new => rw [if_pos (test.mp new), namesOf, List.map_append]; rfl
  · next old => rw [if_neg (mt test.mpr old)]

theorem countOf_opened (parser name : String) (ns : List NonTerminal) :
    countOf (opened parser name ns) = countOf ns := by
  rw [opened]
  split <;> simp [countOf]

theorem namesOf_appended (name : String) (a : Alternative) (ns : List NonTerminal) :
    namesOf (appended name a ns) = namesOf ns := by
  rw [namesOf, appended, List.map_map]
  apply List.map_congr_left
  intro n _
  by_cases same : n.name = name <;> simp [same]

theorem appended_of_not_mem {name : String} {ns : List NonTerminal} (a : Alternative)
    (absent : name ∉ namesOf ns) : appended name a ns = ns := by
  have same : ∀ n ∈ ns, (if n.name == name then { n with alternatives := n.alternatives ++ [a] }
      else n) = n := by
    intro n member
    have other : n.name ≠ name := fun same => absent (same ▸ List.mem_map_of_mem member)
    simp [other]
  rw [appended, List.map_congr_left same, List.map_id']

theorem countOf_appended {name : String} {ns : List NonTerminal} (a : Alternative)
    (distinct : (namesOf ns).Nodup) (listed : name ∈ namesOf ns) :
    countOf (appended name a ns) = countOf ns + 1 := by
  induction ns with
  | nil => cases listed
  | cons n ns ih =>
    rw [namesOf, List.map_cons, List.nodup_cons] at distinct
    by_cases same : n.name = name
    · have rest : appended name a ns = ns := appended_of_not_mem a (same ▸ distinct.1)
      have here : appended name a (n :: ns) =
          { n with alternatives := n.alternatives ++ [a] } :: ns := by
        rw [appended, List.map_cons, if_pos (by simpa using same)]
        exact congrArg _ rest
      simp only [here, countOf, List.map_cons, List.sum_cons, List.length_append,
        List.length_singleton]
      omega
    · have later : name ∈ namesOf ns := by simpa [namesOf, Ne.symm same] using listed
      have here : appended name a (n :: ns) = n :: appended name a ns := by
        rw [appended, List.map_cons, if_neg (by simpa using same)]
        rfl
      have rest := ih distinct.2 later
      simp only [here, countOf, List.map_cons, List.sum_cons] at rest ⊢
      omega

theorem Enters.names {q : Description.Production} {number : Nat} {before after : Tally}
    (enters : Enters p q number before after) :
    namesOf after.nonTerminals = namesOf (opened p.name q.name before.nonTerminals) := by
  cases enters with
  | appended reads located => exact namesOf_appended _ _ _
  | refused refuses => rfl

theorem Entered.names {qs : List Description.Production} {t : Tally} (entered : Entered p qs t) :
    IsFirsts ((qs.map (·.name)).filter isNonTerminalName) (namesOf t.nonTerminals) := by
  induction entered with
  | none => exact ⟨by simp [namesOf], .nil⟩
  | @next qs q before after _ enters ih =>
    rw [enters.names, namesOf_opened, List.map_append, List.filter_append]
    cases named : isNonTerminalName q.name with
    | false => simpa [named] using ih
    | true =>
      by_cases old : q.name ∈ namesOf before.nonTerminals
      · have seen := (ih.mem _).mp old
        simpa [named, old] using ih.snoc_old seen
      · have new := mt (ih.mem _).mpr old
        simpa [named, old] using ih.snoc_new new

theorem Entered.counted {qs : List Description.Production} {t : Tally} (entered : Entered p qs t) :
    countOf t.nonTerminals + t.problems.length = qs.length := by
  induction entered with
  | none => rfl
  | @next qs q before after entered enters ih =>
    have names := (Entered.next entered enters).names
    rw [enters.names] at names
    cases enters with
    | @appended a reads located =>
      have listed : q.name ∈ namesOf (opened p.name q.name before.nonTerminals) := by
        simp [names.mem, reads.named]
      have counts := countOf_appended a names.nodup listed
      rw [countOf_opened] at counts
      simp only [counts, List.length_append, List.length_singleton]
      omega
    | refused refuses =>
      simp only [countOf_opened, List.length_append, List.length_singleton]
      omega

theorem find?_of_distinct {g : Grammar} (distinct : (namesOf g.nonTerminals).Nodup) {i : Nat}
    {n : NonTerminal} (found : g.nonTerminals[i]? = some n) : g.find? n.name = some i := by
  obtain ⟨bound, rfl⟩ := List.getElem?_eq_some_iff.mp found
  rw [find?, List.findIdx?_eq_some_iff_getElem]
  refine ⟨bound, by simp, fun j before same => ?_⟩
  -- The same name further in front would be there twice.
  have within : j < g.nonTerminals.length := before.trans bound
  have twice : (namesOf g.nonTerminals)[j]? = (namesOf g.nonTerminals)[i]? := by
    simpa [namesOf, within, bound] using same
  have here := (List.getElem?_inj (by simpa [namesOf] using within) distinct).mp twice
  exact before.ne here

/-- A grammar and the diagnostics beside it account for everything in the declaration of a parser:
the productions in turn, and then the names in the patterns that nothing stands for. -/
structure Accounts (types : TypeSystem) (tokens : TokenTable) (p : Description.Parser)
    (g : Grammar) (ds : List Diagnostic) : Prop where
  names : IsFirsts ((p.productions.map (·.name)).filter isNonTerminalName)
    (namesOf g.nonTerminals)
  entered : ∃ refused, Entered p p.productions ⟨g.nonTerminals, refused⟩ ∧
    countOf g.nonTerminals + refused.length = p.productions.length ∧
    ds = problems (p.functions.map (readFunction p.name)) ++ refused ++
      (g.occurrences.filter fun place =>
        place.2.isUnresolved tokens.kinds (namesOf g.nonTerminals)).map g.unknown ++
      problems (g.nonTerminals.map (readValue types))
  found : ∀ i n, g.nonTerminals[i]? = some n → g.find? n.name = some i

theorem ofParser_accounts (p : Description.Parser) (tokens : TokenTable) (types : TypeSystem) :
    Accounts types tokens p (ofParser p tokens types).1 (ofParser p tokens types).2 := by
  have entered := entered_tally p p.productions
  have names := entered.names
  refine ⟨names, ⟨_, entered, entered.counted, ?_⟩, fun i n => find?_of_distinct names.nodup⟩
  rw [← referenceProblems_eq]
  rfl

end Grammar

end Pegsmith
