import Mathlib
import Pegsmith.Proofs.Code.Writing

set_option autoImplicit false

namespace Pegsmith

def Fallback.spread (n : Nat) : Fallback → Nat
  | .default => if n = 1 then 0 else n
  | .nothing | .keep => 0

namespace Plan

mutual

def spreads : Plan → List Nat
  | .token _ _ | .call _ _ _ => []
  | .sequence parts | .concat parts | .choice parts => spreadsEach parts
  | .single inner | .present inner | .pack inner | .collect inner _ | .loop inner _ _ =>
      inner.spreads
  | .optional inner fallback =>
      (if inner.arity = 0 then 0 else fallback.spread inner.outputCount) :: inner.spreads

def spreadsEach : List Plan → List Nat
  | [] => []
  | p :: ps => p.spreads ++ spreadsEach ps

end

mutual

def kept : Plan → List String
  | .token _ _ => []
  | .call nonTerminal keep _ => if keep then [nonTerminal] else []
  | .sequence parts | .concat parts | .choice parts => keptEach parts
  | .single inner | .present inner | .pack inner | .collect inner _ | .loop inner _ _
  | .optional inner _ => inner.kept

def keptEach : List Plan → List String
  | [] => []
  | p :: ps => p.kept ++ keptEach ps

end

end Plan

namespace Code

def AreNames (names : List String) : Prop :=
  ∀ name ∈ names, ∀ c ∈ name.toList, Pattern.continuesName c = true

def spreadNames : Nat → List Nat → List Name
  | _, [] => []
  | base, n :: spreads =>
      (List.range n).map (fun i => ⟨Name.text ⟨"optional", base + 1⟩ ++ "_", i⟩) ++
        spreadNames (base + 1) spreads

theorem spreadNames_append (base : Nat) (spreads others : List Nat) :
    spreadNames base (spreads ++ others) =
      spreadNames base spreads ++ spreadNames (base + spreads.length) others := by
  induction spreads generalizing base with
  | nil => rfl
  | cons n spreads ih =>
    rw [List.cons_append, spreadNames, ih, spreadNames, List.append_assoc, List.length_cons,
      Nat.add_right_comm, Nat.add_assoc]

def ownKinds : List String :=
  ["token", "concat", "repeat", "restore", "list", "count", "optional", "choice", "chosen"]

theorem plain_of_ownKinds {x : Name} (own : x.kind ∈ ownKinds) : x.IsPlain := by
  have all : ∀ kind ∈ ownKinds, (∀ c ∈ kind.toList, Pattern.continuesName c = true) ∧
      ∀ c ∈ kind.toList.getLast?, c.isDigit = false := by
    simp [ownKinds, Pattern.continuesName]
  exact ⟨(all x.kind own).1, (all x.kind own).2⟩

theorem ne_append_underscore {kind : String} (own : kind ∈ ownKinds) (stem : String) :
    kind ≠ stem ++ "_" := by
  have all : ∀ kind ∈ ownKinds, kind.toList.getLast? ≠ some '_' := by
    simp [ownKinds]
  rintro rfl
  exact all _ own (by simp)

/-- Drawn names and declarations that fit: what is bound has been drawn, or belongs to the values of
an optional part, and all that was drawn for a non-terminal is bound. -/
structure Declares (base : Nat) (spreads : List Nat) (kept : List String) (drawn : List Name)
    (entries : List Entry) : Prop where
  names : ∃ vars marks : List Name,
    (binders entries).Perm ((vars ++ spreadNames base spreads).map Name.text) ∧
      (labels entries).Perm (marks.map Name.text) ∧ vars.Subperm drawn ∧ marks.Subperm drawn ∧
      ∀ x ∈ drawn, ∀ stem, x.kind = stem ++ "_" → x ∈ vars
  plain : ∀ x ∈ drawn, x.IsPlain
  optionals : drawn.countP (·.kind = "optional") = spreads.length
  calls : ∀ stem, (∃ x ∈ drawn, x.kind = stem ++ "_") ↔ stem ∈ kept.map snakeCase

namespace Declares

variable {base : Nat} {spreads others : List Nat} {kept more : List String}
  {drawn later : List Name} {entries behind : List Entry}

theorem perm (declares : Declares base spreads kept drawn entries) (sameNames : drawn.Perm later)
    (sameEntries : entries.Perm behind) : Declares base spreads kept later behind := by
  obtain ⟨⟨vars, marks, bound, labelled, varsDrawn, marksDrawn, called⟩, plain, optionals, calls⟩ :=
    declares
  have mem (x : Name) : x ∈ drawn ↔ x ∈ later := sameNames.mem_iff
  refine ⟨⟨vars, marks, (sameEntries.flatMap_right _).symm.trans bound,
    (sameEntries.filterMap _).symm.trans labelled, varsDrawn.trans sameNames.subperm,
    marksDrawn.trans sameNames.subperm, ?_⟩, ?_, ?_, ?_⟩
  · simpa [mem] using called
  · simpa [mem] using plain
  · rw [← optionals, sameNames.countP_eq]
  · simpa [mem] using calls

theorem append (first : Declares base spreads kept drawn entries)
    (second : Declares (base + spreads.length) others more later behind) :
    Declares base (spreads ++ others) (kept ++ more) (drawn ++ later) (entries ++ behind) := by
  obtain ⟨⟨vars, marks, bound, labelled, varsDrawn, marksDrawn, called⟩, plain, optionals, calls⟩ :=
    first
  obtain ⟨⟨vars', marks', bound', labelled', varsDrawn', marksDrawn', called'⟩, plain', optionals',
    calls'⟩ := second
  refine ⟨⟨vars ++ vars', marks ++ marks', ?_, ?_, varsDrawn.append varsDrawn',
    marksDrawn.append marksDrawn', ?_⟩, ?_, ?_, ?_⟩
  · -- The variables of optional parts are listed behind all others, so two lists change places.
    have regroup := (List.perm_append_comm_assoc (spreadNames base spreads) vars'
      (spreadNames (base + spreads.length) others)).append_left vars
    rw [binders, List.flatMap_append, spreadNames_append, List.append_assoc]
    refine (bound.append bound').trans ?_
    rw [← List.map_append, List.append_assoc]
    exact regroup.map Name.text
  · rw [labels, List.filterMap_append, List.map_append]
    exact labelled.append labelled'
  · intro x member stem call
    rcases List.mem_append.mp member with early | late
    · exact List.mem_append_left _ (called x early stem call)
    · exact List.mem_append_right _ (called' x late stem call)
  · simpa [or_imp, forall_and] using ⟨plain, plain'⟩
  · rw [List.countP_append, optionals, optionals', List.length_append]
  · intro stem
    rw [List.map_append, List.mem_append, ← calls, ← calls']
    simp [or_and_right, exists_or]

theorem own (vars marks : List Name) (own : ∀ x ∈ drawn, x.kind ∈ ownKinds)
    (optionals : drawn.countP (·.kind = "optional") = spreads.length)
    (bound : (binders entries).Perm ((vars ++ spreadNames base spreads).map Name.text))
    (labelled : (labels entries).Perm (marks.map Name.text)) (varsDrawn : vars.Subperm drawn)
    (marksDrawn : marks.Subperm drawn) : Declares base spreads [] drawn entries := by
  have noCall : ∀ x ∈ drawn, ∀ stem, x.kind ≠ stem ++ "_" :=
    fun x member => ne_append_underscore (own x member)
  refine ⟨⟨vars, marks, bound, labelled, varsDrawn, marksDrawn, ?_⟩, ?_, optionals, ?_⟩
  · exact fun x member stem call => (noCall x member stem call).elim
  · exact fun x member => plain_of_ownKinds (own x member)
  · intro stem
    simpa using fun x member => noCall x member stem

theorem unnumbered (vars marks : List Name)
    (kinds : ∀ x ∈ drawn, x.kind ∈ ownKinds ∧ x.kind ≠ "optional")
    (bound : (binders entries).Perm (vars.map Name.text))
    (labelled : (labels entries).Perm (marks.map Name.text)) (varsDrawn : vars.Subperm drawn)
    (marksDrawn : marks.Subperm drawn) : Declares base [] [] drawn entries := by
  have none : drawn.countP (·.kind = "optional") = 0 :=
    List.countP_eq_zero.mpr fun x member => by simpa using (kinds x member).2
  have bound' : (binders entries).Perm ((vars ++ spreadNames base []).map Name.text) := by
    simpa [spreadNames] using bound
  exact .own vars marks (fun x member => (kinds x member).1) none bound' labelled varsDrawn
    marksDrawn

theorem nothing : Declares base [] [] [] [] :=
  .unnumbered [] [] (by simp) .rfl .rfl (by simp) (by simp)

theorem quiet {depth : Nat} {front : List Entry}
    (declares : Declares base spreads kept drawn entries) (quiet : Quiet depth front) :
    Declares base spreads kept drawn (front ++ entries) := by
  obtain ⟨⟨vars, marks, bound, labelled, drawn⟩, plain, optionals, calls⟩ := declares
  refine ⟨⟨vars, marks, ?_, ?_, drawn⟩, plain, optionals, calls⟩
  · rwa [binders_append, quiet.binders]
  · rwa [labels_append, quiet.labels]

theorem around {own : List Nat} {names all : List Name} {front back : List Entry}
    (outer : Declares base own [] names (front ++ back))
    (inner : Declares (base + own.length) spreads kept drawn entries)
    (allNames : (names ++ drawn).Perm all) :
    Declares base (own ++ spreads) kept all (front ++ (entries ++ back)) :=
  -- The lines of a construct stand around those of its inside.
  (outer.append inner).perm allNames (by simpa using List.perm_append_comm.append_left front)

end Declares

/-- What a run of an emitter has left behind: the blocks that it hands out, lines at its depth or
deeper, outputs over variables in scope, and names that were drawn for what has been declared. -/
structure Emits (spreads : List Nat) (kept : List String) (base depth : Nat) (m : Emitted)
    (after : Nat) (drawn : List Name) (entries : List Entry) : Prop where
  size : after = depth + m.guards.size
  stacked : m.guards.blocks = blocksAbove depth m.guards.size
  inside : ∀ e ∈ entries, depth ≤ e.indent
  outputs : ∀ output ∈ m.outputs, IsOver (InScope after entries) output
  declares : Declares base spreads kept drawn entries

def Codes (body : Emit Emitted) (spreads : List Nat) (kept : List String) : Prop :=
  ∀ depth counts, Emit.Writes depth counts body (Emits spreads kept (count counts "optional") depth)

variable {spreads others : List Nat} {kept more : List String} {base depth after last : Nat}
  {counts : Counts} {m inner : Emitted} {drawn later : List Name} {entries behind : List Entry}

namespace Emits

theorem nothing : Emits [] [] base depth {} depth [] [] :=
  ⟨rfl, rfl, by simp, by simp, .nothing⟩

theorem append (first : Emits spreads kept base depth m after drawn entries)
    (second : Emits others more (base + spreads.length) after inner last later behind) :
    Emits (spreads ++ others) (kept ++ more) base depth (m.append inner) last (drawn ++ later)
      (behind ++ entries) := by
  have size := first.size
  have sizes : (m.append inner).guards.size = m.guards.size + inner.guards.size :=
    Nat.add_comm inner.guards.size m.guards.size ▸ Guards.size_append ..
  have deeper : after ≤ last := second.size ▸ Nat.le_add_right _ _
  constructor
  · rw [second.size, size, sizes, Nat.add_assoc]
  · rw [sizes, blocksAbove_add, ← first.stacked, ← size, ← second.stacked]
    rfl
  · intro e member
    rcases List.mem_append.mp member with late | early
    · exact (size ▸ Nat.le_add_right _ _).trans (second.inside e late)
    · exact first.inside e early
  · -- The second part stays inside of the blocks of the first, whose variables remain in scope.
    intro output member
    rcases List.mem_append.mp member with early | late
    · exact (first.outputs output early).mono fun x inScope => inScope.append deeper second.inside
    · exact (second.outputs output late).mono fun x inScope => inScope.behind
  · exact (first.declares.append second.declares).perm .rfl List.perm_append_comm

theorem output {output : String} (emits : Emits spreads kept base depth m after drawn entries)
    (expression : ∀ bound : String → Prop, (∀ e ∈ m.outputs, IsOver bound e) →
      IsOver bound output) :
    Emits spreads kept base depth { m with outputs := [output] } after drawn entries where
  size := emits.size
  stacked := emits.stacked
  inside := emits.inside
  outputs := List.forall_mem_singleton.mpr (expression _ emits.outputs)
  declares := emits.declares

theorem guarded (emits : Emits spreads kept base depth m after drawn entries) :
    Emits spreads kept base depth (m.guard ⟨after + 1⟩) (after + 1) drawn
      (⟨after, .nothing⟩ :: entries) where
  size := by
    rw [emits.size]
    rfl
  stacked := by
    rw [Emitted.guard, Guards.size_push, blocksAbove, ← emits.stacked, emits.size]
    rfl
  inside := List.forall_mem_cons.mpr ⟨emits.size ▸ Nat.le_add_right _ _, emits.inside⟩
  outputs output member := (emits.outputs output member).mono fun x inScope =>
    inScope.append (Nat.le_succ after) (List.forall_mem_singleton.mpr (Nat.le_refl after))
  declares := emits.declares.quiet (quiet_cons.mpr ⟨Nat.le_refl after, quiet_nil after⟩)

theorem silent (base depth : Nat) :
    Emits [] [] base depth { guards := ⟨[⟨depth + 1⟩]⟩ } (depth + 1) [] [⟨depth, .nothing⟩] :=
  nothing.guarded

theorem bound {x : Name} {output : String}
    (declares : Declares base [] kept [x] [⟨depth, .variables [x.text] (depth + 1)⟩])
    (expression : ∀ bound : String → Prop, bound x.text → IsOver bound output) :
    Emits [] kept base depth { guards := ⟨[⟨depth + 1⟩]⟩, outputs := [output] } (depth + 1) [x]
      [⟨depth, .variables [x.text] (depth + 1)⟩] where
  size := rfl
  stacked := rfl
  inside := by simp
  outputs := List.forall_mem_singleton.mpr
    (expression _ (.here List.mem_cons_self (Nat.le_refl _)))
  declares := declares

end Emits

theorem isWord_of_ownKinds {kind : String} (own : kind ∈ ownKinds) {x : Name}
    (isOfKind : x.kind = kind) : IsWord x.text :=
  (plain_of_ownKinds (isOfKind ▸ own)).isWord

theorem Codes.token (tokenType kind : String) (use : TokenUse) :
    Codes (emitToken tokenType kind use) [] [] := by
  intro depth counts
  rw [emitToken]
  split
  · refine .openBlock (d := .nothing) ?_ (.pure (.silent _ depth))
    rw [openLine_of_ne (by simp)]
    simp [Line.declares, Text.after?]
  · let token : Name := ⟨"token", count counts "token" + 1⟩
    have own : ("token" : String) ∈ ownKinds := by simp [ownKinds]
    have words := List.forall_mem_singleton.mpr (isWord_of_ownKinds own (x := token) rfl)
    refine .fresh (.openBlock (declares_ifLet depth words _) (.pure ?_))
    refine .bound (x := token) ?_ fun bound holds => ?_
    · exact .unnumbered [token] [] (by simp [token, ownKinds]) .rfl .rfl (.refl _) (by simp)
    · cases use with
      | text => exact .text (.name holds)
      | kind => exact .kind (.name holds)
      | nothing | token => exact .name holds

theorem Declares.call {nonTerminal : String} {n inside : Nat}
    (named : ∀ c ∈ nonTerminal.toList, Pattern.continuesName c = true) :
    Declares base [] [nonTerminal] [⟨snakeCase nonTerminal ++ "_", n⟩]
      [⟨depth, .variables [Name.text ⟨snakeCase nonTerminal ++ "_", n⟩] inside⟩] where
  names := ⟨[_], [], .rfl, .rfl, .refl _, by simp, fun x member _ _ => member⟩
  plain := List.forall_mem_singleton.mpr <|
    Name.plain_of_stem (fun _ => continuesName_of_mem_snakeCase named) n
  optionals := by
    have own : ("optional" : String) ∈ ownKinds := by simp [ownKinds]
    simpa using (ne_append_underscore own (snakeCase nonTerminal)).symm
  calls stem := by simp [eq_comm]

theorem Codes.call {nonTerminal : String} (keep : Bool) (into : Option HostType)
    (named : AreNames (Plan.call nonTerminal keep into).kept) :
    Codes (emitCall nonTerminal keep into) [] (Plan.call nonTerminal keep into).kept := by
  intro depth counts
  rw [emitCall]
  cases keep with
  | false =>
    refine .openBlock (d := .nothing) ?_ (.pure (.silent _ depth))
    rw [openLine_of_ne (by simp)]
    simp [Line.declares, Text.after?]
  | true =>
    have valid : ∀ c ∈ nonTerminal.toList, Pattern.continuesName c = true :=
      named nonTerminal List.mem_cons_self
    let value : Name :=
      ⟨snakeCase nonTerminal ++ "_", count counts (snakeCase nonTerminal ++ "_") + 1⟩
    have plain : value.IsPlain :=
      Name.plain_of_stem (fun _ => continuesName_of_mem_snakeCase valid) _
    have words := List.forall_mem_singleton.mpr plain.isWord
    refine .fresh (.openBlock (declares_ifLet depth words _) (.pure ?_))
    refine .bound (.call valid) fun bound holds => ?_
    cases into with
    | some type => exact .converted type (.name holds)
    | none => exact .name holds

theorem emitConcat_writes (lists : List String) :
    Emit.Writes depth counts (emitConcat lists) fun concat after drawn entries =>
      ∃ x : Name, x.kind = "concat" ∧ concat = x.text ∧ after = depth ∧ drawn = [x] ∧
        ∃ rest, Quiet depth rest ∧ entries = rest ++ [⟨depth, .variables [x.text] depth⟩] := by
  have own : ("concat" : String) ∈ ownKinds := by simp [ownKinds]
  let x : Name := ⟨"concat", count counts "concat" + 1⟩
  have word : IsWord x.text := isWord_of_ownKinds own rfl
  rw [emitConcat]
  refine .fresh ?_
  cases lists with
  | nil =>
    refine .line (declares_letMut word " = ::std::vec::Vec::new();".toList ?_ (by simp)) ?_
    · simp [x]
    exact .pure ⟨x, rfl, rfl, rfl, rfl, [], quiet_nil depth, rfl⟩
  | cons first rest =>
    refine .line (declares_letMut word (" = " ++ first ++ ";").toList (by simp [x]) (by simp)) ?_
    refine .forM_list (fun list member => ?_) fun lines quiet => ?_
    · simp [Line.declares, Text.after?, Name.text]
    · exact .pure ⟨x, rfl, rfl, rfl, rfl, lines, quiet, rfl⟩

namespace Codes

variable {body first second : Emit Emitted}

theorem output {output : Emitted → String} (codes : Codes body spreads kept)
    (expression : ∀ (bound : String → Prop) (m : Emitted), (∀ e ∈ m.outputs, IsOver bound e) →
      IsOver bound (output m)) :
    Codes (do let e ← body; return { e with outputs := [output e] }) spreads kept :=
  fun depth counts => (codes depth counts).bind fun m _ _ _ _ _ emits => .pure <| by
    simpa using emits.output fun bound => expression bound m

theorem append (early : Codes first spreads kept) (late : Codes second others more) :
    Codes (do let e ← first; return e.append (← second)) (spreads ++ others) (kept ++ more) := by
  intro depth counts
  refine (early depth counts).bind fun m after counts' drawn entries draws emits => ?_
  refine (late after counts').bind fun inner last counts'' later behind _ emitsLater => .pure ?_
  -- Optional parts are numbered on from those of the first part.
  have base : count counts' "optional" = count counts "optional" + spreads.length := by
    rw [draws.count_eq, emits.declares.optionals]
  rw [base] at emitsLater
  simpa using emits.append emitsLater

theorem concat (codes : Codes body spreads kept) :
    Codes (do let e ← body; return { e with outputs := [← emitConcat e.outputs] })
      spreads kept := by
  intro depth counts
  refine (codes depth counts).bind fun m after counts' drawn entries draws emits => ?_
  refine (emitConcat_writes m.outputs).bind fun concat last _ later behind _ made => .pure ?_
  obtain ⟨x, kind, rfl, rfl, rfl, rest, quiet, rfl⟩ := made
  have deep : depth ≤ last := emits.size ▸ Nat.le_add_right _ _
  have level : ∀ e ∈ rest, last ≤ e.indent := fun e member => (quiet e member).1
  simp only [List.nil_append, List.append_nil]
  refine ⟨emits.size, emits.stacked, ?_, List.forall_mem_singleton.mpr (.name ?_), ?_⟩
  · intro e member
    simp only [List.mem_append, List.mem_singleton] at member
    rcases member with (later | rfl) | early
    · exact deep.trans (level e later)
    · exact deep
    · exact emits.inside e early
  · rw [List.append_assoc]
    exact .append (.here List.mem_cons_self (Nat.le_refl _)) (Nat.le_refl _) level
  · have own : Declares (count counts "optional") [] [] [x]
        (rest ++ [⟨last, .variables [x.text] last⟩]) :=
      .unnumbered [x] [] (by simp [kind, ownKinds])
        (by simp [binders_append, quiet.binders, Declaration.binders])
        (by simp [labels_append, quiet.labels, Declaration.label?]) (.refl _) (by simp)
    exact (own.append emits.declares).perm List.perm_append_comm .rfl

end Codes

end Code

end Pegsmith
