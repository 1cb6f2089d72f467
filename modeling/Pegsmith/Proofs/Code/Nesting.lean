import Mathlib
import Pegsmith.Proofs.Code.Binding

set_option autoImplicit false

namespace Pegsmith.Code

open Emit (openBlock within)

variable {spreads others : List Nat} {kept more : List String} {base depth n : Nat}
  {counts : Counts} {drawn : List Name} {front back entries : List Entry} {body : Emit Emitted}

theorem declares_restore (depth : Nat) {restore : String} {n : Nat}
    (named : restore = Name.text ⟨"restore", n⟩) :
    Line.declares ⟨depth, s!"let {restore} = lexer.position();"⟩ = .variables [restore] depth := by
  have own : ("restore" : String) ∈ ownKinds := by simp [ownKinds]
  have word : IsWord restore := named ▸ isWord_of_ownKinds own rfl
  exact declares_let (List.forall_mem_singleton.mpr word) " = lexer.position();".toList
    (by simp [tupleText]) (by simp) (by simp [named, tupleText, Text.after?, Name.text])

section Loops

variable {list? count? : Option Name} (isList : ∀ x ∈ list?, x.kind = "list")
  (isCount : ∀ x ∈ count?, x.kind = "count")

include isList isCount

theorem Emits.loop {label restore : Name} (isLabel : label.kind = "repeat")
    (isRestore : restore.kind = "restore") (quiet : Quiet depth front)
    (inside : ∀ e ∈ entries, depth ≤ e.indent) (declares : Declares base spreads kept drawn entries)
    (begins : back = ⟨depth + 1, .variables [restore.text] (depth + 1)⟩ ::
      ⟨depth, .label label.text⟩ :: (bindings depth count?.toList ++ bindings depth list?.toList)) :
    Emits spreads kept base depth { outputs := (list?.map Name.text).toList } depth
      (label :: restore :: (list?.toList ++ (count?.toList ++ drawn)))
      (front ++ (entries ++ back)) := by
  have level : ∀ e ∈ front ++ (entries ++ back), depth ≤ e.indent := by
    simp only [begins, List.forall_mem_append, List.forall_mem_cons]
    exact ⟨fun e member => (quiet e member).1, inside, Nat.le_succ depth, Nat.le_refl depth,
      by simp [bindings], by simp [bindings]⟩
  refine ⟨rfl, rfl, level, fun output member => ?_, ?_⟩
  · obtain ⟨x, found, rfl⟩ : ∃ x, list? = some x ∧ x.text = output := by simpa using member
    have bound : ⟨depth, .variables [x.text] depth⟩ ∈ front ++ (entries ++ back) := by
      simp [begins, found, bindings]
    exact .name (.of_mem bound List.mem_cons_self (Nat.le_refl depth) level)
  · -- The names of the loop itself are declared around those of its inside.
    let names : List Name := label :: restore :: (list?.toList ++ count?.toList)
    have kinds : ∀ x ∈ names, x.kind ∈ ["repeat", "restore", "list", "count"] := by
      simp only [names, List.forall_mem_cons, List.forall_mem_append, Option.mem_toList]
      exact ⟨by simp [isLabel], by simp [isRestore], fun x found => by simp [isList x found],
        fun x found => by simp [isCount x found]⟩
    have ownNames : ∀ x ∈ names, x.kind ∈ ownKinds ∧ x.kind ≠ "optional" := by
      intro x member
      have kind := kinds x member
      simp only [List.mem_cons, List.not_mem_nil, or_false] at kind
      rcases kind with kind | kind | kind | kind <;> simp [kind, ownKinds]
    have own : Declares base [] [] names (front ++ back) := by
      refine .unnumbered (restore :: (list?.toList ++ count?.toList)) [label] ownNames ?_ ?_
        (List.sublist_cons_self ..).subperm (by simp [names])
      · simpa [begins, binders_append, quiet.binders, binders_bindings,
          Declaration.binders] using List.perm_append_comm
      · simp [begins, labels_append, quiet.labels, labels_bindings, Declaration.label?]
    exact own.around declares (.of_eq (by simp [names]))

omit isList in
theorem emitLoop_tail {names : List Name → List Name} (atLeastOne : Bool)
    (emits : Emits spreads kept base depth { outputs := (list?.map Name.text).toList } depth
      (names []) entries) :
    Emit.Writes depth counts
      (match list?.map Name.text, count?.map Name.text with
      | some list, _ =>
        if atLeastOne then do
          let block ← openBlock s!"if !{list}.is_empty()"
          return Emitted.guard { outputs := (list?.map Name.text).toList } block
        else return { outputs := (list?.map Name.text).toList }
      | none, some count => do
        let block ← openBlock s!"if {count} > 0"
        return Emitted.guard { outputs := (list?.map Name.text).toList } block
      | none, none => return { outputs := (list?.map Name.text).toList })
      fun m after drawn more =>
        Emits spreads kept base depth m after (names drawn) (more ++ entries) := by
  cases list? with
  | some list =>
    cases atLeastOne with
    | false => exact .pure emits
    | true =>
      refine .openBlock (d := .nothing) ?_ (.pure emits.guarded)
      rw [openLine_of_ne (by simp)]
      simp [Line.declares, Text.after?]
  | none =>
    cases count? with
    | none => exact .pure emits
    | some count =>
      refine .openBlock (d := .nothing) ?_ (.pure emits.guarded)
      rw [openLine_of_ne (by simp)]
      simp [Line.declares, Text.after?, Name.text, isCount count rfl]

end Loops

theorem Codes.loop (codes : Codes body spreads kept) (atLeastOne keep : Bool) :
    Codes (emitLoop body atLeastOne keep) spreads kept := by
  intro depth counts
  rw [emitLoop]
  simp only [within, emitRound, bind_assoc]
  refine .fresh (.fresh ?_)
  refine .freshIf fun list? counts₁ draws₁ isList => ?_
  refine .freshIf fun count? counts₂ draws₂ isCount => ?_
  refine .forM_option (fun x found => ?_) (.forM_option (fun x found => ?_) ?_)
  · have word : IsWord x.text := isWord_of_ownKinds (by simp [ownKinds]) (isList x found)
    exact declares_letMut word " = ::std::vec::Vec::new();".toList (by simp) (by simp)
  · have word : IsWord x.text := isWord_of_ownKinds (by simp [ownKinds]) (isCount x found)
    exact declares_letMut word " = 0usize;".toList (by simp) (by simp)
  have label : IsWord (Name.text ⟨"repeat", count counts "repeat" + 1⟩) :=
    isWord_of_ownKinds (by simp [ownKinds]) rfl
  refine .openBlock (declares_label depth label " loop".toList (by simp)) ?_
  refine .line (declares_restore _ rfl) ?_
  refine (codes (depth + 1) counts₂).bind fun round after counts₃ drawn entries draws emits => ?_
  obtain rfl := emits.size
  refine .forM_quiet (fun x found => ?_) fun pushes quiet₁ => ?_
  · simp [Line.declares, Text.after?, Name.text, isList x found]
  refine .forM_quiet (fun x found => ?_) fun increments quiet₂ => ?_
  · simp [Line.declares, Text.after?, Name.text, isCount x found]
  refine .line (d := .nothing) ?_ (.line (d := .nothing) ?_ ?_)
  · simp [Line.declares, Text.after?]
  · simp [Line.declares, Text.after?]
  refine .release emits.stacked fun closing quiet => ?_
  refine .line (d := .nothing) ?_ (.line (d := .nothing) ?_ (.close ?_))
  · simp [Line.declares, Text.after?]
  · simp [Line.declares, Text.after?]
  simp only [List.append_assoc, List.cons_append, List.nil_append]
  refine emitLoop_tail isCount atLeastOne ?_
  -- Nothing drawn ahead of the rounds is an optional part, so those inside are numbered from here.
  have base : count counts₂ "optional" = count counts "optional" := by
    rw [draws₂.count_eq_of_kind (by simpa using isCount) (by decide),
      draws₁.count_eq_of_kind (by simpa using isList) (by decide), count_draw, count_draw]
    rfl
  rw [base] at emits
  rw [List.append_nil]
  let deep := depth + 1 + round.guards.size
  have quietFront : Quiet depth (⟨depth, .nothing⟩ :: ⟨depth + 1, .nothing⟩ ::
      ⟨depth + 1, .nothing⟩ :: (closing ++ ⟨deep, .nothing⟩ :: ⟨deep, .nothing⟩ ::
        (increments ++ pushes))) := by
    simp only [quiet_cons, quiet_append]
    refine ⟨by omega, by omega, by omega, quiet.mono (by omega), by omega, by omega, ?_, ?_⟩
    · exact quiet₂.mono (by omega)
    · exact quiet₁.mono (by omega)
  have inside : ∀ e ∈ entries, depth ≤ e.indent :=
    fun e member => Nat.le_of_succ_le (emits.inside e member)
  simpa using Emits.loop isList isCount rfl rfl quietFront inside emits.declares rfl

inductive Taken (depth : Nat) (x : Name) (n : Nat) :
    Fallback → List String → List Entry → Prop where
  | nothing : Taken depth x n .nothing [] []
  | keep : Taken depth x n .keep [x.text] []
  | single (one : n = 1) : Taken depth x n .default [x.text ++ ".unwrap_or_default()"] []
  | apart {values : List Name} (several : n ≠ 1)
      (parts : values = (List.range n).map fun i => ⟨x.text ++ "_", i⟩) :
      Taken depth x n .default (values.map Name.text)
        [⟨depth, .variables (values.map Name.text) depth⟩]

theorem plain_optional (n : Nat) : (⟨"optional", n⟩ : Name).IsPlain :=
  plain_of_ownKinds (by simp [ownKinds])

theorem plain_of_part {x : Name} (plain : x.IsPlain) (i : Nat) :
    (⟨x.text ++ "_", i⟩ : Name).IsPlain :=
  Name.plain_of_stem (fun _ => Name.continuesName_of_mem_text plain) i

theorem optionalValues_writes {x : Name} (plain : x.IsPlain) (n : Nat) (fallback : Fallback) :
    Emit.Writes depth counts (optionalValues x.text n fallback) fun values after drawn entries =>
      after = depth ∧ drawn = [] ∧ Taken depth x n fallback values entries := by
  cases fallback with
  | nothing => exact .pure ⟨rfl, rfl, .nothing⟩
  | keep => exact .pure ⟨rfl, rfl, .keep⟩
  | default =>
    rw [optionalValues]
    split
    · next one => exact .pure ⟨rfl, rfl, .single one⟩
    · next several =>
      let values : List Name := (List.range n).map fun i => ⟨x.text ++ "_", i⟩
      have texts : (List.range n).map (fun i => s!"{x.text}_{i}") = values.map Name.text := by
        simp [values, Name.text, Function.comp_def]
      have each : ∀ value ∈ values.map Name.text, IsWord value := by
        simp only [values, List.forall_mem_map]
        exact fun i _ => (plain_of_part plain i).isWord
      have several' : (values.map Name.text).length ≠ 1 := by simpa [values] using several
      obtain ⟨cs, bracket⟩ := toList_tupleText_of_ne several'
      rw [texts]
      refine .line (declares_let each (" = " ++ x.text ++ ".unwrap_or_default();").toList ?_ ?_ ?_)
        (.pure ⟨rfl, rfl, .apart several rfl⟩)
      · simp
      · simp
      · simp [bracket, Text.after?]

section Optionals

variable {x restore : Name} {fallback : Fallback} {values : List String} {taken : List Entry}
  (isOptional : x = ⟨"optional", base + 1⟩) (takes : Taken depth x n fallback values taken)

include isOptional takes

theorem Taken.declares :
    binders taken = (spreadNames base [fallback.spread n]).map Name.text ∧ labels taken = [] ∧
      ∀ e ∈ taken, depth ≤ e.indent := by
  subst isOptional
  cases takes with
  | nothing | keep => simp [spreadNames, Fallback.spread]
  | single one => simp [spreadNames, Fallback.spread, one]
  | apart several parts =>
    subst parts
    simp [spreadNames, Fallback.spread, several, Declaration.binders, Declaration.label?, Name.text]

theorem Emits.optional (isRestore : restore.kind = "restore") (quiet : Quiet depth front)
    (inside : ∀ e ∈ entries, depth ≤ e.indent)
    (declares : Declares (base + 1) spreads kept drawn entries)
    (begins : back = ⟨depth, .label x.text⟩ ::
      (bindings depth (if fallback ≠ .nothing then [x] else []) ++ bindings depth [restore])) :
    Emits (fallback.spread n :: spreads) kept base depth { outputs := values } depth
      (restore :: x :: drawn) ((taken ++ front) ++ (entries ++ back)) := by
  have kind : x.kind = "optional" := by rw [isOptional]
  obtain ⟨bound, labelled, insideTaken⟩ := takes.declares isOptional
  have level : ∀ e ∈ (taken ++ front) ++ (entries ++ back), depth ≤ e.indent := by
    simp only [begins, List.forall_mem_append, List.forall_mem_cons]
    exact ⟨⟨insideTaken, fun e member => (quiet e member).1⟩, inside, Nat.le_refl depth,
      by simp [bindings], by simp [bindings]⟩
  refine ⟨rfl, rfl, level, ?_, ?_⟩
  · have inScope (used : fallback ≠ .nothing) :
        InScope depth ((taken ++ front) ++ (entries ++ back)) x.text := by
      have listed : ⟨depth, .variables [x.text] depth⟩ ∈ (taken ++ front) ++ (entries ++ back) := by
        simp [begins, used, bindings]
      exact .of_mem listed List.mem_cons_self (Nat.le_refl depth) level
    cases takes with
    | nothing => simp
    | keep => exact List.forall_mem_singleton.mpr (.name (inScope (by decide)))
    | single one => exact List.forall_mem_singleton.mpr (.orDefault (.name (inScope (by decide))))
    | apart several parts => exact fun output member => .name (.here member (Nat.le_refl depth))
  · let held : List Name := if fallback ≠ .nothing then [x] else []
    have drawnHeld : (restore :: held).Subperm [restore, x] := by
      cases fallback with
      | nothing => exact (List.singleton_sublist.mpr List.mem_cons_self).subperm
      | keep | default => exact .refl _
    have own : Declares base [fallback.spread n] [] [restore, x] ((taken ++ front) ++ back) := by
      refine .own (restore :: held) [x] (by simp [isRestore, kind, ownKinds])
        (by simp [isRestore, kind]) ?_ ?_ drawnHeld
        (List.sublist_cons_self ..).subperm
      · let parts := (spreadNames base [fallback.spread n]).map Name.text
        -- In the text the variables that were taken apart come last.
        have turned : (parts ++ (held.map Name.text ++ [restore.text])).Perm
            ([restore.text] ++ held.map Name.text ++ parts) :=
          List.perm_append_comm.trans (List.perm_append_comm.append_right parts)
        simpa [parts, held, begins, binders_append, quiet.binders, binders_bindings, bound,
          Declaration.binders] using turned
      · simp [begins, labels_append, quiet.labels, labels_bindings, labelled, Declaration.label?]
    exact own.around declares (.of_eq rfl)

end Optionals

theorem Codes.optional (codes : Codes body spreads kept) (gives : Gives body n) (arity : Nat)
    (fallback : Fallback) :
    Codes (emitOptional body arity fallback)
      ((if arity = 0 then 0 else fallback.spread n) :: spreads) kept := by
  intro depth counts
  -- A part without values falls back to nothing, whatever it is declared to.
  have used : (if arity = 0 then 0 else fallback.spread n) =
      (if arity = 0 then Fallback.nothing else fallback).spread n := by
    split <;> rfl
  rw [emitOptional, used]
  generalize (if arity = 0 then Fallback.nothing else fallback) = fallback
  refine .fresh (.fresh (.line (declares_restore depth rfl) ?_))
  have base : count (draw counts "restore") "optional" = count counts "optional" := by
    rw [count_draw]
    rfl
  rw [base]
  have plain := plain_optional (count counts "optional" + 1)
  refine .bindIf (declares_letMut plain.isWord " = None;".toList (by simp) (by simp)) ?_
  refine .openBlock (declares_label depth plain.isWord [] (by simp)) ?_
  refine ((codes _ _).yields gives).bind fun inner after counts' drawn entries draws both => ?_
  obtain ⟨emits, length⟩ := both
  obtain rfl := emits.size
  refine .quietIf ?_ fun stores quiet₁ => .line (d := .nothing) ?_ ?_
  · simp [Line.declares, Text.after?, Name.text]
  · simp [Line.declares, Text.after?]
  refine .release emits.stacked fun closing quiet₂ => .line (d := .nothing) ?_ (.close ?_)
  · simp [Line.declares, Text.after?]
  rw [length]
  refine (optionalValues_writes plain n fallback).bind fun values after _ later taken _ made => ?_
  obtain ⟨rfl, rfl, takes⟩ := made
  have inside : ∀ e ∈ entries, after ≤ e.indent :=
    fun e member => Nat.le_of_succ_le (emits.inside e member)
  have declares := emits.declares
  rw [count_draw, base] at declares
  let deep := after + 1 + inner.guards.size
  have quiet : Quiet after (⟨after, .nothing⟩ :: ⟨after + 1, .nothing⟩ ::
      (closing ++ ⟨deep, .nothing⟩ :: stores)) := by
    simp only [quiet_cons, quiet_append]
    exact ⟨by omega, by omega, quiet₂.mono (by omega), by omega, quiet₁.mono (by omega)⟩
  exact .pure (by simpa [bindings] using Emits.optional rfl takes rfl quiet inside declares rfl)

def Encloses (body : Emit Unit) (spreads : List Nat) (kept : List String) : Prop :=
  ∀ depth counts, Emit.Writes depth counts body fun _ after drawn entries =>
    after = depth ∧ (∀ e ∈ entries, depth ≤ e.indent) ∧
      Declares (count counts "optional") spreads kept drawn entries

theorem Encloses.nothing : Encloses (pure ()) [] [] :=
  fun _ _ => .pure ⟨rfl, by simp, .nothing⟩

theorem Encloses.append {first second : Emit Unit} (early : Encloses first spreads kept)
    (late : Encloses second others more) :
    Encloses (do first; second) (spreads ++ others) (kept ++ more) := by
  intro depth counts
  refine (early depth counts).bind fun _ after counts' drawn entries draws left => ?_
  obtain ⟨rfl, inside, declares⟩ := left
  have base : count counts' "optional" = count counts "optional" + spreads.length := by
    rw [draws.count_eq, declares.optionals]
  obtain ⟨_, last, counts'', later, added, drawsLater, ⟨rfl, insideLater, declaresLater⟩, ran⟩ :=
    late after counts'
  rw [base] at declaresLater
  refine ⟨(), last, counts'', later, added, drawsLater, ⟨rfl, ?_, ?_⟩, ran⟩
  · exact List.forall_mem_append.mpr ⟨insideLater, inside⟩
  · exact (declares.append declaresLater).perm .rfl List.perm_append_comm

theorem Codes.branch (codes : Codes body spreads kept) (restore : String) (n arity : Nat) :
    Encloses (emitBranch restore (Name.text ⟨"choice", n⟩) arity body) spreads kept := by
  intro depth counts
  rw [emitBranch]
  refine (codes depth counts).bind fun branch after counts' drawn entries draws emits => ?_
  obtain rfl := emits.size
  refine .line (d := .nothing) ?_ (.line (d := .nothing) ?_ ?_)
  · split <;> simp [Line.declares, Text.after?, Name.text]
  · simp [Line.declares, Text.after?]
  refine .release emits.stacked fun closing quiet => ?_
  -- The last line has nothing behind it, unlike those that the rules are about.
  rw [← bind_pure (Emit.line _)]
  refine .line (d := .nothing) ?_ (.pure ⟨rfl, ?_, ?_⟩)
  · simp [Line.declares, Text.after?]
  · simpa [or_imp, forall_and] using ⟨fun e member => (quiet e member).1, emits.inside⟩
  · have front : Quiet depth (⟨depth, .nothing⟩ :: (closing ++
        [⟨depth + branch.guards.size, .nothing⟩, ⟨depth + branch.guards.size, .nothing⟩])) := by
      simp [quiet_cons, quiet_append, quiet]
    simpa using emits.declares.quiet front

theorem Emits.choice {choice restore : Name} {chosen : List Name} {opens : Declaration}
    (isChoice : choice.kind = "choice") (isRestore : restore.kind = "restore")
    (isChosen : ∀ x ∈ chosen, x.kind = "chosen") (inside : ∀ e ∈ entries, depth ≤ e.indent)
    (declares : Declares base spreads kept drawn entries)
    (opened : opens = .variables (chosen.map Name.text) (depth + 1) ∨
      opens = .nothing ∧ chosen = [])
    (begins : back = ⟨depth, .label choice.text⟩ ::
      (bindings depth [choice] ++ bindings depth [restore])) :
    Emits spreads kept base depth { guards := ⟨[⟨depth + 1⟩]⟩, outputs := chosen.map Name.text }
      (depth + 1) (restore :: choice :: (drawn ++ chosen))
      ([⟨depth, opens⟩, ⟨depth, .nothing⟩] ++ (entries ++ back)) := by
  refine ⟨rfl, rfl, ?_, ?_, ?_⟩
  · simp only [begins, List.forall_mem_append, List.forall_mem_cons]
    exact ⟨by simp, inside, Nat.le_refl depth, by simp [bindings], by simp [bindings]⟩
  · rcases opened with rfl | ⟨rfl, rfl⟩
    · exact fun output member => .name (.here member (Nat.le_refl _))
    · simp
  · let names : List Name := restore :: choice :: chosen
    have ownNames : ∀ x ∈ names, x.kind ∈ ownKinds ∧ x.kind ≠ "optional" := by
      simp only [names, List.forall_mem_cons]
      exact ⟨by simp [isRestore, ownKinds], by simp [isChoice, ownKinds],
        fun x member => by simp [isChosen x member, ownKinds]⟩
    -- The values are drawn last and stand first, as the block for them is opened behind the rest.
    have own : Declares base [] [] names ([⟨depth, opens⟩, ⟨depth, .nothing⟩] ++ back) := by
      refine .unnumbered names [choice] ownNames ?_ ?_ (.refl _) (by simp [names])
      · have turned : (chosen ++ [choice, restore] : List Name).Perm names :=
          List.perm_append_comm.trans (.swap ..)
        rcases opened with rfl | ⟨rfl, rfl⟩ <;>
          simpa [begins, bindings, Declaration.binders] using turned.map Name.text
      · rcases opened with rfl | ⟨rfl, rfl⟩ <;> simp [begins, bindings, Declaration.label?]
    exact own.around declares (by simpa [names] using List.perm_append_comm)

theorem Codes.choice {bodies : String → String → Emit Unit}
    (encloses : ∀ restore n, Encloses (bodies restore (Name.text ⟨"choice", n⟩)) spreads kept)
    (arity : Nat) : Codes (emitChoice bodies arity) spreads kept := by
  intro depth counts
  rw [emitChoice]
  simp only [within, bind_assoc]
  refine .fresh (.fresh (.line (declares_restore depth rfl) ?_))
  generalize count (draw counts "restore") "choice" + 1 = n
  have word : IsWord (Name.text ⟨"choice", n⟩) := isWord_of_ownKinds (by simp [ownKinds]) rfl
  refine .line (d := .variables [Name.text ⟨"choice", n⟩] depth) ?_ ?_
  · split
    · exact declares_letMut word " = false;".toList (by simp) (by simp)
    · exact declares_letMut word " = None;".toList (by simp) (by simp)
  refine .openBlock (declares_label depth word [] (by simp)) ?_
  refine (encloses _ _ _ _).bind fun _ after counts' drawn entries draws left => ?_
  obtain ⟨rfl, inside, declares⟩ := left
  have outside : ∀ e ∈ entries, depth ≤ e.indent :=
    fun e member => Nat.le_of_succ_le (inside e member)
  have base : count (draw (draw counts "restore") "choice") "optional" =
      count counts "optional" := by
    rw [count_draw, count_draw]
    rfl
  rw [base] at declares
  refine .close ?_
  -- Without values, the last line only tests whether a branch has matched; otherwise it binds them.
  split
  · have none : ∀ x ∈ ([] : List Name), x.kind = "chosen" := by simp
    refine .openBlock (d := .nothing) ?_ (.pure ?_)
    · rw [openLine_of_ne (by simp [Name.text])]
      simp [Line.declares, Text.after?, Name.text]
    · simpa [bindings] using Emits.choice rfl rfl none outside declares (.inr ⟨rfl, rfl⟩) rfl
  · refine .freshEach fun chosen counts₁ drawsChosen isChosen => ?_
    have words : ∀ x ∈ chosen.map Name.text, IsWord x :=
      List.forall_mem_map.mpr fun x member =>
        isWord_of_ownKinds (by simp [ownKinds]) (isChosen x member)
    refine .openBlock (declares_ifLet depth words _) (.pure ?_)
    simpa [bindings] using Emits.choice rfl rfl isChosen outside declares (.inl rfl) rfl

theorem areNames_append {names more : List String} :
    AreNames (names ++ more) ↔ AreNames names ∧ AreNames more :=
  List.forall_mem_append

mutual

theorem emit_codes (tokenType : String) :
    (p : Plan) → AreNames p.kept → Codes (emit tokenType p) p.spreads p.kept
  | .token kind use, _ => by
    rw [emit]
    exact .token tokenType kind use
  | .call nonTerminal keep into, named => by
    rw [emit]
    exact .call keep into named
  | .sequence parts, named => by
    rw [emit]
    exact emitParts_codes tokenType parts named
  | .single inner, named => by
    rw [emit]
    exact (emit_codes tokenType inner named).output fun _ _ each => .vec (.tuple each)
  | .present inner, named => by
    rw [emit]
    exact (emit_codes tokenType inner named).output fun _ _ each => .some (.tuple each)
  | .pack inner, named => by
    rw [emit]
    exact (emit_codes tokenType inner named).output fun _ _ each => .pack each
  | .collect inner type, named => by
    rw [emit]
    exact (emit_codes tokenType inner named).output fun _ _ each => .collected type (.tuple each)
  | .concat parts, named => by
    rw [emit]
    exact (emitParts_codes tokenType parts named).concat
  | .loop inner atLeastOne keep, named => by
    rw [emit]
    exact (emit_codes tokenType inner named).loop atLeastOne keep
  | .optional inner fallback, named => by
    rw [emit]
    exact (emit_codes tokenType inner named).optional (emit_gives tokenType inner) _ fallback
  | .choice branches, named => by
    rw [emit]
    exact .choice (fun restore n => emitBranches_encloses tokenType restore n _ branches named) _

theorem emitParts_codes (tokenType : String) :
    (ps : List Plan) → AreNames (Plan.keptEach ps) →
      Codes (emitParts tokenType ps) (Plan.spreadsEach ps) (Plan.keptEach ps)
  | [], _ => by
    rw [emitParts]
    exact fun depth counts => .pure .nothing
  | p :: ps, named => by
    obtain ⟨head, tail⟩ := areNames_append.mp named
    rw [emitParts]
    exact (emit_codes tokenType p head).append (emitParts_codes tokenType ps tail)

theorem emitBranches_encloses (tokenType restore : String) (n arity : Nat) :
    (ps : List Plan) → AreNames (Plan.keptEach ps) →
      Encloses (emitBranches tokenType restore (Name.text ⟨"choice", n⟩) arity ps)
        (Plan.spreadsEach ps) (Plan.keptEach ps)
  | [], _ => by
    rw [emitBranches]
    exact .nothing
  | p :: ps, named => by
    obtain ⟨head, tail⟩ := areNames_append.mp named
    rw [emitBranches]
    exact ((emit_codes tokenType p head).branch restore n arity).append
      (emitBranches_encloses tokenType restore n arity ps tail)

end

end Pegsmith.Code
