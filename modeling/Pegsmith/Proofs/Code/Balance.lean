import Mathlib
import Pegsmith.Code.Parser

set_option autoImplicit false

namespace Pegsmith.Code

def blocksAbove (depth : Nat) : Nat → List Block
  | 0 => []
  | n + 1 => ⟨depth + n + 1⟩ :: blocksAbove depth n

theorem blocksAbove_add (depth m n : Nat) :
    blocksAbove depth (m + n) = blocksAbove (depth + m) n ++ blocksAbove depth m := by
  induction n with
  | zero => rfl
  | succ n ih => simp [blocksAbove, ih, ← Nat.add_assoc]

theorem Writer.close_top (w : Writer) :
    w.close ⟨w.depth⟩ = .ok (line { w with depth := w.depth - 1 } closeLine) := by
  simp [close]

def closings (depth : Nat) : Nat → List Line
  | 0 => []
  | n + 1 => closings depth n ++ [⟨depth + n, Writer.closeLine⟩]

theorem Writer.closeAll_blocksAbove (depth n : Nat) (lines : List Line) :
    closeAll ⟨lines, depth + n⟩ (blocksAbove depth n) =
      (⟨closings depth n ++ lines, depth⟩, none) := by
  induction n generalizing lines with
  | zero => rfl
  | succ n ih =>
    -- The innermost block is given back first, which takes the writer to the depth of the others.
    have top := close_top ⟨lines, depth + n + 1⟩
    rw [blocksAbove, closeAll, ← Nat.add_assoc, top, closings, List.append_assoc]
    exact ih _

namespace Emit

variable {α β : Type}

theorem run_close (b : Block) (e : Emission) :
    (close b).run e = (e.writer.close b).map fun writer => ((), { e with writer }) := by
  cases closing : e.writer.close b <;> simp [close, closing, Except.map]

theorem run_closeEach (blocks : List Block) (e : Emission) :
    (closeEach blocks).run e =
      match e.writer.closeAll blocks with
      | (writer, none) => .ok ((), { e with writer })
      | (_, some fault) => .error fault := by
  induction blocks generalizing e with
  | nil => rfl
  | cons b blocks ih =>
    rw [closeEach, StateT.run_bind, run_close, Writer.closeAll]
    cases closing : e.writer.close b with
    | error fault => rfl
    | ok writer => exact ih _

theorem run_release_eq {g : Guards} {depth : Nat} (stacked : g.blocks = blocksAbove depth g.size)
    (lines : List Line) (counts : List (String × Nat)) :
    (release g).run ⟨⟨lines, depth + g.size⟩, counts⟩ =
      .ok ((), ⟨⟨closings depth g.size ++ lines, depth⟩, counts⟩) := by
  rw [release, run_closeEach, stacked, Writer.closeAll_blocksAbove]

theorem run_release {g : Guards} {depth : Nat} (stacked : g.blocks = blocksAbove depth g.size) :
    ∃ added, ∀ lines counts, (release g).run ⟨⟨lines, depth + g.size⟩, counts⟩ =
      .ok ((), ⟨⟨added ++ lines, depth⟩, counts⟩) :=
  ⟨_, run_release_eq stacked⟩

/-- An emitter that, begun at a depth, does not fault and ends with such a result and depth,
whatever lines there are already. -/
def Ends (depth : Nat) (body : Emit α) (post : α → Nat → Prop) : Prop :=
  ∀ counts, ∃ a after counts' added, post a after ∧
    ∀ lines, body.run ⟨⟨lines, depth⟩, counts⟩ = .ok (a, ⟨⟨added ++ lines, after⟩, counts'⟩)

def Keeps (body : Emit α) : Prop :=
  ∀ depth, Ends depth body fun _ after => after = depth

def Opens (body : Emit Emitted) : Prop :=
  ∀ depth, Ends depth body fun m after =>
    after = depth + m.guards.size ∧ m.guards.blocks = blocksAbove depth m.guards.size

namespace Ends

variable {depth : Nat} {post : β → Nat → Prop}

theorem pure {b : β} (holds : post b depth) : Ends depth (pure b) post :=
  fun counts => ⟨b, depth, counts, [], holds, fun _ => rfl⟩

theorem bind {body : Emit α} {next : α → Emit β} {mid : α → Nat → Prop}
    (first : Ends depth body mid) (rest : ∀ a after, mid a after → Ends after (next a) post) :
    Ends depth (body >>= next) post := by
  intro counts
  obtain ⟨a, after, counts', added, reached, ran⟩ := first counts
  obtain ⟨b, last, counts'', more, holds, goesOn⟩ := rest a after reached counts'
  refine ⟨b, last, counts'', more ++ added, holds, fun lines => ?_⟩
  rw [StateT.run_bind, ran, List.append_assoc]
  exact goesOn _

theorem keeping {body : Emit α} {next : α → Emit β} (keeps : Keeps body)
    (rest : ∀ a, Ends depth (next a) post) : Ends depth (body >>= next) post := by
  refine (keeps depth).bind ?_
  rintro a _ rfl
  exact rest a

theorem openBlock {header : String} {next : Block → Emit β}
    (rest : Ends (depth + 1) (next ⟨depth + 1⟩) post) :
    Ends depth (Emit.openBlock header >>= next) post := by
  refine bind (?_ : Ends _ _ fun block after => block = ⟨depth + 1⟩ ∧ after = depth + 1) ?_
  · exact fun counts => ⟨_, _, counts, [⟨depth, Writer.openLine header⟩], ⟨rfl, rfl⟩, fun _ => rfl⟩
  · rintro _ _ ⟨rfl, rfl⟩
    exact rest

theorem close {next : Unit → Emit β} (rest : Ends depth (next ()) post) :
    Ends (depth + 1) (Emit.close ⟨depth + 1⟩ >>= next) post := by
  refine bind (?_ : Ends _ _ fun _ after => after = depth) ?_
  · refine fun counts => ⟨(), depth, counts, [⟨depth, Writer.closeLine⟩], rfl, fun lines => ?_⟩
    have closes := Writer.close_top ⟨lines, depth + 1⟩
    rw [run_close, closes]
    rfl
  · rintro ⟨⟩ _ rfl
    exact rest

theorem opening {body : Emit Emitted} {next : Emitted → Emit β} (opens : Opens body)
    (rest : ∀ m, m.guards.blocks = blocksAbove depth m.guards.size →
      Ends (depth + m.guards.size) (next m) post) : Ends depth (body >>= next) post := by
  refine (opens depth).bind ?_
  rintro m _ ⟨rfl, stacked⟩
  exact rest m stacked

theorem release {g : Guards} {next : Unit → Emit β}
    (stacked : g.blocks = blocksAbove depth g.size) (rest : Ends depth (next ()) post) :
    Ends (depth + g.size) (Emit.release g >>= next) post := by
  refine bind (?_ : Ends _ _ fun _ after => after = depth) ?_
  · intro counts
    obtain ⟨added, ran⟩ := run_release stacked
    exact ⟨(), depth, counts, added, rfl, fun lines => ran lines counts⟩
  · rintro ⟨⟩ _ rfl
    exact rest

end Ends

namespace Keeps

theorem pure (a : α) : Keeps (pure a : Emit α) :=
  fun _ => Ends.pure rfl

theorem bind {body : Emit α} {next : α → Emit β} (first : Keeps body)
    (rest : ∀ a, Keeps (next a)) : Keeps (body >>= next) :=
  fun depth => Ends.keeping first fun a => rest a depth

theorem seq {body : Emit Unit} {next : Emit β} (first : Keeps body) (rest : Keeps next) :
    Keeps (body >>= fun _ => next) :=
  bind first fun _ => rest

theorem map {f : α → β} {body : Emit α} (keeps : Keeps body) : Keeps (f <$> body) := by
  rw [map_eq_pure_bind]
  exact bind keeps fun a => pure (f a)

theorem ite {p : Prop} [Decidable p] {body other : Emit α} (first : Keeps body)
    (second : Keeps other) : Keeps (if p then body else other) := by
  split <;> assumption

theorem line (text : String) : Keeps (line text) :=
  fun depth counts => ⟨(), depth, counts, [⟨depth, text⟩], rfl, fun _ => rfl⟩

theorem blank : Keeps blank :=
  fun depth counts => ⟨(), depth, counts, [⟨0, ""⟩], rfl, fun _ => rfl⟩

theorem fresh (kind : String) : Keeps (fresh kind) := by
  intro depth counts
  let n := (counts.lookup kind).getD 0 + 1
  exact ⟨s!"{kind}{n}", depth, (kind, n) :: counts.filter (·.1 != kind), [], rfl, fun _ => rfl⟩

theorem within {header : String} {body : Emit Unit} (keeps : Keeps body) :
    Keeps (within header body) := by
  intro depth
  refine Ends.openBlock (Ends.keeping keeps fun _ => ?_)
  rw [← bind_pure (Emit.close _)]
  exact Ends.close (Ends.pure rfl)

theorem forM_list {xs : List α} {body : α → Emit Unit} (each : ∀ x, Keeps (body x)) :
    Keeps (xs.forM body) := by
  induction xs with
  | nil => exact pure ()
  | cons x xs ih => exact seq (each x) ih

theorem forM_option {x : Option α} {body : α → Emit Unit} (each : ∀ x, Keeps (body x)) :
    Keeps (x.forM body) := by
  cases x with
  | none => exact pure ()
  | some x => exact each x

end Keeps

end Emit

open Emit

theorem emitToken_opens (tokenType kind : String) (use : TokenUse) :
    Opens (emitToken tokenType kind use) := by
  intro depth
  rw [emitToken]
  split
  · exact Ends.openBlock (Ends.pure ⟨rfl, rfl⟩)
  · exact Ends.keeping (.fresh _) fun _ => Ends.openBlock (Ends.pure ⟨rfl, rfl⟩)

theorem emitCall_opens (nonTerminal : String) (keep : Bool) (into : Option HostType) :
    Opens (emitCall nonTerminal keep into) := by
  intro depth
  rw [emitCall]
  split
  · exact Ends.keeping (.fresh _) fun _ => Ends.openBlock (Ends.pure ⟨rfl, rfl⟩)
  · exact Ends.openBlock (Ends.pure ⟨rfl, rfl⟩)

theorem emitConcat_keeps (lists : List String) : Keeps (emitConcat lists) := by
  rw [emitConcat]
  refine .bind (.fresh _) fun concat => ?_
  cases lists with
  | nil => exact .seq (.line _) (.pure _)
  | cons first rest => exact .seq (.line _) (.seq (.forM_list fun _ => .line _) (.pure _))

theorem freshIf_keeps (used : Bool) (kind : String) : Keeps (freshIf used kind) :=
  .ite (.map (.fresh kind)) (.pure none)

theorem lineIf_keeps (wanted : Bool) (text : String) : Keeps (lineIf wanted text) :=
  .ite (.line text) (.pure ())

theorem emitRound_keeps {body : Emit Emitted} (opens : Opens body) (label restore : String)
    (list count : Option String) : Keeps (emitRound label restore list count body) := by
  intro depth
  rw [emitRound]
  refine Ends.keeping (.line _) fun _ => Ends.opening opens fun round stacked => ?_
  refine Ends.keeping (.forM_option fun _ => .line _) fun _ => ?_
  refine Ends.keeping (.forM_option fun _ => .line _) fun _ => ?_
  refine Ends.keeping (.line _) fun _ => Ends.keeping (.line _) fun _ => ?_
  exact Ends.release stacked (Keeps.seq (.line _) (.line _) depth)

theorem emitLoop_opens {body : Emit Emitted} (opens : Opens body) (atLeastOne keep : Bool) :
    Opens (emitLoop body atLeastOne keep) := by
  intro depth
  rw [emitLoop]
  refine Ends.keeping (.fresh _) fun label => Ends.keeping (.fresh _) fun restore => ?_
  refine Ends.keeping (freshIf_keeps _ _) fun list => ?_
  refine Ends.keeping (freshIf_keeps _ _) fun count => ?_
  refine Ends.keeping (.forM_option fun _ => .line _) fun _ => ?_
  refine Ends.keeping (.forM_option fun _ => .line _) fun _ => ?_
  refine Ends.keeping (.within (emitRound_keeps opens _ _ _ _)) fun _ => ?_
  -- All blocks of the loop are closed by now; what may stay open is the test for a round.
  cases list with
  | some list =>
    cases atLeastOne with
    | true => exact Ends.openBlock (Ends.pure ⟨rfl, rfl⟩)
    | false => exact Ends.pure ⟨rfl, rfl⟩
  | none =>
    cases count with
    | some count => exact Ends.openBlock (Ends.pure ⟨rfl, rfl⟩)
    | none => exact Ends.pure ⟨rfl, rfl⟩

theorem optionalValues_keeps (optional : String) (n : Nat) (fallback : Fallback) :
    Keeps (optionalValues optional n fallback) := by
  cases fallback with
  | nothing | keep => exact .pure _
  | default => exact .ite (.pure _) (.seq (.line _) (.pure _))

theorem emitOptional_opens {body : Emit Emitted} (opens : Opens body) (arity : Nat)
    (fallback : Fallback) : Opens (emitOptional body arity fallback) := by
  intro depth
  rw [emitOptional]
  refine Ends.keeping (.fresh _) fun restore => Ends.keeping (.fresh _) fun optional => ?_
  refine Ends.keeping (.line _) fun _ => Ends.keeping (lineIf_keeps _ _) fun _ => ?_
  refine Ends.openBlock (Ends.opening opens fun inner stacked => ?_)
  refine Ends.keeping (lineIf_keeps _ _) fun _ => Ends.keeping (.line _) fun _ => ?_
  refine Ends.release stacked (Ends.keeping (.line _) fun _ => Ends.close ?_)
  exact Ends.keeping (optionalValues_keeps _ _ _) fun _ => Ends.pure ⟨rfl, rfl⟩

theorem emitBranch_keeps {body : Emit Emitted} (opens : Opens body) (restore choice : String)
    (arity : Nat) : Keeps (emitBranch restore choice arity body) := by
  intro depth
  rw [emitBranch]
  refine Ends.opening opens fun branch stacked => ?_
  refine Ends.keeping (.line _) fun _ => Ends.keeping (.line _) fun _ => ?_
  exact Ends.release stacked (Keeps.line _ depth)

theorem freshEach_keeps (kind : String) (n : Nat) : Keeps (freshEach kind n) := by
  induction n with
  | zero => exact .pure []
  | succ n ih => exact .bind (.fresh kind) fun _ => .bind ih fun _ => .pure _

theorem emitChoice_opens {bodies : String → String → Emit Unit}
    (keeps : ∀ restore choice, Keeps (bodies restore choice)) (arity : Nat) :
    Opens (emitChoice bodies arity) := by
  intro depth
  rw [emitChoice]
  refine Ends.keeping (.fresh _) fun restore => Ends.keeping (.fresh _) fun choice => ?_
  refine Ends.keeping (.line _) fun _ => Ends.keeping (.line _) fun _ => ?_
  refine Ends.keeping (.within (keeps restore choice)) fun _ => ?_
  split
  · exact Ends.openBlock (Ends.pure ⟨rfl, rfl⟩)
  · exact Ends.keeping (freshEach_keeps _ _) fun _ => Ends.openBlock (Ends.pure ⟨rfl, rfl⟩)

theorem Emit.Opens.output {body : Emit Emitted} (opens : Opens body) (text : List String → String) :
    Opens (do let m ← body; return { m with outputs := [text m.outputs] }) := by
  intro depth
  exact Ends.opening opens fun m stacked => Ends.pure ⟨rfl, stacked⟩

mutual

theorem emit_opens (tokenType : String) : (p : Plan) → Opens (emit tokenType p)
  | .token kind use => by
    rw [emit]
    exact emitToken_opens tokenType kind use
  | .call nonTerminal keep into => by
    rw [emit]
    exact emitCall_opens nonTerminal keep into
  | .sequence parts => by
    rw [emit]
    exact emitParts_opens tokenType parts
  | .single inner => by
    rw [emit]
    exact (emit_opens tokenType inner).output fun values => "vec![" ++ tupleText values ++ "]"
  | .present inner => by
    rw [emit]
    exact (emit_opens tokenType inner).output fun values => "Some(" ++ tupleText values ++ ")"
  | .pack inner => by
    rw [emit]
    exact (emit_opens tokenType inner).output packText
  | .collect inner type => by
    rw [emit]
    exact (emit_opens tokenType inner).output fun values =>
      s!"{tupleText values}.into_iter().collect::<{type.text}>()"
  | .concat parts => by
    rw [emit]
    intro depth
    refine Ends.opening (emitParts_opens tokenType parts) fun m stacked => ?_
    exact Ends.keeping (emitConcat_keeps m.outputs) fun _ => Ends.pure ⟨rfl, stacked⟩
  | .loop inner atLeastOne keep => by
    rw [emit]
    exact emitLoop_opens (emit_opens tokenType inner) atLeastOne keep
  | .optional inner fallback => by
    rw [emit]
    exact emitOptional_opens (emit_opens tokenType inner) inner.arity fallback
  | .choice branches => by
    rw [emit]
    exact emitChoice_opens (fun _ _ => emitBranches_keeps tokenType _ _ _ branches) _

theorem emitParts_opens (tokenType : String) : (ps : List Plan) → Opens (emitParts tokenType ps)
  | [] => by
    rw [emitParts]
    exact fun depth => Ends.pure ⟨rfl, rfl⟩
  | p :: ps => by
    rw [emitParts]
    intro depth
    refine Ends.opening (emit_opens tokenType p) fun m below => ?_
    refine Ends.opening (emitParts_opens tokenType ps) fun inner above => Ends.pure ?_
    -- The blocks of the later parts are opened inside of those of the first one.
    simp only [Emitted.append, Guards.size_append, Nat.add_comm inner.guards.size]
    exact ⟨(Nat.add_assoc ..), by rw [blocksAbove_add, ← below, ← above, Guards.append]⟩

theorem emitBranches_keeps (tokenType restore choice : String) (arity : Nat) :
    (ps : List Plan) → Keeps (emitBranches tokenType restore choice arity ps)
  | [] => by
    rw [emitBranches]
    exact .pure ()
  | p :: ps => by
    rw [emitBranches]
    exact .seq (emitBranch_keeps (emit_opens tokenType p) restore choice arity)
      (emitBranches_keeps tokenType restore choice arity ps)

end

theorem lines_keeps (texts : List String) : Keeps (lines texts) :=
  .forM_list .line

theorem emitKinds_keeps (tokenType : String) (kinds : List String) :
    Keeps (emitKinds tokenType kinds) := by
  rw [emitKinds]
  refine .seq (.line _) (.seq (.line _) (.seq (.line _) (.within ?_)))
  exact .forM_list fun kind => .line _

theorem emitTable_keeps (tokenType : String) (rules : List TokenRule) :
    Keeps (emitTable tokenType rules) :=
  .seq (.line _) (.seq .blank (.line _))

theorem emitAttempt_keeps (tokenType : String) (rule : TokenRule) (i : Nat) :
    Keeps (emitAttempt tokenType rule i) :=
  .ite (.within (.line _)) (.within (.line _))

theorem emitNext_keeps (tokenType : String) (rules : List TokenRule) :
    Keeps (emitNext tokenType rules) := by
  rw [emitNext]
  refine .seq (.line _) (.seq (.line _) (.within (.within (.seq (.within (.line _)) ?_))))
  exact .seq (.forM_list fun (rule, i) => emitAttempt_keeps tokenType rule i) (.line _)

theorem emitNextIf_keeps (tokenType : String) : Keeps (emitNextIf tokenType) := by
  rw [emitNextIf]
  refine .seq (.line _) (.within (.seq (.line _) (.within (.seq (.line _) ?_))))
  exact .within (lines_keeps _)

theorem emitReader_keeps (tokenType : String) (rules : List TokenRule) :
    Keeps (emitReader tokenType rules) := by
  rw [emitReader]
  refine .seq (.line _) (.seq (.within (.line _)) (.seq .blank (.seq (.line _) (.within ?_))))
  refine .seq (.within (.line _)) (.seq .blank (.seq (.line _) (.seq (.within (.line _)) ?_)))
  refine .seq .blank (.seq (.within (.line _)) (.seq .blank (.seq (.within (.line _)) ?_)))
  exact .seq .blank (.seq (emitNext_keeps _ _) (.seq .blank (emitNextIf_keeps _)))

theorem emitCursor_keeps : Keeps emitCursor := by
  rw [emitCursor]
  exact .seq (.line _) (.within (.seq (.within (.line _)) (.within (.line _))))

theorem emitLexer_keeps (t : TokenTable) : Keeps (emitLexer t) := by
  rw [emitLexer]
  refine .seq (emitKinds_keeps _ _) (.seq .blank (.seq (emitTable_keeps _ _) (.seq .blank ?_)))
  exact .seq (emitReader_keeps _ _) (.seq .blank emitCursor_keeps)

theorem emitState_keeps (g : LoweredGrammar) : Keeps (emitState g) := by
  rw [emitState]
  exact .seq (.line _) (.within (.seq (.line _) (.forM_list fun n => .line _)))

theorem renumbered_keeps {body : Emit Unit} (keeps : Keeps body) : Keeps (renumbered body) :=
  .seq (fun depth _ => ⟨(), depth, [], [], rfl, fun _ => rfl⟩) keeps

theorem emitAlternative_keeps (tokenType : String) (n : Lowered.NonTerminal)
    (a : Lowered.Alternative) : Keeps (emitAlternative tokenType n a) := by
  refine renumbered_keeps fun depth => Ends.opening (emit_opens tokenType a.plan) ?_
  intro matched stacked
  refine Ends.keeping (.line _) fun _ => Ends.keeping (.line _) fun _ => ?_
  rw [← bind_pure (release _)]
  exact Ends.keeping (.line _) fun _ => Ends.release stacked (Ends.pure rfl)

theorem attempts_keep (tokenType : String) (n : Lowered.NonTerminal) :
    Keeps (n.alternatives.forM fun a => within "" do
      emitAlternative tokenType n a
      line "lexer.restore(start);") :=
  .forM_list fun a => .within (.seq (emitAlternative_keeps tokenType n a) (.line _))

theorem emitRule_keeps (tokenType : String) (n : Lowered.NonTerminal) :
    Keeps (emitRule tokenType n) := by
  rw [emitRule]
  refine .seq (.forM_list fun a => .line _) (.within (.seq (.line _) ?_))
  exact .seq (.within (.line _)) (.seq (attempts_keep tokenType n) (.seq (.line _) (.line _)))

theorem emitEntry_keeps (g : LoweredGrammar) (n : Lowered.NonTerminal) : Keeps (emitEntry g n) := by
  rw [emitEntry]
  refine .seq (.line _) (.within (.seq (.line _) (.seq (.within ?_) ?_)))
  · exact .seq (.line _) (.forM_list fun other => .line _)
  · exact .seq (.line _) (.within (.seq (.line _) (.line _)))

theorem separatedBy_keeps {α : Type} {item : α → Emit Unit} (each : ∀ x, Keeps (item x))
    (xs : List α) : Keeps (separatedBy item xs) := by
  fun_induction separatedBy item xs with
  | case1 => exact .pure ()
  | case2 x => exact each x
  | case3 x xs _ ih => exact .seq (each x) (.seq .blank ih)

theorem emitParser_keeps (g : LoweredGrammar) : Keeps (emitParser g) := by
  rw [emitParser]
  refine .seq (emitState_keeps g) (.seq .blank (.seq (.line _) (.seq (.within ?_) ?_)))
  · exact separatedBy_keeps (emitRule_keeps _) _
  · exact .seq .blank (.seq (.line _) (.within (separatedBy_keeps (emitEntry_keeps g) _)))

theorem emittedText_eq_ok {body : Emit Unit} (keeps : Keeps body) :
    ∃ text, emittedText body = .ok text := by
  obtain ⟨⟨⟩, _, counts, added, rfl, ran⟩ := keeps 0 []
  refine ⟨Writer.text ⟨added ++ [], 0⟩, ?_⟩
  rw [emittedText, ran]
  rfl

theorem fileText_eq_ok (t : TokenTable) (g : LoweredGrammar) : ∃ text, fileText t g = .ok text :=
  emittedText_eq_ok (.seq (emitLexer_keeps t) (.seq .blank (emitParser_keeps g)))

/-- Emitting the code of a plan opens exactly the blocks that it hands out, and whatever is
written into them, as long as it ends at their depth, giving them back leads out to the depth at
which the code was begun. So every file is written without a block closed out of order or left
open. -/
theorem emit_guards_close :
    (∀ (tokenType : String) (p : Plan) (e : Emission), ∃ m e',
      (emit tokenType p).run e = .ok (m, e') ∧
        m.guards.size = e'.writer.depth - e.writer.depth ∧ e.writer.depth ≤ e'.writer.depth ∧
        ∀ inside : Emission, inside.writer.depth = e'.writer.depth → ∃ closed,
          (release m.guards).run inside = .ok ((), closed) ∧
            closed.writer.depth = e.writer.depth) ∧
      ∀ (t : TokenTable) (g : LoweredGrammar), ∃ text, fileText t g = .ok text := by
  refine ⟨fun tokenType p e => ?_, fileText_eq_ok⟩
  obtain ⟨m, _, counts, added, ⟨rfl, stacked⟩, ran⟩ :=
    emit_opens tokenType p e.writer.depth e.counts
  refine ⟨m, _, ran e.writer.lines, (Nat.add_sub_cancel_left ..).symm, Nat.le_add_right .., ?_⟩
  intro inside (same : inside.writer.depth = e.writer.depth + m.guards.size)
  obtain ⟨closing, closes⟩ := run_release stacked
  have closed := closes inside.writer.lines inside.counts
  rw [← same] at closed
  exact ⟨_, closed, rfl⟩

end Pegsmith.Code
