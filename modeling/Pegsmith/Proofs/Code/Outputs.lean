import Mathlib
import Pegsmith.Proofs.Code.Balance
import Pegsmith.Proofs.Plan.Parts

set_option autoImplicit false

namespace Pegsmith

def Fallback.count (n : Nat) : Fallback → Nat
  | .nothing => 0
  | .keep => 1
  | .default => n

namespace Plan

mutual

/-- The number of outputs that the code of a plan has. -/
def outputCount : Plan → Nat
  | .token _ use => if use = .nothing then 0 else 1
  | .call _ keep _ => if keep then 1 else 0
  | .sequence parts => outputCounts parts
  | .single _ | .present _ | .pack _ | .collect _ _ | .concat _ => 1
  | .loop _ _ keep => if keep then 1 else 0
  | .optional inner fallback =>
      if inner.arity = 0 then 0 else fallback.count inner.outputCount
  | .choice branches => firstArity branches

def outputCounts : List Plan → Nat
  | [] => 0
  | p :: ps => p.outputCount + outputCounts ps

end

def Solid (p : Plan) : Prop :=
  p.Everywhere fun part => part.isHollow = false

mutual

theorem outputCount_eq_arity : (p : Plan) → p.Solid → p.outputCount = p.arity
  | .token _ _, _ | .call _ _ _, _ | .single _, _ | .present _, _ | .pack _, _ | .collect _ _, _
  | .concat _, _ | .loop _ _ _, _ | .choice _, _ => by simp [outputCount, arity]
  | .sequence parts, solid => by
    rw [outputCount, arity]
    exact outputCounts_eq_arities parts (everywhere_iff.mp solid).2
  | .optional inner fallback, solid => by
    obtain ⟨itself, each⟩ := everywhere_iff.mp solid
    have same := outputCount_eq_arity inner (each inner List.mem_cons_self)
    cases fallback with
    | nothing => simp [outputCount, arity, Fallback.count]
    -- The arity is one whatever is inside, but an inside without values gives no output.
    | keep => simpa [outputCount, arity, Fallback.count, isHollow] using itself
    | default => simp [outputCount, arity, Fallback.count, same, eq_comm]

theorem outputCounts_eq_arities :
    (ps : List Plan) → (∀ p ∈ ps, p.Solid) → outputCounts ps = arities ps
  | [], _ => rfl
  | p :: ps, solid => by
    obtain ⟨head, tail⟩ := List.forall_mem_cons.mp solid
    rw [outputCounts, arities, outputCount_eq_arity p head, outputCounts_eq_arities ps tail]

end

theorem outputCount_of_isHollow {p : Plan} (hollow : p.isHollow = true) :
    p.outputCount ≠ p.arity := by
  match p with
  | .optional inner .keep =>
    have none : inner.arity = 0 := by simpa [isHollow] using hollow
    simp [outputCount, arity, none]

end Plan

namespace Code

namespace Emit

variable {α β : Type} {post : β → Prop}

def Yields (body : Emit β) (post : β → Prop) : Prop :=
  ∀ e b e', body.run e = .ok (b, e') → post b

namespace Yields

theorem pure {b : β} (holds : post b) : Yields (pure b) post := by
  intro e _ _ ran
  cases ran
  exact holds

theorem bind {body : Emit α} {next : α → Emit β} {mid : α → Prop} (first : Yields body mid)
    (rest : ∀ a, mid a → Yields (next a) post) : Yields (body >>= next) post := by
  intro e b last ran
  rw [StateT.run_bind] at ran
  obtain ⟨⟨a, e'⟩, reached, goesOn⟩ := ok_of_bind ran
  exact rest a (first e a e' reached) e' b last goesOn

theorem after {body : Emit α} {next : α → Emit β} (rest : ∀ a, Yields (next a) post) :
    Yields (body >>= next) post := by
  have anything : Yields body fun _ => True := fun _ _ _ _ => trivial
  exact anything.bind fun a _ => rest a

theorem one {m : Emitted} {output : String} (single : m.outputs = [output]) :
    Yields (Pure.pure m) fun m => m.outputs.length = 1 :=
  pure (congrArg List.length single)

end Yields

end Emit

open Emit

def Gives (body : Emit Emitted) (n : Nat) : Prop :=
  Yields body fun m => m.outputs.length = n

theorem emitToken_gives (tokenType kind : String) (use : TokenUse) :
    Gives (emitToken tokenType kind use) (if use = .nothing then 0 else 1) := by
  rw [emitToken]
  split
  · exact .after fun block => .pure rfl
  · exact .after fun token => .after fun block => .one rfl

theorem emitCall_gives (nonTerminal : String) (keep : Bool) (into : Option HostType) :
    Gives (emitCall nonTerminal keep into) (if keep then 1 else 0) := by
  rw [emitCall]
  split
  · exact .after fun value => .after fun block => .one rfl
  · exact .after fun block => .pure rfl

theorem freshIf_yields (used : Bool) (kind : String) :
    Yields (freshIf used kind) fun name => name.toList.length = if used then 1 else 0 := by
  cases used with
  | false => exact .pure rfl
  | true =>
    rw [freshIf, if_pos rfl, map_eq_pure_bind]
    exact .after fun name => .pure rfl

theorem emitLoop_gives (body : Emit Emitted) (atLeastOne keep : Bool) :
    Gives (emitLoop body atLeastOne keep) (if keep then 1 else 0) := by
  rw [emitLoop]
  refine .after fun label => .after fun restore => ?_
  refine (freshIf_yields keep "list").bind fun list one => ?_
  refine .after fun count => .after fun _ => .after fun _ => .after fun _ => ?_
  split
  · split
    · exact .after fun block => .pure one
    · exact .pure one
  · exact .after fun block => .pure one
  · exact .pure one

theorem optionalValues_yields (optional : String) (n : Nat) (fallback : Fallback) :
    Yields (optionalValues optional n fallback) fun values =>
      values.length = fallback.count n := by
  cases fallback with
  | nothing | keep => exact .pure rfl
  | default =>
    rw [optionalValues]
    split
    · next one => exact .pure one.symm
    · exact .after fun _ => .pure (by simp [Fallback.count])

theorem emitOptional_gives {body : Emit Emitted} {n : Nat} (gives : Gives body n) (arity : Nat)
    (fallback : Fallback) :
    Gives (emitOptional body arity fallback) (if arity = 0 then 0 else fallback.count n) := by
  rw [emitOptional]
  refine .after fun restore => .after fun optional => .after fun _ => .after fun _ => ?_
  refine .after fun block => gives.bind fun inner count => ?_
  refine .after fun _ => .after fun _ => .after fun _ => .after fun _ => .after fun _ => ?_
  refine (optionalValues_yields optional _ _).bind fun values length => .pure ?_
  rw [length, count]
  split <;> rfl

theorem freshEach_yields (kind : String) (n : Nat) :
    Yields (freshEach kind n) fun names => names.length = n := by
  induction n with
  | zero => exact .pure rfl
  | succ n ih => exact .after fun name => ih.bind fun names count => .pure (by simp [count])

theorem emitChoice_gives (bodies : String → String → Emit Unit) (arity : Nat) :
    Gives (emitChoice bodies arity) arity := by
  rw [emitChoice]
  refine .after fun restore => .after fun choice => .after fun _ => .after fun _ => ?_
  refine .after fun _ => ?_
  split
  · next none => exact .after fun block => .pure none.symm
  · exact (freshEach_yields "chosen" arity).bind fun names count => .after fun block => .pure count

mutual

theorem emit_gives (tokenType : String) : (p : Plan) → Gives (emit tokenType p) p.outputCount
  | .token kind use => by
    rw [emit, Plan.outputCount]
    exact emitToken_gives tokenType kind use
  | .call nonTerminal keep into => by
    rw [emit, Plan.outputCount]
    exact emitCall_gives nonTerminal keep into
  | .sequence parts => by
    rw [emit, Plan.outputCount]
    exact emitParts_gives tokenType parts
  | .single inner | .present inner | .pack inner | .collect inner _ => by
    rw [emit]
    exact .after fun m => .one rfl
  | .concat parts => by
    rw [emit]
    exact .after fun m => .after fun concat => .one rfl
  | .loop inner atLeastOne keep => by
    rw [emit, Plan.outputCount]
    exact emitLoop_gives _ atLeastOne keep
  | .optional inner fallback => by
    rw [emit, Plan.outputCount]
    exact emitOptional_gives (emit_gives tokenType inner) inner.arity fallback
  | .choice branches => by
    rw [emit, Plan.outputCount]
    exact emitChoice_gives _ _

theorem emitParts_gives (tokenType : String) :
    (ps : List Plan) → Gives (emitParts tokenType ps) (Plan.outputCounts ps)
  | [] => by
    rw [emitParts]
    exact .pure rfl
  | p :: ps => by
    rw [emitParts, Plan.outputCounts]
    refine (emit_gives tokenType p).bind fun first one => ?_
    refine (emitParts_gives tokenType ps).bind fun others rest => .pure ?_
    rw [Emitted.append, List.length_append, one, rest]

end

theorem emit_run (tokenType : String) (p : Plan) (e : Emission) :
    ∃ m e', (emit tokenType p).run e = .ok (m, e') ∧ m.outputs.length = p.outputCount := by
  obtain ⟨m, after, counts, added, -, ran⟩ := emit_opens tokenType p e.writer.depth e.counts
  exact ⟨m, _, ran e.writer.lines, emit_gives tokenType p e m _ (ran e.writer.lines)⟩

/-- The branches of a choice have as many values as the choice, in every plan that fitting returns.
The code of such a plan, and of every plan inside of it, has as many outputs as the arity says
exactly if no part is hollow, and none is where no optional unit is asked for. -/
theorem emit_arity_iff {cx : FitContext} {p : Pattern} {demand : Demand} {plan : Plan}
    (made : cx.plan p demand = .ok plan) :
    (∀ branches, plan.Contains (.choice branches) →
        ∀ branch ∈ branches, branch.arity = (Plan.choice branches).arity) ∧
      ((∀ part, plan.Contains part → ∀ (tokenType : String) (e : Emission), ∃ m e',
        (emit tokenType part).run e = .ok (m, e') ∧ m.outputs.length = part.arity) ↔
          plan.Solid) ∧
      (demand.asksOptionalUnit = false → plan.Solid) := by
  have sound := FitContext.sound_of_plan made
  refine ⟨fun branches inside => ?_, ⟨fun each part inside => ?_, fun solid part inside => ?_⟩,
    fun noUnit part inside => (sound part inside).2 noUnit⟩
  · exact (sound _ inside).1.arity_eq
  · obtain ⟨m, e', ran, count⟩ := each part inside "" {}
    have outputs : m.outputs.length = part.outputCount := emit_gives "" part {} m e' ran
    by_contra hollow
    exact Plan.outputCount_of_isHollow (by simpa using hollow) (outputs.symm.trans count)
  · intro tokenType e
    obtain ⟨m, e', ran, count⟩ := emit_run tokenType part e
    have whole : part.Solid := fun inner deeper => solid inner (inside.trans deeper)
    exact ⟨m, e', ran, count.trans (Plan.outputCount_eq_arity part whole)⟩

def optionalUnit : HostType :=
  .path "" "Option" (.angle false [.type .unit] false)

def units : TypeContext :=
  ⟨Catalog.types {}, .named "TokenType", fun name =>
    if name = "x" then some optionalUnit else none⟩

def unitPattern : Pattern :=
  .choice (.nonTerminal "x") (.optional (.group (.discard (.terminal "B" false))))

def unitPlan : Plan :=
  .choice [.call "x" true none, .optional (.token "B" .nothing) .keep]

theorem unitPlan_not_arity :
    units.demand [optionalUnit] = .ok (.optional optionalUnit .empty) ∧
      units.fit.plan unitPattern (.optional optionalUnit .empty) = .ok unitPlan ∧
      ¬∀ part, unitPlan.Contains part → ∀ (tokenType : String) (e : Emission), ∃ m e',
        (emit tokenType part).run e = .ok (m, e') ∧ m.outputs.length = part.arity := by
  have made : units.fit.plan unitPattern (.optional optionalUnit .empty) = .ok unitPlan := by
    cbv
  refine ⟨by cbv, made, fun each => ?_⟩
  have solid := (emit_arity_iff made).2.1.mp each
  have flag : unitPlan.Contains (.optional (.token "B" .nothing) .keep) :=
    .single (List.mem_cons_of_mem _ List.mem_cons_self)
  cases solid _ flag

end Code

end Pegsmith
