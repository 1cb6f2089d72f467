import Mathlib
import Pegsmith.Proofs.Plan.Outline

set_option autoImplicit false

namespace Pegsmith

namespace Plan

mutual

def leaves : Plan → List Pattern.Leaf
  | .token kind _ => [.terminal kind]
  | .call nonTerminal _ _ => [.nonTerminal nonTerminal]
  | .sequence parts | .concat parts | .choice parts => leavesEach parts
  | .single inner | .present inner | .pack inner | .collect inner _ | .loop inner _ _
  | .optional inner _ => inner.leaves

def leavesEach : List Plan → List Pattern.Leaf
  | [] => []
  | p :: ps => p.leaves ++ leavesEach ps

end

end Plan

namespace Outline

mutual

def leaves : Outline → List Pattern.Leaf
  | .token kind _ => [.terminal kind]
  | .call nonTerminal _ => [.nonTerminal nonTerminal]
  | .join _ parts => leavesEach parts
  | .loop body _ | .optional body => body.leaves

def leavesEach : List Outline → List Pattern.Leaf
  | [] => []
  | o :: os => o.leaves ++ leavesEach os

end

theorem leavesEach_append (os os' : List Outline) :
    leavesEach (os ++ os') = leavesEach os ++ leavesEach os' := by
  induction os with
  | nil => rfl
  | cons o os ih => rw [List.cons_append, leavesEach, ih, leavesEach, List.append_assoc]

theorem leavesEach_parts (how : Joint) (o : Outline) : leavesEach (o.parts how) = o.leaves := by
  cases o with
  | join kind os => by_cases same : kind = how <;> simp [parts, same, leavesEach, leaves]
  | token | call | loop | optional => simp [parts, leavesEach]

theorem leaves_gather (how : Joint) (os : List Outline) :
    (gather how os).leaves = leavesEach os := by
  match os with
  | [] | _ :: _ :: _ => rfl
  | [o] => simp [gather, leavesEach]

mutual

theorem leaves_flat : (o : Outline) → o.flat.leaves = o.leaves
  | .token _ _ | .call _ _ => rfl
  | .join how os => by rw [flat, leaves_gather, leaves_flatParts, leaves]
  | .loop body _ | .optional body => leaves_flat body

theorem leaves_flatParts (how : Joint) :
    (os : List Outline) → leavesEach (flatParts how os) = leavesEach os
  | [] => rfl
  | o :: os => by
    rw [flatParts, leavesEach_append, leavesEach_parts, leaves_flat, leaves_flatParts, leavesEach]

end

end Outline

theorem Pattern.leaves_outline (kept : Bool) (p : Pattern) :
    (p.outline kept).leaves = p.leaves := by
  induction p generalizing kept with
  | terminal | nonTerminal => rfl
  | sequence first second ihFirst ihSecond | choice first second ihFirst ihSecond =>
    simp [outline, leaves, Outline.leaves, Outline.leavesEach, ihFirst, ihSecond]
  | zeroOrMore inner ih | oneOrMore inner ih | optional inner ih | group inner ih => exact ih kept
  | discard inner ih => exact ih false

namespace Plan

mutual

theorem leaves_outline : (plan : Plan) → plan.outline.leaves = plan.leaves
  | .token _ _ | .call _ _ _ => rfl
  | .sequence parts | .concat parts | .choice parts => leaves_outlines parts
  | .single inner | .present inner | .pack inner | .collect inner _ | .loop inner _ _
  | .optional inner _ => leaves_outline inner

theorem leaves_outlines :
    (plans : List Plan) → Outline.leavesEach (outlines plans) = leavesEach plans
  | [] => rfl
  | p :: ps => by rw [outlines, Outline.leavesEach, leaves_outline, leaves_outlines, leavesEach]

end

end Plan

theorem Plan.leaves_of_outline {plan : Plan} {kept : Bool} {p : Pattern}
    (same : plan.outline.flat = (p.outline kept).flat) : plan.leaves = p.leaves := by
  rw [← leaves_outline, ← Outline.leaves_flat, same, Outline.leaves_flat, Pattern.leaves_outline]

end Pegsmith
