import Mathlib
import Pegsmith.Proofs.Code.Nesting
import Pegsmith.Proofs.Pattern.Reading
import Pegsmith.Proofs.Plan.Leaves

set_option autoImplicit false

namespace Pegsmith

namespace Plan

/-- A non-terminal that is called for its value has the name of an optional part that is taken apart
into several values. -/
def Captures (plan : Plan) : Prop :=
  ∃ i n, plan.spreads[i]? = some n ∧ 2 ≤ n ∧
    Code.Name.text ⟨"optional", i + 1⟩ ∈ plan.kept.map Code.snakeCase

mutual

theorem mem_leaves_of_mem_kept {name : String} :
    (plan : Plan) → name ∈ plan.kept → Pattern.Leaf.nonTerminal name ∈ plan.leaves
  | .token _ _, member => nomatch member
  | .call _ keep _, member => by
    cases keep with
    | false => cases member
    | true =>
      obtain rfl := List.mem_singleton.mp member
      exact List.mem_cons_self
  | .sequence parts, member | .concat parts, member | .choice parts, member =>
    mem_leavesEach_of_mem_keptEach parts member
  | .single inner, member | .present inner, member | .pack inner, member
  | .collect inner _, member | .loop inner _ _, member | .optional inner _, member =>
    mem_leaves_of_mem_kept inner member

theorem mem_leavesEach_of_mem_keptEach {name : String} :
    (ps : List Plan) → name ∈ keptEach ps → Pattern.Leaf.nonTerminal name ∈ leavesEach ps
  | [], member => nomatch member
  | p :: ps, member =>
    List.mem_append.mpr <| (List.mem_append.mp member).imp (mem_leaves_of_mem_kept p)
      (mem_leavesEach_of_mem_keptEach ps)

end

end Plan

theorem FitContext.leaves_plan {cx : FitContext} {p : Pattern} {demand : Demand} {plan : Plan}
    (made : cx.plan p demand = .ok plan) : plan.leaves = p.leaves := by
  obtain ⟨inner, fits, rfl⟩ := fits_of_plan made
  have same : (convert demand inner).outline.flat = (p.outline true).flat := by
    rw [Plan.outline_convert, fits.outline]
  exact Plan.leaves_of_outline same

namespace Code

theorem mem_spreadNames {base : Nat} {spreads : List Nat} {x : Name} :
    x ∈ spreadNames base spreads ↔ ∃ i n, spreads[i]? = some n ∧ x.number < n ∧
      x.kind = Name.text ⟨"optional", base + i + 1⟩ ++ "_" := by
  -- The part at an index of the tail has the number of the one behind it.
  induction spreads generalizing base with
  | nil => simp [spreadNames]
  | cons n spreads ih =>
    have here : x ∈ (List.range n).map (fun i => ⟨Name.text ⟨"optional", base + 1⟩ ++ "_", i⟩) ↔
        x.number < n ∧ x.kind = Name.text ⟨"optional", base + 1⟩ ++ "_" := by
      cases x
      simp [eq_comm, and_comm]
    rw [spreadNames, List.mem_append, here, ih]
    constructor
    · rintro (⟨less, kind⟩ | ⟨i, m, found, less, kind⟩)
      · exact ⟨0, n, rfl, less, kind⟩
      · exact ⟨i + 1, m, found, less, by rw [kind]; congr 3; omega⟩
    · rintro ⟨_ | i, m, found, less, kind⟩
      · obtain rfl : n = m := by simpa using found
        exact .inl ⟨less, kind⟩
      · exact .inr ⟨i, m, found, less, by rw [kind]; congr 3; omega⟩

theorem plain_of_mem_spreadNames {base : Nat} {spreads : List Nat} {x : Name}
    (member : x ∈ spreadNames base spreads) : x.IsPlain := by
  obtain ⟨i, n, found, less, kind⟩ := mem_spreadNames.mp member
  have plain := plain_of_part (plain_optional (base + i + 1)) x.number
  rwa [← kind] at plain

theorem spreadNames_nodup (base : Nat) (spreads : List Nat) :
    (spreadNames base spreads).Nodup := by
  induction spreads generalizing base with
  | nil => exact List.nodup_nil
  | cons n spreads ih =>
    refine List.nodup_append'.mpr ⟨?_, ih (base + 1), fun x here later => ?_⟩
    · exact List.nodup_range.map fun i j same => by simpa using same
    · obtain ⟨i, m, found, less, kind⟩ := mem_spreadNames.mp later
      obtain ⟨j, -, rfl⟩ := List.mem_map.mp here
      have texts : Name.text ⟨"optional", base + 1⟩ = Name.text ⟨"optional", base + 1 + i + 1⟩ := by
        simpa using kind
      have same := (Name.text_inj (plain_optional _) (plain_optional _)).mp texts
      simp at same
      omega

theorem Name.nodup_texts {names : List Name} (plain : ∀ x ∈ names, x.IsPlain) :
    (names.map Name.text).Nodup ↔ names.Nodup :=
  ⟨.of_map _, fun once => once.map_on fun x first y second same =>
    (text_inj (plain x first) (plain y second)).mp same⟩

namespace Declares

variable {plan : Plan} {drawn : List Name} {entries : List Entry} {counts : Counts}

theorem nodup_labels (declares : Declares 0 plan.spreads plan.kept drawn entries)
    (draws : Draws [] drawn counts) : (labels entries).Nodup := by
  obtain ⟨⟨vars, marks, -, labelled, -, marksDrawn, -⟩, plain, -, -⟩ := declares
  have plainMarks : ∀ x ∈ marks, x.IsPlain := fun x member => plain x (marksDrawn.subset member)
  rw [labelled.nodup_iff, Name.nodup_texts plainMarks]
  exact draws.nodup_of_subperm marksDrawn

theorem nodup_binders_iff (declares : Declares 0 plan.spreads plan.kept drawn entries)
    (draws : Draws [] drawn counts) : (binders entries).Nodup ↔ ¬plan.Captures := by
  obtain ⟨⟨vars, marks, bound, -, varsDrawn, -, called⟩, plain, -, calls⟩ := declares
  have plainNames : ∀ x ∈ vars ++ spreadNames 0 plan.spreads, x.IsPlain := by
    refine List.forall_mem_append.mpr ⟨fun x member => ?_, fun x => plain_of_mem_spreadNames⟩
    exact plain x (varsDrawn.subset member)
  have number (x : Name) : x ∈ drawn ↔ 0 < x.number ∧ x.number ≤ count counts x.kind :=
    draws.mem_iff x
  rw [bound.nodup_iff, Name.nodup_texts plainNames, List.nodup_append']
  constructor
  · rintro ⟨-, -, apart⟩ ⟨i, n, found, several, stem⟩
    -- The first name that is drawn for a non-terminal is a variable of an optional part too.
    obtain ⟨y, member, kind⟩ := (calls _).mpr stem
    have first : ⟨y.kind, 1⟩ ∈ drawn := by
      have range := (number y).mp member
      exact (number ⟨y.kind, 1⟩).mpr ⟨Nat.one_pos, Nat.lt_of_lt_of_le range.1 range.2⟩
    have shared : ⟨y.kind, 1⟩ ∈ spreadNames 0 plan.spreads :=
      mem_spreadNames.mpr ⟨i, n, found, several, by rw [kind, Nat.zero_add]⟩
    exact apart (called _ first _ kind) shared
  · intro free
    -- Numbers are drawn from one on, so a part that shares a drawn name has two values or more.
    refine ⟨draws.nodup_of_subperm varsDrawn, spreadNames_nodup 0 _, fun x var shared => free ?_⟩
    obtain ⟨i, n, found, less, kind⟩ := mem_spreadNames.mp shared
    have member := varsDrawn.subset var
    rw [Nat.zero_add] at kind
    exact ⟨i, n, found, Nat.lt_of_le_of_lt ((number x).mp member).1 less,
      (calls _).mp ⟨x, member, kind⟩⟩

end Declares

/-- The code of a plan, emitted from fresh: no two labels are the same, every output is an
expression over variables that are bound in a block that is still open, and every variable is bound
only once, unless a non-terminal has the name of an optional part that is taken apart. -/
theorem emit_binds_once {cx : FitContext} {p : Pattern} {demand : Demand} {plan : Plan}
    (made : cx.plan p demand = .ok plan)
    (named : ∀ name, .nonTerminal name ∈ p.leaves →
      ∀ c ∈ name.toList, Pattern.continuesName c = true)
    (tokenType : String) (w : Writer) :
    ∃ m added counts,
      (emit tokenType plan).run ⟨w, []⟩ =
          .ok (m, ⟨⟨added ++ w.lines, w.depth + m.guards.size⟩, counts⟩) ∧
        (labels (added.map Line.entry)).Nodup ∧
        (∀ output ∈ m.outputs,
          IsOver (InScope (w.depth + m.guards.size) (added.map Line.entry)) output) ∧
        ((binders (added.map Line.entry)).Nodup ↔ ¬plan.Captures) := by
  have keptNamed : AreNames plan.kept := fun name member =>
    named name (FitContext.leaves_plan made ▸ plan.mem_leaves_of_mem_kept member)
  obtain ⟨m, after, counts, drawn, added, draws, emits, ran⟩ :=
    emit_codes tokenType plan keptNamed w.depth []
  obtain rfl := emits.size
  exact ⟨m, added, counts, ran w.lines, emits.declares.nodup_labels draws, emits.outputs,
    emits.declares.nodup_binders_iff draws⟩

def capturing : Pattern :=
  .sequence (.nonTerminal "optional1")
    (.optional (.group (.sequence (.nonTerminal "a") (.nonTerminal "b"))))

def numbers : TypeContext :=
  ⟨Catalog.types {}, .named "TokenType", fun name =>
    if name = "optional1" ∨ name = "a" ∨ name = "b" then some (.named "u32") else none⟩

def threeNumbers : List HostType :=
  [.named "u32", .named "u32", .named "u32"]

def numberTriple : Demand :=
  .pair (.named (.named "u32")) (.pair (.named (.named "u32")) (.named (.named "u32")))

def capturingPlan : Plan :=
  .sequence [.sequence [.call "optional1" true none],
    .sequence [.optional
      (.sequence [.sequence [.call "a" true none], .sequence [.call "b" true none]]) .default]]

/-- The first output is meant for the value of the non-terminal and refers to that of `b`. -/
theorem capturingPlan_binds_twice :
    Pattern.parse "optional1 (a b)?" = .ok capturing ∧
      numbers.demand threeNumbers = .ok numberTriple ∧
      numbers.fit.plan capturing numberTriple = .ok capturingPlan ∧
      ∃ m e, (emit "TokenType" capturingPlan).run {} = .ok (m, e) ∧
        m.outputs = ["optional1_1", "optional1_0", "optional1_1"] ∧
        ¬(binders (e.writer.lines.map Line.entry)).Nodup := by
  have read : Pattern.parse "optional1 (a b)?" = .ok capturing := by cbv
  have made : numbers.fit.plan capturing numberTriple = .ok capturingPlan := by
    cbv
  obtain ⟨m, added, counts, ran, -, -, once⟩ :=
    emit_binds_once made (fun _ => Pattern.continuesName_of_parse read) "TokenType" {}
  have outputs : ((emit "TokenType" capturingPlan).run {}).map (fun r => r.1.outputs) =
      .ok ["optional1_1", "optional1_0", "optional1_1"] := by
    decide +kernel
  rw [ran] at outputs
  have captures : capturingPlan.Captures := by
    have kept : capturingPlan.kept.map snakeCase = ["optional1", "a", "b"] := by cbv
    have text : Name.text ⟨"optional", 1⟩ = "optional1" := by cbv
    exact ⟨0, 2, by cbv, Nat.le_refl 2, by simp [kept, text]⟩
  refine ⟨read, by cbv, made, m, _, ran, Except.ok.inj outputs, fun free => once.mp ?_ captures⟩
  simpa using free

end Code

end Pegsmith
