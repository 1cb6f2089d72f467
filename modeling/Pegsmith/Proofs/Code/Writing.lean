import Mathlib
import Pegsmith.Proofs.Code.Lines
import Pegsmith.Proofs.Code.Outputs

set_option autoImplicit false

namespace Pegsmith.Code

open Emit (Yields run_close run_release_eq)

namespace Emit

variable {α β : Type} {depth : Nat} {counts : Counts}
  {post : β → Nat → List Name → List Entry → Prop}

/-- An emitter that, begun at a depth and with such counts, does not fault, and ends with such a
result and depth, having drawn these names and added lines that declare this. -/
def Writes (depth : Nat) (counts : Counts) (body : Emit α)
    (post : α → Nat → List Name → List Entry → Prop) : Prop :=
  ∃ a after counts' drawn added, Draws counts drawn counts' ∧
    post a after drawn (added.map Line.entry) ∧
    ∀ lines, body.run ⟨⟨lines, depth⟩, counts⟩ = .ok (a, ⟨⟨added ++ lines, after⟩, counts'⟩)

namespace Writes

theorem pure {b : β} (holds : post b depth [] []) : Writes depth counts (pure b) post :=
  ⟨b, depth, counts, [], [], .nil, holds, fun _ => rfl⟩

theorem bind {body : Emit α} {next : α → Emit β} {mid : α → Nat → List Name → List Entry → Prop}
    (first : Writes depth counts body mid)
    (rest : ∀ a after counts' drawn entries, Draws counts drawn counts' →
      mid a after drawn entries → Writes after counts' (next a) fun b last more later =>
        post b last (drawn ++ more) (later ++ entries)) :
    Writes depth counts (body >>= next) post := by
  obtain ⟨a, after, counts', drawn, added, draws, reached, ran⟩ := first
  obtain ⟨b, last, counts'', more, later, drawsMore, holds, goesOn⟩ :=
    rest a after counts' drawn _ draws reached
  refine ⟨b, last, counts'', drawn ++ more, later ++ added, draws.append drawsMore, ?_,
    fun lines => ?_⟩
  · rw [List.map_append]
    exact holds
  · rw [StateT.run_bind, ran, List.append_assoc]
    exact goesOn _

theorem yields {body : Emit β} {q : β → Prop} (writes : Writes depth counts body post)
    (yields : Yields body q) :
    Writes depth counts body fun b after drawn entries => post b after drawn entries ∧ q b := by
  obtain ⟨b, after, counts', drawn, added, draws, holds, ran⟩ := writes
  exact ⟨b, after, counts', drawn, added, draws, ⟨holds, yields _ _ _ (ran [])⟩, ran⟩

theorem fresh {kind : String} {next : String → Emit β}
    (rest : Writes depth (draw counts kind) (next (Name.text ⟨kind, count counts kind + 1⟩))
      fun b after drawn entries => post b after (⟨kind, count counts kind + 1⟩ :: drawn) entries) :
    Writes depth counts (Emit.fresh kind >>= next) post := by
  obtain ⟨b, after, counts', drawn, added, draws, holds, ran⟩ := rest
  exact ⟨b, after, counts', _, added, .cons draws, holds, ran⟩

theorem line {text : String} {next : Unit → Emit β} {d : Declaration}
    (declares : Line.declares ⟨depth, text⟩ = d)
    (rest : Writes depth counts (next ()) fun b after drawn entries =>
      post b after drawn (entries ++ [⟨depth, d⟩])) :
    Writes depth counts (Emit.line text >>= next) post := by
  obtain ⟨b, after, counts', drawn, added, draws, holds, ran⟩ := rest
  refine ⟨b, after, counts', drawn, added ++ [⟨depth, text⟩], draws, ?_, fun lines => ?_⟩
  · simpa [Line.entry, declares] using holds
  · rw [List.append_assoc]
    exact ran _

theorem openBlock {header : String} {next : Block → Emit β} {d : Declaration}
    (declares : Line.declares ⟨depth, Writer.openLine header⟩ = d)
    (rest : Writes (depth + 1) counts (next ⟨depth + 1⟩) fun b after drawn entries =>
      post b after drawn (entries ++ [⟨depth, d⟩])) :
    Writes depth counts (Emit.openBlock header >>= next) post := by
  obtain ⟨b, after, counts', drawn, added, draws, holds, ran⟩ := rest
  refine ⟨b, after, counts', drawn, added ++ [⟨depth, Writer.openLine header⟩], draws, ?_,
    fun lines => ?_⟩
  · simpa [Line.entry, declares] using holds
  · rw [List.append_assoc]
    exact ran _

theorem declares_closeLine (indent : Nat) :
    Line.declares ⟨indent, Writer.closeLine⟩ = .nothing := by
  simp [Line.declares, Text.after?, Writer.closeLine]

theorem close {next : Unit → Emit β}
    (rest : Writes depth counts (next ()) fun b after drawn entries =>
      post b after drawn (entries ++ [⟨depth, .nothing⟩])) :
    Writes (depth + 1) counts (Emit.close ⟨depth + 1⟩ >>= next) post := by
  obtain ⟨b, after, counts', drawn, added, draws, holds, ran⟩ := rest
  refine ⟨b, after, counts', drawn, added ++ [⟨depth, Writer.closeLine⟩], draws, ?_,
    fun lines => ?_⟩
  · simpa [Line.entry, declares_closeLine] using holds
  · have closes := Writer.close_top ⟨lines, depth + 1⟩
    rw [StateT.run_bind, run_close, closes, List.append_assoc]
    exact ran _

theorem mem_closings {n : Nat} {l : Line} (member : l ∈ closings depth n) :
    depth ≤ l.indent ∧ l.declares = .nothing := by
  induction n with
  | zero => cases member
  | succ n ih =>
    rcases List.mem_append.mp member with outer | last
    · exact ih outer
    · obtain rfl := List.mem_singleton.mp last
      exact ⟨Nat.le_add_right _ _, declares_closeLine _⟩

theorem release {g : Guards} {next : Unit → Emit β}
    (stacked : g.blocks = blocksAbove depth g.size)
    (rest : ∀ closing, Quiet depth closing →
      Writes depth counts (next ()) fun b after drawn entries =>
        post b after drawn (entries ++ closing)) :
    Writes (depth + g.size) counts (Emit.release g >>= next) post := by
  have quiet : Quiet depth ((closings depth g.size).map Line.entry) :=
    List.forall_mem_map.mpr fun l member => mem_closings member
  obtain ⟨b, after, counts', drawn, added, draws, holds, ran⟩ := rest _ quiet
  refine ⟨b, after, counts', drawn, added ++ closings depth g.size, draws, ?_, fun lines => ?_⟩
  · rw [List.map_append]
    exact holds
  · rw [StateT.run_bind, run_release_eq stacked, List.append_assoc]
    exact ran _

theorem forM_list {γ : Type} {xs : List γ} {text : γ → String} {next : Unit → Emit β}
    (quiet : ∀ x ∈ xs, Line.declares ⟨depth, text x⟩ = .nothing)
    (rest : ∀ lines, Quiet depth lines → Writes depth counts (next ()) fun b after drawn entries =>
      post b after drawn (entries ++ lines)) :
    Writes depth counts ((xs.forM fun x => Emit.line (text x)) >>= next) post := by
  induction xs generalizing post with
  | nil => simpa using rest [] (quiet_nil depth)
  | cons x xs ih =>
    -- Lines are listed latest first, so the first one ends up behind the others.
    have step : ((x :: xs).forM fun x => Emit.line (text x)) =
        Emit.line (text x) >>= fun _ => xs.forM fun x => Emit.line (text x) := rfl
    rw [step, bind_assoc]
    refine .line (quiet x List.mem_cons_self) (ih (fun y member => quiet y (.tail x member)) ?_)
    intro lines others
    have all : Quiet depth (lines ++ [⟨depth, .nothing⟩]) :=
      quiet_append.mpr ⟨others, by simp [quiet_cons]⟩
    simpa using rest _ all

theorem forM_option {x? : Option Name} {text : String → String} {next : Unit → Emit β}
    (declares : ∀ x ∈ x?, Line.declares ⟨depth, text x.text⟩ = .variables [x.text] depth)
    (rest : Writes depth counts (next ()) fun b after drawn entries =>
      post b after drawn (entries ++ bindings depth x?.toList)) :
    Writes depth counts (((x?.map Name.text).forM fun x => Emit.line (text x)) >>= next) post := by
  cases x? with
  | none => simpa [bindings] using rest
  | some x => exact .line (declares x rfl) rest

theorem forM_quiet {x? : Option Name} {text : String → String} {next : Unit → Emit β}
    (quiet : ∀ x ∈ x?, Line.declares ⟨depth, text x.text⟩ = .nothing)
    (rest : ∀ lines, Quiet depth lines → Writes depth counts (next ()) fun b after drawn entries =>
      post b after drawn (entries ++ lines)) :
    Writes depth counts (((x?.map Name.text).forM fun x => Emit.line (text x)) >>= next) post := by
  cases x? with
  | none => simpa using rest [] (quiet_nil depth)
  | some x => exact .line (quiet x rfl) (rest _ (by simp [quiet_cons]))

theorem bindIf {wanted : Bool} {text : String} {x : Name} {next : Unit → Emit β}
    (declares : Line.declares ⟨depth, text⟩ = .variables [x.text] depth)
    (rest : Writes depth counts (next ()) fun b after drawn entries =>
      post b after drawn (entries ++ bindings depth (if wanted then [x] else []))) :
    Writes depth counts (lineIf wanted text >>= next) post := by
  cases wanted with
  | false =>
    have skip : lineIf false text >>= next = next () := rfl
    simpa [skip, bindings] using rest
  | true => exact .line declares rest

theorem quietIf {wanted : Bool} {text : String} {next : Unit → Emit β}
    (quiet : Line.declares ⟨depth, text⟩ = .nothing)
    (rest : ∀ lines, Quiet depth lines → Writes depth counts (next ()) fun b after drawn entries =>
      post b after drawn (entries ++ lines)) :
    Writes depth counts (lineIf wanted text >>= next) post := by
  cases wanted with
  | false =>
    have skip : lineIf false text >>= next = next () := rfl
    simpa [skip] using rest [] (quiet_nil depth)
  | true => exact .line quiet (rest _ (by simp [quiet_cons]))

theorem freshIf {used : Bool} {kind : String} {next : Option String → Emit β}
    (rest : ∀ (x? : Option Name) (counts' : Counts), Draws counts x?.toList counts' →
      (∀ x ∈ x?, x.kind = kind) → Writes depth counts' (next (x?.map Name.text))
        fun b after drawn entries => post b after (x?.toList ++ drawn) entries) :
    Writes depth counts (Code.freshIf used kind >>= next) post := by
  cases used with
  | false => exact rest none counts .nil (by simp)
  | true =>
    rw [Code.freshIf, if_pos rfl, map_eq_pure_bind, bind_assoc]
    exact .fresh (rest (some ⟨kind, count counts kind + 1⟩) _ (.cons .nil) (by simp))

theorem freshEach {kind : String} {n : Nat} {next : List String → Emit β}
    (rest : ∀ (xs : List Name) (counts' : Counts), Draws counts xs counts' →
      (∀ x ∈ xs, x.kind = kind) → Writes depth counts' (next (xs.map Name.text))
        fun b after drawn entries => post b after (xs ++ drawn) entries) :
    Writes depth counts (Code.freshEach kind n >>= next) post := by
  induction n generalizing counts next post with
  | zero => exact rest [] counts .nil (by simp)
  | succ n ih =>
    rw [Code.freshEach, bind_assoc]
    refine .fresh ?_
    rw [bind_assoc]
    refine ih fun xs counts' draws kinds => ?_
    rw [pure_bind]
    exact rest (_ :: xs) counts' (.cons draws) (List.forall_mem_cons.mpr ⟨rfl, kinds⟩)

end Writes

end Emit

end Pegsmith.Code
