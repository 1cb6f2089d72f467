import Mathlib
import Pegsmith.Code.Session

/-!
Blocks by the order of their opening. A session knows a block by the depth of its inside alone. In
the ledger of a session every block has the number of its opening, wherever it is kept, and closes
only if it is the latest one that has not been closed. Depths tell as much as these numbers do.
-/

set_option autoImplicit false

namespace Pegsmith.Code

theorem Writer.closeAll_fault {w w' : Writer} {bs : List Block} {fault : Fault}
    (stopped : w.closeAll bs = (w', some fault)) :
    ∃ before b after, bs = before ++ b :: after ∧ w.closeAll before = (w', none) ∧
      w'.close b = .error fault := by
  induction bs generalizing w with
  | nil => cases stopped
  | cons b bs ih =>
    rw [closeAll] at stopped
    cases closes : w.close b with
    | error fault' =>
      rw [closes] at stopped
      cases stopped
      exact ⟨[], b, bs, rfl, rfl, closes⟩
    | ok next =>
      rw [closes] at stopped
      obtain ⟨before, b', after, rfl, went, failed⟩ := ih stopped
      exact ⟨b :: before, b', after, rfl, by rw [closeAll, closes]; exact went, failed⟩

/-- What has been opened and closed in a session, and which blocks are kept where. -/
structure Ledger where
  opened : Nat := 0
  closed : List Nat := []
  blocks : List (String × Nat) := []
  guards : List (String × List Nat) := []

namespace Ledger

def IsOpen (l : Ledger) (n : Nat) : Prop :=
  n < l.opened ∧ n ∉ l.closed

def IsInnermost (l : Ledger) (n : Nat) : Prop :=
  l.IsOpen n ∧ ∀ m < l.opened, m ∉ l.closed → m ≤ n

instance (l : Ledger) (n : Nat) : Decidable (l.IsOpen n) :=
  inferInstanceAs (Decidable (_ ∧ _))

instance (l : Ledger) (n : Nat) : Decidable (l.IsInnermost n) :=
  inferInstanceAs (Decidable (_ ∧ _))

def closing (l : Ledger) (n : Nat) : Ledger :=
  { l with closed := n :: l.closed }

/-- Closes blocks in turn up to one that is not the innermost then, and says whether all closed. -/
def closeAll (l : Ledger) : List Nat → Ledger × Bool
  | [] => (l, true)
  | n :: ns => if l.IsInnermost n then (l.closing n).closeAll ns else (l, false)

def dropBlock (l : Ledger) (name : String) : Ledger :=
  { l with blocks := l.blocks.filter (·.1 != name) }

def guardsOf (l : Ledger) (name : String) : List Nat :=
  (l.guards.lookup name).getD []

def dropGuards (l : Ledger) (name : String) : Ledger :=
  { l with guards := l.guards.filter (·.1 != name) }

def keepGuards (l : Ledger) (name : String) (ns : List Nat) : Ledger :=
  { l with guards := (name, ns) :: l.guards.filter (·.1 != name) }

def step (l : Ledger) : Step → Ledger
  | .line _ | .blank | .count _ | .text | .finish => l
  | .openBlock name _ =>
      { l with
        opened := l.opened + 1
        blocks := (name, l.opened) :: l.blocks.filter (·.1 != name) }
  | .close name =>
      match l.blocks.lookup name with
      | none => l
      | some n => ((l.dropBlock name).closeAll [n]).1
  | .push guards name =>
      match l.blocks.lookup name with
      | none => l
      | some n => (l.dropBlock name).keepGuards guards (n :: l.guardsOf guards)
  | .append guards inner =>
      let top := l.guardsOf inner
      let l := l.dropGuards inner
      l.keepGuards guards (top ++ l.guardsOf guards)
  | .release guards => ((l.dropGuards guards).closeAll (l.guardsOf guards)).1

def held (l : Ledger) : List Nat :=
  l.blocks.flatMap (fun e => [e.2]) ++ l.guards.flatMap (fun e => e.2)

def depth (l : Ledger) : Nat :=
  Nat.count (· ∉ l.closed) l.opened

/-- What can be seen of a block: how many blocks opened no later than it are open. -/
def block (l : Ledger) (n : Nat) : Block :=
  ⟨Nat.count (· ∉ l.closed) (n + 1)⟩

def pile (l : Ledger) (ns : List Nat) : Guards :=
  ⟨ns.map l.block⟩

/-- The ledger behind a session, each block of which is seen by its depth, while a step has some
blocks in hand. -/
structure Shows (l : Ledger) (hand : List Nat) (s : Session) : Prop where
  past : ∀ n ∈ l.closed, n < l.opened
  isOpen : ∀ n ∈ hand ++ l.held, l.IsOpen n
  nodup : (hand ++ l.held).Nodup
  depth : s.writer.depth = l.depth
  blocks : s.blocks = l.blocks.map fun e => (e.1, l.block e.2)
  guards : s.guards = l.guards.map fun e => (e.1, l.pile e.2)

variable {l : Ledger} {s : Session} {w : Writer} {n m : Nat} {ns hand rest : List Nat}
  {name guards : String}

theorem isInnermost_iff : l.IsInnermost n ↔ l.IsOpen n ∧ (l.block n).depth = l.depth := by
  refine and_congr_right fun isOpen => ⟨fun last => ?_, fun same m before unclosed => ?_⟩
  · -- Nothing unclosed follows on the innermost block, so nothing is counted behind it.
    obtain ⟨k, sum⟩ := Nat.exists_eq_add_of_le isOpen.1
    have none : Nat.count (fun i => n + 1 + i ∉ l.closed) k = 0 := by
      refine Nat.count_iff_forall_not.mpr fun i less unclosed => ?_
      have := last (n + 1 + i) (by omega) unclosed
      omega
    rw [depth, sum, Nat.count_add, none]
    rfl
  · by_contra later
    have more : Nat.count (· ∉ l.closed) (n + 1) ≤ Nat.count (· ∉ l.closed) m :=
      Nat.count_monotone _ (by omega)
    have most : Nat.count (· ∉ l.closed) m < Nat.count (· ∉ l.closed) l.opened :=
      Nat.count_strict_mono unclosed before
    exact absurd same (Nat.ne_of_lt (more.trans_lt most))

theorem depth_closing (isOpen : l.IsOpen n) : (l.closing n).depth = l.depth - 1 := by
  have member : n ∈ {m ∈ Finset.range l.opened | m ∉ l.closed} := by
    simpa using And.intro isOpen.1 isOpen.2
  rw [depth, depth, Nat.count_eq_card_filter_range, Nat.count_eq_card_filter_range,
    ← Finset.card_erase_of_mem member]
  congr 1
  ext m
  simp only [closing, Finset.mem_filter, Finset.mem_erase, List.mem_cons, not_or]
  tauto

theorem block_closing (before : m < n) : (l.closing n).block m = l.block m := by
  rw [block, block, Nat.count_eq_card_filter_range, Nat.count_eq_card_filter_range]
  congr 2
  refine Finset.filter_congr fun k inside => ?_
  have other : k ≠ n := by
    have := Finset.mem_range.mp inside
    omega
  simp [closing, other]

theorem IsOpen.closing (isOpen : l.IsOpen m) (other : m ≠ n) : (l.closing n).IsOpen m :=
  ⟨isOpen.1, by simpa [Ledger.closing, other] using isOpen.2⟩

theorem lt_of_isInnermost (last : l.IsInnermost n) (isOpen : l.IsOpen m) (other : m ≠ n) : m < n :=
  Nat.lt_of_le_of_ne (last.2 m isOpen.1 isOpen.2) other

theorem close_block (depth : w.depth = l.depth) (isOpen : l.IsOpen n) :
    (l.IsInnermost n ∧ ∃ w', w.close (l.block n) = .ok w' ∧ w'.depth = (l.closing n).depth) ∨
      (¬l.IsInnermost n ∧ w.close (l.block n) = .error .blockOrder) := by
  by_cases last : l.IsInnermost n
  · have same := (isInnermost_iff.mp last).2.trans depth.symm
    refine .inl ⟨last, _, if_pos same, ?_⟩
    rw [depth_closing isOpen, ← depth]
    rfl
  · have apart : (l.block n).depth ≠ w.depth := fun same =>
      last (isInnermost_iff.mpr ⟨isOpen, same.trans depth⟩)
    exact .inr ⟨last, if_neg apart⟩

theorem closeAll_eq (l : Ledger) (ns : List Nat) :
    ∃ more, (l.closeAll ns).1 = { l with closed := more ++ l.closed } ∧
      ∀ n ∈ more, n < l.opened := by
  induction ns generalizing l with
  | nil => exact ⟨[], rfl, by simp⟩
  | cons n ns ih =>
    rw [closeAll]
    split
    · next last =>
      obtain ⟨more, same, before⟩ := ih (l.closing n)
      refine ⟨more ++ [n], by rw [same, closing, List.append_assoc]; rfl, ?_⟩
      simpa using fun m => Or.rec (before m) fun same => same ▸ last.1.1
    · exact ⟨[], rfl, by simp⟩

theorem closeAll_single_iff : (l.closeAll [n]).2 = true ↔ l.IsInnermost n := by
  rw [closeAll]
  split <;> simp_all [closeAll]

theorem closeAll_block (depth : w.depth = l.depth) (nodup : (ns ++ rest).Nodup)
    (isOpen : ∀ n ∈ ns ++ rest, l.IsOpen n) :
    ((w.closeAll (ns.map l.block)).2 = none ↔ (l.closeAll ns).2 = true) ∧
      (w.closeAll (ns.map l.block)).1.depth = (l.closeAll ns).1.depth ∧
      ∀ m ∈ rest, (l.closeAll ns).1.IsOpen m ∧ (l.closeAll ns).1.block m = l.block m := by
  induction ns generalizing l w with
  | nil =>
    exact ⟨by simp [Writer.closeAll, closeAll], depth, fun m member => ⟨isOpen m member, rfl⟩⟩
  | cons n ns ih =>
    rw [List.cons_append, List.nodup_cons] at nodup
    rw [List.map_cons, Writer.closeAll, closeAll]
    rcases close_block depth (isOpen n List.mem_cons_self) with
      ⟨last, w', closes, less⟩ | ⟨inner, stays⟩
    · -- The others were opened before the innermost, so their depths stay as they are.
      have others (m : Nat) (member : m ∈ ns ++ rest) :
          (l.closing n).IsOpen m ∧ (l.closing n).block m = l.block m := by
        have other : m ≠ n := fun same => nodup.1 (same ▸ member)
        have openBefore := isOpen m (List.mem_cons_of_mem n member)
        exact ⟨openBefore.closing other, block_closing (lt_of_isInnermost last openBefore other)⟩
      have seen : ns.map l.block = ns.map (l.closing n).block :=
        List.map_congr_left fun m member => (others m (List.mem_append_left rest member)).2.symm
      obtain ⟨all, after, stay⟩ := ih less nodup.2 fun m member => (others m member).1
      rw [closes, if_pos last, seen]
      refine ⟨all, after, fun m member => ⟨(stay m member).1, ?_⟩⟩
      rw [(stay m member).2, (others m (List.mem_append_right ns member)).2]
    · rw [stays, if_neg inner]
      exact ⟨by simp, depth, fun m member => ⟨isOpen m (by simp [member]), rfl⟩⟩

theorem count_found_le {β : Type} (entries : List (String × β)) (numbers : β → List Nat)
    (name : String) (n : Nat) :
    ((entries.lookup name).elim [] numbers).count n +
        ((entries.filter (·.1 != name)).flatMap fun e => numbers e.2).count n ≤
      (entries.flatMap fun e => numbers e.2).count n := by
  induction entries with
  | nil => exact Nat.le_refl _
  | cons entry entries ih =>
    obtain ⟨key, value⟩ := entry
    rw [List.flatMap_cons, List.count_append]
    by_cases same : key = name
    · have kept : (entries.filter (·.1 != name)).Sublist entries := List.filter_sublist
      have fewer := (kept.flatMap fun e => numbers e.2).count_le n
      simpa [same] using fewer
    · have other : (name == key) = false := by simpa using fun again : name = key => same again.symm
      rw [List.lookup_cons, other, List.filter_cons_of_pos (by simpa using same), List.flatMap_cons,
        List.count_append]
      dsimp only at ih ⊢
      omega

theorem lookup_map {β γ : Type} (f : β → γ) (entries : List (String × β)) (name : String) :
    (entries.map fun e => (e.1, f e.2)).lookup name = (entries.lookup name).map f := by
  induction entries with
  | nil => rfl
  | cons entry entries ih =>
    rw [List.map_cons, List.lookup_cons, List.lookup_cons, ih]
    cases name == entry.1 <;> rfl

theorem filter_map {β γ : Type} (f : β → γ) (entries : List (String × β)) (name : String) :
    (entries.map fun e => (e.1, f e.2)).filter (·.1 != name) =
      (entries.filter (·.1 != name)).map fun e => (e.1, f e.2) := by
  rw [List.filter_map]
  rfl

namespace Shows

theorem move (shows : l.Shows hand s) (hand' : List Nat) (bs : List (String × Nat))
    (gs : List (String × List Nat))
    (fewer : ∀ n, (hand' ++ { l with blocks := bs, guards := gs : Ledger }.held).count n ≤
      (hand ++ l.held).count n) :
    { l with blocks := bs, guards := gs : Ledger }.Shows hand'
      { s with
        blocks := bs.map fun e => (e.1, l.block e.2)
        guards := gs.map fun e => (e.1, l.pile e.2) } where
  past := shows.past
  isOpen n member := by
    have some := List.count_pos_iff.mpr member
    exact shows.isOpen n (List.count_pos_iff.mp (some.trans_le (fewer n)))
  nodup := List.nodup_iff_count_le_one.mpr fun n =>
    (fewer n).trans (List.nodup_iff_count_le_one.mp shows.nodup n)
  depth := shows.depth
  blocks := rfl
  guards := rfl

theorem takeBlock (shows : l.Shows [] s) (name : String) :
    (l.blocks.lookup name = none ∧ s.takeBlock name = none) ∨
      ∃ n s', l.blocks.lookup name = some n ∧ s.takeBlock name = some (l.block n, s') ∧
        (l.dropBlock name).Shows [n] s' ∧ s'.writer = s.writer := by
  have seen : s.blocks.lookup name = (l.blocks.lookup name).map l.block := by
    rw [shows.blocks, lookup_map]
  rw [Session.takeBlock, seen]
  cases found : l.blocks.lookup name with
  | none => exact .inl ⟨rfl, rfl⟩
  | some n =>
    refine .inr ⟨n, _, rfl, rfl, ?_, rfl⟩
    have taken := shows.move [n] (l.blocks.filter (·.1 != name)) l.guards fun m => by
      have found := found ▸ count_found_le l.blocks (fun n => [n]) name m
      simp only [held, List.count_append, Option.elim_some] at found ⊢
      omega
    rwa [← filter_map, ← shows.blocks, ← shows.guards] at taken

theorem guardsOf (shows : l.Shows hand s) (guards : String) :
    s.guardsOf guards = l.pile (l.guardsOf guards) := by
  rw [Session.guardsOf, Ledger.guardsOf, shows.guards, lookup_map]
  cases l.guards.lookup guards <;> rfl

theorem dropGuards (shows : l.Shows hand s) (guards : String) :
    (l.dropGuards guards).Shows (l.guardsOf guards ++ hand) (s.dropGuards guards) := by
  have dropped := shows.move (l.guardsOf guards ++ hand) l.blocks
    (l.guards.filter (·.1 != guards)) fun m => by
      have found := count_found_le l.guards (fun ns => ns) guards m
      have taken : (l.guards.lookup guards).elim [] (fun ns => ns) = l.guardsOf guards := by
        rw [Ledger.guardsOf]
        cases l.guards.lookup guards <;> rfl
      rw [taken] at found
      simp only [held, List.count_append] at found ⊢
      omega
  rwa [← filter_map, ← shows.blocks, ← shows.guards] at dropped

theorem keepGuards (shows : l.Shows hand s) (guards : String) (ns : List Nat)
    (kept : ∀ n, ns.count n ≤ (l.guardsOf guards ++ hand).count n) :
    (l.keepGuards guards ns).Shows [] (s.keepGuards guards (l.pile ns)) := by
  have dropped := shows.dropGuards guards
  have put := dropped.move [] (l.dropGuards guards).blocks
    ((guards, ns) :: (l.dropGuards guards).guards) fun m => by
      have := kept m
      simp only [held, List.count_append, List.flatMap_cons, List.count_nil] at this ⊢
      omega
  rw [List.map_cons, ← dropped.guards, ← dropped.blocks] at put
  exact put

theorem opening (shows : l.Shows [] s) (header : String) :
    { l with opened := l.opened + 1 : Ledger }.Shows [l.opened]
      { s with writer := (s.writer.openBlock header).2 } where
  past n member := Nat.lt_succ_of_lt (shows.past n member)
  isOpen n member := by
    rcases List.mem_cons.mp member with rfl | old
    · exact ⟨Nat.lt_succ_self _, fun closed => Nat.lt_irrefl _ (shows.past _ closed)⟩
    · have isOpen := shows.isOpen n old
      exact ⟨Nat.lt_succ_of_lt isOpen.1, isOpen.2⟩
  nodup := List.nodup_cons.mpr
    ⟨fun old => Nat.lt_irrefl _ (shows.isOpen l.opened old).1, shows.nodup⟩
  depth := by
    have unclosed : l.opened ∉ l.closed := fun closed => Nat.lt_irrefl _ (shows.past _ closed)
    rw [Ledger.depth, Nat.count_succ, if_pos unclosed]
    exact congrArg (· + 1) shows.depth
  blocks := shows.blocks
  guards := shows.guards

theorem keepBlock (shows : l.Shows [n] s) (name : String) :
    { l with blocks := (name, n) :: l.blocks.filter (·.1 != name) : Ledger }.Shows []
      { s with blocks := (name, l.block n) :: s.blocks.filter (·.1 != name) } := by
  have kept := shows.move [] ((name, n) :: l.blocks.filter (·.1 != name)) l.guards
    fun m => by
      have := count_found_le l.blocks (fun n => [n]) name m
      simp only [held, List.count_append, List.flatMap_cons, List.count_nil] at this ⊢
      omega
  rwa [List.map_cons, ← filter_map, ← shows.blocks, ← shows.guards] at kept

theorem closeAll (shows : l.Shows ns s) :
    (l.closeAll ns).1.Shows [] { s with writer := (s.writer.closeAll (ns.map l.block)).1 } := by
  obtain ⟨-, depth, stay⟩ := closeAll_block shows.depth shows.nodup shows.isOpen
  obtain ⟨more, same, before⟩ := l.closeAll_eq ns
  rw [same] at depth stay ⊢
  refine ⟨?_, fun n member => (stay n member).1, shows.nodup.of_append_right, depth, ?_, ?_⟩
  · simpa [or_imp, forall_and] using And.intro before shows.past
  · rw [shows.blocks]
    refine List.map_congr_left fun e member => ?_
    have listed : e.2 ∈ l.held := List.mem_append_left _ (List.mem_flatMap.mpr ⟨e, member, by simp⟩)
    rw [(stay e.2 listed).2]
  · rw [shows.guards]
    refine List.map_congr_left fun e member => ?_
    have same : e.2.map l.block = e.2.map _ := List.map_congr_left fun n inside =>
      (stay n (List.mem_append_right _ (List.mem_flatMap.mpr ⟨e, member, inside⟩))).2.symm
    rw [pile, pile, same]

end Shows

theorem answer_done_iff {fault? : Option Fault} :
    (fault?.map Answer.fault).getD .done = .done ↔ fault? = none := by
  cases fault? <;> simp

theorem answer_fault_iff {fault? : Option Fault} {fault : Fault} :
    (fault?.map Answer.fault).getD .done = .fault fault ↔ fault? = some fault := by
  cases fault? <;> simp

theorem step_close (s : Session) (name : String) :
    s.step (.close name) =
      match s.takeBlock name with
      | none => (.noBlock, s)
      | some (b, s) =>
          ((((s.writer.closeAll [b]).2.map Answer.fault).getD .done),
            { s with writer := (s.writer.closeAll [b]).1 }) := by
  rw [Session.step]
  cases s.takeBlock name with
  | none => rfl
  | some found =>
    obtain ⟨b, s⟩ := found
    dsimp only
    rw [Writer.closeAll]
    cases s.writer.close b <;> rfl

theorem Shows.step {st : Step} (shows : l.Shows [] s) (goesOn : st ≠ .finish) :
    (l.step st).Shows [] (s.step st).2 := by
  cases st with
  | line text | blank => exact { shows with }
  | count guards | text => exact shows
  | finish => exact absurd rfl goesOn
  | openBlock name header =>
    have opened := shows.opening header
    have inside : { l with opened := l.opened + 1 : Ledger }.block l.opened =
        (s.writer.openBlock header).1 :=
      congrArg Block.mk opened.depth.symm
    have kept := opened.keepBlock name
    rwa [inside] at kept
  | close name =>
    rw [step_close, Ledger.step]
    rcases shows.takeBlock name with ⟨none, none'⟩ | ⟨n, s', found, found', taken, -⟩
    · rw [none, none']
      exact shows
    · rw [found, found']
      exact taken.closeAll
  | push guards name =>
    rw [Session.step, Ledger.step]
    rcases shows.takeBlock name with ⟨none, none'⟩ | ⟨n, s', found, found', taken, -⟩
    · rw [none, none']
      exact shows
    · rw [found, found']
      dsimp only
      rw [taken.guardsOf guards]
      -- The block is kept under no name any more, and stands first in the collection.
      refine taken.keepGuards guards (n :: l.guardsOf guards) fun m => ?_
      rw [List.count_append, List.count_cons, List.count_singleton]
      rfl
  | append guards inner =>
    have dropped := shows.dropGuards inner
    rw [Session.step, Ledger.step]
    dsimp only
    rw [shows.guardsOf inner, dropped.guardsOf guards]
    have appended : ((l.dropGuards inner).pile ((l.dropGuards inner).guardsOf guards)).append
        (l.pile (l.guardsOf inner)) =
          (l.dropGuards inner).pile (l.guardsOf inner ++ (l.dropGuards inner).guardsOf guards) :=
      congrArg Guards.mk List.map_append.symm
    rw [appended]
    -- Each block of either collection is in the one that is kept, and in no other.
    refine dropped.keepGuards guards _ fun m => ?_
    simp only [List.count_append, List.count_nil]
    omega
  | release guards =>
    rw [Session.step, Ledger.step]
    dsimp only
    rw [shows.guardsOf guards]
    have dropped := shows.dropGuards guards
    rw [List.append_nil] at dropped
    exact dropped.closeAll

end Ledger

namespace Session

def run (steps : List Step) : Session :=
  steps.foldl (fun s st => (s.step st).2) {}

def depths (s : Session) : List Nat :=
  s.blocks.map (fun e => e.2.depth) ++ s.guards.flatMap fun e => e.2.blocks.map (·.depth)

/-- What the depths in a session tell about the openings in its ledger. -/
structure Tells (s : Session) (l : Ledger) : Prop where
  closes : ∀ name, (s.step (.close name)).1 = .done ↔
    ∃ n, l.blocks.lookup name = some n ∧ l.IsInnermost n
  unchanged : ∀ name fault, (s.step (.close name)).1 = .fault fault →
    (s.step (.close name)).2.writer = s.writer
  releases : ∀ guards, (s.step (.release guards)).1 = .done ↔
    ((l.dropGuards guards).closeAll (l.guardsOf guards)).2 = true
  guarded : ∀ guards, (s.guardsOf guards).blocks = (l.guardsOf guards).map l.block
  inTurn : ∀ guards before n after, l.guardsOf guards = before ++ n :: after →
    ((l.dropGuards guards).closeAll before).2 = true →
    ∃ w, s.writer.closeAll (before.map l.block) = (w, none) ∧
      ((∃ w', w.close (l.block n) = .ok w') ↔
        ((l.dropGuards guards).closeAll before).1.IsInnermost n)
  interrupted : ∀ guards fault, (s.step (.release guards)).1 = .fault fault →
    ∃ before b after, (s.guardsOf guards).blocks = before ++ b :: after ∧
      s.writer.closeAll before = ((s.step (.release guards)).2.writer, none) ∧
      (s.step (.release guards)).2.writer.close b = .error fault
  apart : s.depths.Nodup
  bounded : ∀ d ∈ s.depths, 1 ≤ d ∧ d ≤ s.writer.depth
  finishes : (∃ text, s.writer.finish = .ok text) ↔ ∀ n < l.opened, n ∈ l.closed

end Session

namespace Ledger

variable {l : Ledger} {s : Session}

def run (steps : List Step) : Ledger :=
  steps.foldl step {}

theorem shows_run {steps : List Step} (goesOn : ∀ st ∈ steps, st ≠ .finish) :
    (run steps).Shows [] (Session.run steps) := by
  induction steps using List.reverseRecOn with
  | nil => exact ⟨by simp [run], by simp [run, held], by simp [run, held], rfl, rfl, rfl⟩
  | append_singleton steps st ih =>
    rw [run, Session.run, List.foldl_append, List.foldl_append]
    exact (ih fun st member => goesOn st (List.mem_append_left _ member)).step
      (goesOn st (by simp))

namespace Shows

theorem depths_eq (shows : l.Shows [] s) : s.depths = l.held.map fun n => (l.block n).depth := by
  rw [Session.depths, shows.blocks, shows.guards, held]
  simp [List.map_flatMap, List.flatMap_map, pile, Function.comp_def, ← List.map_eq_flatMap]

theorem closes_iff (shows : l.Shows [] s) (name : String) :
    (s.step (.close name)).1 = .done ↔ ∃ n, l.blocks.lookup name = some n ∧ l.IsInnermost n := by
  rw [step_close]
  rcases shows.takeBlock name with ⟨none, none'⟩ | ⟨n, s', found, found', taken, -⟩
  · simp [none, none']
  · have all := (closeAll_block taken.depth taken.nodup taken.isOpen).1
    rw [found', found]
    simp only [Option.some.injEq, exists_eq_left']
    exact answer_done_iff.trans (all.trans closeAll_single_iff)

theorem releases_iff (shows : l.Shows [] s) (guards : String) :
    (s.step (.release guards)).1 = .done ↔
      ((l.dropGuards guards).closeAll (l.guardsOf guards)).2 = true := by
  have dropped := shows.dropGuards guards
  rw [List.append_nil] at dropped
  have all := (closeAll_block dropped.depth dropped.nodup dropped.isOpen).1
  rw [Session.step, shows.guardsOf guards]
  exact answer_done_iff.trans all

theorem inTurn (shows : l.Shows [] s) {guards : String} {before after : List Nat} {n : Nat}
    (split : l.guardsOf guards = before ++ n :: after)
    (all : ((l.dropGuards guards).closeAll before).2 = true) :
    ∃ w, s.writer.closeAll (before.map l.block) = (w, none) ∧
      ((∃ w', w.close (l.block n) = .ok w') ↔
        ((l.dropGuards guards).closeAll before).1.IsInnermost n) := by
  have dropped := shows.dropGuards guards
  rw [List.append_nil, split] at dropped
  have nodup := dropped.nodup
  have isOpen := dropped.isOpen
  rw [List.append_assoc] at nodup isOpen
  obtain ⟨closed, depth, stay⟩ := closeAll_block dropped.depth nodup isOpen
  obtain ⟨open', same⟩ := stay n (by simp)
  refine ⟨_, Prod.ext rfl (closed.mpr all), ?_⟩
  have turn := close_block depth open'
  rw [same] at turn
  rcases turn with ⟨last, w', closes, -⟩ | ⟨inner, stays⟩
  · exact iff_of_true ⟨w', closes⟩ last
  · refine iff_of_false ?_ inner
    rintro ⟨w', closes⟩
    cases stays.symm.trans closes

theorem depth_nodup (shows : l.Shows [] s) : s.depths.Nodup := by
  rw [shows.depths_eq]
  refine shows.nodup.map_on fun n listed m listed' same => ?_
  have isOpen := shows.isOpen n listed
  have isOpen' := shows.isOpen m listed'
  -- The count goes up at each unclosed number, so it tells these numbers apart.
  have counts : Nat.count (· ∉ l.closed) n = Nat.count (· ∉ l.closed) m := by
    have same : Nat.count (· ∉ l.closed) (n + 1) = Nat.count (· ∉ l.closed) (m + 1) := same
    rw [Nat.count_succ, Nat.count_succ, if_pos isOpen.2, if_pos isOpen'.2] at same
    exact Nat.succ.inj same
  exact Nat.count_injective isOpen.2 isOpen'.2 counts

theorem depth_bounded (shows : l.Shows [] s) {d : Nat} (listed : d ∈ s.depths) :
    1 ≤ d ∧ d ≤ s.writer.depth := by
  rw [shows.depths_eq, List.mem_map] at listed
  obtain ⟨n, member, rfl⟩ := listed
  have isOpen := shows.isOpen n member
  have one : Nat.count (· ∉ l.closed) (n + 1) = Nat.count (· ∉ l.closed) n + 1 := by
    rw [Nat.count_succ, if_pos isOpen.2]
  refine ⟨?_, ?_⟩
  · rw [block, one]
    exact Nat.le_add_left 1 _
  · rw [shows.depth]
    exact Nat.count_monotone _ isOpen.1

theorem finishes_iff (shows : l.Shows [] s) :
    (∃ text, s.writer.finish = .ok text) ↔ ∀ n < l.opened, n ∈ l.closed := by
  have none : s.writer.depth = 0 ↔ ∀ n < l.opened, n ∈ l.closed := by
    rw [shows.depth, Ledger.depth, Nat.count_iff_forall_not]
    simp
  rw [← none, Writer.finish]
  split <;> simp_all

theorem tells (shows : l.Shows [] s) : s.Tells l where
  closes := shows.closes_iff
  unchanged name fault faults := by
    rw [step_close] at faults ⊢
    rcases shows.takeBlock name with ⟨-, none⟩ | ⟨n, s', -, found, -, same⟩
    · simp [none] at faults
    · rw [found] at faults ⊢
      have stopped : s'.writer.closeAll [l.block n] = (_, some fault) :=
        Prod.ext rfl (answer_fault_iff.mp faults)
      obtain ⟨before, b, after, split, went, -⟩ := Writer.closeAll_fault stopped
      -- The one block is the one that did not close, so none was closed before it.
      obtain rfl : before = [] := by
        cases before with
        | nil => rfl
        | cons _ _ => simp at split
      exact (congrArg Prod.fst went).symm.trans same
  releases := shows.releases_iff
  guarded guards := congrArg Guards.blocks (shows.guardsOf guards)
  inTurn _ _ _ _ := shows.inTurn
  interrupted guards fault faults := by
    rw [Session.step] at faults ⊢
    refine Writer.closeAll_fault (Prod.ext rfl (answer_fault_iff.mp faults))
  apart := shows.depth_nodup
  bounded _ := shows.depth_bounded
  finishes := shows.finishes_iff

end Shows

/-- In every history of one writer, blocks and guards lost in faults included, the depth of a block
tells whether it is the latest one opened that has not been closed. -/
theorem run_tells {steps : List Step} (goesOn : ∀ st ∈ steps, st ≠ .finish) :
    (Session.run steps).Tells (run steps) :=
  (shows_run goesOn).tells

def lossy : List Step :=
  [.openBlock "a" "if a", .openBlock "b" "if b", .close "a", .push "g" "b", .openBlock "c" "",
    .push "g" "c", .openBlock "d" "", .line "work();", .release "g", .close "d", .openBlock "e" "e"]

theorem run_tells_lossy :
    (∀ st ∈ lossy, st ≠ .finish) ∧ (run lossy).closed = [3] ∧
      (Session.run lossy).depths = [4] ∧ (Session.run lossy).Tells (run lossy) :=
  ⟨by decide, by decide, by decide, run_tells (by decide)⟩

end Ledger

end Pegsmith.Code
