import Mathlib
import Pegsmith.Proofs.Types.Bases

set_option autoImplicit false

namespace Pegsmith

open Relation (ReflTransGen)

namespace TypeSystem

def Below (types : TypeSystem) (t u : HostType) : Prop :=
  t = u ∨ types.isSubtype t u = true

def IsTop (types : TypeSystem) (ts : List HostType) (top : HostType) : Prop :=
  top ∈ ts ∧ ∀ t ∈ ts, types.Below t top

variable {types : TypeSystem} {current t joined a b : HostType} {seen ts : List HostType}

theorem Below.refl (types : TypeSystem) (t : HostType) : types.Below t t :=
  .inl rfl

theorem isTop_singleton (types : TypeSystem) (t : HostType) : types.IsTop [t] t :=
  ⟨List.mem_singleton_self t, List.forall_mem_singleton.mpr (.refl types t)⟩

def Ordered (types : TypeSystem) : Prop :=
  ∀ t u v, types.Below t u → types.Below u v → types.Below t v

theorem join_of_below (below : types.Below t current) : types.join current t = .ok current := by
  rw [join, if_pos (by simpa [Below] using below)]

theorem join_of_above (apart : ¬types.Below t current) (above : types.Below current t) :
    types.join current t = .ok t := by
  have other : types.isSubtype current t = true :=
    above.resolve_left fun same => apart (.inl same.symm)
  rw [join, if_neg (by simpa [Below] using apart), if_pos other]

theorem join_of_unrelated (notBelow : ¬types.Below t current) (notAbove : ¬types.Below current t) :
    types.join current t = .error (current, t) := by
  rw [join, if_neg (by simpa [Below] using notBelow), if_neg fun sub => notAbove (.inr sub)]

theorem join_cases (ordered : types.Ordered) (top : types.IsTop seen current) (t : HostType) :
    (∃ joined, types.join current t = .ok joined ∧ types.IsTop (seen ++ [t]) joined) ∨
      types.join current t = .error (current, t) ∧ ¬types.Below t current ∧
        ¬types.Below current t := by
  by_cases below : types.Below t current
  · refine .inl ⟨current, join_of_below below, List.mem_append_left _ top.1, ?_⟩
    rw [List.forall_mem_append, List.forall_mem_singleton]
    exact ⟨top.2, below⟩
  by_cases above : types.Below current t
  · refine .inl ⟨t, join_of_above below above, by simp, ?_⟩
    rw [List.forall_mem_append, List.forall_mem_singleton]
    exact ⟨fun u member => ordered u current t (top.2 u member) above, .refl types t⟩
  · exact .inr ⟨join_of_unrelated below above, below, above⟩

theorem joins_cases (ordered : types.Ordered) (top : types.IsTop seen current)
    (ts : List HostType) :
    (∃ joined, ts.foldlM types.join current = .ok joined ∧ types.IsTop (seen ++ ts) joined) ∨
      ∃ a b before after, ts.foldlM types.join current = .error (a, b) ∧
        ts = before ++ b :: after ∧ types.IsTop (seen ++ before) a ∧ ¬types.Below b a ∧
          ¬types.Below a b := by
  -- What the walk has behind it grows by one type with each step that joins.
  induction ts generalizing seen current with
  | nil => exact .inl ⟨current, rfl, by simpa using top⟩
  | cons t ts ih =>
    rw [List.foldlM_cons]
    obtain ⟨joined, step, top'⟩ | ⟨step, notBelow, notAbove⟩ := join_cases ordered top t
    · rw [step]
      obtain ⟨last, walked, found⟩ | ⟨a, b, before, after, stopped, rfl, found, apart⟩ := ih top'
      · exact .inl ⟨last, walked, by simpa using found⟩
      · exact .inr ⟨a, b, t :: before, after, stopped, rfl, by simpa using found, apart⟩
    · rw [step]
      exact .inr ⟨current, t, [], ts, rfl, rfl, by simpa using top, notBelow, notAbove⟩

theorem common_cases (ordered : types.Ordered) (t : HostType) (ts : List HostType) :
    (∃ top, types.common (t :: ts) = .ok (some top) ∧ types.IsTop (t :: ts) top) ∨
      ∃ a b before after, types.common (t :: ts) = .error (a, b) ∧
        t :: ts = before ++ b :: after ∧ types.IsTop before a ∧ ¬types.Below b a ∧
          ¬types.Below a b := by
  rw [common]
  obtain ⟨top, walked, found⟩ | ⟨a, b, before, after, stopped, rfl, found, apart⟩ :=
    joins_cases ordered (isTop_singleton types t) ts
  · exact .inl ⟨top, by rw [walked]; rfl, found⟩
  · exact .inr ⟨a, b, t :: before, after, by rw [stopped]; rfl, rfl, found, apart⟩

theorem not_isTop_append (ordered : types.Ordered) (top : types.IsTop seen a)
    (notBelow : ¬types.Below b a) (notAbove : ¬types.Below a b) :
    ¬∃ u, types.IsTop (seen ++ [b]) u := by
  rintro ⟨u, member, each⟩
  rw [List.forall_mem_append, List.forall_mem_singleton] at each
  rcases List.mem_append.mp member with old | new
  · exact notBelow (ordered b u a each.2 (top.2 u old))
  · obtain rfl := List.mem_singleton.mp new
    exact notAbove (each.1 a top.1)

theorem exists_isTop (ordered : types.Ordered) (nonempty : ts ≠ [])
    (related : ∀ t ∈ ts, ∀ u ∈ ts, types.Below t u ∨ types.Below u t) :
    ∃ top, types.IsTop ts top := by
  cases ts with
  | nil => exact absurd rfl nonempty
  | cons t ts =>
    obtain ⟨top, -, found⟩ | ⟨a, b, before, after, -, split, top, notBelow, notAbove⟩ :=
      common_cases ordered t ts
    · exact ⟨top, found⟩
    · rw [split] at related
      have both := related a (List.mem_append_left _ top.1) b (by simp)
      exact (both.elim notAbove notBelow).elim

end TypeSystem

namespace Catalog

variable {c : Catalog}

theorem below_iff {t u : HostType} : c.types.Below t u ↔ ReflTransGen c.HasBase t u := by
  constructor
  · rintro (rfl | sub)
    · exact .refl
    · exact (isSubtype_iff.mp sub).2
  · intro derives
    by_cases same : t = u
    · exact .inl same
    · exact .inr (isSubtype_iff.mpr ⟨same, derives⟩)

theorem ordered (c : Catalog) : c.types.Ordered := by
  intro t u v first second
  rw [below_iff] at *
  exact first.trans second

theorem common_settles_iff (t : HostType) (ts : List HostType) :
    (∃ top, c.types.common (t :: ts) = .ok (some top)) ↔
      ∀ before after, t :: ts = before ++ after → before ≠ [] → ∃ top, c.types.IsTop before top := by
  constructor
  · rintro ⟨top, found⟩ before after split nonempty
    obtain ⟨u, before, rfl⟩ := List.exists_cons_of_ne_nil nonempty
    rw [List.cons_append] at split
    obtain ⟨rfl, rfl⟩ := List.cons.inj split
    -- The walk over the whole list begins with the walk over its beginning.
    rw [TypeSystem.common, List.foldlM_append] at found
    obtain ⟨_, walked, -⟩ := ok_of_exceptMap found
    obtain ⟨joined, walked, -⟩ := ok_of_bind walked
    rcases TypeSystem.common_cases c.ordered t before with ⟨top, -, found⟩ | ⟨a, b, -, -, stopped, -⟩
    · exact ⟨top, found⟩
    · rw [TypeSystem.common, walked] at stopped
      cases stopped
  · intro tops
    rcases TypeSystem.common_cases c.ordered t ts with
      ⟨top, found, -⟩ | ⟨a, b, before, after, -, split, top, notBelow, notAbove⟩
    · exact ⟨top, found⟩
    · refine absurd ?_ (TypeSystem.not_isTop_append c.ordered top notBelow notAbove)
      exact tops (before ++ [b]) after (by simpa using split) (by simp)

theorem related_of_settles {us : List HostType} {a b : HostType}
    (settles : ∃ top, c.types.common (a :: b :: us) = .ok (some top)) :
    c.types.Below a b ∨ c.types.Below b a := by
  obtain ⟨top, member, each⟩ := (common_settles_iff a (b :: us)).mp settles [a, b] us rfl (by simp)
  have first := each a (by simp)
  have second := each b (by simp)
  obtain rfl | rfl : top = a ∨ top = b := by simpa using member
  · exact .inr second
  · exact .inl first

/-- The common type of a list is a member that all members are or derive from. One is found exactly
if every beginning of the list has such a member; otherwise the two types that are reported are
unrelated, and the first of them is such a member of what stands before the second. It is found in
every order of the list exactly if of any two members one is or derives from the other. -/
theorem common_iff (c : Catalog) (t : HostType) (ts : List HostType) :
    (∀ top, c.types.common (t :: ts) = .ok (some top) → c.types.IsTop (t :: ts) top) ∧
    ((∃ top, c.types.common (t :: ts) = .ok (some top)) ↔
      ∀ before after, t :: ts = before ++ after → before ≠ [] →
        ∃ top, c.types.IsTop before top) ∧
    (∀ a b, c.types.common (t :: ts) = .error (a, b) →
      ¬c.types.Below a b ∧ ¬c.types.Below b a ∧
        ∃ before after, t :: ts = before ++ b :: after ∧ c.types.IsTop before a) ∧
    ((∀ us, us.Perm (t :: ts) → ∃ top, c.types.common us = .ok (some top)) ↔
      ∀ a ∈ t :: ts, ∀ b ∈ t :: ts, c.types.Below a b ∨ c.types.Below b a) := by
  refine ⟨fun top found => ?_, common_settles_iff t ts, fun a b failed => ?_,
    fun each a first b second => ?_, fun related us perm => ?_⟩
  · rcases TypeSystem.common_cases c.ordered t ts with ⟨u, found', isTop⟩ | ⟨a, b, -, -, failed, -⟩
    · cases found.symm.trans found'
      exact isTop
    · cases found.symm.trans failed
  · rcases TypeSystem.common_cases c.ordered t ts with
      ⟨u, found, -⟩ | ⟨a', b', before, after, failed', split, top, notBelow, notAbove⟩
    · cases found.symm.trans failed
    · cases failed.symm.trans failed'
      exact ⟨notAbove, notBelow, before, after, split, top⟩
  · -- Two members can be put in front, where they are compared with each other.
    by_cases same : a = b
    · exact .inl (.inl same)
    · have rest : b ∈ (t :: ts).erase a := (List.mem_erase_of_ne (Ne.symm same)).mpr second
      have perm := (List.perm_cons_erase first).trans ((List.perm_cons_erase rest).cons a)
      exact related_of_settles (each _ perm.symm)
  · cases us with
    | nil => exact absurd perm.symm.eq_nil (by simp)
    | cons u us =>
      refine (common_settles_iff u us).mpr fun before after split nonempty => ?_
      refine TypeSystem.exists_isTop c.ordered nonempty fun a first b second => ?_
      have member (v : HostType) (listed : v ∈ before) : v ∈ t :: ts :=
        perm.mem_iff.mp (split ▸ List.mem_append_left _ listed)
      exact related a (member a first) b (member b second)

def nodes : Catalog :=
  ⟨[(.named "Number", { base := some (.named "Node") }),
    (.named "Negate", { base := some (.named "Node") }), (.named "Node", { kind := .enum })]⟩

theorem nodes_unsettled :
    nodes.types.IsTop [.named "Negate", .named "Number", .named "Node"] (.named "Node") ∧
      nodes.types.common [.named "Negate", .named "Number", .named "Node"] =
        .error (.named "Negate", .named "Number") ∧
      nodes.types.common [.named "Negate", .named "Node", .named "Number"] =
        .ok (some (.named "Node")) := by
  refine ⟨⟨by simp, ?_⟩, by cbv, by cbv⟩
  simp only [List.forall_mem_cons]
  refine ⟨.inr (by decide +kernel), .inr (by decide +kernel), .inl rfl, by simp⟩

end Catalog

end Pegsmith
