import Mathlib
import Pegsmith.Proofs.Results
import Pegsmith.Types.Demand

set_option autoImplicit false

namespace Pegsmith

open Relation (ReflTransGen TransGen)

namespace Catalog

def HasBase (c : Catalog) (t base : HostType) : Prop :=
  c.base? t = some base

variable {c : Catalog} {t u : HostType}

theorem derives_of_mem_walk {n : Nat} {seen : List HostType} (member : u ∈ c.walk n seen t) :
    ReflTransGen c.HasBase t u := by
  induction n generalizing seen t with
  | zero =>
    cases List.mem_singleton.mp member
    exact .refl
  | succ n ih =>
    rw [walk] at member
    cases found : c.base? t with
    | none =>
      rw [found] at member
      cases List.mem_singleton.mp member
      exact .refl
    | some base =>
      simp only [found] at member
      split at member
      · cases List.mem_singleton.mp member
        exact .refl
      · cases member with
        | head => exact .refl
        | tail _ further => exact .head found (ih further)

theorem derives_of_isSubtype (sub : c.isSubtype t u = true) : TransGen c.HasBase t u := by
  obtain ⟨ne, member⟩ : t ≠ u ∧ u ∈ c.baseChain t := by simpa [isSubtype] using sub
  obtain same | derives := Relation.reflTransGen_iff_eq_or_transGen.mp (derives_of_mem_walk member)
  · exact absurd same.symm ne
  · exact derives

theorem mem_keys_of_hasBase {base : HostType} (derives : c.HasBase t base) :
    t ∈ (c.entries.map Prod.fst).toFinset := by
  obtain ⟨d, found, -⟩ := Option.bind_eq_some_iff.mp derives
  rw [List.mem_toFinset, List.mem_map]
  obtain ⟨before, after, entries, -⟩ := List.lookup_eq_some_iff.mp found
  exact ⟨(t, d), by simp [entries], rfl⟩

def ahead (c : Catalog) (seen : List HostType) (t : HostType) : Finset HostType :=
  (c.entries.map Prod.fst).toFinset \ seen.toFinset.erase t

theorem mem_ahead {base : HostType} {seen : List HostType} (derives : c.HasBase t base) :
    t ∈ c.ahead seen t := by
  rw [ahead, Finset.mem_sdiff]
  exact ⟨mem_keys_of_hasBase derives, Finset.notMem_erase t _⟩

theorem card_ahead_lt {base : HostType} {seen : List HostType} (derives : c.HasBase t base)
    (listed : t ∈ seen) (fresh : base ∉ seen) :
    (c.ahead (base :: seen) base).card < (c.ahead seen t).card := by
  refine Finset.card_lt_card (Finset.ssubset_iff_of_subset ?_ |>.mpr ⟨t, mem_ahead derives, ?_⟩)
  · intro v
    simp only [ahead, Finset.mem_sdiff, Finset.mem_erase, List.mem_toFinset, List.mem_cons]
    rintro ⟨key, new⟩
    exact ⟨key, fun old => new ⟨fun same => fresh (same ▸ old.2), .inr old.2⟩⟩
  · have other : t ≠ base := fun same => fresh (same ▸ listed)
    simp [ahead, listed, other]

theorem mem_walk (c : Catalog) (n : Nat) (seen : List HostType) (t : HostType) :
    t ∈ c.walk n seen t := by
  cases n with
  | zero => exact List.mem_cons_self
  | succ n =>
    rw [walk]
    split
    · exact List.mem_cons_self
    · split <;> exact List.mem_cons_self

theorem mem_of_closed {seen : List HostType}
    (closed : ∀ v ∈ seen, ∀ base, c.HasBase v base → base ∈ seen) (listed : t ∈ seen)
    (derives : ReflTransGen c.HasBase t u) : u ∈ seen := by
  induction derives with
  | refl => exact listed
  | tail _ last ih => exact closed _ ih _ last

theorem mem_walk_of_derives {n : Nat} {seen : List HostType} (listed : t ∈ seen)
    (closed : ∀ v ∈ seen, v ≠ t → ∀ base, c.HasBase v base → base ∈ seen)
    (enough : (c.ahead seen t).card ≤ n) (derives : ReflTransGen c.HasBase t u) :
    u ∈ c.walk n seen t ∨ u ∈ seen := by
  -- All that was seen before `t` has its base among what was seen, so only `t` can lead out of it.
  induction n generalizing seen t with
  | zero =>
    obtain rfl | ⟨base, step, -⟩ := derives.cases_head
    · exact .inr listed
    · have waiting : t ∈ c.ahead seen t := mem_ahead step
      have := Finset.card_pos.mpr ⟨t, waiting⟩
      omega
  | succ n ih =>
    obtain rfl | ⟨base, step, further⟩ := derives.cases_head
    · exact .inr listed
    rw [walk, show c.base? t = some base from step]
    dsimp only
    have next (v : HostType) (member : v ∈ seen) (b : HostType) (has : c.HasBase v b) :
        b = base ∨ b ∈ seen := by
      by_cases same : v = t
      · subst same
        exact .inl (Option.some.inj (has.symm.trans step))
      · exact .inr (closed v member same b has)
    split
    · next known =>
      have known : base ∈ seen := by simpa using known
      refine .inr (mem_of_closed (fun v member b has => ?_) listed derives)
      obtain rfl | old := next v member b has
      · exact known
      · exact old
    · next fresh =>
      have fresh : base ∉ seen := by simpa using fresh
      have less := card_ahead_lt step listed fresh
      have found : u ∈ c.walk n (base :: seen) base ∨ u ∈ base :: seen := by
        refine @ih base (base :: seen) List.mem_cons_self ?_ (by omega) further
        intro v member other b has
        have old : v ∈ seen := (List.mem_cons.mp member).resolve_left other
        exact List.mem_cons.mpr (next v old b has)
      obtain walked | seen := found
      · exact .inl (List.mem_cons_of_mem _ walked)
      · obtain rfl | old := List.mem_cons.mp seen
        · exact .inl (List.mem_cons_of_mem _ (c.mem_walk n _ _))
        · exact .inr old

theorem mem_baseChain_iff : u ∈ c.baseChain t ↔ ReflTransGen c.HasBase t u := by
  refine ⟨derives_of_mem_walk, fun derives => ?_⟩
  have found : u ∈ c.baseChain t ∨ u ∈ [t] := by
    refine mem_walk_of_derives List.mem_cons_self ?_ ?_ derives
    · intro v member other
      exact absurd (List.mem_singleton.mp member) other
    · refine (Finset.card_le_card Finset.sdiff_subset).trans ?_
      simpa using List.toFinset_card_le (c.entries.map Prod.fst)
  refine found.elim id fun same => ?_
  rw [List.mem_singleton.mp same]
  exact c.mem_walk _ _ _

theorem isSubtype_iff : c.isSubtype t u = true ↔ t ≠ u ∧ ReflTransGen c.HasBase t u := by
  simp [isSubtype, mem_baseChain_iff]

end Catalog

namespace TypeSystem

variable {types : TypeSystem} {R : HostType → HostType → Prop} {current t joined : HostType}
  {ts : List HostType}

theorem derives_of_join (sound : ∀ t u, types.isSubtype t u = true → TransGen R t u)
    (found : types.join current t = .ok joined) :
    ReflTransGen R current joined ∧ ReflTransGen R t joined := by
  unfold join at found
  split at found
  · next wider =>
    cases found
    obtain rfl | sub : t = current ∨ types.isSubtype t current = true := by simpa using wider
    · exact ⟨.refl, .refl⟩
    · exact ⟨.refl, (sound _ _ sub).to_reflTransGen⟩
  · split at found
    · next sub =>
      cases found
      exact ⟨(sound _ _ sub).to_reflTransGen, .refl⟩
    · cases found

theorem derives_of_joins (sound : ∀ t u, types.isSubtype t u = true → TransGen R t u)
    (found : ts.foldlM types.join current = .ok joined) :
    ReflTransGen R current joined ∧ ∀ t ∈ ts, ReflTransGen R t joined := by
  induction ts generalizing current with
  | nil =>
    cases found
    exact ⟨.refl, by simp⟩
  | cons t ts ih =>
    obtain ⟨next, first, rest⟩ := ok_of_bind found
    obtain ⟨current_le, t_le⟩ := derives_of_join sound first
    obtain ⟨next_le, others⟩ := ih rest
    refine ⟨current_le.trans next_le, ?_⟩
    rintro u (_ | ⟨_, member⟩)
    · exact t_le.trans next_le
    · exact others u member

theorem derives_of_common (sound : ∀ t u, types.isSubtype t u = true → TransGen R t u)
    (found : types.common ts = .ok (some joined)) : ∀ t ∈ ts, ReflTransGen R t joined := by
  cases ts with
  | nil => simp
  | cons t ts =>
    obtain ⟨_, joins, same⟩ := ok_of_exceptMap found
    cases same
    obtain ⟨first, others⟩ := derives_of_joins sound joins
    rintro u (_ | ⟨_, member⟩)
    · exact first
    · exact others u member

theorem common_ne_none (nonempty : ts ≠ []) : types.common ts ≠ .ok none := by
  cases ts with
  | nil => exact absurd rfl nonempty
  | cons t ts =>
    intro found
    obtain ⟨_, _, same⟩ := ok_of_exceptMap found
    cases same

end TypeSystem

end Pegsmith
