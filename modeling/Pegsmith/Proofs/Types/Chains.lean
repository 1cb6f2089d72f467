import Mathlib
import Pegsmith.Proofs.Types.Joins

set_option autoImplicit false

namespace Pegsmith

open Relation (ReflTransGen)

namespace Catalog

inductive Declaration where
  | type (t : HostType) (declared : DeclaredType)
  | enumeration (t : HostType)

def extend (c : Catalog) : Declaration → Catalog
  | .type t declared => c.declare t declared
  | .enumeration t => c.declareEnum t

def ofDeclarations (ds : List Declaration) : Catalog :=
  ds.foldl extend {}

def DeclaresBase (ds : List Declaration) (t base : HostType) : Prop :=
  ∃ before declared after, ds = before ++ .type t declared :: after ∧ declared.base = some base ∧
    ∀ other, .type t other ∉ after

/-- The climb from a type, of which no bound is known: it ends at a type without a base or before
one that has been seen. -/
inductive Climbs (c : Catalog) : List HostType → HostType → List HostType → Prop where
  | top {seen : List HostType} {t : HostType} (bare : c.base? t = none) : Climbs c seen t [t]
  | known {seen : List HostType} {t base : HostType} (based : c.HasBase t base)
      (old : base ∈ seen) : Climbs c seen t [t]
  | further {seen chain : List HostType} {t base : HostType} (based : c.HasBase t base)
      (new : base ∉ seen) (rest : Climbs c (base :: seen) base chain) : Climbs c seen t (t :: chain)

/-- The types that are reached from a type, each once and each related to the one before. -/
structure IsChainFrom (R : HostType → HostType → Prop) (t : HostType)
    (chain : List HostType) : Prop where
  starts : chain.head? = some t
  linked : chain.IsChain R
  nodup : chain.Nodup
  reached : ∀ u, u ∈ chain ↔ ReflTransGen R t u

variable {c : Catalog} {t u base : HostType} {seen chain : List HostType}

theorem ofDeclarations_snoc (ds : List Declaration) (d : Declaration) :
    ofDeclarations (ds ++ [d]) = (ofDeclarations ds).extend d := by
  rw [ofDeclarations, List.foldl_append]
  rfl

theorem base?_declare (c : Catalog) (t u : HostType) (declared : DeclaredType) :
    (c.declare t declared).base? u = if u = t then declared.base else c.base? u := by
  rw [base?, find?_declare]
  split <;> rfl

theorem base?_declareEnum (c : Catalog) (t u : HostType) :
    (c.declareEnum t).base? u = c.base? u := by
  rw [declareEnum]
  split
  · rfl
  · next missing =>
    rw [base?_declare]
    split
    · next same =>
      -- A type that has not been declared has no base either.
      have none : c.find? u = none := by simpa [isDeclared, same] using missing
      rw [base?, none]
      rfl
    · rfl

theorem declaresBase_snoc_type {ds : List Declaration} {declared : DeclaredType} :
    DeclaresBase (ds ++ [.type u declared]) t base ↔
      if t = u then declared.base = some base else DeclaresBase ds t base := by
  constructor
  · rintro ⟨before, latest, after, split, based, last⟩
    cases after using List.reverseRecOn with
    | nil =>
      obtain ⟨-, same⟩ := List.append_inj' split rfl
      cases same
      simpa using based
    | append_singleton after d _ =>
      rw [← List.cons_append, ← List.append_assoc] at split
      obtain ⟨earlier, same⟩ := List.append_inj' split rfl
      cases same
      have other : t ≠ u := fun same => last declared (by simp [same])
      rw [if_neg other]
      exact ⟨before, latest, after, earlier, based, fun d member => last d (by simp [member])⟩
  · split
    · next same =>
      subst same
      exact fun based => ⟨ds, declared, [], rfl, based, by simp⟩
    · next other =>
      rintro ⟨before, latest, after, rfl, based, last⟩
      exact ⟨before, latest, after ++ [.type u declared], by simp, based, by simp [last, other]⟩

theorem declaresBase_snoc_enumeration {ds : List Declaration} :
    DeclaresBase (ds ++ [.enumeration u]) t base ↔ DeclaresBase ds t base := by
  constructor
  · rintro ⟨before, latest, after, split, based, last⟩
    cases after using List.reverseRecOn with
    | nil =>
      obtain ⟨-, same⟩ := List.append_inj' split rfl
      cases same
    | append_singleton after d _ =>
      rw [← List.cons_append, ← List.append_assoc] at split
      obtain ⟨earlier, -⟩ := List.append_inj' split rfl
      exact ⟨before, latest, after, earlier, based, fun d member => last d (by simp [member])⟩
  · rintro ⟨before, latest, after, rfl, based, last⟩
    exact ⟨before, latest, after ++ [.enumeration u], by simp, based, by simp [last]⟩

theorem hasBase_ofDeclarations (ds : List Declaration) :
    (ofDeclarations ds).HasBase = DeclaresBase ds := by
  funext t base
  rw [eq_iff_iff]
  induction ds using List.reverseRecOn with
  | nil => simp [HasBase, DeclaresBase, ofDeclarations, base?, find?]
  | append_singleton ds d ih =>
    rw [HasBase, ofDeclarations_snoc]
    cases d with
    | type u declared =>
      rw [extend, base?_declare, declaresBase_snoc_type, ← ih]
      split <;> rfl
    | enumeration u =>
      rw [extend, base?_declareEnum, declaresBase_snoc_enumeration, ← ih]
      rfl

theorem climbs_walk {n : Nat} (listed : t ∈ seen) (enough : (c.ahead seen t).card ≤ n) :
    c.Climbs seen t (c.walk n seen t) := by
  -- Each step leaves a declared type for good, so the bound is not reached before the end.
  induction n generalizing seen t with
  | zero =>
    refine .top (Option.eq_none_iff_forall_ne_some.mpr fun base based => ?_)
    have waiting : t ∈ c.ahead seen t := mem_ahead based
    have := Finset.card_pos.mpr ⟨t, waiting⟩
    omega
  | succ n ih =>
    rw [walk]
    cases based : c.base? t with
    | none => exact .top based
    | some base =>
      dsimp only
      split
      · next known => exact .known based (by simpa using known)
      · next fresh =>
        have new : base ∉ seen := by simpa using fresh
        have less := card_ahead_lt based listed new
        exact .further based new (ih List.mem_cons_self (by omega))

theorem climbs_baseChain (c : Catalog) (t : HostType) : c.Climbs [t] t (c.baseChain t) := by
  refine climbs_walk List.mem_cons_self ((Finset.card_le_card Finset.sdiff_subset).trans ?_)
  simpa using List.toFinset_card_le (c.entries.map Prod.fst)

namespace Climbs

theorem unique {other : List HostType} (climbs : c.Climbs seen t chain)
    (again : c.Climbs seen t other) : other = chain := by
  induction climbs generalizing other with
  | top bare =>
    cases again with
    | top => rfl
    | known => rfl
    | further based => exact absurd (bare.symm.trans based) (by simp)
  | known based old =>
    cases again with
    | top => rfl
    | known => rfl
    | further based' new =>
      cases Option.some.inj (based.symm.trans based')
      exact absurd old new
  | further based new _ ih =>
    cases again with
    | top bare => exact absurd (bare.symm.trans based) (by simp)
    | known based' old =>
      cases Option.some.inj (based.symm.trans based')
      exact absurd old new
    | further based' _ rest =>
      cases Option.some.inj (based.symm.trans based')
      rw [ih rest]

theorem head?_eq (climbs : c.Climbs seen t chain) : chain.head? = some t := by
  cases climbs <;> rfl

theorem linked (climbs : c.Climbs seen t chain) : chain.IsChain c.HasBase := by
  induction climbs with
  | top => exact .singleton _
  | known => exact .singleton _
  | further based _ rest ih =>
    refine List.isChain_cons.mpr ⟨fun next first => ?_, ih⟩
    rw [rest.head?_eq] at first
    cases first
    exact based

theorem not_mem_of_seen (climbs : c.Climbs seen t chain) (old : u ∈ seen) (other : u ≠ t) :
    u ∉ chain := by
  induction climbs with
  | top => simpa using other
  | known => simpa using other
  | further _ new _ ih =>
    rw [List.mem_cons, not_or]
    refine ⟨other, ih (List.mem_cons_of_mem _ old) ?_⟩
    rintro rfl
    exact new old

theorem nodup (climbs : c.Climbs seen t chain) (listed : t ∈ seen) : chain.Nodup := by
  induction climbs with
  | top => exact List.nodup_singleton _
  | known => exact List.nodup_singleton _
  | further _ new rest ih =>
    refine List.nodup_cons.mpr ⟨rest.not_mem_of_seen (List.mem_cons_of_mem _ listed) ?_, ?_⟩
    · rintro rfl
      exact new listed
    · exact ih List.mem_cons_self

end Climbs

theorem baseChain_isChainFrom (c : Catalog) (t : HostType) :
    IsChainFrom c.HasBase t (c.baseChain t) where
  starts := (c.climbs_baseChain t).head?_eq
  linked := (c.climbs_baseChain t).linked
  nodup := (c.climbs_baseChain t).nodup List.mem_cons_self
  reached _ := mem_baseChain_iff

/-- Whatever has been declared, also bases in a circle, a climb along bases from any type comes to
its end, its chain holds each type that is reached once and next to the base it leads on to, and
being equal to a type or deriving from it is a preorder. -/
theorem ofDeclarations_climbs_preorder (ds : List Declaration) :
    (∀ t, (∀ chain, (ofDeclarations ds).Climbs [t] t chain ↔
        chain = (ofDeclarations ds).baseChain t) ∧
      IsChainFrom (DeclaresBase ds) t ((ofDeclarations ds).baseChain t)) ∧
    IsPreorder HostType (ofDeclarations ds).types.Below := by
  let c := ofDeclarations ds
  refine ⟨fun t => ⟨fun chain => ⟨(c.climbs_baseChain t).unique, ?_⟩, ?_⟩, ?_⟩
  · rintro rfl
    exact c.climbs_baseChain t
  · exact hasBase_ofDeclarations ds ▸ c.baseChain_isChainFrom t
  · exact { refl := TypeSystem.Below.refl c.types, trans := c.ordered }

example : (ofDeclarations [.type (.named "Front") { base := some (.named "Back") },
      .type (.named "Back") { base := some (.named "Front") }]).baseChain (.named "Front") =
    [.named "Front", .named "Back"] := by decide +kernel

end Catalog

end Pegsmith
