import Mathlib
import Pegsmith.Proofs.Plan.Typing
import Pegsmith.Proofs.Types.Views

set_option autoImplicit false

namespace Pegsmith

open Relation (ReflTransGen TransGen)

theorem sum_length_le_intercalate (sep : List Char) (parts : List (List Char)) :
    (parts.map List.length).sum ≤ (sep.intercalate parts).length := by
  induction parts with
  | nil => exact Nat.zero_le _
  | cons part parts ih =>
    cases parts with
    | nil => simp
    | cons next parts =>
      rw [List.intercalate_cons_cons, List.map_cons, List.sum_cons, List.length_append,
        List.length_append]
      omega

theorem Source.sum_length_le_spaced (texts : List String) :
    (texts.map String.length).sum ≤ (spaced texts).length := by
  have nonempty : (texts.map String.length).sum =
      (((texts.filter (!·.isEmpty)).map String.toList).map List.length).sum := by
    induction texts with
    | nil => rfl
    | cons text texts ih =>
      by_cases empty : text = ""
      · subst empty
        simpa using ih
      · rw [List.filter_cons_of_pos (by simpa using empty)]
        simp [ih, String.length_toList]
  rw [nonempty, spaced, ← String.length_toList, String.toList_intercalate]
  exact sum_length_le_intercalate _ _

theorem Source.length_le_spaced {texts : List String} {text : String} (member : text ∈ texts) :
    text.length ≤ (spaced texts).length :=
  (List.single_le_sum (fun _ _ => Nat.zero_le _) _ (List.mem_map_of_mem member)).trans
    (sum_length_le_spaced texts)

namespace HostType

theorem mem_intersperse {text sep : String} {texts : List String} (member : text ∈ texts) :
    text ∈ texts.intersperse sep := by
  induction texts with
  | nil => cases member
  | cons first texts ih =>
    cases texts with
    | nil => exact member
    | cons second texts =>
      rw [List.intersperse_cons_cons]
      cases member with
      | head => exact List.mem_cons_self
      | tail _ later => exact List.mem_cons_of_mem _ (List.mem_cons_of_mem _ (ih later))

theorem length_le_commaSeparated {texts : List String} {trailing : Bool} {text : String}
    (member : text ∈ texts) : text.length ≤ (commaSeparated texts trailing).length :=
  Source.length_le_spaced (List.mem_append_left _ (mem_intersperse member))

theorem length_key_stripParens (t : HostType) : t.stripParens.key.length ≤ t.key.length := by
  fun_induction stripParens t with
  | case1 inner ih =>
    rw [key, Source.enclosed, String.length_append, String.length_append]
    omega
  | case2 => exact Nat.le_refl _

theorem mem_keys {t : HostType} {ts : List HostType} (member : t ∈ ts) : t.key ∈ keys ts := by
  induction member with
  | head => exact List.mem_cons_self
  | tail _ _ ih => exact List.mem_cons_of_mem _ ih

theorem mem_argKeys {t : HostType} {args : List TypeArg} (member : .type t ∈ args) :
    t.key ∈ argKeys args := by
  induction args with
  | nil => cases member
  | cons arg args ih =>
    cases member with
    | head => exact List.mem_cons_self
    | tail _ later => cases arg <;> exact List.mem_cons_of_mem _ (ih later)

theorem length_key_of_tupleElems? {t u : HostType} {members : List HostType}
    (written : t.tupleElems? = some members) (member : u ∈ members) :
    u.key.length < t.key.length := by
  refine Nat.lt_of_lt_of_le ?_ (length_key_stripParens t)
  unfold tupleElems? at written
  split at written
  · next elems trailing tuple =>
    cases written
    have inside : u.key.length ≤ (commaSeparated (keys members) trailing).length :=
      length_le_commaSeparated (mem_keys member)
    rw [tuple, key, Source.enclosed, String.length_append, String.length_append]
    have : "(".length = 1 := rfl
    omega
  · cases written

theorem length_key_of_typeArgs {t u : HostType} (member : u ∈ t.typeArgs) :
    u.key.length < t.key.length := by
  refine Nat.lt_of_lt_of_le ?_ (length_key_stripParens t)
  unfold typeArgs at member
  split at member
  · next front name turbofish args trailing shape =>
    obtain ⟨arg, listed, written⟩ := List.mem_filterMap.mp member
    cases arg with
    | type t =>
      cases written
      have inside : u.key.length ≤ (commaSeparated (argKeys args) trailing).length :=
        length_le_commaSeparated (mem_argKeys listed)
      have around := Source.sum_length_le_spaced
        [if turbofish then "::" else "", "<", commaSeparated (argKeys args) trailing, ">"]
      have whole : (argsKey (.angle turbofish args trailing)).length ≤ t.stripParens.key.length := by
        rw [shape, key]
        exact Source.length_le_spaced (by simp)
      have : "<".length = 1 := rfl
      rw [List.map_cons, List.map_cons, List.map_cons, List.sum_cons, List.sum_cons,
        List.sum_cons] at around
      rw [argsKey] at whole
      omega
    | lifetime | other => cases written
  · cases member

end HostType

/-- A look into a type leads to what is inside of it. One does not look into the token type. -/
def TypeSystem.LooksInto (types : TypeSystem) (tokenType t u : HostType) : Prop :=
  t ≠ tokenType ∧ u ∈ (types.view t).inside

/-- Looking into a type, then into what is inside of it, and so on, comes to an end. -/
def TypeSystem.Ends (types : TypeSystem) (tokenType : HostType) : HostType → Prop :=
  Acc (flip (types.LooksInto tokenType))

theorem isSome_mapM_iff {α β : Type} {f : α → Option β} {as : List α} :
    (as.mapM f).isSome ↔ ∀ a ∈ as, (f a).isSome := by
  constructor
  · intro mapped a member
    obtain ⟨bs, mapped⟩ := Option.isSome_iff_exists.mp mapped
    obtain ⟨b, -, found⟩ := exists_left_of_forall₂ (forall₂_of_mapM mapped) member
    exact Option.isSome_iff_exists.mpr ⟨b, found⟩
  · intro each
    obtain ⟨bs, mapped⟩ := exists_mapM fun a member => Option.isSome_iff_exists.mp (each a member)
    rw [mapped]
    rfl

theorem mapM_of_mapM {α β : Type} {f g : α → Option β} {as : List α} {bs : List β}
    (same : ∀ a ∈ as, ∀ b, f a = some b → g a = some b) (mapped : as.mapM f = some bs) :
    as.mapM g = some bs := by
  induction as generalizing bs with
  | nil => exact mapped
  | cons a as ih =>
    rw [List.mapM_cons] at mapped ⊢
    obtain ⟨b, found, mapped⟩ := Option.bind_eq_some_iff.mp mapped
    obtain ⟨rest, others, mapped⟩ := Option.bind_eq_some_iff.mp mapped
    rw [same a List.mem_cons_self b found,
      ih (fun c member => same c (List.mem_cons_of_mem a member)) others]
    exact mapped

namespace Demand

variable {types : TypeSystem} {tokenType t u : HostType}

theorem isSome_within_succ {n : Nat} :
    (within types tokenType (n + 1) t).isSome ↔
      ∀ u, types.LooksInto tokenType t u → (within types tokenType n u).isSome := by
  rw [within]
  by_cases kind : t = tokenType
  · simp only [kind, TypeSystem.LooksInto]
    split <;> simp
  · simp only [kind, TypeSystem.LooksInto, if_false]
    cases types.view t <;> simp [TypeView.inside, isSome_mapM_iff, kind]

theorem ends_of_within {n : Nat} (read : (within types tokenType n t).isSome) :
    types.Ends tokenType t := by
  induction n generalizing t with
  | zero => cases read
  | succ n ih =>
    rw [isSome_within_succ] at read
    exact Acc.intro t fun u looks => ih (read u looks)

theorem within_mono {n m : Nat} {demand : Demand}
    (read : within types tokenType n t = some demand) (le : n ≤ m) :
    within types tokenType m t = some demand := by
  induction n generalizing m t demand with
  | zero => cases read
  | succ n ih =>
    obtain ⟨m, rfl⟩ : ∃ k, m = k + 1 := ⟨m - 1, by omega⟩
    have le : n ≤ m := by omega
    -- Both bounds look at the same view, and only read what is inside of it with different bounds.
    rw [within] at read ⊢
    split at read
    · exact read
    · split at read
      · next kind => rwa [if_pos kind]
      · next noKind =>
        rw [if_neg noKind]
        split at read
        case h_5 | h_6 =>
          obtain ⟨inner, found, rfl⟩ := Option.map_eq_some_iff.mp read
          rw [ih found le]
          rfl
        case h_7 =>
          obtain ⟨inner, found, rfl⟩ := Option.map_eq_some_iff.mp read
          rw [mapM_of_mapM (fun u _ demand read => ih read le) found]
          rfl
        all_goals exact read

end Demand

namespace Catalog

variable {c : Catalog} {tokenType t u : HostType}

def IsLoop (c : Catalog) (tokenType t : HostType) : Prop :=
  (∃ d item, c.find? t = some d ∧ d.listOf = some item) ∧
    TransGen (c.types.LooksInto tokenType) t t

theorem looksInto_cases (looks : c.types.LooksInto tokenType t u) :
    u.key.length < t.key.length ∨ ∃ d, c.find? t = some d ∧ d.listOf = some u := by
  have views := c.views_view t
  have inside : u ∈ (c.view t).inside := looks.2
  generalize c.view t = view at views inside
  -- Only a declared list leads to a type that is not written in it.
  cases views with
  | text | rawToken | map | named | unit => cases inside
  | tuple written => exact .inl (HostType.length_key_of_tupleElems? written inside)
  | declared found items =>
    obtain rfl := List.mem_singleton.mp inside
    exact .inr ⟨_, found, items⟩
  | list written | optional written =>
    obtain rfl := List.mem_singleton.mp inside
    exact .inl (HostType.length_key_of_typeArgs (by simp [written]))

def room (ts : List HostType) : Nat :=
  ts.foldr (fun u n => u.key.length + 1 + n) 0

theorem room_cons (t : HostType) (ts : List HostType) :
    room (t :: ts) = t.key.length + 1 + room ts :=
  rfl

theorem room_append (ts us : List HostType) : room (ts ++ us) = room ts + room us := by
  induction ts with
  | nil => simp [room]
  | cons t ts ih =>
    rw [List.cons_append, room_cons, room_cons, ih]
    omega

theorem room_le_of_sublist {ts us : List HostType} (sublist : ts.Sublist us) :
    room ts ≤ room us := by
  induction sublist with
  | slnil => exact Nat.le_refl _
  | cons u _ ih =>
    rw [room_cons]
    omega
  | cons_cons u _ ih =>
    rw [room_cons, room_cons]
    omega

open Classical in
noncomputable def itemsBelow (c : Catalog) (tokenType t : HostType)
    (entries : List (HostType × DeclaredType)) : List HostType :=
  (entries.filter fun entry =>
    ReflTransGen (c.types.LooksInto tokenType) t entry.1).filterMap (·.2.listOf)

noncomputable def budget (c : Catalog) (tokenType t : HostType) : Nat :=
  room (t :: c.itemsBelow tokenType t c.entries)

theorem budget_le_nesting (c : Catalog) (tokenType t : HostType) :
    c.budget tokenType t ≤ c.nesting t :=
  room_le_of_sublist ((List.filter_sublist.filterMap _).cons_cons t)

theorem room_itemsBelow_le (entries : List (HostType × DeclaredType))
    (reaches : ReflTransGen (c.types.LooksInto tokenType) t u) :
    room (c.itemsBelow tokenType u entries) ≤ room (c.itemsBelow tokenType t entries) := by
  refine room_le_of_sublist ((List.monotone_filter_right entries fun entry below => ?_).filterMap _)
  simpa using reaches.trans (by simpa using below)

theorem room_itemsBelow_declared {d : DeclaredType} (looks : c.types.LooksInto tokenType t u)
    (found : c.find? t = some d) (items : d.listOf = some u)
    (away : ¬ReflTransGen (c.types.LooksInto tokenType) u t) :
    room (u :: c.itemsBelow tokenType u c.entries) ≤ room (c.itemsBelow tokenType t c.entries) := by
  obtain ⟨before, after, entries, -⟩ := List.lookup_eq_some_iff.mp found
  have front := room_itemsBelow_le before (.single looks)
  have back := room_itemsBelow_le after (.single looks)
  -- The declaration that is used here cannot be used again.
  have kept : c.itemsBelow tokenType t c.entries =
      c.itemsBelow tokenType t before ++ u :: c.itemsBelow tokenType t after := by
    rw [entries, itemsBelow, List.filter_append, List.filterMap_append,
      List.filter_cons_of_pos (by simpa using .refl), List.filterMap_cons]
    simp only [items]
    rfl
  have dropped : c.itemsBelow tokenType u c.entries =
      c.itemsBelow tokenType u before ++ c.itemsBelow tokenType u after := by
    rw [entries, itemsBelow, List.filter_append, List.filterMap_append,
      List.filter_cons_of_neg (by simpa using away)]
    rfl
  rw [kept, dropped, room_cons, room_append, room_append, room_cons]
  omega

theorem budget_lt (looks : c.types.LooksInto tokenType t u) (noLoop : ¬c.IsLoop tokenType t) :
    c.budget tokenType u < c.budget tokenType t := by
  rcases looksInto_cases looks with shorter | ⟨d, found, items⟩
  · -- What is written inside leads to no declaration that the whole type does not lead to.
    have below := room_itemsBelow_le c.entries (.single looks)
    rw [budget, budget, room_cons, room_cons]
    omega
  · -- The item may be longer than the list, but its declaration is paid for in the budget once.
    have away : ¬ReflTransGen (c.types.LooksInto tokenType) u t := fun back =>
      noLoop ⟨⟨d, u, found, items⟩, TransGen.head' looks back⟩
    have below := room_itemsBelow_declared looks found items away
    rw [budget, budget, room_cons t]
    omega

theorem isSome_within {n : Nat} (noLoop :
      ∀ u, ReflTransGen (c.types.LooksInto tokenType) t u → ¬c.IsLoop tokenType u)
    (enough : c.budget tokenType t ≤ n) : (Demand.within c.types tokenType n t).isSome := by
  induction n generalizing t with
  | zero =>
    rw [budget, room_cons] at enough
    omega
  | succ n ih =>
    rw [Demand.isSome_within_succ]
    intro u looks
    have less := budget_lt looks (noLoop t .refl)
    exact ih (fun v reaches => noLoop v (.head looks reaches)) (by omega)

theorem ends_of_reaches {types : TypeSystem} (ends : types.Ends tokenType t)
    (reaches : ReflTransGen (types.LooksInto tokenType) t u) : types.Ends tokenType u := by
  induction reaches with
  | refl => exact ends
  | tail _ looks ih => exact ih.inv looks

theorem not_transGen_of_ends {types : TypeSystem} (ends : types.Ends tokenType t) :
    ¬TransGen (types.LooksInto tokenType) t t := by
  intro back
  have below : Acc (TransGen (flip (types.LooksInto tokenType))) t := ends.transGen
  induction below with
  | intro t _ ih => exact ih t (Relation.transGen_swap.mpr back) ends back

def LeadsToLoop (c : Catalog) (tokenType t : HostType) : Prop :=
  ∃ u, ReflTransGen (c.types.LooksInto tokenType) t u ∧ c.IsLoop tokenType u

theorem ends_iff : c.types.Ends tokenType t ↔ ¬c.LeadsToLoop tokenType t := by
  constructor
  · rintro ends ⟨u, reaches, -, back⟩
    exact not_transGen_of_ends (ends_of_reaches ends reaches) back
  · intro noLoop
    refine Demand.ends_of_within (isSome_within (fun u reaches loop => ?_) (Nat.le_refl _))
    exact noLoop ⟨u, reaches, loop⟩

theorem isSome_within_nesting_iff :
    (Demand.within c.types tokenType (c.nesting t) t).isSome ↔ c.types.Ends tokenType t := by
  refine ⟨Demand.ends_of_within, fun ends => isSome_within (fun u reaches loop => ?_) ?_⟩
  · exact ends_iff.mp ends ⟨u, reaches, loop⟩
  · exact c.budget_le_nesting tokenType t

theorem overflows_ofType :
    OverflowsIff (Demand.ofType c.types tokenType t) (c.LeadsToLoop tokenType t) := by
  have known : (Demand.within c.types tokenType (c.types.nesting t) t).isSome ↔
      ¬c.LeadsToLoop tokenType t :=
    c.isSome_within_nesting_iff.trans ends_iff
  rw [Demand.ofType]
  cases read : Demand.within c.types tokenType (c.types.nesting t) t with
  | none =>
    rw [read] at known
    exact .inl ⟨by simpa using known, rfl⟩
  | some demand =>
    rw [read] at known
    exact .inr ⟨known.mp rfl, demand, rfl⟩

theorem exists_within_iff :
    (∃ n demand, Demand.within c.types tokenType n t = some demand) ↔
      c.types.Ends tokenType t := by
  constructor
  · rintro ⟨n, demand, read⟩
    exact Demand.ends_of_within (Option.isSome_of_eq_some read)
  · intro ends
    exact ⟨c.nesting t, Option.isSome_iff_exists.mp (isSome_within_nesting_iff.mpr ends)⟩

theorem ofType_of_within {n : Nat} {demand : Demand}
    (read : Demand.within c.types tokenType n t = some demand) :
    Demand.ofType c.types tokenType t = .ok demand := by
  have ends : c.types.Ends tokenType t := exists_within_iff.mp ⟨n, demand, read⟩
  obtain ⟨found, reads⟩ := Option.isSome_iff_exists.mp (isSome_within_nesting_iff.mpr ends)
  have same : some found = some demand :=
    (Demand.within_mono reads (Nat.le_max_left (c.nesting t) n)).symm.trans
      (Demand.within_mono read (Nat.le_max_right (c.nesting t) n))
  exact Demand.ofType_eq_ok_iff.mpr (reads.trans same)

variable {params : List HostType}

theorem exists_mapM_within_iff :
    (∃ n demands, params.mapM (Demand.within c.types tokenType n) = some demands) ↔
      ∀ t ∈ params, c.types.Ends tokenType t := by
  constructor
  · rintro ⟨n, demands, read⟩ t member
    exact Demand.ends_of_within (isSome_mapM_iff.mp (Option.isSome_of_eq_some read) t member)
  · intro ends
    refine ⟨(params.map c.nesting).sum, Option.isSome_iff_exists.mp (isSome_mapM_iff.mpr ?_)⟩
    intro t member
    obtain ⟨demand, read⟩ :=
      Option.isSome_iff_exists.mp (isSome_within_nesting_iff.mpr (ends t member))
    have enough : c.nesting t ≤ (params.map c.nesting).sum :=
      List.single_le_sum (fun _ _ => Nat.zero_le _) _ (List.mem_map_of_mem member)
    exact Option.isSome_of_eq_some (Demand.within_mono read enough)

theorem ofParams_of_mapM_within {n : Nat} {demands : List Demand}
    (read : params.mapM (Demand.within c.types tokenType n) = some demands) :
    Demand.ofParams c.types tokenType params = .ok (Demand.chain demands) :=
  Demand.ofParams_eq_ok_iff.mpr
    ⟨demands, (forall₂_of_mapM read).flip.imp fun _ _ => ofType_of_within, rfl⟩

theorem overflows_ofParams : OverflowsIff (Demand.ofParams c.types tokenType params)
    (∃ t ∈ params, c.LeadsToLoop tokenType t) :=
  (OverflowsIff.mapM fun _ _ => c.overflows_ofType).map

theorem ends_all_iff :
    (∀ t, c.types.Ends tokenType t) ↔ ∀ entry ∈ c.entries, ¬c.IsLoop tokenType entry.1 := by
  simp only [ends_iff]
  constructor
  · exact fun noLoop entry _ loop => noLoop entry.1 ⟨entry.1, .refl, loop⟩
  · rintro noLoop t ⟨u, -, ⟨d, item, found, items⟩, back⟩
    obtain ⟨before, after, entries, -⟩ := List.lookup_eq_some_iff.mp found
    exact noLoop (u, d) (by simp [entries]) ⟨⟨d, item, found, items⟩, back⟩

end Catalog

end Pegsmith
