import Pegsmith.Proofs.Plan.Brackets
import Pegsmith.Proofs.Types.Bases

set_option autoImplicit false

namespace Pegsmith

open Relation

namespace FitContext

/-- A value of a type is of use where another type is asked for. -/
def Serves (cx : FitContext) (value type : HostType) : Prop :=
  type = value ∨ cx.isSubtype value type = true

structure Narrows (narrow wide : FitContext) : Prop where
  typed : ∀ name value, wide.value? name = some value → ∃ other, narrow.value? name = some other
  serves : ∀ name value other type, wide.value? name = some value →
    narrow.value? name = some other → wide.Serves value type → narrow.Serves other type

variable {narrow wide : FitContext} {name : String} {value other : HostType}

theorem isSome_callFor?_iff {cx : FitContext} {type : Option HostType} :
    (cx.callFor? name value type).isSome = true ↔ ∃ t ∈ type, cx.Serves value t := by
  cases type with
  | none => simp [callFor?]
  | some t =>
    by_cases same : t = value
    · simp [callFor?, Serves, same]
    · by_cases sub : cx.isSubtype value t = true
      · simp [callFor?, Serves, same, sub]
      · simp [callFor?, Serves, same, sub]

theorem exists_callFor? (narrows : narrow.Narrows wide) (typed : wide.value? name = some value)
    (retyped : narrow.value? name = some other) {type : Option HostType} {plan : Plan}
    (found : wide.callFor? name value type = some plan) :
    ∃ plan', narrow.callFor? name other type = some plan' := by
  have made : (wide.callFor? name value type).isSome = true := by rw [found]; rfl
  obtain ⟨t, asked, serves⟩ := isSome_callFor?_iff.mp made
  exact Option.isSome_iff_exists.mp (isSome_callFor?_iff.mpr
    ⟨t, asked, narrows.serves name value other t typed retyped serves⟩)

theorem fitCall_narrows (narrows : narrow.Narrows wide) (typed : wide.value? name = some value)
    (retyped : narrow.value? name = some other) {demand : Demand}
    (made : (endsOf (wide.fitCall name value demand)).isSome = true) :
    (endsOf (narrow.fitCall name other demand)).isSome = true := by
  -- A call that is made as it is stays one; any other may become one on the way to its item.
  induction demand with
  | list type item ih | optional type item ih =>
    rw [fitCall] at made ⊢
    split at made
    · next plan direct =>
      obtain ⟨plan, again⟩ := exists_callFor? narrows typed retyped direct
      rw [again]
      rfl
    · rw [endsOf_map fun _ => by rw [Plan.ends, Plan.ends_convert]] at made
      split
      · rfl
      · rw [endsOf_map fun _ => by rw [Plan.ends, Plan.ends_convert]]
        exact ih made
  | empty | rawToken | text | tokenKind | named | tuple | pair =>
    simp only [fitCall] at made ⊢
    split at made
    · next plan direct =>
      obtain ⟨plan, again⟩ := exists_callFor? narrows typed retyped direct
      rw [again]
      rfl
    · cases made

theorem skimEnds_narrows (narrows : narrow.Narrows wide) {discarded : Bool} {p : Pattern}
    (made : (wide.skimEnds discarded p).isSome = true) :
    (narrow.skimEnds discarded p).isSome = true := by
  -- What only has to match asks for nothing but known non-terminals.
  rw [isSome_skimEnds] at made ⊢
  refine ⟨made.1, fun name member => ?_⟩
  obtain ⟨value, typed⟩ := Option.isSome_iff_exists.mp (made.2 name member)
  exact Option.isSome_iff_exists.mpr (narrows.typed name value typed)

theorem fillEnds_narrows (narrows : narrow.Narrows wide) {ps : List Pattern}
    (each : ∀ p ∈ ps, ∀ demand, (wide.fitEnds p demand).isSome = true →
      (narrow.fitEnds p demand).isSome = true)
    {ds : List Demand} (made : (wide.fillEnds ps ds).isSome = true) :
    (narrow.fillEnds ps ds).isSome = true := by
  induction ps generalizing ds with
  | nil => cases ds <;> exact made
  | cons p ps ih =>
    have rest := fun q member => each q (.tail p member)
    cases void : p.isVoid with
    | true =>
      rw [fillEnds_void void, isSome_both] at made ⊢
      exact ⟨skimEnds_narrows narrows made.1, ih rest made.2⟩
    | false =>
      cases ds with
      | nil =>
        rw [fillEnds, void] at made
        cases made
      | cons d ds =>
        rw [fillEnds_valued void, isSome_both] at made ⊢
        exact ⟨each p (.head ps) d made.1, ih rest made.2⟩

theorem fitItems_narrows (narrows : narrow.Narrows wide) {ps : List Pattern}
    (each : ∀ p ∈ ps, ∀ demand, (wide.fitEnds p demand).isSome = true →
      (narrow.fitEnds p demand).isSome = true)
    {demand : Demand} (made : (endsOf (wide.fitItems ps demand)).isSome = true) :
    (endsOf (narrow.fitItems ps demand)).isSome = true := by
  -- How a demand is shared out depends on the items alone, not on the types.
  match count : Pattern.valued ps with
  | 0 =>
    rw [endsOf_fitItems_void count] at made ⊢
    split at made
    · next empty =>
      rw [if_pos empty]
      exact fillEnds_narrows narrows each made
    · cases made
  | n + 1 =>
    rw [endsOf_fitItems count] at made ⊢
    cases shared : demand.shares n with
    | none =>
      rw [shared] at made
      cases made
    | some s =>
      rw [shared] at made
      exact fillEnds_narrows narrows each made

theorem fitEnds_narrows (narrows : narrow.Narrows wide) (p : Pattern) (demand : Demand)
    (made : (wide.fitEnds p demand).isSome = true) :
    (narrow.fitEnds p demand).isSome = true := by
  induction p generalizing demand with
  | terminal kind decode =>
    by_cases empty : demand = .empty
    · rw [empty, fitEnds_empty] at made ⊢
      exact skimEnds_narrows narrows made
    · rwa [fitEnds, fit, if_neg empty] at made ⊢
  | nonTerminal name =>
    by_cases empty : demand = .empty
    · rw [empty, fitEnds_empty] at made ⊢
      exact skimEnds_narrows narrows made
    · rw [fitEnds, fit, if_neg empty] at made ⊢
      cases typed : wide.value? name with
      | none =>
        rw [typed] at made
        cases made
      | some value =>
        obtain ⟨other, retyped⟩ := narrows.typed name value typed
        rw [typed] at made
        rw [retyped]
        exact fitCall_narrows narrows typed retyped made
  | sequence p q first second =>
    rw [fitEnds_pair] at made ⊢
    refine fitItems_narrows narrows ?_ made
    rintro _ (_ | ⟨_, _ | ⟨_, ⟨⟩⟩⟩)
    · exact first
    · exact second
  | choice p q first second =>
    rw [fitEnds_choice, isSome_both] at made ⊢
    exact ⟨first demand made.1, second demand made.2⟩
  | zeroOrMore p ih | oneOrMore p ih =>
    simp only [fitEnds_loop] at made ⊢
    cases demand with
    | empty => exact skimEnds_narrows narrows made
    | list type item => exact ih item made
    | _ => cases made
  | optional p ih =>
    rw [fitEnds_optional] at made ⊢
    cases demand <;> exact ih _ made
  | group p ih =>
    rw [fitEnds_group] at made ⊢
    exact ih demand made
  | discard p =>
    rw [fitEnds_discard] at made ⊢
    split at made
    · next empty =>
      rw [if_pos empty]
      exact skimEnds_narrows narrows made
    · cases made

theorem plan_narrows (narrows : narrow.Narrows wide) {p : Pattern} {demand : Demand}
    (made : (endsOf (wide.plan p demand)).isSome = true) :
    (endsOf (narrow.plan p demand)).isSome = true := by
  rw [plan] at made ⊢
  split at made
  · cases made
  · next valued =>
    rw [endsOf_map (Plan.ends_convert demand)] at made
    rw [if_neg valued, endsOf_map (Plan.ends_convert demand)]
    exact fitEnds_narrows narrows p demand made

end FitContext

namespace Catalog

variable {c : Catalog} {value? narrow? : String → Option HostType}

theorem serves_iff {value type : HostType} :
    (FitContext.mk c.isSubtype value?).Serves value type ↔ ReflTransGen c.HasBase value type := by
  rw [FitContext.Serves, isSubtype_iff]
  constructor
  · rintro (rfl | ⟨-, derives⟩)
    · exact .refl
    · exact derives
  · intro derives
    by_cases same : type = value
    · exact .inl same
    · exact .inr ⟨Ne.symm same, derives⟩

theorem narrows (narrower : ∀ name,
      Option.Rel (ReflTransGen c.HasBase) (narrow? name) (value? name)) :
    (FitContext.mk c.isSubtype narrow?).Narrows ⟨c.isSubtype, value?⟩ := by
  refine ⟨fun name value typed => ?_, fun name value other type typed retyped serves => ?_⟩
  · have related := narrower name
    change value? name = some value at typed
    rw [typed] at related
    generalize narrowed : narrow? name = found at related
    cases related with
    | some => exact ⟨_, narrowed⟩
  · have related := narrower name
    change value? name = some value at typed
    change narrow? name = some other at retyped
    rw [typed, retyped] at related
    cases related with
    | some derives => exact serves_iff.mpr (derives.trans (serves_iff.mp serves))

/-- A pattern that fits a demand fits it where any of the non-terminals have types that derive from
the ones that they had, along as many declared bases as there may be. -/
theorem plan_narrower (narrower : ∀ name,
      Option.Rel (ReflTransGen c.HasBase) (narrow? name) (value? name))
    {p : Pattern} {demand : Demand} {plan : Plan}
    (made : FitContext.plan ⟨c.isSubtype, value?⟩ p demand = .ok plan) :
    ∃ other, FitContext.plan ⟨c.isSubtype, narrow?⟩ p demand = .ok other :=
  FitContext.isSome_endsOf.mp
    (FitContext.plan_narrows (narrows narrower) (FitContext.isSome_endsOf.mpr ⟨plan, made⟩))

def node : HostType := .named "Node"

def listing : HostType := .named "Nodes"

def batch : HostType := .named "Batch"

def batches : Catalog :=
  ⟨[(batch, { base := some listing }), (listing, { base := some node, listOf := some node })]⟩

def twoItems : Pattern :=
  .sequence (.nonTerminal "item") (.sequence (.discard (.terminal "Comma" false))
    (.nonTerminal "item"))

/-- Two nodes are put into lists one by one; two batches are joined as the lists that they are. -/
theorem plan_narrower_batches :
    (∀ name, Option.Rel (ReflTransGen batches.HasBase)
        (if name = "item" then some batch else none)
        (if name = "item" then some node else none)) ∧
      FitContext.plan ⟨batches.isSubtype, fun name => if name = "item" then some node else none⟩
          twoItems (.list listing (.named node)) =
        .ok (.collect (.concat [.single (.call "item" true none), .token "Comma" .nothing,
          .single (.call "item" true none)]) listing) ∧
      ∃ other, FitContext.plan
        ⟨batches.isSubtype, fun name => if name = "item" then some batch else none⟩
        twoItems (.list listing (.named node)) = .ok other := by
  have first : batches.HasBase batch listing := by
    rw [HasBase]
    cbv
  have second : batches.HasBase listing node := by
    rw [HasBase]
    cbv
  have derives : ReflTransGen batches.HasBase batch node := .head first (.single second)
  have narrower (name : String) : Option.Rel (ReflTransGen batches.HasBase)
      (if name = "item" then some batch else none)
      (if name = "item" then some node else none) := by
    split
    · exact .some derives
    · exact .none
  have made : FitContext.plan
      ⟨batches.isSubtype, fun name => if name = "item" then some node else none⟩
      twoItems (.list listing (.named node)) =
        .ok (.collect (.concat [.single (.call "item" true none), .token "Comma" .nothing,
          .single (.call "item" true none)]) listing) := by
    cbv
  exact ⟨narrower, made, plan_narrower narrower made⟩

end Catalog

end Pegsmith
