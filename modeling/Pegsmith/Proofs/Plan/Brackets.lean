import Pegsmith.Proofs.Plan.Ends
import Pegsmith.Proofs.Plan.Width

set_option autoImplicit false

namespace Pegsmith

/-- The second pattern is the first one with group brackets put around some of its parts. -/
inductive Pattern.Bracketed : Pattern → Pattern → Prop where
  | around {p q : Pattern} (inner : Bracketed p q) : Bracketed p (.group q)
  | terminal {kind : String} {decode : Bool} :
      Bracketed (.terminal kind decode) (.terminal kind decode)
  | nonTerminal {name : String} : Bracketed (.nonTerminal name) (.nonTerminal name)
  | sequence {p p' q q' : Pattern} (first : Bracketed p p') (second : Bracketed q q') :
      Bracketed (.sequence p q) (.sequence p' q')
  | choice {p p' q q' : Pattern} (first : Bracketed p p') (second : Bracketed q q') :
      Bracketed (.choice p q) (.choice p' q')
  | zeroOrMore {p p' : Pattern} (inner : Bracketed p p') :
      Bracketed (.zeroOrMore p) (.zeroOrMore p')
  | oneOrMore {p p' : Pattern} (inner : Bracketed p p') : Bracketed (.oneOrMore p) (.oneOrMore p')
  | optional {p p' : Pattern} (inner : Bracketed p p') : Bracketed (.optional p) (.optional p')
  | group {p p' : Pattern} (inner : Bracketed p p') : Bracketed (.group p) (.group p')
  | discard {p p' : Pattern} (inner : Bracketed p p') : Bracketed (.discard p) (.discard p')

namespace Demand

/-- What each of `n` items that carry a value is asked for and what is left for those behind them,
of which there is at least one. A pair gives its first part away, and a list that is joined is
asked of everyone. -/
def shares : Nat → Demand → Option (List Demand × Demand)
  | 0, demand => some ([], demand)
  | n + 1, .pair first rest => (shares n rest).map (Prod.map (first :: ·) id)
  | n + 1, .tuple _ members => shares (n + 1) members
  | n + 1, .list type item => some (List.replicate (n + 1) (.list type item), .list type item)
  | _ + 1, _ => none

theorem length_of_shares {n : Nat} {demand : Demand} {s : List Demand × Demand}
    (shared : shares n demand = some s) : s.1.length = n := by
  fun_induction shares n demand generalizing s with
  | case1 => cases shared; rfl
  | case2 n first rest ih =>
    obtain ⟨others, found, rfl⟩ := Option.map_eq_some_iff.mp shared
    exact congrArg (· + 1) (ih found)
  | case3 n type members ih => exact ih shared
  | case4 n type item => cases shared; exact List.length_replicate
  | case5 => cases shared

theorem shares_list (n : Nat) (type : HostType) (item : Demand) :
    shares n (.list type item) =
      some (List.replicate n (.list type item), .list type item) := by
  cases n <;> rfl

theorem shares_add (n k : Nat) (demand : Demand) :
    shares (n + k) demand =
      (shares n demand).bind fun s => (shares k s.2).map (Prod.map (s.1 ++ ·) id) := by
  fun_induction shares n demand with
  | case1 demand =>
    rw [Nat.zero_add, Option.bind_some]
    change _ = (shares k demand).map (Prod.map id id)
    rw [Prod.map_id, Option.map_id]
    rfl
  | case2 n first rest ih =>
    rw [Nat.succ_add, shares, ih, Option.map_bind, Option.bind_map]
    simp only [Function.comp_def, Option.map_map]
    rfl
  | case3 n type members ih => rw [Nat.succ_add, shares, ← ih, Nat.succ_add]
  | case4 n type item => simp [shares_list, List.replicate_add]
  | case5 demand n noPair noTuple noList =>
    rw [Nat.succ_add, shares]
    · rfl
    all_goals assumption

end Demand

namespace FitContext

variable {cx : FitContext}

def fitEnds (cx : FitContext) (p : Pattern) (demand : Demand) : Option (List Plan) :=
  endsOf (cx.fit p demand)

def fillEnds (cx : FitContext) : List Pattern → List Demand → Option (List Plan)
  | [], [] => some []
  | [], _ :: _ => none
  | p :: ps, ds =>
    if p.isVoid then both (cx.skimEnds false p) (fillEnds cx ps ds)
    else
      match ds with
      | [] => none
      | d :: ds => both (cx.fitEnds p d) (fillEnds cx ps ds)

theorem fillEnds_void {p : Pattern} (void : p.isVoid = true) (ps : List Pattern)
    (ds : List Demand) :
    cx.fillEnds (p :: ps) ds = both (cx.skimEnds false p) (cx.fillEnds ps ds) := by
  cases ds <;> simp only [fillEnds, void, if_true]

theorem fillEnds_valued {p : Pattern} (valued : p.isVoid = false) (ps : List Pattern)
    (d : Demand) (ds : List Demand) :
    cx.fillEnds (p :: ps) (d :: ds) = both (cx.fitEnds p d) (cx.fillEnds ps ds) := by
  simp only [fillEnds, valued, Bool.false_eq_true, if_false]

theorem fillEnds_append {ps : List Pattern} {ds : List Demand}
    (enough : ds.length = Pattern.valued ps) (qs : List Pattern) (es : List Demand) :
    cx.fillEnds (ps ++ qs) (ds ++ es) = both (cx.fillEnds ps ds) (cx.fillEnds qs es) := by
  induction ps generalizing ds with
  | nil =>
    rw [List.eq_nil_of_length_eq_zero enough]
    simp [fillEnds]
  | cons p ps ih =>
    rw [Pattern.valued_cons] at enough
    cases void : p.isVoid with
    | true =>
      rw [void, if_pos rfl, Nat.add_zero] at enough
      rw [List.cons_append, fillEnds_void void, fillEnds_void void, ih enough, both_assoc]
    | false =>
      rw [void, if_neg Bool.false_ne_true] at enough
      obtain ⟨d, ds, rfl⟩ := List.exists_cons_of_length_eq_add_one enough
      rw [List.cons_append, List.cons_append, fillEnds_valued void, fillEnds_valued void,
        ih (Nat.succ.inj enough), both_assoc]

theorem endsOfEach_matchEach {ps : List Pattern} (none : Pattern.valued ps = 0) :
    endsOfEach (cx.matchEach false ps) = cx.fillEnds ps [] := by
  induction ps with
  | nil => rw [matchEach]; rfl
  | cons p ps ih =>
    rw [Pattern.valued_cons] at none
    cases void : p.isVoid with
    | true =>
      rw [endsOfEach_matchEach_cons, (cx.skimmed false p).part, fillEnds_void void, ih (by omega)]
    | false =>
      rw [void, if_neg Bool.false_ne_true] at none
      cases none

theorem endsOfEach_fitEach (ps : List Pattern) (demand : Demand) :
    endsOfEach (cx.fitEach ps demand) =
      cx.fillEnds ps (List.replicate (Pattern.valued ps) demand) := by
  induction ps with
  | nil => rw [fitEach]; rfl
  | cons p ps ih =>
    rw [fitEach, Pattern.valued_cons]
    cases void : p.isVoid with
    | true =>
      rw [fillEnds_void void, if_pos rfl, if_pos rfl, Nat.add_zero, ← ih,
        ← (cx.skimmed false p).part]
      exact endsOfEach_cons _ _
    | false =>
      rw [if_neg Bool.false_ne_true, if_neg Bool.false_ne_true, List.replicate_succ,
        fillEnds_valued void, ← ih]
      exact endsOfEach_cons _ _

theorem fillEnds_splitValued {ps : List Pattern} (some : 0 < Pattern.valued ps) (d : Demand)
    (ds : List Demand) :
    cx.fillEnds ps (d :: ds) =
      both (cx.fillEnds (Pattern.splitValued ps).1 [d])
        (cx.fillEnds (Pattern.splitValued ps).2 ds) := by
  have first := (Pattern.valued_splitValued ps some).1
  rw [← fillEnds_append (by rw [first]; rfl), Pattern.splitValued_append]
  rfl

theorem endsOf_pair (x y : Except FitError Plan) (first rest : Demand) :
    endsOf (do
      let head ← x
      let tail ← y
      return .sequence [convert first head, convert rest tail]) = both (endsOf x) (endsOf y) := by
  cases x with
  | error e => rfl
  | ok head =>
    cases y with
    | error e => rfl
    | ok tail =>
      change some (Plan.ends (.sequence [convert first head, convert rest tail])) = _
      rw [Plan.ends, Plan.endsEach, Plan.endsEach, Plan.endsEach, Plan.ends_convert,
        Plan.ends_convert, List.append_nil]
      rfl

theorem endsOf_fitItems_void {ps : List Pattern} (none : Pattern.valued ps = 0)
    (demand : Demand) :
    endsOf (cx.fitItems ps demand) =
      if demand = .empty then cx.fillEnds ps [] else Option.none := by
  rw [fitItems.eq_def]
  split
  · by_cases empty : demand = .empty
    · rw [if_pos empty, if_pos empty, endsOf_mapEach (fun _ => by rw [Plan.ends]),
        endsOfEach_matchEach none]
    · rw [if_neg empty, if_neg empty]
      rfl
  · next one => exact absurd (one.symm.trans none) Nat.one_ne_zero
  · next notNone _ => exact absurd none notNone

theorem endsOf_fitItems_one {ps : List Pattern} (one : Pattern.valued ps = 1)
    (demand : Demand) : endsOf (cx.fitItems ps demand) = cx.fillEnds ps [demand] := by
  rw [fitItems.eq_def]
  split
  · next none => exact absurd (one.symm.trans none) Nat.one_ne_zero
  · refine (endsOf_mapEach fun _ => by rw [Plan.ends]).trans ?_
    rw [endsOfEach_fitEach, one]
    rfl
  · next _ notOne => exact absurd one notOne

theorem endsOf_fitItems {n : Nat} {ps : List Pattern} (count : Pattern.valued ps = n + 1)
    (demand : Demand) :
    endsOf (cx.fitItems ps demand) =
      (demand.shares n).bind fun s => cx.fillEnds ps (s.1 ++ [s.2]) := by
  cases n with
  | zero =>
    rw [endsOf_fitItems_one count, Demand.shares]
    rfl
  | succ n =>
    have several : 1 < Pattern.valued ps := by omega
    induction demand generalizing n ps with
    | pair first rest _ ih =>
      obtain ⟨front, back⟩ := Pattern.valued_splitValued ps (Nat.lt_trans Nat.zero_lt_one several)
      have tail : endsOf (cx.fitItems (Pattern.splitValued ps).2 rest) =
          (rest.shares n).bind fun s => cx.fillEnds (Pattern.splitValued ps).2 (s.1 ++ [s.2]) := by
        cases n with
        | zero =>
          rw [endsOf_fitItems_one (by omega), Demand.shares]
          rfl
        | succ n => exact ih n (by omega) (by omega)
      rw [fitItems_of_several several, endsOf_pair, endsOf_fitItems_one front, tail, Demand.shares]
      cases rest.shares n with
      | none => exact both_none _
      | some s => exact (fillEnds_splitValued (Nat.lt_trans Nat.zero_lt_one several) ..).symm
    | tuple type members ih =>
      rw [fitItems_of_several several, endsOf_map (fun _ => by rw [Plan.ends]), ih n count several,
        Demand.shares]
    | list type item =>
      rw [fitItems_of_several several, endsOf_mapEach (fun _ => by rw [Plan.ends]),
        endsOfEach_fitEach, count, Demand.shares_list, List.replicate_succ']
      rfl
    | empty | rawToken | text | tokenKind | named | optional =>
      rw [fitItems_of_several several]
      rfl

theorem fitEnds_empty (p : Pattern) : cx.fitEnds p .empty = cx.skimEnds false p := by
  rw [fitEnds, fit.eq_def, if_pos rfl, (cx.skimmed false p).part]

theorem valued_single (p : Pattern) : Pattern.valued [p] = if p.isVoid then 0 else 1 := by
  rw [Pattern.valued_cons, Pattern.valued_nil, Nat.zero_add]

theorem valued_items_eq_zero {p : Pattern} : Pattern.valued p.items = 0 ↔ p.isVoid = true := by
  induction p with
  | sequence p q _ ih =>
    rw [Pattern.isVoid_sequence, Pattern.items, Pattern.valued_cons, Bool.and_eq_true, ← ih]
    cases p.isVoid <;> simp
  | _ => simp [Pattern.items, valued_single]

theorem fillEnds_items_nil {p : Pattern} (void : p.isVoid = true) :
    cx.fillEnds p.items [] = cx.skimEnds false p := by
  rw [← endsOfEach_matchEach (valued_items_eq_zero.mpr void), (cx.skimmed false p).items]

theorem fitEach_empty (ps : List Pattern) : cx.fitEach ps .empty = cx.matchEach false ps := by
  induction ps with
  | nil => rw [fitEach, matchEach]
  | cons p ps ih =>
    rw [fitEach, matchEach, ih, fit.eq_def, if_pos rfl, ite_self]

theorem endsOfEach_matchEach_of_valued {ps : List Pattern} (some : 0 < Pattern.valued ps) :
    endsOfEach (cx.matchEach false ps) = none := by
  induction ps with
  | nil => cases some
  | cons p ps ih =>
    rw [Pattern.valued_cons] at some
    rw [endsOfEach_matchEach_cons]
    cases void : p.isVoid with
    | true =>
      rw [void] at some
      rw [ih some, both_none]
    | false => rw [endsOf_matchPart_of_valued void, none_both]

theorem endsOf_fitItems_empty (ps : List Pattern) :
    endsOf (cx.fitItems ps .empty) = endsOfEach (cx.matchEach false ps) := by
  match count : Pattern.valued ps with
  | 0 => rw [endsOf_fitItems_void count, if_pos rfl, endsOfEach_matchEach count]
  | 1 =>
    rw [endsOf_fitItems_one count, ← fitEach_empty, endsOfEach_fitEach, count]
    rfl
  | n + 2 =>
    rw [fitItems_of_several (by omega), endsOfEach_matchEach_of_valued (by omega)]
    rfl

theorem fitEnds_sequence (p q : Pattern) (demand : Demand) :
    cx.fitEnds (.sequence p q) demand =
      endsOf (cx.fitItems (Pattern.sequence p q).items demand) := by
  by_cases empty : demand = .empty
  · rw [empty, fitEnds_empty, endsOf_fitItems_empty, (cx.skimmed false _).items]
  · rw [fitEnds, fit, if_neg empty]

theorem endsOf_fitItems_items (ps : List Pattern) (q : Pattern) (demand : Demand) :
    endsOf (cx.fitItems (ps ++ q.items) demand) = endsOf (cx.fitItems (ps ++ [q]) demand) := by
  cases q with
  | sequence a b =>
    generalize made : Pattern.sequence a b = q
    have alone (d : Demand) : cx.fitEnds q d = endsOf (cx.fitItems q.items d) := by
      rw [← made, fitEnds_sequence]
    have count (qs : List Pattern) :
        Pattern.valued (ps ++ qs) = Pattern.valued ps + Pattern.valued qs := List.countP_append
    cases void : q.isVoid with
    | true =>
      -- The same items carry values on both sides, so the demand is shared out in the same way.
      have none := valued_items_eq_zero.mpr void
      have single : Pattern.valued [q] = 0 := by rw [valued_single, void]; rfl
      have same (ds : List Demand) (enough : ds.length = Pattern.valued ps) :
          cx.fillEnds (ps ++ q.items) ds = cx.fillEnds (ps ++ [q]) ds := by
        rw [← List.append_nil ds, fillEnds_append enough, fillEnds_append enough,
          fillEnds_items_nil void, fillEnds_void void, fillEnds, both_nil]
      match known : Pattern.valued ps with
      | 0 =>
        rw [endsOf_fitItems_void (by rw [count, known, none]),
          endsOf_fitItems_void (by rw [count, known, single]), same [] known.symm]
      | n + 1 =>
        rw [endsOf_fitItems (n := n) (by rw [count, known, none]),
          endsOf_fitItems (n := n) (by rw [count, known, single])]
        refine Option.bind_congr fun s shared => same _ ?_
        rw [List.length_append, Demand.length_of_shares shared, known]
        rfl
    | false =>
      -- What is left for the one item is shared out again among those that it is made of.
      obtain ⟨k, several⟩ : ∃ k, Pattern.valued q.items = k + 1 := by
        refine Nat.exists_eq_succ_of_ne_zero fun none => ?_
        rw [valued_items_eq_zero.mp none] at void
        cases void
      have single : Pattern.valued [q] = 1 := by rw [valued_single, void]; rfl
      rw [endsOf_fitItems (n := Pattern.valued ps + k) (by rw [count, several, Nat.add_assoc]),
        endsOf_fitItems (n := Pattern.valued ps) (by rw [count, single]), Demand.shares_add,
        Option.bind_assoc]
      refine Option.bind_congr fun s shared => ?_
      have enough := Demand.length_of_shares shared
      rw [fillEnds_append enough, fillEnds_valued void, fillEnds, both_nil, alone,
        endsOf_fitItems several]
      cases s.2.shares k with
      | none => exact (both_none _).symm
      | some t =>
        change cx.fillEnds _ (s.1 ++ t.1 ++ [t.2]) = both _ (cx.fillEnds _ (t.1 ++ [t.2]))
        rw [List.append_assoc, fillEnds_append enough]
  | _ => rfl

structure Alike (cx : FitContext) (p q : Pattern) : Prop where
  void : p.isVoid = q.isVoid
  skim : ∀ discarded, cx.skimEnds discarded p = cx.skimEnds discarded q
  fit : ∀ demand, cx.fitEnds p demand = cx.fitEnds q demand

theorem fillEnds_congr {ps qs : List Pattern} (alike : List.Forall₂ cx.Alike ps qs)
    (ds : List Demand) : cx.fillEnds ps ds = cx.fillEnds qs ds := by
  induction alike generalizing ds with
  | nil => rfl
  | @cons p q ps qs first _ ih =>
    cases void : p.isVoid with
    | true => rw [fillEnds_void void, fillEnds_void (first.void ▸ void), first.skim, ih]
    | false =>
      cases ds with
      | nil => simp only [fillEnds, void, ← first.void, Bool.false_eq_true, if_false]
      | cons d ds =>
        rw [fillEnds_valued void, fillEnds_valued (first.void ▸ void), first.fit, ih]

theorem valued_congr {ps qs : List Pattern} (alike : List.Forall₂ cx.Alike ps qs) :
    Pattern.valued ps = Pattern.valued qs := by
  induction alike with
  | nil => rfl
  | cons first _ ih => rw [Pattern.valued_cons, Pattern.valued_cons, first.void, ih]

theorem endsOf_fitItems_congr {ps qs : List Pattern} (alike : List.Forall₂ cx.Alike ps qs)
    (demand : Demand) : endsOf (cx.fitItems ps demand) = endsOf (cx.fitItems qs demand) := by
  have same := valued_congr alike
  match count : Pattern.valued ps with
  | 0 =>
    rw [endsOf_fitItems_void count, endsOf_fitItems_void (same ▸ count), fillEnds_congr alike]
  | n + 1 =>
    rw [endsOf_fitItems count, endsOf_fitItems (same ▸ count)]
    exact Option.bind_congr fun s _ => fillEnds_congr alike _

theorem fitEnds_pair (p q : Pattern) (demand : Demand) :
    cx.fitEnds (.sequence p q) demand = endsOf (cx.fitItems [p, q] demand) := by
  rw [fitEnds_sequence]
  exact endsOf_fitItems_items [p] q demand

theorem endsOfEach_fitBranches_cons (p : Pattern) (ps : List Pattern) (demand : Demand) :
    endsOfEach (cx.fitBranches (p :: ps) demand) =
      both (cx.fitEnds p demand) (endsOfEach (cx.fitBranches ps demand)) := by
  rw [fitBranches, endsOfEach_cons, fitEnds]

theorem endsOfEach_fitBranches_single (p : Pattern) (demand : Demand) :
    endsOfEach (cx.fitBranches [p] demand) = cx.fitEnds p demand := by
  rw [endsOfEach_fitBranches_cons, fitBranches, endsOfEach_nil, both_nil]

theorem fitEnds_branches (p q : Pattern) {demand : Demand} (filled : demand ≠ .empty) :
    cx.fitEnds (.choice p q) demand =
      endsOfEach (cx.fitBranches (Pattern.choice p q).branches demand) := by
  rw [fitEnds, fit, if_neg filled]
  cases made : cx.fitBranches (Pattern.choice p q).branches demand with
  | error e => rfl
  | ok plans =>
    have even := Plan.all_firstArity (fits_of_fitBranches made).arity
    change endsOf (if plans.all (·.arity == Plan.firstArity plans) = true then _ else _) = _
    rw [if_pos even]
    change some (Plan.ends (.choice plans)) = _
    rw [Plan.ends]
    rfl

theorem fitEnds_choice (p q : Pattern) (demand : Demand) :
    cx.fitEnds (.choice p q) demand = both (cx.fitEnds p demand) (cx.fitEnds q demand) := by
  by_cases empty : demand = .empty
  · rw [empty, fitEnds_empty, fitEnds_empty, fitEnds_empty, skimEnds]
  · rw [fitEnds_branches p q empty, Pattern.branches, endsOfEach_fitBranches_cons]
    refine congrArg (both _) ?_
    cases q with
    | choice r s => exact (fitEnds_branches r s empty).symm
    | _ => exact endsOfEach_fitBranches_single _ _

def loopEnds (cx : FitContext) (p : Pattern) : Demand → Option (List Plan)
  | .empty => cx.skimEnds false p
  | .list _ item => cx.fitEnds p item
  | _ => none

theorem fitEnds_loop (p : Pattern) (demand : Demand) :
    cx.fitEnds (.zeroOrMore p) demand = cx.loopEnds p demand ∧
      cx.fitEnds (.oneOrMore p) demand = cx.loopEnds p demand := by
  cases demand with
  | empty => exact ⟨fitEnds_empty _, fitEnds_empty _⟩
  | list type item =>
    constructor <;> rw [fitEnds, fit, if_neg (by simp),
      endsOf_map (fun _ => by rw [Plan.ends, Plan.ends_convert]), loopEnds, fitEnds]
  | _ => constructor <;> rw [fitEnds, fit, if_neg (by simp)] <;> simp [loopEnds]

theorem fitEnds_optional (p : Pattern) (demand : Demand) :
    cx.fitEnds (.optional p) demand =
      match demand with
      | .optional _ value => cx.fitEnds p value
      | demand => cx.fitEnds p demand := by
  cases demand with
  | empty => simp only [fitEnds_empty, skimEnds]
  | optional type value =>
    rw [fitEnds, fit, if_neg (by simp), endsOf_map (fun _ => by rw [Plan.ends, Plan.ends_convert])]
    rfl
  | _ =>
    rw [fitEnds, fit, if_neg (by simp)]
    · exact endsOf_map fun _ => by rw [Plan.ends]
    · simp

theorem fitEnds_group (p : Pattern) (demand : Demand) :
    cx.fitEnds (.group p) demand = cx.fitEnds p demand := by
  by_cases empty : demand = .empty
  · rw [empty, fitEnds_empty, fitEnds_empty, skimEnds]
  · rw [fitEnds, fit, if_neg empty, fitEnds]

theorem fitEnds_discard (p : Pattern) (demand : Demand) :
    cx.fitEnds (.discard p) demand = if demand = .empty then cx.skimEnds true p else none := by
  by_cases empty : demand = .empty
  · rw [empty, fitEnds_empty, skimEnds, if_pos rfl]
  · rw [fitEnds, fit, if_neg empty, if_neg empty]
    rfl

theorem alike_refl (p : Pattern) : cx.Alike p p :=
  ⟨rfl, fun _ => rfl, fun _ => rfl⟩

theorem alike_of_bracketed (cx : FitContext) {p q : Pattern} (bracketed : p.Bracketed q) :
    cx.Alike p q := by
  induction bracketed with
  | around _ ih =>
    exact ⟨ih.void, ih.skim, fun demand => (ih.fit demand).trans (fitEnds_group _ demand).symm⟩
  | terminal | nonTerminal => exact alike_refl _
  | @sequence p p' q q' _ _ first second =>
    refine ⟨?_, fun discarded => ?_, fun demand => ?_⟩
    · rw [Pattern.isVoid_sequence, Pattern.isVoid_sequence, first.void, second.void]
    · rw [skimEnds, skimEnds, first.skim, second.skim]
    · rw [fitEnds_pair, fitEnds_pair]
      exact endsOf_fitItems_congr (.cons first (.cons second .nil)) demand
  | choice _ _ first second =>
    refine ⟨first.void, fun discarded => ?_, fun demand => ?_⟩
    · rw [skimEnds, skimEnds, first.skim, second.skim]
    · rw [fitEnds_choice, fitEnds_choice, first.fit, second.fit]
  | @zeroOrMore p p' _ ih | @oneOrMore p p' _ ih =>
    refine ⟨ih.void, ih.skim, fun demand => ?_⟩
    have same : cx.loopEnds p demand = cx.loopEnds p' demand := by
      cases demand <;> simp only [loopEnds, ih.skim, ih.fit]
    simp only [fitEnds_loop, same]
  | optional _ ih =>
    refine ⟨ih.void, ih.skim, fun demand => ?_⟩
    rw [fitEnds_optional, fitEnds_optional]
    cases demand <;> exact ih.fit _
  | group _ ih =>
    refine ⟨ih.void, ih.skim, fun demand => ?_⟩
    rw [fitEnds_group, fitEnds_group, ih.fit]
  | discard _ ih =>
    refine ⟨rfl, fun _ => ih.skim true, fun demand => ?_⟩
    rw [fitEnds_discard, fitEnds_discard, ih.skim]

theorem endsOf_plan_congr {p q : Pattern} (alike : cx.Alike p q) (demand : Demand) :
    endsOf (cx.plan p demand) = endsOf (cx.plan q demand) := by
  rw [plan, plan, alike.void]
  split
  · rfl
  · rw [endsOf_map (Plan.ends_convert demand), endsOf_map (Plan.ends_convert demand)]
    exact alike.fit demand

/-- Whatever is asked for, a pattern has a plan exactly if it has one with group brackets put around
some of its parts, and both plans have as many values and the same ends in the same order. -/
theorem plan_bracketed {p q : Pattern} (bracketed : p.Bracketed q) (cx : FitContext)
    (demand : Demand) :
    ((∃ plan, cx.plan p demand = .ok plan) ↔ ∃ plan, cx.plan q demand = .ok plan) ∧
    ∀ plan other, cx.plan p demand = .ok plan → cx.plan q demand = .ok other →
      plan.arity = other.arity ∧ plan.ends = other.ends := by
  have same := endsOf_plan_congr (alike_of_bracketed cx bracketed) demand
  constructor
  · rw [← isSome_endsOf, ← isSome_endsOf, same]
  · intro plan other made remade
    rw [made, remade] at same
    exact ⟨(arity_of_plan made).trans (arity_of_plan remade).symm, Option.some.inj same⟩

def commaNumber : Pattern :=
  .sequence (.discard (.terminal "Comma" false)) (.nonTerminal "number")

def numbersOnly : FitContext :=
  ⟨fun _ _ => false, fun _ => some (.named "u32")⟩

def numberPair : Demand :=
  .tuple (.tuple [.named "u32", .named "u32"] false)
    (.pair (.named (.named "u32")) (.named (.named "u32")))

theorem plan_bracketed_commaNumber :
    (Pattern.sequence (.nonTerminal "number") commaNumber).Bracketed
        (.sequence (.nonTerminal "number") (.group commaNumber)) ∧
      ∃ plan other,
        numbersOnly.plan (.sequence (.nonTerminal "number") commaNumber) numberPair = .ok plan ∧
        numbersOnly.plan (.sequence (.nonTerminal "number") (.group commaNumber)) numberPair =
          .ok other ∧
        plan.arity = other.arity ∧ plan.ends = other.ends := by
  have bracketed : (Pattern.sequence (.nonTerminal "number") commaNumber).Bracketed
      (.sequence (.nonTerminal "number") (.group commaNumber)) :=
    .sequence .nonTerminal (.around (.sequence (.discard .terminal) .nonTerminal))
  obtain ⟨alike, same⟩ := plan_bracketed bracketed numbersOnly numberPair
  obtain ⟨plan, made⟩ : ∃ plan, numbersOnly.plan
      (.sequence (.nonTerminal "number") commaNumber) numberPair = .ok plan := by
    refine ⟨.pack (.sequence [.sequence [.call "number" true none],
      .sequence [.token "Comma" .nothing, .call "number" true none]]), ?_⟩
    cbv
  obtain ⟨other, remade⟩ := alike.mp ⟨plan, made⟩
  exact ⟨bracketed, plan, other, made, remade, same plan other made remade⟩

end FitContext

end Pegsmith
