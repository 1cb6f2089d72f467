import Mathlib
import Pegsmith.Proofs.Grammar.Endless
import Pegsmith.Proofs.Plan.Width

set_option autoImplicit false

namespace Pegsmith

/-- The constructors declared for a type that build something new: they take parameters, and not
only a value of the type itself. -/
def Catalog.builders (c : Catalog) (type : HostType) : List Constructor :=
  ((c.find? type).getD {}).constructors.filter fun ctor => ctor.params ≠ [] ∧ ctor.params ≠ [type]

theorem Catalog.constructors_eq (c : Catalog) (type : HostType) (arity : Nat) :
    c.constructors type arity = (c.builders type).filter (·.params.length = arity) := by
  rw [constructors, builders, List.filter_filter]
  apply List.filter_congr
  intro ctor _
  cases ctor.params <;> simp [bne, Bool.and_comm, Bool.beq_eq_decide_eq]

/-- As many parameters as the pattern has parts with a value come first, then fewer before more. -/
def Pattern.rank (p : Pattern) (arity : Nat) : Nat :=
  if arity = p.naturalArity then 0 else arity

namespace Grammar

theorem mem_arities {p : Pattern} {n : Nat} (some : 0 < n) (most : n ≤ p.keptLeaves) :
    n ∈ arities p := by
  by_cases natural : n = p.naturalArity
  · simp [arities, natural]
  · refine List.mem_cons_of_mem _ (List.mem_filter.mpr ⟨List.mem_map.mpr ⟨n - 1, ?_, ?_⟩, ?_⟩)
    · rw [List.mem_range]
      omega
    · omega
    · simpa using natural

theorem pairwise_rank_arities (p : Pattern) :
    (arities p).Pairwise fun n m => p.rank n < p.rank m := by
  have increasing : ((List.range p.keptLeaves).map (· + 1)).Pairwise (· < ·) :=
    List.pairwise_map.mpr (List.pairwise_lt_range.imp Nat.succ_lt_succ)
  refine List.pairwise_cons.mpr ⟨fun m member => ?_, ?_⟩
  · obtain ⟨listed, other⟩ := List.mem_filter.mp member
    obtain ⟨k, -, rfl⟩ := List.mem_map.mp listed
    simp_all [Pattern.rank]
  · refine (increasing.filter _).imp_of_mem fun left right less => ?_
    have first := (List.mem_filter.mp left).2
    have second := (List.mem_filter.mp right).2
    simp_all [Pattern.rank]

theorem split_of_keys {α : Type} {key : α → Nat} {keys : List Nat} {xs front back : List α} {x : α}
    (split : (keys.flatMap fun k => xs.filter (key · = k)) = front ++ x :: back) :
    ∃ earlier later before after, keys = earlier ++ key x :: later ∧ xs = before ++ x :: after ∧
      (∀ y ∈ xs, key y ∈ earlier → y ∈ front) ∧ ∀ y ∈ before, key y = key x → y ∈ front := by
  induction keys generalizing front with
  | nil => simp at split
  | cons k keys ih =>
    rw [List.flatMap_cons, List.append_eq_append_iff] at split
    rcases split with ⟨rest, rfl, split⟩ | ⟨rest, here, split⟩
    · obtain ⟨earlier, later, before, after, rfl, rfl, earlierFirst, sameFirst⟩ := ih split
      refine ⟨k :: earlier, later, before, after, rfl, rfl, fun y listed smaller => ?_,
        fun y listed same => List.mem_append_right _ (sameFirst y listed same)⟩
      rcases List.mem_cons.mp smaller with same | smaller
      · exact List.mem_append_left _ (List.mem_filter.mpr ⟨listed, by simpa using same⟩)
      · exact List.mem_append_right _ (earlierFirst y listed smaller)
    · cases rest with
      | nil =>
        -- The member is the first of the keys that follow, so nothing has been gone through here.
        rw [List.nil_append] at split
        rw [List.append_nil] at here
        obtain ⟨earlier, later, before, after, rfl, rfl, earlierFirst, sameFirst⟩ :=
          @ih [] split.symm
        refine ⟨k :: earlier, later, before, after, rfl, rfl, fun y listed smaller => ?_,
          fun y listed same => absurd (sameFirst y listed same) List.not_mem_nil⟩
        rcases List.mem_cons.mp smaller with same | smaller
        · exact here ▸ List.mem_filter.mpr ⟨listed, by simpa using same⟩
        · exact absurd (earlierFirst y listed smaller) List.not_mem_nil
      | cons y rest =>
        obtain ⟨rfl, -⟩ := List.cons.inj split
        obtain ⟨first, second, rfl, firstHere, secondHere⟩ := List.filter_eq_append_iff.mp here
        obtain ⟨skipped, after, rfl, others, same, -⟩ := List.filter_eq_cons_iff.mp secondHere
        refine ⟨[], keys, first ++ skipped, after, ?_, by simp, fun _ _ none => ?_,
          fun z listed equal => ?_⟩
        · simpa using (of_decide_eq_true same).symm
        · exact absurd none List.not_mem_nil
        · rw [← firstHere, List.mem_filter]
          rcases List.mem_append.mp listed with member | member
          · exact ⟨member, by rw [equal, same]⟩
          · exact absurd (equal ▸ same) (others z member)

variable {g : Grammar} {types : TypeSystem} {a : Alternative} {p : Pattern}

theorem refused_of_firstFitting {targets : List Target} {e : String}
    (failed : g.firstFitting types a targets = .ok (.error e)) :
    ∀ t ∈ targets, ∃ e, g.planFor types a t = .ok (.error e) := by
  induction targets generalizing e with
  | nil => simp
  | cons target rest ih =>
    rw [firstFitting] at failed
    obtain ⟨result, made, failed⟩ := ok_of_bind failed
    cases result with
    | ok plan => cases failed
    | error e' =>
      obtain ⟨others, later, failed⟩ := ok_of_bind failed
      cases others with
      | ok found => cases failed
      | error e'' => exact List.forall_mem_cons.mpr ⟨⟨e', made⟩, ih later⟩

variable {c : Catalog}

theorem split_of_tried {targets : List Target}
    (endless : Endless c g.tokenType (g.tried c.types a targets)) :
    ∃ before t after, targets = before ++ t :: after ∧
      (∃ u ∈ t.params, c.LeadsToLoop g.tokenType u) ∧
      ∀ other ∈ before, ∃ e, g.planFor c.types a other = .ok (.error e) := by
  induction targets with
  | nil => simp [Endless, tried] at endless
  | cons target rest ih =>
    rw [tried] at endless
    split at endless
    · next e refused =>
      rcases (List.exists_mem_cons_iff ..).mp endless with loops | later
      · exact ⟨[], target, rest, rfl, loops, by simp⟩
      · obtain ⟨before, t, after, rfl, loops, none⟩ := ih later
        exact ⟨target :: before, t, after, rfl, loops, List.forall_mem_cons.mpr ⟨⟨e, refused⟩, none⟩⟩
    · exact ⟨[], target, rest, rfl, by simpa [Endless] using endless, by simp⟩

theorem endless_tried {before after : List Target} {t : Target}
    (loops : ∃ u ∈ t.params, c.LeadsToLoop g.tokenType u)
    (none : ∀ other ∈ before, ∀ plan, g.planFor c.types a other ≠ .ok (.ok plan)) :
    Endless c g.tokenType (g.tried c.types a (before ++ t :: after)) := by
  induction before with
  | nil =>
    rw [List.nil_append, tried]
    split <;> exact ⟨t, List.mem_cons_self, loops⟩
  | cons target before ih =>
    obtain ⟨here, others⟩ := List.forall_mem_cons.mp none
    rw [List.cons_append, tried]
    -- A target that is not refused does not fit, so it is endless itself.
    split
    · obtain ⟨other, member, loops⟩ := ih others
      exact ⟨other, List.mem_cons_of_mem _ member, loops⟩
    · next unrefused =>
      cases made : g.planFor c.types a target with
      | error f => exact ⟨target, List.mem_cons_self, ((overflows_planFor target).error_iff.mp made).2⟩
      | ok result =>
        cases result with
        | ok plan => exact absurd made (here plan)
        | error e => exact absurd made (unrefused e)

/-- A constructor takes the values of a pattern: there is a plan for its parameters, with one value
for each of them. -/
def Takes (g : Grammar) (types : TypeSystem) (p : Pattern) (ctor : Constructor) (plan : Plan) :
    Prop :=
  ∃ demand, Demand.ofParams types g.tokenType ctor.params = .ok demand ∧
    (g.fitContext types).plan p demand = .ok plan ∧ plan.arity = ctor.params.length

theorem planFor_takes_iff {type : HostType} {ctor : Constructor} {plan : Plan} :
    g.planFor types a ⟨.constructor ctor.path, ctor.params, type⟩ = .ok (.ok plan) ↔
      g.Takes types a.pattern ctor plan := by
  rw [planFor_eq_ok_iff, Takes]
  refine exists_congr fun demand => and_congr_right fun _ => ?_
  rw [planAs]
  cases made : (g.fitContext types).plan a.pattern demand with
  | error e => simp
  | ok plan' =>
    dsimp only
    split
    · next same =>
      constructor
      · rintro ⟨⟩
        exact ⟨rfl, same⟩
      · rintro ⟨⟨⟩, -⟩
        rfl
    · next differ =>
      constructor
      · rintro ⟨⟩
      · rintro ⟨⟨⟩, same⟩
        exact absurd same differ

theorem Takes.length_le {ctor : Constructor} {plan : Plan} (takes : g.Takes types p ctor plan) :
    ctor.params.length ≤ p.keptLeaves := by
  obtain ⟨demand, -, made, arity⟩ := takes
  rw [← arity, FitContext.arity_of_plan made]
  exact FitContext.width_le_of_plan made

theorem Takes.unique {ctor : Constructor} {plan plan' : Plan} (takes : g.Takes types p ctor plan)
    (takes' : g.Takes types p ctor plan') : plan = plan' := by
  obtain ⟨demand, read, made, -⟩ := takes
  obtain ⟨demand', read', made', -⟩ := takes'
  obtain rfl := Except.ok.inj (read.symm.trans read')
  exact Except.ok.inj (made.symm.trans made')

/-- No constructor that fits goes before this one: none has a smaller rank, and none of its own rank
is declared before it. -/
def Unpreceded (g : Grammar) (c : Catalog) (type : HostType) (p : Pattern) (ctor : Constructor) :
    Prop :=
  ∃ before after, c.builders type = before ++ ctor :: after ∧
    (∀ other ∈ before, ∀ plan, g.Takes c.types p other plan →
      p.rank ctor.params.length < p.rank other.params.length) ∧
    ∀ other ∈ after, ∀ plan, g.Takes c.types p other plan →
      p.rank ctor.params.length ≤ p.rank other.params.length

structure Picks (g : Grammar) (c : Catalog) (type : HostType) (p : Pattern) (ctor : Constructor)
    (plan : Plan) : Prop where
  takes : g.Takes c.types p ctor plan
  first : g.Unpreceded c type p ctor

/-- The turn of a constructor with an endless parameter comes before that of any that fits. -/
def Stalls (g : Grammar) (c : Catalog) (type : HostType) (p : Pattern) : Prop :=
  ∃ ctor : Constructor, ctor.params.length ∈ arities p ∧
    (∃ t ∈ ctor.params, c.LeadsToLoop g.tokenType t) ∧ g.Unpreceded c type p ctor

variable {type : HostType} {ctor : Constructor} {plan : Plan}

theorem Unpreceded.listed (first : g.Unpreceded c type p ctor) : ctor ∈ c.builders type := by
  obtain ⟨before, after, declared, -⟩ := first
  rw [declared]
  exact List.mem_append_right _ List.mem_cons_self

theorem Picks.unique {ctor' : Constructor} {plan' : Plan} (picks : g.Picks c type p ctor plan)
    (picks' : g.Picks c type p ctor' plan') : ctor = ctor' ∧ plan = plan' := by
  obtain ⟨before, after, listed, smaller, least⟩ := picks.first
  obtain ⟨before', after', listed', smaller', least'⟩ := picks'.first
  -- Of two places in the declaration, the later one would have to have a smaller rank.
  have same : ctor = ctor' := by
    rcases List.append_eq_append_iff.mp (listed.symm.trans listed') with
      ⟨between, front, rest⟩ | ⟨between, front, rest⟩
    · cases between with
      | nil => exact (List.cons.inj rest).1
      | cons other between =>
        obtain ⟨rfl, rfl⟩ := List.cons.inj rest
        have := smaller' ctor (by simp [front]) plan picks.takes
        have := least ctor' (by simp) plan' picks'.takes
        omega
    · cases between with
      | nil => exact (List.cons.inj rest).1.symm
      | cons other between =>
        obtain ⟨rfl, rfl⟩ := List.cons.inj rest
        have := smaller ctor' (by simp [front]) plan' picks'.takes
        have := least' ctor (by simp) plan picks.takes
        omega
  subst same
  exact ⟨rfl, picks.takes.unique picks'.takes⟩

def byArity (c : Catalog) (type : HostType) (p : Pattern) : List Constructor :=
  (arities p).flatMap fun n => (c.builders type).filter (·.params.length = n)

theorem mem_byArity_iff :
    ctor ∈ byArity c type p ↔ ctor ∈ c.builders type ∧ ctor.params.length ∈ arities p := by
  simp [byArity, and_comm]

theorem Takes.mem_byArity (takes : g.Takes types p ctor plan) (listed : ctor ∈ c.builders type) :
    ctor ∈ byArity c type p := by
  have filled : ctor.params ≠ [] := (of_decide_eq_true (List.mem_filter.mp listed).2).1
  exact mem_byArity_iff.mpr ⟨listed, mem_arities (List.length_pos_iff.mpr filled) takes.length_le⟩

theorem unpreceded_of_split {front back : List Constructor}
    (tried : byArity c type p = front ++ ctor :: back)
    (none : ∀ other ∈ front, ∀ plan, ¬g.Takes c.types p other plan) :
    g.Unpreceded c type p ctor := by
  obtain ⟨earlier, later, before, after, keys, declared, earlierFirst, sameFirst⟩ :=
    split_of_keys tried
  have ranks := pairwise_rank_arities p
  rw [keys, List.pairwise_append, List.pairwise_cons] at ranks
  obtain ⟨-, ⟨laterRanks, -⟩, -⟩ := ranks
  -- A constructor that fits and was not gone through has the rank of this one or a greater one.
  have others (other : Constructor) (listed : other ∈ c.builders type) (plan' : Plan)
      (takes' : g.Takes c.types p other plan') :
      other.params.length = ctor.params.length ∨
        p.rank ctor.params.length < p.rank other.params.length := by
    have member := (mem_byArity_iff.mp (takes'.mem_byArity listed)).2
    rw [keys, List.mem_append, List.mem_cons] at member
    rcases member with smaller | same | greater
    · exact absurd takes' (none other (earlierFirst other listed smaller) plan')
    · exact .inl same
    · exact .inr (laterRanks _ greater)
  refine ⟨before, after, declared, fun other member plan' takes' => ?_,
    fun other member plan' takes' => ?_⟩
  · have listed : other ∈ c.builders type := declared ▸ List.mem_append_left _ member
    refine (others other listed plan' takes').resolve_left fun same => ?_
    exact none other (sameFirst other member same) plan' takes'
  · have listed : other ∈ c.builders type :=
      declared ▸ List.mem_append_right _ (List.mem_cons_of_mem _ member)
    rcases others other listed plan' takes' with same | less
    · exact (congrArg p.rank same).ge
    · exact Nat.le_of_lt less

theorem split_of_unpreceded (first : g.Unpreceded c type p ctor)
    (arity : ctor.params.length ∈ arities p) :
    ∃ front back, byArity c type p = front ++ ctor :: back ∧
      ∀ other ∈ front, ∀ plan, ¬g.Takes c.types p other plan := by
  obtain ⟨before, after, declared, smaller, least⟩ := first
  obtain ⟨earlier, later, keys⟩ := List.append_of_mem arity
  have ranks := pairwise_rank_arities p
  rw [keys, List.pairwise_append] at ranks
  obtain ⟨-, -, earlierRanks⟩ := ranks
  refine ⟨(earlier.flatMap fun n => (c.builders type).filter (·.params.length = n)) ++
      before.filter (·.params.length = ctor.params.length),
    after.filter (·.params.length = ctor.params.length) ++
      later.flatMap fun n => (c.builders type).filter (·.params.length = n), ?_, ?_⟩
  · rw [byArity, keys, List.flatMap_append, List.flatMap_cons]
    conv_lhs => arg 2; arg 1; rw [declared]
    simp
  · intro other member plan' takes
    -- What has its turn before this one has a smaller rank, or the same one and a place before it.
    rcases List.mem_append.mp member with early | same
    · obtain ⟨n, among, here⟩ := List.mem_flatMap.mp early
      obtain ⟨listed, rfl⟩ : other ∈ c.builders type ∧ other.params.length = n := by
        simpa using here
      have less := earlierRanks _ among _ List.mem_cons_self
      rw [declared, List.mem_append, List.mem_cons] at listed
      rcases listed with member | rfl | member
      · exact Nat.lt_asymm less (smaller other member plan' takes)
      · exact Nat.lt_irrefl _ less
      · exact Nat.not_lt.mpr (least other member plan' takes) less
    · obtain ⟨member, equal⟩ : other ∈ before ∧ other.params.length = ctor.params.length := by
        simpa using same
      have less := smaller other member plan' takes
      rw [equal] at less
      exact Nat.lt_irrefl _ less

theorem candidates_eq (c : Catalog) (type : HostType) (p : Pattern) :
    candidates c.types type p =
      (byArity c type p).map fun ctor => ⟨.constructor ctor.path, ctor.params, type⟩ := by
  rw [candidates, byArity, List.map_flatMap]
  congr 1
  funext n
  exact congrArg _ (c.constructors_eq type n)

variable {location : Location} {text : String}

theorem lowerAlternative_construct {result : Except Diagnostic (Target × Plan)}
    (lowered : g.lowerAlternative types ⟨location, text, p, .construct type⟩ = .ok result) :
    (candidates types type p = [] ∧ ∃ d, result = .error d ∧ d.location = location) ∨
      (∃ found, g.firstFitting types ⟨location, text, p, .construct type⟩ (candidates types type p) =
        .ok (.ok found) ∧ result = .ok found) ∨
      ∃ e, g.firstFitting types ⟨location, text, p, .construct type⟩ (candidates types type p) =
        .ok (.error e) ∧ ∃ d, result = .error d ∧ d.location = location := by
  rw [lowerAlternative] at lowered
  dsimp only at lowered
  split at lowered
  · next none =>
    cases lowered
    exact .inl ⟨none, _, rfl, rfl⟩
  · obtain ⟨fitting, found, rfl⟩ := ok_of_map lowered
    cases fitting with
    | ok found' => exact .inr (.inl ⟨found', found, rfl⟩)
    | error e => exact .inr (.inr ⟨e, found, _, rfl, rfl⟩)

theorem picks_of_lowerAlternative {t : Target}
    (lowered :
      g.lowerAlternative c.types ⟨location, text, p, .construct type⟩ = .ok (.ok (t, plan))) :
    ∃ ctor, g.Picks c type p ctor plan ∧ t = ⟨.constructor ctor.path, ctor.params, type⟩ := by
  obtain ⟨-, _, ⟨⟩, -⟩ | ⟨_, found, ⟨⟩⟩ | ⟨_, -, _, ⟨⟩, -⟩ := lowerAlternative_construct lowered
  obtain ⟨before, after, targets, made, none⟩ := first_of_firstFitting found
  rw [candidates_eq, List.map_eq_append_iff] at targets
  obtain ⟨front, rest, tried, rfl, behind⟩ := targets
  obtain ⟨ctor, back, rfl, rfl, -⟩ := List.map_eq_cons_iff.mp behind
  refine ⟨ctor, ⟨planFor_takes_iff.mp made, unpreceded_of_split tried ?_⟩, rfl⟩
  intro other member plan' takes
  obtain ⟨e, refused⟩ := none _ (List.mem_map_of_mem member)
  cases refused.symm.trans (planFor_takes_iff.mpr takes)

theorem not_takes_of_lowerAlternative {d : Diagnostic}
    (failed : g.lowerAlternative c.types ⟨location, text, p, .construct type⟩ = .ok (.error d))
    (listed : ctor ∈ c.builders type) : ¬g.Takes c.types p ctor plan := by
  intro takes
  have candidate :
      (⟨.constructor ctor.path, ctor.params, type⟩ : Target) ∈ candidates c.types type p := by
    rw [candidates_eq]
    exact List.mem_map_of_mem (takes.mem_byArity listed)
  obtain ⟨none, -⟩ | ⟨_, -, ⟨⟩⟩ | ⟨e, found, -⟩ := lowerAlternative_construct failed
  · rw [none] at candidate
    cases candidate
  · obtain ⟨e, refused⟩ := refused_of_firstFitting found _ candidate
    cases refused.symm.trans (planFor_takes_iff.mpr takes)

theorem overflows_construct (location : Location) (text : String) :
    OverflowsIff (g.lowerAlternative c.types ⟨location, text, p, .construct type⟩)
      (g.Stalls c type p) := by
  refine (overflows_lowerAlternative _).congr ?_
  change Endless c g.tokenType (g.tried c.types _ (candidates c.types type p)) ↔ _
  rw [candidates_eq]
  constructor
  · intro endless
    obtain ⟨before, t, after, targets, loops, none⟩ := split_of_tried endless
    obtain ⟨front, rest, tried, rfl, behind⟩ := List.map_eq_append_iff.mp targets
    obtain ⟨ctor, back, rfl, rfl, -⟩ := List.map_eq_cons_iff.mp behind
    have member : ctor ∈ byArity c type p := by simp [tried]
    refine ⟨ctor, (mem_byArity_iff.mp member).2, loops, unpreceded_of_split tried ?_⟩
    intro other member plan' takes
    obtain ⟨e, refused⟩ := none _ (List.mem_map_of_mem member)
    cases refused.symm.trans (planFor_takes_iff.mpr takes)
  · rintro ⟨ctor, arity, loops, first⟩
    obtain ⟨front, back, tried, none⟩ := split_of_unpreceded first arity
    rw [tried, List.map_append, List.map_cons]
    refine endless_tried loops fun other member plan' made => ?_
    obtain ⟨ctor', listed, rfl⟩ := List.mem_map.mp member
    exact none ctor' listed plan' (planFor_takes_iff.mp made)

def complaints (g : Grammar) (types : TypeSystem) (a : Alternative) : List Diagnostic :=
  match g.lowerAlternative types a with
  | .ok (.error d) => [d]
  | _ => []

theorem problems_of_lowerInto {value : HostType} {as : List Alternative}
    {results : List (Except (List Diagnostic) Lowered.Alternative)}
    (lowered : List.Forall₂ (fun a r => g.lowerInto types value a = .ok r) as results) :
    problems results = as.flatMap (g.complaints types) := by
  refine (flatMap_eq_of_forall₂ lowered fun a r made => ?_).symm
  obtain ⟨result, made, same⟩ := ok_of_bind made
  rw [complaints, made]
  cases result with
  | ok found =>
    cases same
    rfl
  | error d =>
    cases same
    rfl

theorem map_fst_valued (g : Grammar) :
    g.valued.map Prod.fst = g.nonTerminals.filter fun n => (g.value? n.name).isSome := by
  rw [valued]
  induction g.nonTerminals with
  | nil => rfl
  | cons n ns ih =>
    cases given : g.value? n.name with
    | none => simp [given, ih]
    | some value => simp [given, ih]

theorem diagnostics_lower {l : LoweredGrammar} {ds : List Diagnostic}
    (lowered : g.lower types = .ok (l, ds)) :
    ds = (g.nonTerminals.filter fun n => (g.value? n.name).isSome).flatMap fun n =>
      n.alternatives.flatMap (g.complaints types) := by
  obtain ⟨results, each, same⟩ := ok_of_map lowered
  cases same
  rw [← map_fst_valued, List.flatMap_map]
  refine (flatMap_eq_of_forall₂ (mapM_eq_ok_iff.mp each) fun n r made => ?_).symm
  obtain ⟨alternatives, each, rfl⟩ := ok_of_map made
  exact (problems_of_lowerInto (mapM_eq_ok_iff.mp each)).symm

theorem construct_ends_iff :
    (∃ r, g.lowerAlternative c.types ⟨location, text, p, .construct type⟩ = .ok r) ↔
      ¬g.Stalls c type p :=
  (overflows_construct location text).exists_ok_iff

theorem construct_eq_ok_iff {t : Target} :
    g.lowerAlternative c.types ⟨location, text, p, .construct type⟩ = .ok (.ok (t, plan)) ↔
      ¬g.Stalls c type p ∧
        ∃ ctor, g.Picks c type p ctor plan ∧ t = ⟨.constructor ctor.path, ctor.params, type⟩ := by
  constructor
  · exact fun lowered => ⟨construct_ends_iff.mp ⟨_, lowered⟩, picks_of_lowerAlternative lowered⟩
  · rintro ⟨ends, ctor, picks, rfl⟩
    obtain ⟨result, lowered⟩ := construct_ends_iff.mpr ends
    cases result with
    | error d => exact absurd picks.takes (not_takes_of_lowerAlternative lowered picks.first.listed)
    | ok found =>
      obtain ⟨ctor', picks', target⟩ := picks_of_lowerAlternative (t := found.1) lowered
      obtain ⟨rfl, same⟩ := picks.unique picks'
      rw [lowered, same, ← target]

theorem exists_complaint_iff :
    (∃ d, g.lowerAlternative c.types ⟨location, text, p, .construct type⟩ = .ok (.error d)) ↔
      ¬g.Stalls c type p ∧ ¬∃ ctor ∈ c.builders type, ∃ plan, g.Takes c.types p ctor plan := by
  constructor
  · rintro ⟨d, failed⟩
    refine ⟨construct_ends_iff.mp ⟨_, failed⟩, ?_⟩
    rintro ⟨ctor, listed, plan, takes⟩
    exact not_takes_of_lowerAlternative failed listed takes
  · rintro ⟨ends, none⟩
    obtain ⟨result, lowered⟩ := construct_ends_iff.mpr ends
    cases result with
    | error d => exact ⟨d, lowered⟩
    | ok found =>
      obtain ⟨ctor, picks, -⟩ := picks_of_lowerAlternative (t := found.1) lowered
      exact absurd ⟨ctor, picks.first.listed, found.2, picks.takes⟩ none

theorem exists_target_iff :
    (∃ t plan,
      g.lowerAlternative c.types ⟨location, text, p, .construct type⟩ = .ok (.ok (t, plan))) ↔
        ¬g.Stalls c type p ∧ ∃ ctor ∈ c.builders type, ∃ plan, g.Takes c.types p ctor plan := by
  constructor
  · rintro ⟨t, plan, lowered⟩
    obtain ⟨ends, ctor, picks, -⟩ := construct_eq_ok_iff.mp lowered
    exact ⟨ends, ctor, picks.first.listed, plan, picks.takes⟩
  · rintro ⟨ends, ctor, listed, plan, takes⟩
    obtain ⟨result, lowered⟩ := construct_ends_iff.mpr ends
    cases result with
    | error d => exact absurd takes (not_takes_of_lowerAlternative lowered listed)
    | ok found => exact ⟨found.1, found.2, lowered⟩

/-- Looking for a constructor of a type uses up the stack exactly if the turn of one with an endless
parameter comes before that of any that fits. Otherwise the alternative gets the constructor of least
rank that fits, the first of that rank that is declared, and gets one whenever any fits; and if none
does there is exactly one complaint about it. A constructor that fits has no more parameters than the
pattern has leaves that keep their value. -/
theorem lowerAlternative_picks (g : Grammar) (c : Catalog) (location : Location) (text : String)
    (p : Pattern) (type : HostType) :
    (∀ f, g.lowerAlternative c.types ⟨location, text, p, .construct type⟩ = .error f ↔
      f = .stackOverflow ∧ g.Stalls c type p) ∧
    (∀ (t : Target) (plan : Plan),
      g.lowerAlternative c.types ⟨location, text, p, .construct type⟩ = .ok (.ok (t, plan)) ↔
        ¬g.Stalls c type p ∧
          ∃ ctor, g.Picks c type p ctor plan ∧ t = ⟨.constructor ctor.path, ctor.params, type⟩) ∧
    ((∃ t plan,
      g.lowerAlternative c.types ⟨location, text, p, .construct type⟩ = .ok (.ok (t, plan))) ↔
        ¬g.Stalls c type p ∧ ∃ ctor ∈ c.builders type, ∃ plan, g.Takes c.types p ctor plan) ∧
    ((∃ d, g.lowerAlternative c.types ⟨location, text, p, .construct type⟩ = .ok (.error d)) ↔
      ¬g.Stalls c type p ∧ ¬∃ ctor ∈ c.builders type, ∃ plan, g.Takes c.types p ctor plan) ∧
    (∀ d, g.lowerAlternative c.types ⟨location, text, p, .construct type⟩ = .ok (.error d) →
      g.complaints c.types ⟨location, text, p, .construct type⟩ = [d] ∧ d.location = location ∧
        d.isError = true) ∧
    (∀ l ds, g.lower c.types = .ok (l, ds) →
      ds = (g.nonTerminals.filter fun n => (g.value? n.name).isSome).flatMap fun n =>
        n.alternatives.flatMap (g.complaints c.types)) ∧
    ∀ (ctor : Constructor) (plan : Plan), g.Takes c.types p ctor plan →
      ctor.params.length ≤ p.keptLeaves := by
  refine ⟨fun f => (overflows_construct location text).error_iff, fun t plan => construct_eq_ok_iff,
    exists_target_iff, exists_complaint_iff,
    fun d failed => ⟨by rw [complaints, failed], ?_, lowerAlternative_severe failed⟩,
    fun l ds => diagnostics_lower, fun ctor plan => Takes.length_le⟩
  obtain ⟨-, _, ⟨⟩, here⟩ | ⟨_, -, ⟨⟩⟩ | ⟨_, -, _, ⟨⟩, here⟩ := lowerAlternative_construct failed
  · exact here
  · exact here

theorem lowerAlternative_shadowed :
    let g : Grammar := { name := "Bad", tokenType := .named "Kind" }
    let c := (Catalog.ofDescription { types := shadowed }).1
    let p : Pattern := .terminal "Digit" false
    (∃ ctor ∈ c.builders (.named "T"), ∃ plan, g.Takes c.types p ctor plan) ∧
      g.lowerAlternative c.types ⟨⟨"Bad.value", none⟩, "Digit", p, .construct (.named "T")⟩ =
        .error .stackOverflow := by
  intro g c p
  let token : HostType := .path "" "Token" (.angle false [.lifetime "_"] false)
  have listed : ⟨"T::b", [token]⟩ ∈ c.builders (.named "T") := by decide +kernel
  have valued : p.isVoid = false := rfl
  have takes : g.Takes c.types p ⟨"T::b", [token]⟩ (.token "Digit" .token) := by
    refine ⟨.rawToken token, by decide +kernel, ?_, rfl⟩
    simp [FitContext.plan, FitContext.fit, FitContext.fitTerminal, FitContext.convert, valued, p]
  refine ⟨⟨_, listed, _, takes⟩, ?_⟩
  have fails : (g.lowerAlternative c.types
      ⟨⟨"Bad.value", none⟩, "Digit", p, .construct (.named "T")⟩).isOk = false := by decide +kernel
  cases made : g.lowerAlternative c.types
      ⟨⟨"Bad.value", none⟩, "Digit", p, .construct (.named "T")⟩ with
  | ok result =>
    rw [made] at fails
    cases fails
  | error f => rw [((overflows_lowerAlternative _).error_iff.mp made).1]

end Grammar

end Pegsmith
