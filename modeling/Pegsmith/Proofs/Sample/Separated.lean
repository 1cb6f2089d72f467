import Pegsmith.Proofs.Parsing.Outcomes
import Pegsmith.Proofs.Sample.Evaluation
import Pegsmith.Proofs.Sample.Splitting

set_option autoImplicit false

namespace Pegsmith.Sample

open Parsing
open Arithmetic (Lexeme Spells)

variable {σ α β γ : Type}

inductive Separated (item : List Lexeme → β → Prop) (separator : String) :
    List Lexeme → List β → Prop where
  | one {xs : List Lexeme} {b : β} (first : item xs b) : Separated item separator xs [b]
  | more {xs ys : List Lexeme} {y : Lexeme} {b : β} {bs : List β} (first : item xs b)
      (between : y.kind = separator) (rest : Separated item separator ys bs) :
      Separated item separator (xs ++ y :: ys) (b :: bs)

variable {item : List Lexeme → β → Prop} {separator : String} {xs ys : List Lexeme} {bs : List β}

theorem isChain_append_cons {R : Lexeme → Lexeme → Prop} {y : Lexeme} (before : xs.IsChain R)
    (behind : ys.IsChain R) (free : ∀ x, R x y ∧ R y x) : (xs ++ y :: ys).IsChain R := by
  refine List.isChain_append.mpr ⟨before, List.isChain_cons.mpr ⟨fun x _ => (free x).2, behind⟩, ?_⟩
  rintro x _ _ ⟨⟩
  exact (free x).1

theorem Separated.isChain {R : Lexeme → Lexeme → Prop} (items : Separated item separator xs bs)
    (each : ∀ xs b, item xs b → xs.IsChain R)
    (free : ∀ x y : Lexeme, y.kind = separator → R x y ∧ R y x) : xs.IsChain R := by
  induction items with
  | one first => exact each _ _ first
  | more first between _ ih =>
    exact isChain_append_cons (each _ _ first) ih fun x => free x _ between

def LastBreak (xs : List Lexeme) : Prop :=
  xs = [] ∨ ∃ x : Lexeme, x.kind = "NewLine" ∧ xs = [x]

theorem LastBreak.isChain_append {R : Lexeme → Lexeme → Prop} (final : LastBreak ys)
    (before : xs.IsChain R) (free : ∀ x y : Lexeme, y.kind = "NewLine" → R x y ∧ R y x) :
    (xs ++ ys).IsChain R := by
  rcases final with rfl | ⟨y, broken, rfl⟩
  · rwa [List.append_nil]
  · exact isChain_append_cons before .nil fun x => free x y broken

theorem exists_separated {lexer : Lexer} {write : β → List Char} {between : List Char} {y : Lexeme}
    (each : ∀ b ∈ bs, ∃ xs, SplitsBy lexer (write b) xs ∧ item xs b)
    (gap : SplitsBy lexer between [y]) (kind : y.kind = separator) (filled : bs ≠ []) :
    ∃ xs, SplitsBy lexer (between.intercalate (bs.map write)) xs ∧
      Separated item separator xs bs := by
  induction bs with
  | nil => exact absurd rfl filled
  | cons b bs ih =>
    rw [List.forall_mem_cons] at each
    obtain ⟨xs, splits, first⟩ := each.1
    by_cases last : bs = []
    · subst last
      exact ⟨xs, by simpa using splits, .one first⟩
    · obtain ⟨ys, others, rest⟩ := ih each.2 last
      refine ⟨xs ++ y :: ys, ?_, .more first kind rest⟩
      obtain ⟨c, cs, rfl⟩ := List.exists_cons_of_ne_nil last
      rw [List.map_cons, List.map_cons, List.intercalate_cons_cons, List.append_assoc]
      exact splits.append (gap.append others)

variable {lexer : Lexer} {text : List Char} {call : String → Run σ (Option (Value α))}
  {plan : Plan} {plans : List Plan} {f : β → Except Fault γ} {g : γ → Value α}
  {ends : Tape → Prop} {t u v w : Tape}

def ReadsItems (lexer : Lexer) (text : List Char) (call : String → Run σ (Option (Value α)))
    (plan : Plan) (item : List Lexeme → β → Prop) (ends : Tape → Prop)
    (f : β → Except Fault γ) (g : γ → Value α) : Prop :=
  ∀ xs b t u, item xs b → t.Within text 0 → Spells lexer t xs u → ends u →
    Comes t (evaluate lexer call plan) ((f b).map fun c => some [g c]) u

theorem map_mapM_cons {δ : Type} {h : γ × List γ → δ} {k : List γ → δ}
    (same : ∀ c cs, h (c, cs) = k (c :: cs)) (b : β) (bs : List β) :
    (do return (← f b, ← bs.mapM f)).map h = ((b :: bs).mapM f).map k := by
  rw [List.mapM_cons]
  cases f b with
  | error fault => rfl
  | ok c =>
    cases bs.mapM f with
    | error fault => rfl
    | ok cs => exact congrArg Except.ok (same c cs)

theorem comes_items (each : ReadsItems lexer text call plan item ends f g)
    (inner : ∀ token t u, lexer.next t = (.ok (some token), u) → token.kind = separator → ends t)
    (items : Separated item separator xs bs) (within : t.Within text 0)
    (spells : Spells lexer t xs u) (last : ends u)
    (stops : Gives u (evaluate lexer call (.sequence [skip separator, plan])) none w)
    (same : w.text = text) :
    ∃ b rest mid, bs = b :: rest ∧ mid.Within text t.offset ∧
      Comes t (evaluate lexer call plan) ((f b).map fun c => some [g c]) mid ∧
      ∀ n, mid.remainder.length < n →
        Comes mid (rounds (evaluate lexer call (.sequence [skip separator, plan])) n)
          ((rest.mapM f).map (List.map fun c => [g c])) u := by
  -- Each round takes a separator and the item behind it, and the round behind the last item fails.
  induction items generalizing t with
  | @one xs b first =>
    have inside := spells.within within
    refine ⟨b, [], u, rfl, inside, each xs b t u first within spells last, fun n enough => ?_⟩
    obtain ⟨n, rfl⟩ : ∃ k, n = k + 1 := ⟨n - 1, by omega⟩
    exact (Gives.no_round inside same stops).comes
  | @more xs ys y b bs first between _ ih =>
    obtain ⟨place, front, back⟩ := Spells.append_iff.mp spells
    obtain ⟨token, next, called, rfl, others⟩ := Spells.cons_iff.mp back
    have inside := front.within within
    have onward := (Lexer.Takes.one called).within inside
    have moved : place.offset < next.offset :=
      (Lexer.Takes.one called).offset_lt inside (by simp)
    obtain ⟨c, rest, mid, rfl, later, second, others⟩ :=
      ih (onward.of_le (Nat.zero_le _)) others
    refine ⟨b, c :: rest, place, rfl, inside,
      each xs b t place first within front (inner token place next called between),
      fun n enough => ?_⟩
    have further : place.offset < mid.offset := Nat.lt_of_lt_of_le moved later.behind
    have fewer := inside.remainder_lt (later.of_le (by have := inside.behind; omega)) further
    obtain ⟨n, rfl⟩ : ∃ k, n = k + 1 := ⟨n - 1, by omega⟩
    have body := Comes.sequence (Comes.part_behind (Gives.token called between .nothing)
      (Comes.part_ahead second .none_left))
    have whole := body.round (by omega) (others n (by omega))
    rwa [map_mapM_cons (k := List.map fun c => [g c]) fun _ _ => rfl] at whole

theorem comes_list (each : ReadsItems lexer text call plan item ends f g)
    (inner : ∀ token t u, lexer.next t = (.ok (some token), u) → token.kind = separator → ends t)
    (items : Separated item separator xs bs) (within : t.Within text 0)
    (spells : Spells lexer t xs u) (last : ends u)
    (stops : Gives u (evaluate lexer call (.sequence [skip separator, plan])) none w)
    (same : w.text = text) (silent : Gives u (evaluateParts lexer call plans) (some []) v) :
    Comes t (evaluate lexer call (.concat (.single plan ::
        .loop (.sequence [skip separator, plan]) false true :: plans)))
      ((bs.mapM f).map fun cs => some [Value.list (cs.map g)]) v := by
  obtain ⟨b, rest, mid, rfl, inside, first, others⟩ :=
    comes_items each inner items within spells last stops same
  have single : Comes t (evaluate lexer call (.single plan))
      ((f b).map fun c => some [Value.list [g c]]) mid := by
    rw [evaluate]
    exact first.oneValue fun _ => rfl
  have looped : Comes mid (evaluateParts lexer call
      (.loop (.sequence [skip separator, plan]) false true :: plans))
      ((rest.mapM f).map fun cs => some [Value.list (cs.map g)]) v := by
    have many := Comes.loop (others _ (Nat.lt_add_of_pos_right (by omega)))
    refine Comes.part_ahead ?_ silent
    rw [evaluate]
    simpa [Value.together, Function.comp_def] using many
  rw [evaluate, ← map_mapM_cons (f := f)
    (h := fun both => some [Value.list (g both.1 :: both.2.map g)]) fun _ _ => rfl]
  apply (single.part looped).oneValue
  exact fun _ => by simp [Value.concat?, Value.items?]

theorem gives_separated (ends : Tape → Prop) (g : β → Value α)
    (each : ∀ xs b t u, item xs b → t.Within text 0 → Spells lexer t xs u → ends u →
      Gives t (evaluate lexer call plan) (some [g b]) u)
    (inner : ∀ token t u, lexer.next t = (.ok (some token), u) → token.kind = separator → ends t)
    (items : Separated item separator xs bs) (within : t.Within text 0)
    (spells : Spells lexer t xs u) (last : ends u)
    (stops : Gives u (evaluate lexer call (.sequence [skip separator, plan])) none w)
    (same : w.text = text) :
    Gives t (evaluate lexer call (separated plan separator)) (some [.list (bs.map g)]) u := by
  have reads : ReadsItems lexer text call plan item ends (fun b => .ok b) g :=
    fun xs b t u first within spells last => (each xs b t u first within spells last).comes
  have comes := comes_list reads inner items within spells last stops same .none_left
  have all : bs.mapM (fun b => Except.ok b) = (.ok bs : Except Fault _) :=
    List.mapM_pure.trans (congrArg Except.ok bs.map_id)
  rw [all] at comes
  exact comes.gives

theorem eq_of_spells_nil (spells : Spells lexer t [] u) : t = u := by
  obtain ⟨tokens, takes, none⟩ := spells
  obtain rfl := List.map_eq_nil_iff.mp none
  cases takes
  rfl

theorem gives_no_item {plan : Plan} (refuses : lexer.Refuses separator t) :
    Gives t (evaluate lexer call (.sequence [skip separator, plan])) none t :=
  .sequence (.missing (.refused refuses .nothing))

theorem gives_no_list {plan : Plan} (missing : Gives t (evaluate lexer call plan) none u) :
    Gives t (evaluate lexer call (separated plan separator)) none u := by
  have single : Gives t (evaluate lexer call (.single plan)) none u := by
    rw [evaluate]
    exact .no_value missing
  rw [separated, evaluate]
  exact .no_value (.missing single)

theorem gives_lastBreak {plan : Plan} {start : Nat} (final : LastBreak xs)
    (within : t.Within text start) (spells : Spells lexer t xs u)
    (last : lexer.next u = (.ok none, v)) (missing : Gives u (evaluate lexer call plan) none u) :
    (∀ kind, kind ≠ "NewLine" → lexer.Refuses kind t) ∧
      Gives t (evaluate lexer call (.optional (skip "NewLine") .nothing)) (some []) u ∧
      ∃ w, w.text = text ∧
        Gives t (evaluate lexer call (.sequence [skip "NewLine", plan])) none w := by
  rcases final with rfl | ⟨_, broken, rfl⟩
  · obtain rfl := eq_of_spells_nil spells
    have no_break := Lexer.refuses_of_end last "NewLine"
    exact ⟨fun kind _ => Lexer.refuses_of_end last kind,
      .optional_missing within within.same (.refused no_break .nothing),
      t, within.same, gives_no_item no_break⟩
  · obtain ⟨token, called, rfl⟩ := Spells.singleton_iff.mp spells
    have kind : token.kind = "NewLine" := broken
    have breaks : Gives t (evaluate lexer call (skip "NewLine")) (some []) u :=
      .token called kind .nothing
    exact ⟨fun other apart => Lexer.refuses_of_next called (kind ▸ Ne.symm apart),
      .optional breaks, u, ((Lexer.Takes.one called).within within).same,
      .sequence (.part breaks (.missing missing))⟩

theorem mapM_map_eq_some {f : α → Option β} {g : β → α} (inverse : ∀ b, f (g b) = some b)
    (bs : List β) : (bs.map g).mapM f = some bs := by
  have same : f ∘ g = fun b => pure (id b) := funext inverse
  rw [List.mapM_map, same, List.mapM_pure, List.map_id]
  rfl

theorem members?_map (sort : α → Option β) (g : β → α) (inverse : ∀ b, sort (g b) = some b)
    (bs : List β) : members? sort (bs.map fun b => .own (g b)) = some bs :=
  mapM_map_eq_some (g := fun b => Value.own (g b)) inverse bs

variable {calls : String → List Token → α → Prop} {ts : List Token} {vs : List (Value α)}
  {g : β → Value α}

theorem separated_of_rounds
    (each : ∀ ts vs, plan.Spells calls ts vs → ∃ b, item (ts.map Lexeme.ofToken) b ∧ vs = [g b])
    {rounds : List (List Token × List (Value α))}
    (all : ∀ r ∈ rounds, (Plan.sequence [skip separator, plan]).Spells calls r.1 r.2) {b : β}
    (first : item (ts.map Lexeme.ofToken) b) :
    ∃ bs, Separated item separator ((ts ++ rounds.flatMap Prod.fst).map Lexeme.ofToken) (b :: bs) ∧
      rounds.map (fun r => Value.together r.2) = bs.map g := by
  induction rounds generalizing ts b with
  | nil => exact ⟨[], by simpa using .one first, rfl⟩
  | cons r rounds ih =>
    rw [List.forall_mem_cons] at all
    obtain ⟨token, rest, between, tokens, others⟩ := spells_skip_cons all.1
    obtain ⟨c, next, values⟩ := each rest r.2 (spells_one others)
    obtain ⟨bs, items, same⟩ := ih all.2 next
    refine ⟨c :: bs, ?_, ?_⟩
    · rw [List.flatMap_cons, tokens, List.map_append, List.cons_append, List.map_cons]
      exact .more first between items
    · rw [List.map_cons, List.map_cons, same, values]
      rfl

theorem separated_of_spells
    (each : ∀ ts vs, plan.Spells calls ts vs → ∃ b, item (ts.map Lexeme.ofToken) b ∧ vs = [g b])
    (spells : (separated plan separator).Spells calls ts vs) :
    ∃ bs, Separated item separator (ts.map Lexeme.ofToken) bs ∧ vs = [.list (bs.map g)] := by
  obtain ⟨us, items, parts, joined, rfl⟩ := spells
  obtain ⟨front, _, _, _, ⟨us, one, rfl⟩, others, rfl, rfl⟩ := parts
  obtain ⟨_, _, _, _, ⟨rounds, all, -, rfl, rfl⟩, ⟨rfl, rfl⟩, rfl, rfl⟩ := others
  obtain ⟨b, first, rfl⟩ := each front us one
  obtain ⟨bs, listed, same⟩ := separated_of_rounds each all first
  refine ⟨b :: bs, by rwa [List.append_nil], ?_⟩
  have whole : items = g b :: rounds.map (fun r => Value.together r.2) := by
    simpa [Value.concat?, Value.items?, Value.together, List.mapM_cons] using joined.symm
  rw [whole, same, List.map_cons]

end Pegsmith.Sample
