import Mathlib
import Pegsmith.Proofs.Source.Lexing
import Pegsmith.Proofs.Source.Phrases
import Pegsmith.Proofs.Source.Readers

set_option autoImplicit false

namespace Pegsmith.Source

open Reader TypeReader

inductive TypeAhead : List Tree → Prop where
  | reserved {w : String} (ts : List Tree)
      (known : w ∈ ["super", "Self", "crate", "for", "fn", "unsafe", "extern", "dyn", "impl"]) :
      TypeAhead (.word w :: ts)
  | named {w : String} {ts : List Tree} (known : isName w ∨ w ∈ ["self", "_"])
      (apart : Ahead.op ":" ts = Ahead.op "::" ts) : TypeAhead (.word w :: ts)
  | mark {c : Char} (joint : Bool) (ts : List Tree) (known : c ∈ ['&', '*', '!']) :
      TypeAhead (.mark c joint :: ts)
  | angle (joint : Bool) {ts : List Tree} (apart : Ahead.op "=" ts = false) :
      TypeAhead (.mark '<' joint :: ts)
  | root (joint : Bool) (ts : List Tree) : TypeAhead (.mark ':' true :: .mark ':' joint :: ts)
  | group {d : Delimiter} (bare : d ≠ .brace) (inner ts : List Tree) :
      TypeAhead (.group d inner :: ts)

@[simp] theorem Ahead.mark_leaf (cs : List Char) (l : Leaf) (ts : List Tree) :
    Ahead.mark cs (l.tree :: ts) = false := by
  cases l <;> match cs with
    | [] | [_] | _ :: _ :: _ => rfl

@[simp] theorem Ahead.mark_group (cs : List Char) (d : Delimiter) (inner ts : List Tree) :
    Ahead.mark cs (.group d inner :: ts) = false := by
  match cs with
  | [] | [_] | _ :: _ :: _ => rfl

theorem Ahead.op_colons_of_not_colon {ts : List Tree} (apart : Ahead.op ":" ts = false) :
    Ahead.op "::" ts = false := by
  match ts with
  | [] | .word _ :: _ | .lifetime _ :: _ | .literal _ _ :: _ | .group _ _ :: _ =>
    simp [Ahead.op, Ahead.mark]
  | .mark _ _ :: _ => simp_all [Ahead.op]

theorem Spells.typeAhead {ps : List Piece} {ts rest : List Tree} (spells : Spells ps ts)
    (starts : startsType ps) (apart : Ahead.op ":" rest = false) : TypeAhead (ts ++ rest) := by
  -- One piece tells, but for a name and an angle bracket, which may be the start of something else.
  cases spells with
  | nil => cases starts
  | @leaf l ps ts more =>
    cases l with
    | lifetime _ => cases starts
    | literal _ _ => cases starts
    | word w =>
      unfold startsType at starts
      rw [Bool.or_eq_true, Bool.and_eq_true] at starts
      obtain known | ⟨known, next⟩ := starts
      · exact .reserved _ (List.contains_iff_mem.mp known)
      · refine .named (by simpa using known) ?_
        cases more with
        | nil => exact apart.trans (Ahead.op_colons_of_not_colon apart).symm
        | @mark c =>
          have other : (':' == c) = false := beq_false_of_ne (Ne.symm (bne_iff_ne.mp next))
          simp only [Ahead.op, List.append_eq, List.cons_append, String.reduceToList,
            Ahead.mark_single, Ahead.mark_several, other, Bool.and_false, Bool.false_and]
        | leaf | group => simp [Ahead.op]
        | pair known =>
          simp only [typePairs, List.mem_cons, Prod.mk.injEq, List.not_mem_nil, or_false] at known
          obtain ⟨rfl, rfl⟩ | ⟨rfl, rfl⟩ := known <;> simp [Ahead.op]
  | @mark c joint ps ts more =>
    unfold startsType at starts
    rw [Bool.or_eq_true, Bool.and_eq_true] at starts
    obtain known | ⟨known, next⟩ := starts
    · exact .mark joint _ (List.contains_iff_mem.mp known)
    · rw [eq_of_beq known]
      refine .angle joint ?_
      cases more with
      | nil => cases next
      | @mark d =>
        have other : '=' ≠ d := Ne.symm (bne_iff_ne.mp next)
        simp [Ahead.op, other]
      | leaf | group => simp [Ahead.op]
      | pair known =>
        simp only [typePairs, List.mem_cons, Prod.mk.injEq, List.not_mem_nil, or_false] at known
        obtain ⟨rfl, rfl⟩ | ⟨rfl, rfl⟩ := known <;> simp [Ahead.op]
  | @pair c d joint ps ts known more =>
    rw [startsType, Bool.and_eq_true] at starts
    rw [eq_of_beq starts.1, eq_of_beq starts.2]
    exact .root joint _
  | @group d inner ps is ts inside more =>
    exact .group (by simpa [startsType] using starts) is _

theorem ne_of_isName {w k : String} (name : isName w) (keyword : k ∈ keywords) : w ≠ k := by
  rintro rfl
  rw [isName, List.contains_iff_mem.mpr keyword] at name
  cases name

namespace TypeAhead

variable {ts : List Tree} (ahead : TypeAhead ts)
include ahead

theorem ne_nil : ts ≠ [] := by
  cases ahead <;> exact List.cons_ne_nil _ _

theorem not_lifetime : Ahead.lifetime ts = false := by
  cases ahead <;> rfl

theorem not_brace : Ahead.group .brace ts = false := by
  cases ahead with
  | @group d bare => cases d <;> simp_all [Ahead.group]
  | reserved | named | mark | angle | root => rfl

theorem not_word {k : String} (other : k ∈ ["true", "false", "mut"]) : Ahead.word k ts = false := by
  have reserved : ∀ k ∈ ["true", "false", "mut"], k ∈ keywords ∧ k ∉ ["self", "_"] ∧
      k ∉ ["super", "Self", "crate", "for", "fn", "unsafe", "extern", "dyn", "impl"] := by
    decide +kernel
  obtain ⟨keyword, short, long⟩ := reserved k other
  cases ahead with
  | reserved ts known => exact beq_false_of_ne fun same => long (same ▸ known)
  | named known apart =>
    refine beq_false_of_ne fun same => ?_
    cases known with
    | inl name => exact ne_of_isName name keyword same
    | inr known => exact short (same ▸ known)
  | mark | angle | root | group => rfl

theorem not_literal : Ahead.literal ts = false := by
  have truth := ahead.not_word (k := "true") (by simp)
  have falsity := ahead.not_word (k := "false") (by simp)
  cases ahead with
  | reserved | named => simp only [Ahead.literal, truth, falsity, Bool.or_false]
  | mark joint ts known =>
    simp only [List.mem_cons, List.not_mem_nil, or_false] at known
    obtain rfl | rfl | rfl := known <;> rfl
  | angle | root | group => rfl

theorem not_op {text : String} {c : Char} (first : text.toList.head? = some c)
    (other : c ∉ ['&', '*', '!', '<', ':']) : Ahead.op text ts = false := by
  refine Ahead.op_eq_false first fun joint rest same => other ?_
  cases ahead with
  | mark joint ts known =>
    cases same
    simp only [List.mem_cons] at known ⊢
    tauto
  | angle | root =>
    cases same
    simp
  | reserved | named | group => cases same

theorem not_less : Ahead.op "<=" ts = false := by
  cases ahead with
  | angle joint apart => simp_all [Ahead.op]
  | mark joint ts known =>
    simp only [List.mem_cons, List.not_mem_nil, or_false] at known
    obtain rfl | rfl | rfl := known <;> simp [Ahead.op]
  | reserved | named | root | group => simp [Ahead.op, Ahead.mark]

theorem not_parameter :
    ((Ahead.name ts || Ahead.word "_" ts || Ahead.word "self" ts) && Ahead.op ":" (ts.drop 1) &&
      !Ahead.op "::" (ts.drop 1)) = false := by
  cases ahead with
  | reserved ts known =>
    simp only [List.mem_cons, List.not_mem_nil, or_false] at known
    obtain rfl | rfl | rfl | rfl | rfl | rfl | rfl | rfl | rfl := known <;>
      simp [Ahead.name, Ahead.word, isName, keywords]
  | @named w ts known apart =>
    rw [List.drop_one, List.tail_cons, apart, Bool.and_assoc, Bool.and_not_self, Bool.and_false]
  | mark | angle | root | group => rfl

end TypeAhead

def isSegmentWord (w : String) : Bool :=
  isName w || ["super", "self", "Self", "crate"].contains w

inductive PathAhead : List Tree → Prop where
  | word {w : String} (known : isSegmentWord w) (ts : List Tree) : PathAhead (.word w :: ts)
  | root (joint : Bool) (ts : List Tree) : PathAhead (.mark ':' true :: .mark ':' joint :: ts)

namespace PathAhead

variable {ts : List Tree} (ahead : PathAhead ts)
include ahead

theorem not_word {k : String} (other : isSegmentWord k = false) : Ahead.word k ts = false := by
  cases ahead with
  | word known ts =>
    refine beq_false_of_ne ?_
    rintro rfl
    rw [other] at known
    cases known
  | root => rfl

theorem not_anyOf {words : List String} (other : ∀ k ∈ words, isSegmentWord k = false) :
    Ahead.anyOf words ts = false := by
  rw [Ahead.anyOf, List.any_eq_false]
  intro k member
  rw [ahead.not_word (other k member)]
  exact Bool.false_ne_true

theorem not_lifetime : Ahead.lifetime ts = false := by
  cases ahead <;> rfl

theorem not_group (d : Delimiter) : Ahead.group d ts = false := by
  cases ahead <;> rfl

theorem not_literal : Ahead.literal ts = false := by
  have truth := ahead.not_word (k := "true") (by decide +kernel)
  have falsity := ahead.not_word (k := "false") (by decide +kernel)
  cases ahead with
  | word => simp only [Ahead.literal, truth, falsity, Bool.or_false]
  | root => rfl

theorem not_op {text : String} {c : Char} (first : text.toList.head? = some c)
    (other : c ≠ ':') : Ahead.op text ts = false := by
  refine Ahead.op_eq_false first fun joint rest same => other ?_
  cases ahead with
  | word => cases same
  | root =>
    cases same
    rfl

theorem boundAhead (constant : Bool) : boundAhead constant ts := by
  cases ahead with
  | word => rfl
  | root => simp [TypeReader.boundAhead, Ahead.op]

theorem pathAhead : pathAhead ts := by
  cases ahead with
  | @word w known ts =>
    obtain name | known := (Bool.or_eq_true ..).mp known
    · simp [TypeReader.pathAhead, Ahead.name, name]
    · simp only [List.contains_cons, List.contains_nil, Bool.or_false, Bool.or_eq_true,
        beq_iff_eq] at known
      simp [TypeReader.pathAhead, Ahead.anyOf, Ahead.word, known]
  | root => simp [TypeReader.pathAhead, Ahead.op]

end PathAhead

inductive Stops (plus : Bool) : List Tree → Prop where
  | done : Stops plus []
  | mark {c : Char} (joint : Bool) (ts : List Tree) (known : c ∈ [',', '>', ';', '=']) :
      Stops plus (.mark c joint :: ts)
  | plus (single : plus = false) (joint : Bool) (ts : List Tree) : Stops plus (.mark '+' joint :: ts)
  | as (ts : List Tree) : Stops plus (.word "as" :: ts)

namespace Stops

variable {plus : Bool} {ts : List Tree} (stops : Stops plus ts)
include stops

theorem not_op {text : String} {c : Char} (first : text.toList.head? = some c)
    (other : c ∉ [',', '>', ';', '=', '+']) : Ahead.op text ts = false := by
  refine Ahead.op_eq_false first fun joint rest same => other ?_
  cases stops with
  | mark joint ts known =>
    cases same
    simp only [List.mem_cons] at known ⊢
    tauto
  | plus =>
    cases same
    simp
  | done | as => cases same

theorem not_group (d : Delimiter) : Ahead.group d ts = false := by
  cases stops <;> rfl

theorem not_plus (sum : plus = true) : Ahead.op "+" ts = false := by
  cases stops with
  | mark joint ts known =>
    simp only [List.mem_cons, List.not_mem_nil, or_false] at known
    obtain rfl | rfl | rfl | rfl := known <;> simp [Ahead.op]
  | plus single => rw [single] at sum; cases sum
  | done | as => simp [Ahead.op, Ahead.mark]

end Stops

inductive EndsArg : List Tree → Prop where
  | angle (joint : Bool) (ts : List Tree) : EndsArg (.mark '>' joint :: ts)
  | comma (joint : Bool) (ts : List Tree) : EndsArg (.mark ',' joint :: ts)

theorem endsArg_of_item {rest : List Tree}
    (follows : Ahead.op ">" rest = true ∨ ∃ joint more, rest = .mark ',' joint :: more) :
    EndsArg rest := by
  obtain next | ⟨joint, more, rfl⟩ := follows
  · match rest with
    | .mark c joint :: ts =>
      obtain rfl : '>' = c := by simpa [Ahead.op] using next
      exact .angle joint ts
    | [] | .word _ :: _ | .lifetime _ :: _ | .literal _ _ :: _ | .group _ _ :: _ =>
      simp [Ahead.op, Ahead.mark] at next
  · exact .comma joint more

namespace EndsArg

variable {rest : List Tree} (ends : EndsArg rest)
include ends

theorem stops (plus : Bool) : Stops plus rest := by
  cases ends with
  | angle => exact .mark _ _ (by simp)
  | comma => exact .mark _ _ (by simp)

theorem not_op {text : String} {c : Char} (first : text.toList.head? = some c)
    (other : c ∉ ['>', ',']) : Ahead.op text rest = false := by
  refine Ahead.op_eq_false first fun joint more same => other ?_
  cases ends <;> cases same <;> simp

end EndsArg

section

variable {α : Type} {sep : Char} {stop : List Tree → Bool} {r : Reader α}

def ReadsItem (sep : Char) (stop : List Tree → Bool) (r : Reader α) (x : α × List Piece) : Prop :=
  ∀ ts, Spells x.2 ts → ∀ rest,
    (stop rest = true ∨ ∃ joint more, rest = .mark sep joint :: more) →
      stop (ts ++ rest) = false ∧ r (ts ++ rest) = some (x.1, rest)

theorem separatedLoop_apply {text : String} {rest : List Tree} (single : text.toList = [sep])
    (ends : stop rest = true) (apart : ∀ joint ts, stop (.mark sep joint :: ts) = false)
    {xs : List (α × List Piece)} (item : ∀ x ∈ xs, ReadsItem sep stop r x) (trailing : Bool)
    {ts : List Tree} (spells : Spells (joined sep (xs.map Prod.snd) trailing) ts) {fuel : Nat}
    (enough : xs.length < fuel) :
    separatedLoop text stop r fuel (ts ++ rest) =
      some ((xs.map Prod.fst, trailing || xs.isEmpty), rest) := by
  induction xs generalizing ts fuel with
  | nil =>
    cases spells
    obtain ⟨fuel, rfl⟩ := Nat.exists_eq_succ_of_ne_zero (Nat.ne_of_gt enough)
    rw [separatedLoop, ahead_bind, List.nil_append, ends, if_pos rfl, List.isEmpty_nil, Bool.or_true]
    rfl
  | cons x xs ih =>
    obtain ⟨fuel, rfl⟩ := Nat.exists_eq_succ_of_ne_zero (Nat.ne_zero_of_lt enough)
    rw [List.map_cons, joined] at spells
    obtain ⟨us, vs, rfl, here, behind⟩ := spells.append_inv
    rw [separatedLoop, ahead_bind, List.append_assoc]
    split at behind
    · next last =>
      cases behind
      rw [Bool.and_eq_true, List.isEmpty_iff, List.map_eq_nil_iff, Bool.not_eq_true'] at last
      obtain ⟨rfl, rfl⟩ := last
      obtain ⟨starts, read⟩ := item x List.mem_cons_self us here rest (.inl ends)
      rw [List.nil_append, starts, if_neg Bool.false_ne_true, bind_eq read, ahead_true ends]
      rfl
    · next goesOn =>
      -- Behind the separator there is another item, or the end of the list where it trails.
      cases behind with
      | @mark _ joint _ ws later =>
        obtain ⟨starts, read⟩ := item x List.mem_cons_self us here (.mark sep joint :: (ws ++ rest))
          (.inr ⟨joint, _, rfl⟩)
        have more := ih (fun y member => item y (List.mem_cons_of_mem _ member)) later
          (Nat.lt_of_succ_lt_succ enough)
        have flag : (trailing || xs.isEmpty) = trailing := by
          cases trailing with
          | true => rfl
          | false => simpa using goesOn
        rw [List.cons_append, starts, if_neg Bool.false_ne_true, bind_eq read,
          ahead_false (apart _ _), bind_eq (op_single single joint _), bind_eq more, flag]
        simp [pure_apply]

theorem length_le_of_joined {rest : List Tree} (ends : stop rest = true)
    {xs : List (α × List Piece)} (item : ∀ x ∈ xs, ReadsItem sep stop r x) {trailing : Bool}
    {ts : List Tree} (spells : Spells (joined sep (xs.map Prod.snd) trailing) ts) :
    xs.length ≤ ts.length := by
  induction xs generalizing ts with
  | nil => exact Nat.zero_le _
  | cons x xs ih =>
    rw [List.map_cons, joined] at spells
    obtain ⟨us, vs, rfl, here, behind⟩ := spells.append_inv
    have filled : us ≠ [] := by
      rintro rfl
      obtain ⟨starts, -⟩ := item x List.mem_cons_self [] here rest (.inl ends)
      rw [List.nil_append, ends] at starts
      cases starts
    have some : 0 < us.length := List.length_pos_iff.mpr filled
    rw [List.length_append, List.length_cons]
    split at behind
    · next last =>
      rw [Bool.and_eq_true, List.isEmpty_iff, List.map_eq_nil_iff] at last
      rw [last.1, List.length_nil]
      omega
    · cases behind with
      | mark later =>
        have more := ih (fun y member => item y (List.mem_cons_of_mem _ member)) later
        rw [List.length_cons]
        omega

theorem separated_apply {text : String} {rest : List Tree} (single : text.toList = [sep])
    (ends : stop rest = true) (apart : ∀ joint ts, stop (.mark sep joint :: ts) = false)
    {xs : List (α × List Piece)} (item : ∀ x ∈ xs, ReadsItem sep stop r x) {trailing : Bool}
    (ended : xs = [] → trailing = false) {ts : List Tree}
    (spells : Spells (joined sep (xs.map Prod.snd) trailing) ts) :
    separated text stop r (ts ++ rest) = some ((xs.map Prod.fst, trailing), rest) := by
  have enough : xs.length < (ts ++ rest).length + 1 := by
    have items := length_le_of_joined ends item spells
    rw [List.length_append]
    omega
  rw [separated, get_bind,
    bind_eq (separatedLoop_apply single ends apart item trailing spells enough)]
  cases xs with
  | nil => rw [ended rfl]; rfl
  | cons x xs => simp [pure_apply]

end

section

variable (r : Readers) {ts rest : List Tree}

theorem genericArg_lifetime (name : String) (follows : Ahead.op "+" rest = false) :
    genericArg r (.lifetime name :: rest) = some (.lifetime name, rest) := by
  rw [genericArg, ahead_bind, ahead2_bind]
  simp only [Ahead.lifetime, List.drop_succ_cons, List.drop_zero, follows, Bool.not_false,
    Bool.and_true, if_true]
  rfl

theorem constArgument_apply {text : String} (literal : Ahead.literal ts)
    (read : Reader.literal ts = some (text, rest)) : constArgument r ts = some (text, rest) := by
  rw [constArgument, ahead_true literal, read]

theorem genericArg_other {text : String} (life : Ahead.lifetime ts = false)
    (literal : Ahead.literal ts) (read : Reader.literal ts = some (text, rest)) :
    genericArg r ts = some (.other text, rest) := by
  rw [genericArg, ahead_bind, ahead2_bind, life, Bool.false_and, if_neg Bool.false_ne_true,
    ahead_bind, ahead_bind, literal, Bool.true_or, if_pos rfl,
    bind_eq (constArgument_apply r literal read)]
  rfl

theorem genericArg_type {t : HostType} (next : TypeAhead ts)
    (read : r.type true ts = some (t, rest)) (equals : Ahead.op "=" rest = false)
    (colon : Ahead.op ":" rest = false) : genericArg r ts = some (.type t, rest) := by
  rw [genericArg, ahead_bind, ahead2_bind, next.not_lifetime, Bool.false_and,
    if_neg Bool.false_ne_true, ahead_bind, ahead_bind, next.not_literal, next.not_brace,
    Bool.or_false, if_neg Bool.false_ne_true, bind_eq read]
  split
  · rw [ahead_false equals, ahead_false colon]
    rfl
  · rw [ahead_false equals, ahead_false colon]
    rfl
  · rfl

inductive ValueRead : List Tree → String → List Tree → Prop where
  | literal {ts rest : List Tree} {text : String} (next : Ahead.literal ts)
      (read : Reader.literal ts = some (text, rest)) : ValueRead ts text rest
  | type {ts rest : List Tree} {t : HostType} (next : TypeAhead ts)
      (read : r.type true ts = some (t, rest)) : ValueRead ts t.key rest

theorem genericArg_binding {w text : String} {args : TypeArgs} {joint : Bool} {us : List Tree}
    (bare : ∀ text, args ≠ .call text) (next : PathAhead ts)
    (read : r.type true ts = some (.path "" w args, .mark '=' joint :: us))
    (value : ValueRead r us text rest) :
    genericArg r ts = some (.other (spaced [(HostType.path "" w args).key, "=", text]), rest) := by
  have equals : Ahead.op "=" (.mark '=' joint :: us) := by simp [Ahead.op]
  rw [genericArg, ahead_bind, ahead2_bind, next.not_lifetime, Bool.false_and,
    if_neg Bool.false_ne_true, ahead_bind, ahead_bind, next.not_literal, next.not_group,
    Bool.or_false, if_neg Bool.false_ne_true, bind_eq read]
  cases args with
  | none | angle =>
    simp only
    rw [ahead_true equals, bind_eq (op_single (by simp) joint us), ahead_bind, ahead_bind]
    cases value with
    | literal next read =>
      rw [next, Bool.true_or, if_pos rfl, bind_eq (constArgument_apply r next read)]
      rfl
    | type next read =>
      rw [next.not_literal, next.not_brace, Bool.or_false, if_neg Bool.false_ne_true, bind_eq read,
        pure_bind_apply]
      rfl
  | call text => exact absurd rfl (bare text)

theorem genericArg_constraint {w : String} {args : TypeArgs} {joint trailing : Bool}
    {us : List Tree} {bs : List (Bool × String)} (bare : ∀ text, args ≠ .call text)
    (next : PathAhead ts) (read : r.type true ts = some (.path "" w args, .mark ':' joint :: us))
    (bounds : separated "+" (fun ts => Ahead.op "," ts || Ahead.op ">" ts) (bound r false true) us =
      some ((bs, trailing), rest)) :
    genericArg r ts = some (.other (spaced [(HostType.path "" w args).key, ":",
      spaced ((bs.map Prod.snd).intersperse "+" ++ if trailing then ["+"] else [])]), rest) := by
  have equals : Ahead.op "=" (.mark ':' joint :: us) = false := by simp [Ahead.op]
  have colon : Ahead.op ":" (.mark ':' joint :: us) := by simp [Ahead.op]
  rw [genericArg, ahead_bind, ahead2_bind, next.not_lifetime, Bool.false_and,
    if_neg Bool.false_ne_true, ahead_bind, ahead_bind, next.not_literal, next.not_group,
    Bool.or_false, if_neg Bool.false_ne_true, bind_eq read]
  cases args with
  | none | angle =>
    simp only
    rw [ahead_false equals, ahead_true colon, bind_eq (op_single (by simp) joint us),
      bind_eq bounds]
    rfl
  | call text => exact absurd rfl (bare text)

theorem filter_append_filter {args : List TypeArg}
    (ordered : args.Pairwise fun a b => b.isLifetime → a.isLifetime) :
    args.filter TypeArg.isLifetime ++ args.filter (fun a => !a.isLifetime) = args := by
  induction ordered with
  | nil => rfl
  | @cons a args here _ ih =>
    cases life : a.isLifetime with
    | true => simp [life, ih]
    | false =>
      have plain : ∀ b ∈ args, b.isLifetime = false := fun b member =>
        Bool.eq_false_iff.mpr fun is => by rw [here b member is] at life; cases life
      have none : args.filter TypeArg.isLifetime = [] := by simpa using plain
      have all : args.filter (fun a => !a.isLifetime) = args := by simpa using plain
      simp [life, none, all]

theorem ofList_of_ordered {args : List TypeArg}
    (ordered : args.Pairwise fun a b => b.isLifetime → a.isLifetime) (turbofish trailing : Bool) :
    TypeArgs.ofList turbofish args trailing = .angle turbofish args trailing := by
  have last : (!(args.filter fun a => !a.isLifetime).isEmpty &&
      args.getLast?.any TypeArg.isLifetime) = false := by
    cases ends : args.getLast? with
    | none => rw [Option.any_none, Bool.and_false]
    | some b =>
      have whole : args.dropLast ++ [b] = args := List.dropLast_append_getLast? b ends
      cases life : b.isLifetime with
      | false => rw [Option.any_some, life, Bool.and_false]
      | true =>
        have all : ∀ a ∈ args, a.isLifetime := by
          rw [← whole] at ordered ⊢
          have before := (List.pairwise_append.mp ordered).2.2
          simpa [or_imp, forall_and, life] using fun a member => before a member b (by simp) life
        have none : args.filter (fun a => !a.isLifetime) = [] := by simpa using all
        rw [none]
        rfl
  rw [TypeArgs.ofList, filter_append_filter ordered, last, Bool.or_false]

theorem optionalOp_colons {rooted : Bool} {us : List Tree}
    (spells : Spells (pieceIf rooted .colons) us) (apart : Ahead.op "::" ts = false) :
    optionalOp "::" (us ++ ts) = some (if rooted then "::" else "", ts) := by
  cases rooted with
  | false =>
    cases spells
    exact optionalOp_none apart
  | true =>
    cases spells with
    | @pair _ _ joint _ _ _ nothing =>
      cases nothing
      exact optionalOp_some (by simp [Ahead.op]) (op_pair (by simp) joint ts)

theorem angleArgs_apply {args : List (TypeArg × List Piece)} {turbofish trailing : Bool}
    (item : ∀ a ∈ args, ReadsItem ',' (Ahead.op ">") (genericArg r) a)
    (ordered : (args.map Prod.fst).Pairwise fun a b => b.isLifetime → a.isLifetime)
    (ended : args = [] → trailing = false)
    (spells : Spells (pieceIf turbofish .colons ++
      .mark '<' :: (joined ',' (args.map Prod.snd) trailing ++ [.mark '>'])) ts) :
    angleArgs r (ts ++ rest) = some (.angle turbofish (args.map Prod.fst) trailing, rest) := by
  obtain ⟨us, vs, rfl, colons, angle⟩ := spells.append_inv
  cases angle with
  | @mark _ joint _ ws inside =>
    obtain ⟨items, close, rfl, inner, closed⟩ := inside.append_inv
    cases closed with
    | @mark _ joint' _ _ nothing =>
      cases nothing
      have plain : Ahead.op "::" (.mark '<' joint :: (items ++ .mark '>' joint' :: rest)) = false := by
        simp [Ahead.op]
      have ends : Ahead.op ">" (.mark '>' joint' :: rest) = true := by simp [Ahead.op]
      have root := optionalOp_colons colons plain
      have comma : ",".toList = [','] := by simp
      have list := separated_apply comma ends (fun joint ts => by simp [Ahead.op]) item ended inner
      rw [List.append_assoc, List.cons_append, List.append_assoc, List.singleton_append, angleArgs,
        bind_eq root, bind_eq (op_single (by simp) joint _), bind_eq list]
      simp only
      rw [bind_eq (op_single (by simp) joint' rest), ofList_of_ordered ordered]
      cases turbofish <;> rfl

theorem anyOf_name {w : String} (name : isName w) {words : List String}
    (reserved : ∀ k ∈ words, k ∈ keywords) (ts : List Tree) :
    Ahead.anyOf words (.word w :: ts) = false := by
  rw [Ahead.anyOf, List.any_eq_false]
  intro k member
  simpa [Ahead.word] using ne_of_isName name (reserved k member)

theorem segment_of_name {inExpr : Bool} {w : String} (name : isName w) {args : TypeArgs}
    (read : (if angleAhead inExpr ts then angleArgs r else pure .none) ts = some (args, rest)) :
    TypeReader.segment r inExpr (.word w :: ts) = some ((w, args), rest) := by
  have plain : Ahead.anyOf ["super", "self", "crate", "try"] (.word w :: ts) = false :=
    anyOf_name name (by decide +kernel) ts
  have self : Ahead.word "Self" (.word w :: ts) = false := by
    simpa [Ahead.word] using ne_of_isName name (k := "Self") (by decide +kernel)
  rw [TypeReader.segment, ahead_false plain, ahead_false self, bind_eq (name_apply name ts)]
  dsimp only
  rw [ahead_bind]
  cases angle : angleAhead inExpr ts with
  | false =>
    rw [angle, if_neg Bool.false_ne_true, pure_apply, Option.some.injEq, Prod.mk.injEq] at read
    rw [if_neg Bool.false_ne_true, pure_apply, read.1, read.2]
  | true =>
    rw [angle, if_pos rfl] at read
    rw [if_pos rfl, bind_eq read]
    rfl

theorem segment_of_keyword {w : String} (known : w ∈ ["super", "self", "Self", "crate"])
    (apart : angleAhead false ts = false) :
    TypeReader.segment r false (.word w :: ts) = some ((w, .none), ts) := by
  have words : Ahead.anyOf ["super", "self", "crate", "try"] (.word w :: ts) = (w != "Self") := by
    simp only [List.mem_cons, List.not_mem_nil, or_false] at known
    obtain rfl | rfl | rfl | rfl := known <;> simp [Ahead.anyOf, Ahead.word]
  rw [TypeReader.segment, ahead_bind, words]
  by_cases self : w = "Self"
  · subst self
    have next : Ahead.word "Self" (.word "Self" :: ts) := by simp [Ahead.word]
    rw [bne_self_eq_false, if_neg Bool.false_ne_true, ahead_true next,
      bind_eq (anyWord_apply "Self" ts)]
    dsimp only
    rw [ahead_false apart]
    rfl
  · rw [if_pos (bne_iff_ne.mpr self), bind_eq (anyWord_apply w ts)]
    rfl

theorem angleAhead_eq_false (root : Ahead.op "::" ts = false) (angle : Ahead.op "<" ts = false) :
    angleAhead false ts = false := by
  rw [angleAhead, root, angle]
  rfl

def ReadsSegment (reader : Reader (String × TypeArgs)) (s : (String × TypeArgs) × List Piece) : Prop :=
  ∀ ts, Spells s.2 ts → ∀ rest, angleAhead false rest = false →
    (∃ w more, isSegmentWord w ∧ ts = .word w :: more) ∧ reader (ts ++ rest) = some (s.1, rest)

theorem spells_behindEach_cons {s : (String × TypeArgs) × List Piece}
    {reader : Reader (String × TypeArgs)} {more : List ((String × TypeArgs) × List Piece)}
    (item : ReadsSegment reader s)
    (spells : Spells (behindEach .colons ((s :: more).map Prod.snd)) ts) :
    ∃ joint w us vs, ts = .mark ':' true :: .mark ':' joint :: (.word w :: us ++ vs) ∧
      Spells s.2 (.word w :: us) ∧ Spells (behindEach .colons (more.map Prod.snd)) vs := by
  rw [List.map_cons, behindEach, List.flatMap_cons, ← behindEach] at spells
  cases spells with
  | @pair _ _ joint _ _ _ later =>
    obtain ⟨us, vs, rfl, here, behind⟩ := later.append_inv
    obtain ⟨⟨w, us', -, rfl⟩, -⟩ := item us here [] rfl
    exact ⟨joint, w, us', vs, rfl, here, behind⟩

theorem angleAhead_behindEach {reader : Reader (String × TypeArgs)}
    {more : List ((String × TypeArgs) × List Piece)} (item : ∀ s ∈ more, ReadsSegment reader s)
    (spells : Spells (behindEach .colons (more.map Prod.snd)) ts)
    (root : Ahead.op "::" rest = false) (angle : Ahead.op "<" rest = false) :
    angleAhead false (ts ++ rest) = false := by
  cases more with
  | nil =>
    cases spells
    exact angleAhead_eq_false root angle
  | cons s more =>
    obtain ⟨joint, w, us, vs, rfl, -, -⟩ := spells_behindEach_cons (item s List.mem_cons_self) spells
    simp [angleAhead, Ahead.op, Ahead.mark]

theorem whileAhead_segments {go : List Tree → Bool} {reader : Reader (String × TypeArgs)}
    {more : List ((String × TypeArgs) × List Piece)} (item : ∀ s ∈ more, ReadsSegment reader s)
    (goes : ∀ joint w ts, go (.mark ':' true :: .mark ':' joint :: .word w :: ts) = true)
    (stop : go rest = false) (spells : Spells (behindEach .colons (more.map Prod.snd)) ts)
    (root : Ahead.op "::" rest = false) (angle : Ahead.op "<" rest = false) {fuel : Nat}
    (enough : more.length ≤ fuel) :
    whileAhead go (do let _ ← op "::"; reader) fuel (ts ++ rest) =
      some (more.map Prod.fst, rest) := by
  induction more generalizing ts fuel with
  | nil =>
    cases spells
    exact whileAhead_nil stop fuel
  | cons s more ih =>
    obtain ⟨fuel, rfl⟩ := Nat.exists_eq_succ_of_ne_zero (Nat.ne_zero_of_lt enough)
    have items := fun s member => item s (List.mem_cons_of_mem _ member)
    obtain ⟨joint, w, us, vs, rfl, here, behind⟩ :=
      spells_behindEach_cons (item s List.mem_cons_self) spells
    have apart := angleAhead_behindEach items behind root angle
    obtain ⟨-, read⟩ := item s List.mem_cons_self _ here (vs ++ rest) apart
    refine whileAhead_cons (goes joint w _) ?_ (ih items behind (Nat.le_of_succ_le_succ enough))
    rw [List.cons_append, List.cons_append, List.append_assoc, bind_eq (op_pair (by simp) joint _),
      read]

theorem Spells.ne_nil {p : Piece} {ps : List Piece} (spells : Spells (p :: ps) ts) : ts ≠ [] := by
  cases spells <;> exact List.cons_ne_nil _ _

theorem length_le_of_behindEach {lead : Piece} {pss : List (List Piece)}
    (spells : Spells (behindEach lead pss) ts) : pss.length ≤ ts.length := by
  induction pss generalizing ts with
  | nil => exact Nat.zero_le _
  | cons ps pss ih =>
    rw [behindEach, List.flatMap_cons, ← behindEach] at spells
    obtain ⟨us, vs, rfl, here, behind⟩ := spells.append_inv
    have some : 0 < us.length := List.length_pos_iff.mpr here.ne_nil
    have more := ih behind
    rw [List.length_append, List.length_cons]
    omega

theorem moreSegments_apply {reader : Reader (String × TypeArgs)}
    {more : List ((String × TypeArgs) × List Piece)} (item : ∀ s ∈ more, ReadsSegment reader s)
    (spells : Spells (behindEach .colons (more.map Prod.snd)) ts)
    (root : Ahead.op "::" rest = false) (angle : Ahead.op "<" rest = false) :
    moreSegments reader (ts ++ rest) = some (more.map Prod.fst, rest) := by
  have enough : more.length ≤ (ts ++ rest).length := by
    have count := length_le_of_behindEach spells
    rw [List.length_map] at count
    rw [List.length_append]
    omega
  rw [moreSegments, get_bind]
  exact whileAhead_segments item (fun joint w ts => by simp [Ahead.op, Ahead.mark, Ahead.group])
    (by rw [root, Bool.false_and]) spells root angle enough

theorem plainPath_apply {rooted : Bool} {first : (String × TypeArgs) × List Piece}
    {more : List ((String × TypeArgs) × List Piece)}
    (here : ReadsSegment (r.segment false) first) (item : ∀ s ∈ more, ReadsSegment (r.segment false) s)
    (spells : Spells (pieceIf rooted .colons ++ first.2 ++ behindEach .colons (more.map Prod.snd)) ts)
    (root : Ahead.op "::" rest = false) (angle : Ahead.op "<" rest = false) :
    PathAhead (ts ++ rest) ∧
      plainPath r false (ts ++ rest) = some (⟨rooted, first.1 :: more.map Prod.fst⟩, rest) := by
  obtain ⟨front, vs, rfl, before, behind⟩ := spells.append_inv
  obtain ⟨colons, us, rfl, rooting, start⟩ := before.append_inv
  have apart := angleAhead_behindEach item behind root angle
  obtain ⟨⟨w, us, known, rfl⟩, read⟩ := here us start (vs ++ rest) apart
  have plain : Ahead.op "::" (.word w :: us ++ (vs ++ rest)) = false := by
    simp [Ahead.op, Ahead.mark]
  rw [List.append_assoc, List.append_assoc, plainPath, bind_eq (optionalOp_colons rooting plain),
    bind_eq read, bind_eq (moreSegments_apply item behind root angle)]
  cases rooted with
  | false =>
    cases rooting
    exact ⟨.word known _, rfl⟩
  | true =>
    cases rooting with
    | pair => exact ⟨.root _ _, rfl⟩

def ReadsType (r : Readers) (plus : Bool) (t : HostType × List Piece) : Prop :=
  ∀ ts, Spells t.2 ts → ∀ rest, Stops plus rest →
    TypeAhead (ts ++ rest) ∧ r.type plus (ts ++ rest) = some (t.1, rest)

theorem stops_of_item {plus : Bool} (follows : rest.isEmpty = true ∨ ∃ joint more, rest = .mark ',' joint :: more) :
    Stops plus rest := by
  obtain empty | ⟨joint, more, rfl⟩ := follows
  · rw [List.isEmpty_iff.mp empty]
    exact .done
  · exact .mark joint more (by simp)

theorem ReadsType.item {t : HostType × List Piece} (reads : ReadsType r true t) :
    ReadsItem ',' List.isEmpty (r.type true) t := fun ts spells rest follows => by
  obtain ⟨next, read⟩ := reads ts spells rest (stops_of_item follows)
  exact ⟨by simpa using next.ne_nil, read⟩

theorem commas_apply {α : Type} {reader : Reader α} {xs : List (α × List Piece)} {trailing : Bool}
    (item : ∀ x ∈ xs, ReadsItem ',' List.isEmpty reader x) (ended : xs = [] → trailing = false)
    (spells : Spells (joined ',' (xs.map Prod.snd) trailing) ts) :
    commas reader ts = some ((xs.map Prod.fst, trailing), []) := by
  have ends : ([] : List Tree).isEmpty = true := rfl
  have comma : ",".toList = [','] := by simp
  have list := separated_apply comma ends (fun _ _ => rfl) item ended spells
  rwa [List.append_nil] at list

theorem textOf_group_inputs {inputs : List (HostType × List Piece)} {trailing : Bool}
    (keys : ∀ t ∈ inputs, t.1.key = textOf t.2) (ended : inputs = [] → trailing = false) :
    enclosed .paren (HostType.commaSeparated ((inputs.map Prod.fst).map HostType.key) trailing) =
      (Piece.group .paren (joined ',' (inputs.map Prod.snd) trailing)).text := by
  have texts : (inputs.map Prod.fst).map HostType.key = (inputs.map Prod.snd).map textOf := by
    rw [List.map_map, List.map_map]
    exact List.map_congr_left keys
  rw [texts, led_injective (led_commaSeparated _ _ (by simpa using ended)), Piece.text]
  rfl

theorem callArgs_apply {inputs : List (HostType × List Piece)} {trailing : Bool}
    {result : Option (HostType × List Piece)} (item : ∀ t ∈ inputs, ReadsType r true t)
    (keys : ∀ t ∈ inputs, t.1.key = textOf t.2) (ended : inputs = [] → trailing = false)
    (returns : ∀ t ∈ result, ReadsType r false t) (keyResult : ∀ t ∈ result, t.1.key = textOf t.2)
    (spells : Spells (.group .paren (joined ',' (inputs.map Prod.snd) trailing) :: arrowed result) ts)
    (stops : Stops false rest) :
    ∃ goesOn, callArgs r (ts ++ rest) =
      some ((.call (textOf (.group .paren (joined ',' (inputs.map Prod.snd) trailing) ::
        arrowed result)), goesOn), rest) := by
  cases spells with
  | @group _ _ _ inner us inside behind =>
    have list := inside_apply (d := .paren)
      (commas_apply (fun t member => ReadsType.item r (item t member)) ended inside) (us ++ rest)
    rw [List.cons_append, callArgs, bind_eq list]
    simp only
    rw [ahead_bind, textOf_group_inputs keys ended]
    cases result with
    | none =>
      cases behind
      rw [List.nil_append, stops.not_op (c := '-') (by simp) (by simp),
        if_neg Bool.false_ne_true, arrowed, textOf_singleton]
      exact ⟨true, rfl⟩
    | some t =>
      cases behind with
      | @pair _ _ joint _ us _ later =>
        obtain ⟨-, read⟩ := returns t rfl us later rest stops
        have next : Ahead.op "->" (.mark '-' true :: .mark '>' joint :: (us ++ rest)) := by
          simp [Ahead.op]
        have text : spaced [(Piece.group .paren (joined ',' (inputs.map Prod.snd) trailing)).text,
            "->", t.1.key] = textOf (.group .paren (joined ',' (inputs.map Prod.snd) trailing) ::
              arrowed (some t)) := by
          refine led_injective ?_
          rw [keyResult t rfl, arrowed, led_textOf_cons, led_textOf_cons]
          simp [Piece.text]
        rw [List.cons_append, List.cons_append, next, if_pos rfl,
          bind_eq (op_pair (by simp) joint _), bind_eq read, text]
        exact ⟨_, rfl⟩

end

end Pegsmith.Source
