import Mathlib
import Pegsmith.Source.Grammar

set_option autoImplicit false

namespace Pegsmith.Source

namespace Ahead

@[simp] theorem mark_single (c d : Char) (joint : Bool) (ts : List Tree) :
    mark [c] (.mark d joint :: ts) = (c == d) := by
  cases joint <;> rfl

@[simp] theorem mark_several (c d e : Char) (cs : List Char) (joint : Bool) (ts : List Tree) :
    mark (c :: d :: cs) (.mark e joint :: ts) = (joint && c == e && mark (d :: cs) ts) := by
  cases joint <;> rfl

theorem op_eq_false {text : String} {c : Char} (first : text.toList.head? = some c)
    {ts : List Tree} (other : ∀ joint rest, ts ≠ .mark c joint :: rest) : op text ts = false := by
  obtain ⟨cs, chars⟩ := List.head?_eq_some_iff.mp first
  rw [op, chars]
  match ts with
  | [] => cases cs <;> rfl
  | .mark d joint :: rest =>
    have different : (c == d) = false := beq_false_of_ne fun same => other joint rest (by rw [same])
    cases cs with
    | nil => rw [mark_single, different]
    | cons e cs => rw [mark_several, different, Bool.and_false, Bool.false_and]
  | .word _ :: _ | .lifetime _ :: _ | .literal _ _ :: _ | .group _ _ :: _ => cases cs <;> rfl

end Ahead

namespace Reader

variable {α β : Type}

theorem bind_apply (x : Reader α) (f : α → Reader β) (ts : List Tree) :
    (x >>= f) ts = (x ts).bind fun s => f s.1 s.2 := by
  rfl

theorem bind_eq {x : Reader α} {f : α → Reader β} {ts rest : List Tree} {a : α}
    (read : x ts = some (a, rest)) : (x >>= f) ts = f a rest := by
  rw [bind_apply, read]
  rfl

theorem get_bind (f : List Tree → Reader β) (ts : List Tree) : (get >>= f) ts = f ts ts :=
  bind_eq rfl

theorem ahead_bind (test : List Tree → Bool) (f : Bool → Reader β) (ts : List Tree) :
    (ahead test >>= f) ts = f (test ts) ts :=
  bind_eq rfl

theorem ahead_true {test : List Tree → Bool} {x y : Reader α} {ts : List Tree} (holds : test ts) :
    (do if ← ahead test then x else y) ts = x ts := by
  rw [ahead_bind, if_pos holds]

theorem ahead_false {test : List Tree → Bool} {x y : Reader α} {ts : List Tree}
    (fails : test ts = false) : (do if ← ahead test then x else y) ts = y ts := by
  rw [ahead_bind, fails, if_neg Bool.false_ne_true]

theorem ahead2_bind (test : List Tree → Bool) (f : Bool → Reader β) (ts : List Tree) :
    (ahead2 test >>= f) ts = f (test (ts.drop 1)) ts :=
  bind_eq rfl

theorem pure_apply (a : α) (ts : List Tree) : (pure a : Reader α) ts = some (a, ts) := by
  rfl

theorem pure_bind_apply (a : α) (f : α → Reader β) (ts : List Tree) :
    ((pure a : Reader α) >>= f) ts = f a ts :=
  bind_eq rfl

theorem op_apply {text : String} {ts : List Tree} (next : Ahead.op text ts) :
    op text ts = some (text, ts.drop text.length) := by
  rw [op, get_bind, if_pos next]
  rfl

theorem op_single {text : String} {c : Char} (chars : text.toList = [c]) (joint : Bool)
    (ts : List Tree) : op text (.mark c joint :: ts) = some (text, ts) := by
  have next : Ahead.op text (.mark c joint :: ts) := by simp [Ahead.op, chars]
  rw [op_apply next, ← String.length_toList, chars]
  rfl

theorem op_pair {text : String} {c d : Char} (chars : text.toList = [c, d]) (joint : Bool)
    (ts : List Tree) : op text (.mark c true :: .mark d joint :: ts) = some (text, ts) := by
  have next : Ahead.op text (.mark c true :: .mark d joint :: ts) := by simp [Ahead.op, chars]
  rw [op_apply next, ← String.length_toList, chars]
  rfl

theorem word_apply (w : String) (ts : List Tree) : word w (.word w :: ts) = some (w, ts) := by
  rw [word, get_bind]
  simp only [BEq.rfl, if_true]
  rfl

theorem anyWord_apply (w : String) (ts : List Tree) : anyWord (.word w :: ts) = some (w, ts) := by
  rfl

theorem name_apply {w : String} (known : isName w) (ts : List Tree) :
    name (.word w :: ts) = some (w, ts) := by
  rw [name, get_bind]
  simp only [known, if_true]
  rfl

theorem lifetime_apply (n : String) (ts : List Tree) :
    lifetime (.lifetime n :: ts) = some (n, ts) := by
  rfl

theorem inside_apply {d : Delimiter} {r : Reader α} {inner : List Tree} {a : α}
    (read : r inner = some (a, [])) (ts : List Tree) :
    inside d r (.group d inner :: ts) = some (a, ts) := by
  rw [inside, get_bind]
  simp only [if_true, StateT.run, read]
  rfl

theorem optionalOp_none {text : String} {ts : List Tree} (next : Ahead.op text ts = false) :
    optionalOp text ts = some ("", ts) := by
  rw [optionalOp, ahead_bind, next]
  rfl

theorem optionalOp_some {text : String} {ts rest : List Tree} (next : Ahead.op text ts)
    (read : op text ts = some (text, rest)) : optionalOp text ts = some (text, rest) := by
  rw [optionalOp, ahead_bind, next]
  exact read

theorem optionalWord_none {w : String} {ts : List Tree} (next : Ahead.word w ts = false) :
    optionalWord w ts = some ("", ts) := by
  rw [optionalWord, ahead_bind, next]
  rfl

theorem optionalWord_some (w : String) (ts : List Tree) :
    optionalWord w (.word w :: ts) = some (w, ts) := by
  have next : Ahead.word w (.word w :: ts) := by simp [Ahead.word]
  rw [optionalWord, ahead_bind, next]
  exact word_apply w ts

theorem whileAhead_nil {go : List Tree → Bool} {r : Reader α} {ts : List Tree}
    (stop : go ts = false) (fuel : Nat) : whileAhead go r fuel ts = some ([], ts) := by
  cases fuel with
  | zero => rfl
  | succ fuel =>
    rw [whileAhead, ahead_bind, stop]
    rfl

theorem whileAhead_cons {go : List Tree → Bool} {r : Reader α} {ts rest rest' : List Tree} {a : α}
    {as : List α} {fuel : Nat} (next : go ts) (read : r ts = some (a, rest))
    (more : whileAhead go r fuel rest = some (as, rest')) :
    whileAhead go r (fuel + 1) ts = some (a :: as, rest') := by
  rw [whileAhead, ahead_bind, next, if_pos rfl, bind_eq read, bind_eq more]
  rfl

end Reader

end Pegsmith.Source
