import Pegsmith.Regex.Basic

/-!
Regular expressions as programs. An instruction is known by its place. At each place of the text
the instructions that could take the next character stand in a list, the preferred ones first, and
no instruction is entered twice there; a match found cuts off those behind it.
-/

set_option autoImplicit false

namespace Pegsmith.Regex

inductive Instr where
  | take (s : CharSet) (next : Nat)
  | look (l : Look) (next : Nat)
  | split (first second : Nat)
  | accept
  deriving Inhabited

abbrev Program := Array Instr

abbrev Code := Nat → Program → Nat × Program

namespace Code

def instr (i : Instr) : Program → Nat × Program :=
  fun p => (p.size, p.push i)

def prefer (greedy : Bool) (first second : Nat) : Instr :=
  if greedy then .split first second else .split second first

def times (c : Code) (n : Nat) : Code := fun next p =>
  Nat.repeat (fun (next, p) => c next p) n (next, p)

def rounds (c : Code) (greedy : Bool) : Code := fun next p =>
  let decision := p.size
  let (start, p) := c decision (p.push .accept)
  (start, p.setIfInBounds decision (prefer greedy start next))

def option (c : Code) (greedy : Bool) : Code := fun next p =>
  let (start, p) := c next p
  instr (prefer greedy start next) p

/-- Any number of rounds, the decision on the first one being the decision on all. Only for code
that takes a character. -/
def loop (c : Code) (greedy : Bool) : Code := fun next p =>
  let decision := p.size
  let (start, p) := c decision (p.push .accept)
  (decision, p.setIfInBounds decision (prefer greedy start next))

def upTo (c : Code) (greedy : Bool) (n : Nat) : Code := fun next p =>
  Nat.repeat (fun (inner, p) =>
    let (start, p) := c inner p
    instr (prefer greedy start next) p) n (next, p)

end Code

def code : Regex → Code
  | .empty, next, p => (next, p)
  | .oneOf s, next, p => Code.instr (.take s next) p
  | .look l, next, p => Code.instr (.look l next) p
  | .seq a b, next, p =>
      let (rest, p) := b.code next p
      a.code rest p
  | .alt a b, next, p =>
      let (second, p) := b.code next p
      let (first, p) := a.code next p
      Code.instr (.split first second) p
  | .repeat n (some max) greedy a, next, p =>
      let (rest, p) := Code.upTo a.code greedy (max - n) next p
      Code.times a.code n rest p
  | .repeat 0 none greedy a, next, p =>
      if 0 < a.minLength then Code.loop a.code greedy next p
      else Code.option (Code.rounds a.code greedy) greedy next p
  | .repeat (n + 1) none greedy a, next, p =>
      let (rest, p) := Code.rounds a.code greedy next p
      Code.times a.code n rest p

structure Machine where
  start : Nat
  program : Program
  deriving Inhabited

def machine (r : Regex) : Machine :=
  let (start, program) := r.code 0 #[.accept]
  ⟨start, program⟩

/-- Enters the instructions on a stack and all that follow them without a character, unless they
have been entered before; those that wait for a character, or accept, are kept latest first. -/
def enter (p : Program) (before after : Option Char) :
    Nat → List Nat → List Nat × List Nat → List Nat × List Nat
  | 0, _, acc => acc
  | _, [], acc => acc
  | n + 1, pc :: stack, (entered, waiting) =>
      if entered.contains pc then enter p before after n stack (entered, waiting)
      else
        let entered := pc :: entered
        match p[pc]? with
        | none => enter p before after n stack (entered, waiting)
        | some (.split first second) =>
            enter p before after n (first :: second :: stack) (entered, waiting)
        | some (.look l next) =>
            if l.holds before after then
              enter p before after n (next :: stack) (entered, waiting)
            else enter p before after n stack (entered, waiting)
        | some _ => enter p before after n stack (entered, pc :: waiting)

def enterAll (p : Program) (before after : Option Char) (pcs : List Nat) : List Nat :=
  (enter p before after (2 * p.size + pcs.length + 1) pcs ([], [])).2.reverse

def taken? (p : Program) (c : Char) (pc : Nat) : Option Nat :=
  match p[pc]? with
  | some (.take s next) => if s.contains c.toNat then some next else none
  | _ => none

def accepts (p : Program) (pc : Nat) : Bool :=
  match p[pc]? with
  | some .accept => true
  | _ => false

/-- The number of characters up to the end of the preferred match. `best` is the one found so far,
and `count` the number of characters before this place. -/
def run (p : Program) (waiting : List Nat) (count : Nat) (best : Option Nat) :
    List Char → Option Nat
  | [] => if waiting.any (accepts p) then some count else best
  | c :: cs =>
      let best := if waiting.any (accepts p) then some count else best
      match (waiting.takeWhile fun pc => !accepts p pc).filterMap (taken? p c) with
      | [] => best
      | next => run p (enterAll p (some c) cs.head? next) (count + 1) best cs

def Machine.matchLength? (m : Machine) (cs : List Char) : Option Nat :=
  run m.program (enterAll m.program none cs.head? [m.start]) 0 none cs

end Pegsmith.Regex
