import Pegsmith.Memo
import Pegsmith.Parsing.Evaluate

/-!
Parsers as rules: every non-terminal has alternatives, tried in order from the same place, each a
plan and what its values build. A parse keeps the outcome of every non-terminal at every place, so
that none is evaluated twice at one place; reading without that gives the same answers.
-/

set_option autoImplicit false

namespace Pegsmith.Parsing

abbrev Build (σ α : Type) := List (Value α) → σ → Option (Except Fault α × σ)

structure Alternative (σ α : Type) where
  plan : Plan
  build : Build σ α

structure Rules (σ α : Type) where
  lexer : Lexer
  names : List String
  alternatives : String → List (Alternative σ α)

namespace Rules

open Run

variable {σ α : Type}

structure Memos (σ α : Type) where
  tables : List (String × MemoTable (Value α)) := []
  logic : σ

namespace Memos

def table (m : Memos σ α) (name : String) : MemoTable (Value α) :=
  (m.tables.lookup name).getD {}

def insert (m : Memos σ α) (name : String) (position : Nat) (memo : Memo (Value α)) :
    Memos σ α × Option Fault :=
  let (table, fault) := (m.table name).insert position memo
  ({ m with tables := (name, table) :: m.tables.filter (·.1 != name) }, fault)

end Memos

def buildWith {τ : Type} (view : τ → σ) (update : σ → τ → τ) (build : Build σ α)
    (vs : List (Value α)) : Run τ (Value α) := do
  let (tape, s) ← get
  let (answer, logic) ← useful (build vs (view s))
  set (tape, update logic s)
  return .own (← ofFault answer)

def firstMatch {τ : Type} (lexer : Lexer) (call : String → Run τ (Option (Value α)))
    (finish : Build σ α → List (Value α) → Run τ (Value α)) (start : Nat) :
    List (Alternative σ α) → Run τ (Option (Value α))
  | [] => return none
  | a :: rest => do
      match ← evaluate lexer call a.plan with
      | some vs => return some (← finish a.build vs)
      | none =>
          restore start
          firstMatch lexer call finish start rest

/-- Reads a non-terminal without keeping outcomes, in at most `n` calls inside each other. -/
def plain (rules : Rules σ α) : Nat → String → Run σ (Option (Value α))
  | 0, _ => stop .stuck
  | n + 1, name => do
      firstMatch rules.lexer (rules.plain n) (buildWith id fun s _ => s) (← position)
        (rules.alternatives name)

def record (name : String) (start : Nat) (memo : Memo (Value α)) : Run (Memos σ α) Unit := do
  let (tape, memos) ← get
  let (memos, fault) := memos.insert name start memo
  set (tape, memos)
  match fault with
  | none => return
  | some f => stop (.fault f)

def memoized (rules : Rules σ α) : Nat → String → Run (Memos σ α) (Option (Value α))
  | 0, _ => stop .stuck
  | n + 1, name => do
      let start ← position
      match ((← get).2.table name).get? start with
      | some memo =>
          let (offset, value) ← ofFault (memo.replay start)
          restore offset
          return value
      | none =>
          let finish (build : Build σ α) (vs : List (Value α)) : Run (Memos σ α) (Value α) := do
            let value ← buildWith Memos.logic (fun s m => { m with logic := s }) build vs
            record name start (.success (← ofFault (subOffset (← position) start)) value)
            return value
          match ← firstMatch rules.lexer (rules.memoized n) finish start
            (rules.alternatives name) with
          | some value => return some value
          | none =>
              record name start .failure
              return none

/-- As many calls inside each other as there are non-terminals and places to call them at. -/
def depth (rules : Rules σ α) (t : Tape) : Nat :=
  (rules.names.length + 1) * (t.remainder.length + 1)

def answer (name : String) (offset : Nat) :
    Except Stop (Option (Value α)) → Except Stop (Value α)
  | .ok (some value) => .ok value
  | .ok none => .error (.error (.noMatch name offset))
  | .error s => .error s

/-- Parses a non-terminal at the place where the tape stands. What follows the match is left; a
text that does not match leaves the tape where it stood. -/
def parse (rules : Rules σ α) (name : String) (tape : Tape) (logic : σ) :
    Except Stop (Value α) × Tape × σ :=
  let (found, t, m) := (rules.memoized (rules.depth tape) name).run (tape, { logic })
  (answer name tape.offset found, t, m.logic)

def parsePlain (rules : Rules σ α) (n : Nat) (name : String) (tape : Tape) (logic : σ) :
    Except Stop (Value α) × Tape × σ :=
  let (found, t, s) := (rules.plain n name).run (tape, logic)
  (answer name tape.offset found, t, s)

/-- Parses a whole text: what follows the match must be ignored text only. -/
def parseAll (rules : Rules σ α) (name : String) (text : List Char) (logic : σ) :
    Except Stop (Value α) × σ :=
  match rules.parse name ⟨text, 0⟩ logic with
  | (.error s, _, logic) => (.error s, logic)
  | (.ok value, tape, logic) =>
      match rules.lexer.next tape with
      | (.error e, _) => (.error (.error e), logic)
      | (.ok none, _) => (.ok value, logic)
      | (.ok (some token), _) => (.error (.error (.noMatch name token.offset)), logic)

end Rules

end Pegsmith.Parsing
