import Pegsmith.Parsing.Lexer
import Pegsmith.Parsing.Value
import Pegsmith.Plan.Basic

set_option autoImplicit false

namespace Pegsmith.Parsing

inductive Stop where
  | error (e : ParseError)
  | fault (f : Fault)
  /-- The run is deeper than its bound, or a value is of no use where it is asked for. -/
  | stuck
  deriving DecidableEq, Repr

/-- A run reads from a tape and changes a state of its own; both survive a stop. -/
abbrev Run (σ : Type) := ExceptT Stop (StateM (Tape × σ))

namespace Run

variable {σ β : Type}

def position : Run σ Nat :=
  return (← get).1.offset

def stop (s : Stop) : Run σ β :=
  throw s

def ofFault (r : Except Fault β) : Run σ β :=
  match r with
  | .ok b => return b
  | .error f => stop (.fault f)

def restore (offset : Nat) : Run σ Unit := do
  let (tape, s) ← get
  set (← ofFault (tape.seek offset), s)

def useful (v : Option β) : Run σ β :=
  match v with
  | some b => return b
  | none => stop .stuck

def take? (lexer : Lexer) (kind : String) : Run σ (Option Token) := do
  let (tape, s) ← get
  let (answer, tape) := lexer.nextIf kind tape
  set (tape, s)
  match answer with
  | .ok token => return token
  | .error e => stop (.error e)

end Run

open Run

variable {σ α : Type}

abbrev Outputs (α : Type) := Option (List (Value α))

def oneValue (body : Run σ (Outputs α)) (f : List (Value α) → Option (Value α)) :
    Run σ (Outputs α) := do
  match ← body with
  | none => return none
  | some vs => return some [← useful (f vs)]

def useToken (use : TokenUse) (t : Token) : List (Value α) :=
  match use with
  | .nothing => []
  | .token => [.token t]
  | .text => [.text t.text]
  | .kind => [.kind t.kind]

def rounds (body : Run σ (Outputs α)) : Nat → Run σ (List (List (Value α)))
  | 0 => stop .stuck
  | n + 1 => do
      let start ← position
      match ← body with
      | none => restore start; return []
      | some vs =>
          if (← position) = start then return [vs] else return vs :: (← rounds body n)

def loop (body : Run σ (Outputs α)) (atLeastOne keep : Bool) : Run σ (Outputs α) := do
  let (tape, _) ← get
  let found ← rounds body (tape.remainder.length + 2)
  if atLeastOne && found.isEmpty then return none
  else return some (if keep then [.list (found.map Value.together)] else [])

def fill (arity : Nat) (fallback : Fallback) (found : Outputs α) : List (Value α) :=
  match (if arity = 0 then .nothing else fallback), found with
  | .nothing, _ => []
  | .keep, some vs => [.present (Value.together vs)]
  | .keep, none => [.missing]
  | .default, some vs => vs
  | .default, none => List.replicate arity .default

def optional (body : Run σ (Outputs α)) (arity : Nat) (fallback : Fallback) : Run σ (Outputs α) := do
  let start ← position
  let found ← body
  if found.isNone then restore start
  return some (fill arity fallback found)

mutual

def evaluate (lexer : Lexer) (call : String → Run σ (Option (Value α))) : Plan → Run σ (Outputs α)
  | .token kind use => do return (← take? lexer kind).map (useToken use)
  | .call name keep _ => do return (← call name).map fun v => if keep then [v] else []
  | .sequence parts => evaluateParts lexer call parts
  | .single inner => oneValue (evaluate lexer call inner) fun vs => some (.list [Value.together vs])
  | .present inner =>
      oneValue (evaluate lexer call inner) fun vs => some (.present (Value.together vs))
  | .pack inner => oneValue (evaluate lexer call inner) fun vs => some (.tuple vs)
  | .collect inner _ => evaluate lexer call inner
  | .concat parts => oneValue (evaluateParts lexer call parts) fun vs => (Value.concat? vs).map .list
  | .loop inner atLeastOne keep => loop (evaluate lexer call inner) atLeastOne keep
  | .optional inner fallback => optional (evaluate lexer call inner) inner.arity fallback
  | .choice branches => do evaluateBranches lexer call (← position) branches

def evaluateParts (lexer : Lexer) (call : String → Run σ (Option (Value α))) :
    List Plan → Run σ (Outputs α)
  | [] => return some []
  | p :: ps => do
      match ← evaluate lexer call p with
      | none => return none
      | some vs => return (← evaluateParts lexer call ps).map (vs ++ ·)

def evaluateBranches (lexer : Lexer) (call : String → Run σ (Option (Value α))) (start : Nat) :
    List Plan → Run σ (Outputs α)
  | [] => return none
  | p :: ps => do
      match ← evaluate lexer call p with
      | some vs => return some vs
      | none =>
          restore start
          evaluateBranches lexer call start ps

end

end Pegsmith.Parsing
