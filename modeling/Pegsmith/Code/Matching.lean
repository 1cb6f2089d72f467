import Pegsmith.Code.Name
import Pegsmith.Code.Writer
import Pegsmith.Plan.Basic

set_option autoImplicit false

namespace Pegsmith.Code

structure Emission where
  writer : Writer := {}
  counts : List (String × Nat) := []
  deriving DecidableEq, Repr

abbrev Emit := StateT Emission (Except Fault)

structure Emitted where
  guards : Guards := {}
  outputs : List String := []
  deriving DecidableEq, Repr

namespace Emitted

def append (e inner : Emitted) : Emitted :=
  ⟨e.guards.append inner.guards, e.outputs ++ inner.outputs⟩

def guard (e : Emitted) (b : Block) : Emitted :=
  { e with guards := e.guards.push b }

end Emitted

namespace Emit

def line (text : String) : Emit Unit :=
  modify fun e => { e with writer := e.writer.line text }

def blank : Emit Unit :=
  modify fun e => { e with writer := e.writer.blank }

def openBlock (header : String) : Emit Block := do
  let e ← get
  let (block, writer) := e.writer.openBlock header
  set { e with writer }
  return block

def close (b : Block) : Emit Unit := do
  let e ← get
  let writer ← e.writer.close b
  set { e with writer }

def closeEach : List Block → Emit Unit
  | [] => return
  | b :: bs => do close b; closeEach bs

def release (g : Guards) : Emit Unit :=
  closeEach g.blocks

def within (header : String) (body : Emit Unit) : Emit Unit := do
  let block ← openBlock header
  body
  close block

def fresh (kind : String) : Emit String := do
  let e ← get
  let n := (e.counts.lookup kind).getD 0 + 1
  set { e with counts := (kind, n) :: e.counts.filter (·.1 != kind) }
  return s!"{kind}{n}"

end Emit

open Emit

def tupleText : List String → String
  | [single] => single
  | many => "(" ++ ", ".intercalate many ++ ")"

def packText : List String → String
  | [single] => "(" ++ single ++ ",)"
  | many => tupleText many

def convertText (type : String) (value : String) : String :=
  s!"::core::convert::Into::<{type}>::into({value})"

def emitToken (tokenType kind : String) (use : TokenUse) : Emit Emitted := do
  let next := s!"lexer.next_if({tokenType}::{kind})?"
  if use = .nothing then
    let block ← openBlock s!"if {next}.is_some()"
    return { guards := ⟨[block]⟩ }
  else
    let token ← fresh "token"
    let block ← openBlock s!"if let Some({token}) = {next}"
    let output :=
      match use with
      | .text => s!"{token}.text.to_owned()"
      | .kind => s!"{token}.kind"
      | _ => token
    return { guards := ⟨[block]⟩, outputs := [output] }

def emitCall (nonTerminal : String) (keep : Bool) (into : Option HostType) : Emit Emitted := do
  let method := ruleMethod nonTerminal
  let call := s!"self.{method}(lexer)?"
  if keep then
    let value ← fresh (snakeCase nonTerminal ++ "_")
    let block ← openBlock s!"if let Some({value}) = {call}"
    let output :=
      match into with
      | some type => convertText type.text value
      | none => value
    return { guards := ⟨[block]⟩, outputs := [output] }
  else
    let block ← openBlock s!"if {call}.is_some()"
    return { guards := ⟨[block]⟩ }

def emitConcat (lists : List String) : Emit String := do
  let concat ← fresh "concat"
  match lists with
  | [] => line s!"let mut {concat} = ::std::vec::Vec::new();"
  | first :: rest =>
      line s!"let mut {concat} = {first};"
      rest.forM fun list => line s!"{concat}.extend({list});"
  return concat

def freshIf (used : Bool) (kind : String) : Emit (Option String) :=
  if used then some <$> fresh kind else return none

def lineIf (wanted : Bool) (text : String) : Emit Unit :=
  if wanted then line text else return

def emitRound (label restore : String) (list count : Option String) (body : Emit Emitted) :
    Emit Unit := do
  line s!"let {restore} = lexer.position();"
  let round ← body
  list.forM fun list =>
    let values := tupleText round.outputs
    line s!"{list}.push({values});"
  count.forM fun count => line s!"{count} += 1;"
  line s!"if lexer.position() == {restore} \x7b break '{label}; \x7d"
  line s!"continue '{label};"
  release round.guards
  line s!"lexer.restore({restore});"
  line s!"break '{label};"

/-- A loop that ends at the first round that does not match, or that takes no input. -/
def emitLoop (body : Emit Emitted) (atLeastOne keep : Bool) : Emit Emitted := do
  let label ← fresh "repeat"
  let restore ← fresh "restore"
  let list ← freshIf keep "list"
  let count ← freshIf (atLeastOne && !keep) "count"
  list.forM fun list => line s!"let mut {list} = ::std::vec::Vec::new();"
  count.forM fun count => line s!"let mut {count} = 0usize;"
  within s!"'{label}: loop" (emitRound label restore list count body)
  let result : Emitted := { outputs := list.toList }
  match list, count with
  | some list, _ =>
      if atLeastOne then return result.guard (← openBlock s!"if !{list}.is_empty()")
      else return result
  | none, some count => return result.guard (← openBlock s!"if {count} > 0")
  | none, none => return result

def optionalValues (optional : String) (n : Nat) : Fallback → Emit (List String)
  | .nothing => return []
  | .keep => return [optional]
  | .default => do
      if n = 1 then return [s!"{optional}.unwrap_or_default()"]
      let values := (List.range n).map fun i => s!"{optional}_{i}"
      let names := tupleText values
      line s!"let {names} = {optional}.unwrap_or_default();"
      return values

def emitOptional (body : Emit Emitted) (arity : Nat) (fallback : Fallback) : Emit Emitted := do
  let fallback := if arity = 0 then .nothing else fallback
  let restore ← fresh "restore"
  let optional ← fresh "optional"
  line s!"let {restore} = lexer.position();"
  lineIf (fallback ≠ .nothing) s!"let mut {optional} = None;"
  let block ← openBlock s!"'{optional}:"
  let inner ← body
  let values := tupleText inner.outputs
  lineIf (fallback ≠ .nothing) s!"{optional} = Some({values});"
  line s!"break '{optional};"
  release inner.guards
  line s!"lexer.restore({restore});"
  close block
  return { outputs := ← optionalValues optional inner.outputs.length fallback }

def emitBranch (restore choice : String) (arity : Nat) (body : Emit Emitted) : Emit Unit := do
  let branch ← body
  let values := tupleText branch.outputs
  line (if arity = 0 then s!"{choice} = true;" else s!"{choice} = Some({values});")
  line s!"break '{choice};"
  release branch.guards
  line s!"lexer.restore({restore});"

def freshEach (kind : String) : Nat → Emit (List String)
  | 0 => return []
  | n + 1 => do
      let name ← fresh kind
      return name :: (← freshEach kind n)

def emitChoice (bodies : String → String → Emit Unit) (arity : Nat) : Emit Emitted := do
  let restore ← fresh "restore"
  let choice ← fresh "choice"
  line s!"let {restore} = lexer.position();"
  line (if arity = 0 then s!"let mut {choice} = false;" else s!"let mut {choice} = None;")
  within s!"'{choice}:" (bodies restore choice)
  if arity = 0 then return { guards := ⟨[← openBlock s!"if {choice}"]⟩ }
  else
    let chosen ← freshEach "chosen" arity
    let names := tupleText chosen
    let block ← openBlock s!"if let Some({names}) = {choice}"
    return { guards := ⟨[block]⟩, outputs := chosen }

mutual

def emit (tokenType : String) : Plan → Emit Emitted
  | .token kind use => emitToken tokenType kind use
  | .call nonTerminal keep into => emitCall nonTerminal keep into
  | .sequence parts => emitParts tokenType parts
  | .single inner => do
      let e ← emit tokenType inner
      return { e with outputs := ["vec![" ++ tupleText e.outputs ++ "]"] }
  | .present inner => do
      let e ← emit tokenType inner
      return { e with outputs := ["Some(" ++ tupleText e.outputs ++ ")"] }
  | .pack inner => do
      let e ← emit tokenType inner
      return { e with outputs := [packText e.outputs] }
  | .collect inner type => do
      let e ← emit tokenType inner
      let list := tupleText e.outputs
      let type := type.text
      return { e with outputs := [s!"{list}.into_iter().collect::<{type}>()"] }
  | .concat parts => do
      let e ← emitParts tokenType parts
      return { e with outputs := [← emitConcat e.outputs] }
  | .loop inner atLeastOne keep => emitLoop (emit tokenType inner) atLeastOne keep
  | .optional inner fallback => emitOptional (emit tokenType inner) inner.arity fallback
  | .choice branches =>
      emitChoice (fun restore choice =>
        emitBranches tokenType restore choice (Plan.firstArity branches) branches)
        (Plan.firstArity branches)

def emitParts (tokenType : String) : List Plan → Emit Emitted
  | [] => return {}
  | p :: ps => do
      let e ← emit tokenType p
      return e.append (← emitParts tokenType ps)

def emitBranches (tokenType restore choice : String) (arity : Nat) : List Plan → Emit Unit
  | [] => return
  | p :: ps => do
      emitBranch restore choice arity (emit tokenType p)
      emitBranches tokenType restore choice arity ps

end

end Pegsmith.Code
