import Pegsmith.Toml.Scalar
import Pegsmith.Toml.Text

/-!
Reading TOML documents: statements first, each on a line of its own, and then the tables that they
write into.
-/

set_option autoImplicit false

namespace Pegsmith.Toml

open Text (Scan)
open Text.Scan

def isScalar (c : Char) : Bool :=
  c.isAlphanum || c == '_' || c == '+' || c == '-' || c == '.' || c == ':'

def scalar : Scan Value := do
  let front ← takeWhile isScalar
  let cs ←
    match ← get with
    | ' ' :: c :: _ =>
        if isDate front && c.isDigit then do
          let _ ← next
          pure (front ++ ' ' :: (← takeWhile isScalar))
        else pure front
    | _ => pure front
  match scalar? cs with
  | some v => return v
  | none => failure

def items (item : Scan Value) : Nat → Scan (List Value)
  | 0 => failure
  | n + 1 => do
      skipLines (← get).length
      if ← skipWord "]" then return []
      else
        let v ← item
        skipLines (← get).length
        if ← skipWord "," then return v :: (← items item n)
        else
          expect ']'
          return [v]

def pair (item : Scan Value) : Scan ((List String × String) × Value) := do
  let k ← key
  expect '='
  skipBlanks
  let v ← item
  skipBlanks
  return (k, v)

def pairs (item : Scan Value) : Nat → Scan (List ((List String × String) × Value))
  | 0 => failure
  | n + 1 => do
      let entry ← pair item
      if ← skipWord "," then return entry :: (← pairs item n)
      else
        expect '\x7d'
        return [entry]

def inlineTable (entries : List ((List String × String) × Value)) : Option Table :=
  entries.foldlM (fun t entry => t.addDotted entry.1.1 entry.1.2 entry.2) ⟨.inline, []⟩

def value : Nat → Scan Value
  | 0 => do
      match ← peek? with
      | some '"' => return .text (← text '"')
      | some '\'' => return .text (← text '\'')
      | _ => scalar
  | n + 1 => do
      match ← peek? with
      | some '"' => return .text (← text '"')
      | some '\'' => return .text (← text '\'')
      | some '[' =>
          let _ ← next
          return .array false (← items (value n) (← get).length)
      | some '\x7b' =>
          let _ ← next
          skipBlanks
          if ← skipWord "\x7d" then return .table .inline []
          else
            match inlineTable (← pairs (value n) (← get).length) with
            | some t => return t.value
            | none => failure
      | _ => scalar

inductive Statement where
  | entry (way : List String) (key : String) (v : Value)
  | header (way : List String) (key : String)
  | further (way : List String) (key : String)

def statement : Scan Statement := do
  if ← skipWord "[[" then
    let (way, k) ← key
    guard (← skipWord "]]")
    return .further way k
  else if ← skipWord "[" then
    let (way, k) ← key
    expect ']'
    return .header way k
  else
    let ((way, k), v) ← pair (value (depthLimit - 1))
    return .entry way k v

def statements : Nat → Scan (List Statement)
  | 0 => return []
  | n + 1 => do
      skipLines (← get).length
      if ← atEnd then return []
      else
        let s ← statement
        endLine
        return s :: (← statements n)

structure Document where
  root : Table := ⟨.header, []⟩
  place : List String := []

namespace Document

def apply (d : Document) : Statement → Option Document
  | .entry way key v =>
      (d.root.change false (fun t => t.addDotted way key v) d.place).map fun root =>
        { d with root }
  | .header way key =>
      (d.root.change false (fun t => t.begin key) way).map fun root =>
        ⟨root, way ++ [key]⟩
  | .further way key =>
      (d.root.change false (fun t => t.grow key) way).map fun root =>
        ⟨root, way ++ [key]⟩

end Document

def byteOrderMark : Char := '\ufeff'

def parse? (source : String) : Option Table := do
  let cs := source.toList
  let cs := if cs.head? == some byteOrderMark then cs.drop 1 else cs
  let (all, rest) ← (statements (cs.length + 1)).run cs
  if rest.isEmpty then
    let d ← all.foldlM Document.apply {}
    return d.root
  else none

end Pegsmith.Toml
