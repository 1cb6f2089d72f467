import Pegsmith.Command.Files
import Pegsmith.Description.Reader
import Pegsmith.Generation

set_option autoImplicit false

namespace Pegsmith.Command

structure Output where
  out : List String := []
  err : List String := []
  deriving DecidableEq, Repr

abbrev Run (ε : Type) (m : Type → Type) := ExceptT ε (StateT Output m)

variable {ε α : Type} {m : Type → Type} [Monad m]

def print (line : String) : Run ε m Unit :=
  modify fun o => { o with out := o.out ++ [line] }

def report (line : String) : Run ε m Unit :=
  modify fun o => { o with err := o.err ++ [line] }

def ask (fail : FileError → ε) (question : m (Except FileError α)) : Run ε m α := do
  match ← ExceptT.lift (StateT.lift question) with
  | .ok a => return a
  | .error e => throw (fail e)

def save (files : Files m) (fail : String → FileError → ε) (directory : String)
    (p : GeneratedParser) : Run ε m String := do
  let path := join directory p.fileName
  ask (fail path) (files.write path p.source)
  return path

def errorCount (ds : List Diagnostic) : Nat :=
  ds.countP Diagnostic.isError

def header (name : String) : String :=
  "Generated by packrat from `" ++ name ++ "`, edit the grammar instead."

end Pegsmith.Command
