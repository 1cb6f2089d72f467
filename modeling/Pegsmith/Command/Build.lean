import Pegsmith.Command.Output

set_option autoImplicit false

namespace Pegsmith.Command

inductive BuildFailure where
  | access (path : String) (e : FileError)
  | malformed (path : String) (e : Description.ReadError)
  | errors (path : String) (count : Nat)
  | fault (f : Fault)
  deriving DecidableEq, Repr

def BuildFailure.message : BuildFailure → String
  | .access path e => "failed to access `" ++ path ++ "`: " ++ e.text
  | .malformed path _ => "`" ++ path ++ "` is not a valid grammar description"
  | .errors path count =>
      "`" ++ path ++ "` has " ++ toString count ++ " error(s), see the warnings above"
  | .fault f => f.message

variable {m : Type → Type} [Monad m]

def build (layOut : String → String) (files : Files m) (grammar directory : String) :
    Run BuildFailure m (List String) := do
  print ("cargo:rerun-if-changed=" ++ grammar)
  let source ← ask (.access grammar) (files.read grammar)
  match Description.parse source with
  | .error e => throw (.malformed grammar e)
  | .ok d =>
      match Generation.ofDescription layOut { header := header grammar } d with
      | .error f => throw (.fault f)
      | .ok g => do
          g.diagnostics.forM fun d =>
            print ("cargo:warning=" ++ d.code.text ++ ": " ++ d.message ++ " (" ++
              d.location.text ++ ")")
          if hasErrors g.diagnostics then throw (.errors grammar (errorCount g.diagnostics))
          ask (.access directory) (files.makeDirs directory)
          g.parsers.mapM fun p => save files .access directory p

end Pegsmith.Command
