import Pegsmith.Command.Arguments
import Pegsmith.Command.Log
import Pegsmith.Command.Output

set_option autoImplicit false

namespace Pegsmith.Command

inductive GenerateFailure where
  | logLevel (text : String)
  | unreadable (path : String) (e : FileError)
  | malformed (path : String) (e : Description.ReadError)
  | errors (count : Nat)
  | noDirectory (path : String) (e : FileError)
  | unwritable (path : String) (e : FileError)
  | fault (f : Fault)
  deriving DecidableEq, Repr

namespace GenerateFailure

def message : GenerateFailure → String
  | .logLevel text => "`" ++ text ++ "` is not a log level"
  | .unreadable path e => "failed to read `" ++ path ++ "`: " ++ e.text
  | .malformed path _ => "failed to parse `" ++ path ++ "`"
  | .errors count => "generation failed with " ++ toString count ++ " error(s)"
  | .noDirectory path e => "failed to create `" ++ path ++ "`: " ++ e.text
  | .unwritable path e => "failed to write `" ++ path ++ "`: " ++ e.text
  | .fault f => f.message

end GenerateFailure

variable {m : Type → Type} [Monad m]

abbrev GenerateRun (m : Type → Type) := Run GenerateFailure m

def logLevel (a : Arguments) (environment : Option String) : GenerateRun m LogLevel :=
  let text := (a.logLevel.or environment).getD "warn"
  match LogLevel.parse? text with
  | some level => return level
  | none => throw (.logLevel text)

def log (asked level : LogLevel) (text : String) : GenerateRun m Unit := do
  if asked.shows level then report (level.line text)

def Arguments.options (a : Arguments) : Generation.Options :=
  { format := !a.noFormat, header := header ((fileName? a.grammar).getD a.grammar) }

def readAndGenerate (layOut : String → String) (files : Files m) (level : LogLevel)
    (a : Arguments) : GenerateRun m Generation := do
  let source ← ask (.unreadable a.grammar) (files.read a.grammar)
  match Description.parse source with
  | .error e => throw (.malformed a.grammar e)
  | .ok d =>
      match Generation.ofDescription layOut a.options d with
      | .error f => throw (.fault f)
      | .ok g => do
          g.notices.forM fun n => log level (noticeLevel n) (noticeText n)
          return g

def tell (ds : List Diagnostic) : GenerateRun m Unit := do
  ds.forM fun d => do
    report d.text
    report ""
  if hasErrors ds then throw (.errors (errorCount ds))

def generate (layOut : String → String) (files : Files m) (environment : Option String)
    (a : Arguments) : GenerateRun m Unit := do
  let level ← logLevel a environment
  let g ← readAndGenerate layOut files level a
  tell g.diagnostics
  match a.outDir, a.check with
  | some directory, false =>
      ask (.noDirectory directory) (files.makeDirs directory)
      g.parsers.forM fun p => do
        let path ← save files .unwritable directory p
        log level .info (p.name ++ " -> " ++ path)
        print path
  | _, _ => print (toString g.parsers.length ++ " parser(s) ok")

end Pegsmith.Command
