import Pegsmith.Command.Generate

set_option autoImplicit false

namespace Pegsmith.Command

def fileError : IO.Error → FileError
  | .noFileOrDirectory .. => .notFound
  | .alreadyExists .. => .exists
  | e => .other (toString e)

def attempt {α : Type} (step : IO α) : IO (Except FileError α) := do
  match ← step.toBaseIO with
  | .ok a => return .ok a
  | .error e => return .error (fileError e)

def realFiles : Files IO where
  read path := attempt (IO.FS.readFile path)
  makeDirs path := attempt (IO.FS.createDirAll path)
  write path text := attempt (IO.FS.writeFile path text)

def usage : String :=
  "Usage: packrat [OPTIONS] <GRAMMAR>\n\n" ++
    "Options:\n" ++
    "  --out-dir <OUT_DIR>      Directory receiving one file per parser\n" ++
    "  --no-format              Write the generated code as it is\n" ++
    "  --check                  Only report diagnostics, write nothing\n" ++
    "  --log-level <LOG_LEVEL>  One of off, error, warn, info, debug, trace\n" ++
    "  --help                   Print help\n" ++
    "  --version                Print version"

/-- No layout comes with this program, so code is written as it is emitted. -/
def runGenerate (a : Arguments) : IO UInt32 := do
  let (result, output) ← (generate id realFiles (← IO.getEnv "RUST_LOG") a).run.run {}
  output.out.forM (IO.println ·)
  output.err.forM (IO.eprintln ·)
  match result with
  | .ok () => return 0
  | .error e =>
      IO.eprintln ("error: " ++ e.message)
      return 1

end Pegsmith.Command

open Pegsmith.Command in
def main (arguments : List String) : IO UInt32 := do
  match Arguments.parse arguments with
  | .error e =>
      IO.eprintln ("error: " ++ e.message)
      return 2
  | .ok .version => IO.println version; return 0
  | .ok .help => IO.println usage; return 0
  | .ok (.generate a) => runGenerate a
