
set_option autoImplicit false

namespace Pegsmith.Command

structure Arguments where
  grammar : String
  outDir : Option String := none
  noFormat : Bool := false
  check : Bool := false
  logLevel : Option String := none
  deriving DecidableEq, Repr

def version : String :=
  "packrat 0.1.0"

inductive Request where
  | generate (a : Arguments)
  | version
  | help
  deriving DecidableEq, Repr

inductive UsageError where
  | unexpected (argument : String)
  | repeated (name : String)
  | missing (name : String)
  | unneededValue (name : String)
  deriving DecidableEq, Repr

def UsageError.message : UsageError → String
  | .unexpected argument => "unexpected argument '" ++ argument ++ "' found"
  | .repeated name => "the argument '" ++ name ++ "' cannot be used multiple times"
  | .missing name => "a value is required for '" ++ name ++ "'"
  | .unneededValue name => "no value is expected for '" ++ name ++ "'"

namespace Arguments

structure Given where
  grammar : Option String := none
  outDir : Option String := none
  noFormat : Bool := false
  check : Bool := false
  logLevel : Option String := none

namespace Given

def path (name value : String) (before : Option String) : Except UsageError (Option String) :=
  if before.isSome then .error (.repeated name)
  else if value.isEmpty then .error (.missing name)
  else .ok (some value)

def plain (g : Given) (argument : String) : Except UsageError Given :=
  if g.grammar.isSome then .error (.unexpected argument)
  else return { g with grammar := ← path "GRAMMAR" argument none }

def setOutDir (g : Given) (value : String) : Except UsageError Given :=
  return { g with outDir := ← path "--out-dir" value g.outDir }

def setLogLevel (g : Given) (value : String) : Except UsageError Given :=
  if g.logLevel.isSome then .error (.repeated "--log-level")
  else .ok { g with logLevel := some value }

def setCheck (g : Given) : Except UsageError Given :=
  if g.check then .error (.repeated "--check") else .ok { g with check := true }

def setNoFormat (g : Given) : Except UsageError Given :=
  if g.noFormat then .error (.repeated "--no-format") else .ok { g with noFormat := true }

def finish (g : Given) : Except UsageError Request :=
  match g.grammar with
  | none => .error (.missing "GRAMMAR")
  | some grammar =>
      if g.outDir.isNone && !g.check then .error (.missing "--out-dir")
      else .ok (.generate { g with grammar })

end Given

def isPlain (argument : String) : Bool :=
  !argument.startsWith "-" || argument == "-"

def splitOption (argument : String) : String × Option String :=
  let name := argument.toList.takeWhile (· != '=')
  match argument.toList.drop name.length with
  | [] => (argument, none)
  | _ :: value => (String.ofList name, some (String.ofList value))

inductive Item where
  | plain (argument : String)
  | valued (name value : String)
  | lacking (name : String)
  | flag (name : String)

def takesValue (name : String) : Bool :=
  name == "--out-dir" || name == "--log-level"

def attached (argument : String) : Item :=
  match splitOption argument with
  | (name, some value) => .valued name value
  | (name, none) => .flag name

/-- The items that arguments stand for, first of all the value of an option that waits for one. An
option does not take another one as its value, and behind two hyphens no argument is an option. -/
def items (plainOnly : Bool) (waiting : Option String) : List String → List Item
  | [] => waiting.toList.map .lacking
  | argument :: rest =>
      match waiting with
      | some name =>
          if isPlain argument then .valued name argument :: items plainOnly none rest
          else [.lacking name]
      | none =>
          if plainOnly || isPlain argument then .plain argument :: items plainOnly none rest
          else if argument = "--" then items true none rest
          else if takesValue argument then items plainOnly (some argument) rest
          else attached argument :: items plainOnly none rest

def short (name : String) : Except UsageError Request :=
  if name.startsWith "-V" then .ok .version
  else if name.startsWith "-h" then .ok .help
  else .error (.unexpected name)

def isFlag (name : String) : Bool :=
  ["--check", "--no-format", "--version", "--help"].contains name

def take (g : Given) : List Item → Except UsageError Request
  | [] => g.finish
  | .plain argument :: rest => do take (← g.plain argument) rest
  | .valued "--out-dir" value :: rest => do take (← g.setOutDir value) rest
  | .valued "--log-level" value :: rest => do take (← g.setLogLevel value) rest
  | .valued name _ :: _ => if isFlag name then .error (.unneededValue name) else short name
  | .lacking name :: _ => .error (.missing name)
  | .flag "--check" :: rest => do take (← g.setCheck) rest
  | .flag "--no-format" :: rest => do take (← g.setNoFormat) rest
  | .flag "--version" :: _ => .ok .version
  | .flag "--help" :: _ => .ok .help
  | .flag name :: _ => short name

def parse (arguments : List String) : Except UsageError Request :=
  take {} (items false none arguments)

end Arguments

end Pegsmith.Command
