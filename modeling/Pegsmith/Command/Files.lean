
set_option autoImplicit false

namespace Pegsmith.Command

inductive FileError where
  | notFound
  | exists
  | notDirectory
  | isDirectory
  | other (text : String)
  deriving DecidableEq, Repr

def FileError.text : FileError → String
  | .notFound => "No such file or directory (os error 2)"
  | .exists => "File exists (os error 17)"
  | .notDirectory => "Not a directory (os error 20)"
  | .isDirectory => "Is a directory (os error 21)"
  | .other text => text

structure Files (m : Type → Type) where
  read : String → m (Except FileError String)
  makeDirs : String → m (Except FileError Unit)
  write : String → String → m (Except FileError Unit)

def parts (path : String) : List String :=
  ((path.toList.splitOn '/').filter (!·.isEmpty)).map String.ofList

def endsInSlash (path : String) : Bool :=
  path.toList.getLast? == some '/'

def wayParts (path : String) : List String :=
  if endsInSlash path then parts path ++ ["."] else parts path

def join (directory file : String) : String :=
  if file.toList.head? == some '/' then file
  else if directory.isEmpty || endsInSlash directory then directory ++ file
  else directory ++ "/" ++ file

def fileName? (path : String) : Option String :=
  ((parts path).filter (· != ".")).getLast?.filter (· != "..")

inductive Entry where
  | file (text : String)
  | directory
  deriving DecidableEq, Repr

structure FileTree where
  entries : List (List String × Entry) := []
  deriving DecidableEq, Repr

namespace FileTree

def find? (t : FileTree) : List String → Option Entry
  | [] => some .directory
  | place => t.entries.lookup place

def insert (t : FileTree) (place : List String) (e : Entry) : FileTree :=
  if (t.entries.lookup place).isSome then
    ⟨t.entries.map fun entry => if entry.1 = place then (place, e) else entry⟩
  else ⟨t.entries ++ [(place, e)]⟩

/-- Where a way leads to; at its last place nothing has to be. -/
def walk (t : FileTree) : List String → List String → Except FileError (List String)
  | place, [] => .ok place
  | place, part :: rest =>
      match t.find? place with
      | none => .error .notFound
      | some (.file _) => .error .notDirectory
      | some .directory =>
          if part = "." then t.walk place rest
          else if part = ".." then t.walk place.dropLast rest
          else t.walk (place ++ [part]) rest

def isDirectory (t : FileTree) (way : List String) : Bool :=
  match t.walk [] way with
  | .ok place => t.find? place == some .directory
  | .error _ => false

def read (t : FileTree) (path : String) : Except FileError String := do
  if path.isEmpty then .error .notFound
  else
    match t.find? (← t.walk [] (wayParts path)) with
    | none => .error .notFound
    | some .directory => .error .isDirectory
    | some (.file text) => .ok text

def write (t : FileTree) (path text : String) : Except FileError FileTree := do
  let place ← t.walk [] (wayParts path)
  if t.find? place = some .directory then .error .isDirectory
  else .ok (t.insert place (.file text))

def makeDir (t : FileTree) (way : List String) : Except FileError FileTree := do
  let place ← t.walk [] way
  if (t.find? place).isSome then .error .exists else .ok (t.insert place .directory)

def ways (way : List String) : List (List String) :=
  let names := way.filter (· != ".")
  way :: (List.range (names.length - 1)).reverse.map fun n => names.take (n + 1)

def makeFirst (t : FileTree) : List (List String) → Except FileError FileTree
  | [] => .ok t
  | way :: outer =>
      let orThere (t : FileTree) (e : FileError) : Except FileError FileTree :=
        if t.isDirectory way then .ok t else .error e
      match t.makeDir way with
      | .ok t => .ok t
      | .error .notFound => do
          let t ← t.makeFirst outer
          match t.makeDir way with
          | .ok t => .ok t
          | .error e => orThere t e
      | .error e => orThere t e

def makeDirs (t : FileTree) (path : String) : Except FileError FileTree :=
  if path.isEmpty then .ok t else t.makeFirst (ways (parts path))

def plant (t : FileTree) (path text : String) : FileTree :=
  let place := parts path
  let t := ((ways place).drop 1).foldl (fun t way => t.insert way .directory) t
  t.insert place (.file text)

def files (t : FileTree) : List (String × String) :=
  t.entries.filterMap fun
    | (place, .file text) => some ("/".intercalate place, text)
    | _ => none

def keeping (step : FileTree → Except FileError FileTree) :
    StateM FileTree (Except FileError Unit) := do
  match step (← get) with
  | .ok t => set t; return .ok ()
  | .error e => return .error e

def system : Files (StateM FileTree) where
  read path := return (← get).read path
  makeDirs path := keeping (·.makeDirs path)
  write path text := keeping (·.write path text)

end FileTree

end Pegsmith.Command
