
set_option autoImplicit false

namespace Pegsmith.Toml

inductive Origin where
  | inline
  | header
  /-- Only named on the way to another header. -/
  | implied
  /-- Named on the way to a dotted key. -/
  | dotted
  deriving DecidableEq, Repr

inductive Value where
  | text (s : String)
  | integer (n : Int)
  | float (written : String)
  | boolean (b : Bool)
  | dateTime (written : String)
  /-- An array, which headers may add tables to if they began it. -/
  | array (growing : Bool) (items : List Value)
  | table (origin : Origin) (entries : List (String × Value))
  deriving Inhabited

structure Table where
  origin : Origin
  entries : List (String × Value) := []

namespace Table

def value (t : Table) : Value :=
  .table t.origin t.entries

def find? (t : Table) (key : String) : Option Value :=
  t.entries.lookup key

def add (t : Table) (key : String) (v : Value) : Table :=
  { t with entries := t.entries ++ [(key, v)] }

def replace (t : Table) (key : String) (v : Value) : Table :=
  { t with entries := t.entries.map fun entry => if entry.1 = key then (key, v) else entry }

def remove (t : Table) (key : String) : Table :=
  { t with entries := t.entries.filter (·.1 != key) }

def insert? (t : Table) (key : String) (v : Value) : Option Table :=
  if (t.find? key).isSome then none else some (t.add key v)

def mayEnter (dotted : Bool) : Origin → Bool
  | .inline => false
  | .header => !dotted
  | .implied | .dotted => true

def wayOrigin (dotted : Bool) : Origin :=
  if dotted then .dotted else .implied

/-- Changes the table that a path leads to. Tables on the way come about where there are none, and
a way into an array of tables goes to its last one. -/
def change (dotted : Bool) (f : Table → Option Table) : List String → Table → Option Table
  | [], t => f t
  | key :: path, t =>
      match t.find? key with
      | none => do
          let u ← change dotted f path ⟨wayOrigin dotted, []⟩
          return t.add key u.value
      | some (.table origin entries) =>
          if mayEnter dotted origin then do
            let u ← change dotted f path ⟨origin, entries⟩
            return t.replace key u.value
          else none
      | some (.array true items) =>
          match items.getLast? with
          | some (.table origin entries) => do
              let u ← change dotted f path ⟨origin, entries⟩
              return t.replace key (.array true (items.dropLast ++ [u.value]))
          | _ => none
      | some _ => none

/-- Adds an entry under a dotted key, of which all but the last part is the way. Its table has to be
one that only dotted keys have written, unless it is the one that the way starts at. -/
def addDotted (way : List String) (key : String) (v : Value) (t : Table) : Option Table :=
  t.change true (fun u =>
    if (u.origin == .dotted) == way.isEmpty then none else u.insert? key v) way

/-- Begins the table of a header. One that was only named on the way before may still be begun. -/
def begin (key : String) (t : Table) : Option Table :=
  match t.find? key with
  | none => some (t.add key (.table .header []))
  | some (.table .implied entries) => some ((t.remove key).add key (.table .header entries))
  | some _ => none

def grow (key : String) (t : Table) : Option Table :=
  match t.find? key with
  | none => some (t.add key (.array true [.table .header []]))
  | some (.array true items) =>
      some (t.replace key (.array true (items ++ [.table .header []])))
  | some _ => none

end Table

end Pegsmith.Toml
