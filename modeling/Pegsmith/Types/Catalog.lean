import Pegsmith.Description
import Pegsmith.Diagnostic
import Pegsmith.Source.Grammar

/-!
What is known about types: the declared ones, and for any type what can be read off the way it is
written. A type system is the questions that a generator asks; a catalog of declarations answers
them.
-/

set_option autoImplicit false

namespace Pegsmith

/-- What a type means as the type of a value. A map is one value, never taken apart. -/
inductive TypeView where
  | text
  | rawToken
  | map
  | list (item : HostType)
  | optional (inner : HostType)
  | tuple (members : List HostType)
  | unit
  | named
  deriving DecidableEq

structure Constructor where
  path : String
  params : List HostType
  deriving DecidableEq

structure TypeSystem where
  view : HostType → TypeView
  constructors : HostType → Nat → List Constructor
  isSubtype : HostType → HostType → Bool
  isEnum : HostType → Bool
  nesting : HostType → Nat

structure DeclaredType where
  kind : Description.TypeKind := .struct
  base : Option HostType := none
  listOf : Option HostType := none
  map : Bool := false
  constructors : List Constructor := []
  deriving DecidableEq

/-- Declared types, latest first; a later declaration of a type hides an earlier one. -/
structure Catalog where
  entries : List (HostType × DeclaredType) := []

namespace Catalog

def find? (c : Catalog) (t : HostType) : Option DeclaredType :=
  c.entries.lookup t

def isDeclared (c : Catalog) (t : HostType) : Bool :=
  (c.find? t).isSome

def declare (c : Catalog) (t : HostType) (d : DeclaredType) : Catalog :=
  ⟨(t, d) :: c.entries⟩

def declareEnum (c : Catalog) (t : HostType) : Catalog :=
  if c.isDeclared t then c else c.declare t { kind := .enum }

theorem find?_declare (c : Catalog) (t u : HostType) (d : DeclaredType) :
    (c.declare t d).find? u = if u = t then some d else c.find? u := by
  by_cases h : u = t
  · simp [find?, declare, h]
  · simp [find?, declare, List.lookup_cons, h, beq_false_of_ne h]

def base? (c : Catalog) (t : HostType) : Option HostType :=
  (c.find? t).bind (·.base)

def walk (c : Catalog) : Nat → List HostType → HostType → List HostType
  | 0, _, t => [t]
  | n + 1, seen, t =>
      match c.base? t with
      | none => [t]
      | some b => if seen.contains b then [t] else t :: c.walk n (b :: seen) b

/-- A type and the types it derives from, nearest first. Every step leaves a declared type that
was not left before, so there are no more steps than declarations. -/
def baseChain (c : Catalog) (t : HostType) : List HostType :=
  c.walk c.entries.length [t] t

def isSubtype (c : Catalog) (sub sup : HostType) : Bool :=
  sub != sup && (c.baseChain sub).contains sup

def mapTypes : List String := ["HashMap", "BTreeMap", "IndexMap"]

def listTypes : List String := ["Vec", "VecDeque", "LinkedList", "HashSet", "BTreeSet"]

def viewOfName (head : String) (args : List HostType) : TypeView :=
  match args with
  | [arg] =>
      if listTypes.contains head then .list arg
      else if head == "Option" then .optional arg
      else .named
  | _ => .named

/-- Text and tokens cannot be declared to be anything else; what is declared goes before what the
name suggests. -/
def view (c : Catalog) (t : HostType) : TypeView :=
  match t.tupleElems?, t.head? with
  | some [], _ => .unit
  | some members, _ => .tuple members
  | none, none => .named
  | none, some head =>
      let args := t.typeArgs
      let declared := (c.find? t).getD {}
      if head == "String" && args.isEmpty then .text
      else if head == "Token" && args.isEmpty then .rawToken
      else if declared.map || mapTypes.contains head then .map
      else
        match declared.listOf with
        | some item => .list item
        | none => viewOfName head args

def constructors (c : Catalog) (t : HostType) (arity : Nat) : List Constructor :=
  ((c.find? t).getD {}).constructors.filter fun ctor =>
    ctor.params.length == arity && !ctor.params.isEmpty && ctor.params != [t]

def isEnum (c : Catalog) (t : HostType) : Bool :=
  (c.find? t).any (·.kind == .enum)

def nesting (c : Catalog) (t : HostType) : Nat :=
  let items := c.entries.filterMap (·.2.listOf)
  (t :: items).foldr (fun u n => u.key.length + 1 + n) 0

def types (c : Catalog) : TypeSystem :=
  { view := c.view, constructors := c.constructors, isSubtype := c.isSubtype, isEnum := c.isEnum,
    nesting := c.nesting }

def readType (src : String) : Except String HostType :=
  match HostType.parse? src with
  | some t => .ok t
  | none => .error src

def readConstructor (c : Description.Constructor) : Except String Constructor := do
  return ⟨c.path, ← c.params.mapM readType⟩

def readEntry (e : Description.TypeEntry) : Except String (HostType × DeclaredType) := do
  let t ← readType e.name
  let base ← e.base.mapM readType
  let listOf ← e.listOf.mapM readType
  let constructors ← e.constructors.mapM readConstructor
  return (t, { kind := e.kind, base, listOf, map := e.map, constructors })

def invalidType (path src : String) : Diagnostic :=
  ⟨.invalidType, "`" ++ src ++ "` is not a valid type", ⟨path, none⟩⟩

def addLexer (acc : Catalog × List Diagnostic) (l : Description.Lexer) :
    Catalog × List Diagnostic :=
  match readType l.tokenType with
  | .ok t => (acc.1.declareEnum t, acc.2)
  | .error src => (acc.1, acc.2 ++ [invalidType ("lexer " ++ l.tokenType) src])

def addEntry (acc : Catalog × List Diagnostic) (e : Description.TypeEntry) :
    Catalog × List Diagnostic :=
  match readEntry e with
  | .ok (t, d) => (acc.1.declare t d, acc.2)
  | .error src => (acc.1, acc.2 ++ [invalidType ("type " ++ e.name) src])

def ofDescription (d : Description) : Catalog × List Diagnostic :=
  d.types.foldl addEntry (d.lexers.foldl addLexer ({}, []))

end Catalog

end Pegsmith
