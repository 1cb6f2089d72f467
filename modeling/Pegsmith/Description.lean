
set_option autoImplicit false

namespace Pegsmith

namespace Description

/-- A kind may be listed several times to give it several rules; without a regex it is only
declared. -/
structure Token where
  name : String
  regex : Option String := none
  ignored : Bool := false
  deriving DecidableEq, Repr

structure Lexer where
  tokenType : String
  tokens : List Token := []
  deriving DecidableEq, Repr

structure Function where
  name : String
  params : List String := []
  returns : String
  deriving DecidableEq, Repr

structure Production where
  name : String
  pattern : String
  function : Option String := none
  construct : Option String := none
  deriving DecidableEq, Repr

structure Parser where
  name : String
  tokenType : Option String := none
  functions : List Function := []
  productions : List Production := []
  deriving DecidableEq, Repr

inductive TypeKind where
  | struct
  | enum
  deriving DecidableEq, Repr, Inhabited

structure Constructor where
  path : String
  params : List String := []
  deriving DecidableEq, Repr

structure TypeEntry where
  name : String
  kind : TypeKind := .struct
  base : Option String := none
  listOf : Option String := none
  map : Bool := false
  constructors : List Constructor := []
  deriving DecidableEq, Repr

end Description

structure Description where
  lexers : List Description.Lexer := []
  parsers : List Description.Parser := []
  types : List Description.TypeEntry := []
  deriving DecidableEq, Repr

end Pegsmith
