import Pegsmith.Parsing.Token

set_option autoImplicit false

namespace Pegsmith.Parsing

inductive Value (α : Type) where
  | token (t : Token)
  | text (cs : List Char)
  | kind (k : String)
  | own (a : α)
  | list (items : List (Value α))
  | present (v : Value α)
  | missing
  | tuple (members : List (Value α))
  | default
  deriving Inhabited

namespace Value

variable {α : Type}

def together : List (Value α) → Value α
  | [v] => v
  | vs => .tuple vs

def items? : Value α → Option (List (Value α))
  | .list vs => some vs
  | .default => some []
  | _ => none

def concat? (vs : List (Value α)) : Option (List (Value α)) :=
  (vs.mapM items?).map List.flatten

def own? : Value α → Option α
  | .own a => some a
  | _ => none

def token? : Value α → Option Token
  | .token t => some t
  | _ => none

def text? : Value α → Option (List Char)
  | .text cs => some cs
  | _ => none

def kind? : Value α → Option String
  | .kind k => some k
  | _ => none

end Value

end Pegsmith.Parsing
