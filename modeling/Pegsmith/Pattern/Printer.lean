import Pegsmith.Pattern.Basic

set_option autoImplicit false

namespace Pegsmith.Pattern

inductive Level where
  | choice
  | sequence
  | repetition
  | discard
  | atom
  deriving DecidableEq, Repr

def Level.rank : Level → Nat
  | .choice => 0
  | .sequence => 1
  | .repetition => 2
  | .discard => 3
  | .atom => 4

def level : Pattern → Level
  | .choice _ _ => .choice
  | .sequence _ _ => .sequence
  | .zeroOrMore _ | .oneOrMore _ | .optional _ => .repetition
  | .discard _ => .discard
  | .terminal _ _ | .nonTerminal _ | .group _ => .atom

def bracketed (text : String) (needed : Bool) : String :=
  if needed then "(" ++ text ++ ")" else text

def textAt (demand : Level) (p : Pattern) : String :=
  bracketed
    (match p with
    | .terminal kind decode => (if decode then "$" else "") ++ kind
    | .nonTerminal name => name
    | .sequence first second => first.textAt .repetition ++ " " ++ second.textAt .sequence
    | .choice first second => first.textAt .sequence ++ " | " ++ second.textAt .choice
    | .zeroOrMore inner => inner.textAt .discard ++ "*"
    | .oneOrMore inner => inner.textAt .discard ++ "+"
    | .optional inner => inner.textAt .discard ++ "?"
    | .group inner => "(" ++ inner.textAt .choice ++ ")"
    | .discard inner => "@" ++ inner.textAt .atom)
    (decide (p.level.rank < demand.rank))

def text (p : Pattern) : String :=
  p.textAt .choice

instance : ToString Pattern := ⟨text⟩

end Pegsmith.Pattern
