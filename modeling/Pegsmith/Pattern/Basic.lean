
set_option autoImplicit false

namespace Pegsmith

inductive Pattern where
  | terminal (kind : String) (decode : Bool)
  | nonTerminal (name : String)
  | sequence (first second : Pattern)
  | choice (first second : Pattern)
  | zeroOrMore (inner : Pattern)
  | oneOrMore (inner : Pattern)
  | optional (inner : Pattern)
  | group (inner : Pattern)
  | discard (inner : Pattern)
  deriving DecidableEq, Repr, Inhabited

namespace Pattern

/-- The parts of a sequence, down its right spine; a group in it stays one part. -/
def items : Pattern → List Pattern
  | .sequence first second => first :: second.items
  | p => [p]

def branches : Pattern → List Pattern
  | .choice first second => first :: second.branches
  | p => [p]

inductive Leaf where
  | terminal (kind : String)
  | nonTerminal (name : String)
  deriving DecidableEq, Repr

def Leaf.name : Leaf → String
  | .terminal kind => kind
  | .nonTerminal name => name

def leaves : Pattern → List Leaf
  | .terminal kind _ => [.terminal kind]
  | .nonTerminal name => [.nonTerminal name]
  | .sequence first second | .choice first second => first.leaves ++ second.leaves
  | .zeroOrMore inner | .oneOrMore inner | .optional inner | .group inner | .discard inner =>
      inner.leaves

/-- How many leaves keep their value, that is, lie inside no discarded part. -/
def keptLeaves : Pattern → Nat
  | .terminal _ _ | .nonTerminal _ => 1
  | .discard _ => 0
  | .sequence first second | .choice first second => first.keptLeaves + second.keptLeaves
  | .zeroOrMore inner | .oneOrMore inner | .optional inner | .group inner => inner.keptLeaves

def ungrouped : Pattern → Pattern
  | .group inner => inner.ungrouped
  | p => p

end Pattern

end Pegsmith
