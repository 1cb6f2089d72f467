import Pegsmith.Pattern.Basic

set_option autoImplicit false

namespace Pegsmith

inductive Shape where
  | empty
  | token
  | nonTerminal (name : String)
  | pair (first second : Shape)
  | list (item : Shape)
  deriving DecidableEq, Repr

namespace Shape

def isVoid : Shape → Bool
  | .empty => true
  | .token | .nonTerminal _ => false
  | .pair first second => first.isVoid && second.isVoid
  | .list item => item.isVoid

def text : Shape → String
  | .empty => "nothing"
  | .token => "a token"
  | .nonTerminal name => "`" ++ name ++ "`"
  | .pair first second => "(" ++ first.text ++ ", " ++ second.text ++ ")"
  | .list item => "[" ++ item.text ++ "]"

end Shape

namespace Pattern

def shape : Pattern → Shape
  | .terminal _ _ => .token
  | .nonTerminal name => .nonTerminal name
  | .sequence first second => .pair first.shape second.shape
  | .choice first _ => first.shape
  | .zeroOrMore inner | .oneOrMore inner => .list inner.shape
  | .optional inner | .group inner => inner.shape
  | .discard _ => .empty

def isVoid (p : Pattern) : Bool :=
  p.shape.isVoid

/-- How many of the top-level parts carry a value: the arity that a constructor most likely has. -/
def naturalArity (p : Pattern) : Nat :=
  p.ungrouped.items.countP fun item => !item.isVoid

theorem isVoid_sequence (p q : Pattern) : (sequence p q).isVoid = (p.isVoid && q.isVoid) := rfl

theorem isVoid_of_keptLeaves_eq_zero {p : Pattern} (h : p.keptLeaves = 0) : p.isVoid = true := by
  induction p <;> simp_all [keptLeaves, isVoid, shape, Shape.isVoid]

end Pattern

end Pegsmith
