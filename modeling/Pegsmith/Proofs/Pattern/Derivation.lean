import Mathlib
import Pegsmith.Pattern.Lexeme
import Pegsmith.Pattern.Printer

set_option autoImplicit false

namespace Pegsmith.Pattern

inductive Rule where
  | choice
  | sequence
  | repetition
  | discard
  | group
  | atom
  deriving DecidableEq

def isTerminalName (cs : List Char) : Bool :=
  cs.head?.any Char.isUpper

def isNonTerminalName (cs : List Char) : Bool :=
  cs.head?.any Char.isLower

inductive Repeat where
  | zeroOrMore
  | oneOrMore
  | optional
  deriving DecidableEq

def Repeat.mark : Repeat → Mark
  | .zeroOrMore => .star
  | .oneOrMore => .plus
  | .optional => .question

def Repeat.apply (p : Pattern) : Repeat → Pattern
  | .zeroOrMore => .zeroOrMore p
  | .oneOrMore => .oneOrMore p
  | .optional => .optional p

inductive Derivation : Rule → Type where
  | branch (only : Derivation .sequence) : Derivation .choice
  | branches (first : Derivation .sequence) (rest : Derivation .choice) : Derivation .choice
  | item (only : Derivation .repetition) : Derivation .sequence
  | items (first : Derivation .repetition) (rest : Derivation .sequence) : Derivation .sequence
  | once (inner : Derivation .discard) : Derivation .repetition
  | repeated (inner : Derivation .discard) (how : Repeat) : Derivation .repetition
  | kept (inner : Derivation .group) : Derivation .discard
  | discarded (inner : Derivation .group) : Derivation .discard
  | bracketed (inner : Derivation .choice) : Derivation .group
  | plain (inner : Derivation .atom) : Derivation .group
  | terminal (cs : List Char) (name : isTerminalName cs = true) : Derivation .atom
  | decoded (cs : List Char) (name : isTerminalName cs = true) : Derivation .atom
  | nonTerminal (cs : List Char) (name : isNonTerminalName cs = true) : Derivation .atom

namespace Derivation

def symbols {rule : Rule} : Derivation rule → List Symbol
  | .branch only | .item only => only.symbols
  | .branches first rest => first.symbols ++ .mark .bar :: rest.symbols
  | .items first rest => first.symbols ++ rest.symbols
  | .once inner | .kept inner | .plain inner => inner.symbols
  | .repeated inner how => inner.symbols ++ [.mark how.mark]
  | .discarded inner => .mark .discard :: inner.symbols
  | .bracketed inner => .mark .openParen :: (inner.symbols ++ [.mark .closeParen])
  | .terminal cs _ | .nonTerminal cs _ => [.name cs]
  | .decoded cs _ => [.mark .decode, .name cs]

def pattern {rule : Rule} : Derivation rule → Pattern
  | .branch only | .item only => only.pattern
  | .branches first rest => .choice first.pattern rest.pattern
  | .items first rest => .sequence first.pattern rest.pattern
  | .once inner | .kept inner | .plain inner => inner.pattern
  | .repeated inner how => how.apply inner.pattern
  | .discarded inner => .discard inner.pattern
  | .bracketed inner => .group inner.pattern
  | .terminal cs _ => .terminal (String.ofList cs) false
  | .decoded cs _ => .terminal (String.ofList cs) true
  | .nonTerminal cs _ => .nonTerminal (String.ofList cs)

theorem mem_symbols_of_mem_leaves {rule : Rule} (t : Derivation rule) {name : String}
    (member : .nonTerminal name ∈ t.pattern.leaves) : .name name.toList ∈ t.symbols := by
  induction t with
  | branch only ih | item only ih | once only ih | kept only ih | plain only ih => exact ih member
  | branches first rest ihFirst ihRest =>
    have either : Leaf.nonTerminal name ∈ first.pattern.leaves ++ rest.pattern.leaves := member
    rcases List.mem_append.mp either with early | late
    · exact List.mem_append_left _ (ihFirst early)
    · exact List.mem_append_right _ (.tail _ (ihRest late))
  | items first rest ihFirst ihRest =>
    exact List.mem_append.mpr ((List.mem_append.mp member).imp ihFirst ihRest)
  | repeated inner how ih =>
    cases how <;> exact List.mem_append_left _ (ih member)
  | discarded inner ih => exact .tail _ (ih member)
  | bracketed inner ih => exact .tail _ (List.mem_append_left _ (ih member))
  | terminal cs name | decoded cs name => simp [pattern, leaves] at member
  | nonTerminal cs name =>
    obtain rfl : _ = String.ofList cs := by simpa [pattern, leaves] using member
    simp [symbols]

end Derivation

def Rule.level : Rule → Level
  | .choice => .choice
  | .sequence => .sequence
  | .repetition => .repetition
  | .discard => .discard
  | .group | .atom => .atom

theorem Repeat.level_apply (p : Pattern) (how : Repeat) : (how.apply p).level = .repetition := by
  cases how <;> rfl

theorem Repeat.rank_apply_lt (p : Pattern) (how : Repeat) :
    (how.apply p).level.rank < Level.discard.rank := by
  rw [Repeat.level_apply]
  decide

theorem Repeat.apply_inj {p q : Pattern} {how other : Repeat}
    (same : how.apply p = other.apply q) : p = q ∧ how = other := by
  cases how <;> cases other <;> simp_all [apply]

namespace Derivation

theorem rank_le_pattern {rule : Rule} (t : Derivation rule) :
    rule.level.rank ≤ t.pattern.level.rank := by
  induction t with
  | branch only ih | item only ih | once only ih | kept only ih =>
    simp only [Rule.level, Level.rank, pattern] at ih ⊢
    omega
  | plain inner ih => exact ih
  | repeated inner how => simp [pattern, Repeat.level_apply, Rule.level]
  | branches | items | discarded | bracketed | terminal | decoded | nonTerminal =>
    simp [pattern, Rule.level, Pattern.level]

theorem pattern_ne {rule : Rule} (t : Derivation rule) {p : Pattern}
    (looser : p.level.rank < rule.level.rank) : t.pattern ≠ p := by
  rintro rfl
  exact Nat.not_lt_of_le t.rank_le_pattern looser

theorem pattern_injective {rule : Rule} (t u : Derivation rule) (same : t.pattern = u.pattern) :
    t = u := by
  -- The trees of a rule part at the root: what is one part there binds too tightly to be several.
  induction t with
  | branch only ih =>
    cases u with
    | branch other => rw [ih other same]
    | branches => exact absurd same (only.pattern_ne (Nat.lt_succ_self _))
  | branches first rest ihFirst ihRest =>
    cases u with
    | branch only => exact absurd same.symm (only.pattern_ne (Nat.lt_succ_self _))
    | branches first' rest' =>
      obtain ⟨first_eq, rest_eq⟩ := Pattern.choice.inj same
      rw [ihFirst first' first_eq, ihRest rest' rest_eq]
  | item only ih =>
    cases u with
    | item other => rw [ih other same]
    | items => exact absurd same (only.pattern_ne (Nat.lt_succ_self _))
  | items first rest ihFirst ihRest =>
    cases u with
    | item only => exact absurd same.symm (only.pattern_ne (Nat.lt_succ_self _))
    | items first' rest' =>
      obtain ⟨first_eq, rest_eq⟩ := Pattern.sequence.inj same
      rw [ihFirst first' first_eq, ihRest rest' rest_eq]
  | once inner ih =>
    cases u with
    | once other => rw [ih other same]
    | repeated other how => exact absurd same (inner.pattern_ne (Repeat.rank_apply_lt _ how))
  | repeated inner how ih =>
    cases u with
    | once other => exact absurd same.symm (other.pattern_ne (Repeat.rank_apply_lt _ how))
    | repeated other how' =>
      obtain ⟨inner_eq, rfl⟩ := Repeat.apply_inj same
      rw [ih other inner_eq]
  | kept inner ih =>
    cases u with
    | kept other => rw [ih other same]
    | discarded => exact absurd same (inner.pattern_ne (Nat.lt_succ_self _))
  | discarded inner ih =>
    cases u with
    | kept other => exact absurd same.symm (other.pattern_ne (Nat.lt_succ_self _))
    | discarded other => rw [ih other (Pattern.discard.inj same)]
  | bracketed inner ih =>
    cases u with
    | bracketed other => rw [ih other (Pattern.group.inj same)]
    | plain other => cases other <;> cases same
  | plain inner ih =>
    cases u with
    | bracketed other => cases inner <;> cases same
    | plain other => rw [ih other same]
  | terminal cs name => cases u <;> simp_all [pattern, String.ofList_inj]
  | decoded cs name => cases u <;> simp_all [pattern, String.ofList_inj]
  | nonTerminal cs name => cases u <;> simp_all [pattern, String.ofList_inj]

end Derivation

end Pegsmith.Pattern
