import Pegsmith.Grammar.Basic

set_option autoImplicit false

namespace Pegsmith

namespace Pattern

def takesToken (mayBeEmpty : String → Bool) : Pattern → Bool
  | .terminal _ _ => true
  | .nonTerminal name => !mayBeEmpty name
  | .sequence a b => a.takesToken mayBeEmpty || b.takesToken mayBeEmpty
  | .choice a b => a.takesToken mayBeEmpty && b.takesToken mayBeEmpty
  | .zeroOrMore _ | .optional _ => false
  | .oneOrMore p | .group p | .discard p => p.takesToken mayBeEmpty

def firstCalls (mayBeEmpty : String → Bool) : Pattern → List String
  | .terminal _ _ => []
  | .nonTerminal name => [name]
  | .sequence a b =>
      a.firstCalls mayBeEmpty ++
        if a.takesToken mayBeEmpty then [] else b.firstCalls mayBeEmpty
  | .choice a b => a.firstCalls mayBeEmpty ++ b.firstCalls mayBeEmpty
  | .zeroOrMore p | .oneOrMore p | .optional p | .group p | .discard p =>
      p.firstCalls mayBeEmpty

end Pattern

namespace Grammar

def emptyStep (g : Grammar) (known : List String) : List String :=
  (g.nonTerminals.filter fun n =>
    n.alternatives.any fun a => !a.pattern.takesToken known.contains).map (·.name)

/-- The non-terminals that may match without a token. A round that finds no further one is the
last, so there are no more rounds than non-terminals. -/
def empties (g : Grammar) : List String :=
  Nat.repeat g.emptyStep g.nonTerminals.length []

def callTable (g : Grammar) : List (String × List String) :=
  let empties := g.empties
  g.nonTerminals.map fun n =>
    let calls := n.alternatives.flatMap fun a => a.pattern.firstCalls empties.contains
    (n.name, TokenTable.firsts (calls.filter g.has))

/-- Looks for a way back to `root` through calls, depth first, and never twice through the same
non-terminal. The way so far is held last first; with the way back come all that were visited. -/
def wayBack (calls : String → List String) (root : String) :
    Nat → List String → List String → List String → Option (List String) × List String
  | 0, visited, _, _ => (none, visited)
  | _, visited, _, [] => (none, visited)
  | n + 1, visited, way, callee :: rest =>
      if callee = root then (some (way.reverse ++ [root]), visited)
      else if visited.contains callee then wayBack calls root n visited way rest
      else
        match wayBack calls root n (callee :: visited) (callee :: way) (calls callee) with
        | (some cycle, visited) => (some cycle, visited)
        | (none, visited) => wayBack calls root n visited way rest

def searchSize (table : List (String × List String)) : Nat :=
  table.foldr (fun entry n => entry.2.length + 1 + n) 0

def cycle? (table : List (String × List String)) (root : String) : Option (List String) :=
  let calls (name : String) : List String := (table.lookup name).getD []
  (wayBack calls root (searchSize table + 1) [] [root] (calls root)).1

def recursionProblems (g : Grammar) : List Diagnostic :=
  let table := g.callTable
  g.nonTerminals.filterMap fun n =>
    (cycle? table n.name).map fun way =>
      ⟨.leftRecursion,
        "`" ++ n.name ++ "` is left recursive (" ++ " -> ".intercalate way ++
          "), parsing it will not terminate", n.location⟩

end Grammar

end Pegsmith
