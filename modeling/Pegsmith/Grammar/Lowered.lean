import Pegsmith.Grammar.Basic
import Pegsmith.Plan.Fit

set_option autoImplicit false

namespace Pegsmith

namespace Lowered

structure Alternative where
  text : String
  plan : Plan
  target : Target
  /-- The type of the non-terminal, if the target returns a subtype of it. -/
  into : Option HostType := none

structure NonTerminal where
  name : String
  value : HostType
  alternatives : List Alternative := []

end Lowered

structure LoweredGrammar where
  name : String
  tokenType : HostType
  nonTerminals : List Lowered.NonTerminal := []

namespace Grammar

def fitContext (g : Grammar) (types : TypeSystem) : FitContext :=
  ⟨types.isSubtype, g.value?⟩

def planAs (g : Grammar) (types : TypeSystem) (a : Alternative) (target : Target)
    (demand : Demand) : Except String Plan :=
  match (g.fitContext types).plan a.pattern demand with
  | .error e => .error e.message
  | .ok plan =>
      if plan.arity = target.params.length then .ok plan
      else
        .error ("`" ++ a.text ++ "` produces " ++ toString plan.arity ++ " values but `" ++
          target.maker.name ++ "` takes " ++ toString target.params.length)

def planFor (g : Grammar) (types : TypeSystem) (a : Alternative) (target : Target) :
    Except Fault (Except String Plan) := do
  return g.planAs types a target (← Demand.ofParams types g.tokenType target.params)

def arities (p : Pattern) : List Nat :=
  let natural := p.naturalArity
  natural :: ((List.range p.keptLeaves).map (· + 1)).filter (· != natural)

def candidates (types : TypeSystem) (type : HostType) (p : Pattern) : List Target :=
  (arities p).flatMap fun n =>
    (types.constructors type n).map fun c => ⟨.constructor c.path, c.params, type⟩

/-- The first target that fits, or what is wrong with the first one. The parameters of a target are
read when its turn comes. -/
def firstFitting (g : Grammar) (types : TypeSystem) (a : Alternative) :
    List Target → Except Fault (Except String (Target × Plan))
  | [] => return .error ""
  | target :: rest => do
      match ← g.planFor types a target with
      | .ok plan => return .ok (target, plan)
      | .error e =>
          match ← g.firstFitting types a rest with
          | .ok found => return .ok found
          | .error _ => return .error e

def lowerAlternative (g : Grammar) (types : TypeSystem) (a : Alternative) :
    Except Fault (Except Diagnostic (Target × Plan)) :=
  let mismatch (message : String) : Diagnostic := ⟨.shapeMismatch, message, a.location⟩
  match a.goal with
  | .function target => do
      return ((← g.planFor types a target).map fun plan => (target, plan)).mapError mismatch
  | .construct type =>
      match candidates types type a.pattern with
      | [] =>
          return .error ⟨.noFittingConstructor,
            "`" ++ type.text ++ "` has no constructor taking the values of `" ++ a.text ++ "`",
            a.location⟩
      | targets => do return (← g.firstFitting types a targets).mapError mismatch

def lowerInto (g : Grammar) (types : TypeSystem) (value : HostType) (a : Alternative) :
    Except Fault (Except (List Diagnostic) Lowered.Alternative) := do
  match ← g.lowerAlternative types a with
  | .ok (target, plan) =>
      return .ok { text := a.text, plan, target,
                   into := if target.returns = value then none else some value }
  | .error d => return .error [d]

def lowerNonTerminal (g : Grammar) (types : TypeSystem) (n : NonTerminal) (value : HostType) :
    Except Fault (Lowered.NonTerminal × List Diagnostic) := do
  let results ← n.alternatives.mapM (g.lowerInto types value)
  return ({ name := n.name, value, alternatives := successes results }, problems results)

def valued (g : Grammar) : List (NonTerminal × HostType) :=
  g.nonTerminals.filterMap fun n => (g.value? n.name).map (n, ·)

def lower (g : Grammar) (types : TypeSystem) : Except Fault (LoweredGrammar × List Diagnostic) := do
  let results ← g.valued.mapM fun (n, value) => g.lowerNonTerminal types n value
  return ({ name := g.name, tokenType := g.tokenType, nonTerminals := results.map Prod.fst },
    results.flatMap Prod.snd)

end Grammar

end Pegsmith
