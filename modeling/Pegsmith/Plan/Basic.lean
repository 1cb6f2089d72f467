import Pegsmith.Source.HostType

set_option autoImplicit false

namespace Pegsmith

inductive TokenUse where
  | nothing
  | token
  | text
  | kind
  deriving DecidableEq, Repr

/-- What an optional part gives: no value, whether it was there, or a default when it was not. -/
inductive Fallback where
  | nothing
  | keep
  | default
  deriving DecidableEq, Repr

inductive Plan where
  | token (kind : String) (use : TokenUse)
  | call (nonTerminal : String) (keep : Bool) (into : Option HostType)
  | sequence (parts : List Plan)
  | single (inner : Plan)
  | present (inner : Plan)
  | pack (inner : Plan)
  | collect (inner : Plan) (type : HostType)
  | concat (parts : List Plan)
  | loop (inner : Plan) (atLeastOne keep : Bool)
  | optional (inner : Plan) (fallback : Fallback)
  | choice (branches : List Plan)
  deriving Inhabited

namespace Plan

mutual

def arity : Plan → Nat
  | .token _ use => if use = .nothing then 0 else 1
  | .call _ keep _ => if keep then 1 else 0
  | .sequence parts => arities parts
  | .single _ | .present _ | .pack _ | .collect _ _ | .concat _ => 1
  | .loop _ _ keep => if keep then 1 else 0
  | .optional _ .nothing => 0
  | .optional _ .keep => 1
  | .optional inner .default => inner.arity
  | .choice branches => firstArity branches

def arities : List Plan → Nat
  | [] => 0
  | p :: ps => p.arity + arities ps

def firstArity : List Plan → Nat
  | [] => 0
  | p :: _ => p.arity

end

end Plan

end Pegsmith
