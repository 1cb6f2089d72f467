import Pegsmith.Fault
import Pegsmith.Types.Catalog

set_option autoImplicit false

namespace Pegsmith

inductive Demand where
  | empty
  | rawToken (type : HostType)
  | text (type : HostType)
  | tokenKind (type : HostType)
  | named (type : HostType)
  | list (type : HostType) (item : Demand)
  | optional (type : HostType) (inner : Demand)
  | tuple (type : HostType) (members : Demand)
  | pair (first rest : Demand)
  deriving DecidableEq, Inhabited

namespace Demand

def chain : List Demand → Demand
  | [] => .empty
  | [d] => d
  | d :: ds => .pair d (chain ds)

def parts : Demand → List Demand
  | .pair first rest => first :: rest.parts
  | d => [d]

def type? : Demand → Option HostType
  | .empty | .pair _ _ => none
  | .rawToken t | .text t | .tokenKind t | .named t | .list t _ | .optional t _ | .tuple t _ =>
      some t

def width : Demand → Nat
  | .empty => 0
  | .pair first rest => first.width + rest.width
  | _ => 1

/-- Whether the value is the list that matching builds, so that nothing is left to convert. -/
def isVec : Demand → Bool
  | .list t _ => t.head? == some "Vec"
  | _ => false

def describe : Demand → String
  | .empty => "nothing"
  | .pair first rest => first.describe ++ ", " ++ rest.describe
  | .rawToken t | .text t | .tokenKind t | .named t | .list t _ | .optional t _ | .tuple t _ =>
      "`" ++ t.text ++ "`"

theorem width_chain (ds : List Demand) : (chain ds).width = ds.foldr (fun d n => d.width + n) 0 := by
  induction ds with
  | nil => rfl
  | cons d ds ih => cases ds <;> simp_all [chain, width]

/-- What a type asks for, if no more than `n` looks into it are needed. Text goes before the token
type, and the token type before everything else. -/
def within (types : TypeSystem) (tokenType : HostType) : Nat → HostType → Option Demand
  | 0, _ => none
  | n + 1, t =>
      match types.view t with
      | .text => some (.text t)
      | view =>
          if t = tokenType then some (.tokenKind t)
          else
            match view with
            | .text => some (.text t)
            | .rawToken => some (.rawToken t)
            | .map | .named => some (.named t)
            | .list item => (within types tokenType n item).map (.list t)
            | .optional inner => (within types tokenType n inner).map (.optional t)
            | .tuple members =>
                (members.mapM (within types tokenType n)).map fun ds => .tuple t (chain ds)
            | .unit => some .empty

/-- What a type asks for. One could look into some types without end, which uses up the stack. -/
def ofType (types : TypeSystem) (tokenType t : HostType) : Except Fault Demand :=
  match within types tokenType (types.nesting t) t with
  | some demand => .ok demand
  | none => .error .stackOverflow

theorem ofType_eq_ok_iff {types : TypeSystem} {tokenType t : HostType} {demand : Demand} :
    ofType types tokenType t = .ok demand ↔
      within types tokenType (types.nesting t) t = some demand := by
  rw [ofType]
  cases within types tokenType (types.nesting t) t <;> simp

def ofParams (types : TypeSystem) (tokenType : HostType) (params : List HostType) :
    Except Fault Demand := do
  return chain (← params.mapM (ofType types tokenType))

end Demand

def TypeSystem.join (types : TypeSystem) (current t : HostType) :
    Except (HostType × HostType) HostType :=
  if t = current || types.isSubtype t current then .ok current
  else if types.isSubtype current t then .ok t
  else .error (current, t)

def TypeSystem.common (types : TypeSystem) :
    List HostType → Except (HostType × HostType) (Option HostType)
  | [] => .ok none
  | t :: ts => (ts.foldlM types.join t).map some

end Pegsmith
