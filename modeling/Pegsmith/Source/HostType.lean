import Pegsmith.Source.Tree

/-!
Types of the host program, as far as a generator looks into them: paths with the arguments of
their last segment, tuples, and brackets. Any other type is its text. Two types are equal when
their trees are, up to the order of lifetimes among the arguments of a path.
-/

set_option autoImplicit false

namespace Pegsmith

mutual

inductive HostType where
  | path (front name : String) (args : TypeArgs)
  | tuple (elems : List HostType) (trailing : Bool)
  | paren (inner : HostType)
  | other (text : String)

inductive TypeArgs where
  | none
  | angle (turbofish : Bool) (args : List TypeArg) (trailing : Bool)
  | call (text : String)

inductive TypeArg where
  | type (t : HostType)
  | lifetime (name : String)
  | other (text : String)

end

def TypeArg.isLifetime : TypeArg → Bool
  | .lifetime _ => true
  | _ => false

/-- Arguments in the order in which they are kept, lifetimes first. A comma ends them if one stood
behind the argument that is now the last. -/
def TypeArgs.ofList (turbofish : Bool) (args : List TypeArg) (trailing : Bool) : TypeArgs :=
  let lifetimes := args.filter TypeArg.isLifetime
  let others := args.filter fun arg => !arg.isLifetime
  .angle turbofish (lifetimes ++ others)
    (trailing || (!others.isEmpty && args.getLast?.any TypeArg.isLifetime))

namespace HostType

instance : Inhabited HostType := ⟨.tuple [] false⟩

def named (name : String) : HostType :=
  .path "" name .none

def unit : HostType :=
  .tuple [] false

def commaSeparated (texts : List String) (trailing : Bool) : String :=
  Source.spaced (texts.intersperse "," ++ if trailing then [","] else [])

mutual

def key : HostType → String
  | .path front name args => Source.spaced [front, name, argsKey args]
  | .tuple elems trailing => Source.enclosed .paren (commaSeparated (keys elems) trailing)
  | .paren inner => Source.enclosed .paren inner.key
  | .other text => text

def keys : List HostType → List String
  | [] => []
  | t :: ts => t.key :: keys ts

def argsKey : TypeArgs → String
  | .none => ""
  | .call text => text
  | .angle turbofish args trailing =>
      Source.spaced [if turbofish then "::" else "", "<", commaSeparated (argKeys args) trailing, ">"]

def argKeys : List TypeArg → List String
  | [] => []
  | .type t :: rest => t.key :: argKeys rest
  | .lifetime name :: rest => ("'" ++ name) :: argKeys rest
  | .other text :: rest => text :: argKeys rest

end

def joins (written : List Char) (piece : String) : Bool :=
  ["<", ">", ",", "::", ")", "]"].contains piece ||
    (match written with
    | c :: _ => ['<', '(', '[', '&', ','].contains c
    | [] => true) ||
    [':', ':'].isPrefixOf written

def join (written : List Char) (piece : String) : List Char :=
  piece.toList.reverse ++ (if joins written piece then written else ' ' :: written)

def text (t : HostType) : String :=
  let pieces := (t.key.toList.splitOn ' ').map String.ofList
  let written := (pieces.foldl join []).reverse
  String.ofList (written.flatMap fun c => if c == ',' then [',', ' '] else [c])

instance : ToString HostType := ⟨text⟩

def stripParens : HostType → HostType
  | .paren inner => inner.stripParens
  | t => t

def ident? : HostType → Option String
  | .path "" name .none => some name
  | _ => none

def head? (t : HostType) : Option String :=
  match t.stripParens with
  | .path _ name _ => some name
  | _ => none

def typeArg? : TypeArg → Option HostType
  | .type t => some t
  | _ => none

def typeArgs (t : HostType) : List HostType :=
  match t.stripParens with
  | .path _ _ (.angle _ args _) => args.filterMap typeArg?
  | _ => []

def tupleElems? (t : HostType) : Option (List HostType) :=
  match t.stripParens with
  | .tuple elems _ => some elems
  | _ => none

mutual

def decEqType : (a b : HostType) → Decidable (a = b)
  | .path f n as, .path f' n' as' =>
      match decEq f f', decEq n n', decEqArgs as as' with
      | isTrue hf, isTrue hn, isTrue ha => isTrue (by rw [hf, hn, ha])
      | isFalse h, _, _ => isFalse fun e => h (HostType.path.inj e).1
      | _, isFalse h, _ => isFalse fun e => h (HostType.path.inj e).2.1
      | _, _, isFalse h => isFalse fun e => h (HostType.path.inj e).2.2
  | .tuple ts c, .tuple ts' c' =>
      match decEqTypes ts ts', decEq c c' with
      | isTrue ht, isTrue hc => isTrue (by rw [ht, hc])
      | isFalse h, _ => isFalse fun e => h (HostType.tuple.inj e).1
      | _, isFalse h => isFalse fun e => h (HostType.tuple.inj e).2
  | .paren t, .paren t' =>
      match decEqType t t' with
      | isTrue h => isTrue (by rw [h])
      | isFalse h => isFalse fun e => h (HostType.paren.inj e)
  | .other s, .other s' =>
      match decEq s s' with
      | isTrue h => isTrue (by rw [h])
      | isFalse h => isFalse fun e => h (HostType.other.inj e)
  | .path .., .tuple .. | .path .., .paren .. | .path .., .other ..
  | .tuple .., .path .. | .tuple .., .paren .. | .tuple .., .other ..
  | .paren .., .path .. | .paren .., .tuple .. | .paren .., .other ..
  | .other .., .path .. | .other .., .tuple .. | .other .., .paren .. => isFalse nofun

def decEqTypes : (as bs : List HostType) → Decidable (as = bs)
  | [], [] => isTrue rfl
  | [], _ :: _ | _ :: _, [] => isFalse nofun
  | a :: as, b :: bs =>
      match decEqType a b, decEqTypes as bs with
      | isTrue h, isTrue hs => isTrue (by rw [h, hs])
      | isFalse h, _ => isFalse fun e => h (List.cons.inj e).1
      | _, isFalse h => isFalse fun e => h (List.cons.inj e).2

def decEqArgs : (a b : TypeArgs) → Decidable (a = b)
  | .none, .none => isTrue rfl
  | .call s, .call s' =>
      match decEq s s' with
      | isTrue h => isTrue (by rw [h])
      | isFalse h => isFalse fun e => h (TypeArgs.call.inj e)
  | .angle t as c, .angle t' as' c' =>
      match decEq t t', decEqArgList as as', decEq c c' with
      | isTrue ht, isTrue ha, isTrue hc => isTrue (by rw [ht, ha, hc])
      | isFalse h, _, _ => isFalse fun e => h (TypeArgs.angle.inj e).1
      | _, isFalse h, _ => isFalse fun e => h (TypeArgs.angle.inj e).2.1
      | _, _, isFalse h => isFalse fun e => h (TypeArgs.angle.inj e).2.2
  | .none, .call .. | .none, .angle .. | .call .., .none | .call .., .angle ..
  | .angle .., .none | .angle .., .call .. => isFalse nofun

def decEqArgList : (as bs : List TypeArg) → Decidable (as = bs)
  | [], [] => isTrue rfl
  | [], _ :: _ | _ :: _, [] => isFalse nofun
  | a :: as, b :: bs =>
      match decEqArg a b, decEqArgList as bs with
      | isTrue h, isTrue hs => isTrue (by rw [h, hs])
      | isFalse h, _ => isFalse fun e => h (List.cons.inj e).1
      | _, isFalse h => isFalse fun e => h (List.cons.inj e).2

def decEqArg : (a b : TypeArg) → Decidable (a = b)
  | .type t, .type t' =>
      match decEqType t t' with
      | isTrue h => isTrue (by rw [h])
      | isFalse h => isFalse fun e => h (TypeArg.type.inj e)
  | .lifetime s, .lifetime s' =>
      match decEq s s' with
      | isTrue h => isTrue (by rw [h])
      | isFalse h => isFalse fun e => h (TypeArg.lifetime.inj e)
  | .other s, .other s' =>
      match decEq s s' with
      | isTrue h => isTrue (by rw [h])
      | isFalse h => isFalse fun e => h (TypeArg.other.inj e)
  | .type .., .lifetime .. | .type .., .other .. | .lifetime .., .type ..
  | .lifetime .., .other .. | .other .., .type .. | .other .., .lifetime .. => isFalse nofun

end

instance : DecidableEq HostType := decEqType

end HostType

end Pegsmith
