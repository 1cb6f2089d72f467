import Pegsmith.Source.Reader

set_option autoImplicit false

namespace Pegsmith.Source

inductive Form where
  | range
  | comparison
  | blockLike
  | bracedCall
  | call
  | plain
  deriving DecidableEq, Repr

inductive Level where
  | jump
  | assign
  | range
  | or
  | and
  | condition
  | compare
  | bitOr
  | bitXor
  | bitAnd
  | shift
  | sum
  | product
  | cast
  deriving DecidableEq, Repr

def Level.rank : Level → Nat
  | .jump => 0
  | .assign => 1
  | .range => 2
  | .or => 3
  | .and => 4
  | .condition => 5
  | .compare => 6
  | .bitOr => 7
  | .bitXor => 8
  | .bitAnd => 9
  | .shift => 10
  | .sum => 11
  | .product => 12
  | .cast => 13

structure Readers where
  /-- A segment of a path; in an expression its arguments need `::`. -/
  segment : Bool → Reader (String × TypeArgs)
  binder : Reader String
  /-- A type, with bounds joined by `+` if the flag is set. -/
  type : Bool → Reader HostType
  /-- An expression; a name before a brace is a structure if the flag is set. -/
  expr : Bool → Reader Form
  operand : Bool → Reader Form
  operation : Form → Bool → Level → Reader Form
  statements : Reader Unit
  early : Reader Form
  /-- A pattern without alternatives; the result says whether it is a range with an open end. -/
  pattern : Reader Bool
  item : Reader Unit

namespace TypeReader

open Reader

structure Path where
  rooted : Bool
  segments : List (String × TypeArgs)

namespace Path

def segmentText (s : String × TypeArgs) : String :=
  spaced [s.1, HostType.argsKey s.2]

def text (p : Path) : String :=
  spaced ((if p.rooted then ["::"] else []) ++ (p.segments.map segmentText).intersperse "::")

def isPlain (p : Path) : Bool :=
  p.segments.all fun (_, args) => args matches .none

def toType (p : Path) : HostType :=
  match p.segments.getLast? with
  | none => .other ""
  | some (name, args) =>
      let front := (p.segments.dropLast.map segmentText).flatMap fun s => [s, "::"]
      .path (spaced ((if p.rooted then ["::"] else []) ++ front)) name args

end Path

section

variable (r : Readers)

def annotation : Reader Unit := do
  let value : Reader Unit := do
    let _ ← op "="
    if (← ahead Ahead.literal) && (← get).length ≤ 2 then let _ ← literal
    else let _ ← r.expr true
  let content : Reader Unit := do
    let _ ← optionalOp "::"
    let _ ← anyWord
    let _ ← whileAhead (Ahead.op "::") (do let _ ← op "::"; anyWord) (← get).length
    if ← isDone then return
    if ← ahead (Ahead.op "=") then value else let _ ← anyGroup
  inside .bracket content

def annotations : Reader Unit := do
  let _ ← whileAhead (Ahead.op "#") (do let _ ← op "#"; annotation r) (← get).length

def innerAnnotations : Reader Unit := do
  let test (ts : List Tree) : Bool := Ahead.op "#" ts && Ahead.op "!" (ts.drop 1)
  let _ ← whileAhead test (do let _ ← op "#"; let _ ← op "!"; annotation r) (← get).length

def block : Reader Unit :=
  inside .brace (do innerAnnotations r; r.statements)

def constArgument : Reader String := do
  if ← ahead Ahead.literal then literal
  else if ← ahead (Ahead.group .brace) then taken (block r)
  else name

def returnType : Reader String := do
  if ← ahead (Ahead.op "->") then
    let arrow ← op "->"
    return spaced [arrow, (← r.type false).key]
  else return ""

def callArgs : Reader (TypeArgs × Bool) := do
  let (inputs, trailing) ← inside .paren (commas (r.type true))
  let inputs := enclosed .paren (HostType.commaSeparated (inputs.map HostType.key) trailing)
  if ← ahead (Ahead.op "->") then
    let _ ← op "->"
    let result ← r.type false
    return (.call (spaced [inputs, "->", result.key]), result matches .paren _)
  else return (.call inputs, true)

def callAhead (ts : List Tree) : Bool :=
  Ahead.group .paren ts || (Ahead.op "::" ts && Ahead.group .paren (ts.drop 2))

def angleAhead (inExpr : Bool) (ts : List Tree) : Bool :=
  (!inExpr && Ahead.op "<" ts && !Ahead.op "<=" ts && !Ahead.op "<<=" ts) ||
    (Ahead.op "::" ts && Ahead.op "<" (ts.drop 2))

def moreSegments (segment : Reader (String × TypeArgs)) : Reader (List (String × TypeArgs)) := do
  let test (ts : List Tree) : Bool := Ahead.op "::" ts && !Ahead.group .paren (ts.drop 2)
  whileAhead test (do let _ ← op "::"; segment) (← get).length

/-- One bound of a parameter or of an object: a lifetime or a trait. The flag tells a trait. -/
def bound (precise constant : Bool) : Reader (Bool × String) := do
  let trait : Reader String := do
    let outer ← if ← ahead (Ahead.word "for") then r.binder else pure ""
    let mode ←
      if ← ahead (Ahead.group .bracket) then
        if constant then
          inside .bracket (do let _ ← word "const")
          pure "[const]"
        else failure
      else if ← ahead (Ahead.word "const") then if constant then word "const" else failure
      else if ← ahead (Ahead.op "~") then
        let _ ← op "~"
        let _ ← word "const"
        pure "~ const"
      else pure ""
    let maybe ← optionalOp "?"
    if !outer.isEmpty && !maybe.isEmpty then failure
    let inner ← if !maybe.isEmpty && (← ahead (Ahead.word "for")) then r.binder else pure ""
    if !inner.isEmpty then failure
    let rooted ← optionalOp "::"
    let first ← r.segment false
    let more ← moreSegments (r.segment false)
    let segments := first :: more
    let segments ←
      match segments.getLast? with
      | some (name, .none) =>
          if ← ahead callAhead then
            let _ ← optionalOp "::"
            let (args, _) ← callArgs r
            pure (segments.dropLast ++ [(name, args)])
          else pure segments
      | _ => pure segments
    return spaced [outer, mode, maybe, Path.text ⟨!rooted.isEmpty, segments⟩]
  if ← ahead Ahead.lifetime then return (false, "'" ++ (← lifetime))
  if ← ahead (Ahead.word "use") then
    if !precise then failure
    let _ ← word "use"
    let _ ← op "<"
    let one : Reader String := do
      if ← ahead Ahead.lifetime then return "'" ++ (← lifetime)
      if ← ahead (Ahead.word "Self") then anyWord else name
    let (args, trailing) ← separated "," (Ahead.op ">") one
    let _ ← op ">"
    return (false, spaced ["use", "<", HostType.commaSeparated args trailing, ">"])
  if ← ahead (Ahead.group .paren) then return (true, enclosed .paren (← inside .paren trait))
  return (true, ← trait)

def boundAhead (constant : Bool) (ts : List Tree) : Bool :=
  Ahead.anyWord ts || Ahead.op "::" ts || Ahead.op "?" ts || Ahead.lifetime ts ||
    Ahead.group .paren ts || (constant && Ahead.group .bracket ts)

def moreBounds (precise constant : Bool) : Nat → Reader (List (Bool × String))
  | 0 => return []
  | fuel + 1 => do
      if ← ahead (Ahead.op "+") then
        let plus ← op "+"
        if ← ahead (boundAhead constant) then
          let (trait, text) ← bound r precise constant
          return (trait, spaced [plus, text]) :: (← moreBounds precise constant fuel)
        else return [(false, plus)]
      else return []

def bounds (plus precise constant : Bool) : Reader String := do
  let first ← bound r precise constant
  let more ← if plus then moreBounds r precise constant (← get).length else pure []
  if (first :: more).any Prod.fst then return spaced ((first :: more).map Prod.snd) else failure

def genericArg : Reader TypeArg := do
  if (← ahead Ahead.lifetime) && !(← ahead2 (Ahead.op "+")) then return .lifetime (← lifetime)
  if (← ahead Ahead.literal) || (← ahead (Ahead.group .brace)) then
    return .other (← constArgument r)
  let t ← r.type true
  match t with
  | .path "" _ .none | .path "" _ (.angle ..) =>
      if ← ahead (Ahead.op "=") then
        let _ ← op "="
        let value ←
          if (← ahead Ahead.literal) || (← ahead (Ahead.group .brace)) then constArgument r
          else do pure (← r.type true).key
        return .other (spaced [t.key, "=", value])
      else if ← ahead (Ahead.op ":") then
        let _ ← op ":"
        let stop (ts : List Tree) : Bool := Ahead.op "," ts || Ahead.op ">" ts
        let (bs, trailing) ← separated "+" stop (bound r false true)
        let text := spaced ((bs.map Prod.snd).intersperse "+" ++ if trailing then ["+"] else [])
        return .other (spaced [t.key, ":", text])
      else return .type t
  | _ => return .type t

def angleArgs : Reader TypeArgs := do
  let turbofish ← optionalOp "::"
  let _ ← op "<"
  let (args, trailing) ← separated "," (Ahead.op ">") (genericArg r)
  let _ ← op ">"
  return .ofList (!turbofish.isEmpty) args trailing

def segment (inExpr : Bool) : Reader (String × TypeArgs) := do
  if ← ahead (Ahead.anyOf ["super", "self", "crate", "try"]) then return (← anyWord, .none)
  let n ← if ← ahead (Ahead.word "Self") then anyWord else name
  if ← ahead (angleAhead inExpr) then return (n, ← angleArgs r)
  return (n, .none)

def lifetimeParam : Reader String := do
  let n ← lifetime
  if ← ahead (Ahead.op ":") then
    let _ ← op ":"
    let stop (ts : List Tree) : Bool := Ahead.op "," ts || Ahead.op ">" ts
    let (outer, trailing) ← separated "+" stop lifetime
    let outer := (outer.map ("'" ++ ·)).intersperse "+" ++ if trailing then ["+"] else []
    return spaced (("'" ++ n) :: ":" :: outer)
  else return "'" ++ n

def constParam : Reader String := do
  let _ ← word "const"
  let n ← name
  let _ ← op ":"
  let t ← r.type true
  let value ←
    if ← ahead (Ahead.op "=") then do
      let _ ← op "="
      pure (spaced ["=", ← constArgument r])
    else pure ""
  return spaced ["const", n, ":", t.key, value]

def typeParam : Reader String := do
  let n ← name
  let above ←
    if ← ahead (Ahead.op ":") then do
      let _ ← op ":"
      let stop (ts : List Tree) : Bool := Ahead.op "," ts || Ahead.op ">" ts || Ahead.op "=" ts
      let (bs, _) ← separated "+" stop (bound r false true)
      pure (spaced (":" :: (bs.map Prod.snd).intersperse "+"))
    else pure ""
  let value ←
    if ← ahead (Ahead.op "=") then do
      let _ ← op "="
      pure (spaced ["=", (← r.type true).key])
    else pure ""
  return spaced [n, above, value]

def genericParam : Reader String := do
  annotations r
  if ← ahead Ahead.lifetime then lifetimeParam
  else if ← ahead (Ahead.word "const") then constParam r
  else typeParam r

def binder : Reader String := do
  let _ ← word "for"
  let _ ← op "<"
  let (params, trailing) ← separated "," (Ahead.op ">") (genericParam r)
  let _ ← op ">"
  return spaced ["for", "<", HostType.commaSeparated params trailing, ">"]

def qualified (inExpr : Bool) : Reader (String × List (String × TypeArgs)) := do
  let _ ← op "<"
  let this ← r.type true
  let through ←
    if ← ahead (Ahead.word "as") then do
      let _ ← word "as"
      let rooted ← optionalOp "::"
      let first ← r.segment false
      let more ← moreSegments (r.segment false)
      pure (spaced ["as", Path.text ⟨!rooted.isEmpty, first :: more⟩])
    else pure ""
  let _ ← op ">"
  let _ ← op "::"
  let first ← r.segment inExpr
  let more ← whileAhead (Ahead.op "::") (do let _ ← op "::"; r.segment inExpr) (← get).length
  return (spaced ["<", this.key, through, ">"], first :: more)

def withCalls (segments : List (String × TypeArgs)) : Nat → Reader (List (String × TypeArgs))
  | 0 => return segments
  | fuel + 1 => do
      match segments.getLast? with
      | some (n, .none) =>
          if ← ahead callAhead then
            let _ ← optionalOp "::"
            let (args, goesOn) ← callArgs r
            let more ← if goesOn then moreSegments (r.segment false) else pure []
            withCalls (segments.dropLast ++ (n, args) :: more) fuel
          else return segments
      | _ => return segments

def plainPath (inExpr : Bool) : Reader Path := do
  let rooted ← optionalOp "::"
  let first ← r.segment inExpr
  let more ← moreSegments (r.segment inExpr)
  return ⟨!rooted.isEmpty, first :: more⟩

def typePath : Reader (Option Path × HostType) := do
  if ← ahead (Ahead.op "<") then
    let (start, segments) ← qualified r false
    let segments ← withCalls r segments (← get).length
    return (none, .other (spaced [start, Path.text ⟨true, segments⟩]))
  else
    let p ← plainPath r false
    let p := { p with segments := ← withCalls r p.segments (← get).length }
    return (some p, p.toType)

def functionInput : Reader String := do
  annotations r
  let selfAhead (ts : List Tree) : Bool :=
    Ahead.word "self" ts || (Ahead.word "mut" ts && Ahead.word "self" (ts.drop 1))
  let named (ts : List Tree) : Bool :=
    (Ahead.name ts || Ahead.word "_" ts || Ahead.word "self" ts) && Ahead.op ":" (ts.drop 1) &&
      !Ahead.op "::" (ts.drop 1)
  if ← ahead (Ahead.op "...") then op "..."
  else if ← ahead named then
    let n ← anyWord
    let _ ← op ":"
    if ← ahead (Ahead.op "...") then return spaced [n, ":", ← op "..."]
    else return spaced [n, ":", (← r.type true).key]
  else if (← ahead (Ahead.word "mut")) && (← ahead selfAhead) then
    let _ ← anyWord
    let _ ← anyWord
    return "mut self"
  else return (← r.type true).key

def functionType : Reader String := do
  let safety ← optionalWord "unsafe"
  let abi ←
    if ← ahead (Ahead.word "extern") then do
      let _ ← word "extern"
      let text ←
        match ← get with
        | .literal .text _ :: _ => literal
        | _ => pure ""
      pure (spaced ["extern", text])
    else pure ""
  let _ ← word "fn"
  let (inputs, trailing) ← inside .paren (commas (functionInput r))
  let inputs := enclosed .paren (HostType.commaSeparated inputs trailing)
  return spaced [safety, abi, "fn", inputs, ← returnType r]

def parenType (plus : Bool) : Reader HostType := do
  match ← get with
  | .group .paren [] :: rest => set rest; return .unit
  | .group .paren inner :: _ =>
      if Ahead.lifetime inner then
        return .paren (.other (← inside .paren (bounds r true false false)))
      else if Ahead.op "?" inner then
        let first := enclosed .paren (← inside .paren (do pure (← bound r false false).2))
        let more ← moreBounds r false false (← get).length
        return .other (spaced (first :: more.map Prod.snd))
      else
        let content : Reader HostType := do
          let first ← r.type true
          if ← ahead (Ahead.op ",") then
            let _ ← op ","
            let (more, trailing) ← commas (r.type true)
            return .tuple (first :: more) (trailing || more.isEmpty)
          else return .paren first
        let t ← inside .paren content
        match t with
        | .paren (.path ..) =>
            if plus && (← ahead (Ahead.op "+")) then
              let more ← moreBounds r false false (← get).length
              return .other (spaced (t.key :: more.map Prod.snd))
            else return t
        | _ => return t
  | _ => failure

def namedType (plus : Bool) (outer : String) : Reader HostType := do
  let (path, t) ← typePath r
  match path with
  | none => return t
  | some p =>
      if p.isPlain && (← ahead (Ahead.op "!")) && !(← ahead (Ahead.op "!=")) then
        let _ ← op "!"
        let (d, inner) ← anyGroup
        return .other (spaced [t.key, "!", enclosed d (render inner)])
      else if !outer.isEmpty || (plus && (← ahead (Ahead.op "+"))) then
        let more ← if plus then moreBounds r false false (← get).length else pure []
        return .other (spaced (outer :: t.key :: more.map Prod.snd))
      else return t

def pathAhead (ts : List Tree) : Bool :=
  Ahead.name ts || Ahead.anyOf ["super", "self", "Self", "crate"] ts || Ahead.op "::" ts ||
    Ahead.op "<" ts

def functionAhead (ts : List Tree) : Bool :=
  Ahead.anyOf ["fn", "unsafe", "extern"] ts

def type (plus : Bool) : Reader HostType := do
  if ← ahead (Ahead.word "for") then
    let outer ← binder r
    if ← ahead functionAhead then return .other (spaced [outer, ← functionType r])
    else if (← ahead pathAhead) && !(← ahead (Ahead.op "<")) && !(← ahead (Ahead.op "::")) then
      namedType r plus outer
    else failure
  else if ← ahead (Ahead.group .paren) then parenType r plus
  else if ← ahead functionAhead then return .other (← functionType r)
  else if ← ahead pathAhead then namedType r plus ""
  else if ← ahead (Ahead.word "dyn") then
    let _ ← word "dyn"
    let star ← optionalOp "*"
    return .other (spaced ["dyn", star, ← bounds r plus false false])
  else if ← ahead (Ahead.group .bracket) then
    let content : Reader String := do
      let elem ← r.type true
      if ← ahead (Ahead.op ";") then
        let _ ← op ";"
        return spaced [elem.key, ";", ← taken (r.expr true)]
      else return elem.key
    return .other (enclosed .bracket (← inside .bracket content))
  else if ← ahead (Ahead.op "*") then
    let _ ← op "*"
    let kind ← if ← ahead (Ahead.word "const") then word "const" else word "mut"
    return .other (spaced ["*", kind, (← r.type false).key])
  else if ← ahead (Ahead.op "&") then
    let _ ← op "&"
    let life ← if ← ahead Ahead.lifetime then do pure ("'" ++ (← lifetime)) else pure ""
    let mutable ← optionalWord "mut"
    return .other (spaced ["&", life, mutable, (← r.type false).key])
  else if ← ahead (Ahead.op "!") then return .other (← op "!")
  else if ← ahead (Ahead.word "impl") then
    let _ ← word "impl"
    return .other (spaced ["impl", ← bounds r plus true true])
  else if ← ahead (Ahead.word "_") then return .other (← word "_")
  else if ← ahead Ahead.lifetime then return .other (← bounds r true false false)
  else failure

end

end TypeReader

end Pegsmith.Source
