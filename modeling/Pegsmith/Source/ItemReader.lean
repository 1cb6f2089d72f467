import Pegsmith.Source.ExprReader

set_option autoImplicit false

namespace Pegsmith.Source.ItemReader

open Reader TypeReader

section

variable (r : Readers)

def visibility : Reader Bool := do
  if ← ahead (Ahead.word "pub") then
    let _ ← word "pub"
    match ← get with
    | .group .paren [.word w] :: rest =>
        if ["crate", "self", "super"].contains w then set rest
    | .group .paren (.word "in" :: _) :: _ =>
        inside .paren (do let _ ← word "in"; ExprReader.namePath)
    | _ => pure ()
    return true
  else return false

def generics : Reader Unit := do
  if ← ahead (Ahead.op "<") then
    let _ ← op "<"
    let _ ← separated "," (Ahead.op ">") (genericParam r)
    let _ ← op ">"

def conditionEnds (ts : List Tree) : Bool :=
  ts.isEmpty || Ahead.group .brace ts || Ahead.anyOp [",", ";", "="] ts ||
    (Ahead.op ":" ts && !Ahead.op "::" ts)

def condition : Reader Unit := do
  if ← ahead Ahead.lifetime then
    let _ ← lifetime
    let _ ← op ":"
    let _ ← separated "+" conditionEnds lifetime
  else
    if ← ahead (Ahead.word "for") then let _ ← binder r
    let _ ← r.type true
    let _ ← op ":"
    let _ ← separated "+" conditionEnds (bound r false true)

def conditionLoop : Nat → Reader Unit
  | 0 => return
  | fuel + 1 => do
      if ← ahead conditionEnds then return
      condition r
      if ← ahead (Ahead.op ",") then
        let _ ← op ","
        conditionLoop fuel

def conditions : Reader Unit := do
  if ← ahead (Ahead.word "where") then
    let _ ← word "where"
    conditionLoop r ((← get).length + 1)

def signatureAhead (ts : List Tree) : Bool :=
  let drop (word : String) (ts : List Tree) : List Tree := if Ahead.word word ts then ts.drop 1 else ts
  let ts := ["const", "async", "safe", "unsafe"].foldl (fun ts w => drop w ts) ts
  let ts :=
    if Ahead.word "extern" ts then
      match ts.drop 1 with
      | .literal .text _ :: rest => rest
      | rest => rest
    else ts
  Ahead.word "fn" ts

def abi : Reader Unit := do
  if ← ahead (Ahead.word "extern") then
    let _ ← word "extern"
    match ← get with
    | .literal .text _ :: rest => set rest
    | _ => pure ()

def receiver : Reader Unit := do
  let byRef ← optionalOp "&"
  if !byRef.isEmpty then let _ ← optional Ahead.lifetime lifetime
  let _ ← optionalWord "mut"
  let _ ← word "self"
  if byRef.isEmpty && (← ahead (Ahead.op ":")) then
    let _ ← op ":"
    let _ ← r.type true

def receiverAhead (ts : List Tree) : Bool :=
  let ts := if Ahead.op "&" ts then ts.drop 1 else ts
  let ts := if Ahead.lifetime ts then ts.drop 1 else ts
  let ts := if Ahead.word "mut" ts then ts.drop 1 else ts
  Ahead.word "self" ts && !Ahead.op "::" (ts.drop 1)

def functionInput : Reader Unit := do
  annotations r
  if ← ahead (Ahead.op "...") then
    let _ ← op "..."
  else if ← ahead receiverAhead then receiver r
  else
    let _ ← r.pattern
    let _ ← op ":"
    if ← ahead (Ahead.op "...") then let _ ← op "..." else let _ ← r.type true

def signature : Reader Unit := do
  for w in ["const", "async", "safe", "unsafe"] do
    let _ ← optionalWord w
  abi
  let _ ← word "fn"
  let _ ← name
  generics r
  let _ ← inside .paren (commas (functionInput r))
  if ← ahead (Ahead.op "->") then
    let _ ← op "->"
    let _ ← r.type true
  conditions r

def function : Reader Unit := do
  signature r
  if ← ahead (Ahead.op ";") then let _ ← op ";" else block r

def namedField : Reader Unit := do
  annotations r
  let _ ← visibility
  let _ ← name
  let _ ← op ":"
  let _ ← r.type true

def tupleField : Reader Unit := do
  annotations r
  let _ ← visibility
  let _ ← r.type true

def variant : Reader Unit := do
  annotations r
  let _ ← visibility
  let _ ← name
  if ← ahead (Ahead.group .brace) then
    let _ ← inside .brace (commas (namedField r))
  else if ← ahead (Ahead.group .paren) then
    let _ ← inside .paren (commas (tupleField r))
  if ← ahead (Ahead.op "=") then
    let _ ← op "="
    let _ ← r.expr true

def structItem : Reader Unit := do
  let _ ← word "struct"
  let _ ← name
  generics r
  conditions r
  if ← ahead (Ahead.group .brace) then
    let _ ← inside .brace (commas (namedField r))
  else
    if ← ahead (Ahead.group .paren) then
      let _ ← inside .paren (commas (tupleField r))
      conditions r
    let _ ← op ";"

def enumItem : Reader Unit := do
  let _ ← word "enum"
  let _ ← name
  generics r
  conditions r
  let _ ← inside .brace (commas (variant r))

def unionItem : Reader Unit := do
  let _ ← word "union"
  let _ ← name
  generics r
  conditions r
  let _ ← inside .brace (commas (namedField r))

def value : Reader Unit := do
  if ← ahead (Ahead.op "=") then
    let _ ← op "="
    let _ ← r.expr true

def constItem : Reader Unit := do
  let _ ← word "const"
  let _ ← if ← ahead (Ahead.word "_") then anyWord else name
  generics r
  let _ ← op ":"
  let _ ← r.type true
  value r
  conditions r
  let _ ← op ";"

def staticItem : Reader Unit := do
  let _ ← word "static"
  let _ ← optionalWord "mut"
  let _ ← name
  if ← ahead (Ahead.op ":") then
    let _ ← op ":"
    let _ ← r.type true
  value r
  let _ ← op ";"

def typeItem : Reader Unit := do
  let _ ← word "type"
  let _ ← name
  generics r
  if ← ahead (Ahead.op ":") then
    let _ ← op ":"
    let _ ← separated "+" conditionEnds (bound r false true)
  conditions r
  if ← ahead (Ahead.op "=") then
    let _ ← op "="
    let _ ← r.type true
  conditions r
  let _ ← op ";"

def ruleCall : Reader Unit := do
  ExprReader.namePath
  let _ ← op "!"
  let _ ← optional (fun ts => Ahead.name ts || Ahead.word "try" ts) anyWord
  let (d, _) ← anyGroup
  if d != .brace then let _ ← op ";"

def memberItem : Reader Unit := do
  annotations r
  let visible ← visibility
  if (← ahead (Ahead.word "default")) && !(← ahead2 (Ahead.op "!")) then let _ ← anyWord
  if ← ahead signatureAhead then function r
  else if ← ahead (Ahead.word "const") then constItem r
  else if ← ahead (Ahead.word "type") then typeItem r
  else if ← ahead (Ahead.word "static") then staticItem r
  else if !visible then ruleCall
  else failure

def members : Reader Unit :=
  inside .brace do
    innerAnnotations r
    let _ ← all (memberItem r)

def implGenericsAhead (ts : List Tree) : Bool :=
  let two := ts.drop 1
  Ahead.op "<" ts && (Ahead.op ">" two || Ahead.op "#" two || Ahead.word "const" two ||
    ((Ahead.name two || Ahead.lifetime two) && Ahead.anyOp [":", ",", ">", "="] (ts.drop 2)))

def implItem : Reader Unit := do
  let _ ← optionalWord "default"
  let _ ← optionalWord "unsafe"
  let _ ← word "impl"
  if ← ahead implGenericsAhead then generics r
  let _ ← optionalWord "const"
  let _ ← optionalOp "!"
  let first ← r.type true
  if ← ahead (Ahead.word "for") then
    match first with
    | .path .. => pure ()
    | _ => failure
    let _ ← word "for"
    let _ ← r.type true
  conditions r
  members r

def traitItem : Reader Unit := do
  let _ ← optionalWord "unsafe"
  let _ ← optionalWord "auto"
  let _ ← word "trait"
  let _ ← name
  generics r
  if ← ahead (Ahead.op "=") then
    let _ ← op "="
    let _ ← separated "+" conditionEnds (bound r false true)
    conditions r
    let _ ← op ";"
  else
    if ← ahead (Ahead.op ":") then
      let _ ← op ":"
      let stop (ts : List Tree) : Bool := Ahead.word "where" ts || Ahead.group .brace ts
      let _ ← separated "+" stop (bound r false true)
    conditions r
    members r

mutual

def useTree : Nat → Reader Unit
  | 0 => failure
  | fuel + 1 => do
      if ← ahead (Ahead.op "*") then let _ ← op "*"
      else if ← ahead (Ahead.group .brace) then useGroup fuel
      else
        let _ ← if ← ahead (Ahead.anyOf ["self", "super", "crate", "try"]) then anyWord else name
        if ← ahead (Ahead.op "::") then
          let _ ← op "::"
          useTree fuel
        else if ← ahead (Ahead.word "as") then
          let _ ← anyWord
          let _ ← if ← ahead (Ahead.word "_") then anyWord else name

def useGroup : Nat → Reader Unit
  | 0 => failure
  | fuel + 1 => do
      let part : Reader Unit := do
        let _ ← optionalOp "::"
        useTree fuel
      let _ ← inside .brace (commas part)

end

def useItem : Reader Unit := do
  let _ ← word "use"
  let _ ← optionalOp "::"
  useTree (treesSize (← get) + 1)
  let _ ← op ";"

def modItem : Reader Unit := do
  let _ ← optionalWord "unsafe"
  let _ ← word "mod"
  let _ ← if ← ahead (Ahead.word "try") then anyWord else name
  if ← ahead (Ahead.op ";") then let _ ← op ";"
  else
    inside .brace do
      innerAnnotations r
      let _ ← all r.item

def externItem : Reader Unit := do
  let _ ← optionalWord "unsafe"
  if ← ahead2 (Ahead.word "crate") then
    let _ ← word "extern"
    let _ ← word "crate"
    let _ ← if ← ahead (Ahead.word "self") then anyWord else name
    if ← ahead (Ahead.word "as") then
      let _ ← anyWord
      let _ ← if ← ahead (Ahead.word "_") then anyWord else name
    let _ ← op ";"
  else
    abi
    members r

def ruleItem : Reader Unit := do
  let _ ← word "macro"
  let _ ← name
  if ← ahead (Ahead.group .paren) then let _ ← anyGroup
  inside .brace skipAll

def item : Reader Unit := do
  annotations r
  let visible ← visibility
  let ts ← get
  if signatureAhead ts then function r
  else if Ahead.word "extern" ts then externItem r
  else if Ahead.word "use" ts then useItem
  else if Ahead.word "static" ts then staticItem r
  else if Ahead.word "const" ts then constItem r
  else if Ahead.word "unsafe" ts then
    let next := ts.drop 1
    if Ahead.word "impl" next then implItem r
    else if Ahead.word "extern" next then externItem r
    else if Ahead.word "mod" next then modItem r
    else traitItem r
  else if Ahead.word "mod" ts then modItem r
  else if Ahead.word "type" ts then typeItem r
  else if Ahead.word "struct" ts then structItem r
  else if Ahead.word "enum" ts then enumItem r
  else if Ahead.word "union" ts && Ahead.name (ts.drop 1) then unionItem r
  else if Ahead.word "trait" ts || (Ahead.word "auto" ts && Ahead.word "trait" (ts.drop 1)) then
    traitItem r
  else if Ahead.word "impl" ts || (Ahead.word "default" ts && !Ahead.op "!" (ts.drop 1)) then
    implItem r
  else if Ahead.word "macro" ts then ruleItem
  else if !visible then ruleCall
  else failure

def file : Reader Unit := do
  innerAnnotations r
  let _ ← all r.item

end

end Pegsmith.Source.ItemReader
