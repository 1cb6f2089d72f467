import Pegsmith.Source.PatternReader

set_option autoImplicit false

namespace Pegsmith.Source.ExprReader

open Reader TypeReader

def binaryOps : List (String × Level) :=
  [("+=", .assign), ("-=", .assign), ("*=", .assign), ("/=", .assign), ("%=", .assign),
    ("^=", .assign), ("&=", .assign), ("|=", .assign), ("<<=", .assign), (">>=", .assign),
    ("&&", .and), ("||", .or), ("<<", .shift), (">>", .shift), ("==", .compare), ("<=", .compare),
    ("!=", .compare), (">=", .compare), ("+", .sum), ("-", .sum), ("*", .product),
    ("/", .product), ("%", .product), ("^", .bitXor), ("&", .bitAnd), ("|", .bitOr),
    ("<", .compare), (">", .compare)]

def binaryOp? (ts : List Tree) : Option (String × Level) :=
  binaryOps.find? fun (text, _) => Ahead.op text ts

def assignAhead (ts : List Tree) : Bool :=
  Ahead.op "=" ts && !Ahead.op "=>" ts

def nextLevel (ts : List Tree) : Level :=
  match binaryOp? ts with
  | some (_, level) => level
  | none =>
      if assignAhead ts then .assign
      else if Ahead.op ".." ts then .range
      else if Ahead.word "as" ts then .cast
      else .jump

def exprAhead (ts : List Tree) : Bool :=
  (Ahead.anyWord ts && !Ahead.word "as" ts) || Ahead.group .paren ts || Ahead.group .bracket ts ||
    Ahead.group .brace ts || Ahead.literal ts || (Ahead.op "!" ts && !Ahead.op "!=" ts) ||
    (Ahead.op "-" ts && !Ahead.anyOp ["-=", "->"] ts) || (Ahead.op "*" ts && !Ahead.op "*=" ts) ||
    (Ahead.op "|" ts && !Ahead.op "|=" ts) || (Ahead.op "&" ts && !Ahead.op "&=" ts) ||
    Ahead.op ".." ts || (Ahead.op "<" ts && !Ahead.anyOp ["<=", "<<="] ts) || Ahead.op "::" ts ||
    Ahead.lifetime ts || Ahead.op "#" ts

def rangeEnds (structs : Bool) (ts : List Tree) : Bool :=
  ts.isEmpty || Ahead.dot ts || (!structs && Ahead.group .brace ts) || Ahead.word "as" ts ||
    Ahead.anyOp [",", ";", "?", "=>", "=", "+", "/", "%", "^", ">", "<=", "!=", "-=", "*=", "&=",
      "|=", "<<="] ts

section

variable (r : Readers)

def rightSideLoop (form : Form) (structs : Bool) (level : Level) : Nat → Reader Form
  | 0 => return form
  | fuel + 1 => do
      let next := nextLevel (← get)
      if level.rank < next.rank || (next = level && level = .assign) then
        let before := (← get).length
        let form ← r.operation form structs next
        if (← get).length < before then rightSideLoop form structs level fuel else return form
      else return form

def rightSide (structs : Bool) (level : Level) : Reader Form := do
  let form ← r.operand structs
  rightSideLoop r form structs level (← get).length

def rangeEnd (structs : Bool) : Reader Unit := do
  let closed ← PatternReader.limits false
  if !closed && (← ahead (rangeEnds structs)) then return
  let _ ← rightSide r structs .range

def castGoesOn (ts : List Tree) : Bool :=
  Ahead.dot ts || Ahead.op "?" ts || Ahead.group .bracket ts || Ahead.group .paren ts

def operation (form : Form) (structs : Bool) (base : Level) : Reader Form := do
  if form = .range then return form
  match binaryOp? (← get) with
  | some (text, level) =>
      if level.rank < base.rank then return form
      if level = .compare && form = .comparison then failure
      let _ ← op text
      let _ ← rightSide r structs level
      r.operation (if level = .compare then .comparison else .plain) structs base
  | none =>
      if base.rank ≤ Level.assign.rank && (← ahead assignAhead) then
        let _ ← op "="
        let _ ← rightSide r structs .assign
        r.operation .plain structs base
      else if base.rank ≤ Level.range.rank && (← ahead (Ahead.op "..")) then
        rangeEnd r structs
        r.operation .range structs base
      else if ← ahead (Ahead.word "as") then
        let _ ← word "as"
        let _ ← r.type false
        if ← ahead castGoesOn then failure
        r.operation .plain structs base
      else return form

/-- The members of `0.1`, read as one number; whether a point ends it. -/
def numberMembers (text : String) : Option Bool :=
  let parts := text.toList.splitOn '.'
  let (parts, pointed) := if parts.getLast? = some [] then (parts.dropLast, true) else (parts, false)
  if parts.all fun p => !p.isEmpty && p.all Char.isDigit then some pointed else none

def args : Reader Unit := do
  let _ ← inside .paren (commas (r.expr true))

def memberAccess : Reader Unit := do
  match ← get with
  | .literal .float text :: rest =>
      match numberMembers text with
      | none => failure
      | some false => set rest; return
      | some true => set rest
  | _ => pure ()
  if ← ahead (Ahead.word "await") then
    let _ ← anyWord
  else
    let named ← PatternReader.member
    let turbofish ← ahead (Ahead.op "::")
    if named && turbofish then
      let _ ← angleArgs r
      args r
    else if named && (← ahead (Ahead.group .paren)) then args r

def trailers (form : Form) : Nat → Reader Form
  | 0 => return form
  | fuel + 1 => do
      if ← ahead (Ahead.group .paren) then
        args r
        trailers .plain fuel
      else if form != .range && (← ahead Ahead.dot) then
        let _ ← op "."
        memberAccess r
        trailers .plain fuel
      else if ← ahead (Ahead.group .bracket) then
        let _ ← inside .bracket (r.expr true)
        trailers .plain fuel
      else if form != .range && (← ahead (Ahead.op "?")) then
        let _ ← op "?"
        trailers .plain fuel
      else return form

def ifChain : Nat → Reader Unit
  | 0 => failure
  | fuel + 1 => do
      let _ ← word "if"
      let _ ← r.expr false
      block r
      if ← ahead (Ahead.word "else") then
        let _ ← word "else"
        if ← ahead (Ahead.word "if") then ifChain fuel else block r

def arm : Reader Unit := do
  annotations r
  let _ ← PatternReader.alternatives r
  if ← ahead (Ahead.word "if") then
    let _ ← word "if"
    let _ ← r.expr true
  let _ ← op "=>"
  let form ← r.early
  if form = .blockLike || (← isDone) then let _ ← optionalOp "," else let _ ← op ","

def matchBlock : Reader Unit := do
  let _ ← word "match"
  let _ ← r.expr false
  inside .brace do
    innerAnnotations r
    let _ ← all (arm r)

def whileBlock : Reader Unit := do
  let _ ← word "while"
  let _ ← r.expr false
  block r

def forBlock : Reader Unit := do
  let _ ← word "for"
  let _ ← PatternReader.alternatives r
  let _ ← word "in"
  let _ ← r.expr false
  block r

def wordBlock (text : String) : Reader Unit := do
  let _ ← word text
  block r

def labeled : Reader Unit := do
  let _ ← lifetime
  let _ ← op ":"
  if ← ahead (Ahead.word "while") then whileBlock r
  else if ← ahead (Ahead.word "for") then forBlock r
  else if ← ahead (Ahead.word "loop") then wordBlock r "loop"
  else block r

def closureArg : Reader Unit := do
  annotations r
  let _ ← r.pattern
  if ← ahead (Ahead.op ":") then
    let _ ← op ":"
    let _ ← r.type true

def closure (structs : Bool) : Reader Unit := do
  if ← ahead (Ahead.word "for") then let _ ← r.binder
  for w in ["const", "static", "async", "move"] do
    let _ ← optionalWord w
  let _ ← op "|"
  let _ ← separated "," (Ahead.op "|") (closureArg r)
  let _ ← op "|"
  if ← ahead (Ahead.op "->") then
    let _ ← op "->"
    let _ ← r.type true
    block r
  else let _ ← r.expr structs

def fieldValue : Reader Unit := do
  annotations r
  let named ← PatternReader.member
  if !named || (← ahead (Ahead.op ":")) then
    let _ ← op ":"
    let _ ← r.expr true

def structBody : Reader Unit := do
  let restAhead (ts : List Tree) : Bool := ts.isEmpty || Ahead.op ".." ts
  let _ ← separated "," restAhead (fieldValue r)
  if ← ahead (Ahead.op "..") then
    let _ ← op ".."
    if !(← isDone) then let _ ← r.expr true

def pathOperand (structs : Bool) : Reader Form := do
  let plain ← PatternReader.exprPath r
  if plain && (← ahead (Ahead.op "!")) && !(← ahead (Ahead.op "!=")) then
    let _ ← op "!"
    let (d, _) ← anyGroup
    return if d = .brace then .bracedCall else .call
  else if structs && (← ahead (Ahead.group .brace)) then
    inside .brace (structBody r)
    return .plain
  else return .plain

def breakOperand (structs : Bool) : Reader Unit := do
  let _ ← word "break"
  if ← ahead Ahead.lifetime then
    if ← ahead2 (Ahead.op ":") then failure
    let _ ← lifetime
  if (← ahead exprAhead) && (structs || !(← ahead (Ahead.group .brace))) then
    let _ ← r.expr true

def letOperand (structs : Bool) : Reader Unit := do
  let _ ← word "let"
  let _ ← PatternReader.alternatives r
  let _ ← op "="
  let form ← r.operand structs
  let _ ← r.operation form structs .compare

def arrayBody : Reader Unit := do
  if ← isDone then return
  let _ ← r.expr true
  if ← ahead (Ahead.op ";") then
    let _ ← op ";"
    let _ ← r.expr true
  else if !(← isDone) then
    let _ ← op ","
    let _ ← commas (r.expr true)

def closureAhead (ts : List Tree) : Bool :=
  let next := ts.drop 1
  Ahead.op "|" ts || Ahead.word "move" ts || Ahead.word "static" ts ||
    (Ahead.word "for" ts && Ahead.op "<" next &&
      (Ahead.lifetime (next.drop 1) || Ahead.op ">" (next.drop 1))) ||
    (Ahead.word "const" ts && !Ahead.group .brace next) ||
    (Ahead.word "async" ts && (Ahead.op "|" next || Ahead.word "move" next))

def asyncAhead (ts : List Tree) : Bool :=
  let next := ts.drop 1
  Ahead.word "async" ts &&
    (Ahead.group .brace next || (Ahead.word "move" next && Ahead.group .brace (next.drop 1)))

def pathAhead (ts : List Tree) : Bool :=
  PatternReader.pathAhead ts || (Ahead.word "try" ts && Ahead.anyOp ["!", "::"] (ts.drop 1))

def wordOperand (structs : Bool) : Reader Form := do
  let ts ← get
  if Ahead.word "break" ts then breakOperand r structs; return .plain
  else if Ahead.word "continue" ts then
    let _ ← anyWord
    let _ ← optional Ahead.lifetime lifetime
    return .plain
  else if Ahead.word "return" ts then
    let _ ← anyWord
    let _ ← optional exprAhead (r.expr true)
    return .plain
  else if Ahead.word "become" ts then
    let _ ← anyWord
    let _ ← r.expr true
    return .plain
  else if Ahead.word "let" ts then letOperand r structs; return .plain
  else if Ahead.word "if" ts then ifChain r ts.length; return .blockLike
  else if Ahead.word "while" ts then whileBlock r; return .blockLike
  else if Ahead.word "for" ts then forBlock r; return .blockLike
  else if Ahead.word "loop" ts then wordBlock r "loop"; return .blockLike
  else if Ahead.word "match" ts then matchBlock r; return .blockLike
  else if Ahead.word "yield" ts then
    let _ ← anyWord
    let ends (ts : List Tree) : Bool := ts.isEmpty || Ahead.anyOp [",", ";"] ts
    let _ ← optional (!ends ·) (r.expr true)
    return .plain
  else if Ahead.word "unsafe" ts then wordBlock r "unsafe"; return .blockLike
  else if Ahead.word "const" ts then wordBlock r "const"; return .blockLike
  else if Ahead.word "_" ts then let _ ← anyWord; return .plain
  else failure

def atom (structs : Bool) : Reader Form := do
  let ts ← get
  if Ahead.literal ts then
    let _ ← literal
    return .plain
  else if asyncAhead ts then
    let _ ← word "async"
    let _ ← optionalWord "move"
    block r
    return .plain
  else if Ahead.word "try" ts && Ahead.group .brace (ts.drop 1) then
    wordBlock r "try"
    return .blockLike
  else if closureAhead ts then
    closure r structs
    return .plain
  else if Ahead.word "builtin" ts && Ahead.op "#" (ts.drop 1) then
    let _ ← anyWord
    let _ ← op "#"
    let _ ← name
    inside .paren skipAll
    return .plain
  else if pathAhead ts then pathOperand r structs
  else if Ahead.group .paren ts then
    let _ ← inside .paren (commas (r.expr true))
    return .plain
  else if Ahead.group .bracket ts then
    inside .bracket (arrayBody r)
    return .plain
  else if Ahead.group .brace ts then
    block r
    return .blockLike
  else if Ahead.op ".." ts then
    rangeEnd r structs
    return .range
  else if Ahead.lifetime ts then
    labeled r
    return .blockLike
  else wordOperand r structs

def operand (structs : Bool) : Reader Form := do
  let annotated ← ahead (Ahead.op "#")
  annotations r
  let ts ← get
  if Ahead.op "&" ts then
    let _ ← op "&"
    let raw (ts : List Tree) : Bool :=
      Ahead.word "raw" ts && Ahead.anyOf ["mut", "const"] (ts.drop 1)
    if ← ahead raw then
      let _ ← anyWord
      let _ ← anyWord
    else let _ ← optionalWord "mut"
    let _ ← r.operand structs
    return .plain
  else if Ahead.anyOp ["*", "!", "-"] ts then
    let _ ← op ((["*", "!", "-"].find? (Ahead.op · ts)).getD "-")
    let _ ← r.operand structs
    return .plain
  else
    let form ← atom r structs
    let form ← trailers r form (← get).length
    if annotated && form = .range then failure
    return form

def expr (structs : Bool) : Reader Form := do
  let form ← r.operand structs
  r.operation form structs .jump

def blockAhead (ts : List Tree) : Bool :=
  let next := ts.drop 1
  Ahead.anyOf ["if", "while", "loop", "match", "unsafe"] ts ||
    (Ahead.word "for" ts && !closureAhead ts) ||
    ((Ahead.word "try" ts || Ahead.word "const" ts) && Ahead.group .brace next) ||
    Ahead.group .brace ts || Ahead.lifetime ts

def early : Reader Form := do
  annotations r
  if ← ahead blockAhead then
    let form ← atom r true
    if (← ahead Ahead.dot) || (← ahead (Ahead.op "?")) then
      let form ← trailers r form (← get).length
      r.operation form true .jump
    else return form
  else
    let form ← r.operand true
    r.operation form true .jump

def namePath : Reader Unit := do
  let _ ← optionalOp "::"
  let part : Reader String := do
    if ← ahead (Ahead.anyOf ["super", "self", "Self", "crate"]) then anyWord else name
  let _ ← part
  let _ ← whileAhead (Ahead.op "::") (do let _ ← op "::"; part) (← get).length

def ruleCallAhead (ts : List Tree) : Option (List Tree) :=
  match namePath.run ts with
  | some (_, rest) => if Ahead.op "!" rest then some (rest.drop 1) else none
  | none => none

def endsInBrace (before after : List Tree) : Bool :=
  Ahead.group .brace ((before.take (before.length - after.length)).getLast?.toList)

def letStatement : Reader Unit := do
  let _ ← word "let"
  let _ ← r.pattern
  if ← ahead (Ahead.op ":") then
    let _ ← op ":"
    let _ ← r.type true
  if ← ahead (Ahead.op "=") then
    let _ ← op "="
    let before ← get
    let _ ← r.expr true
    if (← ahead (Ahead.word "else")) && !endsInBrace before (← get) then
      let _ ← word "else"
      block r
  let _ ← op ";"

def itemAhead (ts : List Tree) : Bool :=
  let two := ts.drop 1
  let three := ts.drop 2
  Ahead.anyOf ["pub", "extern", "use", "fn", "mod", "type", "struct", "enum", "trait", "impl",
      "macro"] ts ||
    (Ahead.word "crate" ts && !Ahead.op "::" two) ||
    (Ahead.word "static" ts && (Ahead.word "mut" two || Ahead.name two)) ||
    (Ahead.word "const" ts &&
      !(Ahead.group .brace two || Ahead.word "static" two ||
        (Ahead.word "async" two && !Ahead.anyOf ["unsafe", "extern", "fn"] three) ||
        Ahead.word "move" two || Ahead.op "|" two)) ||
    (Ahead.word "unsafe" ts && !Ahead.group .brace two) ||
    (Ahead.word "async" ts && Ahead.anyOf ["unsafe", "extern", "fn"] two) ||
    (Ahead.word "union" ts && Ahead.name two) || (Ahead.word "auto" ts && Ahead.word "trait" two) ||
    (Ahead.word "default" ts && Ahead.anyOf ["unsafe", "impl"] two)

/-- One statement. The result says whether only the end of the block may follow it. -/
def statement : Reader Bool := do
  annotations r
  let ts ← get
  match ruleCallAhead ts with
  | some rest =>
      if Ahead.name rest || Ahead.word "try" rest then
        r.item
        return false
      else if Ahead.group .brace rest &&
          !(Ahead.dot (rest.drop 1) || Ahead.op "?" (rest.drop 1)) then
        namePath
        let _ ← op "!"
        let _ ← anyGroup
        let _ ← optionalOp ";"
        return false
  | none => pure ()
  if Ahead.word "let" ts then
    letStatement r
    return false
  else if itemAhead ts then
    r.item
    return false
  else
    let form ← r.early
    let semi ← optionalOp ";"
    return semi.isEmpty && form != .blockLike && form != .bracedCall

def statementLoop : Nat → Reader Unit
  | 0 => return
  | fuel + 1 => do
      let _ ← whileAhead (Ahead.op ";") (op ";") (← get).length
      if ← isDone then return
      let last ← statement r
      if ← isDone then return
      if last then failure
      statementLoop fuel

def statements : Reader Unit := do
  statementLoop r ((← get).length + 1)

end

end Pegsmith.Source.ExprReader
