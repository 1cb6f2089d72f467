import Pegsmith.Source.TypeReader

set_option autoImplicit false

namespace Pegsmith.Source.PatternReader

open Reader

section

variable (r : Readers)

def barAhead (ts : List Tree) : Bool :=
  Ahead.op "|" ts && !Ahead.op "||" ts && !Ahead.op "|=" ts

def alternatives : Reader Bool := do
  let front ← optionalOp "|"
  let first ← r.pattern
  let more ← whileAhead barAhead (do let _ ← op "|"; r.pattern) (← get).length
  return first && more.isEmpty && front.isEmpty

def exprPath : Reader Bool := do
  if ← ahead (Ahead.op "<") then
    let _ ← TypeReader.qualified r true
    return false
  else return (← TypeReader.plainPath r true).isPlain

def pathAhead (ts : List Tree) : Bool :=
  Ahead.name ts || Ahead.anyOf ["self", "Self", "super", "crate"] ts || Ahead.op "::" ts ||
    Ahead.op "<" ts

def limits (old : Bool) : Reader Bool := do
  if ← ahead (Ahead.op "..=") then
    let _ ← op "..="
    return true
  else if ← ahead (Ahead.op "...") then
    if old then
      let _ ← op "..."
      return true
    else failure
  else
    let _ ← op ".."
    return false

def rangeBound : Reader Bool := do
  let noBound (ts : List Tree) : Bool :=
    ts.isEmpty || Ahead.anyOp ["|", "=", ",", ";"] ts ||
      (Ahead.op ":" ts && !Ahead.op "::" ts) || Ahead.word "if" ts
  if ← ahead noBound then return false
  else if ← ahead Ahead.literal then
    let _ ← literal
    return true
  else if ← ahead pathAhead then
    let _ ← exprPath r
    return true
  else
    let _ ← word "const"
    TypeReader.block r
    return true

def rangeRest : Reader Bool := do
  let closed ← limits true
  let bounded ← rangeBound r
  if closed && !bounded then failure
  return !bounded

def member : Reader Bool := do
  match ← get with
  | .literal .integer text :: rest =>
      if text.all fun c => c.isDigit || c == '_' then set rest; return false else failure
  | _ =>
      let _ ← name
      return true

def field : Reader Unit := do
  TypeReader.annotations r
  let boxed ← optionalWord "box"
  let byRef ← optionalWord "ref"
  let mutable ← optionalWord "mut"
  if !(boxed ++ byRef ++ mutable).isEmpty then let _ ← name
  else
    let named ← member
    if !named || (← ahead (Ahead.op ":")) then
      let _ ← op ":"
      let _ ← alternatives r

def fields : Reader Unit := do
  let restAhead (ts : List Tree) : Bool := ts.isEmpty || Ahead.op ".." ts
  let _ ← separated "," restAhead (field r)
  if ← ahead (Ahead.op "..") then let _ ← op ".."

def slicePart : Reader Unit := do
  if ← alternatives r then failure

def pathPattern : Reader Bool := do
  let plain ← exprPath r
  if plain && (← ahead (Ahead.op "!")) && !(← ahead (Ahead.op "!=")) then
    let _ ← op "!"
    let _ ← anyGroup
    return false
  else if ← ahead (Ahead.group .brace) then
    inside .brace (fields r)
    return false
  else if ← ahead (Ahead.group .paren) then
    let _ ← inside .paren (commas (alternatives r))
    return false
  else if ← ahead (Ahead.op "..") then rangeRest r
  else return false

def startsPath (ts : List Tree) : Bool :=
  let next := ts.drop 1
  (Ahead.name ts && (Ahead.anyOp ["::", "!", ".."] next || Ahead.group .brace next ||
      Ahead.group .paren next)) ||
    (Ahead.word "self" ts && Ahead.op "::" next) || Ahead.op "::" ts || Ahead.op "<" ts ||
    Ahead.anyOf ["Self", "super", "crate"] ts

def pattern : Reader Bool := do
  if ← ahead startsPath then pathPattern r
  else if ← ahead (Ahead.word "_") then
    let _ ← word "_"
    return false
  else if ← ahead (Ahead.word "box") then
    let _ ← word "box"
    let _ ← r.pattern
    return false
  else if (← ahead (Ahead.op "-")) || (← ahead Ahead.literal) || (← ahead (Ahead.word "const")) then
    if !(← rangeBound r) then failure
    if ← ahead (Ahead.op "..") then rangeRest r else return false
  else if (← ahead (Ahead.anyOf ["ref", "mut", "self"])) || (← ahead Ahead.name) then
    let _ ← optionalWord "ref"
    let _ ← optionalWord "mut"
    let _ ← if ← ahead (Ahead.word "self") then anyWord else name
    if ← ahead (Ahead.op "@") then
      let _ ← op "@"
      let _ ← r.pattern
    return false
  else if ← ahead (Ahead.op "&") then
    let _ ← op "&"
    let _ ← optionalWord "mut"
    let _ ← r.pattern
    return false
  else if ← ahead (Ahead.group .paren) then
    let _ ← inside .paren (commas (alternatives r))
    return false
  else if ← ahead (Ahead.group .bracket) then
    let _ ← inside .bracket (commas (slicePart r))
    return false
  else if ← ahead (Ahead.op "..") then
    let closed ← limits false
    let bounded ← rangeBound r
    if closed && !bounded then failure
    return bounded
  else failure

end

end Pegsmith.Source.PatternReader
