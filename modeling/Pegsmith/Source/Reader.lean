import Pegsmith.Source.HostType

set_option autoImplicit false

namespace Pegsmith.Source

abbrev Reader := StateT (List Tree) Option

def keywords : List String :=
  ["_", "abstract", "as", "async", "await", "become", "box", "break", "const", "continue", "crate",
    "do", "dyn", "else", "enum", "extern", "false", "final", "fn", "for", "if", "impl", "in",
    "let", "loop", "macro", "match", "mod", "move", "mut", "override", "priv", "pub", "ref",
    "return", "Self", "self", "static", "struct", "super", "trait", "true", "try", "type",
    "typeof", "unsafe", "unsized", "use", "virtual", "where", "while", "yield"]

def isName (word : String) : Bool :=
  !keywords.contains word

namespace Ahead

def mark (chars : List Char) (ts : List Tree) : Bool :=
  match chars, ts with
  | [c], .mark d _ :: _ => c == d
  | c :: more, .mark d true :: rest => c == d && mark more rest
  | _, _ => false

/-- Whether the marks `op` come next, possibly as the start of a longer run. -/
def op (text : String) (ts : List Tree) : Bool :=
  mark text.toList ts

def word (text : String) : List Tree → Bool
  | .word w :: _ => w == text
  | _ => false

def name : List Tree → Bool
  | .word w :: _ => isName w
  | _ => false

def anyWord : List Tree → Bool
  | .word _ :: _ => true
  | _ => false

def lifetime : List Tree → Bool
  | .lifetime _ :: _ => true
  | _ => false

def group (d : Delimiter) : List Tree → Bool
  | .group d' _ :: _ => d == d'
  | _ => false

def number : List Tree → Bool
  | .literal .integer _ :: _ | .literal .float _ :: _ => true
  | _ => false

def literal (ts : List Tree) : Bool :=
  match ts with
  | .literal _ _ :: _ => true
  | .mark '-' _ :: rest => number rest
  | _ => word "true" ts || word "false" ts

def anyOp (texts : List String) (ts : List Tree) : Bool :=
  texts.any (op · ts)

def anyOf (texts : List String) (ts : List Tree) : Bool :=
  texts.any (word · ts)

def dot (ts : List Tree) : Bool :=
  op "." ts && !op ".." ts

end Ahead

namespace Reader

variable {α : Type}

def ahead (test : List Tree → Bool) : Reader Bool := do
  return test (← get)

def ahead2 (test : List Tree → Bool) : Reader Bool := do
  return test ((← get).drop 1)

def isDone : Reader Bool := do
  return (← get).isEmpty

def op (text : String) : Reader String := do
  let ts ← get
  if Ahead.op text ts then
    set (ts.drop text.length)
    return text
  else failure

def word (text : String) : Reader String := do
  match ← get with
  | .word w :: rest => if w == text then set rest; return text else failure
  | _ => failure

def name : Reader String := do
  match ← get with
  | .word w :: rest => if isName w then set rest; return w else failure
  | _ => failure

def anyWord : Reader String := do
  match ← get with
  | .word w :: rest => set rest; return w
  | _ => failure

def lifetime : Reader String := do
  match ← get with
  | .lifetime n :: rest => set rest; return n
  | _ => failure

def literal : Reader String := do
  match ← get with
  | .literal _ text :: rest => set rest; return text
  | .mark '-' _ :: .literal .integer text :: rest | .mark '-' _ :: .literal .float text :: rest =>
      set rest
      return "- " ++ text
  | .word w :: rest => if w == "true" || w == "false" then set rest; return w else failure
  | _ => failure

def inside (d : Delimiter) (r : Reader α) : Reader α := do
  match ← get with
  | .group d' inner :: rest =>
      if d = d' then
        match r.run inner with
        | some (a, []) => set rest; return a
        | _ => failure
      else failure
  | _ => failure

def anyGroup : Reader (Delimiter × List Tree) := do
  match ← get with
  | .group d inner :: rest => set rest; return (d, inner)
  | _ => failure

def skipAll : Reader Unit :=
  set ([] : List Tree)

def taken (r : Reader α) : Reader String := do
  let before ← get
  let _ ← r
  let after ← get
  return render (before.take (before.length - after.length))

def whileAhead (go : List Tree → Bool) (r : Reader α) : Nat → Reader (List α)
  | 0 => return []
  | fuel + 1 => do
      if ← ahead go then
        let a ← r
        return a :: (← whileAhead go r fuel)
      else return []

def all (r : Reader α) : Reader (List α) := do
  whileAhead (!·.isEmpty) r (← get).length

def separatedLoop (sep : String) (stop : List Tree → Bool) (r : Reader α) :
    Nat → Reader (List α × Bool)
  | 0 => failure
  | fuel + 1 => do
      if ← ahead stop then return ([], true)
      let a ← r
      if ← ahead stop then return ([a], false)
      let _ ← op sep
      let (rest, trailing) ← separatedLoop sep stop r fuel
      return (a :: rest, trailing)

def separated (sep : String) (stop : List Tree → Bool) (r : Reader α) : Reader (List α × Bool) := do
  let (items, trailing) ← separatedLoop sep stop r ((← get).length + 1)
  return (items, trailing && !items.isEmpty)

def commas (r : Reader α) : Reader (List α × Bool) :=
  separated "," List.isEmpty r

def optional (test : List Tree → Bool) (r : Reader α) : Reader (Option α) := do
  if ← ahead test then return some (← r) else return none

def optionalOp (text : String) : Reader String := do
  if ← ahead (Ahead.op text) then op text else return ""

def optionalWord (text : String) : Reader String := do
  if ← ahead (Ahead.word text) then word text else return ""

def parse? (r : Reader α) (source : String) : Option α := do
  match r.run (← trees? source) with
  | some (a, []) => some a
  | _ => none

end Reader

end Pegsmith.Source
