import Pegsmith.Regex.Basic
import Pegsmith.Text.Blank
import Pegsmith.Text.Scan

set_option autoImplicit false

namespace Pegsmith.Regex

structure Flags where
  caseless : Bool := false
  multiLine : Bool := false
  dotAll : Bool := false
  lazy : Bool := false
  crlf : Bool := false
  verbose : Bool := false
  unicode : Bool := true
  deriving DecidableEq, Repr

open Text (Scan after? hexValue?)
open Text.Scan

def dropBlanks : Bool → List Char → List Char
  | _, [] => []
  | true, c :: cs => dropBlanks (c != '\n') cs
  | false, c :: cs =>
      if Text.isBlank c then dropBlanks false cs
      else if c == '#' then dropBlanks true cs
      else c :: cs

def blanks (f : Flags) : Scan Unit := do
  if f.verbose then modify (dropBlanks false)

def step (f : Flags) : Scan Unit := do
  let _ ← next
  blanks f
  guard !(← atEnd)

def pastBlanks : Bool → List Char → Option Char
  | _, [] => none
  | seen, c :: cs =>
      if Text.isBlank c then pastBlanks seen cs
      else if c == '#' && !seen then pastBlanks true cs
      else some c

def peekSecond? (f : Flags) : Scan (Option Char) := do
  let rest := (← get).drop 1
  return if f.verbose then pastBlanks false rest else rest.head?

def wordLimit : Nat := 0x100000000

def digitsFrom (f : Flags) : Nat → List Char → List Char → List Char × List Char
  | 0, taken, cs => (taken.reverse, cs)
  | n + 1, taken, cs =>
      match cs with
      | c :: rest =>
          if c.isDigit then
            digitsFrom f n (c :: taken) (if f.verbose then dropBlanks false rest else rest)
          else (taken.reverse, cs)
      | [] => (taken.reverse, cs)

def decimal (f : Flags) : Scan Nat := do
  let cs := (← get).dropWhile Text.isBlank
  let (digits, rest) := digitsFrom f cs.length [] cs
  set (rest.dropWhile Text.isBlank)
  guard !digits.isEmpty
  let n := Nat.ofDigitChars 10 digits 0
  guard (n < wordLimit)
  return n

def hexFixed (f : Flags) : Nat → Nat → Scan Nat
  | 0, value => return value
  | n + 1, value => do
      match (← peek?).bind hexValue? with
      | none => failure
      | some d =>
          let _ ← next
          blanks f
          hexFixed f n (16 * value + d)

def hexBraced (f : Flags) : Nat → List Nat → Scan Nat
  | 0, _ => failure
  | n + 1, digits => do
      step f
      if (← peek?) == some '\x7d' then
        let _ ← next
        blanks f
        guard !digits.isEmpty
        let value := digits.reverse.foldl (fun v d => 16 * v + d) 0
        guard (value < wordLimit)
        return value
      else
        match (← peek?).bind hexValue? with
        | none => failure
        | some d => hexBraced f n (d :: digits)

inductive Primitive where
  | literal (c : Char) (byte : Bool)
  | oneOf (s : CharSet)
  | look (l : Look)

def hexEscape (f : Flags) (kind : Char) : Scan Primitive := do
  step f
  if (← peek?) == some '\x7b' then
    return .literal (← charOfCode (← hexBraced f (← get).length [])) false
  else
    let digits := if kind == 'x' then 2 else if kind == 'u' then 4 else 8
    return .literal (← charOfCode (← hexFixed f digits 0)) (kind == 'x')

def propertyText (f : Flags) : Nat → List Char → Scan (List Char)
  | 0, _ => failure
  | n + 1, taken => do
      step f
      match ← peek? with
      | some '\x7d' =>
          let _ ← next
          return taken.reverse
      | some c => propertyText f n (c :: taken)
      | none => failure

def cutAt? (mark : List Char) : List Char → Option (List Char × List Char)
  | [] => none
  | c :: cs =>
      match after? mark (c :: cs) with
      | some rest => some ([], rest)
      | none => (cutAt? mark cs).map fun (front, back) => (c :: front, back)

def propertySet? (text : List Char) : Option (CharSet × Bool) :=
  let value (cut : List Char × List Char) (negated : Bool) : Option (CharSet × Bool) :=
    (CharSet.ofValue? (String.ofList cut.1) (String.ofList cut.2)).map (·, negated)
  match cutAt? ['!', '='] text, cutAt? [':'] text, cutAt? ['='] text with
  | some cut, _, _ => value cut true
  | none, some cut, _ => value cut false
  | none, none, some cut => value cut false
  | none, none, none => (CharSet.ofName? (String.ofList text)).map (·, false)

/-- Folding comes before the complement. A complement holds characters beyond ASCII, which only an
expression over all characters may. -/
def closeSet (f : Flags) (negated : Bool) (s : CharSet) : Scan CharSet := do
  guard (f.unicode || !negated)
  let s := if f.caseless then .fold f.unicode s else s
  return if negated then .compl s else s

def propertyEscape (f : Flags) (kind : Char) : Scan Primitive := do
  step f
  let text ←
    match ← peek? with
    | some '\x7b' => propertyText f (← get).length []
    | some '\\' | none => failure
    | some c => do
        let _ ← next
        blanks f
        pure [c]
  guard f.unicode
  match propertySet? text with
  | none => failure
  | some (s, negated) => return .oneOf (← closeSet f ((kind == 'P') != negated) s)

def namedSet (f : Flags) (kind : Char) : Scan CharSet := do
  let negated := kind.isUpper
  guard (f.unicode || !negated)
  let s :=
    match kind.toLower, f.unicode with
    | 'd', true => CharSet.digits
    | 'd', false => CharSet.asciiDigits
    | 's', true => CharSet.blank
    | 's', false => CharSet.asciiBlank
    | _, true => CharSet.wordChars
    | _, false => CharSet.asciiWordChars
  return if negated then .compl s else s

def boundaryName (f : Flags) : Scan (Option (List Char)) := do
  let before ← get
  step f
  let isPart (c : Char) : Bool := c.isAlpha || c == '-'
  if !(← peek?).any isPart then
    set before
    return none
  else
    let rec name : Nat → List Char → Scan (List Char)
      | 0, _ => failure
      | n + 1, taken => do
          match ← peek? with
          | some c =>
              if isPart c then
                let _ ← next
                blanks f
                name n (c :: taken)
              else return taken.reverse
          | none => failure
    let taken ← name (before.length + 1) []
    expect '\x7d'
    return some taken

def boundary (f : Flags) : Scan Look := do
  if (← peek?) != some '\x7b' then return .wordBoundary f.unicode
  match ← boundaryName f with
  | none => return .wordBoundary f.unicode
  | some name =>
      match String.ofList name with
      | "start" => return .wordStart f.unicode
      | "end" => return .wordEnd f.unicode
      | "start-half" => return .noWordBefore f.unicode
      | "end-half" => return .noWordAfter f.unicode
      | _ => failure

def isEscapable (c : Char) : Bool :=
  c.toNat < 128 && !c.isAlphanum && c != '<' && c != '>'

def escape (f : Flags) : Scan Primitive := do
  expect '\\'
  match ← peek? with
  | none => failure
  | some c =>
      if c.isDigit then failure
      else if ['x', 'u', 'U'].contains c then hexEscape f c
      else if c == 'p' || c == 'P' then propertyEscape f c
      else
        let _ ← next
        if ['d', 's', 'w', 'D', 'S', 'W'].contains c then return .oneOf (← namedSet f c)
        else if isEscapable c then return .literal c false
        else
          match c with
          | 'a' => return .literal '\x07' false
          | 'f' => return .literal '\x0c' false
          | 't' => return .literal '\t' false
          | 'n' => return .literal '\n' false
          | 'r' => return .literal '\r' false
          | 'v' => return .literal '\x0b' false
          | 'A' => return .look .textStart
          | 'z' => return .look .textEnd
          | 'b' => return .look (← boundary f)
          | 'B' => return .look (.noWordBoundary f.unicode)
          | '<' => return .look (.wordStart f.unicode)
          | '>' => return .look (.wordEnd f.unicode)
          | _ => failure

inductive SetOp where
  | inter
  | diff
  | symmDiff
  deriving DecidableEq, Repr

structure DeepSet where
  set : CharSet := .empty
  depth : Nat := 0

structure Bracket where
  negated : Bool
  items : List DeepSet := []
  left : Option (SetOp × DeepSet) := none

namespace Bracket

def add (b : Bracket) (s : CharSet) (depth : Nat := 0) : Bracket :=
  { b with items := ⟨s, depth⟩ :: b.items }

def maxDepth (ds : List Nat) : Nat :=
  ds.foldl Nat.max 0

def union (b : Bracket) : DeepSet :=
  match b.items with
  | [] => {}
  | [item] => item
  | items => ⟨CharSet.unions (items.map (·.set)), maxDepth (items.map (·.depth)) + 1⟩

def value (f : Flags) (b : Bracket) : DeepSet :=
  match b.left with
  | none => b.union
  | some (op, left) =>
      let right := b.union
      let fold (s : CharSet) : CharSet := if f.caseless then .fold f.unicode s else s
      let l := fold left.set
      let r := fold right.set
      let set :=
        match op with
        | .inter => CharSet.inter l r
        | .diff => .diff l r
        | .symmDiff => .union (.diff l r) (.diff r l)
      ⟨set, Nat.max left.depth right.depth + 1⟩

def operator (f : Flags) (b : Bracket) (op : SetOp) : Bracket :=
  { b with items := [], left := some (op, b.value f) }

end Bracket

def leadingHyphens (f : Flags) : Nat → Bracket → Scan Bracket
  | 0, b => return b
  | n + 1, b => do
      if (← peek?) == some '-' then
        step f
        leadingHyphens f n (b.add (.ofChar '-'))
      else return b

def openBracket (f : Flags) : Scan Bracket := do
  step f
  let negated := (← peek?) == some '^'
  if negated then step f
  let b ← leadingHyphens f (← get).length { negated }
  if b.items.isEmpty && (← peek?) == some ']' then
    step f
    return b.add (.ofChar ']')
  else return b

def asciiClass? (cs : List Char) : Option (CharSet × Bool × List Char) := do
  let rest ← after? ['[', ':'] cs
  let (negated, rest) :=
    match rest with
    | '^' :: rest => (true, rest)
    | rest => (false, rest)
  let name := rest.takeWhile (· != ':')
  let rest ← after? [':', ']'] (rest.dropWhile (· != ':'))
  let s ← CharSet.asciiClass? (String.ofList name)
  return (s, negated, rest)

def setItem (f : Flags) : Scan Primitive := do
  if (← peek?) == some '\\' then escape f else return .literal (← next) false

def setChar (f : Flags) : Primitive → Scan Char
  | .literal c _ => do
      guard (f.unicode || c.toNat < 128)
      return c
  | _ => failure

def setRange (f : Flags) : Scan CharSet := do
  let first ← setItem f
  blanks f
  guard !(← atEnd)
  let second ← peekSecond? f
  if (← peek?) != some '-' || second == some ']' || second == some '-' then
    match first with
    | .oneOf s => return s
    | item => return .ofChar (← setChar f item)
  else
    step f
    let last ← setChar f (← setItem f)
    let first ← setChar f first
    guard (first ≤ last)
    return .range first.toNat last.toNat

def brackets (f : Flags) : Nat → Bracket → List Bracket → Scan DeepSet
  | 0, _, _ => failure
  | n + 1, b, outer => do
      blanks f
      let cs ← get
      match cs with
      | [] => failure
      | '[' :: _ =>
          match asciiClass? cs with
          | some (s, negated, rest) =>
              set rest
              brackets f n (b.add (← closeSet f negated s)) outer
          | none => do
              let inner ← openBracket f
              brackets f n inner (b :: outer)
      | ']' :: rest =>
          set rest
          let value := b.value f
          let closed ← closeSet f b.negated value.set
          match outer with
          | [] => return ⟨closed, value.depth + 1⟩
          | parent :: outer => brackets f n (parent.add closed (value.depth + 1)) outer
      | '&' :: '&' :: rest =>
          set rest
          brackets f n (b.operator f .inter) outer
      | '-' :: '-' :: rest =>
          set rest
          brackets f n (b.operator f .diff) outer
      | '~' :: '~' :: rest =>
          set rest
          brackets f n (b.operator f .symmDiff) outer
      | _ => do
          let s ← setRange f
          brackets f n (b.add s) outer

def bracketed (f : Flags) : Scan DeepSet := do
  let length := (← get).length
  let b ← openBracket f
  brackets f (length + 1) b []

inductive Part where
  | flags
  | regex (r : Regex) (depth : Nat)

namespace Part

def regex? : Part → Option Regex
  | .flags => none
  | .regex r _ => some r

def depth : Part → Nat
  | .flags => 0
  | .regex _ d => d

end Part

def sequence (parts : List Part) : Regex × Nat :=
  let regex :=
    match parts.filterMap Part.regex? with
    | [] => .empty
    | r :: rs => rs.foldl (fun tail r => .seq r tail) r
  match parts with
  | [] => (regex, 0)
  | [part] => (regex, part.depth)
  | parts => (regex, Bracket.maxDepth (parts.map Part.depth) + 1)

structure Level where
  branches : List (Regex × Nat) := []
  parts : List Part := []

namespace Level

def add (l : Level) (r : Regex) (depth : Nat) : Level :=
  { l with parts := .regex r depth :: l.parts }

def nextBranch (l : Level) : Level :=
  { branches := sequence l.parts :: l.branches }

def value (l : Level) : Regex × Nat :=
  match sequence l.parts, l.branches with
  | last, [] => last
  | last, branches =>
      (branches.foldl (fun tail b => .alt b.1 tail) last.1,
        Bracket.maxDepth (last.2 :: branches.map Prod.snd) + 1)

end Level

structure Nest where
  flags : Flags := {}
  level : Level := {}
  outer : List (Level × Flags) := []
  names : List (List Char) := []

namespace Nest

def add (n : Nest) (r : Regex) (depth : Nat := 0) : Nest :=
  { n with level := n.level.add r depth }

def enter (n : Nest) (flags : Flags) : Nest :=
  { n with flags, level := {}, outer := (n.level, n.flags) :: n.outer }

def leave? (n : Nest) : Option Nest :=
  match n.outer with
  | [] => none
  | (level, flags) :: outer =>
      let (r, depth) := n.level.value
      some { n with flags, level := level.add r (depth + 1), outer }

end Nest

def isNameStart (c : Char) : Bool :=
  c == '_' || CharSet.alphabetic.contains c.toNat

def isNamePart (c : Char) : Bool :=
  ['_', '.', '[', ']'].contains c || CharSet.alphabetic.contains c.toNat ||
    CharSet.numeric.contains c.toNat

def groupName : Scan (List Char) := do
  let cs ← get
  let name := cs.takeWhile (· != '>')
  match name with
  | [] => failure
  | c :: rest =>
      guard (isNameStart c && rest.all isNamePart)
      set (cs.dropWhile (· != '>'))
      expect '>'
      return name

def setFlag? (f : Flags) (on : Bool) : Char → Option Flags
  | 'i' => some { f with caseless := on }
  | 'm' => some { f with multiLine := on }
  | 's' => some { f with dotAll := on }
  | 'U' => some { f with lazy := on }
  | 'u' => some { f with unicode := on }
  | 'R' => some { f with crlf := on }
  | 'x' => some { f with verbose := on }
  | _ => none

def flagList : Nat → Flags → List Char → Scan (Flags × List Char)
  | 0, _, _ => failure
  | n + 1, f, seen => do
      match ← peek? with
      | none => failure
      | some c =>
          if c == ':' || c == ')' then
            guard (seen.head? != some '-')
            return (f, seen)
          else
            guard !(seen.contains c)
            let _ ← next
            if c == '-' then flagList n f (c :: seen)
            else
              match setFlag? f (!seen.contains '-') c with
              | some f => flagList n f (c :: seen)
              | none => failure

def openGroup (n : Nest) : Scan Nest := do
  expect '('
  blanks n.flags
  for look in ["?=", "?!", "?<=", "?<!"] do
    guard !(← skipWord look)
  if (← skipWord "?P<") || (← skipWord "?<") then
    let name ← groupName
    guard !(n.names.contains name)
    return { n.enter n.flags with names := name :: n.names }
  else if ← skipWord "?" then
    let (flags, seen) ← flagList ((← get).length + 1) n.flags []
    if (← next) == ')' then
      guard !seen.isEmpty
      return { n with flags, level := { n.level with parts := .flags :: n.level.parts } }
    else return n.enter flags
  else return n.enter n.flags

def repeatLast (l : Level) (min : Nat) (max : Option Nat) (greedy : Bool) : Option Level :=
  match l.parts with
  | .regex r depth :: parts =>
      some { l with parts := .regex (.repeated min max greedy r) (depth + 1) :: parts }
  | _ => none

def takeLazy : Scan Bool := do
  if (← peek?) == some '?' then
    let _ ← next
    return true
  else return false

def bounds (f : Flags) : Scan (Nat × Option Nat) := do
  step f
  let min ← decimal f
  match ← peek? with
  | some ',' =>
      step f
      if (← peek?) == some '\x7d' then return (min, none)
      else
        let max ← decimal f
        guard (min ≤ max)
        return (min, some max)
  | _ => return (min, some min)

def repetition (n : Nest) (mark : Char) : Scan Nest := do
  let (min, max) ←
    match mark with
    | '?' => do let _ ← next; pure (0, some 1)
    | '*' => do let _ ← next; pure (0, none)
    | '+' => do let _ ← next; pure (1, none)
    | _ => do
        let range ← bounds n.flags
        expect '\x7d'
        blanks n.flags
        pure range
  let greedy := (← takeLazy) == n.flags.lazy
  match repeatLast n.level min max greedy with
  | some level => return { n with level }
  | none => failure

def dot (f : Flags) : Scan CharSet := do
  guard f.unicode
  if f.dotAll then return .any
  else if f.crlf then return .compl (.union (.ofChar '\n') (.ofChar '\r'))
  else return .compl (.ofChar '\n')

def caret (f : Flags) : Look :=
  if !f.multiLine then .textStart else if f.crlf then .anyLineStart else .lineStart

def dollar (f : Flags) : Look :=
  if !f.multiLine then .textEnd else if f.crlf then .anyLineEnd else .lineEnd

def primitive (f : Flags) : Primitive → Scan Regex
  | .oneOf s => return .oneOf s
  | .look l => return .look l
  | .literal c byte => do
      guard (f.unicode || !byte || c.toNat < 128)
      let s := CharSet.ofChar c
      return .oneOf (if f.caseless then .fold f.unicode s else s)

def part (n : Nest) (c : Char) : Scan Nest := do
  match c with
  | '\\' => return n.add (← primitive n.flags (← escape n.flags))
  | '[' => do
      let s ← bracketed n.flags
      return n.add (.oneOf s.set) s.depth
  | '.' => do
      let _ ← next
      return n.add (.oneOf (← dot n.flags))
  | '^' => do
      let _ ← next
      return n.add (.look (caret n.flags))
  | '$' => do
      let _ ← next
      return n.add (.look (dollar n.flags))
  | c => do
      let _ ← next
      return n.add (← primitive n.flags (.literal c false))

def expression : Nat → Nest → Scan Nest
  | 0, n => return n
  | fuel + 1, n => do
      blanks n.flags
      match ← peek? with
      | none => return n
      | some '(' => expression fuel (← openGroup n)
      | some ')' => do
          let _ ← next
          match n.leave? with
          | some n => expression fuel n
          | none => failure
      | some '|' => do
          let _ ← next
          expression fuel { n with level := n.level.nextBranch }
      | some c =>
          if ['?', '*', '+', '\x7b'].contains c then expression fuel (← repetition n c)
          else expression fuel (← part n c)

def depthLimit : Nat := 250

def roomLimit : Nat := 0xA00000

def parse? (text : List Char) : Option Regex := do
  let (n, rest) ← (expression (text.length + 1) {}).run text
  guard (rest.isEmpty && n.outer.isEmpty)
  let (r, depth) := n.level.value
  guard (depth ≤ depthLimit && r.room ≤ roomLimit)
  return r

/-- The expression pasted behind a start of text, so that it can only match there. A parenthesis
that closes too much closes the group that was put around it. -/
def parseAnchored? (text : String) : Option Regex :=
  parse? ("^(?:".toList ++ text.toList ++ [')'])

end Pegsmith.Regex
