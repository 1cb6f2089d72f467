import Pegsmith.Text.Blank
import Pegsmith.Text.Identifier

set_option autoImplicit false

namespace Pegsmith.Source

inductive Delimiter where
  | paren
  | bracket
  | brace
  deriving DecidableEq, Repr

inductive LiteralKind where
  | integer
  | float
  | text
  | other
  deriving DecidableEq, Repr

inductive Tree where
  | word (text : String)
  | lifetime (name : String)
  | mark (c : Char) (joint : Bool)
  | literal (kind : LiteralKind) (text : String)
  | group (delimiter : Delimiter) (inner : List Tree)
  deriving Repr, Inhabited

abbrev Scanned := Option (List Char × List Char)

def Scanned.after (taken : List Char) (s : Scanned) : Scanned :=
  s.map fun (more, rest) => (taken ++ more, rest)

def isHexDigit (c : Char) : Bool :=
  c.isDigit || ('a' ≤ c && c ≤ 'f') || ('A' ≤ c && c ≤ 'F')

def hexValue (c : Char) : Nat :=
  if c.isDigit then c.toNat - 48 else if c.isUpper then c.toNat - 55 else c.toNat - 87

def scanWord (cs : List Char) : Scanned :=
  match cs with
  | c :: _ => if Text.startsIdentifier c then some (cs.span Text.continuesIdentifier) else none
  | [] => none

def neverRaw : List String := ["_", "super", "self", "Self", "crate"]

def scanName : List Char → Scanned
  | 'r' :: '#' :: cs =>
      match scanWord cs with
      | some (name, rest) =>
          if neverRaw.contains (String.ofList name) then none else some ('r' :: '#' :: name, rest)
      | none => none
  | cs => scanWord cs

/-- Whether a quoted literal starts here, so that no word does. -/
def opensQuoted (cs : List Char) : Bool :=
  ["r\"", "r#\"", "r##", "b\"", "b'", "br\"", "br#", "c\"", "cr\"", "cr#"].any
    fun start => start.toList.isPrefixOf cs

inductive Quoted where
  | text
  | bytes
  | terminated
  deriving DecidableEq

def bracedValue (value digits : Nat) : List Char → Option (Nat × List Char)
  | '_' :: cs => if digits = 0 then none else bracedValue value digits cs
  | '\x7d' :: cs => if digits = 0 then none else some (value, cs)
  | c :: cs =>
      if isHexDigit c && digits < 6 then bracedValue (16 * value + hexValue c) (digits + 1) cs
      else none
  | [] => none

def isScalar (n : Nat) : Bool :=
  n < 0xD800 || (0xDFFF < n && n < 0x110000)

def afterEscape (kind : Quoted) : List Char → Option (List Char)
  | 'x' :: h :: l :: cs =>
      let inRange :=
        match kind with
        | .text => isHexDigit h && hexValue h < 8
        | .bytes => isHexDigit h
        | .terminated => isHexDigit h && (h != '0' || l != '0')
      if inRange && isHexDigit l then some cs else none
  | 'u' :: '\x7b' :: cs =>
      match kind, bracedValue 0 0 cs with
      | .bytes, _ | _, none => none
      | .text, some (value, rest) => if isScalar value then some rest else none
      | .terminated, some (value, rest) => if isScalar value && value != 0 then some rest else none
  | '0' :: cs => if kind = .terminated then none else some cs
  | c :: cs => if ['n', 'r', 't', '\\', '\'', '"'].contains c then some cs else none
  | [] => none

/-- The rest of a literal between double quotes, its end included. A carriage return stands only
before a newline, and a backslash before an escape or the end of the line. -/
def scanQuoted (kind : Quoted) : List Char → Scanned
  | [] => none
  | '"' :: cs => some (['"'], cs)
  | '\r' :: '\n' :: cs => (scanQuoted kind cs).after ['\r', '\n']
  | '\r' :: _ => none
  | '\\' :: '\n' :: cs => (scanQuoted kind cs).after ['\\', '\n']
  | '\\' :: '\r' :: '\n' :: cs => (scanQuoted kind cs).after ['\\', '\r', '\n']
  | '\\' :: c :: cs =>
      if (afterEscape kind (c :: cs)).isSome then (scanQuoted kind cs).after ['\\', c] else none
  | c :: cs =>
      match kind with
      | .text => (scanQuoted kind cs).after [c]
      | .bytes => if Text.isAscii c then (scanQuoted kind cs).after [c] else none
      | .terminated => if c.toNat = 0 then none else (scanQuoted kind cs).after [c]

def scanRawBody (kind : Quoted) (hashes : List Char) : List Char → Scanned
  | [] => none
  | '"' :: cs =>
      if hashes.isPrefixOf cs then some ('"' :: hashes, cs.drop hashes.length)
      else (scanRawBody kind hashes cs).after ['"']
  | '\r' :: '\n' :: cs => (scanRawBody kind hashes cs).after ['\r', '\n']
  | '\r' :: _ => none
  | c :: cs =>
      let allowed :=
        match kind with
        | .text => true
        | .bytes => Text.isAscii c
        | .terminated => c.toNat != 0
      if allowed then (scanRawBody kind hashes cs).after [c] else none

def scanRaw (kind : Quoted) (cs : List Char) : Scanned :=
  match cs.span (· == '#') with
  | (hashes, '"' :: body) =>
      if hashes.length ≤ 255 then (scanRawBody kind hashes body).after (hashes ++ ['"']) else none
  | _ => none

def scanSingle (kind : Quoted) : List Char → Scanned
  | '\\' :: cs =>
      match afterEscape kind cs with
      | some ('\'' :: rest) => some ('\\' :: cs.take (cs.length - rest.length), rest)
      | _ => none
  | c :: '\'' :: rest => some ([c, '\''], rest)
  | _ => none

def withSuffix (s : Scanned) : Scanned :=
  s.map fun (taken, rest) =>
    match scanWord rest with
    | some (suffix, rest) => (taken ++ suffix, rest)
    | none => (taken, rest)

def scanExponent : List Char → Scanned
  | mark :: cs =>
      if mark == 'e' || mark == 'E' then
        let (underscores, cs) := cs.span (· == '_')
        let (sign, cs) :=
          match cs with
          | c :: more => if c == '+' || c == '-' then ([c], more) else ([], cs)
          | [] => ([], [])
        let (digits, rest) := cs.span fun c => c.isDigit || c == '_'
        if digits.any Char.isDigit then some (mark :: underscores ++ sign ++ digits, rest) else none
      else none
  | [] => none

def scanDigits (cs : List Char) : List Char × List Char :=
  cs.span fun c => c.isDigit || c == '_'

/-- A number with a point or an exponent. A point before another point or a word is no part of it. -/
def scanFloat (cs : List Char) : Scanned :=
  match cs with
  | c :: _ =>
      if c.isDigit then
        let (whole, rest) := scanDigits cs
        match rest with
        | '.' :: more =>
            if more.head?.any fun c => c == '.' || Text.startsIdentifier c then none
            else
              let (fraction, rest) := scanDigits more
              let taken := whole ++ '.' :: fraction
              some ((scanExponent rest).elim (taken, rest) fun (e, rest) => (taken ++ e, rest))
        | _ => (scanExponent rest).after whole
      else none
  | [] => none

def scanBaseDigits (base : Nat) : List Char → Option (List Char × List Char)
  | [] => some ([], [])
  | c :: cs =>
      if c == '_' then (scanBaseDigits base cs).map fun (ds, rest) => (c :: ds, rest)
      else if isHexDigit c then
        if hexValue c < base then (scanBaseDigits base cs).map fun (ds, rest) => (c :: ds, rest)
        else if c.isDigit then none
        else some ([], c :: cs)
      else some ([], c :: cs)

def scanInteger (cs : List Char) : Scanned :=
  let (mark, base, digits) :=
    match cs with
    | '0' :: 'x' :: cs => (['0', 'x'], 16, cs)
    | '0' :: 'o' :: cs => (['0', 'o'], 8, cs)
    | '0' :: 'b' :: cs => (['0', 'b'], 2, cs)
    | cs => ([], 10, cs)
  if base = 10 && digits.head? = some '_' then none
  else
    match scanBaseDigits base digits with
    | some (ds, rest) => if ds.any (· != '_') then some (mark ++ ds, rest) else none
    | none => none

def endsWord (s : Scanned) : Scanned :=
  s.filter fun (_, rest) => !rest.head?.any Text.continuesIdentifier

def scanLiteral (cs : List Char) : Option (LiteralKind × List Char × List Char) :=
  let found (kind : LiteralKind) (s : Scanned) : Option (LiteralKind × List Char × List Char) :=
    s.map fun (taken, rest) => (kind, taken, rest)
  let quoted :=
    match cs with
    | '"' :: cs => found .text ((scanQuoted .text cs).after ['"'])
    | 'r' :: cs => found .text ((scanRaw .text cs).after ['r'])
    | 'b' :: '"' :: cs => found .other ((scanQuoted .bytes cs).after ['b', '"'])
    | 'b' :: 'r' :: cs => found .other ((scanRaw .bytes cs).after ['b', 'r'])
    | 'c' :: '"' :: cs => found .other ((scanQuoted .terminated cs).after ['c', '"'])
    | 'c' :: 'r' :: cs => found .other ((scanRaw .terminated cs).after ['c', 'r'])
    | 'b' :: '\'' :: cs => found .other ((scanSingle .bytes cs).after ['b', '\''])
    | '\'' :: cs => found .other ((scanSingle .text cs).after ['\''])
    | _ => none
  match quoted with
  | some (kind, taken, rest) => found kind (withSuffix (some (taken, rest)))
  | none =>
      match endsWord (withSuffix (scanFloat cs)) with
      | some (taken, rest) => some (.float, taken, rest)
      | none => found .integer (endsWord (withSuffix (scanInteger cs)))

def isMark (c : Char) : Bool :=
  "~!@#$%^&*-=+|;:,<.>/?'".toList.contains c

def startsMark : List Char → Bool
  | '/' :: '/' :: _ | '/' :: '*' :: _ => false
  | c :: _ => isMark c
  | [] => false

def scanLine : List Char → List Char × List Char
  | [] => ([], [])
  | '\n' :: cs => ([], '\n' :: cs)
  | '\r' :: '\n' :: cs => ([], '\n' :: cs)
  | c :: cs => let (line, rest) := scanLine cs; (c :: line, rest)

def scanBlock : Nat → List Char → Scanned
  | depth, '/' :: '*' :: cs => (scanBlock (depth + 1) cs).after ['/', '*']
  | depth, '*' :: '/' :: cs =>
      if depth ≤ 1 then some ([], cs) else (scanBlock (depth - 1) cs).after ['*', '/']
  | depth, c :: cs => (scanBlock depth cs).after [c]
  | _, [] => none

inductive Comment where
  | plain
  | outerDoc
  | innerDoc

def scanComment : List Char → Option (Comment × List Char × Option (List Char))
  | '/' :: '/' :: cs =>
      let kind (body : List Char) : Comment × List Char :=
        match body with
        | '!' :: body => (.innerDoc, body)
        | '/' :: '/' :: body => (.plain, body)
        | '/' :: body => (.outerDoc, body)
        | body => (.plain, body)
      let (k, body) := kind cs
      let (line, rest) := scanLine body
      some (k, line, some rest)
  | '/' :: '*' :: cs =>
      let kind : Comment :=
        match cs with
        | '!' :: _ => .innerDoc
        | '*' :: '*' :: _ | '*' :: '/' :: _ => .plain
        | '*' :: _ => .outerDoc
        | _ => .plain
      match scanBlock 1 cs with
      | some (body, rest) => some (kind, body.drop (if kind matches .plain then 0 else 1), some rest)
      | none => some (kind, [], none)
  | _ => none

def hasBareReturn : List Char → Bool
  | '\r' :: '\n' :: cs => hasBareReturn cs
  | '\r' :: _ => true
  | _ :: cs => hasBareReturn cs
  | [] => false

def docTrees (inner : Bool) (body : List Char) : List Tree :=
  let content : List Tree :=
    [.word "doc", .mark '=' false, .literal .text ("\"" ++ String.ofList body ++ "\"")]
  [.mark '#' false] ++ (if inner then [.mark '!' false] else []) ++ [.group .bracket content]

def isSourceBlank (c : Char) : Bool :=
  Text.isBlank c || c.toNat == 0x200E || c.toNat == 0x200F

def openDelimiter? : Char → Option Delimiter
  | '(' => some .paren
  | '[' => some .bracket
  | '\x7b' => some .brace
  | _ => none

def closeDelimiter? : Char → Option Delimiter
  | ')' => some .paren
  | ']' => some .bracket
  | '\x7d' => some .brace
  | _ => none

def scanLifetime (cs : List Char) : Scanned :=
  match scanName cs with
  | some (name, rest) =>
      match rest.head? with
      | some '\'' => none
      | some '#' => if ['r', '#'].isPrefixOf cs then some (name, rest) else none
      | _ => some (name, rest)
  | none => none

def scanLeaf (cs : List Char) : Option (Tree × List Char) :=
  match scanLiteral cs with
  | some (kind, taken, rest) => some (.literal kind (String.ofList taken), rest)
  | none =>
      match cs with
      | '\'' :: more => (scanLifetime more).map fun (name, rest) => (.lifetime (String.ofList name), rest)
      | c :: more =>
          if startsMark cs then some (.mark c (startsMark more), more)
          else if opensQuoted cs then none
          else (scanName cs).map fun (name, rest) => (.word (String.ofList name), rest)
      | [] => none

/-- Reads trees with the enclosing groups on a stack; trees are gathered latest first. Every step
takes a character, so as much fuel as characters is enough. -/
def scanTrees : Nat → List (Delimiter × List Tree) → List Tree → List Char → Option (List Tree)
  | _, [], trees, [] => some trees.reverse
  | _, _ :: _, _, [] => none
  | 0, _, _, _ => none
  | fuel + 1, stack, trees, c :: cs =>
      if isSourceBlank c then scanTrees fuel stack trees cs
      else
        match scanComment (c :: cs) with
        | some (.plain, _, some rest) => scanTrees fuel stack trees rest
        | some (_, _, none) => none
        | some (kind, body, some rest) =>
            if hasBareReturn body then none
            else scanTrees fuel stack ((docTrees (kind matches .innerDoc) body).reverse ++ trees) rest
        | none =>
            match openDelimiter? c, closeDelimiter? c, stack with
            | some d, _, _ => scanTrees fuel ((d, trees) :: stack) [] cs
            | none, some d, (opened, outer) :: stack =>
                if d = opened then scanTrees fuel stack (.group d trees.reverse :: outer) cs else none
            | none, some _, [] => none
            | none, none, _ =>
                match scanLeaf (c :: cs) with
                | some (tree, rest) => scanTrees fuel stack (tree :: trees) rest
                | none => none

def trees? (source : String) : Option (List Tree) :=
  let cs :=
    match source.toList with
    | c :: cs => if c.toNat = 0xFEFF then cs else c :: cs
    | [] => []
  scanTrees cs.length [] [] cs

def spaced (texts : List String) : String :=
  " ".intercalate (texts.filter (!·.isEmpty))

def enclosed (d : Delimiter) (inner : String) : String :=
  match d with
  | .paren => "(" ++ inner ++ ")"
  | .bracket => "[" ++ inner ++ "]"
  | .brace => if inner.isEmpty then "\x7b \x7d" else "\x7b " ++ inner ++ " \x7d"

def operators : List String :=
  ["<<=", ">>=", "...", "..=", "::", "->", "=>", "==", "!=", "<=", ">=", "&&", "||", "+=", "-=",
    "*=", "/=", "%=", "^=", "&=", "|=", "<<", ">>", ".."]

def jointMarks : List Tree → List Char
  | .mark c true :: ts => c :: jointMarks ts
  | .mark c false :: _ => [c]
  | _ => []

mutual

def treesText : Nat → List Tree → String
  | _, [] => ""
  | 0, _ => ""
  | fuel + 1, .mark c joint :: ts =>
      let marks := jointMarks (.mark c joint :: ts)
      match operators.find? fun op => op.toList.isPrefixOf marks with
      | some op => spaced [op, treesText fuel (ts.drop (op.length - 1))]
      | none => spaced [c.toString, treesText fuel ts]
  | fuel + 1, t :: ts => spaced [treeText fuel t, treesText fuel ts]

def treeText : Nat → Tree → String
  | fuel, .group d inner => enclosed d (treesText fuel inner)
  | _, .word text => text
  | _, .lifetime name => "'" ++ name
  | _, .mark c _ => c.toString
  | _, .literal _ text => text

end

mutual

def Tree.size : Tree → Nat
  | .group _ inner => 1 + treesSize inner
  | _ => 1

def treesSize : List Tree → Nat
  | [] => 0
  | t :: ts => t.size + treesSize ts

end

def render (ts : List Tree) : String :=
  treesText (2 * treesSize ts + 1) ts

end Pegsmith.Source
