import Pegsmith.Text.Scan

set_option autoImplicit false

namespace Pegsmith.Toml

open Text (Scan hexValue?)
open Text.Scan

def isBlank (c : Char) : Bool :=
  c == ' ' || c == '\t'

def isText (c : Char) : Bool :=
  c == '\t' || (' ' ≤ c && c != '\x7f')

def skipBlanks : Scan Unit :=
  modify (·.dropWhile isBlank)

def afterNewline? : List Char → Option (List Char)
  | '\n' :: cs => some cs
  | '\r' :: '\n' :: cs => some cs
  | _ => none

def skipNewline : Scan Bool := do
  match afterNewline? (← get) with
  | some rest => set rest; return true
  | none => return false

def skipComment : Scan Unit := do
  if (← peek?) == some '#' then
    let _ ← takeWhile isText

def endLine : Scan Unit := do
  skipBlanks
  skipComment
  if !(← atEnd) then guard (← skipNewline)

def skipLines : Nat → Scan Unit
  | 0 => skipBlanks
  | n + 1 => do
      skipBlanks
      skipComment
      if ← skipNewline then skipLines n

def hexNumber : Nat → Nat → Scan Nat
  | 0, value => return value
  | n + 1, value => do
      match hexValue? (← next) with
      | some d => hexNumber n (16 * value + d)
      | none => failure

def escape : Scan Char := do
  match ← next with
  | 'b' => return '\x08'
  | 't' => return '\t'
  | 'n' => return '\n'
  | 'f' => return '\x0c'
  | 'r' => return '\r'
  | '"' => return '"'
  | '\\' => return '\\'
  | 'u' => charOfCode (← hexNumber 4 0)
  | 'U' => charOfCode (← hexNumber 8 0)
  | _ => failure

def quotedRest (quote : Char) (escapes : Bool) : Nat → Scan (List Char)
  | 0 => failure
  | n + 1 => do
      let c ← next
      if c == quote then return []
      else if escapes && c == '\\' then
        let c ← escape
        return c :: (← quotedRest quote escapes n)
      else
        guard (isText c)
        return c :: (← quotedRest quote escapes n)

def dropLines : List Char → List Char
  | '\r' :: '\n' :: cs => dropLines cs
  | c :: cs => if isBlank c || c == '\n' then dropLines cs else c :: cs
  | [] => []

def afterJoin? (cs : List Char) : Option (List Char) :=
  (afterNewline? (cs.dropWhile isBlank)).map dropLines

/-- The rest of a text of several lines, of at most `n` characters. Up to two quotes in a row belong
to the text, also in front of the three that end it. -/
def linesRest (quote : Char) (escapes : Bool) : Nat → Scan (List Char)
  | 0 => failure
  | n + 1 => do
      let quotes ← takeWhile (· == quote)
      if 3 ≤ quotes.length then
        guard (quotes.length ≤ 5)
        return quotes.drop 3
      else if ← skipNewline then
        return quotes ++ '\n' :: (← linesRest quote escapes n)
      else
        let c ← next
        if escapes && c == '\\' then
          match afterJoin? (← get) with
          | some rest =>
              set rest
              return quotes ++ (← linesRest quote escapes n)
          | none =>
              let c ← escape
              return quotes ++ c :: (← linesRest quote escapes n)
        else
          guard (isText c)
          return quotes ++ c :: (← linesRest quote escapes n)

def quoted (quote : Char) : Scan String := do
  expect quote
  return String.ofList (← quotedRest quote (quote == '"') (← get).length)

def text (quote : Char) : Scan String := do
  if ← skipWord (String.ofList [quote, quote, quote]) then
    let _ ← skipNewline
    return String.ofList (← linesRest quote (quote == '"') (← get).length)
  else quoted quote

def isBareKey (c : Char) : Bool :=
  c.isAlphanum || c == '_' || c == '-'

def keyPart : Scan String := do
  skipBlanks
  let part ←
    match ← peek? with
    | some '"' => quoted '"'
    | some '\'' => quoted '\''
    | _ => do
        let cs ← takeWhile isBareKey
        guard !cs.isEmpty
        pure (String.ofList cs)
  skipBlanks
  return part

def keyRest : Nat → Scan (List String)
  | 0 => return []
  | n + 1 => do
      if ← skipWord "." then
        let part ← keyPart
        return part :: (← keyRest n)
      else return []

def depthLimit : Nat := 80

def key : Scan (List String × String) := do
  let first ← keyPart
  let rest ← keyRest (← get).length
  guard (rest.length + 1 < depthLimit)
  return ((first :: rest).dropLast, rest.getLastD first)

end Pegsmith.Toml
