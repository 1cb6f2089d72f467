import Pegsmith.Regex.CharSet

set_option autoImplicit false

namespace Pegsmith

inductive Look where
  | textStart
  | textEnd
  | lineStart
  | lineEnd
  | anyLineStart
  | anyLineEnd
  | wordBoundary (unicode : Bool)
  | noWordBoundary (unicode : Bool)
  | wordStart (unicode : Bool)
  | wordEnd (unicode : Bool)
  | noWordBefore (unicode : Bool)
  | noWordAfter (unicode : Bool)
  deriving DecidableEq, Repr

namespace Look

def isWord (unicode : Bool) (c : Option Char) : Bool :=
  c.any fun c => (if unicode then CharSet.wordChars else CharSet.asciiWordChars).contains c.toNat

def holds (before after : Option Char) : Look → Bool
  | .textStart => before.isNone
  | .textEnd => after.isNone
  | .lineStart => before.all (· == '\n')
  | .lineEnd => after.all (· == '\n')
  | .anyLineStart => before.all fun c => c == '\n' || (c == '\r' && after != some '\n')
  | .anyLineEnd => after.all fun c => c == '\r' || (c == '\n' && before != some '\r')
  | .wordBoundary u => isWord u before != isWord u after
  | .noWordBoundary u => isWord u before == isWord u after
  | .wordStart u => !isWord u before && isWord u after
  | .wordEnd u => isWord u before && !isWord u after
  | .noWordBefore u => !isWord u before
  | .noWordAfter u => !isWord u after

end Look

inductive Regex where
  | empty
  | oneOf (s : CharSet)
  | look (l : Look)
  | seq (a b : Regex)
  | alt (a b : Regex)
  | repeat (min : Nat) (max : Option Nat) (greedy : Bool) (a : Regex)
  deriving Inhabited

namespace Regex

def minLength : Regex → Nat
  | .empty | .look _ => 0
  | .oneOf _ => 1
  | .seq a b => a.minLength + b.minLength
  | .alt a b => min a.minLength b.minLength
  | .repeat n _ _ a => n * a.minLength

def onlyEmpty : Regex → Bool
  | .empty | .look _ => true
  | .oneOf _ => false
  | .seq a b | .alt a b => a.onlyEmpty && b.onlyEmpty
  | .repeat _ max _ a => max == some 0 || a.onlyEmpty

/-- How much room the expression takes as a program, in bytes. Each round of a repetition is written
out, those that can be left out with a place to do so. -/
def room : Regex → Nat
  | .empty | .look _ => instructionRoom
  | .oneOf s => instructionRoom + s.room
  | .seq a b => a.room + b.room
  | .alt a b => a.room + b.room + instructionRoom
  | .repeat n none _ a => Nat.max 1 n * a.room + instructionRoom
  | .repeat n (some max) _ a => n * a.room + (max - n) * (a.room + instructionRoom)
where
  instructionRoom : Nat := 32

/-- At least `min` rounds and at most `max`. What only matches the empty text matches no more in a
second round. -/
def repeated (min : Nat) (max : Option Nat) (greedy : Bool) (a : Regex) : Regex :=
  if a.onlyEmpty then .repeat (min.min 1) (some ((max.getD 1).min 1)) greedy a
  else .repeat min max greedy a

end Regex

end Pegsmith
