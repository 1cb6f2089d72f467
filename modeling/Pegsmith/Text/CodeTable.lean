
set_option autoImplicit false

namespace Pegsmith.Text

structure CodeRange where
  first : Nat
  last : Nat
  stride : Nat := 1
  target : Nat := 0
  deriving Repr, Inhabited

namespace CodeRange

def contains (r : CodeRange) (n : Nat) : Bool :=
  r.first ≤ n && n ≤ r.last && (n - r.first) % r.stride == 0

def map (r : CodeRange) (n : Nat) : Nat :=
  r.target + (n - r.first)

def sources (r : CodeRange) (n : Nat) : List Nat :=
  let source := r.first + (n - r.target)
  if r.target ≤ n && r.contains source then [source] else []

def hexDigit (c : Char) : Nat :=
  if c.isDigit then c.toNat - 48 else c.toNat - 55

def hex (cs : List Char) : Nat :=
  cs.foldl (fun n c => 16 * n + hexDigit c) 0

def ofChars (cs : List Char) : CodeRange :=
  let points := cs.takeWhile (· != '>')
  let first := points.takeWhile Char.isAlphanum
  let target := hex ((cs.dropWhile (· != '>')).drop 1)
  match points.dropWhile Char.isAlphanum with
  | [] => { first := hex first, last := hex first, target }
  | mark :: last =>
      { first := hex first, last := hex last, stride := if mark == '~' then 2 else 1, target }

end CodeRange

def words (cs : List Char) : List (List Char) :=
  (cs.splitOn ' ').filter (!·.isEmpty)

structure CodeTable where
  ranges : Array CodeRange
  deriving Repr, Inhabited

namespace CodeTable

def ofLines (lines : List String) : CodeTable :=
  ⟨(lines.flatMap fun line => (words line.toList).map CodeRange.ofChars).toArray⟩

def find? (t : CodeTable) (n : Nat) : Option CodeRange :=
  t.ranges.find? (·.contains n)

def contains (t : CodeTable) (n : Nat) : Bool :=
  (t.find? n).isSome

end CodeTable

end Pegsmith.Text
