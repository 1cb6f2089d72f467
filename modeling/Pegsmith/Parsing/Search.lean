import Pegsmith.Parsing.Token

set_option autoImplicit false

namespace Pegsmith.Parsing

/-- Where a text has its first match, as the offsets of both ends. -/
abbrev Search := List Char → Option (Nat × Nat)

def Matcher.search (m : Matcher) : Search := fun cs =>
  (m cs).map fun n => (0, Text.byteSize (cs.take n))

def Search.size? (search : Search) (cs : List Char) : Option Nat :=
  match search cs with
  | none => none
  | some (start, stop) => if start ≠ 0 ∨ start = stop then none else some stop

namespace Tape

inductive Step where
  | token (rule : Search) (kind : String)
  | pass (rule : Search)
  | seek (offset : Nat)
  | restore (offset : Nat)
  | skip (length : Nat)
  | atEnd
  | remainder
  | text
  | error

inductive Answer where
  | done
  | token (token? : Option Token)
  | passed (some : Bool)
  | atEnd (holds : Bool)
  | text (cs : List Char)
  | error (e : ParseError)
  | fault (f : Fault)
  | badCut
  deriving DecidableEq, Repr

def rest? (t : Tape) : Option (List Char) :=
  Text.dropBytes? t.offset t.text

def behind (t : Tape) (rule : Search) : Except Answer (Option Nat) :=
  match t.rest? with
  | none => .error .badCut
  | some cs =>
      match rule.size? cs with
      | none => .ok none
      | some size => ((addOffset t.offset size).map some).mapError .fault

def moved (t : Tape) : Except Fault Tape → Answer × Tape
  | .ok u => (.done, u)
  | .error fault => (.fault fault, t)

def step (t : Tape) : Step → Answer × Tape
  | .token rule kind =>
      match t.behind rule with
      | .error answer => (answer, t)
      | .ok none => (.token none, t)
      | .ok (some stop) =>
          -- The text is cut when the tape has moved already.
          match Text.slice? t.text t.offset stop with
          | none => (.badCut, { t with offset := stop })
          | some text => (.token (some ⟨kind, text, t.offset⟩), { t with offset := stop })
  | .pass rule =>
      match t.behind rule with
      | .error answer => (answer, t)
      | .ok none => (.passed false, t)
      | .ok (some stop) => (.passed true, { t with offset := stop })
  | .seek offset | .restore offset => t.moved (t.seek offset)
  | .skip length => t.moved (t.skip length)
  | .atEnd => (.atEnd t.atEnd, t)
  | .remainder => (t.rest?.elim .badCut .text, t)
  | .text => (.text t.text, t)
  | .error => (t.rest?.elim .badCut fun cs => .error (.noRule t.offset cs), t)

end Tape

end Pegsmith.Parsing
