import Pegsmith.Parsing.Token

set_option autoImplicit false

namespace Pegsmith.Parsing

structure Rule where
  kind : String
  matcher : Matcher
  ignored : Bool := false

abbrev Lexer := List Rule

namespace Lexer

def first? (lexer : Lexer) (cs : List Char) : Option (Rule × List Char) :=
  lexer.findSome? fun rule =>
    let front := rule.matcher.front cs
    if front.isEmpty then none else some (rule, front)

theorem front_of_first? {lexer : Lexer} {cs front : List Char} {rule : Rule}
    (h : lexer.first? cs = some (rule, front)) :
    rule ∈ lexer ∧ front = rule.matcher.front cs ∧ front ≠ [] := by
  obtain ⟨r, hr, h⟩ := List.exists_of_findSome?_eq_some h
  dsimp only at h
  split at h
  · cases h
  · next ne =>
      cases h
      exact ⟨hr, rfl, by simpa using ne⟩

/-- Reads the next token of a text of which `skip` more characters belong to what an ignored rule
has matched. The offset behind what was read comes with the answer. -/
def scan (lexer : Lexer) (skip offset : Nat) :
    List Char → Except ParseError (Option Token) × Nat
  | [] => (.ok none, offset)
  | c :: cs =>
      match skip with
      | k + 1 => scan lexer k (offset + c.utf8Size) cs
      | 0 =>
          match lexer.first? (c :: cs) with
          | none => (.error (.noRule offset (c :: cs)), offset)
          | some (rule, front) =>
              if rule.ignored then scan lexer (front.length - 1) (offset + c.utf8Size) cs
              else (.ok (some ⟨rule.kind, front, offset⟩), offset + Text.byteSize front)

/-- The next token, none at the end. The tape is left behind what was read, on an error at the
place where no rule matches. -/
def next (lexer : Lexer) (t : Tape) : Except ParseError (Option Token) × Tape :=
  let (answer, offset) := lexer.scan 0 t.offset t.remainder
  (answer, { t with offset })

def nextIf (lexer : Lexer) (kind : String) (t : Tape) : Except ParseError (Option Token) × Tape :=
  match lexer.next t with
  | (.error e, t) => (.error e, t)
  | (.ok (some token), u) => if token.kind = kind then (.ok (some token), u) else (.ok none, t)
  | (.ok none, _) => (.ok none, t)

def allWithin (lexer : Lexer) : Nat → Tape → List Token × Option ParseError × Tape
  | 0, t => ([], none, t)
  | n + 1, t =>
      match lexer.next t with
      | (.error e, t) => ([], some e, t)
      | (.ok none, t) => ([], none, t)
      | (.ok (some token), t) =>
          let (tokens, rest) := lexer.allWithin n t
          (token :: tokens, rest)

def all (lexer : Lexer) (t : Tape) : List Token × Option ParseError × Tape :=
  lexer.allWithin (t.remainder.length + 1) t

end Lexer

end Pegsmith.Parsing
