import Pegsmith.Text.Blank
import Pegsmith.Text.Offset

/-!
Lexemes of a pattern text and the errors of reading one. A name is a maximal run of ASCII letters,
digits and `_` that does not start with a digit; blanks separate lexemes and mean nothing else.

Spans stand for pairs of 32-bit numbers and names for what such spans cut out of the text, but
offsets are not bounded here and a lexeme holds its name. So what is read is exact for texts of
fewer bytes than `Pattern.spanLimit`, in which `Pattern.isPrecise_of_parse` has all spans fit.
-/

set_option autoImplicit false

namespace Pegsmith

structure Span where
  start : Nat
  stop : Nat
  deriving DecidableEq, Repr

namespace Span

def point (offset : Nat) : Span :=
  ⟨offset, offset⟩

def isEmpty (s : Span) : Bool :=
  s.stop ≤ s.start

def text (s : Span) : String :=
  toString s.start ++ ".." ++ toString s.stop

def slice? (s : Span) (source : String) : Option String :=
  (Text.slice? source.toList s.start s.stop).map String.ofList

end Span

namespace Pattern

/-- Spans are pairs of 32-bit numbers. -/
def spanLimit : Nat := 0x100000000

inductive Fault where
  | unexpectedCharacter (c : Char)
  | unexpectedLexeme (text : String)
  | unterminatedGroup
  | unexpectedEnd
  | invalidName (name : String)
  | decodedNonTerminal (name : String)
  | trailingInput (rest : String)
  deriving DecidableEq, Repr

def Fault.message : Fault → String
  | .unexpectedCharacter c => "unexpected character `" ++ c.toString ++ "`"
  | .unexpectedLexeme text => "unexpected `" ++ text ++ "`"
  | .unterminatedGroup => "unterminated group"
  | .unexpectedEnd => "expected a terminal or non-terminal, found end of pattern"
  | .invalidName name => "`" ++ name ++ "` is neither a Terminal nor a nonTerminal name"
  | .decodedNonTerminal name => "`$` must be followed by a terminal, found `" ++ name ++ "`"
  | .trailingInput rest => "trailing input `" ++ rest ++ "`"

structure Error where
  fault : Fault
  span : Span
  deriving DecidableEq, Repr

inductive Mark where
  | openParen
  | closeParen
  | bar
  | star
  | plus
  | question
  | discard
  | decode
  deriving DecidableEq, Repr

def Mark.char : Mark → Char
  | .openParen => '('
  | .closeParen => ')'
  | .bar => '|'
  | .star => '*'
  | .plus => '+'
  | .question => '?'
  | .discard => '@'
  | .decode => '$'

def Mark.ofChar? : Char → Option Mark
  | '(' => some .openParen
  | ')' => some .closeParen
  | '|' => some .bar
  | '*' => some .star
  | '+' => some .plus
  | '?' => some .question
  | '@' => some .discard
  | '$' => some .decode
  | _ => none

@[simp] theorem Mark.ofChar?_char (m : Mark) : Mark.ofChar? m.char = some m := by
  cases m <;> rfl

inductive Symbol where
  | mark (m : Mark)
  | name (cs : List Char)
  deriving DecidableEq, Repr

def Symbol.chars : Symbol → List Char
  | .mark m => [m.char]
  | .name cs => cs

structure Lexeme where
  symbol : Symbol
  start : Nat
  deriving DecidableEq, Repr

def Lexeme.text (l : Lexeme) : String :=
  String.ofList l.symbol.chars

def Lexeme.span (l : Lexeme) : Span :=
  ⟨l.start, l.start + Text.byteSize l.symbol.chars⟩

def startsName (c : Char) : Bool :=
  c.isAlpha || c == '_'

def continuesName (c : Char) : Bool :=
  c.isAlphanum || c == '_'

def lex (start : Nat) : List Char → Except Error (List Lexeme)
  | [] => .ok []
  | c :: cs =>
      let next := start + c.utf8Size
      if Text.isBlank c then lex next cs
      else if startsName c then
        let more := cs.takeWhile continuesName
        (lex (next + Text.byteSize more) (cs.dropWhile continuesName)).map
          (⟨.name (c :: more), start⟩ :: ·)
      else
        match Mark.ofChar? c with
        | some m => (lex next cs).map (⟨.mark m, start⟩ :: ·)
        | none => .error ⟨.unexpectedCharacter c, ⟨start, next⟩⟩
termination_by cs => cs.length
decreasing_by
  · simp
  · simpa [Nat.lt_succ_iff] using (List.dropWhile_sublist continuesName).length_le
  · simp

end Pattern

end Pegsmith
