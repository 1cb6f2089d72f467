import Pegsmith.Pattern.Basic
import Pegsmith.Pattern.Lexeme

set_option autoImplicit false

namespace Pegsmith.Pattern

structure Frame where
  branches : List Pattern := []
  items : List Pattern := []
  deriving DecidableEq, Repr

def Frame.branch (f : Frame) (item : Pattern) : Pattern :=
  f.items.foldl (fun rest p => .sequence p rest) item

def Frame.close (f : Frame) (item : Pattern) : Pattern :=
  f.branches.foldl (fun rest p => .choice p rest) (f.branch item)

structure Enclosing where
  frame : Frame
  start : Nat
  discarded : Bool
  deriving DecidableEq, Repr

inductive Phase where
  | part (discarded : Bool)
  | decoded (discarded : Bool)
  | item (p : Pattern) (repeatable : Bool)
  deriving DecidableEq, Repr

structure State where
  enclosing : List Enclosing := []
  frame : Frame := {}
  phase : Phase := .part false
  deriving DecidableEq, Repr

inductive NameClass where
  | terminal
  | nonTerminal
  | neither
  deriving DecidableEq, Repr

def NameClass.of : List Char → NameClass
  | [] => .neither
  | c :: _ => if c.isUpper then .terminal else if c.isLower then .nonTerminal else .neither

def unexpected (l : Lexeme) : Error :=
  ⟨.unexpectedLexeme l.text, l.span⟩

namespace State

def accept (s : State) (p : Pattern) (discarded : Bool) : State :=
  { s with phase := .item (if discarded then .discard p else p) true }

def beginPart (s : State) (discarded : Bool) (l : Lexeme) : Except Error State :=
  match l.symbol with
  | .mark .openParen =>
      .ok { enclosing := ⟨s.frame, l.start, discarded⟩ :: s.enclosing }
  | .mark .decode => .ok { s with phase := .decoded discarded }
  | .mark .discard =>
      if discarded then .error (unexpected l) else .ok { s with phase := .part true }
  | .mark _ => .error (unexpected l)
  | .name cs =>
      match NameClass.of cs with
      | .terminal => .ok (s.accept (.terminal l.text false) discarded)
      | .nonTerminal => .ok (s.accept (.nonTerminal l.text) discarded)
      | .neither => .error ⟨.invalidName l.text, l.span⟩

def decodeName (s : State) (discarded : Bool) (l : Lexeme) : Except Error State :=
  match l.symbol with
  | .mark _ => .error (unexpected l)
  | .name cs =>
      match NameClass.of cs with
      | .terminal => .ok (s.accept (.terminal l.text true) discarded)
      | .nonTerminal => .error ⟨.decodedNonTerminal l.text, l.span⟩
      | .neither => .error ⟨.invalidName l.text, l.span⟩

def refuse (source : List Char) (s : State) (l : Lexeme) : Error :=
  if s.enclosing.isEmpty then
    ⟨.trailingInput (String.ofList ((Text.dropBytes? l.start source).getD [])),
      ⟨l.start, Text.byteSize source⟩⟩
  else unexpected l

def afterItem (source : List Char) (s : State) (p : Pattern) (repeatable : Bool) (l : Lexeme) :
    Except Error State :=
  let repeated (q : Pattern) : Except Error State :=
    if repeatable then .ok { s with phase := .item q false } else .error (s.refuse source l)
  match l.symbol with
  | .mark .star => repeated (.zeroOrMore p)
  | .mark .plus => repeated (.oneOrMore p)
  | .mark .question => repeated (.optional p)
  | .mark .bar =>
      .ok { s with frame := { branches := s.frame.branch p :: s.frame.branches }, phase := .part false }
  | .mark .closeParen =>
      match s.enclosing with
      | [] => .error (s.refuse source l)
      | e :: outer =>
          .ok (accept { enclosing := outer, frame := e.frame } (.group (s.frame.close p)) e.discarded)
  | _ => beginPart { s with frame := { s.frame with items := p :: s.frame.items } } false l

def step (source : List Char) (s : State) (l : Lexeme) : Except Error State :=
  match s.phase with
  | .part discarded => s.beginPart discarded l
  | .decoded discarded => s.decodeName discarded l
  | .item p repeatable => s.afterItem source p repeatable l

def finish (source : List Char) (s : State) : Except Error Pattern :=
  match s.phase, s.enclosing with
  | .item p _, [] => .ok (s.frame.close p)
  | .item _ _, e :: _ => .error ⟨.unterminatedGroup, ⟨e.start, e.start + 1⟩⟩
  | .part _, _ | .decoded _, _ => .error ⟨.unexpectedEnd, .point (Text.byteSize source)⟩

end State

def parseChars (source : List Char) : Except Error Pattern := do
  let s ← (← lex 0 source).foldlM (State.step source) {}
  s.finish source

def parse (source : String) : Except Error Pattern :=
  parseChars source.toList

end Pegsmith.Pattern
