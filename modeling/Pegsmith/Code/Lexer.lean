import Pegsmith.Code.Matching
import Pegsmith.Grammar.Tokens
import Pegsmith.Text.Quoted

set_option autoImplicit false

namespace Pegsmith.Code

open Emit

def allowance : String :=
  "#[allow(dead_code, unused_variables, unused_mut, unused_labels, unreachable_code, " ++
    "unused_assignments, clippy::all)]"

def lines (texts : List String) : Emit Unit :=
  texts.forM line

def emitKinds (tokenType : String) (kinds : List String) : Emit Unit := do
  line "/// Token kinds produced by [`Lexer`]."
  line allowance
  line "#[derive(Clone, Copy, Debug, PartialEq, Eq, Hash, PartialOrd, Ord)]"
  within s!"pub enum {tokenType}" do
    kinds.forM fun kind => line s!"{kind},"

def regexTable (rules : List TokenRule) : String :=
  ", ".intercalate (rules.map fun rule => Text.quote rule.regex)

def emitTable (tokenType : String) (rules : List TokenRule) : Emit Unit := do
  line s!"pub type Token<'a> = ::packrat_runtime::Token<'a, {tokenType}>;"
  blank
  line ("static TOKEN_RULES: ::packrat_runtime::once_cell::sync::Lazy<::std::vec::Vec<" ++
    "::packrat_runtime::regex::Regex>> = ::packrat_runtime::once_cell::sync::Lazy::new(|| " ++
    "::packrat_runtime::compile_rules(&[" ++ regexTable rules ++ "]));")

def emitAttempt (tokenType : String) (rule : TokenRule) (i : Nat) : Emit Unit :=
  if rule.ignored then
    within s!"if self.scanner.skip_rule(&TOKEN_RULES[{i}])" (line "continue 'restart;")
  else
    let kind := rule.kind
    within (s!"if let Some(token) = self.scanner.match_rule(&TOKEN_RULES[{i}], " ++
      s!"{tokenType}::{kind})") (line "return Ok(Some(token));")

def tokenResult : String :=
  "::core::result::Result<::core::option::Option<Token<'a>>, ::packrat_runtime::Error>"

def emitNext (tokenType : String) (rules : List TokenRule) : Emit Unit := do
  line ("/// Scans the next token, rules are tried in declaration order and ignored matches are " ++
    "skipped.")
  line "#[allow(clippy::should_implement_trait)]"
  within ("pub fn next(&mut self) -> " ++ tokenResult) do
    within "'restart: loop" do
      within "if self.scanner.is_at_end()" (line "return Ok(None);")
      rules.zipIdx.forM fun (rule, i) => emitAttempt tokenType rule i
      line "return Err(self.scanner.error());"

def emitNextIf (tokenType : String) : Emit Unit := do
  line "/// Consumes the next token only if it is of `kind`."
  within (s!"pub fn next_if(&mut self, kind: {tokenType}) -> " ++ tokenResult) do
    line "let start = self.position();"
    within "match self.next()?" do
      line "Some(token) if token.kind == kind => Ok(Some(token)),"
      within "_ =>" (lines ["self.restore(start);", "Ok(None)"])

def emitReader (tokenType : String) (rules : List TokenRule) : Emit Unit := do
  line allowance
  within "pub struct Lexer<'a>" (line "scanner: ::packrat_runtime::Scanner<'a>,")
  blank
  line allowance
  within "impl<'a> Lexer<'a>" do
    within "pub fn new(input: &'a str) -> Lexer<'a>"
      (line "Lexer \x7b scanner: ::packrat_runtime::Scanner::new(input) \x7d")
    blank
    line "/// Byte offset of the next token."
    within "pub fn position(&self) -> usize" (line "self.scanner.offset()")
    blank
    within "pub fn restore(&mut self, position: usize)" (line "self.scanner.seek(position);")
    blank
    within "pub fn is_at_end(&self) -> bool" (line "self.scanner.is_at_end()")
    blank
    emitNext tokenType rules
    blank
    emitNextIf tokenType

def emitCursor : Emit Unit := do
  line allowance
  within "impl ::packrat_runtime::Cursor for Lexer<'_>" do
    within "fn position(&self) -> usize" (line "self.scanner.offset()")
    within "fn restore(&mut self, position: usize)" (line "self.scanner.seek(position);")

def emitLexer (t : TokenTable) : Emit Unit := do
  let tokenType := t.tokenType.text
  emitKinds tokenType t.kinds
  blank
  emitTable tokenType t.rules
  blank
  emitReader tokenType t.rules
  blank
  emitCursor

end Pegsmith.Code
