import Pegsmith.Code.Lexer
import Pegsmith.Grammar.Lowered

set_option autoImplicit false

namespace Pegsmith.Code

open Emit

def stateName (parser : String) : String :=
  parser ++ "Packrat"

def emitState (g : LoweredGrammar) : Emit Unit := do
  let state := stateName g.name
  let logic := g.name
  line allowance
  within s!"struct {state}<'l>" do
    line s!"logic: &'l {logic},"
    g.nonTerminals.forM fun n =>
      let memo := memoField n.name
      let value := n.value.text
      line s!"{memo}: ::packrat_runtime::MemoTable<{value}>,"

def makerCall (a : Lowered.Alternative) (outputs : List String) : String :=
  let args := ", ".intercalate outputs
  let call :=
    match a.target.maker with
    | .function name => "self.logic." ++ escape name ++ "(" ++ args ++ ")"
    | .constructor path => path ++ "(" ++ args ++ ")"
  match a.into with
  | some type => convertText type.text call
  | none => call

def renumbered (body : Emit Unit) : Emit Unit := do
  modify fun e => { e with counts := [] }
  body

def emitAlternative (tokenType : String) (n : Lowered.NonTerminal) (a : Lowered.Alternative) :
    Emit Unit :=
  renumbered do
    let matched ← emit tokenType a.plan
    let memo := memoField n.name
    let value := n.value.text
    let call := makerCall a matched.outputs
    line s!"let value: {value} = {call};"
    line (s!"self.{memo}.insert(start, ::packrat_runtime::Memo::success(" ++
      "lexer.position() - start, ::core::clone::Clone::clone(&value)));")
    line "return Ok(Some(value));"
    release matched.guards

def emitRule (tokenType : String) (n : Lowered.NonTerminal) : Emit Unit := do
  let method := ruleMethod n.name
  let memo := memoField n.name
  let value := n.value.text
  n.alternatives.forM fun a => line ("/// - `" ++ a.text ++ "`")
  within (s!"fn {method}(&mut self, lexer: &mut Lexer<'_>) -> " ++
      s!"::core::result::Result<::core::option::Option<{value}>, ::packrat_runtime::Error>") do
    line "let start = lexer.position();"
    within s!"if let Some(memo) = self.{memo}.get(start)" (line "return Ok(memo.replay(lexer));")
    n.alternatives.forM fun a => within "" do
      emitAlternative tokenType n a
      line "lexer.restore(start);"
    line s!"self.{memo}.insert(start, ::packrat_runtime::Memo::Failure);"
    line "Ok(None)"

def emitEntry (g : LoweredGrammar) (n : Lowered.NonTerminal) : Emit Unit := do
  let state := stateName g.name
  let name := n.name
  let entry := entryMethod name
  let method := ruleMethod name
  let value := n.value.text
  line (s!"/// Parses `{name}` at the current position of `lexer`, input after the match is " ++
    "left unread.")
  within (s!"pub fn {entry}(&self, lexer: &mut Lexer<'_>) -> " ++
      s!"::core::result::Result<{value}, ::packrat_runtime::Error>") do
    line "let start = lexer.position();"
    within s!"let mut packrat = {state}" do
      line "logic: self,"
      g.nonTerminals.forM fun other =>
        let memo := memoField other.name
        line s!"{memo}: ::packrat_runtime::MemoTable::new(),"
    line ";"
    within s!"match packrat.{method}(lexer)?" do
      line "Some(value) => Ok(value),"
      line ("None => Err(::packrat_runtime::Error::NoMatch \x7b non_terminal: " ++
        Text.quote name ++ ", offset: start \x7d),")

def separatedBy {α : Type} (item : α → Emit Unit) : List α → Emit Unit
  | [] => return
  | [x] => item x
  | x :: xs => do
      item x
      blank
      separatedBy item xs

def emitParser (g : LoweredGrammar) : Emit Unit := do
  let state := stateName g.name
  let logic := g.name
  emitState g
  blank
  line allowance
  within s!"impl<'l> {state}<'l>" (separatedBy (emitRule g.tokenType.text) g.nonTerminals)
  blank
  line allowance
  within s!"impl {logic}" (separatedBy (emitEntry g) g.nonTerminals)

def emittedText (body : Emit Unit) : Except Fault String := do
  let ((), e) ← body.run {}
  e.writer.finish

def lexerText (t : TokenTable) : Except Fault String :=
  emittedText (emitLexer t)

def fileText (t : TokenTable) (g : LoweredGrammar) : Except Fault String :=
  emittedText do
    emitLexer t
    blank
    emitParser g

end Pegsmith.Code
