import Pegsmith.Code.Header
import Pegsmith.Code.Parser
import Pegsmith.Grammar.Recursion

/-!
Generating code from a description: a file for each parser. A parser with errors gets none and
stops no other; warnings stop nothing. One that has a type read without end stops the whole run.
-/

set_option autoImplicit false

namespace Pegsmith

structure Generation.Options where
  format : Bool := true
  header : Option String := none
  deriving DecidableEq, Repr

def Generation.Options.headerText (options : Generation.Options) : String :=
  (options.header.map Code.headerComment).getD ""

structure GeneratedParser where
  name : String
  fileName : String
  source : String
  deriving DecidableEq, Repr

inductive Notice where
  | sharedTokenType (tokenType : String)
  | generated (fileName : String)
  deriving DecidableEq, Repr

structure Generation where
  parsers : List GeneratedParser := []
  diagnostics : List Diagnostic := []
  notices : List Notice := []
  deriving DecidableEq, Repr

namespace Generation

abbrev Lexers := List (HostType × Option TokenTable)

/-- Reads the lexers of a description. A second lexer of a token type is not looked at; one of
which the token type is no type has been reported as a type. -/
def addLexer (acc : Lexers × List Diagnostic × List Notice) (l : Description.Lexer) :
    Lexers × List Diagnostic × List Notice :=
  let (lexers, ds, notices) := acc
  match HostType.parse? l.tokenType with
  | none => acc
  | some t =>
      if (lexers.lookup t).isSome then (lexers, ds, notices ++ [.sharedTokenType t.text])
      else
        let (table, problems) := TokenTable.ofLexer t l
        (lexers ++ [(t, if hasErrors problems then none else some table)], ds ++ problems, notices)

def readLexers (ls : List Description.Lexer) : Lexers × List Diagnostic × List Notice :=
  ls.foldl addLexer ([], [], [])

/-- The table of the token type of a parser. No table and no problem means that the lexer has
errors, which have been reported. -/
def tableFor (catalog : Catalog) (lexers : Lexers) (p : Description.Parser) :
    Except (Option Diagnostic) TokenTable :=
  let problem (code : Code) (message : String) : Except (Option Diagnostic) TokenTable :=
    .error (some ⟨code, message, ⟨"parser " ++ p.name, none⟩⟩)
  if !Source.isIdentifier p.name then
    problem .invalidType ("`" ++ p.name ++ "` is not a valid logic type name")
  else
    match p.tokenType with
    | none => problem .noTokenType ("`" ++ p.name ++ "` is not associated with a token type")
    | some src =>
        match HostType.parse? src with
        | none => problem .invalidType ("`" ++ src ++ "` is not a valid type")
        | some t =>
            if t.ident?.isNone || !catalog.isEnum t then
              problem .tokenTypeNotEnum
                ("token type `" ++ t.text ++ "` of `" ++ p.name ++ "` is not an enum")
            else
              match lexers.lookup t with
              | none =>
                  problem .noTokenRules
                    ("no lexer declares the token kinds of `" ++ t.text ++ "`")
              | some none => .error none
              | some (some table) => .ok table

def lowered (catalog : Catalog) (table : TokenTable) (p : Description.Parser) :
    Except Fault (Option LoweredGrammar × List Diagnostic) := do
  let (g, problems) := Grammar.ofParser p table catalog.types
  let problems := problems ++ g.recursionProblems
  if hasErrors problems then return (none, problems)
  else
    let (l, more) ← g.lower catalog.types
    return (if hasErrors more then none else some l, problems ++ more)

/-- The file of a parser. What was emitted has to be a source file; then it is laid out, if that is
asked for, and the header is put above it. -/
def file (layOut : String → String) (options : Options) (table : TokenTable) (g : LoweredGrammar) :
    Except Fault (Except Diagnostic GeneratedParser) := do
  let source ← Code.fileText table g
  if !Source.isFile source then
    return .error ⟨.malformedOutput, "generated code for `" ++ g.name ++ "` does not parse",
      ⟨"parser " ++ g.name, none⟩⟩
  else
    return .ok
      { name := g.name, fileName := Code.snakeCase g.name ++ ".rs",
        source := options.headerText ++ if options.format then layOut source else source }

def ofParser (layOut : String → String) (options : Options) (catalog : Catalog) (lexers : Lexers)
    (p : Description.Parser) : Except Fault (Option GeneratedParser × List Diagnostic) :=
  match tableFor catalog lexers p with
  | .error problem => .ok (none, problem.toList)
  | .ok table => do
      match ← lowered catalog table p with
      | (none, problems) => return (none, problems)
      | (some g, problems) =>
          match ← file layOut options table g with
          | .error d => return (none, problems ++ [d])
          | .ok generated => return (some generated, problems)

def ofDescription (layOut : String → String) (options : Options) (d : Description) :
    Except Fault Generation := do
  let (catalog, typeProblems) := Catalog.ofDescription d
  let (lexers, lexerProblems, notices) := readLexers d.lexers
  let results ← d.parsers.mapM (ofParser layOut options catalog lexers)
  let parsers := results.filterMap Prod.fst
  return { parsers, diagnostics := typeProblems ++ lexerProblems ++ results.flatMap Prod.snd,
           notices := notices ++ parsers.map fun p => .generated p.fileName }

end Generation

end Pegsmith
