import Pegsmith.Description
import Pegsmith.Toml.Document
import Pegsmith.Toml.Schema

set_option autoImplicit false

namespace Pegsmith.Description

open Toml (Schema Fields Value)

def texts : Schema := .list .text

def tokenSchema : Schema :=
  .record (.field "name" true .text (.field "regex" false .text (.field "ignore" false .boolean
    .done)))

def lexerSchema : Schema :=
  .record (.field "token_type" true .text (.field "tokens" false (.list tokenSchema) .done))

def functionSchema : Schema :=
  .record (.field "name" true .text (.field "params" false texts (.field "returns" true .text
    .done)))

def productionSchema : Schema :=
  .record (.field "name" true .text (.field "pattern" true .text (.field "function" false .text
    (.field "construct" false .text .done))))

def parserSchema : Schema :=
  .record (.field "name" true .text (.field "token_type" false .text
    (.field "functions" false (.list functionSchema)
      (.field "productions" false (.list productionSchema) .done))))

def constructorSchema : Schema :=
  .record (.field "path" true .text (.field "params" false texts .done))

def typeSchema : Schema :=
  .record (.field "name" true .text (.field "kind" false (.oneOf ["struct", "enum"])
    (.field "base" false .text (.field "list_of" false .text (.field "map" false .boolean
      (.field "constructors" false (.list constructorSchema) .done))))))

def schema : Schema :=
  .record (.field "lexers" false (.list lexerSchema) (.field "parsers" false (.list parserSchema)
    (.field "types" false (.list typeSchema) .done)))

def readToken (v : Value) : Token :=
  { name := v.textAt "name", regex := v.textAt? "regex", ignored := v.flagAt "ignore" }

def readLexer (v : Value) : Lexer :=
  { tokenType := v.textAt "token_type", tokens := (v.itemsAt "tokens").map readToken }

def readFunction (v : Value) : Function :=
  { name := v.textAt "name", params := v.textsAt "params", returns := v.textAt "returns" }

def readProduction (v : Value) : Production :=
  { name := v.textAt "name", pattern := v.textAt "pattern", function := v.textAt? "function",
    construct := v.textAt? "construct" }

def readParser (v : Value) : Parser :=
  { name := v.textAt "name", tokenType := v.textAt? "token_type",
    functions := (v.itemsAt "functions").map readFunction,
    productions := (v.itemsAt "productions").map readProduction }

def readConstructor (v : Value) : Constructor :=
  { path := v.textAt "path", params := v.textsAt "params" }

def readType (v : Value) : TypeEntry :=
  { name := v.textAt "name",
    kind := if v.textAt? "kind" = some "enum" then .enum else .struct,
    base := v.textAt? "base", listOf := v.textAt? "list_of", map := v.flagAt "map",
    constructors := (v.itemsAt "constructors").map readConstructor }

def ofValue (v : Value) : Description :=
  { lexers := (v.itemsAt "lexers").map readLexer,
    parsers := (v.itemsAt "parsers").map readParser,
    types := (v.itemsAt "types").map readType }

inductive ReadError where
  | malformed
  | schema (e : Toml.SchemaError)
  deriving DecidableEq, Repr

def ReadError.message? : ReadError → Option String
  | .malformed => none
  | .schema e => e.message?

def parse (source : String) : Except ReadError Description :=
  match Toml.parse? source with
  | none => .error .malformed
  | some t =>
      match Toml.conform schema t.value with
      | .ok v => .ok (ofValue v)
      | .error e => .error (.schema e)

end Pegsmith.Description
