import Pegsmith.Text.Letters

set_option autoImplicit false

namespace Pegsmith.Code

def startsWord (before c : Char) (after : Option Char) : Bool :=
  Text.isUpper c &&
    (Text.isLower before || before.isDigit || (Text.isUpper before && after.any Text.isLower))

def snakeFrom (before : Char) : List Char → List Char
  | [] => []
  | c :: cs =>
      (if startsWord before c cs.head? then ['_'] else []) ++ Text.toLower c ++ snakeFrom c cs

def snakeChars : List Char → List Char
  | [] => []
  | c :: cs => Text.toLower c ++ snakeFrom c cs

/-- Runs of capitals stay one word: `parseHTTPHeader` becomes `parse_http_header`. -/
def snakeCase (name : String) : String :=
  String.ofList (snakeChars name.toList)

def reserved : List String :=
  ["abstract", "as", "async", "await", "become", "box", "break", "const", "continue", "do",
    "dyn", "else", "enum", "extern", "false", "final", "fn", "for", "gen", "if", "impl", "in",
    "let", "loop", "macro", "match", "mod", "move", "mut", "override", "priv", "pub", "ref",
    "return", "static", "struct", "trait", "true", "try", "type", "typeof", "unsafe", "unsized",
    "use", "virtual", "where", "while", "yield"]

def unraw : List String := ["self", "super", "crate", "_"]

def escape (name : String) : String :=
  if unraw.contains name then name ++ "_"
  else if reserved.contains name then "r#" ++ name
  else name

def ruleMethod (nonTerminal : String) : String :=
  escape (snakeCase nonTerminal)

def entryMethod (nonTerminal : String) : String :=
  "parse_" ++ snakeCase nonTerminal

def memoField (nonTerminal : String) : String :=
  snakeCase nonTerminal ++ "_memo"

end Pegsmith.Code
