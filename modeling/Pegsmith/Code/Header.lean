
set_option autoImplicit false

namespace Pegsmith.Code

/-- The lines of a text whose current line has been read into `line`, last character first. A line
ends at a newline, together with a carriage return before it; the last line need not end. -/
def linesFrom (line : List Char) : List Char → List (List Char)
  | [] => if line.isEmpty then [] else [line.reverse]
  | '\n' :: cs => (if line.head? = some '\r' then line.tail else line).reverse :: linesFrom [] cs
  | c :: cs => linesFrom (c :: line) cs

def textLines (text : String) : List String :=
  (linesFrom [] text.toList).map String.ofList

def commentLine (line : String) : String :=
  if line.isEmpty then "//\n" else "// " ++ line ++ "\n"

def headerComment (header : String) : String :=
  String.join ((textLines header).map commentLine) ++ "\n"

end Pegsmith.Code
