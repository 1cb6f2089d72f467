import Pegsmith.Parsing.Tape
import Pegsmith.Regex.Program
import Pegsmith.Regex.Reader

set_option autoImplicit false

namespace Pegsmith.Parsing

def compileRule (regex : String) : Except Fault Matcher :=
  match Regex.parseAnchored? regex with
  | some r => .ok (Regex.machine r).matchLength?
  | none => .error (.invalidRule regex)

def compileRules (regexes : List String) : Except Fault (List Matcher) :=
  regexes.mapM compileRule

end Pegsmith.Parsing
