import Pegsmith.Sample.Items

set_option autoImplicit false

namespace Pegsmith.Sample.Levels

open Parsing

def levelName (i : Nat) : String :=
  "level" ++ toString i

def deepest : Nat := 32

def pass : Build Nat UInt32
  | [.own n], passes => some (.ok n, passes + 1)
  | _, _ => none

def above (i : Nat) : List (Parsing.Alternative Nat UInt32) :=
  ["Comma", "Bang"].map fun kind => ⟨.sequence [read (levelName i), skip kind], pass⟩

def levels : List (String × List (Parsing.Alternative Nat UInt32)) :=
  (List.range (deepest - 1)).map fun i => (levelName (i + 1), above (i + 2))

def table : List (String × List (Parsing.Alternative Nat UInt32)) :=
  ("start", above 1 ++ [⟨read "number", pass⟩]) :: levels ++
    [(levelName deepest, [⟨.sequence [skip "Bang", read "number"], pass⟩]),
      ("number", [⟨.token "Number" .token, value fun
        | [.token t] => some (word t.text)
        | _ => none⟩])]

def rules : Rules Nat UInt32 :=
  { lexer := Items.lexer, names := table.map Prod.fst,
    alternatives := fun name => (table.lookup name).getD [] }

end Pegsmith.Sample.Levels
