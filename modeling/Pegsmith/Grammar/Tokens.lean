import Pegsmith.Regex.Reader
import Pegsmith.Types.Catalog

set_option autoImplicit false

namespace Pegsmith

structure TokenRule where
  kind : String
  regex : String
  ignored : Bool := false
  deriving DecidableEq, Repr

structure TokenTable where
  tokenType : HostType
  kinds : List String := []
  rules : List TokenRule := []
  deriving DecidableEq

namespace TokenTable

def isKindName (name : String) : Bool :=
  name != "Self" && name.toList.head?.any Char.isUpper &&
    name.toList.all fun c => c.isAlphanum || c == '_'

def hasKind (t : TokenTable) (kind : String) : Bool :=
  t.kinds.contains kind

def isRegex (regex : String) : Bool :=
  (Regex.parseAnchored? regex).isSome

structure Entry where
  kind : Option String := none
  rule : Option TokenRule := none
  problem : Option (Code × String) := none
  deriving DecidableEq, Repr

def entry (isRegex : String → Bool) (t : Description.Token) : Entry :=
  if !isKindName t.name then
    { problem := some (.invalidType, "`" ++ t.name ++ "` is not a valid token kind name") }
  else
    match t.regex with
    | none => { kind := some t.name }
    | some regex =>
        if isRegex regex then { kind := some t.name, rule := some ⟨t.name, regex, t.ignored⟩ }
        else
          { kind := some t.name,
            problem := some (.invalidRegex,
              "rule of `" ++ t.name ++ "` is left out, invalid regex") }

def firsts {α : Type} [BEq α] (xs : List α) : List α :=
  xs.foldl (fun seen x => if seen.contains x then seen else seen ++ [x]) []

def ofEntries (tokenType : HostType) (entries : List Entry) : TokenTable :=
  { tokenType, kinds := firsts (entries.filterMap (·.kind)), rules := entries.filterMap (·.rule) }

def entryProblems (path : String) (entries : List Entry) : List Diagnostic :=
  entries.zipIdx.filterMap fun (entry, i) =>
    entry.problem.map fun (code, message) =>
      ⟨code, message, ⟨path ++ ", token #" ++ toString (i + 1), none⟩⟩

def tableProblems (path : String) (t : TokenTable) : List Diagnostic :=
  let type := t.tokenType.text
  let missing :=
    if t.kinds.isEmpty then ["`" ++ type ++ "` declares no token kinds"]
    else if t.rules.isEmpty then ["`" ++ type ++ "` has no usable token rules"]
    else []
  let unbacked := t.kinds.filter fun kind => !(t.rules.any (·.kind == kind))
  missing.map (⟨.noTokenRules, ·, ⟨path, none⟩⟩) ++
    unbacked.map fun kind =>
      ⟨.kindWithoutRule, "token kind `" ++ kind ++ "` has no rule and is never produced",
        ⟨path, none⟩⟩

def read (isRegex : String → Bool) (tokenType : HostType) (l : Description.Lexer) :
    TokenTable × List Diagnostic :=
  let entries := l.tokens.map (entry isRegex)
  let table := ofEntries tokenType entries
  let path := "lexer " ++ tokenType.text
  (table, entryProblems path entries ++ tableProblems path table)

def ofLexer (tokenType : HostType) (l : Description.Lexer) : TokenTable × List Diagnostic :=
  read isRegex tokenType l

end TokenTable

end Pegsmith
