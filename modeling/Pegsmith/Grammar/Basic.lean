import Pegsmith.Grammar.Tokens
import Pegsmith.Pattern.Parser
import Pegsmith.Types.Demand

set_option autoImplicit false

namespace Pegsmith

inductive Maker where
  | function (name : String)
  | constructor (path : String)
  deriving DecidableEq, Repr

def Maker.name : Maker → String
  | .function name => name
  | .constructor path => path

structure Target where
  maker : Maker
  params : List HostType
  returns : HostType
  deriving DecidableEq

inductive Goal where
  | function (t : Target)
  | construct (type : HostType)
  deriving DecidableEq

def Goal.returns : Goal → HostType
  | .function t => t.returns
  | .construct type => type

structure Alternative where
  location : Location
  text : String
  pattern : Pattern
  goal : Goal
  deriving DecidableEq

structure NonTerminal where
  name : String
  location : Location
  alternatives : List Alternative := []
  deriving DecidableEq

structure Grammar where
  name : String
  tokenType : HostType
  nonTerminals : List NonTerminal := []
  values : List (String × HostType) := []

namespace Grammar

def find? (g : Grammar) (name : String) : Option Nat :=
  g.nonTerminals.findIdx? (·.name == name)

def value? (g : Grammar) (name : String) : Option HostType :=
  g.values.lookup name

def has (g : Grammar) (name : String) : Bool :=
  g.nonTerminals.any (·.name == name)

def isNonTerminalName (name : String) : Bool :=
  name.toList.head?.any Char.isLower && name.toList.all fun c => c.isAlphanum || c == '_'

/-- A function of the logic type, or what is wrong with its declaration. Its parameters are read up
to the first one that is no type, and its result is read in any case. -/
def readFunction (parser : String) (f : Description.Function) :
    Except (List Diagnostic) (String × Target) :=
  let path := parser ++ "::" ++ f.name
  if !Source.isIdentifier f.name then
    .error [⟨.unresolvedTarget, "`" ++ f.name ++ "` is not a valid function name", ⟨path, none⟩⟩]
  else
    match f.params.mapM Catalog.readType, Catalog.readType f.returns with
    | .ok params, .ok returns => .ok (f.name, ⟨.function f.name, params, returns⟩)
    | .error src, .ok _ => .error [Catalog.invalidType path src]
    | .ok _, .error src => .error [Catalog.invalidType path src]
    | .error src, .error src' =>
        .error [Catalog.invalidType path src, Catalog.invalidType path src']

def problems {α β : Type} (results : List (Except (List β) α)) : List β :=
  results.flatMap fun
    | .ok _ => []
    | .error ds => ds

def successes {α β : Type} (results : List (Except β α)) : List α :=
  results.filterMap Except.toOption

/-- What a production asks for. Functions declared later hide earlier ones of the same name. -/
def readGoal (parser : String) (functions : List (String × Target)) (location : Location)
    (p : Description.Production) : Except Diagnostic Goal :=
  let unresolved (message : String) : Except Diagnostic Goal :=
    .error ⟨.unresolvedTarget, message, location⟩
  match p.function, p.construct with
  | some function, none =>
      match functions.reverse.lookup function with
      | some target => .ok (.function target)
      | none => unresolved ("`" ++ parser ++ "` declares no function `" ++ function ++ "`")
  | none, some type =>
      match Catalog.readType type with
      | .ok t => .ok (.construct t)
      | .error src => .error (Catalog.invalidType location.path src)
  | some _, some _ => unresolved "production names both a function and a type to construct"
  | none, none =>
      unresolved ("production `" ++ p.name ++ "` has no function or type to construct")

def readProduction (parser : String) (functions : List (String × Target)) (location : Location)
    (p : Description.Production) : Except Diagnostic Alternative :=
  if !isNonTerminalName p.name then
    .error ⟨.malformedPattern, "`" ++ p.name ++ "` is not a non-terminal name", location⟩
  else
    match Pattern.parse p.pattern with
    | .error e =>
        .error ⟨.malformedPattern,
          "malformed pattern `" ++ p.pattern ++ "`: " ++ e.fault.message,
          { location with span := some e.span }⟩
    | .ok pattern => do
        return ⟨location, p.pattern, pattern, ← readGoal parser functions location p⟩

def numbered (ps : List Description.Production) : List (Description.Production × Nat) :=
  ps.zipIdx.map fun (p, i) => (p, (ps.take (i + 1)).countP (·.name == p.name))

def productionLocation (parser : String) (p : Description.Production × Nat) : Location :=
  ⟨parser ++ "." ++ p.1.name ++ "#" ++ toString p.2, none⟩

def readProductions (parser : String) (functions : List (String × Target))
    (ps : List Description.Production) : List (Except (List Diagnostic) (String × Alternative)) :=
  (numbered ps).map fun p =>
    match readProduction parser functions (productionLocation parser p) p.1 with
    | .ok a => .ok (p.1.name, a)
    | .error d => .error [d]

/-- The alternatives by non-terminal. A non-terminal is there even if all its productions fail. -/
def group (parser : String) (ps : List Description.Production)
    (alternatives : List (String × Alternative)) : List NonTerminal :=
  let names := TokenTable.firsts ((ps.map (·.name)).filter isNonTerminalName)
  names.map fun name =>
    { name, location := ⟨parser ++ "." ++ name, none⟩,
      alternatives := (alternatives.filter (·.1 == name)).map Prod.snd }

def leafProblem (g : Grammar) (tokens : TokenTable) (location : Location) :
    Pattern.Leaf → Option Diagnostic
  | .terminal kind =>
      if tokens.hasKind kind then none
      else
        some ⟨.unknownTerminal,
          "`" ++ g.tokenType.text ++ "` has no token kind `" ++ kind ++ "`", location⟩
  | .nonTerminal name =>
      if g.has name then none
      else
        some ⟨.unknownNonTerminal, "`" ++ g.name ++ "` has no non-terminal `" ++ name ++ "`",
          location⟩

def referenceProblems (g : Grammar) (tokens : TokenTable) : List Diagnostic :=
  g.nonTerminals.flatMap fun n => n.alternatives.flatMap fun a =>
    a.pattern.leaves.filterMap (g.leafProblem tokens a.location)

def readValue (types : TypeSystem) (n : NonTerminal) :
    Except (List Diagnostic) (Option (String × HostType)) :=
  match types.common (n.alternatives.map (·.goal.returns)) with
  | .ok t => .ok (t.map (n.name, ·))
  | .error (a, b) =>
      .error [⟨.noCommonType,
        "alternatives of `" ++ n.name ++ "` produce unrelated types `" ++ a.text ++ "` and `" ++
          b.text ++ "`", n.location⟩]

def ofParser (p : Description.Parser) (tokens : TokenTable) (types : TypeSystem) :
    Grammar × List Diagnostic :=
  let functions := p.functions.map (readFunction p.name)
  let alternatives := readProductions p.name (successes functions) p.productions
  let nonTerminals := group p.name p.productions (successes alternatives)
  let values := nonTerminals.map (readValue types)
  let g : Grammar :=
    { name := p.name, tokenType := tokens.tokenType, nonTerminals,
      values := (successes values).filterMap id }
  (g, problems functions ++ problems alternatives ++ g.referenceProblems tokens ++ problems values)

end Grammar

end Pegsmith
