import Pegsmith.Pattern.Lexeme

set_option autoImplicit false

namespace Pegsmith

inductive Severity where
  | warning
  | error
  deriving DecidableEq, Repr

def Severity.text : Severity → String
  | .warning => "warning"
  | .error => "error"

inductive Code where
  | noTokenType
  | tokenTypeNotEnum
  | noTokenRules
  | kindWithoutRule
  | invalidRegex
  | malformedPattern
  | shapeMismatch
  | noFittingConstructor
  | unknownTerminal
  | unknownNonTerminal
  | noCommonType
  | unresolvedTarget
  | leftRecursion
  | malformedOutput
  | invalidType
  deriving DecidableEq, Repr

namespace Code

def number : Code → Nat
  | .noTokenType => 1
  | .tokenTypeNotEnum => 2
  | .noTokenRules => 3
  | .kindWithoutRule => 4
  | .invalidRegex => 5
  | .malformedPattern => 6
  | .shapeMismatch => 7
  | .noFittingConstructor => 8
  | .unknownTerminal => 9
  | .unknownNonTerminal => 10
  | .noCommonType => 11
  | .unresolvedTarget => 12
  | .leftRecursion => 13
  | .malformedOutput => 14
  | .invalidType => 15

def severity : Code → Severity
  | .kindWithoutRule | .invalidRegex | .leftRecursion => .warning
  | _ => .error

def title : Code → String
  | .noTokenType => "Missing grammar association"
  | .tokenTypeNotEnum => "Token type is not an enum"
  | .noTokenRules => "Token type has no token rules"
  | .kindWithoutRule => "Token kind has no rule"
  | .invalidRegex => "Invalid token regex"
  | .malformedPattern => "Malformed pattern"
  | .shapeMismatch => "Shape mismatch"
  | .noFittingConstructor => "No matching constructor"
  | .unknownTerminal => "Unknown terminal"
  | .unknownNonTerminal => "Unknown non-terminal"
  | .noCommonType => "No common value type"
  | .unresolvedTarget => "Unresolved construction target"
  | .leftRecursion => "Left recursion"
  | .malformedOutput => "Generated code does not parse"
  | .invalidType => "Invalid type"

def text (c : Code) : String :=
  "PACKRAT" ++ String.ofList ((Nat.toDigits 10 (1000 + c.number)).drop 1)

theorem number_injective {a b : Code} (h : a.number = b.number) : a = b := by
  cases a <;> cases b <;> first | rfl | cases h

end Code

structure Location where
  path : String
  span : Option Span := none
  deriving DecidableEq, Repr

def Location.text (l : Location) : String :=
  match l.span with
  | some span => l.path ++ " at " ++ span.text
  | none => l.path

structure Diagnostic where
  code : Code
  message : String
  location : Location
  deriving DecidableEq, Repr

namespace Diagnostic

def severity (d : Diagnostic) : Severity :=
  d.code.severity

def isError (d : Diagnostic) : Bool :=
  d.severity == .error

def text (d : Diagnostic) : String :=
  d.severity.text ++ "[" ++ d.code.text ++ "]: " ++ d.message ++ "\n  --> " ++ d.location.text

end Diagnostic

def hasErrors (ds : List Diagnostic) : Bool :=
  ds.any Diagnostic.isError

@[simp] theorem hasErrors_append (xs ys : List Diagnostic) :
    hasErrors (xs ++ ys) = (hasErrors xs || hasErrors ys) := by
  simp [hasErrors]

end Pegsmith
