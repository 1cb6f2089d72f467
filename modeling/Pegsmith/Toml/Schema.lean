import Pegsmith.Toml.Value

set_option autoImplicit false

namespace Pegsmith.Toml

mutual

inductive Schema where
  | text
  | boolean
  | oneOf (names : List String)
  | list (item : Schema)
  | record (fields : Fields)

inductive Fields where
  | done
  | field (name : String) (required : Bool) (schema : Schema) (rest : Fields)

end

inductive SchemaError where
  | unknownField (name : String) (known : List String)
  | missingField (name : String)
  | unknownVariant (name : String) (known : List String)
  | sort
  deriving DecidableEq, Repr

namespace SchemaError

def expected (names : List String) : String :=
  let quoted := names.map fun name => "`" ++ name ++ "`"
  match quoted with
  | [a] => "expected " ++ a
  | [a, b] => "expected " ++ a ++ " or " ++ b
  | _ => "expected one of " ++ ", ".intercalate quoted

def message? : SchemaError → Option String
  | .unknownField name known => some ("unknown field `" ++ name ++ "`, " ++ expected known)
  | .missingField name => some ("missing field `" ++ name ++ "`")
  | .unknownVariant name known => some ("unknown variant `" ++ name ++ "`, " ++ expected known)
  | .sort => none

end SchemaError

namespace Fields

def names : Fields → List String
  | .done => []
  | .field name _ _ rest => name :: rest.names

def required : Fields → List String
  | .done => []
  | .field name required _ rest => if required then name :: rest.required else rest.required

end Fields

def missing (fields : Fields) (present : List String) : Except SchemaError Unit :=
  match fields.required.find? fun name => !present.contains name with
  | some name => .error (.missingField name)
  | none => .ok ()

def dateTimeField : String := "$__toml_private_datetime"

def isEmpty : Value → Bool
  | .array _ items => items.isEmpty
  | .table _ entries => entries.isEmpty
  | _ => false

def variant (known : List String) : Value → Except SchemaError Value
  | .text s => if known.contains s then .ok (.text s) else .error (.unknownVariant s known)
  | .table _ [(name, v)] =>
      if !known.contains name then .error (.unknownVariant name known)
      else if isEmpty v then .ok (.text name)
      else .error .sort
  | _ => .error .sort

mutual

/-- The value in its plain form, in which records are tables and names are texts. The fields of a
record may also be written as an array, in their order. -/
def conform : Schema → Value → Except SchemaError Value
  | .text, .text s => .ok (.text s)
  | .boolean, .boolean b => .ok (.boolean b)
  | .oneOf names, v => variant names v
  | .list item, .array _ items => return .array false (← items.mapM (conform item))
  | .record fields, .table _ entries => do
      let entries ← entries.mapM fun entry => conformEntry fields.names fields entry.1 entry.2
      missing fields (entries.map Prod.fst)
      return .table .inline entries
  | .record fields, .array _ items => return .table .inline (← conformItems fields items)
  | .record fields, .dateTime _ => .error (.unknownField dateTimeField fields.names)
  | _, _ => .error .sort

def conformEntry (known : List String) :
    Fields → String → Value → Except SchemaError (String × Value)
  | .done, key, _ => .error (.unknownField key known)
  | .field name _ schema rest, key, v =>
      if key = name then return (name, ← conform schema v) else conformEntry known rest key v

def conformItems : Fields → List Value → Except SchemaError (List (String × Value))
  | .done, _ => .ok []
  | .field name _ schema rest, v :: vs =>
      return (name, ← conform schema v) :: (← conformItems rest vs)
  | .field _ required _ rest, [] => if required then .error .sort else conformItems rest []

end

namespace Value

def field? (v : Value) (name : String) : Option Value :=
  match v with
  | .table _ entries => entries.lookup name
  | _ => none

def text? : Value → Option String
  | .text s => some s
  | _ => none

def textAt? (v : Value) (name : String) : Option String :=
  (v.field? name).bind text?

def textAt (v : Value) (name : String) : String :=
  (v.textAt? name).getD ""

def flagAt (v : Value) (name : String) : Bool :=
  match v.field? name with
  | some (.boolean b) => b
  | _ => false

def itemsAt (v : Value) (name : String) : List Value :=
  match v.field? name with
  | some (.array _ items) => items
  | _ => []

def textsAt (v : Value) (name : String) : List String :=
  (v.itemsAt name).filterMap text?

end Value

end Pegsmith.Toml
