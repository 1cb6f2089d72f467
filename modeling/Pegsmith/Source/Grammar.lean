import Pegsmith.Source.ItemReader

set_option autoImplicit false

namespace Pegsmith

namespace Source

def readers : Nat → Readers
  | 0 =>
      { segment := fun _ => failure, binder := failure, type := fun _ => failure,
        expr := fun _ => failure, operand := fun _ => failure,
        operation := fun _ _ _ => failure, statements := failure, early := failure,
        pattern := failure, item := failure }
  | fuel + 1 =>
      { segment := fun inExpr ts => TypeReader.segment (readers fuel) inExpr ts
        binder := fun ts => TypeReader.binder (readers fuel) ts
        type := fun plus ts => TypeReader.type (readers fuel) plus ts
        expr := fun structs ts => ExprReader.expr (readers fuel) structs ts
        operand := fun structs ts => ExprReader.operand (readers fuel) structs ts
        operation := fun form structs base ts =>
          ExprReader.operation (readers fuel) form structs base ts
        statements := fun ts => ExprReader.statements (readers fuel) ts
        early := fun ts => ExprReader.early (readers fuel) ts
        pattern := fun ts => PatternReader.pattern (readers fuel) ts
        item := fun ts => ItemReader.item (readers fuel) ts }

def readersFor (source : String) : Readers :=
  readers (16 * (source.length + 2))

def isFile (source : String) : Bool :=
  (Reader.parse? (ItemReader.file (readersFor source)) source).isSome

def isIdentifier (source : String) : Bool :=
  (Reader.parse? Reader.name source).isSome

end Source

def HostType.parse? (source : String) : Option HostType :=
  Source.Reader.parse? ((Source.readersFor source).type true) source

end Pegsmith
