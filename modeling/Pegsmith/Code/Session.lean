import Pegsmith.Code.Writer

set_option autoImplicit false

namespace Pegsmith.Code

inductive Step where
  | line (text : String)
  | blank
  | openBlock (name header : String)
  | close (name : String)
  | push (guards name : String)
  | append (guards inner : String)
  | count (guards : String)
  | release (guards : String)
  | text
  | finish
  deriving DecidableEq, Repr

inductive Answer where
  | done
  | noBlock
  | guards (size : Nat)
  | text (t : String)
  | fault (f : Fault)
  deriving DecidableEq, Repr

structure Session where
  writer : Writer := {}
  blocks : List (String × Block) := []
  guards : List (String × Guards) := []
  deriving DecidableEq, Repr

namespace Session

def takeBlock (s : Session) (name : String) : Option (Block × Session) :=
  (s.blocks.lookup name).map fun b => (b, { s with blocks := s.blocks.filter (·.1 != name) })

def guardsOf (s : Session) (name : String) : Guards :=
  (s.guards.lookup name).getD {}

def dropGuards (s : Session) (name : String) : Session :=
  { s with guards := s.guards.filter (·.1 != name) }

def keepGuards (s : Session) (name : String) (g : Guards) : Session :=
  { s with guards := (name, g) :: s.guards.filter (·.1 != name) }

def step (s : Session) : Step → Answer × Session
  | .line text => (.done, { s with writer := s.writer.line text })
  | .blank => (.done, { s with writer := s.writer.blank })
  | .openBlock name header =>
      let (block, writer) := s.writer.openBlock header
      (.done, { s with writer, blocks := (name, block) :: s.blocks.filter (·.1 != name) })
  | .close name =>
      match s.takeBlock name with
      | none => (.noBlock, s)
      | some (block, s) =>
          match s.writer.close block with
          | .ok writer => (.done, { s with writer })
          | .error fault => (.fault fault, s)
  | .push guards name =>
      match s.takeBlock name with
      | none => (.noBlock, s)
      | some (block, s) => (.done, s.keepGuards guards ((s.guardsOf guards).push block))
  | .append guards inner =>
      let top := s.guardsOf inner
      let s := s.dropGuards inner
      (.done, s.keepGuards guards ((s.guardsOf guards).append top))
  | .count guards => (.guards (s.guardsOf guards).size, s)
  | .release guards =>
      let (writer, fault) := s.writer.release (s.guardsOf guards)
      ((fault.map Answer.fault).getD .done, { s.dropGuards guards with writer })
  | .text => (.text s.writer.text, s)
  | .finish =>
      match s.writer.finish with
      | .ok text => (.text text, { s with writer := {} })
      | .error fault => (.fault fault, { s with writer := {} })

end Session

end Pegsmith.Code
