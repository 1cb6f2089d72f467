import Pegsmith.Fault

set_option autoImplicit false

namespace Pegsmith.Code

structure Line where
  indent : Nat
  text : String
  deriving DecidableEq, Repr

def indentation : Nat → String
  | 0 => ""
  | n + 1 => "    " ++ indentation n

def Line.render (l : Line) : String :=
  indentation l.indent ++ l.text ++ "\n"

structure Writer where
  lines : List Line := []
  depth : Nat := 0
  deriving DecidableEq, Repr, Inhabited

/-- An open block, known by the depth of its inside. -/
structure Block where
  depth : Nat
  deriving DecidableEq, Repr

structure Guards where
  blocks : List Block := []
  deriving DecidableEq, Repr

namespace Guards

def push (g : Guards) (b : Block) : Guards :=
  ⟨b :: g.blocks⟩

def append (g inner : Guards) : Guards :=
  ⟨inner.blocks ++ g.blocks⟩

def size (g : Guards) : Nat :=
  g.blocks.length

@[simp] theorem size_push (g : Guards) (b : Block) : (g.push b).size = g.size + 1 := rfl

@[simp] theorem size_append (g inner : Guards) : (g.append inner).size = inner.size + g.size := by
  simp [size, append]

end Guards

namespace Writer

def line (w : Writer) (text : String) : Writer :=
  { w with lines := ⟨w.depth, text⟩ :: w.lines }

def blank (w : Writer) : Writer :=
  { w with lines := ⟨0, ""⟩ :: w.lines }

def openLine (header : String) : String :=
  if header.isEmpty then "\x7b" else header ++ " \x7b"

def closeLine : String := "\x7d"

def openBlock (w : Writer) (header : String) : Block × Writer :=
  let inside := w.depth + 1
  (⟨inside⟩, { w.line (openLine header) with depth := inside })

def close (w : Writer) (b : Block) : Except Fault Writer :=
  if b.depth = w.depth then .ok (line { w with depth := w.depth - 1 } closeLine)
  else .error .blockOrder

def closeAll (w : Writer) : List Block → Writer × Option Fault
  | [] => (w, none)
  | b :: bs =>
      match w.close b with
      | .ok w => w.closeAll bs
      | .error fault => (w, some fault)

/-- Gives back the guards. Blocks closed before a fault stay closed. -/
def release (w : Writer) (g : Guards) : Writer × Option Fault :=
  w.closeAll g.blocks

def text (w : Writer) : String :=
  w.lines.foldl (fun rest l => l.render ++ rest) ""

def finish (w : Writer) : Except Fault String :=
  if w.depth = 0 then .ok w.text else .error .unclosedBlocks

end Writer

end Pegsmith.Code
