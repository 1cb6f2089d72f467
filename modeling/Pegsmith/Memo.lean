import Pegsmith.Fault
import Std.Data.HashMap

set_option autoImplicit false

namespace Pegsmith

inductive Memo (α : Type) where
  | success (consumed : Nat) (value : α)
  | failure
  deriving Repr

structure MemoTable (α : Type) where
  entries : Std.HashMap Nat (Memo α) := {}

namespace MemoTable

variable {α : Type}

def get? (t : MemoTable α) (position : Nat) : Option (Memo α) :=
  t.entries[position]?

/-- Records an outcome. An earlier one at the position is replaced, which is a fault. -/
def insert (t : MemoTable α) (position : Nat) (memo : Memo α) : MemoTable α × Option Fault :=
  (⟨t.entries.insert position memo⟩, (t.get? position).map fun _ => .evaluatedTwice position)

def size (t : MemoTable α) : Nat :=
  t.entries.size

theorem get?_insert (t : MemoTable α) (position other : Nat) (memo : Memo α) :
    (t.insert position memo).1.get? other = if position = other then some memo else t.get? other := by
  simp [get?, insert, Std.HashMap.getElem?_insert]

end MemoTable

def Memo.replay {α : Type} (position : Nat) : Memo α → Except Fault (Nat × Option α)
  | .success consumed value => (addOffset position consumed).map (·, some value)
  | .failure => .ok (position, none)

end Pegsmith
