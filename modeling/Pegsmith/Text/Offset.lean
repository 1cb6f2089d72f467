
set_option autoImplicit false

namespace Pegsmith.Text

def byteSize : List Char → Nat
  | [] => 0
  | c :: cs => c.utf8Size + byteSize cs

@[simp] theorem byteSize_nil : byteSize [] = 0 := rfl

@[simp] theorem byteSize_cons (c : Char) (cs : List Char) :
    byteSize (c :: cs) = c.utf8Size + byteSize cs := rfl

@[simp] theorem byteSize_append (xs ys : List Char) :
    byteSize (xs ++ ys) = byteSize xs + byteSize ys := by
  induction xs with
  | nil => simp
  | cons c cs ih => simp [ih, Nat.add_assoc]

def dropBytes? : Nat → List Char → Option (List Char)
  | 0, cs => some cs
  | _ + 1, [] => none
  | n + 1, c :: cs => if c.utf8Size ≤ n + 1 then dropBytes? (n + 1 - c.utf8Size) cs else none

def takeBytes? : Nat → List Char → Option (List Char)
  | 0, _ => some []
  | _ + 1, [] => none
  | n + 1, c :: cs =>
      if c.utf8Size ≤ n + 1 then (takeBytes? (n + 1 - c.utf8Size) cs).map (c :: ·) else none

theorem dropBytes?_byteSize (xs ys : List Char) : dropBytes? (byteSize xs) (xs ++ ys) = some ys := by
  induction xs with
  | nil => cases ys <;> rfl
  | cons c cs ih =>
      obtain ⟨k, hk⟩ : ∃ k, byteSize (c :: cs) = k + 1 :=
        ⟨byteSize (c :: cs) - 1, by have := c.utf8Size_pos; simp; omega⟩
      rw [hk, List.cons_append, dropBytes?]
      have hk' : k + 1 = c.utf8Size + byteSize cs := by rw [← hk]; rfl
      rw [if_pos (by omega), show k + 1 - c.utf8Size = byteSize cs by omega, ih]

theorem eq_append_of_dropBytes? {n : Nat} {cs rest : List Char} (h : dropBytes? n cs = some rest) :
    ∃ front, cs = front ++ rest ∧ byteSize front = n := by
  induction cs generalizing n with
  | nil => cases n <;> simp_all [dropBytes?]
  | cons c cs ih =>
      cases n with
      | zero => exact ⟨[], by simpa [dropBytes?] using h, rfl⟩
      | succ n =>
          simp only [dropBytes?] at h
          split at h
          · obtain ⟨front, rfl, hf⟩ := ih h
            exact ⟨c :: front, rfl, by simp; omega⟩
          · simp at h

def isBoundary (cs : List Char) (n : Nat) : Bool :=
  (dropBytes? n cs).isSome

def slice? (cs : List Char) (start stop : Nat) : Option (List Char) :=
  if start ≤ stop then dropBytes? start cs >>= takeBytes? (stop - start) else none

theorem takeBytes?_byteSize (xs ys : List Char) :
    takeBytes? (byteSize xs) (xs ++ ys) = some xs := by
  induction xs with
  | nil => rw [byteSize_nil, takeBytes?]
  | cons c cs ih =>
    obtain ⟨k, size⟩ : ∃ k, byteSize (c :: cs) = k + 1 :=
      ⟨byteSize (c :: cs) - 1, by have := c.utf8Size_pos; simp; omega⟩
    have parts : k + 1 = c.utf8Size + byteSize cs := by rw [← size]; rfl
    rw [size, List.cons_append, takeBytes?, if_pos (by omega),
      show k + 1 - c.utf8Size = byteSize cs by omega, ih]
    rfl

theorem slice?_append (xs ys zs : List Char) :
    slice? (xs ++ (ys ++ zs)) (byteSize xs) (byteSize xs + byteSize ys) = some ys := by
  rw [slice?, if_pos (Nat.le_add_right ..), dropBytes?_byteSize, Nat.add_sub_cancel_left]
  exact takeBytes?_byteSize ys zs

end Pegsmith.Text
