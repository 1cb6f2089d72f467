import Mathlib
import Pegsmith.Proofs.Source.Literals
import Pegsmith.Text.Quoted

set_option autoImplicit false

namespace Pegsmith.Source

def escapedChar? : Char → Option Char
  | 'n' => some '\n'
  | 'r' => some '\r'
  | 't' => some '\t'
  | '0' => some '\x00'
  | '\\' => some '\\'
  | '\'' => some '\''
  | '"' => some '"'
  | _ => none

def escaped? : List Char → Option (Char × List Char)
  | 'x' :: h :: l :: cs =>
      if isHexDigit h && hexValue h < 8 && isHexDigit l then
        some (Char.ofNat (16 * hexValue h + hexValue l), cs)
      else none
  | 'u' :: '\x7b' :: cs =>
      match bracedValue 0 0 cs with
      | some (value, rest) => if isScalar value then some (Char.ofNat value, rest) else none
      | none => none
  | c :: cs => (escapedChar? c).map (·, cs)
  | [] => none

def skipBlanks : List Char → List Char
  | ' ' :: cs | '\t' :: cs | '\n' :: cs | '\r' :: '\n' :: cs => skipBlanks cs
  | cs => cs

/-- The first of the pieces that a literal is written of. It denotes one character or, where the
line goes on, none. -/
def piece? : List Char → Option (List Char × List Char)
  | '\\' :: '\n' :: cs | '\\' :: '\r' :: '\n' :: cs => some ([], skipBlanks cs)
  | '\\' :: cs => (escaped? cs).map fun (c, rest) => ([c], rest)
  | '\r' :: '\n' :: cs => some (['\n'], cs)
  | c :: cs => if c = '"' ∨ c = '\r' then none else some ([c], cs)
  | [] => none

def isPlain (c : Char) : Bool :=
  c != '"' && c != '\\' && c != '\r'

theorem isPlain_iff {c : Char} : isPlain c ↔ c ≠ '"' ∧ c ≠ '\\' ∧ c ≠ '\r' := by
  simp [isPlain, and_assoc]

theorem isPlain_of_isHexDigit {c : Char} (hex : isHexDigit c) : isPlain c := by
  rw [isPlain_iff]
  refine ⟨?_, ?_, ?_⟩ <;> rintro rfl <;> revert hex <;> decide

theorem exists_of_bracedValue {value digits : Nat} {cs : List Char} {found : Nat × List Char}
    (scan : bracedValue value digits cs = some found) :
    ∃ front, cs = front ++ found.2 ∧ ∀ c ∈ front, isPlain c := by
  fun_induction bracedValue value digits cs with
  -- No digit, too many of them, or another character.
  | case1 | case3 | case6 | case7 => cases scan
  | case2 value digits cs some ih =>
    obtain ⟨front, same, plain⟩ := ih scan
    exact ⟨'_' :: front, congrArg _ same, List.forall_mem_cons.mpr ⟨by decide, plain⟩⟩
  | case4 value digits cs some =>
    cases scan
    exact ⟨['\x7d'], rfl, List.forall_mem_singleton.mpr (by decide)⟩
  | case5 value digits c cs score brace hex ih =>
    obtain ⟨front, same, plain⟩ := ih scan
    have hexDigit := isPlain_of_isHexDigit (Bool.and_eq_true_iff.mp hex).1
    exact ⟨c :: front, congrArg _ same, List.forall_mem_cons.mpr ⟨hexDigit, plain⟩⟩

theorem exists_of_escaped? {cs rest : List Char} {c : Char}
    (escape : escaped? cs = some (c, rest)) :
    ∃ d front, cs = d :: (front ++ rest) ∧ (∀ c ∈ front, isPlain c) ∧ d ≠ '\n' ∧ d ≠ '\r' := by
  unfold escaped? at escape
  split at escape
  · next h l cs =>
    simp only [Bool.and_eq_true, Option.ite_none_right_eq_some] at escape
    obtain ⟨⟨⟨high, -⟩, low⟩, same⟩ := escape
    cases same
    refine ⟨'x', [h, l], rfl, ?_, by decide, by decide⟩
    simp [isPlain_of_isHexDigit high, isPlain_of_isHexDigit low]
  · next cs =>
    split at escape
    · next value more braced =>
      obtain ⟨front, rfl, plain⟩ := exists_of_bracedValue braced
      simp only [Option.ite_none_right_eq_some] at escape
      obtain ⟨-, same⟩ := escape
      cases same
      exact ⟨'u', '\x7b' :: front, rfl, List.forall_mem_cons.mpr ⟨by decide, plain⟩, by decide,
        by decide⟩
    · cases escape
  · next d cs _ _ =>
    obtain ⟨c, known, same⟩ := Option.map_eq_some_iff.mp escape
    cases same
    refine ⟨d, [], rfl, by simp, ?_, ?_⟩ <;> rintro rfl <;> cases known
  · cases escape

theorem skipBlanks_suffix (cs : List Char) : skipBlanks cs <:+ cs := by
  fun_induction skipBlanks cs with
  | case1 cs ih | case2 cs ih | case3 cs ih => exact ih.trans (List.suffix_cons _ _)
  | case4 cs ih => exact ih.trans ((List.suffix_cons _ _).trans (List.suffix_cons _ _))
  | case5 => exact List.suffix_rfl

theorem exists_of_piece? {cs denoted rest : List Char} (piece : piece? cs = some (denoted, rest)) :
    ∃ c front, cs = c :: (front ++ rest) := by
  unfold piece? at piece
  split at piece
  · next cs =>
    cases piece
    obtain ⟨front, same⟩ := skipBlanks_suffix cs
    exact ⟨'\\', '\n' :: front, by rw [List.cons_append, same]⟩
  · next cs =>
    cases piece
    obtain ⟨front, same⟩ := skipBlanks_suffix cs
    exact ⟨'\\', '\r' :: '\n' :: front, by rw [List.cons_append, List.cons_append, same]⟩
  · obtain ⟨⟨c, more⟩, escape, same⟩ := Option.map_eq_some_iff.mp piece
    cases same
    obtain ⟨d, front, same, -⟩ := exists_of_escaped? escape
    exact ⟨'\\', d :: front, congrArg _ same⟩
  · cases piece
    exact ⟨'\r', ['\n'], rfl⟩
  · next c cs _ _ _ _ =>
    simp only [Option.ite_none_left_eq_some] at piece
    obtain ⟨-, same⟩ := piece
    cases same
    exact ⟨c, [], rfl⟩
  · cases piece

/-- What is denoted by the rest of a literal between double quotes, and what follows on it. -/
def denoted? (cs : List Char) : Option (List Char × List Char) :=
  match cs with
  | '"' :: rest => some ([], rest)
  | cs =>
      match _ : piece? cs with
      | none => none
      | some (front, rest) => (denoted? rest).map fun (more, rest) => (front ++ more, rest)
termination_by cs.length
decreasing_by
  obtain ⟨c, front, rfl⟩ := exists_of_piece? ‹_›
  simp

theorem denoted?_of_piece? {cs front rest : List Char} (piece : piece? cs = some (front, rest)) :
    denoted? cs = (denoted? rest).map fun (more, rest) => (front ++ more, rest) := by
  rw [denoted?]
  · split
    · next none => cases piece.symm.trans none
    · next found =>
      cases piece.symm.trans found
      rfl
  · rintro more rfl
    cases piece

theorem exists_of_denoted? {cs denoted rest : List Char}
    (found : denoted? cs = some (denoted, rest)) : ∃ front, cs = front ++ rest := by
  fun_induction denoted? cs generalizing denoted with
  | case1 rest' =>
    cases found
    exact ⟨['"'], rfl⟩
  | case2 => cases found
  | case3 cs _ front more piece ih =>
    obtain ⟨⟨back, last⟩, found, same⟩ := Option.map_eq_some_iff.mp found
    cases same
    obtain ⟨c, taken, rfl⟩ := exists_of_piece? piece
    obtain ⟨rest', rfl⟩ := ih found
    exact ⟨c :: (taken ++ rest'), by simp⟩

theorem hexDigit_digitChar {n : Nat} (small : n < 16) :
    isHexDigit n.digitChar = true ∧ hexValue n.digitChar = n := by
  revert n
  decide

theorem bracedValue_append_digits {ds : List Char} (hex : ∀ d ∈ ds, isHexDigit d)
    (value : Nat) {digits : Nat} (few : digits + ds.length ≤ 6) (cs : List Char) :
    bracedValue value digits (ds ++ cs) =
      bracedValue (ds.foldl (fun value d => 16 * value + hexValue d) value) (digits + ds.length)
        cs := by
  induction ds generalizing value digits with
  | nil => rfl
  | cons d ds ih =>
    rw [List.forall_mem_cons] at hex
    have score : d ≠ '_' := by
      rintro rfl
      cases hex.1
    have brace : d ≠ '\x7d' := by
      rintro rfl
      cases hex.1
    rw [List.length_cons] at few
    have more : digits < 6 := by omega
    rw [List.cons_append, bracedValue, if_pos (by simp [hex.1, more]), ih hex.2 _ (by omega),
      List.foldl_cons, List.length_cons, Nat.add_right_comm, Nat.add_assoc]
    · exact score
    · exact brace

theorem hexDigits_denote (n : Nat) :
    (∀ d ∈ Text.Quoted.hexDigits n, isHexDigit d) ∧
      (Text.Quoted.hexDigits n).foldl (fun value d => 16 * value + hexValue d) 0 = n := by
  induction n using Nat.strongRecOn with
  | ind n ih =>
    rw [Text.Quoted.hexDigits, Nat.toDigits_eq_if (by decide)]
    split
    · next small =>
      obtain ⟨hex, value⟩ := hexDigit_digitChar small
      simp [hex, value]
    · next large =>
      obtain ⟨digits, front⟩ := ih (n / 16) (by omega)
      obtain ⟨hex, value⟩ := hexDigit_digitChar (Nat.mod_lt n (by decide : 16 > 0))
      rw [Text.Quoted.hexDigits] at digits front
      refine ⟨List.forall_mem_append.mpr ⟨digits, List.forall_mem_singleton.mpr hex⟩, ?_⟩
      rw [List.foldl_append, front, List.foldl_cons, List.foldl_nil, value]
      exact Nat.div_add_mod n 16

theorem isScalar_toNat (c : Char) : isScalar c.toNat := by
  have valid : c.toNat.isValidChar := c.valid
  simp only [isScalar, Bool.or_eq_true, Bool.and_eq_true, decide_eq_true_eq]
  exact valid

theorem piece?_plain {c : Char} (plain : isPlain c) (rest : List Char) :
    piece? (c :: rest) = some ([c], rest) := by
  obtain ⟨quote, slash, ret⟩ := isPlain_iff.mp plain
  rw [piece?] <;> simp_all

theorem piece?_byNumber (c : Char) (rest : List Char) :
    piece? (Text.Quoted.byNumber c ++ rest) = some ([c], rest) := by
  obtain ⟨hex, value⟩ := hexDigits_denote c.toNat
  have scalar := isScalar_toNat c
  have few : (Text.Quoted.hexDigits c.toNat).length ≤ 6 :=
    Nat.toDigits_length 16 c.toNat 6 (by decide) (by simp [isScalar] at scalar; omega)
  have some : 0 + (Text.Quoted.hexDigits c.toNat).length ≠ 0 := by
    rw [Nat.zero_add]
    exact Nat.length_toDigits_pos.ne'
  have braced := bracedValue_append_digits hex 0 ((Nat.zero_add _).trans_le few) ('\x7d' :: rest)
  rw [bracedValue, if_neg some, value] at braced
  have same : Text.Quoted.byNumber c ++ rest =
      '\\' :: 'u' :: '\x7b' :: (Text.Quoted.hexDigits c.toNat ++ '\x7d' :: rest) := by
    simp [Text.Quoted.byNumber]
  rw [same]
  simp [piece?, escaped?, braced, scalar]

theorem piece?_escapeChar (c : Char) (rest : List Char) :
    piece? (Text.Quoted.escapeChar c ++ rest) = some ([c], rest) := by
  unfold Text.Quoted.escapeChar
  split
  case h_1 | h_2 | h_3 | h_4 | h_5 | h_6 => rfl
  next null tab ret newline slash quote =>
  split
  · exact piece?_plain (isPlain_iff.mpr ⟨quote, slash, ret⟩) rest
  · exact piece?_byNumber c rest

theorem denoted?_append (cs rest : List Char) :
    denoted? (cs.flatMap Text.Quoted.escapeChar ++ '"' :: rest) = some (cs, rest) := by
  induction cs with
  | nil => rw [List.flatMap_nil, List.nil_append, denoted?]
  | cons c cs ih =>
    rw [List.flatMap_cons, List.append_assoc, denoted?_of_piece? (piece?_escapeChar c _), ih]
    rfl

example : denoted? "\\x41\\u\x7b30_1\x7d\\\n  b\"]".toList =
    some (['A', '\u0301', 'b'], [']']) := by
  decide +kernel

end Pegsmith.Source
