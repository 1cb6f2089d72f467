import Mathlib.Data.List.Basic
import Pegsmith.Source.HostType

set_option autoImplicit false

namespace Pegsmith

namespace Source

def led (text : String) : List Char :=
  if text.isEmpty then [] else ' ' :: text.toList

@[simp] theorem led_empty : led "" = [] := rfl

theorem led_of_ne {text : String} (filled : text ≠ "") : led text = ' ' :: text.toList :=
  if_neg (by simpa using filled)

theorem led_of_toList {text : String} {c : Char} {cs : List Char} (same : text.toList = c :: cs) :
    led text = ' ' :: c :: cs := by
  have filled : text ≠ "" := fun empty => by
    rw [empty] at same
    cases same
  rw [led_of_ne filled, same]

theorem tail_led (text : String) : (led text).tail = text.toList := by
  by_cases empty : text = ""
  · subst empty
    rfl
  · rw [led_of_ne empty, List.tail_cons]

theorem led_injective : Function.Injective led := fun a b same =>
  String.toList_injective (by rw [← tail_led a, same, tail_led b])

theorem led_intercalate {texts : List String} (filled : ∀ text ∈ texts, text ≠ "") :
    led (" ".intercalate texts) = texts.flatMap led := by
  induction texts with
  | nil => rfl
  | cons text texts ih =>
    have here := filled text List.mem_cons_self
    rw [List.flatMap_cons, led_of_ne here]
    cases texts with
    | nil => rw [String.intercalate_singleton, led_of_ne here, List.flatMap_nil, List.append_nil]
    | cons next texts =>
      have rest := ih fun text member => filled text (List.mem_cons_of_mem _ member)
      have grown : text ++ " " ++ " ".intercalate (next :: texts) ≠ "" := by simp
      have behind : " ".intercalate (next :: texts) ≠ "" := by
        intro empty
        rw [empty, List.flatMap_cons, led_of_ne (filled next (by simp))] at rest
        cases rest
      rw [← rest, led_of_ne behind, String.intercalate_cons_cons, led_of_ne grown]
      simp

@[simp] theorem led_spaced (texts : List String) : led (spaced texts) = texts.flatMap led := by
  rw [spaced, led_intercalate fun text member => by simpa using (List.mem_filter.mp member).2]
  induction texts with
  | nil => rfl
  | cons text texts ih =>
    by_cases empty : text = ""
    · simpa [empty] using ih
    · simpa [empty] using ih

end Source

namespace HostType

open Source (led)

def written : List Char → List Char → List Char
  | _, [] => []
  | before, c :: rest =>
      if c = ' ' then
        if joins before (String.ofList (rest.takeWhile (· != ' '))) then written before rest
        else ' ' :: written (' ' :: before) rest
      else c :: written (c :: before) rest

def spaceComma (c : Char) : List Char :=
  if c == ',' then [',', ' '] else [c]

theorem written_append {piece : List Char} (solid : ' ' ∉ piece) (before rest : List Char) :
    written before (piece ++ rest) = piece ++ written (piece.reverse ++ before) rest := by
  induction piece generalizing before with
  | nil => rfl
  | cons c piece ih =>
    rw [List.mem_cons, not_or] at solid
    rw [List.cons_append, written, if_neg (Ne.symm solid.1), ih solid.2]
    simp

theorem written_blank (before : List Char) {piece rest : List Char} (solid : ' ' ∉ piece)
    (ends : rest = [] ∨ ∃ more, rest = ' ' :: more) :
    before.reverse ++ written before (' ' :: (piece ++ rest)) =
      (join before (String.ofList piece)).reverse ++
        written (join before (String.ofList piece)) rest := by
  have apart : ∀ c ∈ piece, (c != ' ') = true := fun c member =>
    bne_iff_ne.mpr fun (same : c = ' ') => solid (same ▸ member)
  have next : (piece ++ rest).takeWhile (· != ' ') = piece := by
    rw [List.takeWhile_append_of_pos apart]
    obtain rfl | ⟨more, rfl⟩ := ends <;> simp
  rw [written, if_pos rfl, next, written_append solid, written_append solid, join,
    String.toList_ofList]
  split <;> simp

theorem foldl_join (cs before : List Char) :
    (((cs.splitOn ' ').map String.ofList).foldl join before).reverse =
      before.reverse ++ written before (' ' :: cs) := by
  suffices general : ∀ (piece cs before : List Char), ' ' ∉ piece →
      ((((piece ++ cs).splitOn ' ').map String.ofList).foldl join before).reverse =
        before.reverse ++ written before (' ' :: (piece ++ cs)) from
    general [] cs before List.not_mem_nil
  intro piece cs
  induction cs generalizing piece with
  | nil =>
    intro before solid
    rw [List.append_nil, List.splitOn_eq_singleton solid, ← List.append_nil piece,
      written_blank before solid (.inl rfl)]
    simp [written]
  | cons c cs ih =>
    intro before solid
    by_cases blank : c = ' '
    · subst blank
      rw [List.splitOn_append_cons_self, List.splitOn_eq_singleton solid, List.map_append,
        List.foldl_append, written_blank before solid (.inr ⟨cs, rfl⟩)]
      exact ih [] _ List.not_mem_nil
    · have solid : ' ' ∉ piece ++ [c] := by simpa [Ne.symm blank] using solid
      simpa using ih (piece ++ [c]) before solid

theorem toList_text (t : HostType) : t.text.toList = (written [] (led t.key)).flatMap spaceComma := by
  have pass := foldl_join t.key.toList []
  have start : written [] (' ' :: t.key.toList) = written [] (led t.key) := by
    by_cases empty : t.key = ""
    · rw [empty]
      rfl
    · rw [Source.led_of_ne empty]
  rw [List.reverse_nil, List.nil_append, start] at pass
  rw [text, String.toList_ofList, pass]
  rfl

end HostType

end Pegsmith
