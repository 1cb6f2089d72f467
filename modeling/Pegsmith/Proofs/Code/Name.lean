import Mathlib
import Pegsmith.Code.Name
import Pegsmith.Grammar.Basic
import Pegsmith.Proofs.Pattern.Lexemes

set_option autoImplicit false

namespace Pegsmith.Code

theorem isAscii_of_continuesName {c : Char} (continues : Pattern.continuesName c = true) :
    Text.isAscii c = true := by
  simp only [Pattern.continuesName, Char.isAlphanum, Char.isAlpha, Bool.or_eq_true,
    Pattern.isUpper_iff, Pattern.isLower_iff, Pattern.isDigit_iff, beq_iff_eq] at continues
  rw [Text.isAscii, decide_eq_true_eq]
  rcases continues with ((upper | lower) | digit) | rfl
  · omega
  · omega
  · omega
  · decide

theorem continuesName_toLower {c : Char} (continues : Pattern.continuesName c = true) :
    Pattern.continuesName c.toLower = true := by
  by_cases upper : c.isUpper = true
  · have alpha : c.toLower.isAlpha = true := by simp [Char.isAlpha, upper]
    simp [Pattern.continuesName, Char.isAlphanum, alpha]
  · rwa [Char.toLower_eq_of_not_isUpper upper]

theorem continuesName_of_mem_snakeFrom {before d : Char} {cs : List Char}
    (name : ∀ c ∈ cs, Pattern.continuesName c = true) (member : d ∈ snakeFrom before cs) :
    Pattern.continuesName d = true := by
  induction cs generalizing before with
  | nil => cases member
  | cons c cs ih =>
    have first := name c List.mem_cons_self
    rw [snakeFrom, Text.toLower_of_isAscii (isAscii_of_continuesName first)] at member
    rcases List.mem_append.mp member with front | later
    · rcases List.mem_append.mp front with underscore | lower
      · split at underscore
        · obtain rfl := List.mem_singleton.mp underscore
          rfl
        · cases underscore
      · obtain rfl := List.mem_singleton.mp lower
        exact continuesName_toLower first
    · exact ih (fun e listed => name e (List.mem_cons_of_mem c listed)) later

theorem continuesName_of_mem_snakeCase {name : String} {d : Char}
    (valid : ∀ c ∈ name.toList, Pattern.continuesName c = true)
    (member : d ∈ (snakeCase name).toList) : Pattern.continuesName d = true := by
  rw [snakeCase, String.toList_ofList] at member
  cases read : name.toList with
  | nil => simp [read, snakeChars] at member
  | cons c cs =>
    rw [read] at member valid
    have first := valid c List.mem_cons_self
    rw [snakeChars, Text.toLower_of_isAscii (isAscii_of_continuesName first)] at member
    rcases List.mem_cons.mp member with rfl | later
    · exact continuesName_toLower first
    · exact continuesName_of_mem_snakeFrom
        (fun e listed => valid e (List.mem_cons_of_mem c listed)) later

/-- How a name is written: with an underscore behind it, as a raw name, or as it is. -/
inductive Escapes (name : String) : String → Prop where
  | underscore (word : name ∈ unraw) : Escapes name (name ++ "_")
  | raw : Escapes name ("r#" ++ name)
  | plain (free : name ∉ unraw) : Escapes name name

theorem escapes (name : String) : Escapes name (escape name) := by
  unfold escape
  split
  · next word => exact .underscore (by simpa using word)
  · next free =>
    split
    · exact .raw
    · exact .plain (by simpa using free)

theorem escape_append_underscore {name : String} (word : name ∈ unraw) :
    escape (name ++ "_") = escape name := by
  simp only [unraw, List.mem_cons, List.not_mem_nil, or_false] at word
  obtain rfl | rfl | rfl | rfl := word <;> decide

theorem hash_mem_raw (name : String) : '#' ∈ ("r#" ++ name).toList := by
  simp

theorem escape_eq_iff {a b : String} (ha : '#' ∉ a.toList) (hb : '#' ∉ b.toList) :
    escape a = escape b ↔ a = b ∨ (a ∈ unraw ∧ b = a ++ "_") ∨ (b ∈ unraw ∧ a = b ++ "_") := by
  constructor
  · intro same
    have left := escapes a
    have right := escapes b
    rw [same] at left
    -- A hash tells a prefix, so only an underscore can be taken for a part of the name.
    generalize escape b = written at left right
    cases left with
    | underscore word =>
      generalize shape : a ++ "_" = other at right
      cases right with
      | underscore => exact .inl ((String.append_left_inj "_").mp shape)
      | raw =>
        have hash := hash_mem_raw b
        rw [← shape] at hash
        simp [ha] at hash
      | plain => exact .inr (.inl ⟨word, rfl⟩)
    | raw =>
      generalize shape : "r#" ++ a = other at right
      have hash := hash_mem_raw a
      rw [shape] at hash
      cases right with
      | underscore => simp [hb] at hash
      | raw => exact .inl ((String.append_right_inj "r#").mp shape)
      | plain => exact absurd hash hb
    | plain free =>
      cases right with
      | underscore word => exact .inr (.inr ⟨word, rfl⟩)
      | raw => exact absurd (hash_mem_raw b) ha
      | plain => exact .inl rfl
  · rintro (rfl | ⟨word, rfl⟩ | ⟨word, rfl⟩)
    · rfl
    · exact (escape_append_underscore word).symm
    · exact escape_append_underscore word

theorem nodup_memoField (names : List String) :
    (names.map memoField).Nodup ↔ (names.map snakeCase).Nodup := by
  rw [show memoField = (· ++ "_memo") ∘ snakeCase from rfl, ← List.map_map]
  exact List.nodup_map_iff fun a b same => (String.append_left_inj "_memo").mp same

theorem nodup_entryMethod (names : List String) :
    (names.map entryMethod).Nodup ↔ (names.map snakeCase).Nodup := by
  rw [show entryMethod = ("parse_" ++ ·) ∘ snakeCase from rfl, ← List.map_map]
  exact List.nodup_map_iff fun a b same => (String.append_right_inj "parse_").mp same

theorem nodup_map_escape {names : List String} (plain : ∀ name ∈ names, '#' ∉ name.toList) :
    (names.map escape).Nodup ↔
      names.Nodup ∧ ∀ word ∈ unraw, word ∈ names → word ++ "_" ∉ names := by
  constructor
  · intro distinct
    have nodup := List.Nodup.of_map escape distinct
    refine ⟨nodup, fun word unraw here there => ?_⟩
    have same := (List.nodup_map_iff_inj_on nodup).mp distinct _ there word here
      (escape_append_underscore unraw)
    have longer := congrArg String.length same
    simp at longer
  · rintro ⟨nodup, apart⟩
    refine (List.nodup_map_iff_inj_on nodup).mpr fun a ha b hb same => ?_
    obtain equal | ⟨word, rfl⟩ | ⟨word, rfl⟩ := (escape_eq_iff (plain a ha) (plain b hb)).mp same
    · exact equal
    · exact absurd hb (apart a word ha)
    · exact absurd ha (apart b word hb)

theorem nodup_ruleMethod {names : List String}
    (valid : ∀ name ∈ names, ∀ c ∈ name.toList, Pattern.continuesName c = true) :
    (names.map ruleMethod).Nodup ↔ (names.map snakeCase).Nodup ∧
      ∀ word ∈ unraw, word ∈ names.map snakeCase → word ++ "_" ∉ names.map snakeCase := by
  rw [show ruleMethod = escape ∘ snakeCase from rfl, ← List.map_map]
  refine nodup_map_escape fun stem listed hash => ?_
  obtain ⟨name, member, rfl⟩ := List.mem_map.mp listed
  have continues := continuesName_of_mem_snakeCase (valid name member) hash
  exact absurd continues (by decide)

example : memoField "aB" = memoField "a_b" := by decide

example : ruleMethod "self" = ruleMethod "self_" ∧ memoField "self" ≠ memoField "self_" := by decide

end Pegsmith.Code
