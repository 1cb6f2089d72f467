import Mathlib
import Pegsmith.Proofs.Source.Layout

set_option autoImplicit false

namespace Pegsmith.Source

def Scanned.over (rest : List Char) (s : Scanned) : Scanned :=
  s.map fun s => (s.1, s.2 ++ rest)

theorem Scanned.over_after (front rest : List Char) (s : Scanned) :
    Scanned.over rest (s.after front) = (Scanned.over rest s).after front := by
  cases s <;> rfl

theorem ten_le_hexValue {c : Char} (hex : isHexDigit c) (digit : c.isDigit = false) :
    10 ≤ hexValue c := by
  rw [isHexDigit, digit, Bool.false_or, Bool.or_eq_true, Bool.and_eq_true, Bool.and_eq_true] at hex
  simp only [decide_eq_true_eq, Char.le_def, UInt32.le_iff_toNat_le] at hex
  have value : c.val.toNat = c.toNat := rfl
  have bounds : 'a'.val.toNat = 97 ∧ 'A'.val.toNat = 65 ∧ 'F'.val.toNat = 70 := by decide
  rw [hexValue, digit, if_neg Bool.false_ne_true]
  cases hex with
  | inl lower => split <;> omega
  | inr upper =>
    have isUpper : c.isUpper := decide_eq_true
      ⟨UInt32.le_iff_toNat_le.mpr upper.1,
        UInt32.le_iff_toNat_le.mpr (Nat.le_trans upper.2 (by decide))⟩
    rw [if_pos isUpper]
    omega

theorem scanBaseDigits_of_not_digit {c : Char} (digit : c.isDigit = false) (score : c ≠ '_')
    (cs : List Char) : scanBaseDigits 10 (c :: cs) = some ([], c :: cs) := by
  rw [scanBaseDigits, if_neg (by simpa using score)]
  split
  · next hex =>
    rw [if_neg (Nat.not_lt.mpr (ten_le_hexValue hex digit)), digit, if_neg Bool.false_ne_true]
  · rfl

theorem scanInteger_of_not_digit {c : Char} (digit : c.isDigit = false) (cs : List Char) :
    scanInteger (c :: cs) = none := by
  have zero : c ≠ '0' := by
    rintro rfl
    cases digit
  rw [scanInteger]
  · by_cases score : c = '_'
    · subst score
      rfl
    · rw [scanBaseDigits_of_not_digit digit score]
      simp [score]
  all_goals
    rintro more same
    exact zero (List.cons.inj same).1

section

variable {rest : List Char} (apart : Apart rest)
include apart

theorem span_append {p : Char → Bool} (ends : ∀ c ∈ wordEnds, p c = false) (cs : List Char) :
    (cs ++ rest).span p = ((cs.span p).1, (cs.span p).2 ++ rest) := by
  rw [List.span_eq_takeWhile_dropWhile, List.span_eq_takeWhile_dropWhile]
  induction cs with
  | nil =>
    cases rest with
    | nil => rfl
    | cons c rest => simp [ends c (apart c rfl)]
  | cons c cs ih =>
    rw [Prod.mk.injEq] at ih ⊢
    cases here : p c with
    | true => simp [here, ih.1, ih.2]
    | false => simp [here]

theorem scanWord_apart : scanWord rest = none := by
  have ends : ∀ c ∈ wordEnds, Text.startsIdentifier c = false := forall_mem_of_all (by decide)
  cases rest with
  | nil => rfl
  | cons c rest => rw [scanWord, if_neg (by simp [ends c (apart c rfl)])]

theorem scanWord_append (cs : List Char) :
    scanWord (cs ++ rest) = Scanned.over rest (scanWord cs) := by
  cases cs with
  | nil => exact scanWord_apart apart
  | cons c cs =>
    have ends : ∀ c ∈ wordEnds, Text.continuesIdentifier c = false := forall_mem_of_all (by decide)
    rw [List.cons_append, scanWord, scanWord]
    split
    · rw [← List.cons_append, span_append apart ends]
      rfl
    · rfl

theorem withSuffix_over (s : Scanned) :
    withSuffix (Scanned.over rest s) = Scanned.over rest (withSuffix s) := by
  match s with
  | none => rfl
  | some (taken, more) =>
    rw [Scanned.over, withSuffix, withSuffix, Option.map_some, Option.map_some, Option.map_some]
    simp only [scanWord_append apart more]
    cases scanWord more <;> rfl

theorem endsWord_over (s : Scanned) :
    endsWord (Scanned.over rest s) = Scanned.over rest (endsWord s) := by
  have ends : ∀ c ∈ wordEnds, Text.continuesIdentifier c = false := forall_mem_of_all (by decide)
  have same (more : List Char) : (more ++ rest).head?.any Text.continuesIdentifier =
      more.head?.any Text.continuesIdentifier := by
    match more, rest with
    | c :: more, _ | [], [] => rfl
    | [], c :: rest => simp [ends c (apart c rfl)]
  match s with
  | none => rfl
  | some (taken, more) =>
    simp only [Scanned.over, endsWord, Option.map_some, Option.filter_some, same]
    split <;> rfl

theorem scanExponent_append (cs : List Char) :
    scanExponent (cs ++ rest) = Scanned.over rest (scanExponent cs) := by
  have marks : ∀ c ∈ wordEnds, (c == 'e' || c == 'E') = false := forall_mem_of_all (by decide)
  have scores : ∀ c ∈ wordEnds, (c == '_') = false := forall_mem_of_all (by decide)
  have signs : ∀ c ∈ wordEnds, (c == '+' || c == '-') = false := forall_mem_of_all (by decide)
  have digits : ∀ c ∈ wordEnds, (c.isDigit || c == '_') = false := forall_mem_of_all (by decide)
  -- An exponent goes on with none of the characters that end words.
  cases cs with
  | nil =>
    cases rest with
    | nil => rfl
    | cons c rest => simp [scanExponent, marks c (apart c rfl), Scanned.over]
  | cons c cs =>
    rw [List.cons_append, scanExponent, scanExponent]
    split
    · simp only [span_append apart scores]
      generalize (cs.span (· == '_')).2 = tail
      cases tail with
      | nil =>
        cases rest with
        | nil => simp [Scanned.over]
        | cons d rest =>
          simp [signs d (apart d rfl), digits d (apart d rfl), Scanned.over, List.span_eq_takeWhile_dropWhile]
      | cons d more =>
        simp only [List.cons_append]
        split
        · simp only [span_append apart digits]
          split <;> rfl
        · simp only [← List.cons_append, span_append apart digits]
          split <;> rfl
    · rfl

theorem scanDigits_append (cs : List Char) :
    scanDigits (cs ++ rest) = ((scanDigits cs).1, (scanDigits cs).2 ++ rest) :=
  span_append apart (forall_mem_of_all (by decide)) cs

theorem scanFloat_append (cs : List Char) :
    scanFloat (cs ++ rest) = Scanned.over rest (scanFloat cs) := by
  have ends : ∀ c ∈ wordEnds, c.isDigit = false ∧ c ≠ '.' ∧ Text.startsIdentifier c = false :=
    forall_mem_of_all (by decide)
  cases cs with
  | nil =>
    cases rest with
    | nil => rfl
    | cons c rest => simp [scanFloat, (ends c (apart c rfl)).1, Scanned.over]
  | cons c cs =>
    rw [List.cons_append, scanFloat, scanFloat]
    split
    · rw [← List.cons_append, scanDigits_append apart]
      simp only
      generalize (scanDigits (c :: cs)).2 = tail
      have exponent := scanExponent_append apart tail
      cases tail with
      | nil =>
        split
        · next same =>
          rw [List.nil_append] at same
          exact absurd rfl (ends '.' (apart '.' (by rw [same]; rfl))).2.1
        · rw [exponent, ← Scanned.over_after]
      | cons d more =>
        -- A point is left out where another one or a name stands behind it. What follows on the
        -- literal is neither of these.
        by_cases point : d = '.'
        · subst point
          have same : (more ++ rest).head?.any (fun c => c == '.' || Text.startsIdentifier c) =
              more.head?.any fun c => c == '.' || Text.startsIdentifier c := by
            match more, rest with
            | c :: more, _ | [], [] => rfl
            | [], c :: rest => simp [ends c (apart c rfl)]
          simp only [List.cons_append, same, scanDigits_append apart, scanExponent_append apart]
          split
          · rfl
          · cases scanExponent (scanDigits more).2 <;> rfl
        · rw [exponent]
          simp [point, Scanned.over_after]
    · rfl

theorem scanBaseDigits_append (base : Nat) (cs : List Char) :
    scanBaseDigits base (cs ++ rest) = (scanBaseDigits base cs).map fun s => (s.1, s.2 ++ rest) := by
  have ends : ∀ c ∈ wordEnds, (c == '_') = false ∧ isHexDigit c = false :=
    forall_mem_of_all (by decide)
  induction cs with
  | nil =>
    cases rest with
    | nil => rfl
    | cons c rest => simp [scanBaseDigits, ends c (apart c rfl)]
  | cons c cs ih =>
    rw [List.cons_append, scanBaseDigits, scanBaseDigits, ih]
    split
    · cases scanBaseDigits base cs <;> rfl
    · split
      · split
        · cases scanBaseDigits base cs <;> rfl
        · split <;> rfl
      · rfl

theorem scanBased_append (front : List Char) (base : Nat) (digits : List Char) :
    (match scanBaseDigits base (digits ++ rest) with
      | some (ds, rest) => if ds.any (· != '_') then some (front ++ ds, rest) else none
      | none => none) = Scanned.over rest (match scanBaseDigits base digits with
      | some (ds, rest) => if ds.any (· != '_') then some (front ++ ds, rest) else none
      | none => none) := by
  rw [scanBaseDigits_append apart]
  cases scanBaseDigits base digits with
  | none => rfl
  | some s =>
    simp only [Option.map_some]
    split <;> rfl

theorem scanInteger_append (cs : List Char) :
    scanInteger (cs ++ rest) = Scanned.over rest (scanInteger cs) := by
  -- The letter of a base ends no word, so it is not the first character behind the literal.
  have based {x : Char} {more : List Char} (letter : x ∈ ['x', 'o', 'b'])
      (same : cs ++ rest = '0' :: x :: more) : ∃ more, cs = '0' :: x :: more := by
    have other : ∀ x ∈ ['x', 'o', 'b'], x ∉ wordEnds := forall_mem_of_all (by decide)
    rcases cs with _ | ⟨c, _ | ⟨d, cs⟩⟩
    · exact absurd (apart '0' (by rw [← List.nil_append rest, same]; rfl)) (by decide)
    · have tail : rest = x :: more := (List.cons.inj same).2
      exact absurd (apart x (by rw [tail]; rfl)) (other x letter)
    · cases same
      exact ⟨cs, rfl⟩
  have scan := scanBased_append apart
  by_cases mark : ∃ x ∈ ['x', 'o', 'b'], ∃ more, cs = '0' :: x :: more
  · obtain ⟨x, letter, more, rfl⟩ := mark
    simp only [List.mem_cons, List.not_mem_nil, or_false] at letter
    obtain rfl | rfl | rfl := letter
    · exact scan ['0', 'x'] 16 more
    · exact scan ['0', 'o'] 8 more
    · exact scan ['0', 'b'] 2 more
  · have plain (x : Char) (letter : x ∈ ['x', 'o', 'b']) (more : List Char) :
        cs ≠ '0' :: x :: more := fun same => mark ⟨x, letter, more, same⟩
    have plain' (x : Char) (letter : x ∈ ['x', 'o', 'b']) (more : List Char) :
        cs ++ rest ≠ '0' :: x :: more := fun same => by
      obtain ⟨more, same⟩ := based letter same
      exact plain x letter more same
    have start : (cs ++ rest).head? = some '_' ↔ cs.head? = some '_' := by
      rcases cs with _ | ⟨c, cs⟩
      · rcases rest with _ | ⟨c, rest⟩
        · rfl
        · have score : c ≠ '_' := fun same => absurd (apart c rfl) (by rw [same]; decide)
          simp [score]
      · rfl
    rw [scanInteger, scanInteger]
    · simp only [start]
      split
      · rfl
      · exact scan [] 10 cs
    all_goals first | exact plain _ (by decide) | exact plain' _ (by decide)

end

theorem Scanned.isSome_after (front : List Char) (s : Scanned) :
    (s.after front).isSome = s.isSome := by
  cases s <;> rfl

section

variable (rest : List Char)

theorem bracedValue_append (value digits : Nat) {cs : List Char} {found : Nat × List Char}
    (scan : bracedValue value digits cs = some found) :
    bracedValue value digits (cs ++ rest) = some (found.1, found.2 ++ rest) := by
  fun_induction bracedValue value digits cs with
  | case1 | case3 | case6 | case7 => cases scan
  | case2 value digits cs some ih =>
    rw [List.cons_append, bracedValue, if_neg some, ih scan]
  | case4 value digits cs some =>
    cases scan
    rw [List.cons_append, bracedValue, if_neg some]
  | case5 value digits c cs score brace hex ih =>
    rw [List.cons_append, bracedValue, if_pos hex, ih scan]
    · exact score
    · exact brace

theorem afterEscape_append {kind : Quoted} {cs more : List Char}
    (scan : afterEscape kind cs = some more) :
    afterEscape kind (cs ++ rest) = some (more ++ rest) := by
  unfold afterEscape at scan ⊢
  -- Two hexadecimal digits, a number in braces, or one character.
  split at scan
  · simp only [List.cons_append, Option.ite_none_right_eq_some] at scan ⊢
    obtain ⟨range, same⟩ := scan
    cases same
    exact ⟨range, rfl⟩
  · next cs =>
    simp only [List.cons_append]
    cases value : bracedValue 0 0 cs with
    | none =>
      rw [value] at scan
      cases kind <;> cases scan
    | some found =>
      rw [value] at scan
      rw [bracedValue_append rest 0 0 value]
      cases kind with
      | bytes => cases scan
      | text | terminated =>
        simp only [Option.ite_none_right_eq_some] at scan ⊢
        obtain ⟨range, same⟩ := scan
        cases same
        exact ⟨range, rfl⟩
  · simp only [List.cons_append, Option.ite_none_left_eq_some] at scan ⊢
    obtain ⟨range, same⟩ := scan
    cases same
    exact ⟨range, rfl⟩
  · next c cs hex brace zero =>
    simp only [Option.ite_none_right_eq_some] at scan
    obtain ⟨known, same⟩ := scan
    cases same
    have other : ∀ d ∈ ['n', 'r', 't', '\\', '\'', '"'], d ≠ 'x' ∧ d ≠ 'u' :=
      forall_mem_of_all (by decide)
    obtain ⟨x, u⟩ := other c (List.contains_iff_mem.mp known)
    rw [List.cons_append]
    split
    · next same => exact absurd (List.cons.inj same).1 x
    · next same => exact absurd (List.cons.inj same).1 u
    · next same => exact absurd (List.cons.inj same).1 zero
    · next same =>
      cases same
      exact if_pos known
    · next same => cases same
  · cases scan

theorem scanQuoted_append {kind : Quoted} {cs : List Char}
    (found : (scanQuoted kind cs).isSome) :
    scanQuoted kind (cs ++ rest) = Scanned.over rest (scanQuoted kind cs) := by
  fun_induction scanQuoted kind cs with
  -- The text ends, a carriage return stands alone, or an escape is none.
  | case1 | case4 | case8 => cases found
  | case2 => rfl
  -- A line break, by itself or behind a backslash.
  | case3 cs ih | case5 cs ih | case6 cs ih =>
    rw [Scanned.isSome_after] at found
    rw [Scanned.over_after, ← ih found]
    rfl
  | case7 c cs newline ret escape ih =>
    -- What follows on the literal could only be taken for the line break of a carriage return.
    rw [Scanned.isSome_after] at found
    obtain ⟨more, escaped⟩ := Option.isSome_iff_exists.mp escape
    have other : c ≠ '\r' := by
      rintro rfl
      cases escaped
    have again : (afterEscape kind (c :: (cs ++ rest))).isSome := by
      rw [← List.cons_append, afterEscape_append rest escaped]
      rfl
    rw [Scanned.over_after, ← ih found, List.cons_append, List.cons_append, scanQuoted, if_pos again]
    · exact newline
    · exact fun _ same _ => other same
  -- Any other character, as far as the kind of the literal allows it.
  | case9 c cs quote _ ret _ _ escape kindIs ih
  | case10 c cs quote _ ret _ _ escape kindIs allowed ih
  | case13 c cs quote _ ret _ _ escape kindIs allowed ih =>
    rw [Scanned.isSome_after] at found
    have other : c ≠ '\\' := by
      rintro rfl
      cases cs with
      | nil => cases found
      | cons d cs => exact escape d cs rfl rfl
    subst kindIs
    rw [Scanned.over_after, ← ih found, List.cons_append]
    simp_all [scanQuoted]
  | case11 | case12 => cases found

theorem not_isPrefixOf_append (apart : Apart rest) {hashes cs : List Char}
    (hash : ∀ c ∈ hashes, c = '#') (goesOn : ¬hashes.isPrefixOf cs) :
    ¬hashes.isPrefixOf (cs ++ rest) := by
  intro leads
  have long := List.isPrefixOf_iff_prefix.mp leads
  cases List.prefix_or_prefix_of_prefix long (List.prefix_append cs rest) with
  | inl short => exact goesOn (List.isPrefixOf_iff_prefix.mpr short)
  | inr within =>
    obtain ⟨tail, rfl⟩ := within
    have behind : tail <+: rest := (List.prefix_append_right_inj cs).mp long
    cases tail with
    | nil => exact goesOn (List.isPrefixOf_iff_prefix.mpr (by simp))
    | cons d tail =>
      obtain ⟨more, rfl⟩ := behind
      have sharp : d = '#' := hash d (by simp)
      exact absurd (apart d rfl) (by rw [sharp]; decide)

theorem scanRawBody_append (apart : Apart rest) {kind : Quoted} {hashes cs : List Char}
    (hash : ∀ c ∈ hashes, c = '#') (found : (scanRawBody kind hashes cs).isSome) :
    scanRawBody kind hashes (cs ++ rest) = Scanned.over rest (scanRawBody kind hashes cs) := by
  fun_induction scanRawBody kind hashes cs with
  -- The text ends, a carriage return stands alone, or the kind does not allow a character.
  | case1 | case5 | case7 => cases found
  -- A quote with all of the hashes behind it, and one without.
  | case2 cs closes =>
    obtain ⟨more, rfl⟩ := List.isPrefixOf_iff_prefix.mp closes
    have again : hashes.isPrefixOf (hashes ++ more ++ rest) := by
      rw [List.append_assoc]
      exact List.isPrefixOf_iff_prefix.mpr (List.prefix_append _ _)
    rw [List.cons_append, scanRawBody, if_pos again]
    simp [Scanned.over]
  | case3 cs goesOn ih =>
    rw [Scanned.isSome_after] at found
    rw [Scanned.over_after, ← ih found, List.cons_append, scanRawBody.eq_def]
    exact if_neg (not_isPrefixOf_append rest apart hash goesOn)
  | case4 cs ih =>
    rw [Scanned.isSome_after] at found
    rw [Scanned.over_after, ← ih found]
    rfl
  | case6 c cs quote _ ret allowed ok ih =>
    rw [Scanned.isSome_after] at found
    rw [Scanned.over_after, ← ih found, List.cons_append, scanRawBody.eq_def]
    split
    · next same => cases same
    · next same => exact absurd (List.cons.inj same).1 quote
    · next same => exact absurd (List.cons.inj same).1 ret
    · next same => exact absurd (List.cons.inj same).1 ret
    · next same =>
      cases same
      exact if_pos ok

theorem scanRaw_append (apart : Apart rest) {kind : Quoted} {cs : List Char}
    (found : (scanRaw kind cs).isSome) :
    scanRaw kind (cs ++ rest) = Scanned.over rest (scanRaw kind cs) := by
  rw [scanRaw, span_append apart (forall_mem_of_all (by decide)), scanRaw]
  rw [scanRaw] at found
  have hash : ∀ c ∈ (cs.span (· == '#')).1, c = '#' := by
    rw [List.span_eq_takeWhile_dropWhile]
    exact fun c member => by simpa using List.mem_takeWhile_imp (p := (· == '#')) member
  match whole : cs.span (· == '#') with
  | (hashes, []) =>
    rw [whole] at found
    cases found
  | (hashes, c :: body) =>
    rw [whole] at found hash
    by_cases quote : c = '"'
    · subst quote
      simp only [List.cons_append] at found ⊢
      split at found
      · next short =>
        rw [Scanned.isSome_after] at found
        rw [if_pos short, if_pos short, scanRawBody_append rest apart hash found,
          Scanned.over_after]
      · cases found
    · simp [quote] at found

theorem scanSingle_append {kind : Quoted} {cs : List Char} (found : (scanSingle kind cs).isSome) :
    scanSingle kind (cs ++ rest) = Scanned.over rest (scanSingle kind cs) := by
  unfold scanSingle at found ⊢
  split at found
  · next cs =>
    simp only [List.cons_append]
    split at found
    · next more escaped =>
      rw [afterEscape_append rest escaped]
      have taken : (cs ++ rest).length - (more ++ rest).length = cs.length - more.length := by
        rw [List.length_append, List.length_append, Nat.add_sub_add_right]
      simp only [List.cons_append, taken, List.take_append_of_le_length (Nat.sub_le ..)]
      rfl
    · cases found
  · next c more escape =>
    rw [List.cons_append, List.cons_append]
    split
    · next same => exact absurd (List.cons.inj same).1 escape
    · next same =>
      cases same
      rfl
    · next other => exact absurd rfl (other c (more ++ rest))
  · cases found

def quotedLiteral (cs : List Char) : Option (LiteralKind × List Char × List Char) :=
  let found (kind : LiteralKind) (s : Scanned) : Option (LiteralKind × List Char × List Char) :=
    s.map fun (taken, rest) => (kind, taken, rest)
  match cs with
  | '"' :: cs => found .text ((scanQuoted .text cs).after ['"'])
  | 'r' :: cs => found .text ((scanRaw .text cs).after ['r'])
  | 'b' :: '"' :: cs => found .other ((scanQuoted .bytes cs).after ['b', '"'])
  | 'b' :: 'r' :: cs => found .other ((scanRaw .bytes cs).after ['b', 'r'])
  | 'c' :: '"' :: cs => found .other ((scanQuoted .terminated cs).after ['c', '"'])
  | 'c' :: 'r' :: cs => found .other ((scanRaw .terminated cs).after ['c', 'r'])
  | 'b' :: '\'' :: cs => found .other ((scanSingle .bytes cs).after ['b', '\''])
  | '\'' :: cs => found .other ((scanSingle .text cs).after ['\''])
  | _ => none

def numberLiteral (cs : List Char) : Option (LiteralKind × List Char × List Char) :=
  match endsWord (withSuffix (scanFloat cs)) with
  | some (taken, rest) => some (.float, taken, rest)
  | none => (endsWord (withSuffix (scanInteger cs))).map fun s => (.integer, s.1, s.2)

theorem scanLiteral_eq (cs : List Char) :
    scanLiteral cs =
      match quotedLiteral cs with
      | some (kind, taken, rest) =>
          (withSuffix (some (taken, rest))).map fun s => (kind, s.1, s.2)
      | none => numberLiteral cs := by
  rfl

theorem quotedLiteral_append (apart : Apart rest) {cs : List Char}
    (found : (quotedLiteral cs).isSome) :
    quotedLiteral (cs ++ rest) = (quotedLiteral cs).map fun s => (s.1, s.2.1, s.2.2 ++ rest) := by
  have mapped (kind : LiteralKind) (front : List Char) {s t : Scanned}
      (scan : s.isSome → t = Scanned.over rest s)
      (found : ((s.after front).map fun s => (kind, s.1, s.2)).isSome) :
      ((t.after front).map fun s => (kind, s.1, s.2)) =
        ((s.after front).map fun s => (kind, s.1, s.2)).map fun s => (s.1, s.2.1, s.2.2 ++ rest) := by
    cases s with
    | none => cases found
    | some s => rw [scan rfl]; rfl
  unfold quotedLiteral at found ⊢
  dsimp only at found ⊢
  split at found
  · exact mapped _ _ (scanQuoted_append rest) found
  · exact mapped _ _ (scanRaw_append rest apart) found
  · exact mapped _ _ (scanQuoted_append rest) found
  · exact mapped _ _ (scanRaw_append rest apart) found
  · exact mapped _ _ (scanQuoted_append rest) found
  · exact mapped _ _ (scanRaw_append rest apart) found
  · exact mapped _ _ (scanSingle_append rest) found
  · exact mapped _ _ (scanSingle_append rest) found
  · cases found

theorem numberLiteral_append (apart : Apart rest) (cs : List Char) :
    numberLiteral (cs ++ rest) = (numberLiteral cs).map fun s => (s.1, s.2.1, s.2.2 ++ rest) := by
  rw [numberLiteral, numberLiteral, scanFloat_append apart, scanInteger_append apart,
    withSuffix_over apart, withSuffix_over apart, endsWord_over apart, endsWord_over apart]
  cases endsWord (withSuffix (scanFloat cs)) with
  | some s => rfl
  | none => cases endsWord (withSuffix (scanInteger cs)) <;> rfl

theorem isDigit_of_numberLiteral {c : Char} {cs : List Char}
    (found : (numberLiteral (c :: cs)).isSome) : c.isDigit := by
  by_contra digit
  rw [Bool.not_eq_true] at digit
  have float : scanFloat (c :: cs) = none := by rw [scanFloat, digit, if_neg Bool.false_ne_true]
  rw [numberLiteral, float, scanInteger_of_not_digit digit] at found
  cases found

theorem quotedLiteral_of_digit {c : Char} (digit : c.isDigit) (cs : List Char) :
    quotedLiteral (c :: cs) = none := by
  have other : ∀ d ∈ ['"', 'r', 'b', 'c', '\''], d ≠ c := by
    have plain : ∀ d ∈ ['"', 'r', 'b', 'c', '\''], d.isDigit = false :=
      forall_mem_of_all (by decide)
    rintro d member rfl
    rw [plain d member] at digit
    cases digit
  unfold quotedLiteral
  dsimp only
  split
  all_goals first | rfl | next same => exact absurd (List.cons.inj same).1.symm (other _ (by decide))

theorem scanLiteral_append (apart : Apart rest) {cs : List Char} {kind : LiteralKind}
    {taken more : List Char} (scan : scanLiteral cs = some (kind, taken, more)) :
    scanLiteral (cs ++ rest) = some (kind, taken, more ++ rest) := by
  rw [scanLiteral_eq] at scan ⊢
  -- Numbers are only tried where nothing is quoted, and what starts like one is never quoted.
  cases quoted : quotedLiteral cs with
  | some s =>
    obtain ⟨k, front, tail⟩ := s
    rw [quoted] at scan
    have suffix : withSuffix (some (front, tail ++ rest)) =
        Scanned.over rest (withSuffix (some (front, tail))) :=
      withSuffix_over apart (some (front, tail))
    rw [quotedLiteral_append rest apart (by rw [quoted]; rfl), quoted]
    simp only [Option.map_some, suffix] at scan ⊢
    cases ended : withSuffix (some (front, tail)) with
    | none =>
      rw [ended] at scan
      cases scan
    | some s =>
      rw [ended] at scan
      cases scan
      rfl
  | none =>
    rw [quoted] at scan
    simp only at scan
    cases cs with
    | nil => cases scan
    | cons c cs =>
      have digit := isDigit_of_numberLiteral (by rw [scan]; rfl)
      rw [List.cons_append, quotedLiteral_of_digit digit, ← List.cons_append]
      simp only
      rw [numberLiteral_append rest apart, scan]
      rfl

end

end Pegsmith.Source
