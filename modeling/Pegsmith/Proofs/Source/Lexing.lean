import Pegsmith.Proofs.Source.Literals

set_option autoImplicit false

namespace Pegsmith.Source

inductive Spells : List Piece → List Tree → Prop where
  | nil : Spells [] []
  | leaf {l : Leaf} {ps : List Piece} {ts : List Tree} (rest : Spells ps ts) :
      Spells (.leaf l :: ps) (l.tree :: ts)
  | mark {c : Char} {joint : Bool} {ps : List Piece} {ts : List Tree} (rest : Spells ps ts) :
      Spells (.mark c :: ps) (.mark c joint :: ts)
  | pair {c d : Char} {joint : Bool} {ps : List Piece} {ts : List Tree}
      (known : (c, d) ∈ typePairs) (rest : Spells ps ts) :
      Spells (.pair c d :: ps) (.mark c true :: .mark d joint :: ts)
  | group {d : Delimiter} {inner ps : List Piece} {is ts : List Tree} (inside : Spells inner is)
      (rest : Spells ps ts) : Spells (.group d inner :: ps) (.group d is :: ts)

theorem Spells.append_inv {ps qs : List Piece} {ts : List Tree} (spells : Spells (ps ++ qs) ts) :
    ∃ ps' qs', ts = ps' ++ qs' ∧ Spells ps ps' ∧ Spells qs qs' := by
  induction ps generalizing ts with
  | nil => exact ⟨[], ts, rfl, .nil, spells⟩
  | cons p ps ih =>
    cases spells with
    | leaf rest =>
      obtain ⟨ps', qs', rfl, first, second⟩ := ih rest
      exact ⟨_ :: ps', qs', rfl, .leaf first, second⟩
    | mark rest =>
      obtain ⟨ps', qs', rfl, first, second⟩ := ih rest
      exact ⟨_ :: ps', qs', rfl, .mark first, second⟩
    | pair known rest =>
      obtain ⟨ps', qs', rfl, first, second⟩ := ih rest
      exact ⟨_ :: _ :: ps', qs', rfl, .pair known first, second⟩
    | group inside rest =>
      obtain ⟨ps', qs', rfl, first, second⟩ := ih rest
      exact ⟨_ :: ps', qs', rfl, .group inside first, second⟩

theorem scanWord_word {c : Char} {cs rest : List Char} (starts : startsWord c)
    (word : ∀ x ∈ c :: cs, Text.continuesIdentifier x) (apart : Apart rest) :
    scanWord (c :: cs ++ rest) = some (c :: cs, rest) := by
  have start : Text.startsIdentifier c := by simp_all [startsWord]
  have whole : scanWord (c :: cs) = some (c :: cs, []) := by
    rw [scanWord, if_pos start, List.span_eq_takeWhile_dropWhile, List.takeWhile_eq_self_iff.mpr word,
      List.dropWhile_eq_nil_iff.mpr word]
  rw [scanWord_append apart, whole]
  rfl

theorem not_prefix_of_run {p : Char → Bool} {start w rest : List Char} (run : ∀ c ∈ w, p c)
    (apart : Apart rest) (foreign : start.any fun c => !p c)
    (bare : start.all fun c => decide (c ∉ wordEnds)) : ¬ start <+: w ++ rest := by
  intro leads
  obtain ⟨c, member, outside⟩ := List.any_eq_true.mp foreign
  have fails {c : Char} (outside : !p c) (member : c ∈ w) : False := by
    rw [run c member] at outside
    cases outside
  cases List.prefix_or_prefix_of_prefix leads (List.prefix_append w rest) with
  | inl short => exact fails outside (short.subset member)
  | inr long =>
    obtain ⟨tail, rfl⟩ := long
    have behind : tail <+: rest := (List.prefix_append_right_inj w).mp leads
    cases tail with
    | nil => exact fails outside (by simpa using member)
    | cons d tail =>
      obtain ⟨more, rfl⟩ := behind
      exact of_decide_eq_true (List.all_eq_true.mp bare d (by simp)) (apart d rfl)

theorem scanName_word {c : Char} {cs rest : List Char} (starts : startsWord c)
    (word : ∀ x ∈ c :: cs, Text.continuesIdentifier x) (apart : Apart rest) :
    scanName (c :: cs ++ rest) = some (c :: cs, rest) := by
  have plain : ¬ ['r', '#'] <+: c :: cs ++ rest :=
    not_prefix_of_run word apart (by decide) (by decide)
  rw [scanName]
  · exact scanWord_word starts word apart
  · intro more same
    exact plain ⟨more, by rw [same]; rfl⟩

theorem scanRaw_eq_none (kind : Quoted) {cs : List Char} (hash : ¬ ['#'] <+: cs)
    (quote : ¬ ['"'] <+: cs) : scanRaw kind cs = none := by
  cases cs with
  | nil => rfl
  | cons c cs =>
    have other : (c == '#') = false := by simpa using fun same : c = '#' => hash ⟨cs, by rw [same]; rfl⟩
    rw [scanRaw, List.span_eq_takeWhile_dropWhile, List.takeWhile_cons, List.dropWhile_cons, other]
    split
    · next same =>
      cases same
      exact absurd ⟨_, rfl⟩ quote
    · rfl

def quoteStarts : List (List Char) :=
  [['"'], ['\''], ['r', '"'], ['r', '#'], ['b', '"'], ['b', '\''], ['b', 'r', '"'], ['b', 'r', '#'],
    ['c', '"'], ['c', 'r', '"'], ['c', 'r', '#']]

theorem quotedLiteral_of_unquoted {cs : List Char}
    (unquoted : ∀ start ∈ quoteStarts, ¬ start <+: cs) : quotedLiteral cs = none := by
  have raw {kind : Quoted} (front : List Char) {rest : List Char} (same : cs = front ++ rest)
      (hash : front ++ ['#'] ∈ quoteStarts) (quote : front ++ ['"'] ∈ quoteStarts) :
      scanRaw kind rest = none := by
    subst same
    refine scanRaw_eq_none kind (fun leads => ?_) (fun leads => ?_)
    · exact unquoted _ hash ((List.prefix_append_right_inj front).mpr leads)
    · exact unquoted _ quote ((List.prefix_append_right_inj front).mpr leads)
  unfold quotedLiteral
  dsimp only
  split
  · exact absurd ⟨_, rfl⟩ (unquoted ['"'] (by decide))
  · rw [raw ['r'] rfl (by decide) (by decide)]
    rfl
  · exact absurd ⟨_, rfl⟩ (unquoted ['b', '"'] (by decide))
  · rw [raw ['b', 'r'] rfl (by decide) (by decide)]
    rfl
  · exact absurd ⟨_, rfl⟩ (unquoted ['c', '"'] (by decide))
  · rw [raw ['c', 'r'] rfl (by decide) (by decide)]
    rfl
  · exact absurd ⟨_, rfl⟩ (unquoted ['b', '\''] (by decide))
  · exact absurd ⟨_, rfl⟩ (unquoted ['\''] (by decide))
  · rfl

theorem isAscii_of_isDigit {c : Char} (digit : c.isDigit) : Text.isAscii c := by
  have bounds : 48 ≤ c.val ∧ c.val ≤ 57 := by simpa [Char.isDigit] using digit
  exact decide_eq_true (Nat.lt_of_le_of_lt (UInt32.le_iff_toNat_le.mp bounds.2) (by decide))

theorem scanLiteral_of_not_digit {c : Char} {cs : List Char}
    (unquoted : ∀ start ∈ quoteStarts, ¬ start <+: c :: cs) (digit : c.isDigit = false) :
    scanLiteral (c :: cs) = none := by
  rw [scanLiteral_eq, quotedLiteral_of_unquoted unquoted]
  cases number : numberLiteral (c :: cs) with
  | none => rfl
  | some found =>
    rw [isDigit_of_numberLiteral (by rw [number]; rfl)] at digit
    cases digit

theorem not_prefix_of_head {p : Char → Bool} {start cs : List Char} {c : Char}
    (head : start.head?.any p) (other : p c = false) : ¬ start <+: c :: cs := by
  rintro ⟨more, same⟩
  cases start with
  | nil => cases head
  | cons d start =>
    rw [← (List.cons.inj same).1] at other
    rw [List.head?_cons, Option.any_some, other] at head
    cases head

theorem not_isDigit_of_startsWord {c : Char} (starts : startsWord c) : c.isDigit = false := by
  cases digit : c.isDigit with
  | false => rfl
  | true =>
    have ascii := isAscii_of_isDigit digit
    have bounds : 48 ≤ c.val ∧ c.val ≤ 57 := by simpa [Char.isDigit] using digit
    have upper : c.isUpper = false := Bool.eq_false_iff.mpr fun is => by
      have range : 65 ≤ c.val ∧ c.val ≤ 90 := by simpa [Char.isUpper] using is
      exact absurd (UInt32.le_trans range.1 bounds.2) (by decide)
    have lower : c.isLower = false := Bool.eq_false_iff.mpr fun is => by
      have range : 97 ≤ c.val ∧ c.val ≤ 122 := by simpa [Char.isLower] using is
      exact absurd (UInt32.le_trans range.1 bounds.2) (by decide)
    have score : (c == '_') = false := beq_false_of_ne fun same => by rw [same] at digit; cases digit
    rw [startsWord, Text.startsIdentifier, if_pos ascii, Char.isAlpha, upper, lower, score] at starts
    cases starts

theorem startsMark_of_not_isMark {c : Char} (plain : isMark c = false) (cs : List Char) :
    startsMark (c :: cs) = false := by
  unfold startsMark
  split
  · rfl
  · rfl
  · next same => rw [← (List.cons.inj same).1, plain]
  · rfl

theorem startsMark_of_isMark {c : Char} (mark : isMark c) (slash : c ≠ '/') (cs : List Char) :
    startsMark (c :: cs) := by
  unfold startsMark
  split
  · next same => exact absurd (List.cons.inj same).1 slash
  · next same => exact absurd (List.cons.inj same).1 slash
  · next same => rw [← (List.cons.inj same).1, mark]
  · next same => cases same

theorem isMark_of_word {c : Char} (word : Text.continuesIdentifier c) : isMark c = false := by
  have marks : ∀ m ∈ "~!@#$%^&*-=+|;:,<.>/?'".toList, Text.continuesIdentifier m = false :=
    forall_mem_of_all (by decide +kernel)
  cases mark : isMark c with
  | false => rfl
  | true =>
    rw [marks c (List.contains_iff_mem.mp mark)] at word
    cases word

theorem opensQuoted_word {w rest : List Char} (word : ∀ c ∈ w, Text.continuesIdentifier c)
    (apart : Apart rest) : opensQuoted (w ++ rest) = false := by
  have starts : ∀ start ∈ ["r\"", "r#\"", "r##", "b\"", "b'", "br\"", "br#", "c\"", "cr\"", "cr#"],
      (start.toList.any fun c => !Text.continuesIdentifier c) ∧
        start.toList.all fun c => decide (c ∉ wordEnds) := by decide +kernel
  rw [opensQuoted, List.any_eq_false]
  intro start member leads
  obtain ⟨foreign, bare⟩ := starts start member
  exact not_prefix_of_run word apart foreign bare (List.isPrefixOf_iff_prefix.mp leads)

theorem scanLeaf_word {c : Char} {cs rest : List Char} (starts : startsWord c)
    (word : ∀ x ∈ c :: cs, Text.continuesIdentifier x) (apart : Apart rest) :
    scanLeaf (c :: cs ++ rest) = some (.word (String.ofList (c :: cs)), rest) := by
  have quotes : ∀ start ∈ quoteStarts, (start.any fun c => !Text.continuesIdentifier c) ∧
      start.all fun c => decide (c ∉ wordEnds) := by decide
  have literal : scanLiteral (c :: cs ++ rest) = none :=
    scanLiteral_of_not_digit (fun start member =>
      not_prefix_of_run word apart (quotes start member).1 (quotes start member).2)
      (not_isDigit_of_startsWord starts)
  have quote : c ≠ '\'' := by
    rintro rfl
    exact absurd (word '\'' List.mem_cons_self) (by decide)
  have plain : startsMark (c :: (cs ++ rest)) = false :=
    startsMark_of_not_isMark (isMark_of_word (word c List.mem_cons_self)) _
  unfold scanLeaf
  rw [literal, List.cons_append]
  simp only
  rw [plain, if_neg Bool.false_ne_true, ← List.cons_append, opensQuoted_word word apart,
    if_neg Bool.false_ne_true, scanName_word starts word apart]
  rfl

theorem scanLeaf_lifetime {c : Char} {cs rest : List Char} (starts : startsWord c)
    (word : ∀ x ∈ c :: cs, Text.continuesIdentifier x) (apart : Apart rest) :
    scanLeaf ('\'' :: (c :: cs ++ rest)) = some (.lifetime (String.ofList (c :: cs)), rest) := by
  -- No quote stands behind the first letter, so this is no character.
  have single : scanSingle .text (c :: cs ++ rest) = none := by
    have escape : c ≠ '\\' := by
      rintro rfl
      exact absurd (word '\\' List.mem_cons_self) (by decide)
    have ends : ∀ c ∈ wordEnds, Text.continuesIdentifier c = false := forall_mem_of_all (by decide)
    have plain : c ∉ wordEnds := fun member => by
      have here := word c List.mem_cons_self
      rw [ends c member] at here
      cases here
    have quote : Text.continuesIdentifier '\'' = false := by decide
    have closed : ¬ [c, '\''] <+: c :: cs ++ rest :=
      not_prefix_of_run word apart (by simp [quote]) (by simpa using ⟨plain, by decide⟩)
    unfold scanSingle
    split
    · next same => exact absurd (List.cons.inj same).1 escape
    · next same => exact absurd ⟨_, congrArg (c :: ·) (List.cons.inj same).2.symm⟩ closed
    · rfl
  have literal : scanLiteral ('\'' :: (c :: cs ++ rest)) = none := by
    unfold scanLiteral
    simp only [single]
    rfl
  have lifetime : scanLifetime (c :: cs ++ rest) = some (c :: cs, rest) := by
    rw [scanLifetime, scanName_word starts word apart]
    cases rest with
    | nil => rfl
    | cons d rest =>
      have other : ∀ d ∈ wordEnds, d ≠ '\'' ∧ d ≠ '#' := forall_mem_of_all (by decide)
      obtain ⟨quote, hash⟩ := other d (apart d rfl)
      simp only [List.head?_cons]
      split <;> simp_all
  unfold scanLeaf
  rw [literal]
  simp only [lifetime]
  rfl

theorem scanLeaf_leaf {l : Leaf} (valid : l.isValid) {rest : List Char} (apart : Apart rest) :
    scanLeaf (l.text.toList ++ rest) = some (l.tree, rest) := by
  cases l with
  | word w =>
    obtain ⟨c, cs, same, starts, word⟩ := isWord_iff.mp valid
    rw [Leaf.text, same, scanLeaf_word starts word apart, ← same, String.ofList_toList, Leaf.tree]
  | lifetime name =>
    obtain ⟨c, cs, same, starts, word⟩ := isWord_iff.mp valid
    have quoted : (Leaf.lifetime name).text.toList = '\'' :: c :: cs := by
      rw [Leaf.text, String.toList_append, same]
      rfl
    rw [quoted, List.cons_append, scanLeaf_lifetime starts word apart, ← same,
      String.ofList_toList, Leaf.tree]
  | literal kind text =>
    have scan := scanLiteral_append rest apart (isLiteral_iff.mp valid).2
    unfold scanLeaf
    rw [Leaf.text, scan]
    simp only
    rw [String.ofList_toList, Leaf.tree]
    rfl

structure StartsTree (c : Char) : Prop where
  notBlank : isSourceBlank c = false
  notOrderMark : c.toNat ≠ 0xFEFF
  notComment : c ≠ '/'
  notOpen : openDelimiter? c = none
  notClose : closeDelimiter? c = none

theorem scanComment_eq_none {c : Char} (other : c ≠ '/') (cs : List Char) :
    scanComment (c :: cs) = none := by
  rw [scanComment]
  all_goals
    rintro more same
    exact other (List.cons.inj same).1

section

variable (fuel : Nat) (stack : List (Delimiter × List Tree)) (trees : List Tree) (cs : List Char)

theorem scanTrees_end : scanTrees fuel [] trees [] = some trees.reverse := by
  rw [scanTrees.eq_def]

theorem scanTrees_blank {c : Char} (known : c ∈ blanks) :
    scanTrees (fuel + 1) stack trees (c :: cs) = scanTrees fuel stack trees cs := by
  have sourceBlanks : ∀ c ∈ blanks, isSourceBlank c := forall_mem_of_all (by decide)
  rw [scanTrees.eq_def]
  cases stack <;> exact if_pos (sourceBlanks c known)

theorem scanTrees_leaf {c : Char} {rest : List Char} {t : Tree} (starts : StartsTree c)
    (leaf : scanLeaf (c :: cs) = some (t, rest)) :
    scanTrees (fuel + 1) stack trees (c :: cs) = scanTrees fuel stack (t :: trees) rest := by
  rw [scanTrees.eq_def]
  cases stack <;> simp only [starts.notBlank, Bool.false_eq_true, if_false,
    scanComment_eq_none starts.notComment, starts.notOpen, starts.notClose, leaf]

theorem scanTrees_open (d : Delimiter) :
    scanTrees (fuel + 1) stack trees (openChar d :: cs) =
      scanTrees fuel ((d, trees) :: stack) [] cs := by
  have shape : isSourceBlank (openChar d) = false ∧ openChar d ≠ '/' ∧
      openDelimiter? (openChar d) = some d := by cases d <;> decide
  rw [scanTrees.eq_def]
  cases stack <;> simp only [shape.1, Bool.false_eq_true, if_false, scanComment_eq_none shape.2.1,
    shape.2.2]

theorem scanTrees_close (d : Delimiter) (outer : List Tree) :
    scanTrees (fuel + 1) ((d, outer) :: stack) trees (closeChar d :: cs) =
      scanTrees fuel stack (.group d trees.reverse :: outer) cs := by
  have shape : isSourceBlank (closeChar d) = false ∧ closeChar d ≠ '/' ∧
      openDelimiter? (closeChar d) = none ∧ closeDelimiter? (closeChar d) = some d := by
    cases d <;> decide
  rw [scanTrees.eq_def]
  simp only [shape.1, Bool.false_eq_true, if_false, scanComment_eq_none shape.2.1, shape.2.2.1,
    shape.2.2.2, if_true]

end

theorem startsTree_of_not_mem {c : Char} (blank : isSourceBlank c = false)
    (orderMark : c.toNat ≠ 0xFEFF) (other : c ∉ ['/', '(', '[', '\x7b', ')', ']', '\x7d']) : StartsTree c := by
  simp only [List.mem_cons, not_or, List.not_mem_nil, not_false_iff, and_true] at other
  refine ⟨blank, orderMark, other.1, ?_, ?_⟩
  · unfold openDelimiter?
    split <;> simp_all
  · unfold closeDelimiter?
    split <;> simp_all

theorem startsTree_word {c : Char} (starts : startsWord c) : StartsTree c := by
  have other : ∀ d ∈ ['/', '(', '[', '\x7b', ')', ']', '\x7d'], startsWord d = false :=
    forall_mem_of_all (by decide)
  refine startsTree_of_not_mem (by simp_all [startsWord]) (by simp_all [startsWord])
    fun member => ?_
  rw [other c member] at starts
  cases starts

theorem startsTree_digit {c : Char} (digit : c.isDigit) : StartsTree c := by
  have other : ∀ d ∈ ['/', '(', '[', '\x7b', ')', ']', '\x7d'], d.isDigit = false :=
    forall_mem_of_all (by decide)
  have bounds : 48 ≤ c.val ∧ c.val ≤ 57 := by simpa [Char.isDigit] using digit
  have least : 48 ≤ c.toNat := UInt32.le_iff_toNat_le.mp bounds.1
  have most : c.toNat ≤ 57 := UInt32.le_iff_toNat_le.mp bounds.2
  refine startsTree_of_not_mem ?_ (by omega) fun member => ?_
  · simp [isSourceBlank, Text.isBlank]
    omega
  · rw [other c member] at digit
    cases digit

theorem startsTree_literal {c : Char} {cs : List Char}
    {found : LiteralKind × List Char × List Char} (scan : scanLiteral (c :: cs) = some found) :
    StartsTree c := by
  by_cases quote : c ∈ ['"', '\'', 'r', 'b', 'c']
  · have quotes : ∀ c ∈ ['"', '\'', 'r', 'b', 'c'], isSourceBlank c = false ∧ c.toNat ≠ 0xFEFF ∧
        c ∉ ['/', '(', '[', '\x7b', ')', ']', '\x7d'] := forall_mem_of_all (by decide)
    obtain ⟨blank, orderMark, other⟩ := quotes c quote
    exact startsTree_of_not_mem blank orderMark other
  · have heads : ∀ start ∈ quoteStarts,
        start.head?.any fun x => decide (x ∈ ['"', '\'', 'r', 'b', 'c']) := by decide
    have unquoted (start : List Char) (member : start ∈ quoteStarts) : ¬ start <+: c :: cs :=
      not_prefix_of_head (heads start member) (decide_eq_false quote)
    cases digit : c.isDigit with
    | true => exact startsTree_digit digit
    | false =>
      rw [scanLiteral_of_not_digit unquoted digit] at scan
      cases scan

theorem startsTree_leaf {l : Leaf} (valid : l.isValid) :
    ∃ c cs, l.text.toList = c :: cs ∧ StartsTree c := by
  cases l with
  | word w =>
    obtain ⟨c, cs, same, starts, -⟩ := isWord_iff.mp valid
    exact ⟨c, cs, same, startsTree_word starts⟩
  | lifetime name =>
    exact ⟨'\'', name.toList, by rw [Leaf.text, String.toList_append]; rfl,
      startsTree_of_not_mem (by decide) (by decide) (by decide)⟩
  | literal kind text =>
    obtain ⟨solid, scan⟩ := isLiteral_iff.mp valid
    obtain ⟨c, cs, same⟩ := List.exists_cons_of_ne_nil solid.toList_ne_nil
    rw [same] at scan
    exact ⟨c, cs, same, startsTree_literal scan⟩

theorem startsTree_mark {c : Char} (known : c ∈ typeMarks) : StartsTree c := by
  have marks : ∀ c ∈ typeMarks, isSourceBlank c = false ∧ c.toNat ≠ 0xFEFF ∧
      c ∉ ['/', '(', '[', '\x7b', ')', ']', '\x7d'] := forall_mem_of_all (by decide)
  obtain ⟨blank, orderMark, other⟩ := marks c known
  exact startsTree_of_not_mem blank orderMark other

theorem scanLeaf_mark {c : Char} (known : c ∈ typeMarks) (rest : List Char) :
    scanLeaf (c :: rest) = some (.mark c (startsMark rest), rest) := by
  have marks : ∀ c ∈ typeMarks, c ≠ '\'' ∧ c.isDigit = false ∧ isMark c ∧ c ≠ '/' ∧
      ∀ start ∈ quoteStarts, start.head?.any fun x => x != c :=
    forall_mem_of_all (by decide +kernel)
  obtain ⟨quote, digit, mark, slash, heads⟩ := marks c known
  have literal : scanLiteral (c :: rest) = none :=
    scanLiteral_of_not_digit
      (fun start member => not_prefix_of_head (heads start member) (bne_self_eq_false c)) digit
  unfold scanLeaf
  rw [literal]
  simp only
  rw [startsMark_of_isMark mark slash, if_pos rfl]

theorem Apart.append {cs rest : List Char} (first : Apart cs) (second : Apart rest) :
    Apart (cs ++ rest) := by
  cases cs with
  | nil => exact second
  | cons c cs => exact first

theorem Laid.scans {ps : List Piece} {cs : List Char} (laid : Laid ps cs) {rest : List Char}
    (apart : Apart rest) :
    ∃ ts, Spells ps ts ∧ ∃ steps ≤ cs.length, ∀ fuel stack trees,
      scanTrees (fuel + steps) stack trees (cs ++ rest) =
        scanTrees fuel stack (ts.reverse ++ trees) rest := by
  induction laid generalizing rest with
  | nil => exact ⟨[], .nil, 0, Nat.le_refl _, fun _ _ _ => rfl⟩
  | blank known _ ih =>
    obtain ⟨ts, spells, steps, bound, scan⟩ := ih apart
    refine ⟨ts, spells, steps + 1, Nat.succ_le_succ bound, fun fuel stack trees => ?_⟩
    rw [List.cons_append, ← Nat.add_assoc, scanTrees_blank _ _ _ _ known, scan]
  | @leaf l ps cs valid ends _ ih =>
    obtain ⟨ts, spells, steps, bound, scan⟩ := ih apart
    obtain ⟨c, more, same, starts⟩ := startsTree_leaf valid
    have leaf := scanLeaf_leaf valid (ends.append apart)
    refine ⟨l.tree :: ts, .leaf spells, steps + 1, ?_, fun fuel stack trees => ?_⟩
    · rw [same, List.cons_append, List.length_cons, List.length_append]
      omega
    · rw [same, List.cons_append] at leaf
      rw [same, List.cons_append, List.cons_append, List.append_assoc, ← Nat.add_assoc,
        scanTrees_leaf _ _ _ _ starts leaf, scan]
      simp
  | @mark c ps cs known _ ih =>
    obtain ⟨ts, spells, steps, bound, scan⟩ := ih apart
    refine ⟨.mark c (startsMark (cs ++ rest)) :: ts, .mark spells, steps + 1,
      Nat.succ_le_succ bound, fun fuel stack trees => ?_⟩
    rw [List.cons_append, ← Nat.add_assoc,
      scanTrees_leaf _ _ _ _ (startsTree_mark known) (scanLeaf_mark known _), scan]
    simp
  | @pair c d ps cs known _ ih =>
    obtain ⟨ts, spells, steps, bound, scan⟩ := ih apart
    have marks : ∀ p ∈ typePairs, p.1 ∈ typeMarks ∧ p.2 ∈ typeMarks ∧
        isMark p.2 ∧ p.2 ≠ '/' := by decide +kernel
    obtain ⟨first, second, mark, slash⟩ := marks (c, d) known
    refine ⟨.mark c true :: .mark d (startsMark (cs ++ rest)) :: ts, .pair known spells, steps + 2,
      Nat.add_le_add_right bound 2, fun fuel stack trees => ?_⟩
    have leaf := scanLeaf_mark first (d :: (cs ++ rest))
    rw [startsMark_of_isMark mark slash] at leaf
    rw [List.cons_append, List.cons_append, ← Nat.add_assoc,
      scanTrees_leaf _ _ _ _ (startsTree_mark first) leaf,
      scanTrees_leaf _ _ _ _ (startsTree_mark second) (scanLeaf_mark second _), scan]
    simp
  | @group d inner ps is cs bare _ _ ihInner ih =>
    have closes : Apart (closeChar d :: (cs ++ rest)) := by
      cases d with
      | paren => simp [Apart, closeChar, wordEnds, blanks]
      | bracket => simp [Apart, closeChar, wordEnds, blanks]
      | brace => exact absurd rfl bare
    -- One step for each delimiter; in between, the inside is read with this group on the stack.
    obtain ⟨inside, spellsInside, stepsInside, boundInside, scanInside⟩ := ihInner closes
    obtain ⟨ts, spells, steps, bound, scan⟩ := ih apart
    refine ⟨.group d inside :: ts, .group spellsInside spells, steps + 1 + stepsInside + 1, ?_,
      fun fuel stack trees => ?_⟩
    · rw [List.length_cons, List.length_append, List.length_cons]
      omega
    · rw [List.cons_append, List.append_assoc, List.cons_append, ← Nat.add_assoc, scanTrees_open,
        ← Nat.add_assoc, scanInside, ← Nat.add_assoc, scanTrees_close, scan]
      simp

theorem Laid.not_orderMark {ps : List Piece} {cs : List Char} (laid : Laid ps cs) :
    ∀ c ∈ cs.head?, c.toNat ≠ 0xFEFF := by
  cases laid with
  | nil => exact nofun
  | @blank c _ _ known =>
    have blanks : ∀ c ∈ blanks, c.toNat ≠ 0xFEFF := forall_mem_of_all (by decide)
    simpa using blanks c known
  | leaf valid _ _ =>
    obtain ⟨c, more, same, starts⟩ := startsTree_leaf valid
    simpa [same] using starts.notOrderMark
  | mark known _ => simpa using (startsTree_mark known).notOrderMark
  | pair known _ =>
    have marks : ∀ p ∈ typePairs, p.1.toNat ≠ 0xFEFF := by decide
    simpa using marks _ known
  | @group d => cases d <;> simp [openChar]

theorem trees?_of_laid {text : String} {ps : List Piece} (laid : Laid ps text.toList) :
    ∃ ts, Spells ps ts ∧ trees? text = some ts := by
  have ended : Apart [] := nofun
  obtain ⟨ts, spells, steps, bound, scan⟩ := laid.scans ended
  refine ⟨ts, spells, ?_⟩
  have fuel := scan (text.toList.length - steps) [] []
  rw [Nat.sub_add_cancel bound, List.append_nil, List.append_nil, scanTrees_end,
    List.reverse_reverse] at fuel
  have start := laid.not_orderMark
  unfold trees?
  cases whole : text.toList with
  | nil => rwa [whole] at fuel
  | cons c cs =>
    rw [whole] at fuel start
    simp only [if_neg (start c rfl)]
    exact fuel

end Pegsmith.Source
