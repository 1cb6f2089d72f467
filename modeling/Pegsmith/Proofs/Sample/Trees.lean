import Pegsmith.Proofs.Pattern.Lexemes
import Pegsmith.Proofs.Sample.Evaluation
import Pegsmith.Sample.SyntaxTree

set_option autoImplicit false

namespace Pegsmith.Sample

open Parsing Arithmetic

namespace Arithmetic

def Derivation.tree {level : Level} : Derivation level → SyntaxTree
  | .operation left sign right => .binary left.tree sign.lexeme.kind right.tree
  | .term only | .primary only => only.tree
  | .negated inner => .negate inner.tree
  | .number digits => .number (greatest digits)
  | .bracketed inner => inner.tree

theorem Derivation.evaluate_tree {level : Level} (d : Derivation level) :
    d.tree.evaluate = d.value := by
  induction d with
  | operation left sign right ihLeft ihRight =>
    rw [tree, SyntaxTree.evaluate, ihLeft, ihRight, value]
    exact Calculator.binary_sign left.value right.value sign
  | term only ih | primary only ih => exact ih
  | negated inner ih => exact congrArg (-·) ih
  | number digits => rfl
  | bracketed inner ih => exact ih

theorem Splits.mono {isBlank wider : Char → Bool} {cs : List Char} {xs : List Lexeme}
    (more : ∀ c, isBlank c = true → wider c = true) (splits : Splits isBlank cs xs) :
    Splits wider cs xs := by
  induction splits with
  | nil => exact .nil
  | blank blank _ ih => exact .blank (more _ blank) ih
  | symbol member _ ih => exact .symbol member ih
  | number filled all _ ih => exact .number filled all ih

end Arithmetic

namespace SyntaxTree

variable {text : List Char} {u w : Tape}

theorem blanksApart : BlanksApart Text.isBlank := by
  intro c blank
  constructor
  · rw [← Bool.not_eq_true, Pattern.isDigit_iff]
    simp only [Text.isBlank, Bool.or_eq_true, Bool.and_eq_true, decide_eq_true_eq,
      beq_iff_eq] at blank
    omega
  · intro x member same
    simp only [Lexeme.symbols, List.mem_cons, List.not_mem_nil, or_false] at member
    rcases member with rfl | rfl | rfl | rfl <;> cases same <;> exact absurd blank (by decide)

theorem describes :
    Describes rules (.optional (read "expression") .default) Derivation.tree where
  inside := .inr rfl
  expression := ⟨_, _, rfl, fun left sign right s => ⟨s, rfl⟩, fun only s => ⟨s, rfl⟩⟩
  term := ⟨_, _, rfl, fun inner s => ⟨s, rfl⟩, fun only s => ⟨s, rfl⟩⟩
  primary := by
    refine ⟨_, _, rfl, fun token s => ⟨s, ?_⟩, fun inner s => ⟨s, rfl⟩⟩
    rw [Derivation.tree, ← integer_eq_greatest]
    rfl

theorem parse_of_spells {d : Derivation .expression}
    (spells : Spells rules.lexer ⟨text, 0⟩ d.lexemes u)
    (last : rules.lexer.next u = (.ok none, w)) (short : Text.byteSize text < offsetLimit) :
    rules.parse "expression" ⟨text, 0⟩ () = (.ok (.own d.tree), u, ()) := by
  have stops : Stops rules.lexer .expression u := fun _ sign => Lexer.refuses_of_end last _
  have gives (n : Nat) (enough : d.height ≤ n) :=
    describes.gives d (Tape.within_start text) spells stops enough
  obtain ⟨⟨⟩, parsed⟩ := regular.parse_of_gives (Tape.within_start text) short gives ()
  exact parsed

/-- What the calculator gives for a text is the value of the tree that is parsed from it. -/
theorem parse_eq_of_evaluate {converted : Nat} {v : Value Int64}
    (short : Text.byteSize text < offsetLimit)
    (answered : (Calculator.evaluate text converted).1 = .ok v) :
    ∃ tree, parse text = .ok (.own tree) ∧ v = .own tree.evaluate := by
  -- What the calculator has read splits with fewer blanks, so it does with all.
  obtain ⟨d, narrow, rfl⟩ := Calculator.exists_of_evaluate short answered
  have blanks (c : Char) (blank : Calculator.isBlank c = true) : Text.isBlank c = true := by
    simp only [Calculator.isBlank, Bool.or_eq_true, beq_iff_eq] at blank
    rcases blank with rfl | rfl <;> rfl
  obtain ⟨tokens, w, ⟨u, takes, last⟩, same⟩ :=
    reads_of_splits blanksApart (narrow.mono blanks) d.spaced_lexemes []
  have parsed : rules.parse "expression" ⟨text, 0⟩ () = (.ok (.own d.tree), u, ()) :=
    parse_of_spells ⟨tokens, takes, same⟩ last short
  refine ⟨d.tree, ?_, by rw [d.evaluate_tree]⟩
  rw [parse, parsed]

theorem parse_eq_of_evaluate_nested :
    Text.byteSize "(2 - 4) - -(3)".toList < offsetLimit ∧
      (Calculator.evaluate "(2 - 4) - -(3)".toList 0).1 = .ok (.own 1) ∧
      ∃ tree, parse "(2 - 4) - -(3)".toList = .ok (.own tree) ∧ tree.evaluate = 1 := by
  have short : Text.byteSize "(2 - 4) - -(3)".toList < offsetLimit := by decide +kernel
  have answered : (Calculator.evaluate "(2 - 4) - -(3)".toList 0).1 = .ok (.own 1) := by cbv
  obtain ⟨tree, parsed, same⟩ := parse_eq_of_evaluate short answered
  exact ⟨short, answered, tree, parsed, (Value.own.inj same).symm⟩

end SyntaxTree

namespace Arithmetic

variable {isBlank : Char → Bool} {gap : Nat → List Char} {cs : List Char} {xs : List Lexeme}

/-- Lexemes one after the other, with a gap before each and behind the last. -/
def layOut (gap : Nat → List Char) : List Lexeme → List Char
  | [] => gap 0
  | x :: xs => gap 0 ++ (x.text ++ layOut (fun i => gap (i + 1)) xs)

def Lexeme.IsWord (x : Lexeme) : Prop :=
  x ∈ symbols ∨ ∃ digits, x = number digits ∧ digits ≠ [] ∧ ∀ d ∈ digits, d.isDigit = true

theorem splits_layOut (blank : ∀ i, ∀ c ∈ gap i, isBlank c = true)
    (words : ∀ x ∈ xs, x.IsWord) : Splits isBlank (layOut gap xs) xs := by
  induction xs generalizing gap with
  | nil =>
    have blanks := Splits.blanks (blank 0) (.nil : Splits isBlank [] [])
    rwa [List.append_nil] at blanks
  | cons x xs ih =>
    obtain ⟨word, words⟩ := List.forall_mem_cons.mp words
    have rest := ih (fun i => blank (i + 1)) words
    refine .blanks (blank 0) ?_
    rcases word with symbol | ⟨digits, rfl, filled, all⟩
    · exact .symbol symbol rest
    · exact .number filled all rest

theorem next_gap (apart : BlanksApart isBlank) {front : List Char}
    (all : ∀ c ∈ front, isBlank c = true) (read cs : List Char) :
    (lexer isBlank).next (Tape.between read (front ++ cs)) =
      (lexer isBlank).next (Tape.between (read ++ front) cs) := by
  induction front generalizing read with
  | nil => rw [List.append_nil, List.nil_append]
  | cons c front ih =>
    obtain ⟨blank, all⟩ := List.forall_mem_cons.mp all
    rw [List.cons_append, next_blank apart blank, ih all, List.append_assoc, List.singleton_append]

theorem next_word (apart : BlanksApart isBlank) {x : Lexeme} (word : x.IsWord)
    (splits : Splits isBlank cs xs) (spaced : Spaced (x :: xs)) (read : List Char) :
    (lexer isBlank).next (Tape.between read (x.text ++ cs)) =
      (.ok (some ⟨x.kind, x.text, Text.byteSize read⟩), Tape.between (read ++ x.text) cs) := by
  rcases word with symbol | ⟨front, rfl, filled, all⟩
  · exact Lexer.next_token (isFirst_symbol symbol cs) rfl
  · -- Behind a number there is a symbol or nothing, so it ends where it is said to.
    have symbol := (List.isChain_cons.mp spaced).1
    have stops := splits.ends_number apart fun y next => symbol y next rfl
    exact Lexer.next_token (isFirst_digits filled all stops) rfl

theorem spells_layOut (apart : BlanksApart isBlank) (blank : ∀ i, ∀ c ∈ gap i, isBlank c = true)
    (words : ∀ x ∈ xs, x.IsWord) (spaced : Spaced xs) (read : List Char) :
    ∃ front, layOut gap xs = front ++ gap xs.length ∧
      Spells (lexer isBlank) (Tape.between read (layOut gap xs)) xs
        (Tape.between (read ++ front) (gap xs.length)) := by
  induction xs generalizing gap read with
  | nil =>
    refine ⟨[], rfl, [], ?_, rfl⟩
    rw [List.append_nil]
    exact .nil _
  | cons x xs ih =>
    obtain ⟨word, words⟩ := List.forall_mem_cons.mp words
    have later (i : Nat) : ∀ c ∈ gap (i + 1), isBlank c = true := blank (i + 1)
    obtain ⟨front, whole, rest⟩ :=
      ih later words (List.isChain_cons.mp spaced).2 (read ++ gap 0 ++ x.text)
    have called := next_word apart word (splits_layOut later words) spaced (read ++ gap 0)
    rw [← next_gap apart (blank 0)] at called
    refine ⟨gap 0 ++ (x.text ++ front), ?_, Spells.cons_iff.mpr ⟨_, _, called, rfl, ?_⟩⟩
    · rw [layOut, whole, List.append_assoc, List.append_assoc]
      rfl
    · rwa [← List.append_assoc read, ← List.append_assoc (read ++ gap 0)]

end Arithmetic

namespace SyntaxTree

/-- The numbers are not negative, and the operators are signs. -/
def IsWritable : SyntaxTree → Prop
  | .number n => 0 ≤ n
  | .negate operand => operand.IsWritable
  | .binary left operator right =>
      (operator = "Plus" ∨ operator = "Minus") ∧ left.IsWritable ∧ right.IsWritable

def enclosed (xs : List Lexeme) : SyntaxTree → List Lexeme
  | .binary _ _ _ => .leftParen :: (xs ++ [.rightParen])
  | _ => xs

/-- What a tree is written as. An operation on the right of another one needs no parentheses. -/
def lexemes : SyntaxTree → List Lexeme
  | .number n => [.number (Nat.toDigits 10 n.toInt.toNat)]
  | .negate operand => .minus :: operand.enclosed operand.lexemes
  | .binary left operator right =>
      left.enclosed left.lexemes ++
        (if operator = "Minus" then .minus else .plus) :: right.lexemes

theorem exists_sign {operator : String} (known : operator = "Plus" ∨ operator = "Minus") :
    ∃ sign : Sign, sign.lexeme.kind = operator ∧
      (if operator = "Minus" then Lexeme.minus else Lexeme.plus) = sign.lexeme := by
  rcases known with rfl | rfl
  · exact ⟨.plus, rfl, by decide⟩
  · exact ⟨.minus, rfl, by decide⟩

theorem words_enclosed {tree : SyntaxTree} {xs : List Lexeme} (words : ∀ x ∈ xs, x.IsWord) :
    ∀ x ∈ tree.enclosed xs, x.IsWord := by
  cases tree with
  | number | negate => exact words
  | binary =>
    have brackets : Lexeme.leftParen.IsWord ∧ Lexeme.rightParen.IsWord :=
      ⟨.inl (by decide), .inl (by decide)⟩
    simpa [enclosed, or_imp, forall_and, brackets] using words

theorem words_lexemes (tree : SyntaxTree) : ∀ x ∈ tree.lexemes, x.IsWord := by
  induction tree with
  | number n =>
    have digits : ∀ d ∈ Nat.toDigits 10 n.toInt.toNat, d.isDigit = true :=
      fun d member => Nat.isDigit_of_mem_toDigits (by decide) (by decide) member
    exact List.forall_mem_singleton.mpr (.inr ⟨_, rfl, Nat.toDigits_ne_nil, digits⟩)
  | negate operand ih =>
    exact List.forall_mem_cons.mpr ⟨.inl (by decide), words_enclosed ih⟩
  | binary left operator right ihLeft ihRight =>
    refine List.forall_mem_append.mpr ⟨words_enclosed ihLeft, ?_⟩
    refine List.forall_mem_cons.mpr ⟨?_, ihRight⟩
    split <;> exact .inl (by decide)

theorem greatest_toDigits {n : Int64} (natural : 0 ≤ n) :
    greatest (Nat.toDigits 10 n.toInt.toNat) = n := by
  have bound : 0 ≤ n.toInt := Int64.le_iff_toInt_le.mp natural
  have size : (n.toInt.toNat : Int) = n.toInt := Int.toNat_of_nonneg bound
  rw [greatest, Nat.ofDigitChars_toDigits (by decide) (by decide), if_pos (size ▸ n.toInt_le),
    ← Int64.ofInt_eq_ofNat, size, Int64.ofInt_toInt]

theorem exists_derivations {tree : SyntaxTree} (writable : tree.IsWritable) :
    (∃ d : Derivation .expression, d.lexemes = tree.lexemes ∧ d.tree = tree) ∧
      ∃ d : Derivation .term, d.lexemes = tree.enclosed tree.lexemes ∧ d.tree = tree := by
  -- A left operand has to be a term, and the right one may be any expression.
  induction tree with
  | number n =>
    let d : Derivation .term := .primary (.number (Nat.toDigits 10 n.toInt.toNat))
    have same : d.tree = .number n := congrArg SyntaxTree.number (greatest_toDigits writable)
    exact ⟨⟨.term d, rfl, same⟩, ⟨d, rfl, same⟩⟩
  | negate operand ih =>
    obtain ⟨-, d, spelled, built⟩ := ih writable
    have spelled : (Derivation.negated d).lexemes = (negate operand).lexemes :=
      congrArg (Lexeme.minus :: ·) spelled
    have built : (Derivation.negated d).tree = .negate operand := congrArg SyntaxTree.negate built
    exact ⟨⟨.term (.negated d), spelled, built⟩, ⟨.negated d, spelled, built⟩⟩
  | binary left operator right ihLeft ihRight =>
    obtain ⟨known, writableLeft, writableRight⟩ := writable
    obtain ⟨sign, rfl, written⟩ := exists_sign known
    obtain ⟨-, l, spelledLeft, builtLeft⟩ := ihLeft writableLeft
    obtain ⟨⟨r, spelledRight, builtRight⟩, -⟩ := ihRight writableRight
    let d : Derivation .expression := .operation l sign r
    have spelled : d.lexemes = (binary left sign.lexeme.kind right).lexemes := by
      rw [Derivation.lexemes, lexemes, written, spelledLeft, spelledRight]
    have built : d.tree = .binary left sign.lexeme.kind right := by
      rw [Derivation.tree, builtLeft, builtRight]
    refine ⟨⟨d, spelled, built⟩, ⟨.primary (.bracketed d), ?_, built⟩⟩
    rw [Derivation.lexemes, Derivation.lexemes, spelled]
    rfl

/-- A tree that is written with blanks anywhere between its lexemes is read back, up to the end of
its last lexeme. -/
theorem parse_layOut {tree : SyntaxTree} {gap : Nat → List Char} (writable : tree.IsWritable)
    (blank : ∀ i, ∀ c ∈ gap i, Text.isBlank c = true)
    (short : Text.byteSize (layOut gap tree.lexemes) < offsetLimit) :
    parse (layOut gap tree.lexemes) = .ok (.own tree) ∧
      ∃ read, layOut gap tree.lexemes = read ++ gap tree.lexemes.length ∧
        rules.parse "expression" ⟨layOut gap tree.lexemes, 0⟩ () =
          (.ok (.own tree), Tape.between read (gap tree.lexemes.length), ()) := by
  obtain ⟨⟨d, spelled, built⟩, -⟩ := exists_derivations writable
  have spaced : Spaced tree.lexemes := spelled ▸ d.spaced_lexemes
  obtain ⟨read, whole, spells⟩ := spells_layOut blanksApart blank tree.words_lexemes spaced []
  have last := next_gap blanksApart (blank tree.lexemes.length) read []
  rw [List.append_nil, Lexer.next_end] at last
  have derived : Spells rules.lexer ⟨layOut gap tree.lexemes, 0⟩ d.lexemes
      (Tape.between read (gap tree.lexemes.length)) := by
    rw [spelled]
    exact spells
  have parsed := parse_of_spells derived last short
  rw [built] at parsed
  exact ⟨congrArg Prod.fst parsed, read, whole, parsed⟩

def mixedTree : SyntaxTree :=
  .binary (.binary (.number 1) "Plus" (.negate (.number 20))) "Minus"
    (.binary (.negate (.binary (.number 3) "Minus" (.number 4))) "Plus" (.number 0))

def mixedGap (i : Nat) : List Char :=
  if i % 3 = 0 then ['\n', ' '] else if i % 3 = 1 then [] else [' ']

example : layOut mixedGap mixedTree.lexemes =
    "\n (1 +\n -20 )\n -- (\n 3- 4\n )+ 0\n ".toList := by decide

theorem parse_layOut_mixed :
    mixedTree.IsWritable ∧ (∀ i, ∀ c ∈ mixedGap i, Text.isBlank c = true) ∧
      Text.byteSize (layOut mixedGap mixedTree.lexemes) < offsetLimit ∧
      parse (layOut mixedGap mixedTree.lexemes) = .ok (.own mixedTree) := by
  have writable : mixedTree.IsWritable := by simp [mixedTree, IsWritable]
  have blank (i : Nat) : ∀ c ∈ mixedGap i, Text.isBlank c = true := by
    unfold mixedGap
    split
    · simp [Text.isBlank]
    · split <;> simp [Text.isBlank]
  have short : Text.byteSize (layOut mixedGap mixedTree.lexemes) < offsetLimit := by
    decide +kernel
  exact ⟨writable, blank, short, (parse_layOut writable blank short).1⟩

end SyntaxTree

end Pegsmith.Sample
