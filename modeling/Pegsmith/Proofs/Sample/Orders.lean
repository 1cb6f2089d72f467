import Pegsmith.Proofs.Parsing.Halting
import Pegsmith.Proofs.Sample.Languages
import Pegsmith.Proofs.Sample.Separated

set_option autoImplicit false

namespace Pegsmith.Sample.Items

open Parsing
open Arithmetic (Lexeme Spells)

structure Written where
  number : UInt32
  before : List Char
  digits : List Char
  behind : List Char
  filled : digits ≠ []
  decimals : ∀ c ∈ digits, c.isDigit = true
  reads : decimal digits = number.toNat
  blank_before : ∀ c ∈ before, c = ' ' ∨ c = '\t'
  blank_behind : ∀ c ∈ behind, c = ' ' ∨ c = '\t'

def Written.text (w : Written) : List Char :=
  w.before ++ w.digits ++ w.behind

def Written.ofNumber (n : UInt32) (blanks : Nat) : Written where
  number := n
  before := List.replicate blanks ' '
  digits := Nat.toDigits 10 n.toNat
  behind := []
  filled := Nat.toDigits_ne_nil
  decimals c := Nat.isDigit_of_mem_toDigits (by decide) (by decide)
  reads := Nat.ofDigitChars_toDigits (by decide) (by decide)
  blank_before c member := .inl (List.eq_of_mem_replicate member)
  blank_behind := by simp

def listText (ws : List Written) : List Char :=
  ",".toList.intercalate (ws.map Written.text)

variable {text : List Char} {start m : Nat} {items : List (Parsing.Alternative Unit Part)}
  {t u v w : Tape}
  {n : UInt32} {numbers : List UInt32} {e : ParseError}

def numberValue (n : UInt32) : Value Part :=
  .own (.number n)

theorem gives_number {token : Token} (called : lexer.next t = (.ok (some token), u))
    (kind : token.kind = "Number") (enough : 1 ≤ m) :
    Gives t ((rules items).plain m "number") (some (numberValue (word token.text))) u :=
  .plain enough (.alternative (.token called kind .token) fun s => ⟨s, rfl⟩)

theorem proceeds_number (within : t.Within text start) (enough : 1 ≤ m) :
    Proceeds text (fun v => ∃ n, v = numberValue n) t ((rules items).plain m "number") := by
  have digits : Proceeds text _ t (evaluate lexer ((rules items).plain (m - 1))
      (.token "Number" .token)) := proceeds_token "Number" .token within
  cases digits with
  | stopped behind halts => exact .stopped behind (.plain enough (.alternative halts))
  | missing same gives =>
    exact .missing within.same
      (.plain enough (.next_alternative within same gives (.no_alternative _)))
  | found held inside further gives =>
    obtain ⟨token, rfl⟩ := held
    exact .found ⟨word token.text, rfl⟩ inside further
      (.plain enough (.alternative gives fun s => ⟨s, rfl⟩))

def nextItem : Plan :=
  .sequence [skip "Comma", read "number"]

theorem proceeds_nextItem (within : t.Within text start) (enough : 1 ≤ m) :
    Proceeds text (fun vs => ∃ n, vs = [numberValue n]) t
      (evaluate lexer ((rules items).plain m) nextItem) := by
  have comma : Proceeds text _ t (evaluate lexer ((rules items).plain m) (skip "Comma")) :=
    proceeds_token "Comma" .nothing within
  cases comma with
  | stopped behind halts => exact .stopped behind (.sequence (.part halts))
  | missing same gives => exact .missing same (.sequence (.missing gives))
  | found held inside moved comma =>
    obtain ⟨_, rfl⟩ := held
    -- A comma that no number follows is no item either.
    cases proceeds_number inside enough with
    | stopped behind halts =>
      exact .stopped (by omega) (.sequence (.part_behind comma (.part (.called halts))))
    | missing same gives =>
      exact .missing same (.sequence (.part comma (.missing (.not_called gives))))
    | found held beyond _ gives =>
      obtain ⟨n, rfl⟩ := held
      exact .found ⟨n, rfl⟩ (beyond.of_le inside.behind) (by omega)
        (.sequence (.part comma (.part (.called gives) .none_left)))

variable {call : String → Run Unit (Option (Value Part))}

theorem gives_single (first : Gives t (call "number") (some (numberValue n)) u) :
    Gives t (evaluate lexer call (.single (read "number"))) (some [.list [numberValue n]]) u := by
  rw [evaluate]
  exact (Gives.called first).oneValue rfl

theorem gives_list (first : Gives t (call "number") (some (numberValue n)) u)
    (rest : Gives u (rounds (evaluate lexer call nextItem) (u.remainder.length + 2))
      (numbers.map fun n => [numberValue n]) v) :
    Gives t (evaluate lexer call list.plan) (some [.list ((n :: numbers).map numberValue)]) v := by
  have looped : Gives u (evaluate lexer call (.loop nextItem false true))
      (some [.list (numbers.map numberValue)]) v := by
    rw [evaluate]
    simpa [Value.together, Function.comp_def] using rest.loop
  have parts := Gives.part (gives_single first) (.part looped .none_left)
  rw [list, separated, evaluate]
  apply parts.oneValue
  simp [Value.concat?, Value.items?]

theorem halts_list (first : Gives t (call "number") (some (numberValue n)) u)
    (rest : Halts u (rounds (evaluate lexer call nextItem) (u.remainder.length + 2)) e v) :
    Halts t (evaluate lexer call list.plan) e v := by
  have looped : Halts u (evaluate lexer call (.loop nextItem false true)) e v := by
    rw [evaluate]
    exact rest.loop
  rw [list, separated, evaluate]
  exact .oneValue (.part_behind (gives_single first) (.part looped))

theorem makes_list (numbers : List UInt32) :
    list.build.Makes [.list (numbers.map numberValue)] (.items numbers) := by
  have members : members? Part.number? (numbers.map numberValue) = some numbers :=
    members?_map Part.number? Part.number (fun _ => rfl) numbers
  intro s
  refine ⟨s, ?_⟩
  simp only [list, value, members, Option.map_some]

theorem gives_or_halts_list
    (first : Gives t ((rules items).plain m "number") (some (numberValue n)) u)
    (within : u.Within text start) (enough : 1 ≤ m) :
    (∃ numbers v, u.offset ≤ v.offset ∧ Gives t (evaluate lexer ((rules items).plain m) list.plan)
      (some [.list ((n :: numbers).map numberValue)]) v) ∨
      ∃ place rest v, u.offset ≤ place ∧
        Halts t (evaluate lexer ((rules items).plain m) list.plan) (.noRule place rest) v := by
  obtain ⟨found, v, all, inside, gives⟩ | ⟨place, rest, v, behind, halts⟩ :=
    gives_or_halts_rounds (fun v inside => proceeds_nextItem inside enough) within
      (Nat.lt_add_of_pos_right (Nat.zero_lt_two))
  · obtain ⟨numbers, rfl⟩ : found ∈ Set.range (List.map fun n => [numberValue n]) := by
      rw [Set.range_list_map]
      intro vs member
      obtain ⟨n, rfl⟩ := all vs member
      exact ⟨n, rfl⟩
    exact .inl ⟨numbers, v, inside.behind, gives_list first gives⟩
  · exact .inr ⟨place, rest, v, behind, halts_list first halts⟩

theorem gives_no_items (two : ∀ a ∈ items, a = list ∨ a = single) (within : t.Within text start)
    (same : u.text = text) (missing : Gives t ((rules items).plain m "number") none u) :
    Gives t ((rules items).plain (m + 1) "items") none t := by
  have each (a : Parsing.Alternative Unit Part) (either : a = list ∨ a = single) :
      Gives t (evaluate lexer ((rules items).plain m) a.plan) none u := by
    rcases either with rfl | rfl
    · exact gives_no_list (.not_called missing)
    · exact .not_called missing
  -- None of the alternatives matches, whatever their order.
  have none (as : List (Parsing.Alternative Unit Part)) (all : ∀ a ∈ as, a = list ∨ a = single) :
      Gives t (Rules.firstMatch lexer ((rules items).plain m)
        (Rules.buildWith id fun s _ => s) t.offset as) none t := by
    induction as with
    | nil => exact .no_alternative _
    | cons a as ih =>
      rw [List.forall_mem_cons] at all
      exact .next_alternative within same (each a all.1) (ih all.2)
  exact .plain (by omega) (none items two)

theorem halts_items (two : ∀ a ∈ items, a = list ∨ a = single) (filled : items ≠ [])
    (halts : Halts t ((rules items).plain m "number") e u) :
    Halts t ((rules items).plain (m + 1) "items") e u := by
  obtain ⟨a, as, rfl⟩ := List.exists_cons_of_ne_nil filled
  apply Halts.plain (by omega)
  apply Halts.alternative
  rcases two a List.mem_cons_self with rfl | rfl
  · rw [list, separated, evaluate]
    apply Halts.oneValue
    apply Halts.part
    rw [evaluate]
    exact .oneValue (.called halts)
  · exact .called halts

theorem parse_items (two : ∀ a ∈ items, a = list ∨ a = single) (within : t.Within text start)
    (short : Text.byteSize text < offsetLimit) (enough : (rules items).depth t ≤ m)
    {found : Except Stop (Option (Value Part))}
    (plain : ∃ r, ((rules items).plain m "items").runFrom t () = (found, u, r)) :
    (rules items).parse "items" t () = (Rules.answer "items" t.offset found, u, ()) := by
  obtain ⟨⟨⟩, parsed⟩ := (regular two).parse_of_plain within short enough plain
  exact parsed

theorem plain_number (items others : List (Parsing.Alternative Unit Part)) (m : Nat) :
    (rules items).plain m "number" = (rules others).plain m "number" := by
  cases m with
  | zero => rfl
  | succ m =>
    simp only [Rules.plain, rules, alternatives, Rules.firstMatch, evaluate]

/-- An outcome of trying the list first, and what comes of trying a single number first. -/
inductive Agree : Except Stop (Value Part) × Tape × Unit → Except Stop (Value Part) × Tape × Unit →
    Prop where
  | same (e : ParseError) (u : Tape) : Agree (.error (.error e), u, ()) (.error (.error e), u, ())
  | longer (n : UInt32) (numbers : List UInt32) {u v : Tape} (behind : v.offset ≤ u.offset) :
      Agree (.ok (.own (.items (n :: numbers))), u, ()) (.ok (.own (.items [n])), v, ())
  | unread (n : UInt32) {place : Nat} {rest : List Char} {u v : Tape} (behind : v.offset ≤ place) :
      Agree (.error (.error (.noRule place rest)), u, ()) (.ok (.own (.items [n])), v, ())

theorem gives_or_halts_items {as : List (Parsing.Alternative Unit Part)}
    (first : Gives t ((rules (list :: as)).plain m "number") (some (numberValue n)) u)
    (within : u.Within text start) (enough : 1 ≤ m) :
    (∃ numbers v, u.offset ≤ v.offset ∧ Gives t ((rules (list :: as)).plain (m + 1) "items")
      (some (.own (.items (n :: numbers)))) v) ∨
      ∃ place rest v, u.offset ≤ place ∧
        Halts t ((rules (list :: as)).plain (m + 1) "items") (.noRule place rest) v := by
  obtain ⟨numbers, v, behind, gives⟩ | ⟨place, rest, v, behind, halts⟩ :=
    gives_or_halts_list first within enough
  · exact .inl ⟨numbers, v, behind, .plain (by omega) (.alternative gives (makes_list _))⟩
  · exact .inr ⟨place, rest, v, behind, .plain (by omega) (.alternative halts)⟩

theorem agree_parse (within : t.Within text start) (short : Text.byteSize text < offsetLimit) :
    Agree (greedy.parse "items" t ()) (lazy.parse "items" t ()) := by
  have greedily : ∀ a ∈ [list, single], a = list ∨ a = single := by simp
  have lazily : ∀ a ∈ [single, list], a = list ∨ a = single := by simp
  -- The same depth is enough for both, and a number in it is read alike.
  obtain ⟨m, depth⟩ : ∃ m, greedy.depth t = m + 2 := by
    refine ⟨greedy.depth t - 2, ?_⟩
    simp only [greedy, rules, Rules.depth, List.length_cons, List.length_nil]
    omega
  have enough : greedy.depth t ≤ m + 2 := Nat.le_of_eq depth
  have alike := plain_number [list, single] [single, list] (m + 1)
  have number : Proceeds text _ t ((rules [list, single]).plain (m + 1) "number") :=
    proceeds_number within (by omega)
  cases number with
  | missing same gives =>
    have first := gives_no_items greedily within same gives
    have second := gives_no_items lazily within same (alike ▸ gives)
    rw [greedy, lazy, parse_items greedily within short enough (first ()),
      parse_items lazily within short enough (second ())]
    exact .same _ t
  | stopped behind halts =>
    have first := halts_items greedily (by simp) halts
    have second := halts_items lazily (by simp) (alike ▸ halts)
    rw [greedy, lazy, parse_items greedily within short enough (first ()),
      parse_items lazily within short enough (second ())]
    exact .same _ _
  | @found _ v held inside moved gives =>
    obtain ⟨n, rfl⟩ := held
    have one : Gives t ((rules [single, list]).plain (m + 2) "items")
        (some (.own (.items [n]))) v :=
      .plain (by omega) (.alternative (.called (alike ▸ gives)) fun s => ⟨s, rfl⟩)
    rw [lazy, parse_items lazily within short enough (one ())]
    -- Only the list looks at what is behind its first number.
    obtain ⟨numbers, u, behind, all⟩ | ⟨place, rest, u, behind, halts⟩ :=
      gives_or_halts_items gives inside (by omega)
    · rw [greedy, parse_items greedily within short enough (all ())]
      exact .longer n numbers behind
    · rw [greedy, parse_items greedily within short enough (halts ())]
      exact .unread n behind

def kindOf (c : Char) : Option String :=
  if c.isDigit then some "Number"
  else match c with
    | ',' => some "Comma"
    | '!' => some "Bang"
    | ' ' | '\t' => some "Space"
    | _ => none

def absorbs (kind other : String) : Bool :=
  kind == "Number" && other == "Number" || kind == "Space" && other == "Space"

theorem tellsKinds : TellsKinds lexer kindOf absorbs where
  distinct := by decide
  told rule member := by
    simp only [lexer, List.mem_cons, List.not_mem_nil, or_false] at member
    rcases member with rfl | rfl | rfl | rfl
    · exact told_run (fun _ digit => if_pos digit) (by decide)
    · exact told_exactly (by decide)
    · exact told_exactly (by decide)
    · exact told_spaces (by simp [kindOf]) (by decide)
  blanks rule member ignored := by
    simp only [lexer, List.mem_cons, List.not_mem_nil, or_false] at member
    rcases member with rfl | rfl | rfl | rfl <;> try cases ignored
    refine ⟨⟨_, rfl⟩, fun other listed kept => ?_⟩
    simp only [lexer, List.mem_cons, List.not_mem_nil, or_false] at listed
    rcases listed with rfl | rfl | rfl | rfl <;> first | decide | cases kept

def IsNumber (xs : List Lexeme) (w : Written) : Prop :=
  xs = [⟨"Number", w.digits⟩]

theorem splits_written (w : Written) : SplitsBy lexer w.text [⟨"Number", w.digits⟩] := by
  have blank : spaces "Space" ∈ lexer := by simp [lexer]
  have before := SplitsBy.spaces blank w.blank_before
  have number : SplitsBy lexer w.digits [⟨"Number", w.digits⟩] :=
    .digits (by simp [lexer]) w.filled w.decimals
  have behind := SplitsBy.spaces blank w.blank_behind
  exact (before.append number).append behind

theorem exists_lexemes {ws : List Written} (filled : ws ≠ []) :
    ∃ xs, SplitsBy lexer (listText ws) xs ∧ Separated IsNumber "Comma" xs ws :=
  exists_separated (fun w _ => ⟨_, splits_written w, rfl⟩)
    (.symbol "Comma" "," (by simp [lexer]) (by decide)) rfl filled

theorem isChain_lexemes {xs : List Lexeme} {ws : List Written}
    (listed : Separated IsNumber "Comma" xs ws) :
    xs.IsChain fun x y => absorbs x.kind y.kind = false := by
  apply listed.isChain
  · rintro _ w rfl
    exact .singleton _
  · intro x y comma
    simp [absorbs, comma]

theorem gives_written {xs : List Lexeme} {ws : List Written}
    (listed : Separated IsNumber "Comma" xs ws) (within : t.Within text 0)
    (spells : Spells lexer t xs u) (last : lexer.next u = (.ok none, v)) (enough : 1 ≤ m) :
    Gives t (evaluate lexer ((rules items).plain m) list.plan)
      (some [.list ((ws.map Written.number).map numberValue)]) u := by
  rw [List.map_map]
  refine gives_separated (fun _ => True) _ ?_ (fun _ _ _ _ _ => trivial) listed within spells
    trivial (gives_no_item (Lexer.refuses_of_end last _)) (spells.within within).same
  rintro _ w p q rfl - spells -
  obtain ⟨token, called, same⟩ := Spells.singleton_iff.mp spells
  have digits : token.text = w.digits := congrArg Lexeme.text same
  have number : word token.text = w.number := word_of_decimal (digits ▸ w.reads)
  have gives : Gives p ((rules items).plain m "number") (some (numberValue (word token.text))) q :=
    gives_number called (congrArg Lexeme.kind same) enough
  rw [number] at gives
  exact .called gives

theorem parse_listText {ws : List Written} (filled : ws ≠ [])
    (short : Text.byteSize (listText ws) < offsetLimit) :
    ∃ u v, greedy.parse "items" ⟨listText ws, 0⟩ () =
      (.ok (.own (.items (ws.map Written.number))), u, ()) ∧ lexer.next u = (.ok none, v) := by
  obtain ⟨xs, splits, listed⟩ := exists_lexemes filled
  obtain ⟨tokens, v, ⟨u, takes, last⟩, same⟩ :=
    tellsKinds.reads_of_splits splits (isChain_lexemes listed) []
  have within := Tape.within_start (listText ws)
  have gives (m : Nat) (enough : 2 ≤ m) :
      Gives ⟨listText ws, 0⟩ (greedy.plain m "items")
        (some (.own (.items (ws.map Written.number)))) u :=
    .plain (by omega) (.alternative
      (gives_written listed within ⟨tokens, takes, same⟩ last (by omega)) (makes_list _))
  obtain ⟨⟨⟩, parsed⟩ := (regular (by simp)).parse_of_gives within short gives ()
  exact ⟨u, v, parsed, last⟩

/-- The order of the alternatives decides where both match, and only there. The list goes on behind
the single number, and tried first it reads all of a list that is written. -/
theorem order_decides :
    (∀ text offset, Text.byteSize text < offsetLimit → Text.isBoundary text offset = true →
      Agree (greedy.parse "items" ⟨text, offset⟩ ()) (lazy.parse "items" ⟨text, offset⟩ ())) ∧
    ∀ ws : List Written, ws ≠ [] → Text.byteSize (listText ws) < offsetLimit →
      ∃ u v, greedy.parse "items" ⟨listText ws, 0⟩ () =
        (.ok (.own (.items (ws.map Written.number))), u, ()) ∧ lexer.next u = (.ok none, v) := by
  constructor
  · intro text offset short boundary
    exact agree_parse ⟨rfl, boundary, Nat.le_refl offset⟩ short
  · intro ws filled short
    exact parse_listText filled short

def three : List Written :=
  [.ofNumber 1 0, .ofNumber 2 1, .ofNumber 3 1]

theorem order_decides_three :
    Text.byteSize "1,?".toList < offsetLimit ∧ Text.isBoundary "1,?".toList 0 = true ∧
      Agree (greedy.parse "items" ⟨"1,?".toList, 0⟩ ()) (lazy.parse "items" ⟨"1,?".toList, 0⟩ ()) ∧
      three ≠ [] ∧ listText three = "1, 2, 3".toList ∧
      Text.byteSize (listText three) < offsetLimit ∧
      ∃ u v, greedy.parse "items" ⟨"1, 2, 3".toList, 0⟩ () =
        (.ok (.own (.items [1, 2, 3])), u, ()) ∧ lexer.next u = (.ok none, v) := by
  have unread : Text.byteSize "1,?".toList < offsetLimit := by decide +kernel
  have filled : three ≠ [] := by simp [three]
  have written : listText three = "1, 2, 3".toList := by decide +kernel
  have short : Text.byteSize (listText three) < offsetLimit := by decide +kernel
  have read := order_decides.2 three filled short
  rw [written] at read
  exact ⟨unread, rfl, order_decides.1 _ 0 unread rfl, filled, written, short, read⟩

example :
    (greedy.parse "items" ⟨"1,?".toList, 0⟩ ()).1 = .error (.error (.noRule 2 "?".toList)) ∧
      (lazy.parse "items" ⟨"1,?".toList, 0⟩ ()).1 = .ok (.own (.items [1])) := by
  constructor <;> cbv

end Pegsmith.Sample.Items
