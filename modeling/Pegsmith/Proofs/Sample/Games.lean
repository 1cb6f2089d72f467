import Pegsmith.Proofs.Sample.Separated

set_option autoImplicit false

namespace Pegsmith.Sample.GameRecord

open Parsing
open Arithmetic (Lexeme Spells)

abbrev Entry := UInt32 × Colour

/-- A game as it is written: each round is a list of entries, in which a colour may be repeated. -/
structure Written where
  id : UInt32
  rounds : List (List Entry)
  filled : rounds ≠ []
  each : ∀ round ∈ rounds, round ≠ []

def numberText (n : UInt32) : List Char :=
  Nat.toDigits 10 n.toNat

def colourText : Colour → List Char
  | .red => "red".toList
  | .green => "green".toList
  | .blue => "blue".toList

def entryText (entry : Entry) : List Char :=
  numberText entry.1 ++ " ".toList ++ colourText entry.2

def roundText (round : List Entry) : List Char :=
  ", ".toList.intercalate (round.map entryText)

def Written.text (g : Written) : List Char :=
  "Game ".toList ++ numberText g.id ++ ": ".toList ++
    "; ".toList.intercalate (g.rounds.map roundText)

def recordText (games : List Written) (ended : Bool) : List Char :=
  "\n".toList.intercalate (games.map Written.text) ++ if ended then "\n".toList else []

def total (round : List Entry) (colour : Colour) : Nat :=
  ((round.filter (·.2 = colour)).map (·.1.toNat)).sum

def sums (round : List Entry) : Counts := fun colour =>
  if colour ∈ round.map Prod.snd then some (.ofNat (total round colour)) else none

theorem total_append (first second : List Entry) (colour : Colour) :
    total (first ++ second) colour = total first colour + total second colour := by
  simp [total]

theorem total_concat (round : List Entry) (n : UInt32) (colour other : Colour) :
    total (round ++ [(n, colour)]) other =
      total round other + if colour = other then n.toNat else 0 := by
  rw [total_append]
  by_cases same : colour = other <;> simp [total, same]

theorem sums_of_mem {round : List Entry} {colour : Colour}
    (mentioned : colour ∈ round.map Prod.snd) :
    sums round colour = some (.ofNat (total round colour)) :=
  if_pos mentioned

theorem sums_of_not_mem {round : List Entry} {colour : Colour}
    (missing : colour ∉ round.map Prod.snd) : sums round colour = none :=
  if_neg missing

theorem getD_sums (round : List Entry) (colour : Colour) :
    (sums round colour).getD 0 = .ofNat (total round colour) := by
  by_cases mentioned : colour ∈ round.map Prod.snd
  · rw [sums_of_mem mentioned, Option.getD_some]
  · have none : round.filter (·.2 = colour) = [] := by
      rw [List.filter_eq_nil_iff]
      intro entry member
      have other : entry.2 ≠ colour := fun same => mentioned (same ▸ List.mem_map_of_mem member)
      simp [other]
    rw [sums_of_not_mem mentioned, total, none]
    rfl

theorem add_sums {round : List Entry} (n : UInt32) {colour : Colour}
    (before : total round colour ≤ wordLimit) :
    (sums round).add (colour, n) = if total round colour + n.toNat ≤ wordLimit then
      .ok (sums (round ++ [(n, colour)])) else .error .additionOverflow := by
  have held : ((sums round colour).getD 0).toNat = total round colour := by
    rw [getD_sums, UInt32.toNat_ofNat']
    exact Nat.mod_eq_of_lt (Nat.lt_succ_of_le before)
  rw [Counts.add, add, held]
  by_cases fits : total round colour + n.toNat ≤ wordLimit
  · rw [if_pos fits, if_pos fits]
    refine congrArg Except.ok (funext fun c => ?_)
    by_cases same : c = colour
    · subst same
      have listed : c ∈ (round ++ [(n, c)]).map Prod.snd := by simp
      rw [if_pos rfl, getD_sums, sums_of_mem listed, total_concat, if_pos rfl, UInt32.ofNat_add,
        UInt32.ofNat_toNat]
    · have alike : c ∈ (round ++ [(n, colour)]).map Prod.snd ↔ c ∈ round.map Prod.snd := by
        simp [same]
      rw [if_neg same]
      by_cases mentioned : c ∈ round.map Prod.snd
      · rw [sums_of_mem mentioned, sums_of_mem (alike.mpr mentioned), total_concat,
          if_neg (Ne.symm same), Nat.add_zero]
      · rw [sums_of_not_mem mentioned, sums_of_not_mem (mt alike.mp mentioned)]
  · rw [if_neg fits, if_neg fits]
    rfl

/-- A value is computed, unless a condition holds that makes the computation overflow. -/
def Settles {β : Type} (overflows : Prop) (computed : Except Fault β) (b : β) : Prop :=
  ¬overflows ∧ computed = .ok b ∨ overflows ∧ computed = .error .additionOverflow

theorem Settles.map {β γ : Type} {overflows : Prop} {computed : Except Fault β} {b : β}
    (settles : Settles overflows computed b) (f : β → γ) : Settles overflows (computed.map f) (f b) := by
  rcases settles with ⟨fits, rfl⟩ | ⟨above, rfl⟩
  · exact .inl ⟨fits, rfl⟩
  · exact .inr ⟨above, rfl⟩

theorem settles_mapM {β γ : Type} {overflows : β → Prop} {f : β → Except Fault γ} {g : β → γ}
    (each : ∀ b, Settles (overflows b) (f b) (g b)) (bs : List β) :
    Settles (∃ b ∈ bs, overflows b) (bs.mapM f) (bs.map g) := by
  induction bs with
  | nil => exact .inl ⟨by simp, rfl⟩
  | cons b bs ih =>
    rw [List.mapM_cons]
    simp only [List.exists_mem_cons_iff]
    rcases each b with ⟨fits, first⟩ | ⟨above, first⟩
    · rw [first]
      rcases ih with ⟨others, rest⟩ | ⟨others, rest⟩
      · exact .inl ⟨not_or.mpr ⟨fits, others⟩, by rw [rest]; rfl⟩
      · exact .inr ⟨.inr others, by rw [rest]; rfl⟩
    · exact .inr ⟨.inl above, by rw [first]; rfl⟩

def countRound (round : List Entry) : Except Fault Counts :=
  Counts.ofList (round.map Prod.swap)

def countGame (g : Written) : Except Fault Game :=
  (g.rounds.mapM countRound).map (Game.mk g.id)

theorem settles_fold (counted rest : List Entry)
    (before : ∀ colour, total counted colour ≤ wordLimit) :
    Settles (∃ colour, wordLimit < total (counted ++ rest) colour)
      ((rest.map Prod.swap).foldlM Counts.add (sums counted)) (sums (counted ++ rest)) := by
  -- What has been counted so far fits for every colour.
  induction rest generalizing counted with
  | nil =>
    rw [List.append_nil]
    exact .inl ⟨fun ⟨colour, above⟩ => Nat.not_lt.mpr (before colour) above, rfl⟩
  | cons entry rest ih =>
    obtain ⟨n, colour⟩ := entry
    have whole : counted ++ (n, colour) :: rest = counted ++ [(n, colour)] ++ rest := by simp
    rw [List.map_cons, List.foldlM_cons, Prod.swap_prod_mk, add_sums n (before colour), whole]
    by_cases fits : total counted colour + n.toNat ≤ wordLimit
    · rw [if_pos fits]
      apply ih
      intro c
      rw [total_concat]
      by_cases same : colour = c
      · rwa [if_pos same, ← same]
      · rw [if_neg same]
        exact before c
    · rw [if_neg fits]
      refine .inr ⟨⟨colour, ?_⟩, rfl⟩
      rw [total_append, total_concat, if_pos rfl]
      omega

theorem settles_countRound (round : List Entry) :
    Settles (∃ colour, wordLimit < total round colour) (countRound round) (sums round) := by
  have empty : sums [] = fun _ => none := rfl
  have settles := settles_fold [] round fun colour => Nat.zero_le _
  rwa [empty] at settles

def Written.game (g : Written) : Game :=
  ⟨g.id, g.rounds.map sums⟩

theorem settles_countGame (g : Written) :
    Settles (∃ round ∈ g.rounds, ∃ colour, wordLimit < total round colour) (countGame g) g.game :=
  (settles_mapM settles_countRound g.rounds).map (Game.mk g.id)

def kindOf (c : Char) : Option String :=
  if c.isDigit then some "Number"
  else match c with
    | 'G' => some "Game"
    | 'r' => some "Red"
    | 'g' => some "Green"
    | 'b' => some "Blue"
    | ':' => some "Colon"
    | ';' => some "Semicolon"
    | ',' => some "Comma"
    | '\r' | '\n' => some "NewLine"
    | ' ' | '\t' => some "Space"
    | _ => none

/-- A lexeme of the first kind goes on over one of the second. -/
def absorbs (kind other : String) : Bool :=
  (kind, other) ∈ [("Number", "Number"), ("Space", "Space")]

theorem kindOf_of_isDigit {c : Char} (digit : c.isDigit = true) : kindOf c = some "Number" :=
  if_pos digit

theorem tellsKinds : TellsKinds lexer kindOf absorbs where
  distinct := by decide
  told rule member := by
    simp only [lexer, List.mem_cons, List.not_mem_nil, or_false] at member
    rcases member with rfl | rfl | rfl | rfl | rfl | rfl | rfl | rfl | rfl | rfl
    · exact told_exactly (by decide)
    · exact told_exactly (by decide)
    · exact told_exactly (by decide)
    · exact told_exactly (by decide)
    · exact told_run (fun c => kindOf_of_isDigit) (by decide)
    · exact told_exactly (by decide)
    · exact told_exactly (by decide)
    · exact told_exactly (by decide)
    · exact told_newLine
        (List.forall_mem_cons.mpr ⟨by decide, List.forall_mem_singleton.mpr (by decide)⟩)
    · exact told_spaces
        (List.forall_mem_cons.mpr ⟨by decide, List.forall_mem_singleton.mpr (by decide)⟩) (by decide)
  blanks rule member ignored := by
    simp only [lexer, List.mem_cons, List.not_mem_nil, or_false] at member
    rcases member with rfl | rfl | rfl | rfl | rfl | rfl | rfl | rfl | rfl | rfl <;>
      try cases ignored
    refine ⟨⟨_, rfl⟩, fun other listed kept => ?_⟩
    simp only [lexer, List.mem_cons, List.not_mem_nil, or_false] at listed
    rcases listed with rfl | rfl | rfl | rfl | rfl | rfl | rfl | rfl | rfl | rfl <;>
      first | decide | cases kept

def colourKind : Colour → String
  | .red => "Red"
  | .green => "Green"
  | .blue => "Blue"

def IsEntry (xs : List Lexeme) (entry : Entry) : Prop :=
  xs = [⟨"Number", numberText entry.1⟩, ⟨colourKind entry.2, colourText entry.2⟩]

def IsRound : List Lexeme → List Entry → Prop :=
  Separated IsEntry "Comma"

def IsGame (xs : List Lexeme) (g : Written) : Prop :=
  ∃ rounds, xs = ⟨"Game", "Game".toList⟩ :: ⟨"Number", numberText g.id⟩ ::
      ⟨"Colon", ":".toList⟩ :: rounds ∧
    Separated IsRound "Semicolon" rounds g.rounds

def IsRecord (xs : List Lexeme) (games : List Written) : Prop :=
  ∃ lines ending, xs = lines ++ ending ∧ Separated IsGame "NewLine" lines games ∧ LastBreak ending

theorem splits_number (n : UInt32) :
    SplitsBy lexer (numberText n) [⟨"Number", numberText n⟩] :=
  .digits (by simp [lexer]) Nat.toDigits_ne_nil fun _ =>
    Nat.isDigit_of_mem_toDigits (by decide) (by decide)

theorem splits_space : SplitsBy lexer " ".toList [] :=
  .spaces (show spaces "Space" ∈ lexer by simp [lexer]) (by simp)

theorem splits_symbol_space (kind text : String) (member : symbol kind text ∈ lexer)
    (filled : text.toList ≠ []) : SplitsBy lexer (text ++ " ").toList [⟨kind, text.toList⟩] := by
  rw [String.toList_append]
  exact (SplitsBy.symbol kind text member filled).append splits_space

theorem splits_colour (colour : Colour) :
    SplitsBy lexer (colourText colour) [⟨colourKind colour, colourText colour⟩] := by
  cases colour with
  | red => exact .symbol "Red" "red" (by simp [lexer]) (by decide)
  | green => exact .symbol "Green" "green" (by simp [lexer]) (by decide)
  | blue => exact .symbol "Blue" "blue" (by simp [lexer]) (by decide)

theorem exists_round {round : List Entry} (filled : round ≠ []) :
    ∃ xs, SplitsBy lexer (roundText round) xs ∧ IsRound xs round := by
  have comma : SplitsBy lexer ", ".toList [⟨"Comma", ",".toList⟩] :=
    splits_symbol_space "Comma" "," (by simp [lexer]) (by decide)
  refine exists_separated (fun entry _ => ⟨_, ?_, rfl⟩) comma rfl filled
  exact ((splits_number entry.1).append splits_space).append (splits_colour entry.2)

theorem exists_game (g : Written) : ∃ xs, SplitsBy lexer g.text xs ∧ IsGame xs g := by
  have semicolon : SplitsBy lexer "; ".toList [⟨"Semicolon", ";".toList⟩] :=
    splits_symbol_space "Semicolon" ";" (by simp [lexer]) (by decide)
  have game : SplitsBy lexer "Game ".toList [⟨"Game", "Game".toList⟩] :=
    splits_symbol_space "Game" "Game" (by simp [lexer]) (by decide)
  have colon : SplitsBy lexer ": ".toList [⟨"Colon", ":".toList⟩] :=
    splits_symbol_space "Colon" ":" (by simp [lexer]) (by decide)
  obtain ⟨xs, splits, rounds⟩ :=
    exists_separated (fun round member => exists_round (g.each round member)) semicolon rfl g.filled
  exact ⟨_, ((game.append (splits_number g.id)).append colon).append splits, xs, rfl, rounds⟩

theorem exists_record {games : List Written} (filled : games ≠ []) (ended : Bool) :
    ∃ xs, SplitsBy lexer (recordText games ended) xs ∧ IsRecord xs games := by
  have broken : SplitsBy lexer "\n".toList [⟨"NewLine", "\n".toList⟩] :=
    .one (show newLine ∈ lexer by simp [lexer]) rfl (by decide) (by decide)
  obtain ⟨xs, splits, lines⟩ := exists_separated (fun g _ => exists_game g) broken rfl filled
  cases ended with
  | false => exact ⟨_, splits.append .nil, xs, [], rfl, lines, .inl rfl⟩
  | true => exact ⟨_, splits.append broken, xs, _, rfl, lines, .inr ⟨_, rfl, rfl⟩⟩

variable {xs : List Lexeme} {round : List Entry} {g : Written} {games : List Written}

theorem absorbs_apart {kind : String} (apart : kind ≠ "Number" ∧ kind ≠ "Space") (other : String) :
    absorbs other kind = false ∧ absorbs kind other = false := by
  simp [absorbs, apart]

theorem IsRound.isChain (isRound : IsRound xs round) :
    xs.IsChain fun x y => absorbs x.kind y.kind = false := by
  refine Separated.isChain isRound ?_ fun x y between => between ▸ absorbs_apart (by decide) x.kind
  rintro _ ⟨n, colour⟩ rfl
  have apart : absorbs "Number" (colourKind colour) = false := by cases colour <;> decide
  exact List.isChain_pair.mpr apart

theorem IsGame.isChain (isGame : IsGame xs g) :
    xs.IsChain fun x y => absorbs x.kind y.kind = false := by
  obtain ⟨rounds, rfl, listed⟩ := isGame
  have behind := listed.isChain (fun _ _ => IsRound.isChain)
    fun x y between => between ▸ absorbs_apart (by decide) x.kind
  have heading : [(⟨"Game", "Game".toList⟩ : Lexeme), ⟨"Number", numberText g.id⟩].IsChain
      fun x y => absorbs x.kind y.kind = false :=
    List.isChain_pair.mpr (absorbs_apart (by decide) "Number").2
  exact isChain_append_cons heading behind fun x => absorbs_apart (by decide) x.kind

theorem IsRecord.isChain (isRecord : IsRecord xs games) :
    xs.IsChain fun x y => absorbs x.kind y.kind = false := by
  obtain ⟨lines, ending, rfl, listed, final⟩ := isRecord
  have first := listed.isChain (fun _ _ => IsGame.isChain)
    fun x y between => between ▸ absorbs_apart (by decide) x.kind
  exact final.isChain_append first fun x y broken => broken ▸ absorbs_apart (by decide) x.kind

variable {text : List Char} {m : Nat} {p u v : Tape}

theorem word_numberText (n : UInt32) : word (numberText n) = n :=
  word_of_decimal (Nat.ofDigitChars_toDigits (by decide) (by decide))

theorem gives_number {n : UInt32} (spells : Spells lexer p [⟨"Number", numberText n⟩] u)
    (enough : 1 ≤ m) : Gives p (rules.plain m "number") (some (.own (.number n))) u := by
  obtain ⟨token, called, same⟩ := Spells.singleton_iff.mp spells
  have kind : token.kind = "Number" := congrArg Lexeme.kind same
  have digits : token.text = numberText n := congrArg Lexeme.text same
  refine .plain enough (.alternative (.token called kind .token) fun s => ⟨s, ?_⟩)
  simp [value, useToken, digits, word_numberText]

theorem gives_colour {c : Colour} (within : p.Within text 0)
    (spells : Spells lexer p [⟨colourKind c, colourText c⟩] u) (enough : 1 ≤ m) :
    Gives p (rules.plain m "colour") (some (.own (.colour c))) u := by
  obtain ⟨token, called, same⟩ := Spells.singleton_iff.mp spells
  have kind : token.kind = colourKind c := congrArg Lexeme.kind same
  have missing {other : String} (apart : colourKind c ≠ other) :
      Gives p (evaluate lexer (rules.plain (m - 1)) (.token other .kind)) none p :=
    .refused (Lexer.refuses_of_next called (kind ▸ apart)) .kind
  have found : Gives p (evaluate lexer (rules.plain (m - 1))
      (.choice [.token "Red" .kind, .token "Green" .kind, .token "Blue" .kind]))
      (some [.kind (colourKind c)]) u := by
    have token : Gives p (evaluate lexer (rules.plain (m - 1)) (.token (colourKind c) .kind))
        (some [.kind (colourKind c)]) u := kind ▸ .token called rfl .kind
    cases c with
    | red => exact .choice (.branch token)
    | green =>
      exact .choice (.next_branch within within.same (missing (by decide)) (.branch token))
    | blue =>
      exact .choice (.next_branch within within.same (missing (by decide))
        (.next_branch within within.same (missing (by decide)) (.branch token)))
  refine .plain enough (.alternative found fun s => ⟨s, ?_⟩)
  cases c <;> rfl

theorem gives_entry {entry : Entry} (isEntry : IsEntry xs entry) (within : p.Within text 0)
    (spells : Spells lexer p xs u) (enough : 2 ≤ m) :
    Gives p (rules.plain m "colourCount") (some (.own (.count entry.2 entry.1))) u := by
  subst isEntry
  obtain ⟨q, first, second⟩ := Spells.append_iff.mp (show Spells lexer p ([_] ++ [_]) u from spells)
  have inside := (first.within within).of_le (Nat.zero_le _)
  have number := gives_number first (show 1 ≤ m - 1 by omega)
  have colour := gives_colour inside second (show 1 ≤ m - 1 by omega)
  exact .plain (by omega) (.alternative (.sequence (.part (.sequence (.part (.called number)
    .none_left)) (.part (.sequence (.part (.called colour) .none_left)) .none_left)))
    fun s => ⟨s, rfl⟩)

theorem comes_round (isRound : IsRound xs round) (within : p.Within text 0)
    (spells : Spells lexer p xs u) (last : lexer.Refuses "Comma" u) (enough : 3 ≤ m) :
    Comes p (rules.plain m "round") ((countRound round).map fun c => some (.own (.round c))) u := by
  have listed : Gives p (evaluate lexer (rules.plain (m - 1))
      (separated (read "colourCount") "Comma"))
      (some [.list (round.map fun entry => .own (.count entry.2 entry.1))]) u :=
    gives_separated (fun _ => True) _ (fun _ _ _ _ isEntry within spells _ =>
      .called (gives_entry isEntry within spells (by omega))) (fun _ _ _ _ _ => trivial) isRound
      within spells trivial (gives_no_item last) (spells.within within).same
  have members : members? Part.count? (round.map fun entry => .own (.count entry.2 entry.1)) =
      some (round.map Prod.swap) := by
    have swapped := members?_map Part.count? (fun entry => .count entry.1 entry.2) (fun _ => rfl)
      (round.map Prod.swap)
    rw [List.map_map] at swapped
    exact swapped
  refine .plain (by omega) (.built listed fun s => ⟨s, ?_⟩)
  simp only [GameRecord.round, members, Option.map_some, countRound]

theorem comes_game (isGame : IsGame xs g) (within : p.Within text 0) (spells : Spells lexer p xs u)
    (comma : lexer.Refuses "Comma" u) (semicolon : lexer.Refuses "Semicolon" u) (enough : 4 ≤ m) :
    Comes p (rules.plain m "game") ((countGame g).map fun game => some (.own (.game game))) u := by
  obtain ⟨xs, rfl, rounds⟩ := isGame
  obtain ⟨game, q, opened, named, back⟩ := Spells.cons_iff.mp spells
  obtain ⟨r, number, rest⟩ :=
    Spells.append_iff.mp (show Spells lexer q ([_] ++ ⟨"Colon", ":".toList⟩ :: xs) u from back)
  obtain ⟨colon, s, divided, same, listed⟩ := Spells.cons_iff.mp rest
  have insideQ := (Lexer.Takes.one opened).within within
  have insideR := number.within insideQ
  have insideS := ((Lexer.Takes.one divided).within insideR).of_le (Nat.zero_le _)
  have reads : ReadsItems lexer text (rules.plain (m - 1)) (read "round") IsRound
      (lexer.Refuses "Comma") countRound fun c => .own (.round c) :=
    fun _ _ _ _ isRound within spells last =>
      .called (comes_round isRound within spells last (by omega))
  have found := comes_list reads
    (fun token t u called kind => Lexer.refuses_of_next called (by simp [kind])) rounds insideS
    listed comma (gives_no_item semicolon) (listed.within insideS).same .none_left
  have whole := Comes.part_behind (.sequence (.part (.token opened (congrArg Lexeme.kind named)
    .nothing) (.part (.called (gives_number number (show 1 ≤ m - 1 by omega))) .none_left)))
    (.part_ahead (.sequence (.part_behind (.token divided (congrArg Lexeme.kind same) .nothing)
      (.part_ahead found .none_left))) .none_left)
  have counted : (countGame g).map (fun game => some (Value.own (Part.game game))) =
      (g.rounds.mapM countRound).map fun cs => some (.own (.game ⟨g.id, cs⟩)) := by
    rw [countGame]
    cases g.rounds.mapM countRound <;> rfl
  rw [counted]
  refine .plain (by omega) (.alternative (.sequence whole) fun cs s => ⟨s, ?_⟩)
  simp [value, useToken, members?_map Part.round? Part.round fun _ => rfl]

theorem gives_no_game (within : p.Within text 0) (refuses : lexer.Refuses "Game" p)
    (enough : 1 ≤ m) : Gives p (rules.plain m "game") none p :=
  .plain enough (.next_alternative within within.same
    (.sequence (.missing (.sequence (.missing (.refused refuses .nothing))))) (.no_alternative _))

theorem comes_record (isRecord : IsRecord xs games) (within : p.Within text 0)
    (spells : Spells lexer p xs u) (last : lexer.next u = (.ok none, v)) (enough : 5 ≤ m) :
    Comes p (rules.plain m "games") ((games.mapM countGame).map fun gs => some (.own (.games gs)))
      u := by
  obtain ⟨lines, ending, rfl, listed, final⟩ := isRecord
  obtain ⟨q, front, ended⟩ := Spells.append_iff.mp spells
  have inside := front.within within
  have reads : ReadsItems lexer text (rules.plain (m - 1)) (read "game") IsGame
      (fun t => lexer.Refuses "Comma" t ∧ lexer.Refuses "Semicolon" t) countGame
      fun g => .own (.game g) :=
    fun _ _ _ _ isGame within spells last =>
      .called (comes_game isGame within spells last.1 last.2 (by omega))
  have no_game := gives_no_game ((spells.within within).of_le (Nat.zero_le _))
    (Lexer.refuses_of_end last _) (show 1 ≤ m - 1 by omega)
  obtain ⟨refuses, optional, w, same, stops⟩ :=
    gives_lastBreak final inside ended last (.not_called no_game)
  have found := comes_list reads (fun token t u called kind =>
    ⟨Lexer.refuses_of_next called (by simp [kind]), Lexer.refuses_of_next called (by simp [kind])⟩)
    listed within front ⟨refuses _ (by decide), refuses _ (by decide)⟩ stops same
    (.part optional .none_left)
  refine .plain (by omega) (.alternative found fun gs s => ⟨s, ?_⟩)
  simp [value, members?_map Part.game? Part.game fun _ => rfl]

/-- Games that are written and read back are the same, with the sums of the entries in each round.
An overflow is what stops reading exactly if the entries of some round show more cubes of a colour
than a number can hold. -/
theorem parse_recordText (games : List Written) (ended : Bool) (filled : games ≠ [])
    (short : Text.byteSize (recordText games ended) < offsetLimit) :
    ((∀ g ∈ games, ∀ round ∈ g.rounds, ∀ colour, total round colour < UInt32.size) →
      parse (recordText games ended) = .ok (.own (.games (games.map Written.game)))) ∧
    (parse (recordText games ended) = .error (.fault .additionOverflow) ↔
      ∃ g ∈ games, ∃ round ∈ g.rounds, ∃ colour, UInt32.size ≤ total round colour) := by
  obtain ⟨xs, splits, isRecord⟩ := exists_record filled ended
  obtain ⟨tokens, v, ⟨u, takes, last⟩, same⟩ := tellsKinds.reads_of_splits splits isRecord.isChain []
  have comes (m : Nat) (enough : 5 ≤ m) :=
    comes_record isRecord (Tape.within_start _) ⟨tokens, takes, same⟩ last enough
  have parsed : parse (recordText games ended) = _ := regular.parseAll_of_comes short comes last ()
  rw [parsed]
  -- Either all sums fit, or the first game with one that does not stops the parse.
  rcases settles_mapM settles_countGame games with ⟨fits, counted⟩ | ⟨above, counted⟩
  · rw [counted]
    exact ⟨fun _ => rfl, fun failed => (by cases failed), fun above => absurd above fits⟩
  · rw [counted]
    refine ⟨fun fits => ?_, fun _ => above, fun _ => rfl⟩
    obtain ⟨g, member, round, listed, colour, above⟩ := above
    exact absurd (fits g member round listed colour) (Nat.not_lt.mpr above)

def twoGames : List Written :=
  [⟨1, [[(3, .blue), (4, .red), (2, .blue)], [(1, .red)]], by simp, by simp⟩,
    ⟨20, [[(6, .red)]], by simp, by simp⟩]

theorem parse_twoGames :
    recordText twoGames true = "Game 1: 3 blue, 4 red, 2 blue; 1 red\nGame 20: 6 red\n".toList ∧
      twoGames ≠ [] ∧ Text.byteSize (recordText twoGames true) < offsetLimit ∧
      (∀ g ∈ twoGames, ∀ round ∈ g.rounds, ∀ colour, total round colour < UInt32.size) ∧
      parse (recordText twoGames true) = .ok (.own (.games (twoGames.map Written.game))) := by
  have filled : twoGames ≠ [] := by simp [twoGames]
  have short : Text.byteSize (recordText twoGames true) < offsetLimit := by decide +kernel
  have fits : ∀ g ∈ twoGames, ∀ round ∈ g.rounds, ∀ colour, total round colour < UInt32.size := by
    intro g member round listed colour
    simp only [twoGames, List.mem_cons, List.not_mem_nil, or_false] at member
    rcases member with rfl | rfl
    · simp only [List.mem_cons, List.not_mem_nil, or_false] at listed
      rcases listed with rfl | rfl <;> cases colour <;> decide
    · obtain rfl := List.mem_singleton.mp listed
      cases colour <;> decide
  exact ⟨by decide +kernel, filled, short, fits, (parse_recordText twoGames true filled short).1 fits⟩

end Pegsmith.Sample.GameRecord
