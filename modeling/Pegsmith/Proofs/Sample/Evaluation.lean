import Pegsmith.Proofs.Sample.Expressions
import Pegsmith.Proofs.Sample.Languages
import Pegsmith.Proofs.Sample.Lexemes

set_option autoImplicit false

namespace Pegsmith.Sample

open Parsing

variable {α : Type} {calls : String → List Token → α → Prop} {ts : List Token}
  {vs : List (Value α)}

theorem spells_read {name : String} :
    (read name).Spells calls ts vs ↔ ∃ a, calls name ts a ∧ vs = [.own a] := by
  simp [read, Plan.Spells]

theorem spells_one {p : Plan} (spells : (Plan.sequence [p]).Spells calls ts vs) :
    p.Spells calls ts vs := by
  obtain ⟨front, rest, us, ws, first, ⟨rfl, rfl⟩, rfl, rfl⟩ := spells
  rwa [List.append_nil, List.append_nil]

theorem spells_skip_cons {kind : String} {ps : List Plan}
    (spells : (Plan.sequence (skip kind :: ps)).Spells calls ts vs) :
    ∃ token rest, token.kind = kind ∧ ts = token :: rest ∧
      (Plan.sequence ps).Spells calls rest vs := by
  obtain ⟨_, rest, _, ws, ⟨token, same, rfl, rfl⟩, others, rfl, rfl⟩ := spells
  exact ⟨token, rest, same, rfl, others⟩

theorem spells_cons_skip {kind : String} {p : Plan}
    (spells : (Plan.sequence [p, skip kind]).Spells calls ts vs) :
    ∃ front token, token.kind = kind ∧ ts = front ++ [token] ∧ p.Spells calls front vs := by
  obtain ⟨front, _, us, _, first, last, rfl, rfl⟩ := spells
  obtain ⟨token, same, rfl, rfl⟩ := spells_one last
  exact ⟨front, token, same, rfl, by rwa [useToken, List.append_nil]⟩

namespace Calculator

theorem spells_operation (spells : operation.Spells calls ts vs) :
    ∃ front token back a b, (token.kind = "Plus" ∨ token.kind = "Minus") ∧
      ts = front ++ token :: back ∧ vs = [.own a, .kind token.kind, .own b] ∧
      calls "term" front a ∧ calls "expression" back b := by
  obtain ⟨front, _, us, _, first, others, rfl, rfl⟩ := spells
  obtain ⟨_, back, _, ws, sign, last, rfl, rfl⟩ := spells_one others
  obtain ⟨a, left, rfl⟩ := spells_read.mp (spells_one first)
  obtain ⟨b, right, rfl⟩ := spells_read.mp (spells_one (spells_one last))
  rcases spells_one sign with ⟨token, plus, rfl, rfl⟩ | ⟨token, minus, rfl, rfl⟩ | ⟨⟨⟩⟩
  · exact ⟨front, token, back, a, b, .inl plus, rfl, rfl, left, right⟩
  · exact ⟨front, token, back, a, b, .inr minus, rfl, rfl, left, right⟩

open Arithmetic

def isBlank (c : Char) : Bool :=
  c == ' ' || c == '\t'

theorem blanksApart : BlanksApart isBlank := by
  intro c blank
  simp only [isBlank, Bool.or_eq_true, beq_iff_eq] at blank
  rcases blank with rfl | rfl <;> decide

theorem binary_sign (left right : Int64) (sign : Sign) :
    binary left sign.lexeme.kind right = sign.apply left right := by
  cases sign with
  | plus => exact if_neg (by decide)
  | minus => exact if_pos rfl

theorem describes : Describes rules (read "expression") Derivation.value where
  inside := .inl rfl
  expression := by
    refine ⟨_, _, rfl, fun left sign right s => ⟨s, ?_⟩, fun only s => ⟨s, rfl⟩⟩
    rw [Derivation.value, ← binary_sign]
    rfl
  term := ⟨_, _, rfl, fun inner s => ⟨s, rfl⟩, fun only s => ⟨s, rfl⟩⟩
  primary := by
    refine ⟨_, _, rfl, fun token s => ⟨s + 1, ?_⟩, fun inner s => ⟨s, rfl⟩⟩
    rw [Derivation.value, ← integer_eq_greatest]

theorem exists_derivation {n : Nat} {level : Level} {tokens : List Token} {a : Int64}
    (valid : ∀ token ∈ tokens, (Lexeme.ofToken token).IsValid)
    (derives : rules.Derives n level.name tokens a) :
    ∃ d : Derivation level, tokens.map Lexeme.ofToken = d.lexemes ∧ d.value = a := by
  -- The alternative names the derivation, and the kind of a token the lexeme of a symbol.
  induction n generalizing level tokens a with
  | zero => exact derives.elim
  | succ n ih =>
    obtain ⟨alternative, member, vs, s, r, spells, built⟩ := derives
    change alternative ∈ alternatives level.name at member
    cases level with
    | expression =>
      simp only [Level.name, alternatives, List.mem_cons, List.not_mem_nil, or_false] at member
      rcases member with rfl | rfl
      · obtain ⟨front, token, back, b, c, signs, rfl, rfl, left, right⟩ := spells_operation spells
        rw [List.forall_mem_append, List.forall_mem_cons] at valid
        obtain ⟨validFront, validToken, validBack⟩ := valid
        obtain ⟨sign, kind⟩ : ∃ sign : Sign, token.kind = sign.lexeme.kind :=
          signs.elim (fun plus => ⟨.plus, plus⟩) fun minus => ⟨.minus, minus⟩
        obtain ⟨l, spelledLeft, rfl⟩ := @ih .term front b validFront left
        obtain ⟨r, spelledRight, rfl⟩ := @ih .expression back c validBack right
        cases built
        refine ⟨.operation l sign r, ?_, ?_⟩
        · rw [List.map_append, List.map_cons, spelledLeft, spelledRight,
            validToken.eq_of_kind sign.lexeme sign.lexeme_mem kind]
          rfl
        · rw [kind, binary_sign]
          rfl
      · obtain ⟨b, only, rfl⟩ := spells_read.mp spells
        obtain ⟨d, spelled, rfl⟩ := @ih .term tokens b valid only
        cases built
        exact ⟨.term d, spelled, rfl⟩
    | term =>
      simp only [Level.name, alternatives, List.mem_cons, List.not_mem_nil, or_false] at member
      rcases member with rfl | rfl
      · obtain ⟨token, rest, minus, rfl, last⟩ := spells_skip_cons spells
        obtain ⟨b, inner, rfl⟩ := spells_read.mp (spells_one last)
        rw [List.forall_mem_cons] at valid
        obtain ⟨d, spelled, rfl⟩ := @ih .term rest b valid.2 inner
        cases built
        refine ⟨.negated d, ?_, rfl⟩
        rw [List.map_cons, spelled, valid.1.eq_of_kind .minus (by decide) minus]
        rfl
      · obtain ⟨b, only, rfl⟩ := spells_read.mp spells
        obtain ⟨d, spelled, rfl⟩ := @ih .primary tokens b valid only
        cases built
        exact ⟨.primary d, spelled, rfl⟩
    | primary =>
      simp only [Level.name, alternatives, List.mem_cons, List.not_mem_nil, or_false] at member
      rcases member with rfl | rfl
      · obtain ⟨token, number, rfl, rfl⟩ := spells
        cases built
        refine ⟨.number token.text, ?_, (integer_eq_greatest _).symm⟩
        rw [List.map_singleton, Lexeme.ofToken, number]
        rfl
      · obtain ⟨opening, rest, opens, rfl, last⟩ := spells_skip_cons spells
        obtain ⟨front, closing, closes, rfl, nested⟩ := spells_cons_skip last
        obtain ⟨b, inner, rfl⟩ := spells_read.mp nested
        rw [List.forall_mem_cons, List.forall_mem_append, List.forall_mem_singleton] at valid
        obtain ⟨validOpening, validFront, validClosing⟩ := valid
        obtain ⟨d, spelled, rfl⟩ := @ih .expression front b validFront inner
        cases built
        refine ⟨.bracketed d, ?_, rfl⟩
        rw [List.map_cons, List.map_append, List.map_singleton, spelled,
          validOpening.eq_of_kind .leftParen (by decide) opens,
          validClosing.eq_of_kind .rightParen (by decide) closes]
        rfl

variable {text : List Char}

theorem evaluate_of_splits {d : Derivation .expression} (splits : Splits isBlank text d.lexemes)
    (short : Text.byteSize text < offsetLimit) (converted : Nat) :
    (evaluate text converted).1 = .ok (.own d.value) := by
  obtain ⟨tokens, u, ⟨place, takes, last⟩, same⟩ :=
    reads_of_splits blanksApart splits d.spaced_lexemes []
  have stops : Stops rules.lexer .expression place := fun _ sign => Lexer.refuses_of_end last _
  have gives (n : Nat) (enough : d.height ≤ n) :=
    describes.gives d (Tape.within_start text) ⟨tokens, takes, same⟩ stops enough
  obtain ⟨after, parsed⟩ := regular.parse_of_gives (Tape.within_start text) short gives converted
  exact Rules.parseAll_eq_ok_iff.mpr ⟨place, after, u, parsed, last⟩

theorem exists_of_evaluate {converted : Nat} {v : Value Int64}
    (short : Text.byteSize text < offsetLimit) (answered : (evaluate text converted).1 = .ok v) :
    ∃ d : Derivation .expression, Splits isBlank text d.lexemes ∧ v = .own d.value := by
  obtain ⟨place, after, u, parsed, last⟩ := Rules.parseAll_eq_ok_iff.mp answered
  have leaves := regular.leaves "expression" converted (Tape.within_start text) short
  rw [parsed] at leaves
  obtain ⟨a, n, tokens, token, rfl, derives, takes, -, -⟩ := leaves
  have splits : Splits isBlank text ((tokens ++ [token]).map Lexeme.ofToken) :=
    @splits_of_reads isBlank [] text _ u ⟨place, takes, last⟩
  have valid (t : Token) (member : t ∈ tokens ++ [token]) : (Lexeme.ofToken t).IsValid :=
    splits.valid _ (List.mem_map_of_mem member)
  obtain ⟨d, spelled, rfl⟩ := @exists_derivation n .expression _ a valid derives
  exact ⟨d, spelled ▸ splits, rfl⟩

/-- The calculator answers a value exactly if the text splits into blanks and the lexemes of an
expression with that value. These lexemes are what the lexer reads, and there is no other expression
whose lexemes the text splits into. -/
theorem evaluate_eq_ok_iff (text : List Char) (converted : Nat)
    (short : Text.byteSize text < offsetLimit) :
    (∀ v, (evaluate text converted).1 = .ok v ↔
        ∃ d : Derivation .expression, Splits isBlank text d.lexemes ∧ v = .own d.value) ∧
      ∀ d : Derivation .expression, Splits isBlank text d.lexemes →
        (∃ tokens place, lexer.all ⟨text, 0⟩ = (tokens, none, place) ∧
          tokens.map Lexeme.ofToken = d.lexemes) ∧
        ∀ e : Derivation .expression, Splits isBlank text e.lexemes → d = e := by
  refine ⟨fun v => ⟨exists_of_evaluate short, ?_⟩, fun d splits => ⟨?_, fun e again => ?_⟩⟩
  · rintro ⟨d, splits, rfl⟩
    exact evaluate_of_splits splits short converted
  · obtain ⟨tokens, place, reads, spelled⟩ :=
      reads_of_splits blanksApart splits d.spaced_lexemes []
    exact ⟨tokens, place, reads.all, spelled⟩
  · exact splits.derivation_unique blanksApart again

theorem evaluate_groups_right :
    Text.byteSize "-2 - 4 - 3".toList < offsetLimit ∧
      (evaluate "-2 - 4 - 3".toList 0).1 = .ok (.own (-3)) ∧
      ∃ d : Derivation .expression,
        Splits isBlank "-2 - 4 - 3".toList d.lexemes ∧ d.value = -3 := by
  have short : Text.byteSize "-2 - 4 - 3".toList < offsetLimit := by decide +kernel
  have answered : (evaluate "-2 - 4 - 3".toList 0).1 = .ok (.own (-3)) := by cbv
  obtain ⟨d, splits, value⟩ := ((evaluate_eq_ok_iff "-2 - 4 - 3".toList 0 short).1 _).mp answered
  exact ⟨short, answered, d, splits, (Value.own.inj value).symm⟩

end Calculator

end Pegsmith.Sample
