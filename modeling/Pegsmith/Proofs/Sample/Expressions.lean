import Pegsmith.Proofs.Parsing.Giving
import Pegsmith.Proofs.Sample.Arithmetic

set_option autoImplicit false

namespace Pegsmith.Sample.Arithmetic

open Parsing

variable {σ α : Type}

def Level.name : Level → String
  | .expression => "expression"
  | .term => "term"
  | .primary => "primary"

structure Describes (rules : Rules σ α) (inner : Plan)
    (meaning : {level : Level} → Derivation level → α) : Prop where
  inside : inner = read "expression" ∨ inner = .optional (read "expression") .default
  expression : ∃ operate pass,
    rules.alternatives "expression" = [⟨Calculator.operation, operate⟩, ⟨read "term", pass⟩] ∧
      (∀ left sign right, operate.Makes
        [.own (meaning left), .kind (Sign.lexeme sign).kind, .own (meaning right)]
        (meaning (.operation left sign right))) ∧
      ∀ only, pass.Makes [.own (meaning only)] (meaning (.term only))
  term : ∃ negate pass,
    rules.alternatives "term" =
        [⟨.sequence [skip "Minus", read "term"], negate⟩, ⟨read "primary", pass⟩] ∧
      (∀ only, negate.Makes [.own (meaning only)] (meaning (.negated only))) ∧
      ∀ only, pass.Makes [.own (meaning only)] (meaning (.primary only))
  primary : ∃ convert pass,
    rules.alternatives "primary" =
        [⟨.token "Number" .token, convert⟩,
          ⟨.sequence [skip "LeftParen", inner, skip "RightParen"], pass⟩] ∧
      (∀ token : Token, convert.Makes [.token token] (meaning (.number token.text))) ∧
      ∀ only, pass.Makes [.own (meaning only)] (meaning (.bracketed only))

namespace Derivation

def height {level : Level} : Derivation level → Nat
  | .operation left _ right => max left.height right.height + 1
  | .term only | .primary only => only.height + 1
  | .negated inner | .bracketed inner => inner.height + 1
  | .number _ => 1

end Derivation

def Spells (lexer : Lexer) (t : Tape) (xs : List Lexeme) (u : Tape) : Prop :=
  ∃ tokens, lexer.Takes t tokens u ∧ tokens.map Lexeme.ofToken = xs

namespace Spells

variable {lexer : Lexer} {t u v : Tape} {x : Lexeme} {xs ys : List Lexeme} {text : List Char}
  {start : Nat}

theorem cons_iff : Spells lexer t (x :: xs) v ↔
    ∃ token u, lexer.next t = (.ok (some token), u) ∧ Lexeme.ofToken token = x ∧
      Spells lexer u xs v := by
  constructor
  · rintro ⟨_, takes, same⟩
    obtain ⟨token, tokens, rfl, here, rest⟩ := List.map_eq_cons_iff.mp same
    obtain _ | ⟨called, further⟩ := takes
    exact ⟨token, _, called, here, tokens, further, rest⟩
  · rintro ⟨token, u, called, rfl, tokens, takes, rfl⟩
    exact ⟨token :: tokens, .cons called takes, rfl⟩

theorem singleton_iff : Spells lexer t [x] u ↔
    ∃ token, lexer.next t = (.ok (some token), u) ∧ Lexeme.ofToken token = x := by
  rw [cons_iff]
  constructor
  · rintro ⟨token, v, called, same, _, takes, none⟩
    obtain rfl := List.map_eq_nil_iff.mp none
    cases takes
    exact ⟨token, called, same⟩
  · rintro ⟨token, called, same⟩
    exact ⟨token, u, called, same, [], .nil u, rfl⟩

theorem append_iff : Spells lexer t (xs ++ ys) v ↔
    ∃ u, Spells lexer t xs u ∧ Spells lexer u ys v := by
  induction xs generalizing t with
  | nil =>
    constructor
    · exact fun spells => ⟨t, ⟨[], .nil t, rfl⟩, spells⟩
    · rintro ⟨_, ⟨tokens, takes, none⟩, spells⟩
      obtain rfl := List.map_eq_nil_iff.mp none
      cases takes
      exact spells
  | cons x xs ih =>
    simp only [List.cons_append, cons_iff, ih]
    grind

theorem within (spells : Spells lexer t xs u) (within : t.Within text start) :
    u.Within text t.offset := by
  obtain ⟨tokens, takes, -⟩ := spells
  exact takes.within within

end Spells

def Stops (lexer : Lexer) (level : Level) (t : Tape) : Prop :=
  level = .expression → ∀ sign, lexer.Refuses (Sign.lexeme sign).kind t

variable {rules : Rules σ α} {inner : Plan} {meaning : {level : Level} → Derivation level → α}
  {t u v w : Tape} {text : List Char} {start : Nat}

variable {lexer : Lexer} {call : String → Run σ (Option (Value α))} {token : Token}

theorem gives_sign (within : t.Within text start) {sign : Sign}
    (called : lexer.next t = (.ok (some token), u)) (same : Lexeme.ofToken token = sign.lexeme) :
    Gives t (evaluate lexer call (.choice [.token "Plus" .kind, .token "Minus" .kind]))
      (some [.kind sign.lexeme.kind]) u := by
  have kinds : token.kind = sign.lexeme.kind := congrArg Lexeme.kind same
  rw [← kinds]
  cases sign with
  | plus => exact .choice (.branch (.token called kinds .kind))
  | minus =>
    have refused : lexer.Refuses "Plus" t :=
      Lexer.refuses_of_next called (by rw [kinds]; decide)
    exact .choice (.next_branch within within.same (.refused refused .kind)
      (.branch (.token called kinds .kind)))

theorem gives_no_sign (within : t.Within text start) (stops : Stops lexer .expression t) :
    Gives t (evaluate lexer call (.choice [.token "Plus" .kind, .token "Minus" .kind])) none t :=
  .choice (.next_branch within within.same (.refused (stops rfl .plus) .kind)
    (.next_branch within within.same (.refused (stops rfl .minus) .kind) (.no_branch _)))

theorem gives_operation {a b : α} (within : u.Within text start) {sign : Sign}
    (left : Gives t (call "term") (some (.own a)) u)
    (called : lexer.next u = (.ok (some token), v)) (same : Lexeme.ofToken token = sign.lexeme)
    (right : Gives v (call "expression") (some (.own b)) w) :
    Gives t (evaluate lexer call Calculator.operation)
      (some [.own a, .kind sign.lexeme.kind, .own b]) w :=
  .sequence (.part (.sequence (.part (.called left) .none_left))
    (.part (.sequence (.part (.sequence (.part (gives_sign within called same) .none_left))
      (.part (.sequence (.part (.called right) .none_left)) .none_left))) .none_left))

theorem gives_no_operation {a : α} (within : u.Within text start)
    (left : Gives t (call "term") (some (.own a)) u) (stops : Stops lexer .expression u) :
    Gives t (evaluate lexer call Calculator.operation) none u :=
  .sequence (.part (.sequence (.part (.called left) .none_left))
    (.missing (.sequence (.missing (.sequence (.missing (gives_no_sign within stops)))))))

theorem gives_nested {a : α} {inner : Plan}
    (inside : inner = read "expression" ∨ inner = .optional (read "expression") .default)
    (gives : Gives t (call "expression") (some (.own a)) u) :
    Gives t (evaluate lexer call inner) (some [.own a]) u := by
  rcases inside with rfl | rfl
  · exact .called gives
  · exact .optional (.called gives)

theorem stops_of_next (level : Level) (called : lexer.next t = (.ok (some token), u))
    (other : ∀ sign, token.kind ≠ (Sign.lexeme sign).kind) : Stops lexer level t :=
  fun _ sign => Lexer.refuses_of_next called (other sign)

theorem refuses_minus (d : Derivation .primary) (spells : Spells lexer t d.lexemes u) :
    lexer.Refuses "Minus" t := by
  cases d with
  | number digits =>
    obtain ⟨token, _, called, same, -⟩ := Spells.cons_iff.mp spells
    have kind : token.kind = "Number" := congrArg Lexeme.kind same
    exact Lexer.refuses_of_next called (by simp [kind])
  | bracketed inner =>
    obtain ⟨token, _, called, same, -⟩ := Spells.cons_iff.mp spells
    have kind : token.kind = "LeftParen" := congrArg Lexeme.kind same
    exact Lexer.refuses_of_next called (by simp [kind])

theorem Describes.gives (describes : Describes rules inner meaning) {level : Level}
    (d : Derivation level) (within : t.Within text start)
    (spells : Spells rules.lexer t d.lexemes u) (stops : Stops rules.lexer level u) {n : Nat}
    (enough : d.height ≤ n) :
    Gives t (rules.plain n level.name) (some (.own (meaning d))) u := by
  -- A term ends by itself, so a term that is read twice, the first time as the left side of an
  -- operation, is the same term both times.
  induction d generalizing t u n start with
  | operation left sign right ihLeft ihRight =>
    obtain ⟨operate, pass, listed, operates, -⟩ := describes.expression
    obtain ⟨u', first, rest⟩ := Spells.append_iff.mp spells
    obtain ⟨token, v, called, same, last⟩ := Spells.cons_iff.mp rest
    have behind := first.within within
    have further := (Lexer.Takes.one called).within behind
    rw [Derivation.height] at enough
    have leftGives := ihLeft within first (by simp [Stops]) (show left.height ≤ n - 1 by omega)
    have rightGives := ihRight further last stops (show right.height ≤ n - 1 by omega)
    refine .plain (by omega) ?_
    rw [Level.name, listed]
    exact .alternative (gives_operation behind leftGives called same rightGives)
      (operates left sign right)
  | term only ih =>
    obtain ⟨operate, pass, listed, -, passes⟩ := describes.expression
    have behind := spells.within within
    rw [Derivation.height] at enough
    have gives := ih within spells (by simp [Stops]) (show only.height ≤ n - 1 by omega)
    refine .plain (by omega) ?_
    rw [Level.name, listed]
    exact .next_alternative within behind.same (gives_no_operation behind gives stops)
      (.alternative (.called gives) (passes only))
  | negated inner ih =>
    obtain ⟨negate, pass, listed, negates, -⟩ := describes.term
    obtain ⟨token, v, called, same, rest⟩ := Spells.cons_iff.mp spells
    have further := (Lexer.Takes.one called).within within
    rw [Derivation.height] at enough
    have gives := ih further rest (by simp [Stops]) (show inner.height ≤ n - 1 by omega)
    have minus : token.kind = "Minus" := congrArg Lexeme.kind same
    refine .plain (by omega) ?_
    rw [Level.name, listed]
    exact .alternative (.sequence (.part (.token called minus .nothing)
      (.part (.called gives) .none_left))) (negates inner)
  | primary only ih =>
    obtain ⟨negate, pass, listed, -, passes⟩ := describes.term
    have refused := refuses_minus only spells
    rw [Derivation.height] at enough
    have gives := ih within spells (by simp [Stops]) (show only.height ≤ n - 1 by omega)
    refine .plain (by omega) ?_
    rw [Level.name, listed]
    exact .next_alternative within within.same (.sequence (.missing (.refused refused .nothing)))
      (.alternative (.called gives) (passes only))
  | number digits =>
    obtain ⟨convert, pass, listed, converts, -⟩ := describes.primary
    obtain ⟨token, called, same⟩ := Spells.singleton_iff.mp spells
    have number : token.kind = "Number" := congrArg Lexeme.kind same
    obtain rfl : token.text = digits := congrArg Lexeme.text same
    rw [Derivation.height] at enough
    refine .plain (by omega) ?_
    rw [Level.name, listed]
    exact .alternative (.token called number .token) (converts token)
  | bracketed inner ih =>
    obtain ⟨convert, pass, listed, -, passes⟩ := describes.primary
    obtain ⟨opening, v, opened, sameOpening, rest⟩ := Spells.cons_iff.mp spells
    obtain ⟨w, middle, last⟩ := Spells.append_iff.mp rest
    obtain ⟨closing, closed, sameClosing⟩ := Spells.singleton_iff.mp last
    have opens : opening.kind = "LeftParen" := congrArg Lexeme.kind sameOpening
    have closes : closing.kind = "RightParen" := congrArg Lexeme.kind sameClosing
    have refused : rules.lexer.Refuses "Number" t :=
      Lexer.refuses_of_next opened (by simp [opens])
    have stopped : Stops rules.lexer .expression w := by
      refine stops_of_next _ closed fun sign => ?_
      cases sign <;> simp [closes, Sign.lexeme]
    have further := (Lexer.Takes.one opened).within within
    rw [Derivation.height] at enough
    have gives := ih further middle stopped (show inner.height ≤ n - 1 by omega)
    refine .plain (by omega) ?_
    rw [Level.name, listed]
    exact .next_alternative within within.same (.refused refused .token)
      (.alternative (.sequence (.part (.token opened opens .nothing)
        (.part (gives_nested describes.inside gives)
          (.part (.token closed closes .nothing) .none_left)))) (passes inner))

end Pegsmith.Sample.Arithmetic
