import Mathlib.Data.Finset.Card
import Pegsmith.Proofs.Parsing.Tiling

set_option autoImplicit false

namespace Pegsmith.Parsing

namespace Lexer

open Tape

variable {lexer : Lexer} {text : List Char} {kind : String} {start place : Nat} {t u v w : Tape}
  {tokens front more : List Token} {token : Token} {error : Option ParseError}

theorem Takes.onward (first : lexer.Takes t tokens u) (second : lexer.Takes t more v) :
    (∃ rest, lexer.Takes u rest v) ∨ ∃ rest, lexer.Takes v rest u := by
  induction first generalizing more with
  | nil t => exact .inl ⟨more, second⟩
  | cons called taken ih =>
    cases second with
    | nil => exact .inr ⟨_, .cons called taken⟩
    | cons again rest =>
      obtain ⟨rfl, rfl⟩ : _ = _ ∧ _ = _ := by simpa using called.symm.trans again
      exact ih rest

theorem Reads.split (reads : lexer.Reads t tokens error u) (takes : lexer.Takes t front w) :
    ∃ rest, tokens = front ++ rest ∧ lexer.Reads w rest error u := by
  induction takes generalizing tokens with
  | nil => exact ⟨tokens, rfl, reads⟩
  | @cons t w _ token _ called _ ih =>
    obtain ⟨v, taken, last⟩ := reads
    cases taken with
    | nil =>
      rw [called] at last
      cases error <;> cases last
    | cons again onward =>
      obtain ⟨rfl, rfl⟩ : _ = _ ∧ _ = _ := by simpa using called.symm.trans again
      obtain ⟨rest, rfl, further⟩ := ih ⟨v, onward, last⟩
      exact ⟨rest, rfl, further⟩

def Reaches (lexer : Lexer) (text : List Char) (place : Nat) : Prop :=
  ∃ tokens, lexer.Takes ⟨text, 0⟩ tokens ⟨text, place⟩

theorem Reaches.within (reaches : lexer.Reaches text place) :
    (⟨text, place⟩ : Tape).Within text place := by
  obtain ⟨tokens, takes⟩ := reaches
  exact (takes.within (within_start text)).here

theorem Reaches.next_of_lt {further : Nat} (reaches : lexer.Reaches text place)
    (beyond : lexer.Reaches text further) (less : place < further) :
    ∃ token u, lexer.next ⟨text, place⟩ = (.ok (some token), u) ∧ u.offset ≤ further := by
  have within := reaches.within
  obtain ⟨tokens, takes⟩ := reaches
  obtain ⟨more, again⟩ := beyond
  -- Of two rows of tokens from the start the longer one goes on from the shorter one.
  rcases takes.onward again with ⟨rest, ahead⟩ | ⟨rest, back⟩
  · cases ahead with
    | nil => omega
    | @cons _ u _ token _ called onward =>
      have inside := (@next_within lexer _ _ _ within).1
      rw [called] at inside
      exact ⟨token, u, called, (onward.within inside).behind⟩
  · have behind := (back.within (again.within (within_start text))).behind
    simp only at behind
    omega

def Begins (lexer : Lexer) (kind : String) (text : List Char) (place : Nat) : Prop :=
  lexer.Reaches text place ∧
    ∃ token u, lexer.next ⟨text, place⟩ = (.ok (some token), u) ∧ token.kind = kind

def startsOf (kind : String) : Nat → List Token → List Nat
  | _, [] => []
  | place, token :: tokens =>
      if token.kind = kind then place :: startsOf kind token.stop tokens
      else startsOf kind token.stop tokens

theorem length_startsOf (kind : String) (place : Nat) (tokens : List Token) :
    (startsOf kind place tokens).length = tokens.countP (·.kind = kind) := by
  induction tokens generalizing place with
  | nil => rfl
  | cons token tokens ih =>
    rw [startsOf, List.countP_cons]
    split <;> simp_all

theorem offset_of_next (called : lexer.next t = (.ok (some token), u))
    (within : t.Within text start) : u.offset = token.stop := by
  have takes : lexer.Takes t ([] ++ [token]) u := .one called
  exact takes.offset_eq_stop within

theorem Reads.all_start {error : Option ParseError}
    (reads : lexer.Reads ⟨text, 0⟩ tokens error u) : lexer.all ⟨text, 0⟩ = (tokens, error, u) := by
  have between : lexer.Reads (Tape.between [] text) tokens error u := reads
  exact between.all

theorem Takes.mem_startsOf_iff (takes : lexer.Takes t tokens u) (within : t.Within text start) :
    place ∈ startsOf kind t.offset tokens ↔ ∃ front token back,
      tokens = front ++ token :: back ∧ token.kind = kind ∧ lexer.Takes t front ⟨text, place⟩ := by
  induction takes generalizing start with
  | nil => simp [startsOf]
  | @cons t u v token tokens called rest ih =>
    have inside := (@next_within lexer _ _ _ within).1
    rw [called] at inside
    have stop := offset_of_next called within
    have later := ih inside
    rw [stop] at later
    have listed : place ∈ startsOf kind t.offset (token :: tokens) ↔
        (token.kind = kind ∧ place = t.offset) ∨ place ∈ startsOf kind token.stop tokens := by
      rw [startsOf]
      split <;> simp_all
    rw [listed, later]
    -- Either nothing has been taken yet, or the first token is among what has been.
    constructor
    · rintro (⟨same, rfl⟩ | ⟨front, found, back, rfl, same, taken⟩)
      · have here : t = ⟨text, t.offset⟩ := by rw [← within.same]
        exact ⟨[], token, tokens, rfl, same, here ▸ .nil t⟩
      · exact ⟨token :: front, found, back, rfl, same, .cons called taken⟩
    · rintro ⟨_ | ⟨first, front⟩, found, back, split, same, taken⟩
      · obtain ⟨rfl, rfl⟩ := List.cons.inj split
        cases taken
        exact .inl ⟨same, rfl⟩
      · obtain ⟨rfl, rfl⟩ := List.cons.inj split
        obtain _ | ⟨again, taken⟩ := taken
        obtain rfl := (Prod.mk.inj (called.symm.trans again)).2
        exact .inr ⟨front, found, back, rfl, same, taken⟩

theorem Takes.nodup_startsOf (takes : lexer.Takes t tokens u) (within : t.Within text start) :
    (startsOf kind t.offset tokens).Nodup := by
  induction takes generalizing start with
  | nil => exact List.nodup_nil
  | @cons t u v token tokens called rest ih =>
    have after := @next_within lexer _ _ _ within
    rw [called] at after
    have stop := offset_of_next called within
    have distinct := ih after.1
    rw [stop] at distinct
    rw [startsOf]
    split
    · refine List.nodup_cons.mpr ⟨fun again => ?_, distinct⟩
      rw [← stop, rest.mem_startsOf_iff after.1] at again
      -- The place of the first token cannot come again: what follows is behind its end.
      obtain ⟨_, _, _, -, -, back⟩ := again
      exact absurd (back.within after.1).behind (Nat.not_le.mpr (after.2 token rfl))
    · exact distinct

theorem exists_reads (lexer : Lexer) (text : List Char) :
    ∃ tokens error u, lexer.Reads ⟨text, 0⟩ tokens error u := by
  obtain ⟨pieces, left, tiles, ends⟩ := lexer.exists_tiles text
  obtain ⟨error, reads, -⟩ := tiles.exists_reads ends []
  exact ⟨_, error, _, reads⟩

def placesOf (lexer : Lexer) (kind : String) (text : List Char) : Finset Nat :=
  (startsOf kind 0 (lexer.all ⟨text, 0⟩).1).toFinset

theorem mem_placesOf : place ∈ lexer.placesOf kind text ↔ lexer.Begins kind text place := by
  obtain ⟨tokens, error, u, reads⟩ := lexer.exists_reads text
  obtain ⟨v, taken, last⟩ := id reads
  have all : lexer.all ⟨text, 0⟩ = (tokens, error, u) := reads.all_start
  rw [placesOf, all, List.mem_toFinset, taken.mem_startsOf_iff (within_start text)]
  constructor
  · rintro ⟨front, token, back, rfl, same, takes⟩
    obtain ⟨rest, split, x, onward, -⟩ := reads.split takes
    obtain rfl := List.append_cancel_left split
    obtain _ | ⟨called, -⟩ := onward
    exact ⟨⟨front, takes⟩, token, _, called, same⟩
  · rintro ⟨⟨front, takes⟩, token, w, called, same⟩
    obtain ⟨rest, rfl, -⟩ := reads.split (takes.append (.one called))
    exact ⟨front, token, rest, by simp, same, takes⟩

theorem card_placesOf (lexer : Lexer) (kind : String) (text : List Char) :
    (lexer.placesOf kind text).card = (lexer.all ⟨text, 0⟩).1.countP (·.kind = kind) := by
  obtain ⟨tokens, error, u, reads⟩ := lexer.exists_reads text
  obtain ⟨v, taken, last⟩ := id reads
  have all : lexer.all ⟨text, 0⟩ = (tokens, error, u) := reads.all_start
  rw [placesOf, all, List.toFinset_card_of_nodup (taken.nodup_startsOf (within_start text)),
    length_startsOf]

end Lexer

end Pegsmith.Parsing
