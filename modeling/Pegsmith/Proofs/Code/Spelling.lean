import Mathlib
import Pegsmith.Proofs.Code.Balance
import Pegsmith.Proofs.Grammar.Spelling

set_option autoImplicit false

namespace Pegsmith.Code

variable {p q : String}

def quoting (pattern : String) : String :=
  "/// - `" ++ pattern ++ "`"

inductive Line.Alike (p q : String) : Line → Line → Prop where
  | same (l : Line) : Alike p q l l
  | comment (indent : Nat) : Alike p q ⟨indent, quoting p⟩ ⟨indent, quoting q⟩

/-- Texts that have the same lines but for such comments, behind the same front. -/
def TextsAlike (p q text text' : String) : Prop :=
  ∃ front ls ls', List.Forall₂ (Line.Alike p q) ls ls' ∧
    text = front ++ String.join (ls.map Line.render) ∧
    text' = front ++ String.join (ls'.map Line.render)

theorem Line.Alike.refl_all (ls : List Line) : List.Forall₂ (Line.Alike p q) ls ls :=
  List.forall₂_same.mpr fun l _ => .same l

theorem Writer.text_eq (w : Writer) : w.text = String.join (w.lines.reverse.map Line.render) := by
  have fold (ls : List Line) (rest : String) :
      ls.foldl (fun rest l => l.render ++ rest) rest =
        String.join (ls.reverse.map Line.render) ++ rest := by
    induction ls generalizing rest with
    | nil => simp
    | cons l ls ih => simp [ih, String.append_assoc]
  simpa [Writer.text] using fold w.lines ""

namespace Emit

theorem run_within {header : String} {body : Emit Unit} {depth : Nat} {lines inside : List Line}
    {counts counts' : List (String × Nat)}
    (ran : body.run ⟨⟨⟨depth, Writer.openLine header⟩ :: lines, depth + 1⟩, counts⟩ =
      .ok ((), ⟨⟨inside, depth + 1⟩, counts'⟩)) :
    (within header body).run ⟨⟨lines, depth⟩, counts⟩ =
      .ok ((), ⟨⟨⟨depth, Writer.closeLine⟩ :: inside, depth⟩, counts'⟩) := by
  have opened : (openBlock header).run ⟨⟨lines, depth⟩, counts⟩ =
      .ok (⟨depth + 1⟩, ⟨⟨⟨depth, Writer.openLine header⟩ :: lines, depth + 1⟩, counts⟩) := rfl
  have closed := Writer.close_top ⟨inside, depth + 1⟩
  rw [within, StateT.run_bind, opened]
  change (body >>= fun _ => close ⟨depth + 1⟩).run _ = _
  rw [StateT.run_bind, ran]
  change (close ⟨depth + 1⟩).run _ = _
  rw [run_close, closed]
  rfl

/-- Emitters that go through the same depths and numbers and add lines that are alike. -/
def Alike (p q : String) (body body' : Emit Unit) : Prop :=
  ∀ depth counts, ∃ counts' added added', List.Forall₂ (Line.Alike p q) added added' ∧
    ∀ lines, body.run ⟨⟨lines, depth⟩, counts⟩ = .ok ((), ⟨⟨added ++ lines, depth⟩, counts'⟩) ∧
      body'.run ⟨⟨lines, depth⟩, counts⟩ = .ok ((), ⟨⟨added' ++ lines, depth⟩, counts'⟩)

namespace Alike

variable {body body' next next' : Emit Unit}

theorem of_keeps (keeps : Keeps body) : Alike p q body body := by
  intro depth counts
  obtain ⟨⟨⟩, _, counts', added, rfl, ran⟩ := keeps depth counts
  exact ⟨counts', added, added, Line.Alike.refl_all added, fun lines => ⟨ran lines, ran lines⟩⟩

theorem seq (first : Alike p q body body') (rest : Alike p q next next') :
    Alike p q (body >>= fun _ => next) (body' >>= fun _ => next') := by
  intro depth counts
  obtain ⟨counts', added, added', same, ran⟩ := first depth counts
  obtain ⟨counts'', more, more', alike, goesOn⟩ := rest depth counts'
  refine ⟨counts'', more ++ added, more' ++ added', List.rel_append alike same, fun lines => ?_⟩
  rw [StateT.run_bind, StateT.run_bind, (ran lines).1, (ran lines).2, List.append_assoc,
    List.append_assoc]
  exact ⟨(goesOn _).1, (goesOn _).2⟩

theorem within {header : String} (inside : Alike p q body body') :
    Alike p q (within header body) (within header body') := by
  intro depth counts
  obtain ⟨counts', added, added', same, ran⟩ := inside (depth + 1) counts
  refine ⟨counts', ⟨depth, Writer.closeLine⟩ :: (added ++ [⟨depth, Writer.openLine header⟩]),
    ⟨depth, Writer.closeLine⟩ :: (added' ++ [⟨depth, Writer.openLine header⟩]),
    .cons (.same _) (List.rel_append same (Line.Alike.refl_all _)), fun lines => ?_⟩
  rw [run_within (ran _).1, run_within (ran _).2]
  simp

theorem forM {α : Type} {R : α → α → Prop} {xs ys : List α} (related : List.Forall₂ R xs ys)
    {f g : α → Emit Unit} (each : ∀ x y, R x y → Alike p q (f x) (g y)) :
    Alike p q (xs.forM f) (ys.forM g) := by
  induction related with
  | nil => exact of_keeps (.pure ())
  | cons here _ ih => exact seq (each _ _ here) ih

theorem separatedBy {α : Type} {R : α → α → Prop} {xs ys : List α}
    (related : List.Forall₂ R xs ys) {f g : α → Emit Unit}
    (each : ∀ x y, R x y → Alike p q (f x) (g y)) :
    Alike p q (separatedBy f xs) (separatedBy g ys) := by
  induction related with
  | nil => exact of_keeps (.pure ())
  | cons here rest ih =>
    cases rest with
    | nil => exact each _ _ here
    | cons _ _ => exact seq (each _ _ here) (seq (of_keeps .blank) ih)

end Alike

end Emit

open Emit

theorem forM_eq_of_forall₂ {α : Type} {R : α → α → Prop} {xs ys : List α}
    (related : List.Forall₂ R xs ys) {f g : α → Emit Unit} (same : ∀ x y, R x y → f x = g y) :
    xs.forM f = ys.forM g := by
  induction related with
  | nil => rfl
  | cons here _ ih =>
    simp only [List.forM_eq_forM, List.forM_cons] at ih ⊢
    rw [same _ _ here, ih]

theorem separatedBy_cons_cons {α : Type} (item : α → Emit Unit) (x y : α) (xs : List α) :
    separatedBy item (x :: y :: xs) = (do item x; blank; separatedBy item (y :: xs)) :=
  rfl

theorem separatedBy_eq_of_forall₂ {α : Type} {R : α → α → Prop} {xs ys : List α}
    (related : List.Forall₂ R xs ys) {f g : α → Emit Unit} (same : ∀ x y, R x y → f x = g y) :
    separatedBy f xs = separatedBy g ys := by
  induction related with
  | nil => rfl
  | cons here rest ih =>
    cases rest with
    | nil => exact same _ _ here
    | cons _ _ => rw [separatedBy_cons_cons, separatedBy_cons_cons, same _ _ here, ih]

theorem emitAlternative_eq (tokenType : String) {n m : Lowered.NonTerminal}
    {a b : Lowered.Alternative} (ns : n.Alike p q m) (as : a.Alike p q b) :
    emitAlternative tokenType n a = emitAlternative tokenType m b := by
  have call : makerCall a = makerCall b := by
    funext outputs
    rw [makerCall, makerCall, as.target, as.into]
  rw [emitAlternative, emitAlternative, as.plan, ns.name, ns.value, call]

theorem comment_alike {x y : String} (spelled : Respelled p q x y) :
    Alike p q (line (quoting x)) (line (quoting y)) := by
  rcases spelled with rfl | ⟨rfl, rfl⟩
  · exact .of_keeps (.line _)
  · exact fun depth counts => ⟨counts, _, _, .cons (.comment depth) .nil, fun _ => ⟨rfl, rfl⟩⟩

theorem emitRule_alike (tokenType : String) {n m : Lowered.NonTerminal} (ns : n.Alike p q m) :
    Alike p q (emitRule tokenType n) (emitRule tokenType m) := by
  have attempts := forM_eq_of_forall₂ ns.alternatives
    (f := fun a => within "" do emitAlternative tokenType n a; line "lexer.restore(start);")
    (g := fun a => within "" do emitAlternative tokenType m a; line "lexer.restore(start);")
    fun a b as => by rw [emitAlternative_eq tokenType ns as]
  rw [emitRule, emitRule, ns.name, ns.value, attempts]
  refine .seq (.forM ns.alternatives fun a b as => ?_) (.of_keeps (.within ?_))
  · exact comment_alike as.text
  · refine .seq (.line _) (.seq (.within (.line _)) (.seq ?_ (.seq (.line _) (.line _))))
    exact attempts_keep tokenType m

theorem emitState_eq {l m : LoweredGrammar} (alike : l.Alike p q m) : emitState l = emitState m := by
  have memos := forM_eq_of_forall₂ alike.nonTerminals
    (f := fun n => line s!"{memoField n.name}: ::packrat_runtime::MemoTable<{n.value.text}>,")
    (g := fun n => line s!"{memoField n.name}: ::packrat_runtime::MemoTable<{n.value.text}>,")
    fun a b ns => by rw [ns.name, ns.value]
  rw [emitState, emitState, alike.name, memos]

theorem emitEntry_eq {l m : LoweredGrammar} (alike : l.Alike p q m) {n n' : Lowered.NonTerminal}
    (ns : n.Alike p q n') : emitEntry l n = emitEntry m n' := by
  have memos := forM_eq_of_forall₂ alike.nonTerminals
    (f := fun n => line s!"{memoField n.name}: ::packrat_runtime::MemoTable::new(),")
    (g := fun n => line s!"{memoField n.name}: ::packrat_runtime::MemoTable::new(),")
    fun a b ns => by rw [ns.name]
  rw [emitEntry, emitEntry, alike.name, ns.name, ns.value, memos]

theorem emitParser_alike {l m : LoweredGrammar} (alike : l.Alike p q m) :
    Alike p q (emitParser l) (emitParser m) := by
  -- Only the rules quote patterns.
  have entries := separatedBy_eq_of_forall₂ alike.nonTerminals fun _ _ => emitEntry_eq alike
  rw [emitParser, emitParser, emitState_eq alike, alike.name, alike.tokenType, entries]
  refine .seq (.of_keeps (emitState_keeps m)) (.seq (.of_keeps .blank) (.seq (.of_keeps (.line _)) ?_))
  refine .seq (.within (.separatedBy alike.nonTerminals fun n n' => emitRule_alike _)) (.of_keeps ?_)
  exact .seq .blank (.seq (.line _) (.within (separatedBy_keeps (emitEntry_keeps m) _)))

theorem fileText_alike (t : TokenTable) {l m : LoweredGrammar} (alike : l.Alike p q m) :
    ∃ text text', fileText t l = .ok text ∧ fileText t m = .ok text' ∧ TextsAlike p q text text' := by
  have bodies : Alike p q (do emitLexer t; blank; emitParser l) (do emitLexer t; blank; emitParser m) :=
    .seq (.of_keeps (emitLexer_keeps t)) (.seq (.of_keeps .blank) (emitParser_alike alike))
  obtain ⟨counts, added, added', same, ran⟩ := bodies 0 []
  -- The lines of a writer stand latest first.
  have finished {body : Emit Unit} {added : List Line}
      (ran : body.run {} = .ok ((), ⟨⟨added ++ [], 0⟩, counts⟩)) :
      emittedText body = .ok (String.join (added.reverse.map Line.render)) := by
    rw [emittedText, ran, List.append_nil]
    exact congrArg Except.ok (Writer.text_eq ⟨added, 0⟩)
  refine ⟨_, _, finished (ran []).1, finished (ran []).2, "", added.reverse, added'.reverse,
    List.rel_reverse same, ?_, ?_⟩ <;> rw [String.empty_append]

end Pegsmith.Code
