import Mathlib.Tactic.Common
import Pegsmith.Command.Output

set_option autoImplicit false

namespace Pegsmith.Command

variable {ε α β : Type} {t t' : FileTree}

def Ends (run : Run ε (StateM FileTree) α) (o : Output) (t : FileTree) (a : α) (t' : FileTree) :
    Prop :=
  ∃ o', (run.run.run o).run t = ((.ok a, o'), t')

/-- A run does what the relation says, and fails where it says nothing. -/
def Does (run : Run ε (StateM FileTree) α) (P : FileTree → α → FileTree → Prop) : Prop :=
  ∀ o t a t', Ends run o t a t' ↔ P t a t'

variable {run : Run ε (StateM FileTree) α} {next : α → Run ε (StateM FileTree) β}
  {P R : FileTree → α → FileTree → Prop} {Q : α → FileTree → β → FileTree → Prop}

theorem Does.congr (does : Does run P) (same : ∀ t a t', P t a t' ↔ R t a t') : Does run R :=
  fun o t a t' => (does o t a t').trans (same t a t')

theorem does_pure (a : α) :
    Does (pure a : Run ε (StateM FileTree) α) fun t b t' => b = a ∧ t' = t := by
  intro o t b t'
  constructor
  · rintro ⟨o', ended⟩
    cases ended
    exact ⟨rfl, rfl⟩
  · rintro ⟨rfl, rfl⟩
    exact ⟨o, rfl⟩

theorem does_throw (e : ε) (never : ∀ t a t', ¬P t a t') :
    Does (throw e : Run ε (StateM FileTree) α) P := by
  intro o t a t'
  refine ⟨?_, fun holds => (never t a t' holds).elim⟩
  rintro ⟨o', ended⟩
  cases ended

theorem Does.bind (first : Does run P) (rest : ∀ a, Does (next a) (Q a)) :
    Does (run >>= next) fun t b t' => ∃ a t₁, P t a t₁ ∧ Q a t₁ b t' := by
  intro o t b t'
  unfold Ends
  rw [ExceptT.run_bind, StateT.run_bind, StateT.run_bind]
  constructor
  · -- What comes next starts with all that has been printed so far.
    rintro ⟨o', ended⟩
    rcases answered : (run.run.run o).run t with ⟨⟨result, o₁⟩, t₁⟩
    rw [answered] at ended
    cases result with
    | error e => cases ended
    | ok a => exact ⟨a, t₁, (first o t a t₁).mp ⟨o₁, answered⟩, (rest a o₁ t₁ b t').mp ⟨o', ended⟩⟩
  · rintro ⟨a, t₁, before, after⟩
    obtain ⟨o₁, answered⟩ := (first o t a t₁).mpr before
    obtain ⟨o', ended⟩ := (rest a o₁ t₁ b t').mpr after
    rw [answered]
    exact ⟨o', ended⟩

theorem does_of_except {δ : Type} {x : Except δ α} {run : Run ε (StateM FileTree) β}
    (failing : ∀ e, x = .error e → ∃ f, run = throw f) (rest : ∀ a, x = .ok a → Does run (Q a)) :
    Does run fun t b t' => ∃ a, x = .ok a ∧ Q a t b t' := by
  cases x with
  | error e =>
    obtain ⟨f, rfl⟩ := failing e rfl
    exact does_throw f (by rintro _ _ _ ⟨_, ⟨⟩, _⟩)
  | ok a =>
    refine (rest a rfl).congr fun t b t' => ?_
    constructor
    · exact fun holds => ⟨a, rfl, holds⟩
    · rintro ⟨_, ⟨⟩, holds⟩
      exact holds

theorem does_unless {c : Bool} {e : ε} (rest : Does run P) :
    Does (if c then throw e else run) fun t a t' => c = false ∧ P t a t' := by
  cases c with
  | true => exact does_throw _ (by rintro _ _ _ ⟨⟨⟩, _⟩)
  | false => exact rest.congr fun _ _ _ => ⟨And.intro rfl, And.right⟩

def Spares (run : Run ε (StateM FileTree) Unit) : Prop :=
  Does run fun t _ t' => t' = t

theorem spares_pure : Spares (pure () : Run ε (StateM FileTree) Unit) :=
  (does_pure ()).congr fun _ _ _ => ⟨And.right, And.intro rfl⟩

theorem spares_print (line : String) : Spares (print line : Run ε (StateM FileTree) Unit) := by
  intro o t a t'
  constructor
  · rintro ⟨o', ended⟩
    cases ended
    rfl
  · rintro rfl
    exact ⟨_, rfl⟩

theorem spares_report (line : String) : Spares (report line : Run ε (StateM FileTree) Unit) := by
  intro o t a t'
  constructor
  · rintro ⟨o', ended⟩
    cases ended
    rfl
  · rintro rfl
    exact ⟨_, rfl⟩

theorem Spares.bind {run : Run ε (StateM FileTree) Unit}
    {next : Unit → Run ε (StateM FileTree) α} (spares : Spares run)
    (rest : Does (next ()) P) : Does (run >>= next) P := by
  refine (Does.bind spares fun _ => rest).congr fun t a t' => ?_
  constructor
  · rintro ⟨_, _, rfl, holds⟩
    exact holds
  · exact fun holds => ⟨(), t, rfl, holds⟩

theorem spares_forM {xs : List α} {f : α → Run ε (StateM FileTree) Unit}
    (each : ∀ x, Spares (f x)) : Spares (xs.forM f) := by
  induction xs with
  | nil => exact spares_pure
  | cons x xs ih =>
    rw [List.forM_eq_forM, List.forM_cons]
    exact (each x).bind ih

theorem does_lift (question : StateM FileTree α) :
    Does (ExceptT.lift (StateT.lift question) : Run ε (StateM FileTree) α) fun t a t' =>
      question.run t = (a, t') := by
  intro o t a t'
  have ran : ((ExceptT.lift (StateT.lift question) : Run ε (StateM FileTree) α).run.run o).run t =
      ((.ok (question.run t).1, o), (question.run t).2) := rfl
  rw [Ends, ran]
  constructor
  · rintro ⟨o', ended⟩
    cases ended
    rfl
  · intro answered
    rw [answered]
    exact ⟨o, rfl⟩

theorem does_ask (fail : FileError → ε) (question : StateM FileTree (Except FileError α)) :
    Does (ask fail question) fun t a t' => question.run t = (.ok a, t') := by
  refine ((does_lift question).bind (Q := fun result t a t' => result = .ok a ∧ t' = t)
    fun result => ?_).congr fun t a t' => ?_
  · cases result with
    | ok a => exact (does_pure a).congr fun _ _ _ => by rw [Except.ok.injEq, eq_comm]
    | error e => exact does_throw _ (by rintro _ _ _ ⟨⟨⟩, _⟩)
  · constructor
    · rintro ⟨_, _, answered, rfl, rfl⟩
      exact answered
    · exact fun answered => ⟨_, _, answered, rfl, rfl⟩

theorem run_keeping_eq_ok_iff {step : FileTree → Except FileError FileTree} :
    (FileTree.keeping step).run t = (.ok (), t') ↔ step t = .ok t' := by
  simp only [FileTree.keeping, StateT.run_bind, StateT.run_get, pure_bind]
  cases step t with
  | error e =>
    constructor
    · intro ended
      cases ended
    · intro stepped
      cases stepped
  | ok t₁ =>
    constructor
    · intro ended
      cases ended
      rfl
    · intro stepped
      cases stepped
      rfl

theorem does_read (fail : FileError → ε) (path : String) :
    Does (ask fail (FileTree.system.read path)) fun t text t' =>
      t.read path = .ok text ∧ t' = t := by
  refine (does_ask fail _).congr fun t text t' => ?_
  have ran : (FileTree.system.read path).run t = (t.read path, t) := rfl
  rw [ran, Prod.mk.injEq, eq_comm (a := t)]

theorem does_makeDirs (fail : FileError → ε) (path : String) :
    Does (ask fail (FileTree.system.makeDirs path)) fun t _ t' => t.makeDirs path = .ok t' :=
  (does_ask fail _).congr fun _ _ _ => run_keeping_eq_ok_iff

theorem does_save (fail : String → FileError → ε) (directory : String) (p : GeneratedParser) :
    Does (save FileTree.system fail directory p) fun t path t' =>
      path = join directory p.fileName ∧ t.write path p.source = .ok t' := by
  have wrote := does_ask (fail (join directory p.fileName))
    (FileTree.system.write (join directory p.fileName) p.source)
  refine (wrote.bind fun _ => does_pure _).congr fun t path t' => ?_
  constructor
  · rintro ⟨_, t₁, written, rfl, rfl⟩
    exact ⟨rfl, run_keeping_eq_ok_iff.mp written⟩
  · rintro ⟨rfl, written⟩
    exact ⟨(), t', run_keeping_eq_ok_iff.mpr written, rfl, rfl⟩

end Pegsmith.Command
