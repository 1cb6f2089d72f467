import Pegsmith.Proofs.Parsing.Regular
import Pegsmith.Proofs.Parsing.Tiling

set_option autoImplicit false

namespace Pegsmith

open Parsing

namespace Plan

variable {α : Type} (calls : String → List Token → α → Prop)

mutual

/-- The tokens that a plan matches and the values that come out, where those of calls are given. -/
def Spells : Plan → List Token → List (Value α) → Prop
  | .token kind use, ts, vs => ∃ t : Token, t.kind = kind ∧ ts = [t] ∧ vs = useToken use t
  | .call name keep _, ts, vs => ∃ a, calls name ts a ∧ vs = if keep then [.own a] else []
  | .sequence parts, ts, vs => SpellsAll parts ts vs
  | .single inner, ts, vs => ∃ us, Spells inner ts us ∧ vs = [.list [Value.together us]]
  | .present inner, ts, vs => ∃ us, Spells inner ts us ∧ vs = [.present (Value.together us)]
  | .pack inner, ts, vs => ∃ us, Spells inner ts us ∧ vs = [.tuple us]
  | .collect inner _, ts, vs => Spells inner ts vs
  | .concat parts, ts, vs =>
      ∃ us items, SpellsAll parts ts us ∧ Value.concat? us = some items ∧ vs = [.list items]
  | .loop inner atLeastOne keep, ts, vs =>
      ∃ rounds : List (List Token × List (Value α)), (∀ r ∈ rounds, Spells inner r.1 r.2) ∧
        (atLeastOne = true → rounds ≠ []) ∧ ts = rounds.flatMap Prod.fst ∧
        vs = if keep then [.list (rounds.map fun r => Value.together r.2)] else []
  | .optional inner fallback, ts, vs =>
      (ts = [] ∧ vs = fill inner.arity fallback none) ∨
        ∃ us, Spells inner ts us ∧ vs = fill inner.arity fallback (some us)
  | .choice branches, ts, vs => SpellsSome branches ts vs

def SpellsAll : List Plan → List Token → List (Value α) → Prop
  | [], ts, vs => ts = [] ∧ vs = []
  | p :: ps, ts, vs => ∃ front rest us ws, Spells p front us ∧ SpellsAll ps rest ws ∧
      ts = front ++ rest ∧ vs = us ++ ws

def SpellsSome : List Plan → List Token → List (Value α) → Prop
  | [], _, _ => False
  | p :: ps, ts, vs => Spells p ts vs ∨ SpellsSome ps ts vs

end

variable {calls}

mutual

theorem ne_nil_of_spells (filled : ∀ name ts a, calls name ts a → ts ≠ []) :
    (p : Plan) → p.takesToken = true → ∀ ts vs, p.Spells calls ts vs → ts ≠ []
  | .token .., _ => by
    rintro _ _ ⟨t, -, rfl, -⟩
    exact List.cons_ne_nil t []
  | .call .., _ => by
    rintro ts _ ⟨a, called, -⟩
    exact filled _ ts a called
  | .sequence parts, takes => ne_nil_of_spellsAll filled parts takes
  | .single inner, takes | .present inner, takes | .pack inner, takes => by
    rintro ts _ ⟨us, spells, -⟩
    exact ne_nil_of_spells filled inner takes ts us spells
  | .collect inner _, takes => ne_nil_of_spells filled inner takes
  | .concat parts, takes => by
    rintro ts _ ⟨us, items, spells, -⟩
    exact ne_nil_of_spellsAll filled parts takes ts us spells
  | .loop inner .., takes => by
    rintro _ _ ⟨rounds, each, least, rfl, -⟩
    rw [takesToken, Bool.and_eq_true] at takes
    obtain ⟨r, rest, rfl⟩ := List.exists_cons_of_ne_nil (least takes.1)
    have first := ne_nil_of_spells filled inner takes.2 r.1 r.2 (each r List.mem_cons_self)
    simp [first]
  | .choice branches, takes => ne_nil_of_spellsSome filled branches takes

theorem ne_nil_of_spellsAll (filled : ∀ name ts a, calls name ts a → ts ≠ []) :
    (ps : List Plan) → anyTakesToken ps = true → ∀ ts vs, SpellsAll calls ps ts vs → ts ≠ []
  | p :: ps, takes => by
    rintro _ _ ⟨front, rest, us, ws, first, others, rfl, -⟩
    rw [anyTakesToken, Bool.or_eq_true] at takes
    rcases takes with here | later
    · simp [ne_nil_of_spells filled p here front us first]
    · simp [ne_nil_of_spellsAll filled ps later rest ws others]

theorem ne_nil_of_spellsSome (filled : ∀ name ts a, calls name ts a → ts ≠ []) :
    (ps : List Plan) → allTakeToken ps = true → ∀ ts vs, SpellsSome calls ps ts vs → ts ≠ []
  | [], _ => by
    rintro _ _ ⟨⟩
  | p :: ps, takes => by
    rw [allTakeToken, Bool.and_eq_true] at takes
    rintro ts vs (here | later)
    · exact ne_nil_of_spells filled p takes.1 ts vs here
    · exact ne_nil_of_spellsSome filled ps takes.2 ts vs later

end

end Plan

namespace Parsing

open Run

variable {σ α β γ : Type}

namespace Rules

/-- Tokens of a non-terminal and a value that is built of them, in a derivation of at most so many
alternatives inside each other. -/
def Derives (rules : Rules σ α) : Nat → String → List Token → α → Prop
  | 0, _, _, _ => False
  | n + 1, name, tokens, a => ∃ alternative ∈ rules.alternatives name, ∃ vs s r,
      alternative.plan.Spells (rules.Derives n) tokens vs ∧
        alternative.build vs s = some (.ok a, r)

theorem Regular.ne_nil_of_derives {rules : Rules σ α} {good : String → α → Prop}
    (regular : rules.Regular good) {n : Nat} {name : String} {tokens : List Token} {a : α}
    (derives : rules.Derives n name tokens a) : tokens ≠ [] := by
  induction n generalizing name tokens a with
  | zero => exact derives.elim
  | succ n ih =>
    obtain ⟨alternative, member, vs, _, _, spells, -⟩ := derives
    have takes := (regular name alternative member).takes
    exact Plan.ne_nil_of_spells (fun _ _ _ => ih) _ takes _ _ spells

end Rules

theorem Run.runFrom_restore_bind {text : List Char} {start : Nat} {t u : Tape}
    {next : Unit → Run σ γ} (within : t.Within text start) (same : u.text = text) (s : σ) :
    (restore t.offset >>= next).runFrom u s = (next ()).runFrom t s := by
  have back : ({ u with offset := t.offset } : Tape) = t := by rw [same, ← within.same]
  have boundary : Text.isBoundary u.text t.offset = true := same ▸ within.boundary
  rw [runFrom_bind, runFrom_restore, if_pos boundary, back]

def Ends (stops : Stop → Tape → Prop) (t : Tape) (run : Run σ β) (post : β → Tape → Prop) : Prop :=
  ∀ s, match run.runFrom t s with
    | (.ok b, u, _) => post b u
    | (.error stop, u, _) => stops stop u

namespace Ends

variable {stops : Stop → Tape → Prop} {text : List Char} {start : Nat} {t u : Tape}
  {run : Run σ β} {post mid : β → Tape → Prop}

theorem pure {b : β} (holds : post b t) : Ends stops t (pure b : Run σ β) post := fun _ => holds

theorem stop {e : Stop} (holds : stops e t) : Ends stops t (stop e : Run σ β) post := fun _ => holds

theorem useful {v : Option β} (holds : stops .stuck t) :
    Ends stops t (useful v : Run σ β) fun b u => v = some b ∧ u = t := by
  cases v with
  | none => exact stop holds
  | some b => exact pure ⟨rfl, rfl⟩

theorem bind {next : β → Run σ γ} {after : γ → Tape → Prop} (first : Ends stops t run mid)
    (rest : ∀ b u, mid b u → Ends stops u (next b) after) :
    Ends stops t (run >>= next) after := by
  intro s
  have led := first s
  rw [runFrom_bind]
  generalize run.runFrom t s = answer at led ⊢
  obtain ⟨_ | b, u, r⟩ := answer
  · exact led
  · exact rest b u led r

theorem mono (ends : Ends stops t run mid) (weaker : ∀ b u, mid b u → post b u) :
    Ends stops t run post := by
  intro s
  have led := ends s
  generalize run.runFrom t s = answer at led ⊢
  obtain ⟨_ | b, u, _⟩ := answer
  · exact led
  · exact weaker b u led

theorem position {next : Nat → Run σ γ} {after : γ → Tape → Prop}
    (rest : Ends stops t (next t.offset) after) : Ends stops t (position >>= next) after := rest

theorem get {next : Tape × σ → Run σ γ} {after : γ → Tape → Prop}
    (rest : ∀ s, Ends stops t (next (t, s)) after) : Ends stops t (get >>= next) after :=
  fun s => rest s s

theorem restore {next : Unit → Run σ γ} {after : γ → Tape → Prop} (within : t.Within text start)
    (same : u.text = text) (rest : Ends stops t (next ()) after) :
    Ends stops u (restore t.offset >>= next) after := by
  intro s
  rw [runFrom_restore_bind within same]
  exact rest s

end Ends

def StopsUnread (lexer : Lexer) (text : List Char) (start : Nat) : Stop → Tape → Prop
  | .error e, u => u.Within text start ∧ e = .noRule u.offset u.remainder ∧ u.remainder ≠ [] ∧
      ∀ rule ∈ lexer, rule.matcher.front u.remainder = []
  | .fault _, _ => True
  | .stuck, _ => True

def Matched (lexer : Lexer) (text : List Char) (spelled : List Token → β → Prop) (t : Tape) :
    Option β → Tape → Prop
  | none, u => u.Within text t.offset
  | some b, u => ∃ tokens, lexer.Takes t tokens u ∧ spelled tokens b

namespace Ends

variable {lexer : Lexer} {text : List Char} {start : Nat} {t : Tape}
  {spelled : List Token → List (Value α) → Prop} {body : Run σ (Outputs α)}

theorem nextIf_cases (kind : String) (within : t.Within text start) :
    (∃ e u, lexer.nextIf kind t = (.error e, u) ∧ StopsUnread lexer text start (.error e) u) ∨
      lexer.nextIf kind t = (.ok none, t) ∨
      ∃ token u, lexer.nextIf kind t = (.ok (some token), u) ∧
        lexer.next t = (.ok (some token), u) ∧ token.kind = kind := by
  obtain ⟨read, whole, same⟩ := within.eq_between
  have called := @Lexer.next_within lexer _ _ _ within
  obtain ⟨skipped, left, split, ended | failed | ⟨p, rest, -, -, -, found⟩⟩ :=
    lexer.next_cases read t.remainder
  · rw [← same] at ended
    rw [Lexer.nextIf, ended.2]
    simp
  · rw [← same] at failed
    rw [failed.2.2] at called
    rw [Lexer.nextIf, failed.2.2]
    refine .inl ⟨_, _, rfl, called.1.of_le within.behind, ?_, ?_, ?_⟩
    · rw [Tape.remainder_between]
      rfl
    · rw [Tape.remainder_between]
      exact failed.1
    · rw [Tape.remainder_between]
      exact failed.2.1
  · rw [← same] at found
    by_cases kinds : p.rule.kind = kind
    · refine .inr (.inr ⟨_, _, ?_, found, kinds⟩)
      rw [Lexer.nextIf, found]
      exact if_pos kinds
    · refine .inr (.inl ?_)
      rw [Lexer.nextIf, found]
      exact if_neg kinds

theorem take? (kind : String) (within : t.Within text start) :
    Ends (StopsUnread lexer text start) t (take? lexer kind : Run σ (Option Token))
      (Matched lexer text (fun tokens token => token.kind = kind ∧ tokens = [token]) t) := by
  intro s
  rw [runFrom_take?]
  obtain ⟨e, u, failed, unread⟩ | missing | ⟨token, u, taken, called, kinds⟩ :=
    @nextIf_cases lexer _ _ _ kind within
  · rw [failed]
    exact unread
  · rw [missing]
    exact within.here
  · rw [taken]
    exact ⟨[token], .one called, kinds, rfl⟩

theorem oneValue {f : List (Value α) → Option (Value α)}
    {become : List Token → List (Value α) → Prop}
    (ends : Ends (StopsUnread lexer text start) t body (Matched lexer text spelled t))
    (one : ∀ tokens vs v, spelled tokens vs → f vs = some v → become tokens [v]) :
    Ends (StopsUnread lexer text start) t (oneValue body f) (Matched lexer text become t) := by
  refine ends.bind fun found u matched => ?_
  cases found with
  | none => exact pure matched
  | some vs =>
    obtain ⟨tokens, takes, spells⟩ := matched
    refine (useful trivial).bind ?_
    rintro v _ ⟨defined, rfl⟩
    exact pure ⟨tokens, takes, one tokens vs v spells defined⟩

theorem rounds {n : Nat} (within : t.Within text start)
    (each : ∀ u, u.Within text t.offset →
      Ends (StopsUnread lexer text start) u body (Matched lexer text spelled u)) :
    Ends (StopsUnread lexer text start) t (rounds body n) fun found u =>
      ∃ rounds : List (List Token × List (Value α)), lexer.Takes t (rounds.flatMap Prod.fst) u ∧
        (∀ r ∈ rounds, spelled r.1 r.2) ∧ found = rounds.map Prod.snd := by
  induction n generalizing t start with
  | zero => exact stop trivial
  | succ n ih =>
    rw [Parsing.rounds]
    refine position ((each t within.here).bind fun found u matched => ?_)
    cases found with
    | none =>
      have back : u.Within text t.offset := matched
      exact restore within back.same (pure ⟨[], .nil t, by simp, rfl⟩)
    | some vs =>
      obtain ⟨tokens, takes, spells⟩ := matched
      have later := takes.within within
      refine position ?_
      by_cases still : u.offset = t.offset
      · rw [if_pos still]
        exact pure ⟨[(tokens, vs)], by simpa using takes, by simpa using spells, rfl⟩
      · rw [if_neg still]
        refine (ih (later.of_le within.behind) fun v further =>
          each v (further.of_le later.behind)).bind fun rest v read => ?_
        obtain ⟨rounds, more, all, rfl⟩ := read
        refine pure ⟨(tokens, vs) :: rounds, ?_, List.forall_mem_cons.mpr ⟨spells, all⟩, rfl⟩
        rw [List.flatMap_cons]
        exact takes.append more

theorem loop {inner : Plan} {calls : String → List Token → α → Prop} {atLeastOne keep : Bool}
    (within : t.Within text start)
    (each : ∀ u, u.Within text t.offset →
      Ends (StopsUnread lexer text start) u body (Matched lexer text (inner.Spells calls) u)) :
    Ends (StopsUnread lexer text start) t (loop body atLeastOne keep)
      (Matched lexer text ((Plan.loop inner atLeastOne keep).Spells calls) t) := by
  rw [Parsing.loop]
  refine get fun s => ((rounds within each).bind fun found u read => ?_)
  obtain ⟨rounds, takes, all, rfl⟩ := read
  by_cases short : (atLeastOne && (rounds.map Prod.snd).isEmpty) = true
  · rw [if_pos short]
    exact pure (takes.within within)
  · rw [if_neg short]
    refine pure ⟨_, takes, rounds, all, ?_, rfl, by simp [List.map_map]; rfl⟩
    rintro least rfl
    exact short (by simp [least])

theorem optional {inner : Plan} {calls : String → List Token → α → Prop} {fallback : Fallback}
    (within : t.Within text start)
    (ends : Ends (StopsUnread lexer text start) t body
      (Matched lexer text (inner.Spells calls) t)) :
    Ends (StopsUnread lexer text start) t (optional body inner.arity fallback)
      (Matched lexer text ((Plan.optional inner fallback).Spells calls) t) := by
  rw [Parsing.optional]
  refine position (ends.bind fun found u matched => ?_)
  cases found with
  | none =>
    have back : u.Within text t.offset := matched
    exact restore within back.same (pure ⟨[], .nil t, .inl ⟨rfl, rfl⟩⟩)
  | some vs =>
    obtain ⟨tokens, takes, spells⟩ := matched
    exact pure ⟨tokens, takes, .inr ⟨vs, spells, rfl⟩⟩

variable {call : String → Run σ (Option (Value α))} {derives : String → List Token → α → Prop}

mutual

theorem evaluate (calls : ∀ name u, u.Within text start →
      Ends (StopsUnread lexer text start) u (call name)
        (Matched lexer text (fun tokens v => ∃ a, v = .own a ∧ derives name tokens a) u))
    {t : Tape} (within : t.Within text start) :
    (plan : Plan) → Ends (StopsUnread lexer text start) t (Parsing.evaluate lexer call plan)
      (Matched lexer text (plan.Spells derives) t)
  | .token kind use => by
    rw [Parsing.evaluate]
    refine (take? kind within).bind fun found u matched => ?_
    cases found with
    | none => exact pure matched
    | some token =>
      obtain ⟨tokens, takes, kinds, rfl⟩ := matched
      exact pure ⟨_, takes, token, kinds, rfl, rfl⟩
  | .call name keep into => by
    rw [Parsing.evaluate]
    refine (calls name t within).bind fun found u matched => ?_
    cases found with
    | none => exact pure matched
    | some v =>
      obtain ⟨tokens, takes, a, rfl, derived⟩ := matched
      exact pure ⟨tokens, takes, a, derived, rfl⟩
  | .sequence parts => by
    rw [Parsing.evaluate]
    exact evaluateParts calls within parts
  | .single inner | .present inner | .pack inner => by
    rw [Parsing.evaluate]
    refine (evaluate calls within inner).oneValue ?_
    rintro tokens vs _ spells ⟨⟩
    exact ⟨vs, spells, rfl⟩
  | .collect inner type => by
    rw [Parsing.evaluate]
    exact evaluate calls within inner
  | .concat parts => by
    rw [Parsing.evaluate]
    refine (evaluateParts calls within parts).oneValue ?_
    intro tokens vs v spells defined
    obtain ⟨items, joined, rfl⟩ := Option.map_eq_some_iff.mp defined
    exact ⟨vs, items, spells, joined, rfl⟩
  | .loop inner atLeastOne keep => by
    rw [Parsing.evaluate]
    exact loop within fun u later => evaluate calls (later.of_le within.behind) inner
  | .optional inner fallback => by
    rw [Parsing.evaluate]
    exact optional within (evaluate calls within inner)
  | .choice branches => by
    rw [Parsing.evaluate]
    exact position (evaluateBranches calls within branches)

theorem evaluateParts (calls : ∀ name u, u.Within text start →
      Ends (StopsUnread lexer text start) u (call name)
        (Matched lexer text (fun tokens v => ∃ a, v = .own a ∧ derives name tokens a) u))
    {t : Tape} (within : t.Within text start) :
    (plans : List Plan) → Ends (StopsUnread lexer text start) t
      (Parsing.evaluateParts lexer call plans)
      (Matched lexer text (Plan.SpellsAll derives plans) t)
  | [] => by
    rw [Parsing.evaluateParts]
    exact pure ⟨[], .nil t, rfl, rfl⟩
  | plan :: plans => by
    rw [Parsing.evaluateParts]
    refine (evaluate calls within plan).bind fun found u matched => ?_
    cases found with
    | none => exact pure matched
    | some vs =>
      obtain ⟨tokens, takes, spells⟩ := matched
      have later := takes.within within
      refine (evaluateParts calls (later.of_le within.behind) plans).bind fun rest v read => ?_
      cases rest with
      | none =>
        have inside : v.Within text u.offset := read
        exact pure (inside.of_le later.behind)
      | some ws =>
        obtain ⟨more, further, others⟩ := read
        exact pure ⟨_, takes.append further, tokens, more, vs, ws, spells, others, rfl, rfl⟩

theorem evaluateBranches (calls : ∀ name u, u.Within text start →
      Ends (StopsUnread lexer text start) u (call name)
        (Matched lexer text (fun tokens v => ∃ a, v = .own a ∧ derives name tokens a) u))
    {t : Tape} (within : t.Within text start) :
    (plans : List Plan) → Ends (StopsUnread lexer text start) t
      (Parsing.evaluateBranches lexer call t.offset plans)
      (Matched lexer text (Plan.SpellsSome derives plans) t)
  | [] => by
    rw [Parsing.evaluateBranches]
    exact pure within.here
  | plan :: plans => by
    rw [Parsing.evaluateBranches]
    refine (evaluate calls within plan).bind fun found u matched => ?_
    cases found with
    | none =>
      have back : u.Within text t.offset := matched
      refine restore within back.same ((evaluateBranches calls within plans).mono ?_)
      rintro (_ | vs) v read
      · exact read
      · obtain ⟨tokens, takes, spells⟩ := read
        exact ⟨tokens, takes, .inr spells⟩
    | some vs =>
      obtain ⟨tokens, takes, spells⟩ := matched
      exact pure ⟨tokens, takes, .inl spells⟩

end

end Ends

namespace Rules

variable {lexer : Lexer} {text : List Char} {start : Nat} {t : Tape}

theorem buildWith_ends (build : Build σ α) (vs : List (Value α)) :
    Ends (StopsUnread lexer text start) t (buildWith id (fun s _ => s) build vs) fun v u =>
      u = t ∧ ∃ a s r, v = .own a ∧ build vs s = some (.ok a, r) := by
  intro s
  rw [runFrom_buildWith]
  cases built : build vs (id s) with
  | none => trivial
  | some result =>
    obtain ⟨_ | a, r⟩ := result
    · trivial
    · exact ⟨rfl, a, s, r, rfl, built⟩

theorem firstMatch_ends {call : String → Run σ (Option (Value α))}
    {derives : String → List Token → α → Prop}
    (calls : ∀ name u, u.Within text start →
      Ends (StopsUnread lexer text start) u (call name)
        (Matched lexer text (fun tokens v => ∃ a, v = .own a ∧ derives name tokens a) u))
    (within : t.Within text start) (as : List (Alternative σ α)) :
    Ends (StopsUnread lexer text start) t
      (firstMatch lexer call (buildWith id fun s _ => s) t.offset as) fun found u =>
        (found = none → u = t) ∧ Matched lexer text (fun tokens v => ∃ a, v = .own a ∧
          ∃ b ∈ as, ∃ vs s r, b.plan.Spells derives tokens vs ∧ b.build vs s = some (.ok a, r))
          t found u := by
  induction as with
  | nil => exact .pure ⟨fun _ => rfl, within.here⟩
  | cons a as ih =>
    rw [firstMatch]
    refine (Ends.evaluate calls within a.plan).bind fun found u matched => ?_
    cases found with
    | none =>
      have back : u.Within text t.offset := matched
      refine .restore within back.same (ih.mono ?_)
      rintro (_ | v) u ⟨still, read⟩
      · exact ⟨still, read⟩
      · obtain ⟨tokens, takes, b, same, c, member, others⟩ := read
        exact ⟨by simp, tokens, takes, b, same, c, List.mem_cons_of_mem a member, others⟩
    | some vs =>
      obtain ⟨tokens, takes, spells⟩ := matched
      refine (buildWith_ends a.build vs).bind ?_
      rintro v _ ⟨rfl, b, s, r, rfl, built⟩
      exact .pure ⟨by simp, tokens, takes, b, rfl, a, List.mem_cons_self, vs, s, r, spells, built⟩

theorem plain_ends (rules : Rules σ α) (n : Nat) (name : String) (within : t.Within text start) :
    Ends (StopsUnread rules.lexer text start) t (rules.plain n name) fun found u =>
      (found = none → u = t) ∧ Matched rules.lexer text
        (fun tokens v => ∃ a, v = .own a ∧ rules.Derives n name tokens a) t found u := by
  induction n generalizing t name with
  | zero => exact .stop trivial
  | succ n ih =>
    rw [plain]
    refine .position (.mono (firstMatch_ends (fun callee u inside => ?_) within _) fun _ _ read => read)
    exact (ih callee inside).mono fun _ _ read => read.2

/-- Where a parse from a place leaves the tape: behind the last token of a derivation of what it
answers, where it began, or where no rule matches anything. The logic may stop it by a sum that is
out of range. -/
def Leaves (rules : Rules σ α) (name : String) (t : Tape) : Except Stop (Value α) → Tape → Prop
  | .ok v, u => ∃ a n tokens last, v = .own a ∧ rules.Derives n name (tokens ++ [last]) a ∧
      rules.lexer.Takes t (tokens ++ [last]) u ∧ u = ⟨t.text, last.stop⟩ ∧ t.offset < last.stop
  | .error (.error (.noMatch other place)), u => other = name ∧ place = t.offset ∧ u = t
  | .error (.error (.noRule place remainder)), u => u = ⟨t.text, place⟩ ∧ t.offset ≤ place ∧
      Text.dropBytes? place t.text = some remainder ∧ remainder ≠ [] ∧
      ∀ rule ∈ rules.lexer, rule.matcher.front remainder = []
  | .error (.fault f), _ => f = .additionOverflow
  | .error .stuck, _ => False

theorem error_of_answer {name : String} {offset : Nat} {found : Except Stop (Option (Value α))}
    {stop : Stop} (answered : answer name offset found = .error stop) :
    stop = .error (.noMatch name offset) ∨ found = .error stop := by
  match found with
  | .ok (some v) => cases answered
  | .ok none =>
    cases answered
    exact .inl rfl
  | .error e =>
    cases answered
    exact .inr rfl

theorem Regular.leaves_of_matched {rules : Rules σ α} {good : String → α → Prop}
    (regular : rules.Regular good) {n : Nat} {name : String} {v : Value α} {u : Tape}
    (within : t.Within text start)
    (matched : Matched rules.lexer text (fun tokens v => ∃ a, v = .own a ∧
      rules.Derives n name tokens a) t (some v) u) : rules.Leaves name t (.ok v) u := by
  obtain ⟨tokens, takes, a, rfl, derives⟩ := matched
  have filled := regular.ne_nil_of_derives derives
  obtain ⟨front, last, rfl⟩ := (List.eq_nil_or_concat' tokens).resolve_left filled
  have stop := takes.offset_eq_stop within
  have further := takes.offset_lt within filled
  have texts := (takes.within within).same.trans within.same.symm
  exact ⟨a, n, front, last, rfl, derives, takes, by rw [← stop, ← texts], stop ▸ further⟩

theorem Regular.leaves {rules : Rules σ α} {good : String → α → Prop}
    (regular : rules.Regular good) (name : String) (logic : σ) (within : t.Within text start)
    (short : Text.byteSize text < offsetLimit) :
    rules.Leaves name t (rules.parse name t logic).1 (rules.parse name t logic).2.1 := by
  obtain ⟨found, u, ⟨_, parsed⟩, without, expected⟩ := regular.parse_eq name logic within short
  obtain ⟨s, plain⟩ := without (rules.depth t) (Nat.le_refl _)
  have ends := plain_ends rules (rules.depth t) name within.here logic
  rw [parsePlain] at plain
  rw [runFrom] at ends
  generalize (rules.plain (rules.depth t) name).run (t, logic) = outcome at ends plain
  obtain ⟨read, u', s'⟩ := outcome
  obtain ⟨same, rfl, -⟩ : answer name t.offset read = answer name t.offset found ∧
      u' = u ∧ s' = s := by simpa using plain
  have stopped (stop : Stop) (failed : read = .error stop) :
      stop = .error (.noMatch name t.offset) ∨ stop.Expected := by
    subst failed
    exact (error_of_answer same.symm).imp_right (expected stop)
  rw [parsed, ← same]
  rcases read with (e | f | _) | _ | v
  · obtain ⟨inside, rfl, filled, none⟩ := ends
    have texts := inside.same.trans within.same.symm
    obtain ⟨rest, left⟩ := Option.isSome_iff_exists.mp inside.boundary
    have whole : u'.remainder = rest := by
      rw [Tape.remainder, inside.same, left, Option.getD_some]
    have place : u' = ⟨t.text, u'.offset⟩ := by rw [← texts]
    refine ⟨place, inside.behind, ?_, filled, none⟩
    rw [within.same, left, whole]
  · rcases stopped _ rfl with unlike | isExpected
    · cases unlike
    · cases isExpected
      rfl
  · rcases stopped _ rfl with unlike | isExpected
    · cases unlike
    · cases isExpected
  · exact ⟨rfl, rfl, ends.1 rfl⟩
  · exact regular.leaves_of_matched within ends.2

end Rules

end Parsing

end Pegsmith
