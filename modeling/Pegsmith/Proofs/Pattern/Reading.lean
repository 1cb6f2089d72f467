import Mathlib
import Pegsmith.Pattern.Parser
import Pegsmith.Proofs.Pattern.Derivation
import Pegsmith.Proofs.Pattern.Lexemes

set_option autoImplicit false

namespace Pegsmith.Pattern

inductive ReadItems : List Symbol → List Pattern → Prop where
  | nil : ReadItems [] []
  | cons {symbols : List Symbol} {ps : List Pattern} (before : ReadItems symbols ps)
      (last : Derivation .repetition) : ReadItems (symbols ++ last.symbols) (last.pattern :: ps)

inductive ReadBranches : List Symbol → List Pattern → Prop where
  | nil : ReadBranches [] []
  | cons {symbols : List Symbol} {ps : List Pattern} (before : ReadBranches symbols ps)
      (last : Derivation .sequence) :
      ReadBranches (symbols ++ (last.symbols ++ [.mark .bar])) (last.pattern :: ps)

inductive Frame.Read : List Symbol → Frame → Prop where
  | mk {front back : List Symbol} {f : Frame} (branches : ReadBranches front f.branches)
      (items : ReadItems back f.items) : Frame.Read (front ++ back) f

def discarding (discarded : Bool) : List Symbol :=
  if discarded then [.mark .discard] else []

inductive ReadEnclosing : List Symbol → List Enclosing → Prop where
  | nil : ReadEnclosing [] []
  | cons {outer before : List Symbol} {e : Enclosing} {es : List Enclosing}
      (enclosing : ReadEnclosing outer es) (frame : Frame.Read before e.frame) :
      ReadEnclosing (outer ++ (before ++ (discarding e.discarded ++ [.mark .openParen]))) (e :: es)

inductive Phase.Read : List Symbol → Phase → Prop where
  | part (discarded : Bool) : Phase.Read (discarding discarded) (.part discarded)
  | decoded (discarded : Bool) :
      Phase.Read (discarding discarded ++ [.mark .decode]) (.decoded discarded)
  | once (t : Derivation .discard) : Phase.Read t.symbols (.item t.pattern true)
  | repeated (t : Derivation .repetition) : Phase.Read t.symbols (.item t.pattern false)

inductive State.Read : List Symbol → State → Prop where
  | mk {outer before current : List Symbol} {s : State}
      (enclosing : ReadEnclosing outer s.enclosing) (frame : Frame.Read before s.frame)
      (phase : Phase.Read current s.phase) : State.Read (outer ++ (before ++ current)) s

theorem Phase.Read.item {symbols : List Symbol} {p : Pattern} {repeatable : Bool}
    (read : Phase.Read symbols (.item p repeatable)) :
    ∃ t : Derivation .repetition, t.symbols = symbols ∧ t.pattern = p := by
  cases read with
  | once t => exact ⟨.once t, rfl, rfl⟩
  | repeated t => exact ⟨t, rfl, rfl⟩

theorem ReadItems.derives {symbols : List Symbol} {ps : List Pattern} (read : ReadItems symbols ps)
    (rest : Derivation .sequence) : ∃ t : Derivation .sequence,
      t.symbols = symbols ++ rest.symbols ∧
        t.pattern = ps.foldl (fun rest p => .sequence p rest) rest.pattern := by
  induction read generalizing rest with
  | nil => exact ⟨rest, rfl, rfl⟩
  | cons before last ih =>
    obtain ⟨t, symbols_eq, pattern_eq⟩ := ih (.items last rest)
    exact ⟨t, by rw [symbols_eq, List.append_assoc]; rfl, pattern_eq⟩

theorem ReadBranches.derives {symbols : List Symbol} {ps : List Pattern}
    (read : ReadBranches symbols ps) (rest : Derivation .choice) : ∃ t : Derivation .choice,
      t.symbols = symbols ++ rest.symbols ∧
        t.pattern = ps.foldl (fun rest p => .choice p rest) rest.pattern := by
  induction read generalizing rest with
  | nil => exact ⟨rest, rfl, rfl⟩
  | cons before last ih =>
    obtain ⟨t, symbols_eq, pattern_eq⟩ := ih (.branches last rest)
    exact ⟨t, by simp [symbols_eq, Derivation.symbols], pattern_eq⟩

theorem ReadItems.branch {symbols : List Symbol} {f : Frame} (read : ReadItems symbols f.items)
    (last : Derivation .repetition) : ∃ t : Derivation .sequence,
      t.symbols = symbols ++ last.symbols ∧ t.pattern = f.branch last.pattern :=
  read.derives (.item last)

theorem Frame.Read.close {symbols : List Symbol} {f : Frame} (read : Frame.Read symbols f)
    (last : Derivation .repetition) : ∃ t : Derivation .choice,
      t.symbols = symbols ++ last.symbols ∧ t.pattern = f.close last.pattern := by
  obtain @⟨front, back, _, branches, items⟩ := read
  obtain ⟨rest, rest_symbols, rest_pattern⟩ := items.branch last
  obtain ⟨t, symbols_eq, pattern_eq⟩ := branches.derives (.branch rest)
  refine ⟨t, ?_, ?_⟩
  · rw [symbols_eq, Derivation.symbols, rest_symbols, List.append_assoc]
  · rw [pattern_eq, Derivation.pattern, rest_pattern, Frame.close]

theorem NameClass.of_eq_terminal {cs : List Char} :
    NameClass.of cs = .terminal ↔ isTerminalName cs = true := by
  cases cs with
  | nil => simp [NameClass.of, isTerminalName]
  | cons c cs =>
    by_cases upper : c.isUpper = true <;> by_cases lower : c.isLower = true <;>
      simp [NameClass.of, isTerminalName, upper, lower]

theorem NameClass.of_eq_nonTerminal {cs : List Char} :
    NameClass.of cs = .nonTerminal ↔ isNonTerminalName cs = true := by
  cases cs with
  | nil => simp [NameClass.of, isNonTerminalName]
  | cons c cs =>
    by_cases upper : c.isUpper = true
    · simp [NameClass.of, isNonTerminalName, upper, isLower_of_isUpper upper]
    · by_cases lower : c.isLower = true <;>
        simp [NameClass.of, isNonTerminalName, upper, lower]

namespace State

theorem read_accept {outer before : List Symbol} {s : State}
    (enclosing : ReadEnclosing outer s.enclosing) (frame : Frame.Read before s.frame)
    (t : Derivation .group) (discarded : Bool) :
    State.Read (outer ++ (before ++ (discarding discarded ++ t.symbols)))
      (s.accept t.pattern discarded) := by
  cases discarded with
  | true => exact .mk enclosing frame (.once (.discarded t))
  | false => exact .mk enclosing frame (.once (.kept t))

theorem read_beginPart {outer before : List Symbol} {s s' : State} {discarded : Bool} {l : Lexeme}
    (enclosing : ReadEnclosing outer s.enclosing) (frame : Frame.Read before s.frame)
    (begun : s.beginPart discarded l = .ok s') :
    State.Read (outer ++ (before ++ (discarding discarded ++ [l.symbol]))) s' := by
  -- Only lexemes that may begin a part lead to another state.
  obtain ⟨symbol, start⟩ := l
  cases symbol with
  | mark m =>
    cases m with
    | openParen =>
      cases begun
      simpa [discarding] using
        Read.mk (s := ⟨⟨s.frame, start, discarded⟩ :: s.enclosing, {}, .part false⟩)
          (.cons enclosing frame) (.mk .nil .nil) (.part false)
    | decode =>
      cases begun
      exact .mk enclosing frame (.decoded discarded)
    | discard =>
      cases discarded with
      | true => cases begun
      | false =>
        cases begun
        exact .mk enclosing frame (.part true)
    | closeParen | bar | star | plus | question => cases begun
  | name cs =>
    simp only [beginPart] at begun
    cases is : NameClass.of cs with
    | terminal =>
      rw [is] at begun
      cases begun
      have name := NameClass.of_eq_terminal.mp is
      exact read_accept enclosing frame (.plain (.terminal cs name)) discarded
    | nonTerminal =>
      rw [is] at begun
      cases begun
      have name := NameClass.of_eq_nonTerminal.mp is
      exact read_accept enclosing frame (.plain (.nonTerminal cs name)) discarded
    | neither =>
      rw [is] at begun
      cases begun

theorem read_decodeName {outer before : List Symbol} {s s' : State} {discarded : Bool} {l : Lexeme}
    (enclosing : ReadEnclosing outer s.enclosing) (frame : Frame.Read before s.frame)
    (named : s.decodeName discarded l = .ok s') :
    State.Read (outer ++ (before ++ (discarding discarded ++ [.mark .decode, l.symbol]))) s' := by
  obtain ⟨symbol, start⟩ := l
  cases symbol with
  | mark m => cases named
  | name cs =>
    simp only [decodeName] at named
    cases is : NameClass.of cs with
    | terminal =>
      rw [is] at named
      cases named
      have name := NameClass.of_eq_terminal.mp is
      exact read_accept enclosing frame (.plain (.decoded cs name)) discarded
    | nonTerminal | neither =>
      rw [is] at named
      cases named

theorem read_repeated {source : List Char} {outer before current : List Symbol} {s s' : State}
    {p : Pattern} {repeatable : Bool} {start : Nat} (how : Repeat)
    (enclosing : ReadEnclosing outer s.enclosing) (frame : Frame.Read before s.frame)
    (phase : Phase.Read current (.item p repeatable))
    (next : s.afterItem source p repeatable ⟨.mark how.mark, start⟩ = .ok s') :
    State.Read (outer ++ (before ++ (current ++ [.mark how.mark]))) s' := by
  -- Only what has not been repeated yet can be.
  cases phase with
  | once t =>
    have made : s' = { s with phase := .item (how.apply t.pattern) false } := by
      cases how <;> exact (Except.ok.inj next).symm
    subst made
    exact .mk enclosing frame (.repeated (.repeated t how))
  | repeated t => cases how <;> cases next

theorem read_bar {source : List Char} {outer before : List Symbol} {s s' : State}
    {repeatable : Bool} {start : Nat} (enclosing : ReadEnclosing outer s.enclosing)
    (frame : Frame.Read before s.frame) (t : Derivation .repetition)
    (next : s.afterItem source t.pattern repeatable ⟨.mark .bar, start⟩ = .ok s') :
    State.Read (outer ++ (before ++ (t.symbols ++ [.mark .bar]))) s' := by
  cases next
  obtain @⟨front, back, _, branches, items⟩ := frame
  obtain ⟨branch, symbols_eq, pattern_eq⟩ := items.branch t
  have branches' := ReadBranches.cons branches branch
  rw [symbols_eq, pattern_eq] at branches'
  simpa [discarding] using Read.mk (s := ⟨s.enclosing, ⟨_, []⟩, .part false⟩) enclosing
    (.mk branches' .nil) (.part false)

theorem read_closeParen {source : List Char} {outer before : List Symbol} {s s' : State}
    {repeatable : Bool} {start : Nat} (enclosing : ReadEnclosing outer s.enclosing)
    (frame : Frame.Read before s.frame) (t : Derivation .repetition)
    (next : s.afterItem source t.pattern repeatable ⟨.mark .closeParen, start⟩ = .ok s') :
    State.Read (outer ++ (before ++ (t.symbols ++ [.mark .closeParen]))) s' := by
  obtain ⟨es, f, phase⟩ := s
  cases enclosing with
  | nil => cases next
  | @cons _ _ e _ enclosing around =>
    cases next
    obtain ⟨inner, symbols_eq, pattern_eq⟩ := frame.close t
    have closed :=
      read_accept (s := ⟨_, _, .part false⟩) enclosing around (.bracketed inner) e.discarded
    rw [Derivation.symbols, symbols_eq, Derivation.pattern, pattern_eq] at closed
    simpa using closed

theorem read_afterItem {source : List Char} {outer before current : List Symbol} {s s' : State}
    {p : Pattern} {repeatable : Bool} {l : Lexeme} (enclosing : ReadEnclosing outer s.enclosing)
    (frame : Frame.Read before s.frame) (phase : Phase.Read current (.item p repeatable))
    (next : s.afterItem source p repeatable l = .ok s') :
    State.Read (outer ++ (before ++ (current ++ [l.symbol]))) s' := by
  obtain ⟨t, rfl, rfl⟩ := phase.item
  obtain ⟨symbol, start⟩ := l
  have further
      (begun : beginPart { s with frame := { s.frame with items := t.pattern :: s.frame.items } }
        false ⟨symbol, start⟩ = .ok s') :
      State.Read (outer ++ (before ++ (t.symbols ++ [symbol]))) s' := by
    obtain ⟨branches, items⟩ := frame
    simpa [discarding] using
      read_beginPart (s := { s with frame := ⟨s.frame.branches, t.pattern :: s.frame.items⟩ })
        enclosing (.mk branches (.cons items t)) begun
  cases symbol with
  | name cs => exact further next
  | mark m =>
    cases m with
    | openParen | decode | discard => exact further next
    | star => exact read_repeated .zeroOrMore enclosing frame phase next
    | plus => exact read_repeated .oneOrMore enclosing frame phase next
    | question => exact read_repeated .optional enclosing frame phase next
    | bar => exact read_bar enclosing frame t next
    | closeParen => exact read_closeParen enclosing frame t next

theorem read_step {source : List Char} {symbols : List Symbol} {s s' : State} {l : Lexeme}
    (read : State.Read symbols s) (next : s.step source l = .ok s') :
    State.Read (symbols ++ [l.symbol]) s' := by
  obtain ⟨es, f, phase⟩ := s
  obtain ⟨enclosing, frame, current⟩ := read
  simp only [List.append_assoc]
  cases current with
  | part discarded => exact read_beginPart enclosing frame next
  | decoded discarded => simpa using read_decodeName enclosing frame next
  | once t => exact read_afterItem enclosing frame (.once t) next
  | repeated t => exact read_afterItem enclosing frame (.repeated t) next

theorem read_run {source : List Char} {symbols : List Symbol} {s s' : State} {ls : List Lexeme}
    (read : State.Read symbols s) (ran : ls.foldlM (step source) s = .ok s') :
    State.Read (symbols ++ ls.map (·.symbol)) s' := by
  induction ls generalizing symbols s with
  | nil =>
    cases ran
    simpa using read
  | cons l ls ih =>
    obtain ⟨next, stepped, ran⟩ := ok_of_bind ran
    simpa using ih (read_step read stepped) ran

theorem derives_of_finish {source : List Char} {symbols : List Symbol} {s : State} {p : Pattern}
    (read : State.Read symbols s) (finished : s.finish source = .ok p) :
    ∃ t : Derivation .choice, t.symbols = symbols ∧ t.pattern = p := by
  obtain ⟨es, f, phase⟩ := s
  obtain ⟨enclosing, frame, current⟩ := read
  cases enclosing with
  | cons enclosing around => cases phase <;> cases finished
  | nil =>
    cases phase with
    | part | decoded => cases finished
    | item q repeatable =>
      cases finished
      obtain ⟨last, rfl, rfl⟩ := current.item
      exact frame.close last

end State

def Runs (source : List Char) (s : State) (ls : List Lexeme) (s' : State) : Prop :=
  ls.foldlM (State.step source) s = .ok s'

namespace Runs

variable {source : List Char} {s s' s'' : State} {l : Lexeme} {ls more : List Lexeme}

theorem single (next : s.step source l = .ok s') : Runs source s [l] s' := by
  simp [Runs, next]

theorem append (first : Runs source s ls s') (rest : Runs source s' more s'') :
    Runs source s (ls ++ more) s'' := by
  rw [Runs, List.foldlM_append, first]
  exact rest

theorem cons (next : s.step source l = .ok s') (rest : Runs source s' ls s'') :
    Runs source s (l :: ls) s'' :=
  append (single next) rest

end Runs

def Symbol.startsPart : Symbol → Bool
  | .mark .openParen | .mark .decode | .mark .discard | .name _ => true
  | .mark _ => false

theorem Derivation.startsPart {rule : Rule} (t : Derivation rule) :
    ∃ first more, t.symbols = first :: more ∧ first.startsPart = true := by
  induction t with
  | branch only ih | item only ih | once only ih | kept only ih | plain only ih => exact ih
  | branches first rest ih | items first rest ih | repeated first how ih =>
    obtain ⟨symbol, more, symbols_eq, starts⟩ := ih
    exact ⟨symbol, _, by rw [symbols, symbols_eq, List.cons_append], starts⟩
  | discarded | bracketed | terminal | decoded | nonTerminal => exact ⟨_, _, rfl, rfl⟩

theorem State.step_item {source : List Char} {es : List Enclosing} {f : Frame} {p : Pattern}
    {repeatable : Bool} {l : Lexeme} (starts : l.symbol.startsPart = true) :
    State.step source ⟨es, f, .item p repeatable⟩ l =
      State.step source ⟨es, { f with items := p :: f.items }, .part false⟩ l := by
  obtain ⟨symbol, start⟩ := l
  cases symbol with
  | name => rfl
  | mark m => cases m <;> first | rfl | cases starts

/-- What the machine does with lexemes that a rule derives, wherever they may stand. -/
def Goes (source : List Char) (ls : List Lexeme) : Rule → Pattern → Prop
  | .choice, p => ∀ es f, f.items = [] → ∃ f' q repeatable,
      Runs source ⟨es, f, .part false⟩ ls ⟨es, f', .item q repeatable⟩ ∧ f'.close q = f.close p
  | .sequence, p => ∀ es f, ∃ items q repeatable,
      Runs source ⟨es, f, .part false⟩ ls ⟨es, { f with items }, .item q repeatable⟩ ∧
        Frame.branch { f with items } q = f.branch p
  | .repetition, p => ∀ es f, ∃ repeatable,
      Runs source ⟨es, f, .part false⟩ ls ⟨es, f, .item p repeatable⟩
  | .discard, p => ∀ es f, Runs source ⟨es, f, .part false⟩ ls ⟨es, f, .item p true⟩
  | .group, p | .atom, p => ∀ es f discarded,
      Runs source ⟨es, f, .part discarded⟩ ls
        (State.accept ⟨es, f, .part discarded⟩ p discarded)

namespace Goes

variable {source : List Char} {ls more : List Lexeme} {p q : Pattern}

theorem branch (only : Goes source ls .sequence p) : Goes source ls .choice p := by
  intro es f empty
  obtain ⟨items, q, repeatable, run, branch_eq⟩ := only es f
  exact ⟨{ f with items }, q, repeatable, run, by rw [Frame.close, Frame.close, branch_eq]⟩

theorem branches {bar : Lexeme} (first : Goes source ls .sequence p)
    (is_bar : bar.symbol = .mark .bar) (rest : Goes source more .choice q) :
    Goes source (ls ++ bar :: more) .choice (.choice p q) := by
  intro es f empty
  obtain ⟨items, last, repeatable, run, branch_eq⟩ := first es f
  -- The bar turns what stands before it into a branch of the frame, which has then no items.
  have whole : f.branch p = p := by simp [Frame.branch, empty]
  have parted : State.step source ⟨es, { f with items }, .item last repeatable⟩ bar =
      .ok ⟨es, ⟨p :: f.branches, []⟩, .part false⟩ := by
    simp [State.step, State.afterItem, is_bar, branch_eq, whole]
  obtain ⟨f', r, repeatable', run', close_eq⟩ := rest es ⟨p :: f.branches, []⟩ rfl
  refine ⟨f', r, repeatable', run.append (.cons parted run'), ?_⟩
  rw [close_eq]
  simp [Frame.close, Frame.branch, empty]

theorem item (only : Goes source ls .repetition p) : Goes source ls .sequence p := by
  intro es f
  obtain ⟨repeatable, run⟩ := only es f
  exact ⟨f.items, p, repeatable, run, rfl⟩

theorem items {l : Lexeme} (first : Goes source ls .repetition p)
    (starts : l.symbol.startsPart = true) (rest : Goes source (l :: more) .sequence q) :
    Goes source (ls ++ l :: more) .sequence (.sequence p q) := by
  intro es f
  obtain ⟨repeatable, run⟩ := first es f
  obtain ⟨items, last, repeatable', run', branch_eq⟩ := rest es { f with items := p :: f.items }
  -- No lexeme stands between items; the first one of the next item also ends this one.
  refine ⟨items, last, repeatable', run.append ?_, branch_eq⟩
  rw [Runs, List.foldlM_cons, State.step_item starts]
  exact run'

theorem once (inner : Goes source ls .discard p) : Goes source ls .repetition p :=
  fun es f => ⟨true, inner es f⟩

theorem repeated {how : Repeat} {l : Lexeme} (inner : Goes source ls .discard p)
    (is_mark : l.symbol = .mark how.mark) : Goes source (ls ++ [l]) .repetition (how.apply p) := by
  intro es f
  refine ⟨false, (inner es f).append (.single ?_)⟩
  cases how <;> simp [State.step, State.afterItem, is_mark, Repeat.mark, Repeat.apply]

theorem kept (inner : Goes source ls .group p) : Goes source ls .discard p :=
  fun es f => inner es f false

theorem discarded {l : Lexeme} (is_mark : l.symbol = .mark .discard)
    (inner : Goes source ls .group p) : Goes source (l :: ls) .discard (.discard p) :=
  fun es f => .cons (by simp [State.step, State.beginPart, is_mark]) (inner es f true)

theorem bracketed {opening closing : Lexeme} (opens : opening.symbol = .mark .openParen)
    (inner : Goes source ls .choice p) (closes : closing.symbol = .mark .closeParen) :
    Goes source (opening :: (ls ++ [closing])) .group (.group p) := by
  intro es f discarded
  obtain ⟨f', q, repeatable, run, close_eq⟩ := inner (⟨f, opening.start, discarded⟩ :: es) {} rfl
  refine .cons ?_ (run.append (.single ?_))
  · simp [State.step, State.beginPart, opens]
  · simp [State.step, State.afterItem, closes, close_eq]
    rfl

theorem terminal {cs : List Char} {l : Lexeme} (is_name : l.symbol = .name cs)
    (name : isTerminalName cs = true) :
    Goes source [l] .atom (.terminal (String.ofList cs) false) := by
  intro es f discarded
  refine .single ?_
  simp [State.step, State.beginPart, is_name, NameClass.of_eq_terminal.mpr name, Lexeme.text,
    Symbol.chars, State.accept]

theorem decoded {cs : List Char} {mark l : Lexeme} (is_mark : mark.symbol = .mark .decode)
    (is_name : l.symbol = .name cs) (name : isTerminalName cs = true) :
    Goes source [mark, l] .atom (.terminal (String.ofList cs) true) := by
  intro es f discarded
  have marked : State.step source ⟨es, f, .part discarded⟩ mark =
      .ok ⟨es, f, .decoded discarded⟩ := by
    simp [State.step, State.beginPart, is_mark]
  refine .cons marked (.single ?_)
  simp [State.step, State.decodeName, is_name, NameClass.of_eq_terminal.mpr name, Lexeme.text,
    Symbol.chars, State.accept]

theorem nonTerminal {cs : List Char} {l : Lexeme} (is_name : l.symbol = .name cs)
    (name : isNonTerminalName cs = true) :
    Goes source [l] .atom (.nonTerminal (String.ofList cs)) := by
  intro es f discarded
  refine .single ?_
  simp [State.step, State.beginPart, is_name, NameClass.of_eq_nonTerminal.mpr name, Lexeme.text,
    Symbol.chars, State.accept]

end Goes

theorem Derivation.goes {rule : Rule} (source : List Char) (t : Derivation rule) {ls : List Lexeme}
    (derives : ls.map (·.symbol) = t.symbols) : Goes source ls rule t.pattern := by
  induction t generalizing ls with
  | branch only ih => exact (ih derives).branch
  | branches first rest ihFirst ihRest =>
    obtain ⟨front, back, rfl, front_eq, back_eq⟩ := List.map_eq_append_iff.mp derives
    obtain ⟨bar, more, rfl, is_bar, more_eq⟩ := List.map_eq_cons_iff.mp back_eq
    exact (ihFirst front_eq).branches is_bar (ihRest more_eq)
  | item only ih => exact (ih derives).item
  | items first rest ihFirst ihRest =>
    obtain ⟨front, back, rfl, front_eq, back_eq⟩ := List.map_eq_append_iff.mp derives
    obtain ⟨symbol, _, rest_eq, starts⟩ := rest.startsPart
    obtain ⟨l, more, rfl, rfl, -⟩ := List.map_eq_cons_iff.mp (back_eq.trans rest_eq)
    exact (ihFirst front_eq).items starts (ihRest back_eq)
  | once inner ih => exact (ih derives).once
  | repeated inner how ih =>
    obtain ⟨front, back, rfl, front_eq, back_eq⟩ := List.map_eq_append_iff.mp derives
    obtain ⟨l, rfl, is_mark⟩ := List.map_eq_singleton_iff.mp back_eq
    exact (ih front_eq).repeated is_mark
  | kept inner ih => exact (ih derives).kept
  | discarded inner ih =>
    obtain ⟨l, more, rfl, is_mark, more_eq⟩ := List.map_eq_cons_iff.mp derives
    exact (ih more_eq).discarded is_mark
  | bracketed inner ih =>
    obtain ⟨opening, more, rfl, opens, more_eq⟩ := List.map_eq_cons_iff.mp derives
    obtain ⟨within, back, rfl, within_eq, back_eq⟩ := List.map_eq_append_iff.mp more_eq
    obtain ⟨closing, rfl, closes⟩ := List.map_eq_singleton_iff.mp back_eq
    exact (ih within_eq).bracketed opens closes
  | plain inner ih => exact ih derives
  | terminal cs name =>
    obtain ⟨l, rfl, is_name⟩ := List.map_eq_singleton_iff.mp derives
    exact .terminal is_name name
  | decoded cs name =>
    obtain ⟨mark, more, rfl, is_mark, more_eq⟩ := List.map_eq_cons_iff.mp derives
    obtain ⟨l, rfl, is_name⟩ := List.map_eq_singleton_iff.mp more_eq
    exact .decoded is_mark is_name name
  | nonTerminal cs name =>
    obtain ⟨l, rfl, is_name⟩ := List.map_eq_singleton_iff.mp derives
    exact .nonTerminal is_name name

theorem Derivation.runs (source : List Char) (t : Derivation .choice) {ls : List Lexeme}
    (derives : ls.map (·.symbol) = t.symbols) :
    ∃ s, Runs source {} ls s ∧ s.finish source = .ok t.pattern := by
  obtain ⟨f, p, repeatable, run, close_eq⟩ := t.goes source derives [] {} rfl
  exact ⟨_, run, congrArg Except.ok close_eq⟩

theorem Derivation.symbols_injective (t u : Derivation .choice) (same : t.symbols = u.symbols) :
    t = u := by
  let ls : List Lexeme := t.symbols.map fun symbol => ⟨symbol, 0⟩
  have derives : ls.map (·.symbol) = t.symbols := by simp [ls, Function.comp_def]
  obtain ⟨s, run, finished⟩ := t.runs [] derives
  obtain ⟨s', run', finished'⟩ := u.runs [] (derives.trans same)
  obtain rfl := Except.ok.inj (run.symm.trans run')
  exact t.pattern_injective u (Except.ok.inj (finished.symm.trans finished'))

theorem parse_of_splits {source : String} (t : Derivation .choice)
    (splits : Splits source.toList t.symbols) : parse source = .ok t.pattern := by
  obtain ⟨ls, read, symbols_eq⟩ := lex_of_splits splits 0
  obtain ⟨s, run, finished⟩ := t.runs source.toList symbols_eq
  have run : ls.foldlM (State.step source.toList) {} = .ok s := run
  simp only [parse, parseChars, read, run, bind, Except.bind, finished]

theorem derives_of_parse {source : String} {p : Pattern} (read : parse source = .ok p) :
    ∃ t : Derivation .choice, Splits source.toList t.symbols ∧ t.pattern = p := by
  obtain ⟨ls, found, read⟩ := ok_of_bind read
  obtain ⟨s, ran, finished⟩ := ok_of_bind read
  have start : State.Read ([] ++ (([] ++ []) ++ [])) {} := .mk .nil (.mk .nil .nil) (.part false)
  obtain ⟨t, symbols_eq, pattern_eq⟩ := State.derives_of_finish (State.read_run start ran) finished
  exact ⟨t, symbols_eq ▸ splits_of_lex found, pattern_eq⟩

theorem continuesName_of_parse {source : String} {p : Pattern} (read : parse source = .ok p)
    {name : String} (member : .nonTerminal name ∈ p.leaves) :
    ∀ c ∈ name.toList, continuesName c = true := by
  obtain ⟨t, splits, rfl⟩ := derives_of_parse read
  exact splits.continues_of_mem (t.mem_symbols_of_mem_leaves member)

/-- A text is read exactly if it splits into symbols that the grammar derives. It splits in one way
only, and the symbols have one derivation only, which gives the pattern. -/
theorem parse_eq_ok_iff (source : String) :
    (∀ p, parse source = .ok p ↔ ∃ symbols, Splits source.toList symbols ∧
      ∃ t : Derivation .choice, t.symbols = symbols ∧ t.pattern = p) ∧
    (∀ symbols symbols', Splits source.toList symbols → Splits source.toList symbols' →
      symbols = symbols') ∧
    ∀ t u : Derivation .choice, t.symbols = u.symbols → t = u := by
  refine ⟨fun p => ⟨fun read => ?_, ?_⟩, fun _ _ => Splits.unique, Derivation.symbols_injective⟩
  · obtain ⟨t, splits, pattern_eq⟩ := derives_of_parse read
    exact ⟨t.symbols, splits, t, rfl, pattern_eq⟩
  · rintro ⟨_, splits, t, rfl, rfl⟩
    exact parse_of_splits t splits

end Pegsmith.Pattern
