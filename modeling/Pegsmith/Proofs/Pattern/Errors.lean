import Pegsmith.Proofs.Pattern.Characters
import Pegsmith.Proofs.Pattern.Printing

set_option autoImplicit false

namespace Pegsmith.Pattern

/-- Some text that is a pattern begins with these symbols. -/
def IsViable (symbols : List Symbol) : Prop :=
  ∃ source p more, parse source = .ok p ∧ Splits source.toList (symbols ++ more)

inductive Symbol.IsWritten : Symbol → Prop where
  | mark (m : Mark) : Symbol.IsWritten (.mark m)
  | name {c : Char} {more : List Char} (starts : startsName c = true)
      (continues : ∀ d ∈ more, continuesName d = true) : Symbol.IsWritten (.name (c :: more))

theorem Splits.isWritten {cs : List Char} {symbols : List Symbol} (splits : Splits cs symbols) :
    ∀ symbol ∈ symbols, symbol.IsWritten := by
  induction splits with
  | nil => simp
  | blank _ _ ih => exact ih
  | mark _ ih => exact List.forall_mem_cons.mpr ⟨.mark _, ih⟩
  | name starts continues _ _ ih => exact List.forall_mem_cons.mpr ⟨.name starts continues, ih⟩

def textOf (symbols : List Symbol) : List Char :=
  symbols.flatMap fun symbol => symbol.chars ++ [' ']

theorem splits_textOf {symbols : List Symbol} (written : ∀ symbol ∈ symbols, symbol.IsWritten) :
    Splits (textOf symbols) symbols := by
  induction symbols with
  | nil => exact .nil
  | cons symbol symbols ih =>
    have rest : Splits (' ' :: textOf symbols) symbols :=
      .blank rfl (ih fun other member => written other (.tail _ member))
    cases written symbol (.head _) with
    | mark m => simpa [textOf, Symbol.chars] using Splits.mark (m := m) rest
    | @name c more starts continues =>
      have apart : ∀ d ∈ (' ' :: textOf symbols).head?, continuesName d = false := by
        simp [continuesName]
      simpa [textOf, Symbol.chars] using Splits.name starts continues apart rest

def State.completion (s : State) : List Symbol :=
  (match s.phase with
    | .item _ _ => []
    | .part _ | .decoded _ => [.name ['A']]) ++
    List.replicate s.enclosing.length (.mark .closeParen)

theorem State.isWritten_completion (s : State) : ∀ symbol ∈ s.completion, symbol.IsWritten := by
  have name : Symbol.IsWritten (.name ['A']) := .name rfl (by simp)
  have bracket := Symbol.IsWritten.mark .closeParen
  unfold completion
  cases s.phase <;> simp_all [or_imp]

theorem closes (source : List Char) (es : List Enclosing) (f : Frame) (p : Pattern)
    (repeatable : Bool) : ∃ s q,
      Runs source ⟨es, f, .item p repeatable⟩
        ((List.replicate es.length (.mark .closeParen)).map (⟨·, 0⟩)) s ∧
      s.finish source = .ok q := by
  induction es generalizing f p repeatable with
  | nil => exact ⟨_, _, rfl, rfl⟩
  | cons e es ih =>
    obtain ⟨s, q, runs, finished⟩ := ih e.frame
      (if e.discarded then .discard (.group (f.close p)) else .group (f.close p)) true
    exact ⟨s, q, .cons rfl runs, finished⟩

theorem State.completes (source : List Char) (s : State) : ∃ s' p,
    Runs source s (s.completion.map (⟨·, 0⟩)) s' ∧ s'.finish source = .ok p := by
  obtain ⟨es, f, phase⟩ := s
  cases phase with
  | item p repeatable => exact closes source es f p repeatable
  | part discarded =>
    obtain ⟨s', q, runs, finished⟩ := closes source es f
      (if discarded then .discard (.terminal "A" false) else .terminal "A" false) true
    exact ⟨s', q, .cons rfl runs, finished⟩
  | decoded discarded =>
    obtain ⟨s', q, runs, finished⟩ := closes source es f
      (if discarded then .discard (.terminal "A" true) else .terminal "A" true) true
    exact ⟨s', q, .cons rfl runs, finished⟩

theorem isViable_of_runs {source : List Char} {ls : List Lexeme} {s : State}
    (written : ∀ l ∈ ls, l.symbol.IsWritten) (runs : Runs source {} ls s) :
    IsViable (ls.map (·.symbol)) := by
  obtain ⟨s', p, completed, finished⟩ := s.completes source
  have start : State.Read ([] ++ (([] ++ []) ++ [])) {} := .mk .nil (.mk .nil .nil) (.part false)
  have read := State.read_run start (runs.append completed)
  obtain ⟨t, symbols_eq, pattern_eq⟩ := State.derives_of_finish read finished
  have spelled : t.symbols = ls.map (·.symbol) ++ s.completion := by
    simpa [Function.comp_def] using symbols_eq
  have whole : ∀ symbol ∈ t.symbols, symbol.IsWritten := by
    rw [spelled, List.forall_mem_append]
    exact ⟨by simpa using written, s.isWritten_completion⟩
  have splits := splits_textOf whole
  refine ⟨String.ofList (textOf t.symbols), t.pattern, s.completion, ?_, ?_⟩
  · exact parse_of_splits t (by simpa using splits)
  · simpa [← spelled] using splits

theorem not_isViable_of_step {source : List Char} {before : List Lexeme} {l : Lexeme} {s : State}
    {e : Error} (runs : Runs source {} before s) (failed : s.step source l = .error e) :
    ¬ IsViable ((before ++ [l]).map (·.symbol)) := by
  rintro ⟨text, p, more, parsed, splits⟩
  obtain ⟨t, splits', -⟩ := derives_of_parse parsed
  have same := splits'.unique splits
  have spelled : (before ++ l :: more.map (⟨·, 0⟩)).map (·.symbol) = t.symbols := by
    simp [same, Function.comp_def]
  obtain ⟨s', runs', -⟩ := t.runs source spelled
  -- The machine follows the derivation past the lexeme, where it has stopped.
  have stops : (before ++ l :: more.map (⟨·, 0⟩)).foldlM (State.step source) {} = .error e := by
    have runs : before.foldlM (State.step source) {} = .ok s := runs
    simp [List.foldlM_append, runs, failed, bind, Except.bind]
  rw [Runs, stops] at runs'
  cases runs'

theorem State.step_further {source : List Char} {es : List Enclosing} {f : Frame} {p : Pattern}
    {repeatable : Bool} {l : Lexeme} (starts : l.symbol.startsPart = true) :
    State.step source ⟨es, f, .item p repeatable⟩ l =
      State.beginPart ⟨es, { f with items := p :: f.items }, .part false⟩ false l := by
  rw [State.step_item starts]
  rfl

def openBracket (opened : List Lexeme) (l : Lexeme) : List Lexeme :=
  match l.symbol with
  | .mark .openParen => l :: opened
  | .mark .closeParen => opened.tail
  | _ => opened

def openBrackets (ls : List Lexeme) : List Lexeme :=
  ls.foldl openBracket []

theorem enclosing_beginPart {s s' : State} {discarded : Bool} {l : Lexeme}
    (begun : s.beginPart discarded l = .ok s') {opened : List Lexeme}
    (same : s.enclosing.map (·.start) = opened.map (·.start)) :
    s'.enclosing.map (·.start) = (openBracket opened l).map (·.start) := by
  obtain ⟨symbol, start⟩ := l
  cases symbol with
  | mark m =>
    cases m with
    | openParen =>
      cases begun
      simpa [openBracket] using same
    | decode =>
      cases begun
      exact same
    | discard =>
      cases discarded <;> cases begun
      exact same
    | closeParen | bar | star | plus | question => cases begun
  | name cs =>
    simp only [State.beginPart] at begun
    cases is : NameClass.of cs <;> rw [is] at begun <;> cases begun <;> exact same

theorem enclosing_step {source : List Char} {s s' : State} {l : Lexeme}
    (next : s.step source l = .ok s') {opened : List Lexeme}
    (same : s.enclosing.map (·.start) = opened.map (·.start)) :
    s'.enclosing.map (·.start) = (openBracket opened l).map (·.start) := by
  obtain ⟨symbol, start⟩ := l
  obtain ⟨es, f, phase⟩ := s
  cases phase with
  | part discarded => exact enclosing_beginPart next same
  | decoded discarded =>
    cases symbol with
    | mark m => cases next
    | name cs =>
      simp only [State.step, State.decodeName] at next
      cases is : NameClass.of cs <;> rw [is] at next <;> cases next
      exact same
  | item p repeatable =>
    cases symbol with
    | name cs =>
      rw [State.step_further rfl] at next
      exact enclosing_beginPart next same
    | mark m =>
      cases m with
      | openParen | decode | discard =>
        rw [State.step_further rfl] at next
        exact enclosing_beginPart next same
      | star | plus | question =>
        cases repeatable <;> cases next
        exact same
      | bar =>
        cases next
        exact same
      | closeParen =>
        -- The innermost bracket is the one that is closed.
        cases es with
        | nil => cases next
        | cons e outer =>
          cases next
          cases opened with
          | nil => cases same
          | cons opening opened => exact (List.cons.inj same).2

theorem enclosing_run {source : List Char} {s s' : State} {ls : List Lexeme}
    (ran : ls.foldlM (State.step source) s = .ok s') {opened : List Lexeme}
    (same : s.enclosing.map (·.start) = opened.map (·.start)) :
    s'.enclosing.map (·.start) = (ls.foldl openBracket opened).map (·.start) := by
  induction ls generalizing s opened with
  | nil =>
    cases ran
    exact same
  | cons l ls ih =>
    obtain ⟨next, stepped, ran⟩ := ok_of_bind ran
    exact ih ran (enclosing_step stepped same)

theorem mem_openBrackets {ls : List Lexeme} :
    ∀ l ∈ openBrackets ls, l ∈ ls ∧ l.symbol = .mark .openParen := by
  induction ls using List.reverseRecOn with
  | nil => simp [openBrackets]
  | append_singleton ls last ih =>
    have step : openBrackets (ls ++ [last]) = openBracket (openBrackets ls) last := by
      simp [openBrackets]
    have kept : ∀ l ∈ openBrackets ls, l ∈ ls ++ [last] ∧ l.symbol = .mark .openParen :=
      fun l member => ⟨List.mem_append_left _ (ih l member).1, (ih l member).2⟩
    rw [step, openBracket]
    split
    · exact List.forall_mem_cons.mpr ⟨⟨by simp, by assumption⟩, kept⟩
    · exact fun l member => kept l (List.mem_of_mem_tail member)
    · exact kept

def Fault.quoted? : Fault → Option String
  | .unexpectedCharacter c => some c.toString
  | .unexpectedLexeme text => some text
  | .invalidName name | .decodedNonTerminal name => some name
  | .trailingInput rest => some rest
  | .unterminatedGroup | .unexpectedEnd => none

inductive Blames (source : List Char) (l : Lexeme) : Error → Prop where
  | unexpected : Blames source l (unexpected l)
  | invalidName : Blames source l ⟨.invalidName l.text, l.span⟩
  | decoded : Blames source l ⟨.decodedNonTerminal l.text, l.span⟩
  | trailing {rest : List Char} (left : Text.dropBytes? l.start source = some rest) :
      Blames source l ⟨.trailingInput (String.ofList rest), ⟨l.start, Text.byteSize source⟩⟩

theorem blames_refuse {source : List Char} {l : Lexeme} (s : State) (stands : l.StandsIn source) :
    Blames source l (s.refuse source l) := by
  obtain ⟨front, back, split, size⟩ := stands
  have left : Text.dropBytes? l.start source = some (l.symbol.chars ++ back) := by
    rw [← size, split, Text.dropBytes?_byteSize]
  rw [State.refuse, left]
  split
  · exact .trailing left
  · exact .unexpected

theorem blames_beginPart {source : List Char} {s : State} {discarded : Bool} {l : Lexeme}
    {e : Error} (failed : s.beginPart discarded l = .error e) : Blames source l e := by
  unfold State.beginPart at failed
  split at failed
  · cases failed
  · cases failed
  · split at failed <;> cases failed
    exact .unexpected
  · cases failed
    exact .unexpected
  · split at failed <;> cases failed
    exact .invalidName

theorem blames_step {source : List Char} {s : State} {l : Lexeme} {e : Error}
    (stands : l.StandsIn source) (failed : s.step source l = .error e) : Blames source l e := by
  have refused := blames_refuse s stands
  obtain ⟨symbol, start⟩ := l
  obtain ⟨es, f, phase⟩ := s
  -- Behind an item whatever may begin a part begins another item, and is refused as such.
  cases phase with
  | part discarded => exact blames_beginPart failed
  | decoded discarded =>
    cases symbol with
    | mark m =>
      cases failed
      exact .unexpected
    | name cs =>
      simp only [State.step, State.decodeName] at failed
      cases is : NameClass.of cs <;> rw [is] at failed <;> cases failed
      · exact .decoded
      · exact .invalidName
  | item p repeatable =>
    cases symbol with
    | name cs =>
      rw [State.step_further rfl] at failed
      exact blames_beginPart failed
    | mark m =>
      cases m with
      | openParen | decode | discard =>
        rw [State.step_further rfl] at failed
        exact blames_beginPart failed
      | star | plus | question =>
        cases repeatable <;> cases failed
        exact refused
      | bar => cases failed
      | closeParen =>
        cases es <;> cases failed
        exact refused

inductive Reports (source : List Char) : Error → Prop where
  | character {before after : List Char} {c : Char} (split : source = before ++ c :: after)
      (clear : Startable [] before) (stuck : startsNone before c = true) :
      Reports source ⟨.unexpectedCharacter c,
        ⟨Text.byteSize before, Text.byteSize before + c.utf8Size⟩⟩
  | lexeme {before after : List Lexeme} {l : Lexeme} {e : Error} (clear : Startable [] source)
      (read : lex 0 source = .ok (before ++ l :: after)) (blames : Blames source l e)
      (viable : IsViable (before.map (·.symbol)))
      (stuck : ¬ IsViable ((before ++ [l]).map (·.symbol))) : Reports source e
  | ended {ls : List Lexeme} (clear : Startable [] source) (read : lex 0 source = .ok ls)
      (viable : IsViable (ls.map (·.symbol))) :
      Reports source ⟨.unexpectedEnd, .point (Text.byteSize source)⟩
  | unterminated {ls outer : List Lexeme} {l : Lexeme} (clear : Startable [] source)
      (read : lex 0 source = .ok ls) (viable : IsViable (ls.map (·.symbol)))
      (innermost : openBrackets ls = l :: outer) :
      Reports source ⟨.unterminatedGroup, l.span⟩

theorem error_of_run {source : List Char} {s : State} {ls : List Lexeme} {e : Error}
    (failed : ls.foldlM (State.step source) s = .error e) : ∃ before l after s',
      ls = before ++ l :: after ∧ Runs source s before s' ∧ s'.step source l = .error e := by
  induction ls generalizing s with
  | nil => cases failed
  | cons l ls ih =>
    cases stepped : s.step source l with
    | error e' =>
      have same : e' = e := by simpa [stepped, bind, Except.bind] using failed
      exact ⟨[], l, ls, s, rfl, rfl, same ▸ stepped⟩
    | ok next =>
      have later : ls.foldlM (State.step source) next = .error e := by
        simpa [stepped, bind, Except.bind] using failed
      obtain ⟨before, last, after, s', split, runs, stuck⟩ := ih later
      exact ⟨l :: before, last, after, s', by rw [split]; rfl, .cons stepped runs, stuck⟩

theorem reports_of_finish {source : List Char} {ls : List Lexeme} {s : State} {e : Error}
    (clear : Startable [] source) (read : lex 0 source = .ok ls)
    (viable : IsViable (ls.map (·.symbol))) (runs : Runs source {} ls s)
    (failed : s.finish source = .error e) : Reports source e := by
  have starts : s.enclosing.map (·.start) = (openBrackets ls).map (·.start) :=
    enclosing_run runs rfl
  obtain ⟨es, f, phase⟩ := s
  cases phase with
  | part discarded | decoded discarded =>
    cases failed
    exact .ended clear read viable
  | item p repeatable =>
    cases es with
    | nil => cases failed
    | cons enclosing outer =>
      cases failed
      cases opened : openBrackets ls with
      | nil => simp [opened] at starts
      | cons l rest =>
        have listed : l ∈ openBrackets ls := by simp [opened]
        have bracket : l.symbol = .mark .openParen := (mem_openBrackets l listed).2
        have start : enclosing.start = l.start := by simp [opened] at starts; exact starts.1
        have span : l.span = ⟨enclosing.start, enclosing.start + 1⟩ := by
          rw [Lexeme.span, bracket, start]
          rfl
        rw [← span]
        exact .unterminated clear read viable opened

theorem reports_of_parseChars {source : List Char} {e : Error}
    (failed : parseChars source = .error e) : Reports source e := by
  have lexed := lexed_source source
  cases read : lex 0 source with
  | error e' =>
    rw [read] at lexed
    have same : e' = e := by simpa [parseChars, read, bind, Except.bind] using failed
    subst same
    cases lexed with
    | error split clear stuck => exact .character split clear stuck
  | ok ls =>
    rw [read] at lexed
    cases lexed with
    | ok stands clear =>
      have written : ∀ l ∈ ls, l.symbol.IsWritten := fun l member =>
        (splits_of_lex read).isWritten _ (List.mem_map_of_mem member)
      have run : (ls.foldlM (State.step source) {} >>= State.finish source) = .error e := by
        rw [parseChars, read] at failed
        exact failed
      cases ran : ls.foldlM (State.step source) {} with
      | ok s =>
        have finished : s.finish source = .error e := by rwa [ran] at run
        exact reports_of_finish clear read (isViable_of_runs written ran) ran finished
      | error e' =>
        have same : e' = e := by simpa [ran, bind, Except.bind] using run
        obtain ⟨before, l, after, s, rfl, runs, stuck⟩ := error_of_run (same ▸ ran)
        have viable := isViable_of_runs (fun l member => written l (by simp [member])) runs
        exact .lexeme clear read (blames_step (stands l (by simp)) stuck) viable
          (not_isViable_of_step runs stuck)

theorem lexemes_stand {source : List Char} {ls : List Lexeme} (read : lex 0 source = .ok ls) :
    ∀ l ∈ ls, l.StandsIn source := by
  have lexed := lexed_source source
  rw [read] at lexed
  cases lexed with
  | ok stands clear => exact stands

/-- The span of an error cuts a part out of the text, which is what the error quotes. -/
structure Error.Cuts (source : String) (e : Error) : Prop where
  within : e.span.stop ≤ Text.byteSize source.toList
  slice : ∃ text, e.span.slice? source = some text ∧ ∀ quoted ∈ e.fault.quoted?, quoted = text

theorem Error.cuts_of_split {source : String} {e : Error} {front cs back : List Char}
    (split : source.toList = front ++ (cs ++ back))
    (span : e.span = ⟨Text.byteSize front, Text.byteSize front + Text.byteSize cs⟩)
    (quotes : ∀ quoted ∈ e.fault.quoted?, quoted = String.ofList cs) : e.Cuts source := by
  refine ⟨?_, _, span ▸ slice?_of_split split, quotes⟩
  simp only [span, split, Text.byteSize_append]
  omega

theorem Error.cuts_of_lexeme {source : String} {fault : Fault} {l : Lexeme}
    (stands : l.StandsIn source.toList) (quotes : ∀ quoted ∈ fault.quoted?, quoted = l.text) :
    Error.Cuts source ⟨fault, l.span⟩ :=
  ⟨stands.stop_le, _, stands.slice?, quotes⟩

theorem Blames.cuts {source : String} {l : Lexeme} {e : Error} (stands : l.StandsIn source.toList)
    (blames : Blames source.toList l e) : e.Cuts source := by
  cases blames with
  | unexpected => exact Error.cuts_of_lexeme stands fun quoted same => (Option.some.inj same).symm
  | invalidName | decoded =>
    exact Error.cuts_of_lexeme stands fun quoted same => (Option.some.inj same).symm
  | @trailing rest left =>
    obtain ⟨front, split, size⟩ := Text.eq_append_of_dropBytes? left
    have whole : source.toList = front ++ (rest ++ []) := by rw [List.append_nil, split]
    apply Error.cuts_of_split whole
    · simp [split, size]
    · simp [Fault.quoted?]

theorem Reports.cuts {source : String} {e : Error} (reports : Reports source.toList e) :
    e.Cuts source := by
  cases reports with
  | @character before after c split clear stuck =>
    have whole : source.toList = before ++ ([c] ++ after) := split
    apply Error.cuts_of_split whole
    · simp
    · simp [Fault.quoted?, Char.toString]
  | lexeme clear read blames viable stuck =>
    exact blames.cuts (lexemes_stand read _ (by simp))
  | ended clear read viable =>
    have whole : source.toList = source.toList ++ ([] ++ []) := by simp
    exact Error.cuts_of_split whole rfl (by simp [Fault.quoted?])
  | unterminated clear read viable innermost =>
    have listed := mem_openBrackets _ (innermost ▸ List.mem_cons_self)
    exact Error.cuts_of_lexeme (lexemes_stand read _ listed.1) (by simp [Fault.quoted?])

structure Error.IsPrecise (source : String) (e : Error) : Prop where
  reports : Reports source.toList e
  cuts : e.Cuts source
  fits : e.span.stop < spanLimit
  lexemes : ∀ ls, lex 0 source.toList = .ok ls →
    ∀ l ∈ ls, l.span.slice? source = some l.text ∧ l.span.stop < spanLimit

/-- As long as all places of a text fit into a span, the error of one that is no pattern tells why it
is none and where, and cuts out of the text what it quotes, as the lexemes in front do. -/
theorem isPrecise_of_parse {source : String} {e : Error}
    (short : Text.byteSize source.toList < spanLimit) (failed : parse source = .error e) :
    e.IsPrecise source := by
  have reports := reports_of_parseChars failed
  have cuts := reports.cuts
  refine ⟨reports, cuts, Nat.lt_of_le_of_lt cuts.within short, fun ls read l member => ?_⟩
  have stands := lexemes_stand read l member
  exact ⟨stands.slice?, Nat.lt_of_le_of_lt stands.stop_le short⟩

theorem isPrecise_trailing :
    let source := "a\u3000b ) c"
    let e : Error := ⟨.trailingInput ") c", ⟨6, 9⟩⟩
    Text.byteSize source.toList < spanLimit ∧ parse source = .error e ∧ e.IsPrecise source := by
  intro source e
  have short : Text.byteSize source.toList < spanLimit := by decide +kernel
  have failed : parse source = .error e := by decide +kernel
  exact ⟨short, failed, isPrecise_of_parse short failed⟩

end Pegsmith.Pattern
