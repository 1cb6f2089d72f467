import Pegsmith.Proofs.Source.TypeReading

set_option autoImplicit false

namespace Pegsmith.Source

open Reader TypeReader

section

variable (r : Readers) {ts rest : List Tree}

inductive TraitRead : Path → List Tree → List Tree → Prop where
  | plain {p : Path} {ts rest : List Tree} (path : plainPath r false ts = some (p, rest))
      (ends : callAhead rest = false) : TraitRead p ts rest
  | call {rooted goesOn : Bool} {segments : List (String × TypeArgs)} {w text : String}
      {ts inner us rest : List Tree}
      (path : plainPath r false ts = some (⟨rooted, segments⟩, .group .paren inner :: us))
      (last : segments.getLast? = some (w, .none))
      (args : callArgs r (.group .paren inner :: us) = some ((.call text, goesOn), rest)) :
      TraitRead ⟨rooted, segments.dropLast ++ [(w, .call text)]⟩ ts rest

theorem callAhead_eq_false (group : Ahead.group .paren ts = false)
    (root : Ahead.op "::" ts = false) : callAhead ts = false := by
  rw [callAhead, group, root]
  rfl

theorem callAhead_group (inner : List Tree) : callAhead (.group .paren inner :: ts) := by
  rfl

theorem withCalls_plain (segments : List (String × TypeArgs)) (ends : callAhead ts = false)
    (fuel : Nat) : withCalls r segments fuel ts = some (segments, ts) := by
  cases fuel with
  | zero => rfl
  | succ fuel =>
    rw [withCalls]
    match segments.getLast? with
    | some (_, .none) =>
      dsimp only
      rw [ahead_false ends]
      rfl
    | none | some (_, .angle ..) | some (_, .call _) => rfl

theorem withCalls_called {segments : List (String × TypeArgs)} {w text : String}
    (last : segments.getLast? = some (w, .call text)) (fuel : Nat) :
    withCalls r segments fuel ts = some (segments, ts) := by
  cases fuel with
  | zero => rfl
  | succ fuel =>
    rw [withCalls, last]
    rfl

theorem moreSegments_nil (reader : Reader (String × TypeArgs)) (root : Ahead.op "::" ts = false) :
    moreSegments reader ts = some ([], ts) := by
  rw [moreSegments, get_bind]
  exact whileAhead_nil (by rw [root, Bool.false_and]) _

theorem withCalls_call {goesOn : Bool} {segments : List (String × TypeArgs)} {w text : String}
    {inner us : List Tree} (last : segments.getLast? = some (w, .none))
    (args : callArgs r (.group .paren inner :: us) = some ((.call text, goesOn), rest))
    (root : Ahead.op "::" rest = false) (fuel : Nat) :
    withCalls r segments (fuel + 1) (.group .paren inner :: us) =
      some (segments.dropLast ++ [(w, .call text)], rest) := by
  have plain : optionalOp "::" (.group .paren inner :: us) = some ("", .group .paren inner :: us) :=
    optionalOp_none (by simp [Ahead.op])
  rw [withCalls, last]
  dsimp only
  rw [ahead_true (callAhead_group _), bind_eq plain, bind_eq args]
  dsimp only
  have called : withCalls r (segments.dropLast ++ [(w, .call text)]) fuel rest =
      some (segments.dropLast ++ [(w, .call text)], rest) :=
    withCalls_called r List.getLast?_concat fuel
  cases goesOn with
  | false => rw [if_neg Bool.false_ne_true, pure_bind_apply, called]
  | true => rw [if_pos rfl, bind_eq (moreSegments_nil _ root), called]

structure EndsPath (plus : Bool) (ts : List Tree) : Prop where
  root : Ahead.op "::" ts = false
  angle : Ahead.op "<" ts = false
  bang : Ahead.op "!" ts = false
  call : Ahead.group .paren ts = false
  sum : (plus && Ahead.op "+" ts) = false

theorem Stops.endsPath {plus : Bool} (stops : Stops plus ts) : EndsPath plus ts where
  root := stops.not_op (c := ':') (by simp) (by simp)
  angle := stops.not_op (c := '<') (by simp) (by simp)
  bang := stops.not_op (c := '!') (by simp) (by simp)
  call := stops.not_group _
  sum := by
    cases plus with
    | false => rfl
    | true => exact stops.not_plus rfl

theorem Stops.weaken {plus : Bool} (stops : Stops plus ts) : Stops false ts := by
  cases stops with
  | done => exact .done
  | mark joint ts known => exact .mark joint ts known
  | plus single joint ts => exact .plus rfl joint ts
  | as ts => exact .as ts

theorem typePath_apply {p : Path} (read : TraitRead r p ts rest) (ahead : PathAhead ts)
    (root : Ahead.op "::" rest = false) : typePath r ts = some ((some p, p.toType), rest) := by
  have angle : Ahead.op "<" ts = false := ahead.not_op (c := '<') (by simp) (by decide)
  rw [typePath, ahead_false angle]
  cases read with
  | plain path ends =>
    rw [bind_eq path, get_bind, bind_eq (withCalls_plain r _ ends _)]
    rfl
  | call path last args =>
    rw [bind_eq path, get_bind, List.length_cons, bind_eq (withCalls_call r last args root _)]
    rfl

theorem namedType_apply {plus : Bool} {p : Path} (read : TraitRead r p ts rest)
    (ahead : PathAhead ts) (ends : EndsPath plus rest) :
    namedType r plus "" ts = some (p.toType, rest) := by
  rw [namedType, bind_eq (typePath_apply r read ahead ends.root)]
  dsimp only
  rw [ahead_bind, ahead_bind, ends.bang, Bool.and_false, Bool.false_and, if_neg Bool.false_ne_true,
    ahead_bind, ends.sum]
  rfl

theorem annotations_none (plain : Ahead.op "#" ts = false) : annotations r ts = some ((), ts) := by
  rw [annotations, get_bind, bind_eq (whileAhead_nil plain _)]
  rfl

theorem genericParam_lifetime (name : String) (colon : Ahead.op ":" rest = false) :
    genericParam r (.lifetime name :: rest) = some ("'" ++ name, rest) := by
  have plain : Ahead.op "#" (.lifetime name :: rest) = false := by simp [Ahead.op, Ahead.mark]
  have life : Ahead.lifetime (.lifetime name :: rest) = true := by rfl
  rw [genericParam, bind_eq (annotations_none r plain), ahead_true life, lifetimeParam,
    bind_eq (lifetime_apply name rest), ahead_false colon]
  rfl

theorem readsItem_lifetimes (names : List String) :
    ∀ x ∈ names.map fun name => ("'" ++ name, [Piece.leaf (.lifetime name)]),
      ReadsItem ',' (Ahead.op ">") (genericParam r) x := by
  simp only [List.mem_map, forall_exists_index, and_imp]
  rintro _ name - rfl ts spells rest follows
  cases spells with
  | leaf nothing =>
    cases nothing
    have ends := endsArg_of_item follows
    exact ⟨by simp [Ahead.op],
      genericParam_lifetime r name (ends.not_op (c := ':') (by simp) (by simp))⟩

theorem binder_apply {b : Binder} (valid : b.IsValid) (spells : Spells (binderPieces (some b)) ts) :
    Ahead.word "for" (ts ++ rest) ∧
      TypeReader.binder r (ts ++ rest) = some (textOf (binderPieces (some b)), rest) := by
  cases spells with
  | leaf behind =>
    cases behind with
    | @mark _ joint _ _ behind =>
      obtain ⟨items, close, rfl, inside, closed⟩ := behind.append_inv
      cases closed with
      | @mark _ joint' _ _ nothing =>
        cases nothing
        have next : Ahead.word "for" (.word "for" :: .mark '<' joint ::
            (items ++ .mark '>' joint' :: rest)) := by simp [Ahead.word]
        have comma : ",".toList = [','] := by simp
        have ends : Ahead.op ">" (.mark '>' joint' :: rest) = true := by simp [Ahead.op]
        have list := separated_apply comma ends (fun joint ts => by simp [Ahead.op])
          (readsItem_lifetimes r b.names) (by simpa using valid.2)
          (by simpa [Function.comp_def] using inside)
        have text : spaced ["for", "<", HostType.commaSeparated
            ((b.names.map fun name => ("'" ++ name, [Piece.leaf (.lifetime name)])).map Prod.fst)
              b.trailing, ">"] = textOf (binderPieces (some b)) := by
          have names : (b.names.map fun name => ("'" ++ name, [Piece.leaf (.lifetime name)])).map
              Prod.fst = (b.names.map fun name => [Piece.leaf (.lifetime name)]).map textOf := by
            simp [textOf_leaf, Leaf.text]
          rw [names, led_injective (led_commaSeparated _ _ (by simpa using valid.2))]
          refine led_injective ?_
          rw [binderPieces, led_textOf_cons, led_textOf_cons, led_textOf_append]
          simp [Piece.word, Piece.text, Leaf.text, textOf_singleton]
        rw [List.cons_append, List.cons_append, List.append_assoc, List.singleton_append, Leaf.tree]
        refine ⟨next, ?_⟩
        rw [TypeReader.binder, bind_eq (word_apply "for" _), bind_eq (op_single (by simp) joint _),
          bind_eq list]
        dsimp only
        rw [bind_eq (op_single (by simp) joint' rest), text]
        rfl

theorem plainPath_inv {p : Path} (read : plainPath r false ts = some (p, rest)) :
    ∃ rooted first more us vs, optionalOp "::" ts = some (rooted, us) ∧
      r.segment false us = some (first, vs) ∧
      moreSegments (r.segment false) vs = some (more, rest) ∧
      p = ⟨!rooted.isEmpty, first :: more⟩ := by
  rw [plainPath, bind_apply, Option.bind_eq_some_iff] at read
  obtain ⟨⟨rooted, us⟩, root, read⟩ := read
  rw [bind_apply, Option.bind_eq_some_iff] at read
  obtain ⟨⟨first, vs⟩, start, read⟩ := read
  rw [bind_apply, Option.bind_eq_some_iff] at read
  obtain ⟨⟨more, ws⟩, behind, read⟩ := read
  rw [pure_apply, Option.some.injEq, Prod.mk.injEq] at read
  obtain ⟨rfl, rfl⟩ := read
  exact ⟨rooted, first, more, us, vs, root, start, behind, rfl⟩

theorem bound_lifetime (precise constant : Bool) (name : String) :
    bound r precise constant (.lifetime name :: ts) = some ((false, "'" ++ name), ts) := by
  rw [bound]
  rfl

theorem TraitRead.goesOn {α : Type} {p : Path} (read : TraitRead r p ts rest)
    (next : Path → Reader α) :
    (do
      let rooted ← optionalOp "::"
      let first ← r.segment false
      let more ← moreSegments (r.segment false)
      let segments := first :: more
      let segments ←
        match segments.getLast? with
        | some (name, .none) =>
            if ← ahead callAhead then
              let _ ← optionalOp "::"
              let (args, _) ← callArgs r
              pure (segments.dropLast ++ [(name, args)])
            else pure segments
        | _ => pure segments
      next ⟨!rooted.isEmpty, segments⟩ : Reader α) ts = next p rest := by
  cases read with
  | plain read ends =>
    obtain ⟨rooted, first, more, us, vs, root, start, behind, rfl⟩ := plainPath_inv r read
    rw [bind_eq root, bind_eq start, bind_eq behind]
    match (first :: more).getLast? with
    | some (_, .none) =>
      dsimp only
      rw [ahead_false ends]
      rfl
    | none | some (_, .angle ..) | some (_, .call _) => rfl
  | @call _ _ segments w text _ inner us _ read last args =>
    obtain ⟨rooted, first, more, _, _, root, start, behind, same⟩ := plainPath_inv r read
    obtain ⟨rfl, rfl⟩ := TypeReader.Path.mk.inj same
    have plain : optionalOp "::" (.group .paren inner :: us) = some ("", .group .paren inner :: us) :=
      optionalOp_none (by simp [Ahead.op])
    rw [bind_eq root, bind_eq start, bind_eq behind, last]
    dsimp only
    rw [ahead_true (callAhead_group _), bind_eq plain, bind_eq args]
    rfl

theorem bound_trait {precise constant : Bool} {p : Path} {outer maybe : String} {us vs : List Tree}
    (read : TraitRead r p ts rest) (ahead : PathAhead ts) (life : Ahead.lifetime us = false)
    (use : Ahead.word "use" us = false) (group : ∀ d, Ahead.group d us = false)
    (before : (if Ahead.word "for" us then r.binder us else some ("", us)) = some (outer, vs))
    (bracket : Ahead.group .bracket vs = false) (const : Ahead.word "const" vs = false)
    (wave : Ahead.op "~" vs = false) (question : optionalOp "?" vs = some (maybe, ts))
    (single : outer = "" ∨ maybe = "") :
    bound r precise constant us =
      some ((true, spaced [outer, "", maybe, p.text]), rest) := by
  have empty : (!"".isEmpty) = false := by simp
  have apart : (!outer.isEmpty && !maybe.isEmpty) = false := by
    obtain rfl | rfl := single
    · rw [empty, Bool.false_and]
    · rw [empty, Bool.and_false]
  have inner : Ahead.word "for" ts = false := ahead.not_word (by decide +kernel)
  rw [bound]
  -- What else a bound may be is ruled out by what lies ahead, form by form.
  extract_lets _ _ behindBinder
  rw [ahead_false life, ahead_false use, ahead_false (group _)]
  refine (bind_eq ?_).trans (pure_apply _ _)
  refine Eq.trans (b := behindBinder outer vs) ?_ ?_
  · cases brought : Ahead.word "for" us with
    | true =>
      rw [brought, if_pos rfl] at before
      rw [ahead_true brought, bind_eq before]
    | false =>
      rw [brought, if_neg Bool.false_ne_true, Option.some.injEq, Prod.mk.injEq] at before
      rw [ahead_false brought, pure_bind_apply, before.1, before.2]
  unfold behindBinder
  rw [ahead_bind, ahead_bind, ahead_bind, bracket, if_neg Bool.false_ne_true, const,
    if_neg Bool.false_ne_true, wave, if_neg Bool.false_ne_true, pure_bind_apply]
  beta_reduce
  rw [bind_eq question]
  extract_lets path behindInner
  rw [apart, if_neg Bool.false_ne_true]
  beta_reduce
  rw [ahead_bind, inner, Bool.and_false, if_neg Bool.false_ne_true, pure_bind_apply]
  unfold behindInner
  rw [empty, if_neg Bool.false_ne_true]
  exact read.goesOn r fun p => pure (spaced [outer, "", maybe, p.text])

theorem not_op_of_boundAhead {constant : Bool} {text : String} {c : Char}
    (first : text.toList.head? = some c) (other : c ∉ [':', '?']) (ahead : boundAhead constant ts) :
    Ahead.op text ts = false := by
  simp only [List.mem_cons, List.not_mem_nil, or_false, not_or] at other
  refine Ahead.op_eq_false first ?_
  rintro joint rest rfl
  simp [boundAhead, Ahead.anyWord, Ahead.op, Ahead.lifetime, Ahead.group, Ne.symm other.1,
    Ne.symm other.2] at ahead

def ReadsTrait (t : Path × List Piece) : Prop :=
  ∀ ts, Spells t.2 ts → ∀ rest, Stops false rest →
    PathAhead (ts ++ rest) ∧ TraitRead r t.1 (ts ++ rest) rest

def ReadsBound (b : Bool × List Piece) : Prop :=
  ∀ ts, Spells b.2 ts → ∀ rest, Stops false rest → ∀ precise constant,
    boundAhead constant (ts ++ rest) ∧
      bound r precise constant (ts ++ rest) = some ((b.1, textOf b.2), rest)

theorem readsBound_lifetime (name : String) : ReadsBound r (false, [.leaf (.lifetime name)]) := by
  intro ts spells rest _ precise constant
  cases spells with
  | leaf nothing =>
    cases nothing
    refine ⟨by simp [boundAhead, Ahead.lifetime, Leaf.tree], ?_⟩
    rw [textOf_leaf]
    exact bound_lifetime r precise constant name

theorem ReadsTrait.bound {lower : Readers} {p : Path} {ps : List Piece} {binder : Option Binder}
    (reads : ReadsTrait r (p, ps)) (text : p.text = textOf ps) (bound : ∀ b ∈ binder, b.IsValid)
    (brings : r.binder = TypeReader.binder lower) :
    ReadsBound r (true, binderPieces binder ++ ps) := by
  intro ts spells rest stops precise constant
  obtain ⟨us, vs, rfl, lead, trait⟩ := spells.append_inv
  obtain ⟨ahead, read⟩ := reads vs trait rest stops
  have question : optionalOp "?" (vs ++ rest) = some ("", vs ++ rest) :=
    optionalOp_none (ahead.not_op (c := '?') (by simp) (by decide))
  have whole : spaced [textOf (binderPieces binder), "", "", p.text] =
      textOf (binderPieces binder ++ ps) := by
    refine led_injective ?_
    rw [text, led_textOf_append]
    simp
  have bracket : Ahead.group .bracket (vs ++ rest) = false := ahead.not_group _
  have const : Ahead.word "const" (vs ++ rest) = false := ahead.not_word (by decide +kernel)
  have wave : Ahead.op "~" (vs ++ rest) = false := ahead.not_op (c := '~') (by simp) (by decide)
  rw [List.append_assoc, ← whole]
  cases binder with
  | none =>
    cases lead
    have before : (if Ahead.word "for" (vs ++ rest) then r.binder (vs ++ rest)
        else some ("", vs ++ rest)) = some ("", vs ++ rest) := by
      rw [ahead.not_word (by decide +kernel), if_neg Bool.false_ne_true]
    exact ⟨ahead.boundAhead constant, bound_trait r read ahead ahead.not_lifetime
      (ahead.not_word (by decide +kernel)) ahead.not_group before bracket const wave question
      (.inl rfl)⟩
  | some b =>
    obtain ⟨next, outer⟩ := binder_apply lower (bound b rfl) lead
    have before : (if Ahead.word "for" (us ++ (vs ++ rest)) then r.binder (us ++ (vs ++ rest))
        else some ("", us ++ (vs ++ rest))) = some (textOf (binderPieces (some b)), vs ++ rest) := by
      rw [next, if_pos rfl, brings, outer]
    cases lead with
    | leaf =>
      exact ⟨rfl, bound_trait r read ahead rfl (by simp [Ahead.word, Leaf.tree]) (fun _ => rfl) before
        bracket const wave question (.inr rfl)⟩

theorem ReadsTrait.maybeBound {p : Path} {ps : List Piece} (reads : ReadsTrait r (p, ps))
    (text : p.text = textOf ps) : ReadsBound r (true, .mark '?' :: ps) := by
  intro ts spells rest stops precise constant
  cases spells with
  | @mark _ joint _ us trait =>
    obtain ⟨ahead, read⟩ := reads us trait rest stops
    have question : optionalOp "?" (.mark '?' joint :: (us ++ rest)) = some ("?", us ++ rest) :=
      optionalOp_some (by simp [Ahead.op]) (op_single (by simp) joint _)
    have wave : Ahead.op "~" (.mark '?' joint :: (us ++ rest)) = false := by simp [Ahead.op]
    have whole : spaced ["", "", "?", p.text] = textOf (.mark '?' :: ps) := by
      refine led_injective ?_
      rw [text, led_textOf_cons]
      simp [Piece.text]
    rw [List.cons_append]
    refine ⟨by simp [boundAhead, Ahead.op], ?_⟩
    rw [bound_trait r read ahead rfl rfl (fun _ => rfl) rfl rfl rfl wave question (.inl rfl), whole]

theorem stops_behindEach {plus : Bool} {pss : List (List Piece)}
    (spells : Spells (behindEach (.mark '+') pss) ts) (stops : Stops plus rest) :
    Stops false (ts ++ rest) := by
  cases pss with
  | nil =>
    cases spells
    exact stops.weaken
  | cons ps pss =>
    cases spells with
    | mark => exact .plus rfl _ _

theorem moreBounds_apply {more : List (Bool × List Piece)} (item : ∀ b ∈ more, ReadsBound r b)
    (spells : Spells (behindEach (.mark '+') (more.map Prod.snd)) ts) (stops : Stops true rest)
    (precise constant : Bool) {fuel : Nat} (enough : more.length ≤ fuel) :
    moreBounds r precise constant fuel (ts ++ rest) =
      some (more.map fun b => (b.1, textOf (.mark '+' :: b.2)), rest) := by
  induction more generalizing ts fuel with
  | nil =>
    cases spells
    cases fuel with
    | zero => rfl
    | succ fuel =>
      rw [moreBounds, ahead_bind, List.nil_append, stops.not_plus rfl]
      rfl
  | cons b more ih =>
    obtain ⟨fuel, rfl⟩ := Nat.exists_eq_succ_of_ne_zero (Nat.ne_zero_of_lt enough)
    rw [List.map_cons, behindEach, List.flatMap_cons, ← behindEach] at spells
    cases spells with
    | @mark _ joint _ _ later =>
      obtain ⟨us, vs, rfl, here, behind⟩ := later.append_inv
      obtain ⟨ahead, read⟩ := item b List.mem_cons_self us here (vs ++ rest)
        (stops_behindEach behind stops) precise constant
      have others := ih (fun b member => item b (List.mem_cons_of_mem _ member)) behind
        (Nat.le_of_succ_le_succ enough)
      have text : spaced ["+", textOf b.2] = textOf (.mark '+' :: b.2) :=
        led_injective (by rw [led_textOf_cons]; simp [Piece.text])
      have plus : Ahead.op "+" (.mark '+' joint :: (us ++ vs ++ rest)) := by simp [Ahead.op]
      rw [List.cons_append, moreBounds, ahead_true plus, bind_eq (op_single (by simp) joint _),
        List.append_assoc, ahead_true ahead, bind_eq read]
      dsimp only
      rw [bind_eq others, text]
      rfl

theorem bounds_apply (precise constant : Bool) {plus : Bool} {first : Bool × List Piece}
    {more : List (Bool × List Piece)} (here : ReadsBound r first)
    (item : ∀ b ∈ more, ReadsBound r b) (single : plus = false → more = [])
    (trait : (first :: more).any Prod.fst)
    (spells : Spells (first.2 ++ behindEach (.mark '+') (more.map Prod.snd)) ts)
    (stops : Stops plus rest) :
    boundAhead constant (ts ++ rest) ∧ bounds r plus precise constant (ts ++ rest) =
      some (textOf (first.2 ++ behindEach (.mark '+') (more.map Prod.snd)), rest) := by
  obtain ⟨us, vs, rfl, start, behind⟩ := spells.append_inv
  have follows := stops_behindEach behind stops
  have count := length_le_of_behindEach behind
  rw [List.length_map] at count
  obtain ⟨ahead, read⟩ := here us start (vs ++ rest) follows precise constant
  have some : ((first.1, textOf first.2) ::
      more.map fun b => (b.1, textOf (.mark '+' :: b.2))).any Prod.fst := by
    simpa [Function.comp_def] using trait
  have text : spaced (((first.1, textOf first.2) ::
      more.map fun b => (b.1, textOf (.mark '+' :: b.2))).map Prod.snd) =
        textOf (first.2 ++ behindEach (.mark '+') (more.map Prod.snd)) := by
    refine led_injective ?_
    rw [led_textOf_append, led_behindEach]
    simp [List.flatMap_map, led_textOf_cons]
  rw [List.append_assoc, bounds, bind_eq read]
  refine ⟨ahead, ?_⟩
  cases plus with
  | true =>
    have enough : more.length ≤ (vs ++ rest).length := by
      rw [List.length_append]
      omega
    rw [if_pos rfl, get_bind, bind_eq (moreBounds_apply r item behind stops precise constant enough)]
    beta_reduce
    rw [if_pos some, text]
    rfl
  | false =>
    obtain rfl := single rfl
    cases behind
    rw [List.map_nil] at some text
    rw [if_neg Bool.false_ne_true, pure_bind_apply]
    beta_reduce
    rw [if_pos some, text]
    rfl

end

end Pegsmith.Source
