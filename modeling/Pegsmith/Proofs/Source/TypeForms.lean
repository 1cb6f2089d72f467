import Pegsmith.Proofs.Source.Bounds

set_option autoImplicit false

namespace Pegsmith.Source

open Reader TypeReader

section

variable (r : Readers) {ts rest : List Tree}

theorem functionInput_type {t : HostType} (next : TypeAhead ts)
    (read : r.type true ts = some (t, rest)) : functionInput r ts = some (t.key, rest) := by
  have plain : Ahead.op "#" ts = false := next.not_op (c := '#') (by simp) (by decide)
  have dots : Ahead.op "..." ts = false :=
    next.not_op (c := '.') (by simp) (by decide)
  rw [functionInput, bind_eq (annotations_none r plain), ahead_false dots,
    ahead_false next.not_parameter, ahead_bind, ahead_bind, next.not_word (by simp), Bool.false_and,
    if_neg Bool.false_ne_true, bind_eq read]
  rfl

theorem functionInput_named {w : String} {joint : Bool} {t : HostType} (name : isName w ∨ w = "_")
    (next : TypeAhead ts) (apart : Ahead.op ":" ts = false) (read : r.type true ts = some (t, rest)) :
    functionInput r (.word w :: .mark ':' joint :: ts) = some (spaced [w, ":", t.key], rest) := by
  have plain : Ahead.op "#" (.word w :: .mark ':' joint :: ts) = false := by
    simp [Ahead.op, Ahead.mark]
  have dots : Ahead.op "..." (.word w :: .mark ':' joint :: ts) = false := by
    simp [Ahead.op, Ahead.mark]
  have behind : Ahead.op "..." ts = false :=
    next.not_op (c := '.') (by simp) (by decide)
  have word : (Ahead.name (.word w :: .mark ':' joint :: ts) ||
      Ahead.word "_" (.word w :: .mark ':' joint :: ts)) = true := by
    cases name with
    | inl name => simp [Ahead.name, name]
    | inr same => simp [Ahead.word, same]
  have colon : Ahead.op ":" (.mark ':' joint :: ts) = true := by simp [Ahead.op]
  have single : Ahead.op "::" (.mark ':' joint :: ts) = false := by
    simpa [Ahead.op] using fun _ => apart
  rw [functionInput, bind_eq (annotations_none r plain), ahead_false dots, ahead_bind, word,
    List.drop_one, List.tail_cons, colon, single, if_pos (by rfl), bind_eq (anyWord_apply w _),
    bind_eq (op_single (by simp) joint ts), ahead_false behind, bind_eq read]
  rfl

def ReadsInput (ps : List Piece) : Prop :=
  ReadsItem ',' List.isEmpty (functionInput r) (textOf ps, ps)

theorem ReadsType.input {t : HostType} {ps : List Piece} (reads : ReadsType r true (t, ps))
    (key : t.key = textOf ps) : ReadsInput r ps := by
  intro ts spells rest follows
  obtain ⟨next, read⟩ := reads ts spells rest (stops_of_item follows)
  exact ⟨by simpa using next.ne_nil, by rw [functionInput_type r next read, key]⟩

theorem Spells.not_colon {ps : List Piece} (spells : Spells ps ts) (starts : StartsPlain ps)
    (apart : ps.head? ≠ some .colons) : Ahead.op ":" (ts ++ rest) = false := by
  obtain ⟨p, first, plain⟩ := starts
  cases spells with
  | nil => cases first
  | leaf => simp [Ahead.op]
  | group => simp [Ahead.op]
  | @mark c =>
    have other : ':' ≠ c := by
      rintro rfl
      exact plain (Option.some.inj first).symm
    simp [Ahead.op, other]
  | pair known =>
    simp only [typePairs, List.mem_cons, Prod.mk.injEq, List.not_mem_nil, or_false] at known
    obtain ⟨rfl, rfl⟩ | ⟨rfl, rfl⟩ := known
    · exact absurd rfl apart
    · simp [Ahead.op]

theorem ReadsType.namedInput {w : String} {t : HostType} {ps : List Piece}
    (reads : ReadsType r true (t, ps)) (key : t.key = textOf ps) (name : isName w ∨ w = "_")
    (starts : StartsPlain ps) (apart : ps.head? ≠ some .colons) :
    ReadsInput r (.word w :: .mark ':' :: ps) := by
  intro ts spells rest follows
  cases spells with
  | leaf spells =>
    cases spells with
    | @mark _ joint _ us later =>
      obtain ⟨next, read⟩ := reads us later rest (stops_of_item follows)
      have text : spaced [w, ":", t.key] = textOf (.word w :: .mark ':' :: ps) := by
        refine led_injective ?_
        rw [key, led_textOf_cons, led_textOf_cons]
        simp [Piece.word, Piece.text, Leaf.text]
      exact ⟨rfl, by rw [← text]; exact functionInput_named r name next (later.not_colon starts apart) read⟩

theorem returnType_apply {result : Option (HostType × List Piece)}
    (returns : ∀ t ∈ result, ReadsType r false t) (key : ∀ t ∈ result, t.1.key = textOf t.2)
    (spells : Spells (arrowed result) ts) (stops : Stops false rest) :
    returnType r (ts ++ rest) = some (textOf (arrowed result), rest) := by
  cases result with
  | none =>
    cases spells
    rw [List.nil_append, returnType,
      ahead_false (stops.not_op (c := '-') (by simp) (by simp))]
    rfl
  | some t =>
    cases spells with
    | @pair _ _ joint _ us _ later =>
      obtain ⟨-, read⟩ := returns t rfl us later rest stops
      have next : Ahead.op "->" (.mark '-' true :: .mark '>' joint :: (us ++ rest)) := by
        simp [Ahead.op]
      have text : spaced ["->", t.1.key] = textOf (arrowed (some t)) := by
        refine led_injective ?_
        rw [key t rfl, arrowed, led_textOf_cons]
        simp [Piece.text]
      rw [List.cons_append, List.cons_append, returnType, ahead_true next,
        bind_eq (op_pair (by simp) joint _), bind_eq read, text]
      rfl

theorem optionalWord_wordIf {present : Bool} {w : String} {us : List Tree}
    (spells : Spells (wordIf present w) us) (other : Ahead.word w ts = false) :
    optionalWord w (us ++ ts) = some (if present then w else "", ts) := by
  cases present with
  | false =>
    cases spells
    exact optionalWord_none other
  | true =>
    cases spells with
    | leaf nothing =>
      cases nothing
      exact optionalWord_some w ts

theorem textOf_wordIf (present : Bool) (w : String) :
    textOf (wordIf present w) = if present then w else "" := by
  cases present with
  | false => rfl
  | true => exact textOf_word w

theorem functionAhead_of_spells {guarded : Bool} {convention : Option (Option String)}
    {us ws : List Tree} (guard : Spells (wordIf guarded "unsafe") us)
    (abi : Spells (conventionPieces convention) ws) :
    functionAhead (us ++ (ws ++ .word "fn" :: ts)) := by
  cases guarded with
  | true =>
    cases guard with
    | leaf => simp [functionAhead, Ahead.anyOf, Ahead.word, Leaf.tree]
  | false =>
    cases guard
    rcases convention with _ | _ | name
    · cases abi
      simp [functionAhead, Ahead.anyOf, Ahead.word]
    · cases abi with
      | leaf => simp [functionAhead, Ahead.anyOf, Ahead.word, Leaf.tree]
    · cases abi with
      | leaf => simp [functionAhead, Ahead.anyOf, Ahead.word, Leaf.tree]

theorem not_unsafe_of_spells {convention : Option (Option String)} {ws : List Tree}
    (abi : Spells (conventionPieces convention) ws) :
    Ahead.word "unsafe" (ws ++ .word "fn" :: ts) = false := by
  rcases convention with _ | _ | name
  · cases abi
    simp [Ahead.word]
  · cases abi with
    | leaf => simp [Ahead.word, Leaf.tree]
  · cases abi with
    | leaf => simp [Ahead.word, Leaf.tree]

theorem convention_apply {α : Type} {convention : Option (Option String)} {ws : List Tree}
    (abi : Spells (conventionPieces convention) ws) (next : String → Reader α) :
    (do
      let abi ←
        if ← ahead (Ahead.word "extern") then do
          let _ ← word "extern"
          let text ←
            match ← get with
            | .literal .text _ :: _ => Reader.literal
            | _ => pure ""
          pure (spaced ["extern", text])
        else pure ""
      next abi : Reader α) (ws ++ .word "fn" :: ts) =
      next (textOf (conventionPieces convention)) (.word "fn" :: ts) := by
  rcases convention with _ | _ | name
  · cases abi
    have none : Ahead.word "extern" (.word "fn" :: ts) = false := by simp [Ahead.word]
    rw [List.nil_append, ahead_false none]
    rfl
  · cases abi with
    | leaf nothing =>
      cases nothing
      have leads : Ahead.word "extern" (.word "extern" :: .word "fn" :: ts) := by
        simp [Ahead.word]
      rw [List.singleton_append, Leaf.tree, ahead_true leads, bind_eq (word_apply "extern" _)]
      rfl
  · cases abi with
    | leaf more =>
      cases more with
      | leaf nothing =>
        cases nothing
        have leads : Ahead.word "extern"
            (.word "extern" :: .literal .text name :: .word "fn" :: ts) := by
          simp [Ahead.word]
        rw [List.cons_append, List.singleton_append, Leaf.tree, Leaf.tree, ahead_true leads,
          bind_eq (word_apply "extern" _)]
        rfl

theorem functionType_apply {guarded trailing : Bool} {convention : Option (Option String)}
    {inputs : List (List Piece)} {result : Option (HostType × List Piece)}
    (item : ∀ ps ∈ inputs, ReadsInput r ps) (ended : inputs = [] → trailing = false)
    (returns : ∀ t ∈ result, ReadsType r false t) (key : ∀ t ∈ result, t.1.key = textOf t.2)
    (spells : Spells (functionPieces none guarded convention inputs trailing result) ts)
    (stops : Stops false rest) :
    functionAhead (ts ++ rest) ∧ functionType r (ts ++ rest) =
      some (textOf (functionPieces none guarded convention inputs trailing result), rest) := by
  rw [functionPieces, binderPieces, List.nil_append] at spells
  obtain ⟨us, vs, rfl, guard, behindGuard⟩ := spells.append_inv
  obtain ⟨ws, xs, rfl, abi, behindAbi⟩ := behindGuard.append_inv
  cases behindAbi with
  | leaf behindWord =>
    cases behindWord with
    | @group _ _ _ inner ys inside behind =>
      have list : commas (functionInput r) inner =
          some (((inputs.map fun ps => (textOf ps, ps)).map Prod.fst, trailing), []) :=
        commas_apply (by simpa [ReadsInput] using item) (by simpa using ended)
          (by simpa [Function.comp_def] using inside)
      have inputsText : enclosed .paren (HostType.commaSeparated
          ((inputs.map fun ps => (textOf ps, ps)).map Prod.fst) trailing) =
            (Piece.group .paren (joined ',' inputs trailing)).text := by
        rw [List.map_map, Piece.text]
        exact congrArg (enclosed .paren) (led_injective (led_commaSeparated _ _ ended))
      have text : spaced [if guarded then "unsafe" else "", textOf (conventionPieces convention),
          "fn", (Piece.group .paren (joined ',' inputs trailing)).text, textOf (arrowed result)] =
            textOf (functionPieces none guarded convention inputs trailing result) := by
        refine led_injective ?_
        rw [functionPieces, binderPieces, List.nil_append, led_textOf_append, led_textOf_append,
          led_textOf_cons, led_textOf_cons, textOf_wordIf]
        simp [Piece.word, Piece.text, Leaf.text]
      rw [List.append_assoc, List.append_assoc, List.cons_append, List.cons_append, Leaf.tree]
      refine ⟨functionAhead_of_spells guard abi, ?_⟩
      rw [functionType, bind_eq (optionalWord_wordIf guard (not_unsafe_of_spells abi)), ← text]
      refine (convention_apply abi _).trans ?_
      rw [bind_eq (word_apply "fn" _), bind_eq (inside_apply list _)]
      dsimp only
      rw [bind_eq (returnType_apply r returns key behind stops), inputsText]
      rfl

theorem pathAhead_mark {c : Char} (other : c ∉ [':', '<']) (joint : Bool) :
    pathAhead (.mark c joint :: ts) = false := by
  have colon : ':' ≠ c := by
    rintro rfl
    simp at other
  have angle : '<' ≠ c := by
    rintro rfl
    simp at other
  simp [pathAhead, Ahead.name, Ahead.anyOf, Ahead.word, Ahead.op, colon, angle]

theorem Ahead.word_mark (w : String) (c : Char) (joint : Bool) :
    Ahead.word w (.mark c joint :: ts) = false := by
  rfl

theorem Ahead.group_mark (d : Delimiter) (c : Char) (joint : Bool) :
    Ahead.group d (.mark c joint :: ts) = false := by
  rfl

theorem functionAhead_mark (c : Char) (joint : Bool) : functionAhead (.mark c joint :: ts) = false := by
  rfl

section

variable {plus : Bool} {t : HostType} {ps : List Piece}

theorem optionalLifetime_apply {α : Type} {life : Option String} {us : List Tree}
    (spells : Spells (lifetimePieces life) us) (bare : Ahead.lifetime ts = false)
    (next : String → Reader α) :
    (do
      let life ← if ← ahead Ahead.lifetime then do pure ("'" ++ (← lifetime)) else pure ""
      next life : Reader α) (us ++ ts) = next (textOf (lifetimePieces life)) ts := by
  cases life with
  | none =>
    cases spells
    rw [List.nil_append, ahead_false bare]
    rfl
  | some name =>
    cases spells with
    | leaf nothing =>
      cases nothing
      have named : Ahead.lifetime (.lifetime name :: ts) = true := rfl
      rw [List.singleton_append, Leaf.tree, ahead_true named, bind_eq (lifetime_apply name _),
        lifetimePieces, textOf_leaf]
      rfl

theorem type_reference {life : Option String} {mutable : Bool} (target : ReadsType r false (t, ps))
    (key : t.key = textOf ps)
    (spells : Spells (.mark '&' :: (lifetimePieces life ++ (wordIf mutable "mut" ++ ps))) ts)
    (stops : Stops plus rest) :
    TypeReader.type r plus (ts ++ rest) =
      some (.other (textOf (.mark '&' :: (lifetimePieces life ++ (wordIf mutable "mut" ++ ps)))),
        rest) := by
  cases spells with
  | @mark _ joint _ us behind =>
    obtain ⟨vs, ws, rfl, lifetime, behindLife⟩ := behind.append_inv
    obtain ⟨xs, ys, rfl, mutWord, type⟩ := behindLife.append_inv
    obtain ⟨next, read⟩ := target ys type rest stops.weaken
    have mutability := optionalWord_wordIf mutWord (next.not_word (k := "mut") (by simp))
    have bare : Ahead.lifetime (xs ++ (ys ++ rest)) = false := by
      cases mutable with
      | false =>
        cases mutWord
        exact next.not_lifetime
      | true =>
        cases mutWord with
        | leaf => rfl
    have text : spaced ["&", textOf (lifetimePieces life), if mutable then "mut" else "", t.key] =
        textOf (.mark '&' :: (lifetimePieces life ++ (wordIf mutable "mut" ++ ps))) := by
      refine led_injective ?_
      rw [key, led_textOf_cons, led_textOf_append, led_textOf_append, textOf_wordIf]
      simp [Piece.text]
    have star : Ahead.op "*" (.mark '&' joint :: (vs ++ (xs ++ ys) ++ rest)) = false := by
      simp [Ahead.op]
    have amp : Ahead.op "&" (.mark '&' joint :: (vs ++ (xs ++ ys) ++ rest)) = true := by
      simp [Ahead.op]
    rw [List.cons_append, TypeReader.type, ahead_false (Ahead.word_mark ..),
      ahead_false (Ahead.group_mark ..), ahead_false (functionAhead_mark ..),
      ahead_false (pathAhead_mark (by decide) _), ahead_false (Ahead.word_mark ..),
      ahead_false (Ahead.group_mark ..), ahead_false star, ahead_true amp,
      bind_eq (op_single (by simp) joint _), List.append_assoc, List.append_assoc, ← text]
    refine (optionalLifetime_apply lifetime bare _).trans ?_
    rw [bind_eq mutability, bind_eq read]
    rfl

theorem type_pointer {kind : String} (known : kind ∈ ["const", "mut"])
    (target : ReadsType r false (t, ps)) (key : t.key = textOf ps)
    (spells : Spells (.mark '*' :: .word kind :: ps) ts) (stops : Stops plus rest) :
    TypeReader.type r plus (ts ++ rest) =
      some (.other (textOf (.mark '*' :: .word kind :: ps)), rest) := by
  cases spells with
  | @mark _ joint _ _ behind =>
    cases behind with
    | @leaf _ _ us type =>
      obtain ⟨-, read⟩ := target us type rest stops.weaken
      have star : Ahead.op "*" (.mark '*' joint :: .word kind :: (us ++ rest)) = true := by
        simp [Ahead.op]
      have text : spaced ["*", kind, t.key] = textOf (.mark '*' :: .word kind :: ps) := by
        refine led_injective ?_
        rw [key, led_textOf_cons, led_textOf_cons]
        simp [Piece.word, Piece.text, Leaf.text]
      rw [List.cons_append, List.cons_append, Leaf.tree, TypeReader.type,
        ahead_false (Ahead.word_mark ..), ahead_false (Ahead.group_mark ..),
        ahead_false (functionAhead_mark ..), ahead_false (pathAhead_mark (by decide) _),
        ahead_false (Ahead.word_mark ..), ahead_false (Ahead.group_mark ..), ahead_true star,
        bind_eq (op_single (by simp) joint _), ← text]
      simp only [List.mem_cons, List.not_mem_nil, or_false] at known
      obtain rfl | rfl := known
      · have next : Ahead.word "const" (.word "const" :: (us ++ rest)) := by simp [Ahead.word]
        rw [ahead_true next, bind_eq (word_apply "const" _)]
        beta_reduce
        rw [bind_eq read]
        rfl
      · have next : Ahead.word "const" (.word "mut" :: (us ++ rest)) = false := by simp [Ahead.word]
        rw [ahead_false next, bind_eq (word_apply "mut" _)]
        beta_reduce
        rw [bind_eq read]
        rfl

theorem type_never (spells : Spells [.mark '!'] ts) :
    TypeReader.type r plus (ts ++ rest) = some (.other "!", rest) := by
  cases spells with
  | @mark _ joint _ _ nothing =>
    cases nothing
    have star : Ahead.op "*" (.mark '!' joint :: rest) = false := by simp [Ahead.op]
    have amp : Ahead.op "&" (.mark '!' joint :: rest) = false := by simp [Ahead.op]
    have bang : Ahead.op "!" (.mark '!' joint :: rest) = true := by simp [Ahead.op]
    rw [List.singleton_append, TypeReader.type, ahead_false (Ahead.word_mark ..),
      ahead_false (Ahead.group_mark ..), ahead_false (functionAhead_mark ..),
      ahead_false (pathAhead_mark (by decide) _), ahead_false (Ahead.word_mark ..),
      ahead_false (Ahead.group_mark ..), ahead_false star, ahead_false amp, ahead_true bang,
      bind_eq (op_single (by simp) joint _)]
    rfl

theorem Ahead.op_word (text w : String) : Ahead.op text (.word w :: ts) = false :=
  Ahead.mark_leaf text.toList (.word w) ts

theorem Ahead.group_word (d : Delimiter) (w : String) : Ahead.group d (.word w :: ts) = false := by
  rfl

theorem Ahead.word_word {k w : String} (other : w ≠ k) : Ahead.word k (.word w :: ts) = false :=
  beq_false_of_ne other

theorem functionAhead_word {w : String} (known : w ∈ ["dyn", "impl", "_"]) :
    functionAhead (.word w :: ts) = false := by
  simp only [List.mem_cons, List.not_mem_nil, or_false] at known
  obtain rfl | rfl | rfl := known <;> simp [functionAhead, Ahead.anyOf, Ahead.word]

theorem pathAhead_word {w : String} (known : w ∈ ["dyn", "impl", "_"]) :
    pathAhead (.word w :: ts) = false := by
  simp only [List.mem_cons, List.not_mem_nil, or_false] at known
  rw [pathAhead, Ahead.op_word, Ahead.op_word]
  obtain rfl | rfl | rfl := known <;>
    simp [Ahead.name, isName, keywords, Ahead.anyOf, Ahead.word]

theorem type_infer (spells : Spells [.word "_"] ts) :
    TypeReader.type r plus (ts ++ rest) = some (.other "_", rest) := by
  cases spells with
  | leaf nothing =>
    cases nothing
    have next : Ahead.word "_" (.word "_" :: rest) := by simp [Ahead.word]
    rw [List.singleton_append, Leaf.tree, TypeReader.type, ahead_false (Ahead.word_word (by simp)),
      ahead_false (Ahead.group_word ..), ahead_false (functionAhead_word (by simp)),
      ahead_false (pathAhead_word (by simp)), ahead_false (Ahead.word_word (by simp)),
      ahead_false (Ahead.group_word ..), ahead_false (Ahead.op_word ..),
      ahead_false (Ahead.op_word ..), ahead_false (Ahead.op_word ..),
      ahead_false (Ahead.word_word (by simp)), ahead_true next, bind_eq (word_apply "_" _)]
    rfl

theorem type_object {kind : String} {first : Bool × List Piece} {more : List (Bool × List Piece)}
    (known : kind ∈ ["dyn", "impl"]) (here : ReadsBound r first)
    (item : ∀ b ∈ more, ReadsBound r b) (single : plus = false → more = [])
    (trait : (first :: more).any Prod.fst)
    (spells : Spells (.word kind :: (first.2 ++ behindEach (.mark '+') (more.map Prod.snd))) ts)
    (stops : Stops plus rest) :
    TypeReader.type r plus (ts ++ rest) = some (.other (textOf (.word kind :: (first.2 ++
      behindEach (.mark '+') (more.map Prod.snd)))), rest) := by
  cases spells with
  | @leaf _ _ us behind =>
    have text : spaced [kind, textOf (first.2 ++ behindEach (.mark '+') (more.map Prod.snd))] =
        textOf (.word kind :: (first.2 ++ behindEach (.mark '+') (more.map Prod.snd))) := by
      refine led_injective ?_
      rw [led_textOf_cons]
      simp [Piece.word, Piece.text, Leaf.text]
    rw [List.cons_append, Leaf.tree, TypeReader.type, ← text]
    simp only [List.mem_cons, List.not_mem_nil, or_false] at known
    obtain rfl | rfl := known
    · obtain ⟨ahead, read⟩ := bounds_apply r false false here item single
        trait behind stops
      have next : Ahead.word "dyn" (.word "dyn" :: (us ++ rest)) := by simp [Ahead.word]
      have keyword (text : String) : spaced ["dyn", "", text] = spaced ["dyn", text] :=
        led_injective (by simp)
      rw [ahead_false (Ahead.word_word (by simp)), ahead_false (Ahead.group_word ..),
        ahead_false (functionAhead_word (by simp)), ahead_false (pathAhead_word (by simp)),
        ahead_true next, bind_eq (word_apply "dyn" _),
        bind_eq (optionalOp_none (not_op_of_boundAhead (c := '*') (by simp) (by simp) ahead)), bind_eq read, keyword]
      rfl
    · obtain ⟨-, read⟩ := bounds_apply r true true here item single trait
        behind stops
      have next : Ahead.word "impl" (.word "impl" :: (us ++ rest)) := by simp [Ahead.word]
      rw [ahead_false (Ahead.word_word (by simp)), ahead_false (Ahead.group_word ..),
        ahead_false (functionAhead_word (by simp)), ahead_false (pathAhead_word (by simp)),
        ahead_false (Ahead.word_word (by simp)), ahead_false (Ahead.group_word ..),
        ahead_false (Ahead.op_word ..), ahead_false (Ahead.op_word ..),
        ahead_false (Ahead.op_word ..), ahead_true next, bind_eq (word_apply "impl" _),
        bind_eq read]
      rfl

theorem type_named (ahead : PathAhead ts) : TypeReader.type r plus ts = namedType r plus "" ts := by
  have reserved : ∀ k ∈ ["for", "fn", "unsafe", "extern"], isSegmentWord k = false := by
    decide +kernel
  have function : functionAhead ts = false :=
    ahead.not_anyOf fun k member => reserved k (List.mem_cons_of_mem _ member)
  rw [TypeReader.type, ahead_false (ahead.not_word (reserved "for" (by simp))),
    ahead_false (ahead.not_group _), ahead_false function, ahead_true ahead.pathAhead]

theorem type_path {p : Path} (read : TraitRead r p ts rest) (ahead : PathAhead ts)
    (ends : EndsPath plus rest) : TypeReader.type r plus ts = some (p.toType, rest) := by
  rw [type_named r ahead, namedType_apply r read ahead ends]

theorem type_sum {p : Path} {more : List (Bool × List Piece)} (path : ReadsTrait r (p, ps))
    (key : p.toType.key = textOf ps) (item : ∀ b ∈ more, ReadsBound r b) (several : more ≠ [])
    (spells : Spells (ps ++ behindEach (.mark '+') (more.map Prod.snd)) ts)
    (stops : Stops true rest) :
    TypeReader.type r true (ts ++ rest) =
      some (.other (textOf (ps ++ behindEach (.mark '+') (more.map Prod.snd))), rest) := by
  obtain ⟨us, vs, rfl, start, behind⟩ := spells.append_inv
  have follows := stops_behindEach behind stops
  obtain ⟨ahead, read⟩ := path us start (vs ++ rest) follows
  have plus : Ahead.op "+" (vs ++ rest) = true := by
    match more with
    | [] => exact absurd rfl several
    | b :: more =>
      cases behind with
      | mark => simp [Ahead.op]
  have enough : more.length ≤ (vs ++ rest).length := by
    have count := length_le_of_behindEach behind
    rw [List.length_map] at count
    rw [List.length_append]
    omega
  have text : spaced ("" :: p.toType.key ::
      (more.map fun b => (b.1, textOf (.mark '+' :: b.2))).map Prod.snd) =
        textOf (ps ++ behindEach (.mark '+') (more.map Prod.snd)) := by
    refine led_injective ?_
    rw [key, led_textOf_append, led_behindEach]
    simp [List.flatMap_map, led_textOf_cons]
  rw [List.append_assoc, type_named r ahead, namedType,
    bind_eq (typePath_apply r read ahead follows.endsPath.root)]
  dsimp only
  rw [ahead_bind, ahead_bind, follows.endsPath.bang, Bool.and_false, Bool.false_and,
    if_neg Bool.false_ne_true, ahead_bind, plus, Bool.and_true, Bool.or_true, if_pos rfl, if_pos rfl,
    get_bind, bind_eq (moreBounds_apply r item behind stops false false enough), text]
  rfl

theorem not_binder_of_functionAhead (ahead : functionAhead ts) :
    Ahead.word "for" ts = false ∧ Ahead.group .paren ts = false := by
  match ts with
  | .word w :: ts =>
    refine ⟨beq_false_of_ne ?_, rfl⟩
    rintro rfl
    simp [functionAhead, Ahead.anyOf, Ahead.word] at ahead
  | [] | .lifetime _ :: _ | .mark _ _ :: _ | .literal _ _ :: _ | .group _ _ :: _ => cases ahead

theorem type_function {guarded trailing : Bool} {binder : Option Binder}
    {convention : Option (Option String)} {inputs : List (List Piece)}
    {result : Option (HostType × List Piece)} (bound : ∀ b ∈ binder, b.IsValid)
    (item : ∀ ps ∈ inputs, ReadsInput r ps) (ended : inputs = [] → trailing = false)
    (returns : ∀ t ∈ result, ReadsType r false t) (key : ∀ t ∈ result, t.1.key = textOf t.2)
    (spells : Spells (functionPieces binder guarded convention inputs trailing result) ts)
    (stops : Stops plus rest) :
    TypeReader.type r plus (ts ++ rest) =
      some (.other (textOf (functionPieces binder guarded convention inputs trailing result)),
        rest) := by
  obtain ⟨us, vs, rfl, lead, signature⟩ := spells.append_inv
  obtain ⟨ahead, read⟩ := functionType_apply r item ended returns key signature stops.weaken
  rw [List.append_assoc]
  cases binder with
  | none =>
    cases lead
    obtain ⟨binder, paren⟩ := not_binder_of_functionAhead ahead
    rw [List.nil_append, TypeReader.type, ahead_false binder, ahead_false paren, ahead_true ahead,
      bind_eq read]
    rfl
  | some b =>
    obtain ⟨next, outer⟩ := binder_apply r (bound b rfl) lead
    have text : spaced [textOf (binderPieces (some b)),
        textOf (functionPieces none guarded convention inputs trailing result)] =
          textOf (functionPieces (some b) guarded convention inputs trailing result) := by
      refine led_injective ?_
      rw [functionPieces, functionPieces, led_textOf_append _ (wordIf _ _ ++ _)]
      simp [binderPieces]
    rw [TypeReader.type, ahead_true next, bind_eq outer, ahead_true ahead, bind_eq read, text]
    rfl

theorem type_paren (inner : List Tree) :
    TypeReader.type r plus (.group .paren inner :: ts) =
      parenType r plus (.group .paren inner :: ts) := by
  have binder : Ahead.word "for" (.group .paren inner :: ts) = false := by rfl
  have paren : Ahead.group .paren (.group .paren inner :: ts) = true := by rfl
  rw [TypeReader.type, ahead_false binder, ahead_true paren]

theorem type_unit (spells : Spells [.group .paren []] ts) :
    TypeReader.type r plus (ts ++ rest) = some (.unit, rest) := by
  cases spells with
  | group inside nothing =>
    cases inside
    cases nothing
    exact type_paren r []

theorem parenType_inner {inner : List Tree} {u : HostType} (next : TypeAhead inner)
    (read : (do
      let first ← r.type true
      if ← ahead (Ahead.op ",") then
        let _ ← op ","
        let (more, trailing) ← commas (r.type true)
        return HostType.tuple (first :: more) (trailing || more.isEmpty)
      else return .paren first : Reader HostType) inner = some (u, []))
    (stops : Stops plus rest) :
    parenType r plus (.group .paren inner :: rest) = some (u, rest) := by
  have question : Ahead.op "?" inner = false := next.not_op (c := '?') (by simp) (by simp)
  have life := next.not_lifetime
  obtain ⟨i, is, rfl⟩ := List.exists_cons_of_ne_nil next.ne_nil
  rw [parenType, get_bind]
  dsimp only
  rw [life, question, if_neg Bool.false_ne_true, if_neg Bool.false_ne_true,
    bind_eq (inside_apply read rest)]
  match u with
  | .paren (.path ..) =>
    dsimp only
    rw [ahead_bind, stops.endsPath.sum]
    rfl
  | .path .. | .tuple .. | .other _ | .paren (.tuple ..) | .paren (.paren _) | .paren (.other _) =>
    rfl

theorem type_parenthesized (inner : ReadsType r true (t, ps)) (spells : Spells [.group .paren ps] ts)
    (stops : Stops plus rest) : TypeReader.type r plus (ts ++ rest) = some (.paren t, rest) := by
  cases spells with
  | @group _ _ _ is _ inside nothing =>
    cases nothing
    obtain ⟨next, read⟩ := inner is inside [] .done
    rw [List.append_nil] at next read
    rw [List.singleton_append, type_paren]
    refine parenType_inner r next ?_ stops
    rw [bind_eq read, ahead_false (by simp [Ahead.op, Ahead.mark])]
    rfl

theorem type_tuple {trailing : Bool} {first : HostType × List Piece}
    {more : List (HostType × List Piece)} (here : ReadsType r true first)
    (item : ∀ t ∈ more, ReadsType r true t) (ended : more = [] → trailing = true)
    (spells : Spells [.group .paren (joined ',' (first.2 :: more.map Prod.snd) trailing)] ts)
    (stops : Stops plus rest) :
    TypeReader.type r plus (ts ++ rest) =
      some (.tuple (first.1 :: more.map Prod.fst) trailing, rest) := by
  cases spells with
  | @group _ _ _ is _ inside nothing =>
    cases nothing
    rw [joined] at inside
    obtain ⟨us, vs, rfl, start, behind⟩ := inside.append_inv
    have goesOn : ((more.map Prod.snd).isEmpty && !trailing) = false := by
      cases more with
      | nil => rw [ended rfl]; rfl
      | cons => rfl
    rw [goesOn, if_neg Bool.false_ne_true] at behind
    cases behind with
    | @mark _ joint _ ws later =>
      obtain ⟨next, read⟩ := here us start (.mark ',' joint :: ws) (.mark joint ws (by simp))
      rw [List.singleton_append, type_paren]
      refine parenType_inner r next ?_ stops
      have comma : Ahead.op "," (.mark ',' joint :: ws) = true := by simp [Ahead.op]
      rw [bind_eq read, ahead_true comma, bind_eq (op_single (by simp) joint ws)]
      have items := fun t member => ReadsType.item r (item t member)
      cases more with
      | nil =>
        cases later
        have list : commas (r.type true) [] = some (([], false), []) := by rfl
        rw [bind_eq list, ended rfl]
        rfl
      | cons u more =>
        rw [bind_eq (commas_apply items (fun none => absurd none (List.cons_ne_nil u more)) later)]
        simp [pure_apply]

theorem type_bracket {text : String} {inner : List Tree}
    (read : (do
      let elem ← r.type true
      if ← ahead (Ahead.op ";") then
        let _ ← op ";"
        return spaced [elem.key, ";", ← taken (r.expr true)]
      else return elem.key : Reader String) inner = some (text, [])) :
    TypeReader.type r plus (.group .bracket inner :: rest) =
      some (.other (enclosed .bracket text), rest) := by
  have paren : Ahead.group .paren (.group .bracket inner :: rest) = false := by rfl
  have bracket : Ahead.group .bracket (.group .bracket inner :: rest) = true := by rfl
  have word (w : String) : Ahead.word w (.group .bracket inner :: rest) = false := by rfl
  have function : functionAhead (.group .bracket inner :: rest) = false := by rfl
  have path : pathAhead (.group .bracket inner :: rest) = false := by
    simp [pathAhead, Ahead.name, Ahead.anyOf, Ahead.word, Ahead.op]
  rw [TypeReader.type, ahead_false (word _), ahead_false paren, ahead_false function,
    ahead_false path, ahead_false (word _), ahead_true bracket, bind_eq (inside_apply read rest)]
  rfl

theorem type_slice (elem : ReadsType r true (t, ps)) (key : t.key = textOf ps)
    (spells : Spells [.group .bracket ps] ts) :
    TypeReader.type r plus (ts ++ rest) = some (.other (textOf [.group .bracket ps]), rest) := by
  cases spells with
  | @group _ _ _ is _ inside nothing =>
    cases nothing
    obtain ⟨-, read⟩ := elem is inside [] .done
    rw [List.append_nil] at read
    rw [List.singleton_append, textOf_singleton, Piece.text]
    refine type_bracket r ?_
    rw [bind_eq read, ahead_false (by simp [Ahead.op, Ahead.mark]), key]
    rfl

theorem render_leaf (l : Leaf) : render [l.tree] = l.text := by
  have text : render [l.tree] = spaced [l.text, ""] := by
    cases l <;> simp [render, treesSize, Tree.size, treesText, treeText, Leaf.tree, Leaf.text]
  rw [text]
  exact led_injective (by simp)

theorem type_array {l : Leaf} {form : Form} (elem : ReadsType r true (t, ps))
    (key : t.key = textOf ps) (count : r.expr true [l.tree] = some (form, []))
    (spells : Spells [.group .bracket (ps ++ [.mark ';', .leaf l])] ts) :
    TypeReader.type r plus (ts ++ rest) =
      some (.other (textOf [.group .bracket (ps ++ [.mark ';', .leaf l])]), rest) := by
  cases spells with
  | @group _ _ _ is _ inside nothing =>
    cases nothing
    obtain ⟨us, vs, rfl, start, behind⟩ := inside.append_inv
    cases behind with
    | @mark _ joint _ _ behind =>
      cases behind with
      | leaf nothing =>
        cases nothing
        obtain ⟨-, read⟩ := elem us start _ (.mark (c := ';') joint [l.tree] (by simp))
        have text : spaced [t.key, ";", l.text] = textOf (ps ++ [.mark ';', .leaf l]) := by
          refine led_injective ?_
          rw [key, led_textOf_append, led_textOf_cons, textOf_leaf]
          simp [Piece.text]
        have semicolon : Ahead.op ";" [.mark ';' joint, l.tree] = true := by simp [Ahead.op]
        have taken : Reader.taken (r.expr true) [l.tree] = some (l.text, []) := by
          rw [Reader.taken, get_bind, bind_eq count, get_bind]
          exact congrArg (fun text => some (text, [])) (render_leaf l)
        rw [List.singleton_append, textOf_singleton, Piece.text, ← textOf, ← text]
        refine type_bracket r ?_
        rw [bind_eq read, ahead_true semicolon, bind_eq (op_single (by simp) joint _), bind_eq taken]
        rfl

def ReadsPath (p : Path × List Piece) : Prop :=
  ∀ ts, Spells p.2 ts → ∀ rest, Ahead.op "::" rest = false → Ahead.op "<" rest = false →
    PathAhead (ts ++ rest) ∧ plainPath r false (ts ++ rest) = some (p.1, rest)

theorem readsPath_segments (rooted : Bool) {first : (String × TypeArgs) × List Piece}
    {more : List ((String × TypeArgs) × List Piece)} (here : ReadsSegment (r.segment false) first)
    (item : ∀ s ∈ more, ReadsSegment (r.segment false) s) :
    ReadsPath r (⟨rooted, first.1 :: more.map Prod.fst⟩,
      pieceIf rooted .colons ++ first.2 ++ behindEach .colons (more.map Prod.snd)) :=
  fun _ spells _ root angle => plainPath_apply r here item spells root angle

theorem through_apply {α : Type} {through : Option (Path × List Piece)} {ws : List Tree}
    (as : ∀ p ∈ through, ReadsPath r p) (asText : ∀ p ∈ through, p.1.text = textOf p.2)
    (spells : Spells (throughPieces through) ws) (joint : Bool) (next : String → Reader α) :
    (do
      let through ←
        if ← ahead (Ahead.word "as") then do
          let _ ← word "as"
          let rooted ← optionalOp "::"
          let first ← r.segment false
          let more ← moreSegments (r.segment false)
          pure (spaced ["as", Path.text ⟨!rooted.isEmpty, first :: more⟩])
        else pure ""
      next through : Reader α) (ws ++ .mark '>' joint :: ts) =
      next (textOf (throughPieces through)) (.mark '>' joint :: ts) := by
  cases through with
  | none =>
    cases spells
    rw [List.nil_append, ahead_false (Ahead.word_mark ..)]
    rfl
  | some p =>
    cases spells with
    | @leaf _ _ xs path =>
      have known : Ahead.word "as" (.word "as" :: (xs ++ .mark '>' joint :: ts)) := by
        simp [Ahead.word]
      obtain ⟨-, plain⟩ := as p rfl xs path (.mark '>' joint :: ts) (by simp [Ahead.op])
        (by simp [Ahead.op])
      obtain ⟨rooted, first, more, _, _, colons, one, several, same⟩ := plainPath_inv r plain
      have text : spaced ["as", p.1.text] = textOf (throughPieces (some p)) := by
        refine led_injective ?_
        rw [asText p rfl, throughPieces, led_textOf_cons]
        simp [Piece.word, Piece.text, Leaf.text]
      rw [List.cons_append, Leaf.tree, ahead_true known, bind_eq (word_apply "as" _),
        bind_eq colons, bind_eq one, bind_eq several, ← text, same]
      rfl

theorem qualified_apply {through : Option (Path × List Piece)}
    {first : (String × TypeArgs) × List Piece} {more : List ((String × TypeArgs) × List Piece)}
    (this : ReadsType r true (t, ps)) (key : t.key = textOf ps)
    (as : ∀ p ∈ through, ReadsPath r p) (asText : ∀ p ∈ through, p.1.text = textOf p.2)
    (here : ReadsSegment (r.segment false) first)
    (item : ∀ s ∈ more, ReadsSegment (r.segment false) s)
    (spells : Spells (.mark '<' :: (ps ++ (throughPieces through ++ .mark '>' :: .colons ::
      (first.2 ++ behindEach .colons (more.map Prod.snd))))) ts)
    (stops : Stops plus rest) :
    qualified r false (ts ++ rest) =
      some ((textOf (.mark '<' :: (ps ++ (throughPieces through ++ [.mark '>']))),
        first.1 :: more.map Prod.fst), rest) := by
  cases spells with
  | @mark _ joint _ _ spells =>
    obtain ⟨us, vs, rfl, type, behindType⟩ := spells.append_inv
    obtain ⟨ws, xs, rfl, trait, behindTrait⟩ := behindType.append_inv
    cases behindTrait with
    | @mark _ joint' _ _ behindAngle =>
      cases behindAngle with
      | @pair _ _ joint'' _ ys _ segments =>
        obtain ⟨start, others, rfl, front, behind⟩ := segments.append_inv
        have root : Ahead.op "::" rest = false := stops.not_op (c := ':') (by simp) (by simp)
        have angle : Ahead.op "<" rest = false := stops.not_op (c := '<') (by simp) (by simp)
        have read := (here start front (others ++ rest) (angleAhead_behindEach item behind root angle)).2
        have follow : Stops true (ws ++ .mark '>' joint' :: .mark ':' true :: .mark ':' joint'' ::
            (start ++ (others ++ rest))) := by
          cases through with
          | none =>
            cases trait
            exact .mark joint' _ (by simp)
          | some p =>
            cases trait with
            | leaf => exact .as _
        have readType := (this us type _ follow).2
        have enough : more.length ≤ (others ++ rest).length := by
          have count := length_le_of_behindEach behind
          rw [List.length_map] at count
          rw [List.length_append]
          omega
        have goes (joint : Bool) (w : String) (ts : List Tree) :
            Ahead.op "::" (.mark ':' true :: .mark ':' joint :: .word w :: ts) = true := by
          simp [Ahead.op, Ahead.mark]
        have readMore := whileAhead_segments item goes root behind root angle enough
        have text : spaced ["<", t.key, textOf (throughPieces through), ">"] =
            textOf (.mark '<' :: (ps ++ (throughPieces through ++ [.mark '>']))) := by
          refine led_injective ?_
          rw [key, led_textOf_cons, led_textOf_append, led_textOf_append, textOf_singleton]
          simp [Piece.text]
        simp only [List.cons_append, List.append_assoc]
        rw [qualified, bind_eq (op_single (by simp) joint _), bind_eq readType, ← text]
        refine (through_apply r as asText trait joint' _).trans ?_
        rw [bind_eq (op_single (by simp) joint' _), bind_eq (op_pair (by simp) joint'' _),
          bind_eq read, get_bind, bind_eq readMore]
        rfl

theorem type_qualified {through : Option (Path × List Piece)}
    {first : (String × TypeArgs) × List Piece} {more : List ((String × TypeArgs) × List Piece)}
    (this : ReadsType r true (t, ps)) (key : t.key = textOf ps)
    (as : ∀ p ∈ through, ReadsPath r p) (asText : ∀ p ∈ through, p.1.text = textOf p.2)
    (here : ReadsSegment (r.segment false) first)
    (item : ∀ s ∈ more, ReadsSegment (r.segment false) s)
    (segments : Path.text ⟨true, first.1 :: more.map Prod.fst⟩ =
      textOf (.colons :: (first.2 ++ behindEach .colons (more.map Prod.snd))))
    (spells : Spells (.mark '<' :: (ps ++ (throughPieces through ++ .mark '>' :: .colons ::
      (first.2 ++ behindEach .colons (more.map Prod.snd))))) ts)
    (stops : Stops plus rest) :
    TypeReader.type r plus (ts ++ rest) =
      some (.other (textOf (.mark '<' :: (ps ++ (throughPieces through ++ .mark '>' :: .colons ::
        (first.2 ++ behindEach .colons (more.map Prod.snd)))))), rest) := by
  have read := qualified_apply r this key as asText here item spells stops
  have calls : callAhead rest = false :=
    callAhead_eq_false (stops.not_group _) (stops.not_op (c := ':') (by simp) (by simp))
  have text : spaced [textOf (.mark '<' :: (ps ++ (throughPieces through ++ [.mark '>']))),
      Path.text ⟨true, first.1 :: more.map Prod.fst⟩] =
        textOf (.mark '<' :: (ps ++ (throughPieces through ++ .mark '>' :: .colons ::
          (first.2 ++ behindEach .colons (more.map Prod.snd))))) := by
    refine led_injective ?_
    rw [segments]
    simp [led_textOf_cons, led_textOf_append, textOf_singleton]
  cases spells with
  | @mark _ joint _ us _ =>
    have angle : Ahead.op "<" (.mark '<' joint :: us ++ rest) = true := by simp [Ahead.op]
    have path : pathAhead (.mark '<' joint :: us ++ rest) = true := by
      rw [pathAhead, angle, Bool.or_true]
    rw [TypeReader.type, List.cons_append, ahead_false (Ahead.word_mark ..),
      ahead_false (Ahead.group_mark ..), ahead_false (functionAhead_mark ..), ← List.cons_append,
      ahead_true path, namedType, bind_apply, typePath, ahead_true angle, bind_eq read]
    dsimp only
    rw [get_bind, bind_eq (withCalls_plain r _ calls _), text]
    rfl

end

end

end Pegsmith.Source
