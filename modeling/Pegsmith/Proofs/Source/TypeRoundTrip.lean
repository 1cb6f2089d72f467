import Pegsmith.Proofs.Source.TypeForms

set_option autoImplicit false

namespace Pegsmith.Source

open Reader TypeReader

mutual

def Piece.size : Piece → Nat
  | .leaf _ | .mark _ | .pair _ _ => 1
  | .group _ inner => 1 + sizes inner

def sizes : List Piece → Nat
  | [] => 0
  | p :: ps => p.size + sizes ps

end

@[simp] theorem sizes_nil : sizes [] = 0 := by
  rfl

@[simp] theorem sizes_cons (p : Piece) (ps : List Piece) : sizes (p :: ps) = p.size + sizes ps := by
  rfl

@[simp] theorem sizes_append (ps qs : List Piece) : sizes (ps ++ qs) = sizes ps + sizes qs := by
  induction ps with
  | nil => simp
  | cons p ps ih => simp [ih, Nat.add_assoc]

@[simp] theorem size_word (w : String) : (Piece.word w).size = 1 := by
  rfl

@[simp] theorem size_leaf (l : Leaf) : (Piece.leaf l).size = 1 := by
  rfl

@[simp] theorem size_mark (c : Char) : (Piece.mark c).size = 1 := by
  rfl

@[simp] theorem size_pair (c d : Char) : (Piece.pair c d).size = 1 := by
  rfl

@[simp] theorem size_colons : Piece.colons.size = 1 := by
  rfl

@[simp] theorem size_group (d : Delimiter) (inner : List Piece) :
    (Piece.group d inner).size = 1 + sizes inner := by
  rfl

theorem sizes_le_of_mem_joined (sep : Char) {pss : List (List Piece)} {ps : List Piece}
    (member : ps ∈ pss) (trailing : Bool) : sizes ps ≤ sizes (joined sep pss trailing) := by
  induction pss with
  | nil => cases member
  | cons qs pss ih =>
    rw [joined, sizes_append]
    cases member with
    | head => exact Nat.le_add_right _ _
    | tail _ member =>
      have some : pss.isEmpty = false := by
        rw [List.isEmpty_eq_false_iff]
        exact List.ne_nil_of_mem member
      have later := ih member
      simp only [some, Bool.false_and, Bool.false_eq_true, if_false, sizes_cons]
      omega

theorem sizes_le_of_mem_behindEach (lead : Piece) {pss : List (List Piece)} {ps : List Piece}
    (member : ps ∈ pss) : lead.size + sizes ps ≤ sizes (behindEach lead pss) := by
  induction pss with
  | nil => cases member
  | cons qs pss ih =>
    rw [behindEach, List.flatMap_cons, ← behindEach, sizes_append, sizes_cons]
    cases member with
    | head => omega
    | tail _ member =>
      have later := ih member
      omega

theorem Laid.sizes_le {ps : List Piece} {cs : List Char} (laid : Laid ps cs) :
    sizes ps ≤ cs.length := by
  induction laid with
  | nil => exact Nat.le_refl 0
  | blank _ _ ih =>
    rw [List.length_cons]
    omega
  | @leaf l ps cs valid _ _ ih =>
    obtain ⟨c, more, same, -⟩ := startsTree_leaf valid
    rw [same]
    simp
    omega
  | mark _ _ ih =>
    simp
    omega
  | pair _ _ ih =>
    simp
    omega
  | group _ _ _ ihInside ih =>
    simp
    omega

theorem atom_name {w : String} (name : isName w) (n : Nat) :
    ExprReader.atom (readers (n + 1)) true [.word w] = some (.plain, []) := by
  have reserved : ∀ k ∈ ["true", "false", "async", "try", "move", "static", "for", "const"],
      k ∈ keywords := by decide +kernel
  have other (k : String) (member : k ∈ ["true", "false", "async", "try", "move", "static", "for",
      "const"]) : Ahead.word k [.word w] = false :=
    beq_false_of_ne (ne_of_isName name (reserved k member))
  have plain (text : String) : Ahead.op text [.word w] = false := Ahead.mark_leaf _ (.word w) []
  have literal : Ahead.literal [.word w] = false := by
    simp only [Ahead.literal, other "true" (by simp), other "false" (by simp), Bool.or_false]
  have task : ExprReader.asyncAhead [.word w] = false := by
    rw [ExprReader.asyncAhead, other "async" (by simp), Bool.false_and]
  have closure : ExprReader.closureAhead [.word w] = false := by
    rw [ExprReader.closureAhead, plain, other "move" (by simp), other "static" (by simp),
      other "for" (by simp), other "const" (by simp), other "async" (by simp)]
    rfl
  have path : ExprReader.pathAhead [.word w] = true := by
    simp [ExprReader.pathAhead, PatternReader.pathAhead, Ahead.name, name]
  have segment : (readers (n + 1)).segment true [.word w] = some ((w, .none), []) :=
    segment_of_name (readers n) name rfl
  have single : TypeReader.plainPath (readers (n + 1)) true [.word w] =
      some (⟨false, [(w, .none)]⟩, []) := by
    rw [plainPath, bind_eq (optionalOp_none (plain _)), bind_eq segment]
    rfl
  have last : Ahead.op "#" ([.word w].drop 1) = false := rfl
  rw [ExprReader.atom, get_bind, literal, task, other "try" (by simp), closure, last, path]
  simp only [Bool.false_and, Bool.and_false, Bool.false_eq_true, if_false, if_true]
  rw [ExprReader.pathOperand, PatternReader.exprPath, bind_apply, ahead_false (plain _),
    bind_eq single]
  rfl

theorem atom_length {l : Leaf} (length : l.isLength) (n : Nat) :
    ExprReader.atom (readers (n + 1)) true [l.tree] = some (.plain, []) := by
  cases l with
  | word w => exact atom_name (isName_of_isNameWord length) n
  | lifetime name => cases length
  | literal kind text => rfl

theorem expr_length {l : Leaf} (length : l.isLength) (n : Nat) :
    (readers (n + 3)).expr true [l.tree] = some (.plain, []) := by
  change ExprReader.expr (readers (n + 2)) true _ = _
  have operand : (readers (n + 2)).operand true [l.tree] = some (.plain, []) := by
    change ExprReader.operand (readers (n + 1)) true _ = _
    have plain (text : String) : Ahead.op text [l.tree] = false := Ahead.mark_leaf text.toList l []
    have prefixes : Ahead.anyOp ["*", "!", "-"] [l.tree] = false := by
      simp [Ahead.anyOp, plain]
    rw [ExprReader.operand, ahead_bind, bind_eq (annotations_none _ (plain _)), get_bind, plain,
      plain, prefixes, if_neg Bool.false_ne_true, if_neg Bool.false_ne_true,
      bind_eq (atom_length length n)]
    rfl
  have operation : (readers (n + 2)).operation .plain true .jump [] = some (.plain, []) := by
    rfl
  rw [ExprReader.expr, bind_eq operand, operation]

structure ArgAhead (ts : List Tree) : Prop where
  angle : Ahead.op ">" ts = false
  equals : Ahead.op "=" ts = false
  less : Ahead.op "<=" ts = false

theorem ArgAhead.of_leaf (l : Leaf) (ts : List Tree) : ArgAhead (l.tree :: ts) :=
  ⟨Ahead.mark_leaf _ l ts, Ahead.mark_leaf _ l ts, Ahead.mark_leaf _ l ts⟩

theorem PathAhead.argAhead {ts : List Tree} (ahead : PathAhead ts) : ArgAhead ts where
  angle := ahead.not_op (c := '>') (by simp) (by decide)
  equals := ahead.not_op (c := '=') (by simp) (by decide)
  less := ahead.not_op (c := '<') (by simp) (by decide)

theorem TypeAhead.argAhead {ts : List Tree} (ahead : TypeAhead ts) : ArgAhead ts where
  angle := ahead.not_op (c := '>') (by simp) (by simp)
  equals := ahead.not_op (c := '=') (by simp) (by simp)
  less := ahead.not_less

def ReadsArg (r : Readers) (a : TypeArg × List Piece) : Prop :=
  ∀ ts, Spells a.2 ts → ∀ rest, EndsArg rest →
    ArgAhead (ts ++ rest) ∧ genericArg r (ts ++ rest) = some (a.1, rest)

structure ReadsConst (text : String) (ts rest : List Tree) : Prop where
  argAhead : ArgAhead ts
  not_lifetime : Ahead.lifetime ts = false
  literal : Ahead.literal ts
  read : Reader.literal ts = some (text, rest)

theorem readsConst_literal {kind : LiteralKind} {text : String} {ts : List Tree}
    (spells : Spells [.leaf (.literal kind text)] ts) (rest : List Tree) :
    ReadsConst text (ts ++ rest) rest := by
  cases spells with
  | leaf nothing =>
    cases nothing
    exact ⟨.of_leaf _ rest, rfl, rfl, rfl⟩

theorem readsConst_negative {kind : LiteralKind} {text : String} {ts : List Tree}
    (number : kind ∈ [.integer, .float]) (valid : isLiteral kind text)
    (spells : Spells [.mark '-', .leaf (.literal kind text)] ts) (rest : List Tree) :
    ReadsConst (textOf [.mark '-', .leaf (.literal kind text)]) (ts ++ rest) rest := by
  cases spells with
  | @mark _ joint _ _ behind =>
    cases behind with
    | leaf nothing =>
      cases nothing
      have filled : text ≠ "" := by
        rintro rfl
        exact (isLiteral_iff.mp valid).1.toList_ne_nil rfl
      have whole : textOf [.mark '-', .leaf (.literal kind text)] = "- " ++ text := by
        refine led_injective ?_
        have chars : ("- " ++ text).toList = '-' :: ' ' :: text.toList := by simp
        rw [led_textOf_cons, textOf_leaf, led_of_toList chars, Leaf.text, led_of_ne filled]
        rfl
      have argAhead : ArgAhead (.mark '-' joint :: .literal kind text :: rest) :=
        ⟨by simp [Ahead.op], by simp [Ahead.op], by simp [Ahead.op]⟩
      rw [whole]
      simp only [List.mem_cons, List.not_mem_nil, or_false] at number
      obtain rfl | rfl := number <;> exact ⟨argAhead, rfl, rfl, rfl⟩

theorem readsConst_truth {w : String} {ts : List Tree} (known : w ∈ ["true", "false"])
    (spells : Spells [.word w] ts) (rest : List Tree) : ReadsConst w (ts ++ rest) rest := by
  cases spells with
  | leaf nothing =>
    cases nothing
    simp only [List.mem_cons, List.not_mem_nil, or_false] at known
    have literal : Ahead.literal (.word w :: rest) = true := by
      obtain rfl | rfl := known <;> simp [Ahead.literal, Ahead.word]
    have read : Reader.literal (.word w :: rest) = some (w, rest) := by
      obtain rfl | rfl := known <;> rfl
    exact ⟨.of_leaf _ rest, rfl, literal, read⟩

section

variable (r : Readers)

theorem ReadsArg.item {a : TypeArg × List Piece} (reads : ReadsArg r a) :
    ReadsItem ',' (Ahead.op ">") (genericArg r) a := fun ts spells rest follows => by
  obtain ⟨next, read⟩ := reads ts spells rest (endsArg_of_item follows)
  exact ⟨next.angle, read⟩

theorem readsArg_type {t : HostType} {ps : List Piece} (reads : ReadsType r true (t, ps)) :
    ReadsArg r (.type t, ps) := by
  intro ts spells rest ends
  obtain ⟨next, read⟩ := reads ts spells rest (ends.stops true)
  have equals : Ahead.op "=" rest = false := ends.not_op (c := '=') (by simp) (by simp)
  have colon : Ahead.op ":" rest = false := ends.not_op (c := ':') (by simp) (by simp)
  exact ⟨next.argAhead, genericArg_type r next read equals colon⟩

theorem readsArg_lifetime (name : String) : ReadsArg r (.lifetime name, [.leaf (.lifetime name)]) := by
  intro ts spells rest ends
  cases spells with
  | leaf nothing =>
    cases nothing
    have plus : Ahead.op "+" rest = false := ends.not_op (c := '+') (by simp) (by simp)
    exact ⟨.of_leaf _ rest, genericArg_lifetime r name plus⟩

theorem readsArg_const {text : String} {ps : List Piece}
    (value : ∀ ts, Spells ps ts → ∀ rest, ReadsConst text (ts ++ rest) rest) :
    ReadsArg r (.other text, ps) := by
  intro ts spells rest _
  have const := value ts spells rest
  exact ⟨const.argAhead, genericArg_other r const.not_lifetime const.literal const.read⟩

theorem type_segment {s : String × TypeArgs} {ps : List Piece} {ts rest : List Tree}
    (reads : ReadsSegment (r.segment false) (s, ps)) (spells : Spells ps ts)
    (ends : EndsPath true rest) :
    PathAhead (ts ++ rest) ∧
      TypeReader.type r true (ts ++ rest) = some (.path "" s.1 s.2, rest) := by
  have path : ReadsPath r (⟨false, [s]⟩, ps) := by
    simpa [pieceIf, behindEach] using readsPath_segments r false reads (List.forall_mem_nil _)
  obtain ⟨ahead, read⟩ := path ts spells rest ends.root ends.angle
  have trait : TraitRead r ⟨false, [s]⟩ (ts ++ rest) rest :=
    .plain read (callAhead_eq_false ends.call ends.root)
  exact ⟨ahead, type_path r trait ahead ends⟩

section

variable {lower : Readers} {s : String × TypeArgs} {ps : List Piece}

theorem readsArg_binding {qs : List Piece} (brings : r.type = TypeReader.type lower)
    (name : ReadsSegment (lower.segment false) (s, ps)) (bare : ∀ text, s.2 ≠ .call text)
    (key : (HostType.path "" s.1 s.2).key = textOf ps)
    (value : ∀ ts, Spells qs ts → ∀ rest, EndsArg rest → ValueRead r (ts ++ rest) (textOf qs) rest) :
    ReadsArg r (.other (textOf (ps ++ .mark '=' :: qs)), ps ++ .mark '=' :: qs) := by
  intro ts spells rest ends
  obtain ⟨us, vs, rfl, start, behind⟩ := spells.append_inv
  cases behind with
  | @mark _ joint _ ws later =>
    have stops : Stops true (.mark '=' joint :: (ws ++ rest)) := .mark _ _ (by simp)
    obtain ⟨ahead, read⟩ := type_segment lower name start stops.endsPath
    have text : spaced [(HostType.path "" s.1 s.2).key, "=", textOf qs] =
        textOf (ps ++ .mark '=' :: qs) := by
      refine led_injective ?_
      rw [key, led_textOf_append, led_textOf_cons]
      simp [Piece.text]
    rw [← brings] at read
    rw [List.append_assoc, List.cons_append, ← text]
    exact ⟨ahead.argAhead, genericArg_binding r bare ahead read (value ws later rest ends)⟩

theorem ReadsBound.item {b : Bool × List Piece} (reads : ReadsBound r b) :
    ReadsItem '+' (fun ts => Ahead.op "," ts || Ahead.op ">" ts) (bound r false true)
      ((b.1, textOf b.2), b.2) := by
  intro ts spells rest follows
  have stops : Stops false rest := by
    obtain next | ⟨joint, more, rfl⟩ := follows
    · obtain comma | angle := (Bool.or_eq_true ..).mp next
      · match rest with
        | .mark c joint :: ts =>
          obtain rfl : ',' = c := by simpa [Ahead.op] using comma
          exact .mark joint ts (by simp)
        | [] | .word _ :: _ | .lifetime _ :: _ | .literal _ _ :: _ | .group _ _ :: _ =>
          simp [Ahead.op, Ahead.mark] at comma
      · exact (endsArg_of_item (.inl angle)).stops false
    · exact .plus rfl joint more
  obtain ⟨ahead, read⟩ := reads ts spells rest stops false true
  refine ⟨?_, read⟩
  beta_reduce
  rw [not_op_of_boundAhead (c := ',') (by simp) (by simp) ahead,
    not_op_of_boundAhead (c := '>') (by simp) (by simp) ahead]
  rfl

theorem readsArg_constraint {first : Bool × List Piece} {more : List (Bool × List Piece)}
    (brings : r.type = TypeReader.type lower) (name : ReadsSegment (lower.segment false) (s, ps))
    (bare : ∀ text, s.2 ≠ .call text) (key : (HostType.path "" s.1 s.2).key = textOf ps)
    (item : ∀ b ∈ first :: more, ReadsBound r b) (starts : StartsPlain first.2)
    (apart : first.2.head? ≠ some .colons) :
    ReadsArg r
      (.other (textOf (ps ++ .mark ':' :: joined '+' ((first :: more).map Prod.snd) false)),
        ps ++ .mark ':' :: joined '+' ((first :: more).map Prod.snd) false) := by
  intro ts spells rest ends
  obtain ⟨us, vs, rfl, start, behind⟩ := spells.append_inv
  cases behind with
  | @mark _ joint _ ws later =>
    have single : Ahead.op ":" (ws ++ rest) = false := by
      rw [List.map_cons, joined] at later
      obtain ⟨front, back, rfl, here, -⟩ := later.append_inv
      rw [List.append_assoc]
      exact here.not_colon starts apart
    have endsPath : EndsPath true (.mark ':' joint :: (ws ++ rest)) := by
      constructor <;> simp_all [Ahead.op, Ahead.group]
    obtain ⟨ahead, read⟩ := type_segment lower name start endsPath
    have stop : (Ahead.op "," rest || Ahead.op ">" rest) = true := by
      cases ends <;> simp [Ahead.op]
    have items : ∀ x ∈ (first :: more).map fun b => ((b.1, textOf b.2), b.2),
        ReadsItem '+' (fun ts => Ahead.op "," ts || Ahead.op ">" ts) (bound r false true) x := by
      rw [List.forall_mem_map]
      exact fun b member => (item b member).item
    have plus : "+".toList = ['+'] := by simp
    have bounds := separated_apply plus stop
      (fun joint ts => by simp [Ahead.op]) items (fun _ => rfl)
      (by simpa [Function.comp_def] using later)
    have text : spaced [(HostType.path "" s.1 s.2).key, ":",
        spaced ((((first :: more).map fun b => ((b.1, textOf b.2), b.2)).map Prod.fst).map
          Prod.snd |>.intersperse "+" |> (· ++ if false then ["+"] else []))] =
        textOf (ps ++ .mark ':' :: joined '+' ((first :: more).map Prod.snd) false) := by
      have list := led_joined '+' ((first :: more).map Prod.snd) false fun _ => rfl
      refine led_injective ?_
      rw [key, led_textOf_append, led_textOf_cons, ← list]
      simp [Piece.text, Function.comp_def]
    rw [← brings] at read
    rw [List.append_assoc, List.cons_append, ← text]
    exact ⟨ahead.argAhead, genericArg_constraint r bare ahead read bounds⟩

end

theorem argAhead_joined {args : List (TypeArg × List Piece)} (item : ∀ a ∈ args, ReadsArg r a)
    {trailing : Bool} {ts : List Tree} (spells : Spells (joined ',' (args.map Prod.snd) trailing) ts)
    (joint : Bool) (rest : List Tree) :
    Ahead.op "=" (ts ++ .mark '>' joint :: rest) = false ∧
      Ahead.op "<=" (ts ++ .mark '>' joint :: rest) = false := by
  cases args with
  | nil =>
    cases spells
    exact ⟨by simp [Ahead.op], by simp [Ahead.op]⟩
  | cons a args =>
    rw [List.map_cons, joined] at spells
    obtain ⟨us, vs, rfl, here, behind⟩ := spells.append_inv
    have ends : EndsArg (vs ++ .mark '>' joint :: rest) := by
      split at behind
      · cases behind
        exact .angle joint rest
      · cases behind with
        | mark => exact .comma _ _
    obtain ⟨next, -⟩ := item a List.mem_cons_self us here _ ends
    rw [List.append_assoc]
    exact ⟨next.equals, next.less⟩

theorem angleAhead_of_args {turbofish trailing : Bool} {args : List (TypeArg × List Piece)}
    (item : ∀ a ∈ args, ReadsArg r a) {ts rest : List Tree}
    (spells : Spells (pieceIf turbofish .colons ++
      .mark '<' :: (joined ',' (args.map Prod.snd) trailing ++ [.mark '>'])) ts) :
    angleAhead false (ts ++ rest) := by
  obtain ⟨us, vs, rfl, colons, angle⟩ := spells.append_inv
  cases angle with
  | @mark _ joint _ ws inside =>
    cases turbofish with
    | true =>
      cases colons with
      | pair _ nothing =>
        cases nothing
        simp [angleAhead, Ahead.op]
    | false =>
      cases colons
      obtain ⟨items, close, rfl, inner, closed⟩ := inside.append_inv
      cases closed with
      | @mark _ joint' _ _ nothing =>
        cases nothing
        obtain ⟨equals, less⟩ := argAhead_joined r item inner joint' rest
        have le : Ahead.op "<=" (.mark '<' joint :: (items ++ .mark '>' joint' :: rest)) = false := by
          simpa [Ahead.op] using fun _ => equals
        have shift : Ahead.op "<<=" (.mark '<' joint :: (items ++ .mark '>' joint' :: rest)) = false := by
          simpa [Ahead.op] using fun _ => less
        have start : Ahead.op "<" (.mark '<' joint :: (items ++ .mark '>' joint' :: rest)) = true := by
          simp [Ahead.op]
        rw [List.nil_append, List.cons_append, List.append_assoc, List.singleton_append, angleAhead,
          start, le, shift]
        rfl

theorem readsSegment_name {w : String} (name : isName w) :
    ReadsSegment (TypeReader.segment r false) ((w, .none), [.word w]) := by
  intro ts spells rest apart
  cases spells with
  | leaf nothing =>
    cases nothing
    rw [List.singleton_append, Leaf.tree]
    refine ⟨⟨w, [], by rw [isSegmentWord, name, Bool.true_or], rfl⟩, segment_of_name r name ?_⟩
    rw [apart]
    rfl

theorem readsSegment_keyword {w : String} (known : w ∈ ["super", "self", "Self", "crate"]) :
    ReadsSegment (TypeReader.segment r false) ((w, .none), [.word w]) := by
  intro ts spells rest apart
  cases spells with
  | leaf nothing =>
    cases nothing
    have word : isSegmentWord w := by
      rw [isSegmentWord, List.contains_iff_mem.mpr known, Bool.or_true]
    exact ⟨⟨w, [], word, rfl⟩, segment_of_keyword r known apart⟩

theorem readsSegment_generic {w : String} {turbofish trailing : Bool}
    {args : List (TypeArg × List Piece)} (name : isName w) (item : ∀ a ∈ args, ReadsArg r a)
    (ordered : (args.map Prod.fst).Pairwise fun a b => b.isLifetime → a.isLifetime)
    (ended : args = [] → trailing = false) :
    ReadsSegment (TypeReader.segment r false) ((w, .angle turbofish (args.map Prod.fst) trailing),
      .word w :: (pieceIf turbofish .colons ++
        .mark '<' :: (joined ',' (args.map Prod.snd) trailing ++ [.mark '>']))) := by
  intro ts spells rest _
  cases spells with
  | @leaf _ _ us angles =>
    have items := fun a member => ReadsArg.item r (item a member)
    rw [List.cons_append, Leaf.tree]
    refine ⟨⟨w, us, by rw [isSegmentWord, name, Bool.true_or], rfl⟩, segment_of_name r name ?_⟩
    rw [angleAhead_of_args r item angles, if_pos rfl, angleArgs_apply r items ordered ended angles]

theorem readsTrait_plain {p : Path} {ps : List Piece} (path : ReadsPath r (p, ps)) :
    ReadsTrait r (p, ps) := by
  intro ts spells rest stops
  have root : Ahead.op "::" rest = false := stops.not_op (c := ':') (by simp) (by simp)
  obtain ⟨ahead, read⟩ :=
    path ts spells rest root (stops.not_op (c := '<') (by simp) (by simp))
  exact ⟨ahead, .plain read (callAhead_eq_false (stops.not_group _) root)⟩

theorem readsTrait_call {p : Path} {ps : List Piece} {w : String} {trailing : Bool}
    {inputs : List (HostType × List Piece)} {result : Option (HostType × List Piece)}
    (path : ReadsPath r (p, ps)) (last : p.segments.getLast? = some (w, .none))
    (item : ∀ t ∈ inputs, ReadsType r true t) (keys : ∀ t ∈ inputs, t.1.key = textOf t.2)
    (ended : inputs = [] → trailing = false) (returns : ∀ t ∈ result, ReadsType r false t)
    (keyResult : ∀ t ∈ result, t.1.key = textOf t.2) :
    ReadsTrait r
      (⟨p.rooted, p.segments.dropLast ++
        [(w, .call (textOf (.group .paren (joined ',' (inputs.map Prod.snd) trailing) ::
          arrowed result)))]⟩,
        ps ++ .group .paren (joined ',' (inputs.map Prod.snd) trailing) :: arrowed result) := by
  intro ts spells rest stops
  obtain ⟨us, vs, rfl, start, call⟩ := spells.append_inv
  obtain ⟨goesOn, args⟩ := callArgs_apply r item keys ended returns keyResult call stops
  cases call with
  | @group _ _ _ inner ws =>
    obtain ⟨ahead, read⟩ := path us start (.group .paren inner :: (ws ++ rest))
      (by simp [Ahead.op]) (by simp [Ahead.op])
    rw [List.append_assoc]
    exact ⟨ahead, .call read last args⟩

end

def Phrase.Reads (r : Readers) (ps : List Piece) : Phrase → Prop
  | .type sum t => ReadsType r sum (t, ps)
  | .const text => ∀ ts, Spells ps ts → ∀ rest, ReadsConst text (ts ++ rest) rest
  | .arg a => ReadsArg r (a, ps)
  | .segment s => ReadsSegment (r.segment false) (s, ps)
  | .path p => ReadsPath r (p, ps)
  | .trait p => ReadsTrait r (p, ps)
  | .bound isTrait => ReadsBound r (isTrait, ps)
  | .input => ReadsInput r ps

def Phrase.rank : Phrase → Nat
  | .type .. | .arg _ | .bound _ | .input => 1
  | .const _ | .segment _ | .path _ | .trait _ => 0

theorem readsType_succ {n : Nat} {sum : Bool} {t : HostType} {ps : List Piece}
    (everyday : Everyday (.type sum t) ps)
    (read : ∀ ts rest, Spells ps ts → Stops sum rest →
      TypeReader.type (readers n) sum (ts ++ rest) = some (t, rest)) :
    ReadsType (readers (n + 1)) sum (t, ps) := fun ts spells rest stops =>
  ⟨spells.typeAhead everyday.startsType (stops.not_op (c := ':') (by simp) (by simp)),
    read ts rest spells stops⟩

theorem Everyday.reads {ph : Phrase} {ps : List Piece} (everyday : Everyday ph ps) {n : Nat}
    (enough : 2 * sizes ps + ph.rank ≤ n) : ph.Reads (readers n) ps := by
  -- Readers nest at most twice for a piece, and a part has fewer pieces than what it is part of, so
  -- the depth that is left is enough for each part.
  induction everyday generalizing n with
  | name name =>
    simp [Phrase.rank] at enough
    obtain ⟨m, rfl⟩ := Nat.exists_eq_add_of_le' enough
    exact readsSegment_name _ (isName_of_isNameWord name)
  | keyword known =>
    simp [Phrase.rank] at enough
    obtain ⟨m, rfl⟩ := Nat.exists_eq_add_of_le' enough
    exact readsSegment_keyword _ known
  | @generic w turbofish trailing args name _ ordered ended ih =>
    simp [Phrase.rank] at enough
    obtain ⟨m, rfl⟩ : ∃ m, n = m + 1 := Nat.exists_eq_add_of_le' (by omega)
    refine readsSegment_generic _ (isName_of_isNameWord name) (fun a member => ?_) ordered ended
    have part := sizes_le_of_mem_joined ',' (List.mem_map_of_mem (f := Prod.snd) member) trailing
    exact ih a member (by simp [Phrase.rank]; omega)
  | literal => exact fun ts spells rest => readsConst_literal spells rest
  | negative number valid => exact fun ts spells rest => readsConst_negative number valid spells rest
  | truth known => exact fun ts spells rest => readsConst_truth known spells rest
  | lifetimeArg => exact readsArg_lifetime _ _
  | typeArg _ ih => exact readsArg_type _ (ih enough)
  | constArg _ ih => exact readsArg_const _ (ih (Nat.le_of_add_right_le enough))
  | typeBinding name type ihName ih =>
    simp [Phrase.rank] at enough
    obtain ⟨m, rfl⟩ : ∃ m, n = m + 1 := Nat.exists_eq_add_of_le' (by omega)
    refine readsArg_binding _ rfl (ihName (by simp [Phrase.rank]; omega)) name.not_call
      name.key_single fun ts spells rest ends => ?_
    obtain ⟨next, read⟩ :=
      ih (n := m + 1) (by simp [Phrase.rank]; omega) ts spells rest (ends.stops true)
    exact type.hasText ▸ .type next read
  | constBinding name value ihName ih =>
    simp [Phrase.rank] at enough
    obtain ⟨m, rfl⟩ : ∃ m, n = m + 1 := Nat.exists_eq_add_of_le' (by omega)
    refine readsArg_binding _ rfl (ihName (by simp [Phrase.rank]; omega)) name.not_call
      name.key_single fun ts spells rest _ => ?_
    have const := ih (n := m + 1) (by simp [Phrase.rank]; omega) ts spells rest
    exact value.hasText ▸ .literal const.literal const.read
  | @constraint s ps first more name here each apart ihName ih ihMore =>
    simp [Phrase.rank] at enough
    obtain ⟨m, rfl⟩ : ∃ m, n = m + 1 := Nat.exists_eq_add_of_le' (by omega)
    have part {b : Bool × List Piece} (member : b ∈ first :: more) :=
      sizes_le_of_mem_joined '+' (List.mem_map_of_mem (f := Prod.snd) member) false
    rw [List.map_cons] at part
    refine readsArg_constraint _ rfl (ihName (by simp [Phrase.rank]; omega)) name.not_call
      name.key_single (List.forall_mem_cons.mpr ⟨ih ?_, fun b member => ihMore b member ?_⟩)
      here.startsType apart
    · have start := part List.mem_cons_self
      simp [Phrase.rank]
      omega
    · have later := part (List.mem_cons_of_mem _ member)
      simp [Phrase.rank]
      omega
  | @path rooted first more _ _ ih ihMore =>
    simp [Phrase.rank] at enough
    refine readsPath_segments _ rooted (ih (by simp [Phrase.rank]; omega)) fun s member => ?_
    have part := sizes_le_of_mem_behindEach .colons (List.mem_map_of_mem (f := Prod.snd) member)
    exact ihMore s member (by simp [Phrase.rank]; omega)
  | plain _ ih => exact readsTrait_plain _ (ih enough)
  | @call p ps w trailing inputs result path last each ended returns ih ihInputs ihResult =>
    simp [Phrase.rank] at enough
    refine readsTrait_call _ (ih (by simp [Phrase.rank]; omega)) last (fun t member => ?_)
      (fun t member => (each t member).hasText) ended (fun t member => ?_)
      fun t member => (returns t member).hasText
    · have part := sizes_le_of_mem_joined ',' (List.mem_map_of_mem (f := Prod.snd) member)
        trailing
      exact ihInputs t member (by simp [Phrase.rank]; omega)
    · obtain rfl : result = some t := member
      simp [arrowed] at enough
      exact ihResult t rfl (by simp [Phrase.rank]; omega)
  | lifetimeBound => exact readsBound_lifetime _ _
  | traitBound bound trait ih =>
    simp [Phrase.rank] at enough
    obtain ⟨m, rfl⟩ : ∃ m, n = m + 1 := Nat.exists_eq_add_of_le' (by omega)
    exact ReadsTrait.bound _ (ih (by simp [Phrase.rank]; omega)) trait.hasText.1 bound rfl
  | maybeBound trait ih =>
    simp [Phrase.rank] at enough
    exact ReadsTrait.maybeBound _ (ih (by simp [Phrase.rank]; omega)) trait.hasText.1
  | input type ih => exact ReadsType.input _ (ih enough) type.hasText
  | namedInput name type apart ih =>
    simp [Phrase.rank] at enough
    exact ReadsType.namedInput _ (ih (by simp [Phrase.rank]; omega)) type.hasText
      (name.imp_left isName_of_isNameWord) (startsPlain_of_startsType type.startsType) apart
  | @named sum p ps path ih =>
    obtain ⟨m, rfl⟩ : ∃ m, n = m + 1 := Nat.exists_eq_add_of_le' (Nat.le_of_add_left_le enough)
    refine readsType_succ (.named path) fun ts rest spells stops => ?_
    obtain ⟨ahead, read⟩ := ih (Nat.le_of_add_le_add_right enough) ts spells rest stops.weaken
    exact type_path _ read ahead stops.endsPath
  | @sum p ps more path each several ih ihMore =>
    simp [Phrase.rank] at enough
    obtain ⟨m, rfl⟩ : ∃ m, n = m + 1 := Nat.exists_eq_add_of_le' (by omega)
    refine readsType_succ (.sum path each several) fun ts rest spells stops => ?_
    refine type_sum _ (ih (by simp [Phrase.rank]; omega)) (@Everyday.named true p ps path).hasText
      (fun b member => ihMore b member ?_) several spells stops
    have part := sizes_le_of_mem_behindEach (.mark '+') (List.mem_map_of_mem (f := Prod.snd) member)
    simp at part
    simp [Phrase.rank]
    omega
  | unit =>
    obtain ⟨m, rfl⟩ : ∃ m, n = m + 1 := Nat.exists_eq_add_of_le' (Nat.le_of_add_left_le enough)
    exact readsType_succ .unit fun ts rest spells _ => type_unit _ spells
  | paren type ih =>
    simp [Phrase.rank] at enough
    obtain ⟨m, rfl⟩ : ∃ m, n = m + 1 := Nat.exists_eq_add_of_le' (by omega)
    refine readsType_succ (.paren type) fun ts rest spells stops => ?_
    exact type_parenthesized _ (ih (by simp [Phrase.rank]; omega)) spells stops
  | @tuple sum trailing first more here each ended ih ihMore =>
    simp [Phrase.rank] at enough
    obtain ⟨m, rfl⟩ : ∃ m, n = m + 1 := Nat.exists_eq_add_of_le' (by omega)
    refine readsType_succ (.tuple here each ended) fun ts rest spells stops => ?_
    have part {t : HostType × List Piece} (member : t ∈ first :: more) :=
      sizes_le_of_mem_joined ',' (List.mem_map_of_mem (f := Prod.snd) member) trailing
    rw [List.map_cons] at part
    refine type_tuple _ (ih ?_) (fun t member => ihMore t member ?_) ended spells stops
    · have start := part List.mem_cons_self
      simp [Phrase.rank]
      omega
    · have later := part (List.mem_cons_of_mem _ member)
      simp [Phrase.rank]
      omega
  | @reference sum mutable life t ps valid target ih =>
    simp [Phrase.rank] at enough
    obtain ⟨m, rfl⟩ : ∃ m, n = m + 1 := Nat.exists_eq_add_of_le' (by omega)
    refine readsType_succ (.reference valid target) fun ts rest spells stops => ?_
    exact type_reference _ (ih (by simp [Phrase.rank]; omega)) target.hasText spells stops
  | pointer known target ih =>
    simp [Phrase.rank] at enough
    obtain ⟨m, rfl⟩ : ∃ m, n = m + 1 := Nat.exists_eq_add_of_le' (by omega)
    refine readsType_succ (.pointer known target) fun ts rest spells stops => ?_
    exact type_pointer _ known (ih (by simp [Phrase.rank]; omega)) target.hasText spells stops
  | slice elem ih =>
    simp [Phrase.rank] at enough
    obtain ⟨m, rfl⟩ : ∃ m, n = m + 1 := Nat.exists_eq_add_of_le' (by omega)
    refine readsType_succ (.slice elem) fun ts rest spells _ => ?_
    exact type_slice _ (ih (by simp [Phrase.rank]; omega)) elem.hasText spells
  | @array sum l t ps length elem ih =>
    simp [Phrase.rank] at enough
    obtain ⟨m, rfl⟩ : ∃ m, n = m + 4 := Nat.exists_eq_add_of_le' (by omega)
    refine readsType_succ (.array length elem) fun ts rest spells _ => ?_
    exact type_array _ (ih (by simp [Phrase.rank]; omega)) elem.hasText (expr_length length m) spells
  | never =>
    obtain ⟨m, rfl⟩ : ∃ m, n = m + 1 := Nat.exists_eq_add_of_le' (Nat.le_of_add_left_le enough)
    exact readsType_succ .never fun ts rest spells _ => type_never _ spells
  | infer =>
    obtain ⟨m, rfl⟩ : ∃ m, n = m + 1 := Nat.exists_eq_add_of_le' (Nat.le_of_add_left_le enough)
    exact readsType_succ .infer fun ts rest spells _ => type_infer _ spells
  | @function sum guarded trailing binder convention inputs result bound named each ended returns ih
      ihResult =>
    simp [Phrase.rank, functionPieces] at enough
    obtain ⟨m, rfl⟩ : ∃ m, n = m + 1 := Nat.exists_eq_add_of_le' (by omega)
    refine readsType_succ (.function bound named each ended returns) fun ts rest spells stops => ?_
    refine type_function _ bound (fun ps member => ih ps member ?_) ended
      (fun t member => ihResult t member ?_) (fun t member => (returns t member).hasText) spells stops
    · have part := sizes_le_of_mem_joined ',' member trailing
      simp [Phrase.rank]
      omega
    · obtain rfl : result = some t := member
      simp [arrowed] at enough
      simp [Phrase.rank]
      omega
  | @object sum kind first more known here each single trait ih ihMore =>
    simp [Phrase.rank] at enough
    obtain ⟨m, rfl⟩ : ∃ m, n = m + 1 := Nat.exists_eq_add_of_le' (by omega)
    refine readsType_succ (.object known here each single trait) fun ts rest spells stops => ?_
    refine type_object _ known (ih (by simp [Phrase.rank]; omega))
      (fun b member => ihMore b member ?_) single trait spells stops
    have part := sizes_le_of_mem_behindEach (.mark '+') (List.mem_map_of_mem (f := Prod.snd) member)
    simp at part
    simp [Phrase.rank]
    omega
  | @qualified sum t ps through first more this as here each ih ihThrough ihFirst ihMore =>
    have segments : (TypeReader.Path.mk true (first.1 :: more.map Prod.fst)).text = textOf _ :=
      (Everyday.path here each).hasText.1
    simp [Phrase.rank] at enough
    obtain ⟨m, rfl⟩ : ∃ m, n = m + 1 := Nat.exists_eq_add_of_le' (by omega)
    refine readsType_succ (.qualified this as here each) fun ts rest spells stops => ?_
    refine type_qualified _ (ih (by simp [Phrase.rank]; omega)) this.hasText
      (fun p member => ihThrough p member ?_) (fun p member => (as p member).hasText.1)
      (ihFirst (by simp [Phrase.rank]; omega)) (fun s member => ihMore s member ?_) segments spells
      stops
    · obtain rfl : through = some p := member
      simp [throughPieces] at enough
      simp [Phrase.rank]
      omega
    · have part := sizes_le_of_mem_behindEach .colons (List.mem_map_of_mem (f := Prod.snd) member)
      simp [Phrase.rank]
      omega

theorem parse?_of_laid {t : HostType} {ps : List Piece} (everyday : Everyday (.type true t) ps)
    {source : String} (laid : Laid ps source.toList) : HostType.parse? source = some t := by
  obtain ⟨ts, spells, trees⟩ := trees?_of_laid laid
  have enough : 2 * sizes ps + 1 ≤ 16 * (source.length + 2) := by
    have size := laid.sizes_le
    rw [String.length_toList] at size
    omega
  have reads : ReadsType (readersFor source) true (t, ps) := everyday.reads enough
  obtain ⟨-, read⟩ := reads ts spells [] .done
  rw [List.append_nil] at read
  rw [HostType.parse?, Reader.parse?, trees]
  simp only [Option.bind_eq_bind, Option.bind_some, StateT.run, read]

end Pegsmith.Source

namespace Pegsmith.HostType

open Source

/-- The text of an everyday type is read as that type again. -/
theorem parse_printed {source : String} {t : HostType} {ps : List Piece}
    (everyday : Everyday (.type true t) ps) (laid : Laid ps source.toList) :
    parse? source = some t ∧ parse? t.text = some t :=
  ⟨parse?_of_laid everyday laid,
    parse?_of_laid everyday (laid_text everyday.lexical everyday.hasText)⟩

theorem parse_printed_map :
    let t := path "" "Map" (.angle false [.type (.other "& 'a str"), .type (.other "[u8 ; 4]")] false)
    parse? "Map<&'a  str,[u8;4]>" = some t ∧ parse? t.text = some t := by
  have words : isNameWord "Map" ∧ isNameWord "str" ∧ isNameWord "u8" := by decide +kernel
  obtain ⟨map, strWord, byteWord⟩ := words
  have life : isWord "a" := by decide +kernel
  have four : isLiteral .integer "4" := by decide +kernel
  have str : Everyday (.type false (.path "" "str" .none)) [.word "str"] := .single (.name strWord)
  have byte : Everyday (.type true (.path "" "u8" .none)) [.word "u8"] := .single (.name byteWord)
  have first := Everyday.typeArg (@Everyday.reference true false (some "a") _ _ (by simpa using life) str)
  have second := Everyday.typeArg (@Everyday.array true (.literal .integer "4") _ _ four byte)
  have firstText : textOf (.mark '&' :: (lifetimePieces (some "a") ++ (wordIf false "mut" ++
      [.word "str"]))) = "& 'a str" := by
    decide +kernel
  have secondText : textOf [.group .bracket ([.word "u8"] ++
      [.mark ';', .leaf (.literal .integer "4")])] = "[u8 ; 4]" := by
    decide +kernel
  rw [firstText] at first
  rw [secondText] at second
  have everyday := @Everyday.single true _ _ (@Everyday.generic "Map" false false [(_, _), (_, _)]
    map (by simpa using ⟨first, second⟩) (by simp [TypeArg.isLifetime]) fun _ => rfl)
  have chars : "Map<&'a  str,[u8;4]>".toList = "Map".toList ++ '<' :: '&' ::
      ((Leaf.lifetime "a").text.toList ++ ' ' :: ' ' :: ("str".toList ++ ',' :: '[' ::
        ("u8".toList ++ ';' :: ("4".toList ++ []) ++ ']' :: ['>']))) := by
    decide +kernel
  refine parse_printed everyday ?_
  rw [chars]
  have apart {c : Char} (known : c ∈ wordEnds) (cs : List Char) : Apart (c :: cs) := by
    simpa [Apart] using known
  exact .leaf (isWord_of_isNameWord map) (apart (by decide) _) <| .mark (by decide) <|
    .mark (by decide) <| .leaf life (apart (by decide) _) <| .blank (by decide) <| .blank (by decide) <|
    .leaf (isWord_of_isNameWord strWord) (apart (by decide) _) <| .mark (by decide) <|
    .group (by decide) (.leaf (isWord_of_isNameWord byteWord) (apart (by decide) _) <|
      .mark (by decide) <| .leaf four (by simp [Apart]) .nil) <| .mark (by decide) .nil

/-- A comma within a literal gets a blank, and a root behind a single colon joins it. -/
theorem printing_spoils :
    ((parse? "Sep<','>").map fun t => (t.text, parse? t.text)) = some ("Sep<', '>", none) ∧
      ((parse? "fn(x: ::A)").map fun t => (t.text, parse? t.text)) =
        some ("fn (x :::A)", none) := by
  decide +kernel

end Pegsmith.HostType
