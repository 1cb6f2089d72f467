import Mathlib
import Pegsmith.Proofs.Source.Layout
import Pegsmith.Source.TypeReader

set_option autoImplicit false

namespace Pegsmith.Source

/-- What pieces stand for. A type is a sum if its bounds are joined by `+`. -/
inductive Phrase where
  | type (sum : Bool) (t : HostType)
  | const (text : String)
  | arg (a : TypeArg)
  | segment (s : String × TypeArgs)
  | path (p : TypeReader.Path)
  | trait (p : TypeReader.Path)
  | bound (trait : Bool)
  | input

def Piece.word (w : String) : Piece :=
  .leaf (.word w)

def Piece.colons : Piece :=
  .pair ':' ':'

def joined (sep : Char) : List (List Piece) → Bool → List Piece
  | [], _ => []
  | ps :: pss, trailing =>
      ps ++ if pss.isEmpty && !trailing then [] else .mark sep :: joined sep pss trailing

def behindEach (lead : Piece) (pss : List (List Piece)) : List Piece :=
  pss.flatMap (lead :: ·)

def wordIf (present : Bool) (w : String) : List Piece :=
  if present then [.word w] else []

def pieceIf (present : Bool) (p : Piece) : List Piece :=
  if present then [p] else []

def lifetimePieces : Option String → List Piece
  | none => []
  | some name => [.leaf (.lifetime name)]

def arrowed : Option (HostType × List Piece) → List Piece
  | none => []
  | some result => .pair '-' '>' :: result.2

def throughPieces : Option (TypeReader.Path × List Piece) → List Piece
  | none => []
  | some p => .word "as" :: p.2

structure Binder where
  names : List String
  trailing : Bool

def Binder.IsValid (b : Binder) : Prop :=
  (∀ name ∈ b.names, isWord name) ∧ (b.names = [] → b.trailing = false)

def binderPieces : Option Binder → List Piece
  | none => []
  | some b =>
      .word "for" :: .mark '<' ::
        (joined ',' (b.names.map fun name => [.leaf (.lifetime name)]) b.trailing ++ [.mark '>'])

def conventionPieces : Option (Option String) → List Piece
  | none => []
  | some none => [.word "extern"]
  | some (some text) => [.word "extern", .leaf (.literal .text text)]

def functionPieces (binder : Option Binder) (guarded : Bool) (convention : Option (Option String))
    (inputs : List (List Piece)) (trailing : Bool) (result : Option (HostType × List Piece)) :
    List Piece :=
  binderPieces binder ++ (wordIf guarded "unsafe" ++ (conventionPieces convention ++
    .word "fn" :: .group .paren (joined ',' inputs trailing) :: arrowed result))

def isNameWord (w : String) : Bool :=
  isWord w && isName w

def Leaf.isLength : Leaf → Bool
  | .word w => isNameWord w
  | .lifetime _ => false
  | .literal kind text => isLiteral kind text

inductive Everyday : Phrase → List Piece → Prop where
  | name {w : String} (name : isNameWord w) : Everyday (.segment (w, .none)) [.word w]
  | keyword {w : String} (known : w ∈ ["super", "self", "Self", "crate"]) :
      Everyday (.segment (w, .none)) [.word w]
  | generic {w : String} {turbofish trailing : Bool} {args : List (TypeArg × List Piece)}
      (name : isNameWord w) (each : ∀ a ∈ args, Everyday (.arg a.1) a.2)
      (ordered : (args.map Prod.fst).Pairwise fun a b => b.isLifetime → a.isLifetime)
      (ended : args = [] → trailing = false) :
      Everyday (.segment (w, .angle turbofish (args.map Prod.fst) trailing))
        (.word w :: (pieceIf turbofish .colons ++
          .mark '<' :: (joined ',' (args.map Prod.snd) trailing ++ [.mark '>'])))
  | literal {kind : LiteralKind} {text : String} (valid : isLiteral kind text) :
      Everyday (.const text) [.leaf (.literal kind text)]
  | negative {kind : LiteralKind} {text : String} (number : kind ∈ [.integer, .float])
      (valid : isLiteral kind text) :
      Everyday (.const (textOf [.mark '-', .leaf (.literal kind text)]))
        [.mark '-', .leaf (.literal kind text)]
  | truth {w : String} (known : w ∈ ["true", "false"]) : Everyday (.const w) [.word w]
  | lifetimeArg {name : String} (valid : isWord name) :
      Everyday (.arg (.lifetime name)) [.leaf (.lifetime name)]
  | typeArg {t : HostType} {ps : List Piece} (type : Everyday (.type true t) ps) :
      Everyday (.arg (.type t)) ps
  | constArg {text : String} {ps : List Piece} (value : Everyday (.const text) ps) :
      Everyday (.arg (.other text)) ps
  | typeBinding {s : String × TypeArgs} {t : HostType} {ps qs : List Piece}
      (name : Everyday (.segment s) ps) (value : Everyday (.type true t) qs) :
      Everyday (.arg (.other (textOf (ps ++ .mark '=' :: qs)))) (ps ++ .mark '=' :: qs)
  | constBinding {s : String × TypeArgs} {text : String} {ps qs : List Piece}
      (name : Everyday (.segment s) ps) (value : Everyday (.const text) qs) :
      Everyday (.arg (.other (textOf (ps ++ .mark '=' :: qs)))) (ps ++ .mark '=' :: qs)
  | constraint {s : String × TypeArgs} {ps : List Piece} {first : Bool × List Piece}
      {more : List (Bool × List Piece)} (name : Everyday (.segment s) ps)
      (here : Everyday (.bound first.1) first.2) (each : ∀ b ∈ more, Everyday (.bound b.1) b.2)
      (apart : first.2.head? ≠ some .colons) :
      Everyday
        (.arg (.other (textOf (ps ++ .mark ':' ::
          joined '+' ((first :: more).map Prod.snd) false))))
        (ps ++ .mark ':' :: joined '+' ((first :: more).map Prod.snd) false)
  | path {rooted : Bool} {first : (String × TypeArgs) × List Piece}
      {more : List ((String × TypeArgs) × List Piece)} (here : Everyday (.segment first.1) first.2)
      (each : ∀ s ∈ more, Everyday (.segment s.1) s.2) :
      Everyday (.path ⟨rooted, first.1 :: more.map Prod.fst⟩)
        (pieceIf rooted .colons ++ first.2 ++ behindEach .colons (more.map Prod.snd))
  | plain {p : TypeReader.Path} {ps : List Piece} (path : Everyday (.path p) ps) :
      Everyday (.trait p) ps
  | call {p : TypeReader.Path} {ps : List Piece} {w : String} {trailing : Bool}
      {inputs : List (HostType × List Piece)} {result : Option (HostType × List Piece)}
      (path : Everyday (.path p) ps) (last : p.segments.getLast? = some (w, .none))
      (each : ∀ t ∈ inputs, Everyday (.type true t.1) t.2) (ended : inputs = [] → trailing = false)
      (returns : ∀ t ∈ result, Everyday (.type false t.1) t.2) :
      Everyday
        (.trait ⟨p.rooted, p.segments.dropLast ++
          [(w, .call (textOf (.group .paren (joined ',' (inputs.map Prod.snd) trailing) ::
            arrowed result)))]⟩)
        (ps ++ .group .paren (joined ',' (inputs.map Prod.snd) trailing) :: arrowed result)
  | named {sum : Bool} {p : TypeReader.Path} {ps : List Piece} (path : Everyday (.trait p) ps) :
      Everyday (.type sum p.toType) ps
  | sum {p : TypeReader.Path} {ps : List Piece} {more : List (Bool × List Piece)}
      (path : Everyday (.trait p) ps) (each : ∀ b ∈ more, Everyday (.bound b.1) b.2)
      (several : more ≠ []) :
      Everyday (.type true (.other (textOf (ps ++ behindEach (.mark '+') (more.map Prod.snd)))))
        (ps ++ behindEach (.mark '+') (more.map Prod.snd))
  | unit {sum : Bool} : Everyday (.type sum .unit) [.group .paren []]
  | paren {sum : Bool} {t : HostType} {ps : List Piece} (inner : Everyday (.type true t) ps) :
      Everyday (.type sum (.paren t)) [.group .paren ps]
  | tuple {sum trailing : Bool} {first : HostType × List Piece}
      {more : List (HostType × List Piece)} (here : Everyday (.type true first.1) first.2)
      (each : ∀ t ∈ more, Everyday (.type true t.1) t.2) (ended : more = [] → trailing = true) :
      Everyday (.type sum (.tuple (first.1 :: more.map Prod.fst) trailing))
        [.group .paren (joined ',' (first.2 :: more.map Prod.snd) trailing)]
  | reference {sum mutable : Bool} {life : Option String} {t : HostType} {ps : List Piece}
      (valid : ∀ name ∈ life, isWord name) (target : Everyday (.type false t) ps) :
      Everyday (.type sum (.other (textOf (.mark '&' :: (lifetimePieces life ++
          (wordIf mutable "mut" ++ ps))))))
        (.mark '&' :: (lifetimePieces life ++ (wordIf mutable "mut" ++ ps)))
  | pointer {sum : Bool} {kind : String} {t : HostType} {ps : List Piece}
      (known : kind ∈ ["const", "mut"]) (target : Everyday (.type false t) ps) :
      Everyday (.type sum (.other (textOf (.mark '*' :: .word kind :: ps))))
        (.mark '*' :: .word kind :: ps)
  | slice {sum : Bool} {t : HostType} {ps : List Piece} (elem : Everyday (.type true t) ps) :
      Everyday (.type sum (.other (textOf [.group .bracket ps]))) [.group .bracket ps]
  | array {sum : Bool} {l : Leaf} {t : HostType} {ps : List Piece} (length : l.isLength)
      (elem : Everyday (.type true t) ps) :
      Everyday (.type sum (.other (textOf [.group .bracket (ps ++ [.mark ';', .leaf l])])))
        [.group .bracket (ps ++ [.mark ';', .leaf l])]
  | never {sum : Bool} : Everyday (.type sum (.other "!")) [.mark '!']
  | infer {sum : Bool} : Everyday (.type sum (.other "_")) [.word "_"]
  | function {sum guarded trailing : Bool} {binder : Option Binder}
      {convention : Option (Option String)} {inputs : List (List Piece)}
      {result : Option (HostType × List Piece)} (bound : ∀ b ∈ binder, b.IsValid)
      (named : ∀ text ∈ convention.join, isLiteral .text text)
      (each : ∀ ps ∈ inputs, Everyday .input ps) (ended : inputs = [] → trailing = false)
      (returns : ∀ t ∈ result, Everyday (.type false t.1) t.2) :
      Everyday
        (.type sum (.other (textOf (functionPieces binder guarded convention inputs trailing result))))
        (functionPieces binder guarded convention inputs trailing result)
  | object {sum : Bool} {kind : String} {first : Bool × List Piece}
      {more : List (Bool × List Piece)} (known : kind ∈ ["dyn", "impl"])
      (here : Everyday (.bound first.1) first.2) (each : ∀ b ∈ more, Everyday (.bound b.1) b.2)
      (single : sum = false → more = []) (trait : (first :: more).any Prod.fst) :
      Everyday
        (.type sum (.other (textOf (.word kind :: (first.2 ++
          behindEach (.mark '+') (more.map Prod.snd))))))
        (.word kind :: (first.2 ++ behindEach (.mark '+') (more.map Prod.snd)))
  | qualified {sum : Bool} {t : HostType} {ps : List Piece}
      {through : Option (TypeReader.Path × List Piece)} {first : (String × TypeArgs) × List Piece}
      {more : List ((String × TypeArgs) × List Piece)} (this : Everyday (.type true t) ps)
      (as : ∀ p ∈ through, Everyday (.path p.1) p.2) (here : Everyday (.segment first.1) first.2)
      (each : ∀ s ∈ more, Everyday (.segment s.1) s.2) :
      Everyday
        (.type sum (.other (textOf (.mark '<' :: (ps ++ (throughPieces through ++ .mark '>' ::
          .colons :: (first.2 ++ behindEach .colons (more.map Prod.snd))))))))
        (.mark '<' :: (ps ++ (throughPieces through ++ .mark '>' :: .colons ::
          (first.2 ++ behindEach .colons (more.map Prod.snd)))))
  | lifetimeBound {name : String} (valid : isWord name) :
      Everyday (.bound false) [.leaf (.lifetime name)]
  | traitBound {binder : Option Binder} {p : TypeReader.Path} {ps : List Piece}
      (bound : ∀ b ∈ binder, b.IsValid) (trait : Everyday (.trait p) ps) :
      Everyday (.bound true) (binderPieces binder ++ ps)
  | maybeBound {p : TypeReader.Path} {ps : List Piece} (trait : Everyday (.trait p) ps) :
      Everyday (.bound true) (.mark '?' :: ps)
  | input {t : HostType} {ps : List Piece} (type : Everyday (.type true t) ps) : Everyday .input ps
  | namedInput {w : String} {t : HostType} {ps : List Piece} (name : isNameWord w ∨ w = "_")
      (type : Everyday (.type true t) ps) (apart : ps.head? ≠ some .colons) :
      Everyday .input (.word w :: .mark ':' :: ps)

theorem Lexical.joined {sep : Char} {pss : List (List Piece)} (known : sep ∈ typeMarks)
    (each : ∀ ps ∈ pss, Lexical ps) (trailing : Bool) : Lexical (joined sep pss trailing) := by
  induction pss with
  | nil => exact .nil
  | cons ps pss ih =>
    have later := ih fun qs member => each qs (List.mem_cons_of_mem _ member)
    refine (each ps List.mem_cons_self).append ?_
    split
    · exact .nil
    · exact .mark known later

theorem Lexical.behindEach {lead : Piece} {pss : List (List Piece)}
    (known : ∀ ps, Lexical ps → Lexical (lead :: ps)) (each : ∀ ps ∈ pss, Lexical ps) :
    Lexical (behindEach lead pss) := by
  induction pss with
  | nil => exact .nil
  | cons ps pss ih =>
    exact (known ps (each ps List.mem_cons_self)).append
      (ih fun qs member => each qs (List.mem_cons_of_mem _ member))

theorem Lexical.colons {ps : List Piece} (rest : Lexical ps) : Lexical (.colons :: ps) :=
  .pair (by decide) rest

theorem Lexical.word {w : String} {ps : List Piece} (valid : isWord w) (rest : Lexical ps) :
    Lexical (.word w :: ps) :=
  .leaf valid rest

theorem Lexical.wordIf {present : Bool} {w : String} {ps : List Piece} (valid : isWord w)
    (rest : Lexical ps) : Lexical (wordIf present w ++ ps) := by
  cases present with
  | false => exact rest
  | true => exact .word valid rest

theorem Lexical.arrowed {result : Option (HostType × List Piece)}
    (returns : ∀ t ∈ result, Lexical t.2) : Lexical (arrowed result) := by
  cases result with
  | none => exact .nil
  | some t => exact .pair (by decide) (returns t rfl)

theorem forall_mem_map_snd {α : Type} {xs : List (α × List Piece)}
    (each : ∀ x ∈ xs, Lexical x.2) : ∀ ps ∈ xs.map Prod.snd, Lexical ps := by
  simpa [or_imp, forall_and] using fun ps a member => each (a, ps) member

theorem isWord_of_isNameWord {w : String} (name : isNameWord w) : isWord w :=
  (Bool.and_eq_true_iff.mp name).1

theorem isWord_of_mem {words : List String} (all : words.all isWord) {w : String}
    (member : w ∈ words) : isWord w :=
  List.all_eq_true.mp all w member

theorem Lexical.binderPieces {binder : Option Binder} (bound : ∀ b ∈ binder, b.IsValid) :
    Lexical (binderPieces binder) := by
  cases binder with
  | none => exact .nil
  | some b =>
    have names : ∀ ps ∈ b.names.map fun name => [Piece.leaf (.lifetime name)], Lexical ps := by
      simpa using fun name member =>
        Lexical.leaf (l := .lifetime name) ((bound b rfl).1 name member) .nil
    exact .word (by decide +kernel) (.mark (by decide)
      ((Lexical.joined (by decide) names b.trailing).append (.mark (by decide) .nil)))

theorem Lexical.conventionPieces {convention : Option (Option String)}
    (named : ∀ text ∈ convention.join, isLiteral .text text) :
    Lexical (conventionPieces convention) := by
  match convention with
  | none => exact .nil
  | some none => exact .word (by decide +kernel) .nil
  | some (some text) => exact .word (by decide +kernel) (.leaf (named text rfl) .nil)

theorem Leaf.isValid_of_isLength {l : Leaf} (length : l.isLength) : l.isValid := by
  cases l with
  | word w => exact isWord_of_isNameWord length
  | lifetime name => cases length
  | literal kind text => exact length

theorem Everyday.lexical {ph : Phrase} {ps : List Piece} (everyday : Everyday ph ps) :
    Lexical ps := by
  induction everyday with
  | name name => exact .word (isWord_of_isNameWord name) .nil
  | keyword known => exact .word (isWord_of_mem (by decide +kernel) known) .nil
  | @generic w turbofish trailing args name _ _ _ ih =>
    have comma : ',' ∈ typeMarks := by decide
    have angle := Lexical.mark (c := '<') (by decide)
      ((Lexical.joined comma (forall_mem_map_snd ih) trailing).append (.mark (c := '>') (by decide) .nil))
    refine .word (isWord_of_isNameWord name) ?_
    cases turbofish with
    | false => exact angle
    | true => exact .colons angle
  | literal valid => exact .leaf valid .nil
  | negative _ valid => exact .mark (by decide) (.leaf valid .nil)
  | truth known => exact .word (isWord_of_mem (by decide +kernel) known) .nil
  | lifetimeArg valid => exact .leaf valid .nil
  | typeArg _ ih | constArg _ ih => exact ih
  | typeBinding _ _ ihName ih | constBinding _ _ ihName ih =>
    exact ihName.append (.mark (by decide) ih)
  | @constraint _ _ first more _ _ _ _ ihName ih ihMore =>
    have each : ∀ b ∈ first :: more, Lexical b.2 := List.forall_mem_cons.mpr ⟨ih, ihMore⟩
    exact ihName.append (.mark (by decide) (.joined (by decide) (forall_mem_map_snd each) false))
  | @path rooted first more _ _ ih ihMore =>
    have segments := ih.append (Lexical.behindEach (fun _ => .colons) (forall_mem_map_snd ihMore))
    rw [List.append_assoc]
    cases rooted with
    | false => exact segments
    | true => exact .colons segments
  | plain _ ih => exact ih
  | call _ _ _ _ _ ih ihInputs ihResult =>
    exact ih.append (.group nofun (.joined (by decide) (forall_mem_map_snd ihInputs) _) (.arrowed ihResult))
  | named _ ih => exact ih
  | sum _ _ _ ih ihMore =>
    exact ih.append (.behindEach (fun _ => .mark (by decide)) (forall_mem_map_snd ihMore))
  | unit => exact .group nofun .nil .nil
  | paren _ ih => exact .group nofun ih .nil
  | @tuple _ trailing first more _ _ _ ih ihMore =>
    have each : ∀ t ∈ first :: more, Lexical t.2 := List.forall_mem_cons.mpr ⟨ih, ihMore⟩
    exact .group nofun (.joined (by decide) (forall_mem_map_snd each) trailing) .nil
  | @reference _ mutable life _ ps valid _ ih =>
    have target : Lexical (Source.wordIf mutable "mut" ++ ps) := .wordIf (by decide +kernel) ih
    refine .mark (by decide) ?_
    cases life with
    | none => exact target
    | some name => exact .leaf (valid name rfl) target
  | pointer known _ ih =>
    exact .mark (by decide) (.word (isWord_of_mem (by decide +kernel) known) ih)
  | slice _ ih => exact .group nofun ih .nil
  | array length _ ih =>
    exact .group nofun (ih.append (.mark (by decide) (.leaf (Leaf.isValid_of_isLength length) .nil))) .nil
  | never => exact .mark (by decide) .nil
  | infer => exact .word (by decide +kernel) .nil
  | function bound named _ _ _ ih ihResult =>
    exact (Lexical.binderPieces bound).append (.wordIf (by decide +kernel)
      ((Lexical.conventionPieces named).append (.word (by decide +kernel)
        (.group nofun (.joined (by decide) ih _) (.arrowed ihResult)))))
  | object known _ _ _ _ ih ihMore =>
    exact .word (isWord_of_mem (by decide +kernel) known)
      (ih.append (.behindEach (fun _ => .mark (by decide)) (forall_mem_map_snd ihMore)))
  | @qualified _ _ _ through _ _ _ _ _ _ ih ihThrough ihFirst ihMore =>
    have segments := ihFirst.append (Lexical.behindEach (fun _ => .colons) (forall_mem_map_snd ihMore))
    have closed := Lexical.mark (c := '>') (by decide) segments.colons
    refine .mark (by decide) (ih.append ?_)
    cases through with
    | none => exact closed
    | some p => exact .word (by decide +kernel) ((ihThrough p rfl).append closed)
  | lifetimeBound valid => exact .leaf valid .nil
  | traitBound bound _ ih => exact (Lexical.binderPieces bound).append ih
  | maybeBound _ ih => exact .mark (by decide) ih
  | input _ ih => exact ih
  | namedInput name _ _ ih =>
    have valid : isWord _ := name.elim isWord_of_isNameWord (by rintro rfl; decide +kernel)
    exact .word valid (.mark (by decide) ih)

theorem spaced_singleton (text : String) : spaced [text] = text :=
  led_injective (by rw [led_spaced, List.flatMap_singleton])

theorem textOf_nil : textOf [] = "" := by
  rfl

theorem textOf_singleton (p : Piece) : textOf [p] = p.text := by
  rw [textOf, texts, texts, spaced_singleton]

theorem textOf_leaf (l : Leaf) : textOf [.leaf l] = l.text := by
  rw [textOf_singleton, Piece.text]

theorem textOf_word (w : String) : textOf [.word w] = w :=
  textOf_leaf (.word w)

theorem flatMap_led_intersperse (sep text : String) (texts : List String) :
    ((text :: texts).intersperse sep).flatMap led =
      led text ++ texts.flatMap fun text => led sep ++ led text := by
  induction texts generalizing text with
  | nil => simp
  | cons next texts ih => simp [List.intersperse_cons_cons, ih next]

theorem flatMap_led_intersperse_append (sep text : String) (texts : List String) :
    ((texts ++ [text]).intersperse sep).flatMap led =
      (texts.flatMap fun text => led text ++ led sep) ++ led text := by
  induction texts with
  | nil => simp
  | cons first texts ih =>
    cases texts with
    | nil => simp
    | cons next texts =>
      rw [List.cons_append, List.cons_append, List.intersperse_cons_cons, List.flatMap_cons,
        List.flatMap_cons, ← List.cons_append, ih]
      simp

theorem led_joined (sep : Char) (pss : List (List Piece)) (trailing : Bool)
    (ended : pss = [] → trailing = false) :
    led (spaced ((pss.map textOf).intersperse (String.ofList [sep]) ++
      if trailing then [String.ofList [sep]] else [])) = led (textOf (joined sep pss trailing)) := by
  induction pss with
  | nil =>
    rw [ended rfl]
    rfl
  | cons ps pss ih =>
    rw [joined, led_textOf_append, List.map_cons, led_spaced]
    cases pss with
    | nil =>
      cases trailing with
      | false => simp [textOf, texts]
      | true => simp [joined, Piece.text, textOf, texts]
    | cons qs pss =>
      have later := ih fun none => absurd none (List.cons_ne_nil qs pss)
      rw [led_spaced, List.map_cons] at later
      rw [List.map_cons, List.intersperse_cons_cons, List.cons_append, List.cons_append,
        List.flatMap_cons, List.flatMap_cons, later]
      simp [led_textOf_cons, Piece.text]

theorem led_commaSeparated (pss : List (List Piece)) (trailing : Bool)
    (ended : pss = [] → trailing = false) :
    led (HostType.commaSeparated (pss.map textOf) trailing) =
      led (textOf (joined ',' pss trailing)) :=
  led_joined ',' pss trailing ended

theorem led_behindEach (lead : Piece) (pss : List (List Piece)) :
    led (textOf (behindEach lead pss)) =
      (pss.map textOf).flatMap fun text => led lead.text ++ led text := by
  induction pss with
  | nil => rfl
  | cons ps pss ih =>
    rw [behindEach, List.flatMap_cons, led_textOf_append, led_textOf_cons, ← behindEach, ih]
    rfl

def Phrase.HasText (text : String) : Phrase → Prop
  | .type _ t => t.key = text
  | .const value => value = text
  | .arg a => HostType.argKeys [a] = [text]
  | .segment s => TypeReader.Path.segmentText s = text
  | .path p | .trait p => p.text = text ∧ p.segments ≠ []
  | .bound _ | .input => True

theorem argKeys_eq_flatMap (args : List TypeArg) :
    HostType.argKeys args = args.flatMap fun a => HostType.argKeys [a] := by
  induction args with
  | nil => rfl
  | cons a args ih => cases a <;> simp [HostType.argKeys, ih]

theorem argKeys_of_hasText {args : List (TypeArg × List Piece)}
    (each : ∀ a ∈ args, (Phrase.arg a.1).HasText (textOf a.2)) :
    HostType.argKeys (args.map Prod.fst) = (args.map Prod.snd).map textOf := by
  rw [argKeys_eq_flatMap]
  induction args with
  | nil => rfl
  | cons a args ih =>
    have here : HostType.argKeys [a.1] = [textOf a.2] := each a List.mem_cons_self
    rw [List.map_cons, List.flatMap_cons, here, ih fun b member => each b (List.mem_cons_of_mem _ member)]
    rfl

theorem keys_of_hasText {ts : List (HostType × List Piece)}
    (each : ∀ t ∈ ts, t.1.key = textOf t.2) :
    HostType.keys (ts.map Prod.fst) = (ts.map Prod.snd).map textOf := by
  induction ts with
  | nil => rfl
  | cons t ts ih =>
    rw [List.map_cons, HostType.keys, each t List.mem_cons_self,
      ih fun u member => each u (List.mem_cons_of_mem _ member)]
    rfl

theorem led_pathText {p : TypeReader.Path} {last : String × TypeArgs}
    (ends : p.segments.getLast? = some last) :
    led p.text = led (if p.rooted then "::" else "") ++
      ((p.segments.dropLast.map TypeReader.Path.segmentText).flatMap fun text =>
        led text ++ led "::") ++ led (TypeReader.Path.segmentText last) := by
  have whole : p.segments = p.segments.dropLast ++ [last] :=
    (List.dropLast_append_getLast? last ends).symm
  have root : (if p.rooted then ["::"] else []).flatMap led = led (if p.rooted then "::" else "") := by
    cases p.rooted <;> simp
  rw [TypeReader.Path.text, led_spaced, List.flatMap_append, root, whole, List.map_append,
    List.map_singleton, flatMap_led_intersperse_append, List.dropLast_concat, List.append_assoc]

theorem key_toType {p : TypeReader.Path} (filled : p.segments ≠ []) : p.toType.key = p.text := by
  obtain ⟨last, ends⟩ : ∃ last, p.segments.getLast? = some last :=
    ⟨_, List.getLast?_eq_some_getLast filled⟩
  apply led_injective
  rw [led_pathText ends, TypeReader.Path.toType, ends, HostType.key]
  cases p.rooted <;> simp [TypeReader.Path.segmentText, List.flatMap_assoc]

theorem Everyday.hasText {ph : Phrase} {ps : List Piece} (everyday : Everyday ph ps) :
    ph.HasText (textOf ps) := by
  -- Texts are compared behind a blank each, where those of parts only have to be appended.
  induction everyday with
  | @name w _ =>
    exact led_injective (by rw [textOf_word, TypeReader.Path.segmentText, HostType.argsKey]; simp)
  | @keyword w _ =>
    exact led_injective (by rw [textOf_word, TypeReader.Path.segmentText, HostType.argsKey]; simp)
  | @generic w turbofish trailing args _ _ _ ended ih =>
    have commas := led_commaSeparated (args.map Prod.snd) trailing
      (by simpa using ended)
    refine led_injective ?_
    rw [TypeReader.Path.segmentText, HostType.argsKey, argKeys_of_hasText ih]
    cases turbofish <;>
      simp [-List.map_map, led_textOf_cons, led_textOf_append, commas, pieceIf, Piece.word,
        Piece.colons, Piece.text, Leaf.text, textOf_singleton]
  | @typeArg t _ _ ih => exact congrArg (fun text => [text]) ih
  | @lifetimeArg name _ => exact congrArg (fun text => [text]) (textOf_leaf (.lifetime name)).symm
  | @literal kind text _ => exact (textOf_leaf (.literal kind text)).symm
  | negative => rfl
  | @truth w _ => exact (textOf_word w).symm
  | constArg _ ih => exact congrArg (fun text => [text]) ih
  | typeBinding | constBinding | constraint => rfl
  | @path rooted first more _ _ ih ihMore =>
    have texts : (more.map Prod.fst).map TypeReader.Path.segmentText =
        (more.map Prod.snd).map textOf := by
      rw [List.map_map, List.map_map]
      exact List.map_congr_left ihMore
    refine ⟨led_injective ?_, List.cons_ne_nil _ _⟩
    rw [TypeReader.Path.text, List.map_cons, texts, led_spaced, List.flatMap_append,
      flatMap_led_intersperse, led_textOf_append, led_textOf_append, led_behindEach,
      show TypeReader.Path.segmentText first.1 = textOf first.2 from ih]
    cases rooted <;> simp [pieceIf, Piece.colons, Piece.text, textOf_nil, textOf_singleton]
  | plain _ ih => exact ih
  | @call p ps w trailing inputs result _ last _ _ _ ih _ _ =>
    refine ⟨led_injective ?_, by simp⟩
    rw [led_textOf_append, ← ih.1, led_pathText last, led_pathText (List.getLast?_concat ..)]
    simp [TypeReader.Path.segmentText, HostType.argsKey]
  | named _ ih => exact (key_toType ih.2).trans ih.1
  | unit => rfl
  | @paren _ t ps _ ih =>
    change HostType.key (.paren t) = _
    rw [HostType.key, textOf_singleton, Piece.text, show t.key = textOf ps from ih, textOf]
  | @tuple _ trailing first more _ _ ended ih ihMore =>
    have each : ∀ t ∈ first :: more, t.1.key = textOf t.2 := by
      simpa using ⟨ih, fun a b => ihMore (a, b)⟩
    have commas := led_commaSeparated ((first :: more).map Prod.snd) trailing
      fun none => absurd none (List.cons_ne_nil _ _)
    change HostType.key (.tuple ((first :: more).map Prod.fst) trailing) = _
    rw [HostType.key, keys_of_hasText each, led_injective commas, textOf_singleton, Piece.text]
    rfl
  | sum | reference | pointer | slice | array | function | object | qualified => rfl
  | never => rfl
  | infer => rfl
  | lifetimeBound | traitBound | maybeBound | input | namedInput => trivial

def startsType : List Piece → Bool
  | .leaf (.word w) :: rest =>
      ["super", "Self", "crate", "for", "fn", "unsafe", "extern", "dyn", "impl"].contains w ||
        ((isName w || ["self", "_"].contains w) &&
          match rest with
          | .mark c :: _ => c != ':'
          | _ => true)
  | .mark c :: rest =>
      ['&', '*', '!'].contains c ||
        (c == '<' &&
          match rest with
          | .mark d :: _ => d != '='
          | _ => !rest.isEmpty)
  | .pair c d :: _ => c == ':' && d == ':'
  | .group d _ :: _ => d != .brace
  | _ => false

theorem startsType_append {ps qs : List Piece} (starts : startsType ps)
    (apart : qs.head? ≠ some (.mark ':')) : startsType (ps ++ qs) := by
  match ps with
  | [.leaf (.word w)] =>
    simp only [startsType, List.singleton_append, Bool.and_true] at starts ⊢
    match qs with
    | .mark c :: qs =>
      have other : c ≠ ':' := fun same => apart (by rw [same]; rfl)
      simpa [other] using starts
    | [] | .leaf _ :: _ | .pair _ _ :: _ | .group _ _ :: _ => simpa using starts
  | .leaf (.word w) :: p :: ps => cases p <;> exact starts
  | [.mark c] =>
    simp only [startsType, List.isEmpty_nil, Bool.not_true, Bool.and_false, Bool.or_false] at starts
    simp only [startsType, List.singleton_append, starts, Bool.true_or]
  | .mark c :: p :: ps => cases p <;> exact starts
  | .pair c d :: ps | .group d inner :: ps => exact starts

def StartsPlain (ps : List Piece) : Prop :=
  ∃ p ∈ ps.head?, p ≠ .mark ':'

theorem startsPlain_of_startsType {ps : List Piece} (starts : startsType ps) : StartsPlain ps := by
  cases ps with
  | nil => cases starts
  | cons p ps =>
    refine ⟨p, rfl, ?_⟩
    rintro rfl
    cases starts

def Phrase.StartsType (ps : List Piece) : Phrase → Prop
  | .type _ _ | .segment _ | .path _ | .trait _ => startsType ps
  | .bound _ => StartsPlain ps
  | .const _ | .arg _ | .input => True

theorem isName_of_isNameWord {w : String} (name : isNameWord w) : isName w :=
  (Bool.and_eq_true_iff.mp name).2

theorem Everyday.startsType {ph : Phrase} {ps : List Piece} (everyday : Everyday ph ps) :
    ph.StartsType ps := by
  -- A form starts with a piece of its own or like its first part.
  induction everyday with
  | name name =>
    simp [Phrase.StartsType, Source.startsType, Piece.word, isName_of_isNameWord name]
  | keyword known =>
    simp only [List.mem_cons, List.not_mem_nil, or_false] at known
    obtain rfl | rfl | rfl | rfl := known <;>
      simp [Phrase.StartsType, Source.startsType, Piece.word]
  | @generic w turbofish _ _ name =>
    cases turbofish <;>
      simp [Phrase.StartsType, Source.startsType, Piece.word, Piece.colons, pieceIf,
        isName_of_isNameWord name]
  | literal | negative | truth | lifetimeArg | typeArg | constArg | typeBinding | constBinding |
    constraint => trivial
  | @path rooted first more _ _ ih _ =>
    have apart : (behindEach .colons (more.map Prod.snd)).head? ≠ some (.mark ':') := by
      cases more <;> simp [behindEach, Piece.colons]
    cases rooted with
    | false => exact startsType_append ih apart
    | true => rfl
  | plain _ ih => exact ih
  | call _ _ _ _ _ ih _ _ => exact startsType_append ih (by simp)
  | named _ ih => exact ih
  | @sum _ _ more _ _ _ ih _ =>
    have apart : (behindEach (.mark '+') (more.map Prod.snd)).head? ≠ some (.mark ':') := by
      cases more <;> simp [behindEach]
    exact startsType_append ih apart
  | unit | paren | tuple | slice | array | reference | pointer | never => rfl
  | infer => simp [Phrase.StartsType, Source.startsType, Piece.word]
  | @function _ guarded _ binder convention =>
    match binder, guarded, convention with
    | some _, _, _ | none, true, _ | none, false, some none | none, false, some (some _) |
      none, false, none => rfl
  | object known =>
    simp only [List.mem_cons, List.not_mem_nil, or_false] at known
    obtain rfl | rfl := known <;> simp [Phrase.StartsType, Source.startsType, Piece.word]
  | @qualified _ _ ps _ _ _ _ _ _ _ ih =>
    cases ps with
    | nil => cases ih
    | cons p ps =>
      cases p with
      | mark c =>
        have other : c ≠ '=' := by
          rintro rfl
          cases ih
        simp [Phrase.StartsType, Source.startsType, other]
      | leaf | pair | group => simp [Phrase.StartsType, Source.startsType]
  | lifetimeBound => exact ⟨_, rfl, nofun⟩
  | @traitBound binder _ _ _ _ ih =>
    cases binder with
    | none => exact startsPlain_of_startsType ih
    | some b => exact ⟨_, rfl, nofun⟩
  | maybeBound => exact ⟨_, rfl, by simp⟩
  | input | namedInput => trivial

theorem Everyday.single {sum : Bool} {s : String × TypeArgs} {ps : List Piece}
    (segment : Everyday (.segment s) ps) : Everyday (.type sum (.path "" s.1 s.2)) ps := by
  have path : Everyday (.path ⟨false, [s]⟩) ps := by
    simpa [pieceIf, behindEach] using
      @Everyday.path false (s, ps) [] segment (List.forall_mem_nil _)
  exact .named (.plain path)

theorem Everyday.key_single {s : String × TypeArgs} {ps : List Piece}
    (segment : Everyday (.segment s) ps) : (HostType.path "" s.1 s.2).key = textOf ps :=
  (@Everyday.single true _ _ segment).hasText

theorem Everyday.not_call {s : String × TypeArgs} {ps : List Piece} (segment : Everyday (.segment s) ps)
    (text : String) : s.2 ≠ .call text := by
  cases segment <;> exact nofun

end Pegsmith.Source
