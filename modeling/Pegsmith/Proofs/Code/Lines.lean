import Mathlib
import Pegsmith.Code.Matching
import Pegsmith.Proofs.Code.Drawing
import Pegsmith.Text.Scan

set_option autoImplicit false

namespace Pegsmith.Code

open Pattern (continuesName)

def words (cs : List Char) : List String :=
  ((cs.splitOnP fun c => !continuesName c).filter fun word => !word.isEmpty).map String.ofList

inductive Declaration where
  | nothing
  | label (name : String)
  | variables (names : List String) (inside : Nat)

def Declaration.binders : Declaration → List String
  | .variables names _ => names
  | .nothing | .label _ => []

def Declaration.label? : Declaration → Option String
  | .label name => some name
  | .nothing | .variables _ _ => none

def bound (rest : List Char) : List String :=
  words (rest.takeWhile (· != '='))

def Line.declares (l : Line) : Declaration :=
  let cs := l.text.toList
  match Text.after? "if let Some(".toList cs, Text.after? "let mut ".toList cs,
    Text.after? "let ".toList cs, Text.after? "'".toList cs with
  | some rest, _, _, _ => .variables (bound rest) (l.indent + 1)
  | none, some rest, _, _ | none, none, some rest, _ => .variables (bound rest) l.indent
  | none, none, none, some rest => .label (String.ofList (rest.takeWhile (· != ':')))
  | none, none, none, none => .nothing

structure Entry where
  indent : Nat
  declares : Declaration

def Line.entry (l : Line) : Entry :=
  ⟨l.indent, l.declares⟩

def binders (entries : List Entry) : List String :=
  entries.flatMap fun e => e.declares.binders

def labels (entries : List Entry) : List String :=
  entries.filterMap fun e => e.declares.label?

def Quiet (depth : Nat) (entries : List Entry) : Prop :=
  ∀ e ∈ entries, depth ≤ e.indent ∧ e.declares = .nothing

/-- Whether a variable is bound by one of the lines, latest first, and can be used behind them at a
depth: the block that it is bound in is still open, no later line being outside of it. -/
def InScope (depth : Nat) (entries : List Entry) (x : String) : Prop :=
  ∃ later indent names inside earlier,
    entries = later ++ ⟨indent, .variables names inside⟩ :: earlier ∧ x ∈ names ∧ inside ≤ depth ∧
      ∀ e ∈ later, inside ≤ e.indent

/-- The expressions that emitted code writes, over variables. -/
inductive IsOver (bound : String → Prop) : String → Prop where
  | name {x : String} (holds : bound x) : IsOver bound x
  | text {e : String} (inner : IsOver bound e) : IsOver bound (e ++ ".text.to_owned()")
  | kind {e : String} (inner : IsOver bound e) : IsOver bound (e ++ ".kind")
  | orDefault {e : String} (inner : IsOver bound e) : IsOver bound (e ++ ".unwrap_or_default()")
  | converted {e : String} (type : HostType) (inner : IsOver bound e) :
      IsOver bound (convertText type.text e)
  | vec {e : String} (inner : IsOver bound e) : IsOver bound ("vec![" ++ e ++ "]")
  | some {e : String} (inner : IsOver bound e) : IsOver bound ("Some(" ++ e ++ ")")
  | collected {e : String} (type : HostType) (inner : IsOver bound e) :
      IsOver bound (e ++ ".into_iter().collect::<" ++ type.text ++ ">()")
  | tuple {es : List String} (each : ∀ e ∈ es, IsOver bound e) : IsOver bound (tupleText es)
  | pack {es : List String} (each : ∀ e ∈ es, IsOver bound e) : IsOver bound (packText es)

theorem IsOver.mono {bound wider : String → Prop} {e : String} (expression : IsOver bound e)
    (weaker : ∀ x, bound x → wider x) : IsOver wider e := by
  induction expression with
  | name holds => exact .name (weaker _ holds)
  | text _ ih => exact .text ih
  | kind _ ih => exact .kind ih
  | orDefault _ ih => exact .orDefault ih
  | converted type _ ih => exact .converted type ih
  | vec _ ih => exact .vec ih
  | some _ ih => exact .some ih
  | collected type _ ih => exact .collected type ih
  | tuple _ ih => exact .tuple ih
  | pack _ ih => exact .pack ih

theorem binders_append (entries more : List Entry) :
    binders (entries ++ more) = binders entries ++ binders more :=
  List.flatMap_append

theorem labels_append (entries more : List Entry) :
    labels (entries ++ more) = labels entries ++ labels more :=
  List.filterMap_append

@[simp] theorem binders_cons (indent : Nat) (d : Declaration) (entries : List Entry) :
    binders (⟨indent, d⟩ :: entries) = d.binders ++ binders entries :=
  List.flatMap_cons

@[simp] theorem labels_cons (indent : Nat) (d : Declaration) (entries : List Entry) :
    labels (⟨indent, d⟩ :: entries) = d.label?.toList ++ labels entries := by
  cases d <;> rfl

@[simp] theorem binders_nil : binders [] = [] := rfl

@[simp] theorem labels_nil : labels [] = [] := rfl

def bindings (depth : Nat) (names : List Name) : List Entry :=
  names.map fun x => ⟨depth, .variables [x.text] depth⟩

theorem binders_bindings (depth : Nat) (names : List Name) :
    binders (bindings depth names) = names.map Name.text := by
  induction names with
  | nil => rfl
  | cons x names ih => simpa [bindings, Declaration.binders] using ih

theorem labels_bindings (depth : Nat) (names : List Name) : labels (bindings depth names) = [] := by
  simp [labels, bindings, Declaration.label?]

@[simp] theorem quiet_nil (depth : Nat) : Quiet depth [] :=
  List.forall_mem_nil _

theorem quiet_cons {depth indent : Nat} {entries : List Entry} :
    Quiet depth (⟨indent, .nothing⟩ :: entries) ↔ depth ≤ indent ∧ Quiet depth entries := by
  simp [Quiet]

theorem quiet_append {depth : Nat} {entries more : List Entry} :
    Quiet depth (entries ++ more) ↔ Quiet depth entries ∧ Quiet depth more :=
  List.forall_mem_append

namespace Quiet

variable {depth : Nat} {entries : List Entry}

theorem mono {outer : Nat} (quiet : Quiet depth entries) (less : outer ≤ depth) :
    Quiet outer entries :=
  fun e member => ⟨less.trans (quiet e member).1, (quiet e member).2⟩

theorem binders (quiet : Quiet depth entries) : binders entries = [] := by
  refine List.flatMap_eq_nil_iff.mpr fun e member => ?_
  rw [(quiet e member).2]
  rfl

theorem labels (quiet : Quiet depth entries) : labels entries = [] := by
  refine List.filterMap_eq_nil_iff.mpr fun e member => ?_
  rw [(quiet e member).2]
  rfl

end Quiet

namespace InScope

variable {depth after : Nat} {entries more : List Entry} {x : String}

theorem here {indent inside : Nat} {names : List String} (member : x ∈ names)
    (reached : inside ≤ depth) : InScope depth (⟨indent, .variables names inside⟩ :: entries) x :=
  ⟨[], indent, names, inside, entries, rfl, member, reached, by simp⟩

theorem of_mem {indent inside : Nat} {names : List String}
    (bound : ⟨indent, .variables names inside⟩ ∈ entries) (member : x ∈ names)
    (reached : inside ≤ depth) (kept : ∀ e ∈ entries, inside ≤ e.indent) :
    InScope depth entries x := by
  obtain ⟨later, earlier, rfl⟩ := List.append_of_mem bound
  exact ⟨later, indent, names, inside, earlier, rfl, member, reached,
    fun e listed => kept e (List.mem_append_left _ listed)⟩

theorem append (inScope : InScope depth entries x) (deeper : depth ≤ after)
    (kept : ∀ e ∈ more, depth ≤ e.indent) : InScope after (more ++ entries) x := by
  obtain ⟨later, indent, names, inside, earlier, rfl, member, reached, open'⟩ := inScope
  -- Later lines are as deep as the place they begin at, so they leave no block that is open there.
  refine ⟨more ++ later, indent, names, inside, earlier, by simp, member, reached.trans deeper,
    fun e listed => ?_⟩
  rcases List.mem_append.mp listed with added | old
  · exact reached.trans (kept e added)
  · exact open' e old

theorem behind (inScope : InScope depth entries x) : InScope depth (entries ++ more) x := by
  obtain ⟨later, indent, names, inside, earlier, rfl, found⟩ := inScope
  exact ⟨later, indent, names, inside, earlier ++ more, by simp, found⟩

end InScope

theorem words_append_cons (cs rest : List Char) {c : Char} (apart : continuesName c = false) :
    words (cs ++ c :: rest) = words cs ++ words rest := by
  rw [words, List.splitOnP_append_cons cs rest (by simp [apart]), List.filter_append,
    List.map_append, words, words]

theorem words_nil : words [] = [] := rfl

theorem words_cons (rest : List Char) {c : Char} (apart : continuesName c = false) :
    words (c :: rest) = words rest :=
  words_append_cons [] rest apart

theorem words_name {cs : List Char} (nonempty : cs ≠ [])
    (name : ∀ c ∈ cs, continuesName c = true) : words cs = [String.ofList cs] := by
  rw [words, List.splitOnP_eq_singleton fun c member => by simp [name c member]]
  simp [nonempty]

theorem mem_of_mem_intercalate {c : Char} {sep : List Char} {parts : List (List Char)}
    (member : c ∈ sep.intercalate parts) : c ∈ sep ∨ ∃ part ∈ parts, c ∈ part := by
  induction parts with
  | nil => cases member
  | cons part parts ih =>
    cases parts with
    | nil => exact .inr ⟨part, List.mem_cons_self, by simpa using member⟩
    | cons next others =>
      rw [List.intercalate_cons_cons, List.mem_append, List.mem_append] at member
      rcases member with (here | between) | later
      · exact .inr ⟨part, List.mem_cons_self, here⟩
      · exact .inl between
      · rcases ih later with between | ⟨other, listed, inside⟩
        · exact .inl between
        · exact .inr ⟨other, List.mem_cons_of_mem part listed, inside⟩

structure IsWord (x : String) : Prop where
  nonempty : x.toList ≠ []
  continues : ∀ c ∈ x.toList, continuesName c = true

theorem Name.IsPlain.isWord {x : Name} (plain : x.IsPlain) : IsWord x.text :=
  ⟨x.text_toList_ne_nil, fun _ => continuesName_of_mem_text plain⟩

theorem IsWord.words {x : String} (word : IsWord x) : words x.toList = [x] := by
  rw [words_name word.nonempty word.continues, String.ofList_toList]

theorem toList_tupleText (x y : String) (zs : List String) :
    (tupleText (x :: y :: zs)).toList =
      '(' :: ([',', ' '].intercalate ((x :: y :: zs).map String.toList) ++ [')']) := by
  simp [tupleText, String.toList_intercalate]

theorem toList_tupleText_of_ne {xs : List String} (several : xs.length ≠ 1) :
    ∃ cs, (tupleText xs).toList = '(' :: cs := by
  match xs with
  | [] => exact ⟨[')'], rfl⟩
  | [_] => exact (several rfl).elim
  | x :: y :: zs => exact ⟨_, toList_tupleText x y zs⟩

section Tuples

variable {xs : List String} (each : ∀ x ∈ xs, IsWord x)

include each

theorem words_intercalate : words ([',', ' '].intercalate (xs.map String.toList)) = xs := by
  induction xs with
  | nil => rfl
  | cons x xs ih =>
    have first := (each x List.mem_cons_self).words
    have others := ih fun y member => each y (List.mem_cons_of_mem x member)
    cases xs with
    | nil => simpa using first
    | cons y ys =>
      -- Neither character of the separator is one of a name, so it splits words twice.
      have comma := words_append_cons x.toList
        (' ' :: [',', ' '].intercalate ((y :: ys).map String.toList)) (c := ',') rfl
      rw [first, words_cons _ rfl, others] at comma
      simpa [List.intercalate_cons_cons] using comma

theorem words_tupleText : words (tupleText xs).toList = xs := by
  match xs with
  | [] => rfl
  | [x] => exact (each x List.mem_cons_self).words
  | x :: y :: zs =>
    rw [toList_tupleText, words_cons _ rfl, words_append_cons _ _ rfl, words_intercalate each,
      words_nil, List.append_nil]

theorem ne_equals_of_mem_tupleText {c : Char} (member : c ∈ (tupleText xs).toList) : c ≠ '=' := by
  have inWord (x : String) (listed : x ∈ xs) (inside : c ∈ x.toList) : c ≠ '=' := by
    have continues := (each x listed).continues c inside
    exact fun equals => by simp [equals, continuesName] at continues
  rcases xs with _ | ⟨x, _ | ⟨y, zs⟩⟩
  · have bracket : c = '(' ∨ c = ')' := by simpa [tupleText] using member
    rcases bracket with rfl | rfl <;> decide
  · exact inWord x List.mem_cons_self member
  · rw [toList_tupleText, List.mem_cons, List.mem_append, List.mem_singleton] at member
    rcases member with rfl | inside | rfl
    · decide
    · rcases mem_of_mem_intercalate inside with separator | ⟨_, listed, inside⟩
      · have char : c = ',' ∨ c = ' ' := by simpa using separator
        rcases char with rfl | rfl <;> decide
      · obtain ⟨word, found, rfl⟩ := List.mem_map.mp listed
        exact inWord word found inside
    · decide

theorem bound_tupleText (rest : List Char)
    (ends : rest.takeWhile (· != '=') = [' '] ∨ rest.takeWhile (· != '=') = [')', ' ']) :
    bound ((tupleText xs).toList ++ rest) = xs := by
  have name : ∀ c ∈ (tupleText xs).toList, (c != '=') = true :=
    fun c member => by simpa using ne_equals_of_mem_tupleText each member
  rw [bound, List.takeWhile_append_of_pos name]
  -- What stands between the names and the sign of equality has no name in it.
  rcases ends with ends | ends
  · rw [ends, words_append_cons _ _ rfl, words_tupleText each, words_nil, List.append_nil]
  · rw [ends, words_append_cons _ _ rfl, words_tupleText each, words_cons _ rfl, words_nil,
      List.append_nil]

end Tuples

@[simp] theorem toString_text (x : String) : toString x = x := rfl

theorem openLine_of_ne {header : String} (nonempty : header.toList ≠ []) :
    Writer.openLine header = header ++ " \x7b" := by
  have notEmpty : header ≠ "" := fun empty => nonempty (by simp [empty])
  simp [Writer.openLine, notEmpty]

theorem declares_ifLet (depth : Nat) {xs : List String} (each : ∀ x ∈ xs, IsWord x)
    (value : String) :
    Line.declares ⟨depth, Writer.openLine s!"if let Some({tupleText xs}) = {value}"⟩ =
      .variables xs (depth + 1) := by
  have reads := bound_tupleText each (") = ".toList ++ value.toList ++ " \x7b".toList)
    (.inr (by simp))
  rw [openLine_of_ne (by simp)]
  simpa [Line.declares, Text.after?] using reads

variable {l : Line} {x : String}

theorem declares_letMut (word : IsWord x) (rest : List Char)
    (text : l.text.toList = "let mut ".toList ++ (x.toList ++ rest))
    (ends : rest.takeWhile (· != '=') = [' ']) : l.declares = .variables [x] l.indent := by
  have reads : bound (x.toList ++ rest) = [x] :=
    bound_tupleText (List.forall_mem_singleton.mpr word) rest (.inl ends)
  simpa [Line.declares, text, Text.after?] using reads

theorem declares_let {xs : List String} (each : ∀ x ∈ xs, IsWord x) (rest : List Char)
    (text : l.text.toList = "let ".toList ++ ((tupleText xs).toList ++ rest))
    (ends : rest.takeWhile (· != '=') = [' '])
    (noMut : Text.after? "mut ".toList ((tupleText xs).toList ++ rest) = none) :
    l.declares = .variables xs l.indent := by
  have reads := bound_tupleText each rest (.inl ends)
  simp only [String.reduceToList] at noMut
  simp [Line.declares, text, Text.after?, reads, noMut]

theorem declares_label (depth : Nat) {header : String} (word : IsWord x) (rest : List Char)
    (text : header.toList = '\'' :: (x.toList ++ ':' :: rest)) :
    Line.declares ⟨depth, Writer.openLine header⟩ = .label x := by
  have noColon : ∀ c ∈ x.toList, (c != ':') = true := by
    intro c member
    have continues := word.continues c member
    exact bne_iff_ne.mpr fun colon => by simp [colon, continuesName] at continues
  have reads (more : List Char) : (x.toList ++ ':' :: more).takeWhile (· != ':') = x.toList := by
    rw [List.takeWhile_append_of_pos noColon]
    simp
  rw [openLine_of_ne (by simp [text])]
  simp [Line.declares, text, Text.after?, reads]

end Pegsmith.Code
