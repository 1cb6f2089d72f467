import Pegsmith.Parsing.Tape

set_option autoImplicit false

namespace Pegsmith.Parsing.Matcher

def exactly (text : List Char) : Matcher := fun cs =>
  if text.isPrefixOf cs then some text.length else none

def word (first rest : Char → Bool) : Matcher
  | [] => none
  | c :: cs => if first c then some ((cs.takeWhile rest).length + 1) else none

def run (p : Char → Bool) : Matcher :=
  word p p

def orElse (a b : Matcher) : Matcher := fun cs =>
  (a cs).or (b cs)

theorem front_exactly_append (text cs : List Char) :
    (exactly text).front (text ++ cs) = text := by
  simp [front, exactly]

theorem front_word_cons {first rest : Char → Bool} {c : Char} {cs : List Char}
    (h : first c = true) : (word first rest).front (c :: cs) = c :: cs.takeWhile rest := by
  simp [front, word, h, List.takeWhile_eq_take_findIdx_not]

theorem front_word_eq_nil {first rest : Char → Bool} {c : Char} {cs : List Char}
    (h : first c = false) : (word first rest).front (c :: cs) = [] := by
  simp [front, word, h]

end Pegsmith.Parsing.Matcher
