import Pegsmith.Proofs.Parsing.Derivation
import Pegsmith.Proofs.Parsing.Shift
import Pegsmith.Proofs.Sample.Languages

set_option autoImplicit false

namespace Pegsmith.Sample

open Parsing

variable {σ α : Type} {k : Nat}

theorem value_placeless {f : List (Value α) → Option α}
    (same : ∀ k vs, f (vs.map (Value.shift k)) = f vs) : (value f : Build σ α).Placeless := by
  refine ⟨fun k vs s => by rw [value, value, same], fun k vs s fault r built => ?_⟩
  obtain ⟨a, -, wrong⟩ := Option.map_eq_some_iff.mp built
  cases wrong

theorem map_shift_of_one {β : Type} {f : List (Value α) → β}
    (many : ∀ v w vs, f (v :: w :: vs) = f []) (one : ∀ k v, f [v.shift k] = f [v]) (k : Nat) (vs : List (Value α)) :
    f (vs.map (Value.shift k)) = f vs := by
  match vs with
  | [] => rfl
  | [v] => exact one k v
  | v :: w :: vs => exact (many ..).trans (many ..).symm

theorem value_placeless_of_one {f : List (Value α) → Option α}
    (many : ∀ v w vs, f (v :: w :: vs) = f []) (one : ∀ k v, f [v.shift k] = f [v]) :
    (value f : Build σ α).Placeless :=
  value_placeless (map_shift_of_one many one)

theorem value_placeless_of_two {f : List (Value α) → Option α} (one : ∀ v, f [v] = f [])
    (many : ∀ u v w vs, f (u :: v :: w :: vs) = f [])
    (two : ∀ k v w, f [v.shift k, w.shift k] = f [v, w]) : (value f : Build σ α).Placeless := by
  refine value_placeless fun k vs => ?_
  match vs with
  | [] => rfl
  | [v] => exact (one ..).trans (one ..).symm
  | [v, w] => exact two k v w
  | u :: v :: w :: vs => exact (many ..).trans (many ..).symm

theorem mapM_map_shift {β : Type} {f : Value α → Option β} (same : ∀ v, f (v.shift k) = f v)
    (vs : List (Value α)) : (vs.map (Value.shift k)).mapM f = vs.mapM f := by
  induction vs with
  | nil => rfl
  | cons v vs ih => rw [List.map_cons, List.mapM_cons, List.mapM_cons, ih, same]

theorem members?_map_shift {β : Type} (sort : α → Option β) (vs : List (Value α)) :
    members? sort (vs.map (Value.shift k)) = members? sort vs :=
  mapM_map_shift (fun v => by rw [Value.own?_shift]) vs

namespace Calculator

theorem same_placeless : same.Placeless := by
  refine value_placeless_of_one ?_ ?_
  · rintro (_ | _) _ _ <;> rfl
  · rintro _ (_ | _) <;> rfl

theorem placeless (name : String) : ∀ a ∈ rules.alternatives name, a.build.Placeless := by
  intro a member
  change a ∈ alternatives name at member
  unfold alternatives at member
  split at member
  · simp only [List.mem_cons, List.not_mem_nil, or_false] at member
    rcases member with rfl | rfl
    · refine value_placeless fun k vs => ?_
      rcases vs with _ | ⟨u, _ | ⟨v, _ | ⟨w, _ | ⟨x, vs⟩⟩⟩⟩ <;> try rfl
      all_goals cases u <;> try rfl
      all_goals cases v <;> try rfl
      all_goals cases w <;> rfl
    · exact same_placeless
  · simp only [List.mem_cons, List.not_mem_nil, or_false] at member
    rcases member with rfl | rfl
    · refine value_placeless_of_one ?_ ?_
      · rintro (_ | _) _ _ <;> rfl
      · rintro _ (_ | _) <;> rfl
    · exact same_placeless
  · simp only [List.mem_cons, List.not_mem_nil, or_false] at member
    rcases member with rfl | rfl
    · refine ⟨fun k vs s => ?_, fun k vs s f r built => ?_⟩
      · rcases vs with _ | ⟨v, _ | ⟨w, vs⟩⟩ <;> try rfl
        all_goals cases v <;> rfl
      · dsimp only at built
        split at built <;> cases built
    · exact same_placeless
  · cases member

end Calculator

namespace SyntaxTree

theorem nested_placeless : nested.Placeless := by
  refine value_placeless_of_one ?_ ?_
  · rintro (_ | _) _ _ <;> rfl
  · rintro _ (_ | _) <;> rfl

theorem placeless (name : String) : ∀ a ∈ rules.alternatives name, a.build.Placeless := by
  intro a member
  change a ∈ alternatives name at member
  unfold alternatives at member
  split at member
  · simp only [List.mem_cons, List.not_mem_nil, or_false] at member
    rcases member with rfl | rfl
    · refine value_placeless fun k vs => ?_
      rcases vs with _ | ⟨u, _ | ⟨v, _ | ⟨w, _ | ⟨x, vs⟩⟩⟩⟩ <;> try rfl
      all_goals cases u <;> try rfl
      all_goals cases v <;> try rfl
      all_goals cases w <;> rfl
    · exact nested_placeless
  · simp only [List.mem_cons, List.not_mem_nil, or_false] at member
    rcases member with rfl | rfl
    · refine value_placeless_of_one ?_ ?_
      · rintro (_ | _) _ _ <;> rfl
      · rintro _ (_ | _) <;> rfl
    · exact nested_placeless
  · simp only [List.mem_cons, List.not_mem_nil, or_false] at member
    rcases member with rfl | rfl
    · refine value_placeless_of_one ?_ ?_
      · rintro (_ | _) _ _ <;> rfl
      · rintro _ (_ | _) <;> rfl
    · exact nested_placeless
  · cases member

end SyntaxTree

namespace Table

theorem placeless (name : String) : ∀ a ∈ rules.alternatives name, a.build.Placeless := by
  intro a member
  change a ∈ alternatives name at member
  unfold alternatives at member
  split at member
  · obtain rfl := List.mem_singleton.mp member
    refine value_placeless_of_two ?_ ?_ ?_
    · rintro (_ | _) <;> rfl
    · rintro (_ | _) (_ | _) _ _ <;> rfl
    · rintro k (_ | _ | _ | _ | header | _) (_ | _ | _ | _ | rows | _) <;> try rfl
      simp only [Value.shift_list, members?_map_shift, mapM_map_shift Value.text?_shift]
  · obtain rfl := List.mem_singleton.mp member
    refine value_placeless_of_one ?_ ?_
    · rintro (_ | _) _ _ <;> rfl
    · rintro k (_ | _ | _ | _ | numbers | _) <;> try rfl
      simp only [Value.shift_list, members?_map_shift]
  · obtain rfl := List.mem_singleton.mp member
    refine value_placeless_of_one ?_ ?_
    · rintro (_ | _) _ _ <;> rfl
    · rintro _ (_ | _) <;> rfl
  · cases member

end Table

namespace GameRecord

theorem round_placeless : round.Placeless := by
  refine ⟨fun k vs s => ?_, fun k vs s f r built => ?_⟩
  · rcases vs with _ | ⟨_ | _ | _ | _ | entries | _, _ | ⟨w, vs⟩⟩ <;> try rfl
    simp only [List.map_cons, List.map_nil, Value.shift_list, round, members?_map_shift]
  · unfold round at built
    split at built
    · obtain ⟨entries, -, answered⟩ := Option.map_eq_some_iff.mp built
      rcases ofList_expected entries with ⟨counts, summed⟩ | overflow
      · rw [summed] at answered
        cases answered
      · rw [overflow] at answered
        cases answered
        rfl
    · cases built

theorem placeless (name : String) : ∀ a ∈ rules.alternatives name, a.build.Placeless := by
  intro a member
  change a ∈ alternatives name at member
  unfold alternatives at member
  split at member
  · obtain rfl := List.mem_singleton.mp member
    refine value_placeless_of_one ?_ ?_
    · rintro (_ | _) _ _ <;> rfl
    · rintro k (_ | _ | _ | _ | games | _) <;> try rfl
      simp only [Value.shift_list, members?_map_shift]
  · obtain rfl := List.mem_singleton.mp member
    refine value_placeless_of_two ?_ ?_ ?_
    · rintro (_ | _ | _ | part | _) <;> try rfl
      cases part <;> rfl
    · rintro (_ | _ | _ | part | _) (_ | _) _ _ <;> try rfl
      all_goals cases part <;> rfl
    · rintro k (_ | _ | _ | part | _) (_ | _ | _ | _ | rounds | _) <;> try rfl
      all_goals cases part <;> try rfl
      simp only [Value.shift, Value.shiftAll_eq_map, members?_map_shift]
  · obtain rfl := List.mem_singleton.mp member
    exact round_placeless
  · obtain rfl := List.mem_singleton.mp member
    refine value_placeless_of_two ?_ ?_ ?_
    · rintro (_ | _ | _ | part | _) <;> try rfl
      cases part <;> rfl
    · rintro (_ | _ | _ | part | _) (_ | _ | _ | other | _) _ _ <;> try rfl
      all_goals cases part <;> try rfl
      all_goals cases other <;> rfl
    · rintro k (_ | _ | _ | part | _) (_ | _ | _ | other | _) <;> try rfl
      all_goals cases part <;> try rfl
  · obtain rfl := List.mem_singleton.mp member
    refine value_placeless_of_one ?_ ?_
    · rintro (_ | _) _ _ <;> rfl
    · rintro _ (_ | _) <;> rfl
  · obtain rfl := List.mem_singleton.mp member
    refine value_placeless_of_one ?_ ?_
    · rintro (_ | _) _ _ <;> rfl
    · rintro _ (_ | _) <;> rfl
  · cases member

end GameRecord

namespace Items

theorem placeless {items : List (Parsing.Alternative Unit Part)}
    (two : ∀ a ∈ items, a = list ∨ a = single)
    (name : String) : ∀ a ∈ (rules items).alternatives name, a.build.Placeless := by
  intro a member
  change a ∈ alternatives items name at member
  unfold alternatives at member
  split at member
  · rcases two a member with rfl | rfl
    · refine value_placeless_of_one ?_ ?_
      · rintro (_ | _) _ _ <;> rfl
      · rintro k (_ | _ | _ | _ | numbers | _) <;> try rfl
        simp only [Value.shift_list, members?_map_shift]
    · refine value_placeless_of_one ?_ ?_
      · rintro (_ | _ | _ | part | _) _ _ <;> try rfl
        cases part <;> rfl
      · rintro _ (_ | _) <;> rfl
  · obtain rfl := List.mem_singleton.mp member
    refine value_placeless_of_one ?_ ?_
    · rintro (_ | _) _ _ <;> rfl
    · rintro _ (_ | _) <;> rfl
  · cases member

end Items

namespace Levels

theorem pass_placeless : pass.Placeless := by
  refine ⟨fun k vs s => ?_, fun k vs s f r built => ?_⟩
  · rcases vs with _ | ⟨v, _ | ⟨w, vs⟩⟩ <;> try rfl
    all_goals cases v <;> rfl
  · unfold pass at built
    split at built <;> cases built

theorem above_placeless {i : Nat} {a : Parsing.Alternative Nat UInt32} (member : a ∈ above i) :
    a.build.Placeless := by
  obtain ⟨kind, -, rfl⟩ := List.mem_map.mp member
  exact pass_placeless

theorem placeless (name : String) : ∀ a ∈ rules.alternatives name, a.build.Placeless := by
  intro a member
  obtain ⟨as, listed, member⟩ := mem_table member
  simp only [table, levels, List.mem_append, List.mem_cons, List.mem_map, List.not_mem_nil,
    or_false, Prod.mk.injEq] at listed
  rcases listed with (⟨-, rfl⟩ | ⟨i, -, -, rfl⟩) | ⟨-, rfl⟩ | ⟨-, rfl⟩
  · rcases List.mem_append.mp member with higher | number
    · exact above_placeless higher
    · obtain rfl := List.mem_singleton.mp number
      exact pass_placeless
  · exact above_placeless member
  · obtain rfl := List.mem_singleton.mp member
    exact pass_placeless
  · obtain rfl := List.mem_singleton.mp member
    refine value_placeless_of_one ?_ ?_
    · rintro (_ | _) _ _ <;> rfl
    · rintro _ (_ | _) <;> rfl

end Levels

namespace Language

theorem rules_placeless (l : Language) (name : String) :
    ∀ a ∈ l.rules.alternatives name, a.build.Placeless := by
  cases l with
  | calculator => exact Calculator.placeless name
  | syntaxTree => exact SyntaxTree.placeless name
  | table => exact Table.placeless name
  | gameRecord => exact GameRecord.placeless name
  | greedy => exact Items.placeless (by simp) name
  | lazy => exact Items.placeless (by simp) name
  | levels => exact Levels.placeless name

/-- Between any two characters, reading the next token and parsing go as on what is unread alone:
places in tokens, errors and the tape are larger by the size of what has been read, and all else is
the same. -/
theorem reads_unread (l : Language) (name : String) (read unread : List Char) (logic : l.State)
    (short : Text.byteSize (read ++ unread) < offsetLimit) :
    l.rules.lexer.next (Tape.between read unread) =
        (Lexer.shiftAnswer (Text.byteSize read) (l.rules.lexer.next ⟨unread, 0⟩).1,
          (l.rules.lexer.next ⟨unread, 0⟩).2.after read) ∧
      l.rules.parse name (Tape.between read unread) logic =
        ((l.rules.parse name ⟨unread, 0⟩ logic).1.mapError (Stop.shift (Text.byteSize read)),
          (l.rules.parse name ⟨unread, 0⟩ logic).2.1.after read,
          (l.rules.parse name ⟨unread, 0⟩ logic).2.2) := by
  exact ⟨l.rules.lexer.next_after read ⟨unread, 0⟩,
    Rules.parse_after l.rules_placeless name (Tape.within_start unread) logic short⟩

theorem calculator_reads_unread_sum :
    Text.byteSize ("é(".toList ++ " 1+".toList) < offsetLimit ∧
      calculator.rules.lexer.next (Tape.between "é(".toList " 1+".toList) =
        (.ok (some ⟨"Number", ['1'], 4⟩), ⟨"é( 1+".toList, 5⟩) ∧
      calculator.rules.parse "expression" (Tape.between "é(".toList " 1+".toList) (0 : Nat) =
        (.ok (.own 1), ⟨"é( 1+".toList, 5⟩, (1 : Nat)) := by
  have short : Text.byteSize ("é(".toList ++ " 1+".toList) < offsetLimit := by decide +kernel
  obtain ⟨next, parsed⟩ :=
    reads_unread .calculator "expression" "é(".toList " 1+".toList (0 : Nat) short
  refine ⟨short, next.trans ?_, parsed.trans ?_⟩ <;> cbv

/-- An answer leaves the tape at the end of the last token that belongs to it. Without a match the
tape stands where it stood, and an error names the place of the tape, at which no rule matches
anything. -/
theorem parse_leaves (l : Language) (name : String) {text : List Char} {offset : Nat}
    (logic : l.State) (short : Text.byteSize text < offsetLimit)
    (boundary : Text.isBoundary text offset = true) :
    l.rules.Leaves name ⟨text, offset⟩ (l.rules.parse name ⟨text, offset⟩ logic).1
      (l.rules.parse name ⟨text, offset⟩ logic).2.1 := by
  obtain ⟨good, regular⟩ := l.rules_regular
  have within : (⟨text, offset⟩ : Tape).Within text offset := ⟨rfl, boundary, Nat.le_refl offset⟩
  exact regular.leaves name logic within short

theorem calculator_parse_leaves_blank :
    Text.byteSize "é-1 )".toList < offsetLimit ∧ Text.isBoundary "é-1 )".toList 2 = true ∧
      calculator.rules.parse "expression" ⟨"é-1 )".toList, 2⟩ (0 : Nat) =
        (.ok (.own (-1)), ⟨"é-1 )".toList, 4⟩, (1 : Nat)) ∧
      ∃ n tokens last, calculator.rules.Derives n "expression" (tokens ++ [last]) (-1 : Int64) ∧
        last.stop = 4 := by
  have short : Text.byteSize "é-1 )".toList < offsetLimit := by decide +kernel
  have boundary : Text.isBoundary "é-1 )".toList 2 = true := by decide +kernel
  have parsed : calculator.rules.parse "expression" ⟨"é-1 )".toList, 2⟩ (0 : Nat) =
      (.ok (.own (-1)), ⟨"é-1 )".toList, 4⟩, (1 : Nat)) := by cbv
  have leaves := parse_leaves .calculator "expression" (0 : Nat) short boundary
  rw [parsed] at leaves
  obtain ⟨_, n, tokens, last, ⟨⟩, derives, -, place, -⟩ := leaves
  exact ⟨short, boundary, parsed, n, tokens, last, derives, (congrArg Tape.offset place).symm⟩

end Language

end Pegsmith.Sample
