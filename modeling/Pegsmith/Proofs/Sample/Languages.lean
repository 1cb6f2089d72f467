import Mathlib
import Pegsmith.Proofs.Parsing.Regular
import Pegsmith.Proofs.Parsing.Standing
import Pegsmith.Sample.Calculator
import Pegsmith.Sample.GameRecord
import Pegsmith.Sample.Levels
import Pegsmith.Sample.SyntaxTree
import Pegsmith.Sample.Table

set_option autoImplicit false

namespace Pegsmith.Sample

open Parsing Plan

variable {σ α : Type} {good : String → α → Prop} {vs : List (Value α)}

theorem yields_token {kind : String} (yields : (token kind .token).Yields good vs) :
    ∃ t : Token, vs = [.token t] := by
  obtain ⟨t, -, rfl⟩ := yields
  exact ⟨t, rfl⟩

theorem yields_read {name : String} :
    (read name).Yields good vs ↔ ∃ a, good name a ∧ vs = [.own a] := by
  simp [read, Yields]

theorem yields_skip {kind : String} (yields : (skip kind).Yields good vs) : vs = [] := by
  obtain ⟨_, -, rfl⟩ := yields
  rfl

theorem yields_one {p : Plan} (yields : (Plan.sequence [p]).Yields good vs) : p.Yields good vs := by
  obtain ⟨us, ws, first, rfl, rfl⟩ := yields
  rwa [List.append_nil]

theorem yields_skip_cons {kind : String} {ps : List Plan}
    (yields : (Plan.sequence (skip kind :: ps)).Yields good vs) : (Plan.sequence ps).Yields good vs := by
  obtain ⟨us, ws, first, rest, rfl⟩ := yields
  obtain rfl := yields_skip first
  exact rest

theorem yields_cons_skip {kind : String} {p : Plan}
    (yields : (Plan.sequence [p, skip kind]).Yields good vs) : p.Yields good vs := by
  obtain ⟨us, ws, first, rest, rfl⟩ := yields
  obtain rfl := yields_skip (yields_one rest)
  rwa [List.append_nil]

theorem yields_list {item : Plan} {separator : String} {rest : List Plan}
    {property : Value α → Prop}
    (each : ∀ us, item.Yields good us → ∃ v, property v ∧ us = [v])
    (silent : ∀ us, (Plan.sequence rest).Yields good us → us = [])
    (yields : (concat (.single item :: .loop (.sequence [skip separator, item]) false true ::
      rest)).Yields good vs) :
    ∃ items, (∀ v ∈ items, property v) ∧ vs = [.list items] := by
  obtain ⟨us, items, parts, joined, rfl⟩ := yields
  obtain ⟨_, _, ⟨first, one, rfl⟩, ⟨_, ws, ⟨found, all, rfl⟩, last, rfl⟩, rfl⟩ := parts
  obtain rfl := silent ws last
  obtain ⟨v, holds, rfl⟩ := each first one
  have same : items = v :: found.map Value.together := by
    simpa [Value.concat?, Value.items?, Value.together, List.mapM_cons] using joined.symm
  refine ⟨items, ?_, rfl⟩
  rw [same]
  intro w member
  rcases List.mem_cons.mp member with rfl | later
  · exact holds
  · obtain ⟨vs, listed, rfl⟩ := List.mem_map.mp later
    obtain ⟨w, holds, rfl⟩ := each vs (yields_one (yields_skip_cons (all vs listed)))
    exact holds

theorem yields_separated {item : Plan} {separator : String} {property : Value α → Prop}
    (each : ∀ us, item.Yields good us → ∃ v, property v ∧ us = [v])
    (yields : (separated item separator).Yields good vs) :
    ∃ items, (∀ v ∈ items, property v) ∧ vs = [.list items] :=
  yields_list each (fun us none => by simpa [Yields, YieldsAll] using none) yields

theorem one_of_yields_read (name : String) (us : List (Value α))
    (yields : (read name).Yields good us) : ∃ v, (∃ a, good name a ∧ v = .own a) ∧ us = [v] := by
  obtain ⟨a, holds, rfl⟩ := yields_read.mp yields
  exact ⟨.own a, ⟨a, holds, rfl⟩, rfl⟩

theorem exists_members? {β : Type} {sort : α → Option β} {property : α → Prop}
    {items : List (Value α)} (sorted : ∀ a, property a → ∃ b, sort a = some b)
    (each : ∀ v ∈ items, ∃ a, property a ∧ v = .own a) :
    ∃ bs, members? sort items = some bs := by
  refine exists_mapM fun v member => ?_
  obtain ⟨a, holds, rfl⟩ := each v member
  exact sorted a holds

theorem value_builds {name : String} {plan : Plan} {f : List (Value α) → Option α}
    (builds : ∀ vs, plan.Yields good vs → ∃ v, f vs = some v ∧ good name v) :
    (⟨plan, value f⟩ : Parsing.Alternative σ α).Builds good name := by
  refine ⟨fun vs s yields => ?_, fun vs s r => ?_⟩
  · obtain ⟨v, built, holds⟩ := builds vs yields
    exact ⟨.ok v, s, by simp [value, built], .inl ⟨v, rfl, holds⟩⟩
  · simp only [value, Option.map_map]
    rfl

namespace Calculator

theorem yields_operation (yields : operation.Yields good vs) :
    ∃ left kind right, good "term" left ∧ good "expression" right ∧
      vs = [.own left, .kind kind, .own right] := by
  simp only [operation, Yields, YieldsAll, YieldsSome, yields_read, useYields, useToken] at yields
  grind

theorem regular : rules.Regular fun _ _ => True := by
  intro name a member
  change a ∈ alternatives name at member
  unfold alternatives at member
  split at member
  · simp only [List.mem_cons, List.not_mem_nil, or_false] at member
    rcases member with rfl | rfl
    · refine ⟨by decide, by decide, by decide, value_builds fun vs yields => ?_⟩
      obtain ⟨left, kind, right, -, -, rfl⟩ := yields_operation yields
      exact ⟨_, rfl, trivial⟩
    · refine ⟨by decide, by decide, by decide, value_builds fun vs yields => ?_⟩
      obtain ⟨n, -, rfl⟩ := yields_read.mp yields
      exact ⟨_, rfl, trivial⟩
  · simp only [List.mem_cons, List.not_mem_nil, or_false] at member
    rcases member with rfl | rfl
    · refine ⟨by decide, by decide, by decide, value_builds fun vs yields => ?_⟩
      obtain ⟨n, -, rfl⟩ := yields_read.mp (yields_one (yields_skip_cons yields))
      exact ⟨_, rfl, trivial⟩
    · refine ⟨by decide, by decide, by decide, value_builds fun vs yields => ?_⟩
      obtain ⟨n, -, rfl⟩ := yields_read.mp yields
      exact ⟨_, rfl, trivial⟩
  · simp only [List.mem_cons, List.not_mem_nil, or_false] at member
    rcases member with rfl | rfl
    · refine ⟨by decide, by decide, by decide, fun vs converted yields => ?_, fun vs s r => ?_⟩
      · obtain ⟨t, rfl⟩ := yields_token yields
        exact ⟨_, _, rfl, .inl ⟨_, rfl, trivial⟩⟩
      · dsimp only
        split <;> rfl
    · refine ⟨by decide, by decide, by decide, value_builds fun vs yields => ?_⟩
      obtain ⟨n, -, rfl⟩ := yields_read.mp (yields_cons_skip (yields_skip_cons yields))
      exact ⟨_, rfl, trivial⟩
  · cases member

end Calculator

namespace SyntaxTree

theorem regular : rules.Regular fun _ _ => True := by
  intro name a member
  change a ∈ alternatives name at member
  unfold alternatives at member
  split at member
  · simp only [List.mem_cons, List.not_mem_nil, or_false] at member
    rcases member with rfl | rfl
    · refine ⟨by decide, by decide, by decide, value_builds fun vs yields => ?_⟩
      obtain ⟨left, kind, right, -, -, rfl⟩ := Calculator.yields_operation yields
      exact ⟨_, rfl, trivial⟩
    · refine ⟨by decide, by decide, by decide, value_builds fun vs yields => ?_⟩
      obtain ⟨n, -, rfl⟩ := yields_read.mp yields
      exact ⟨_, rfl, trivial⟩
  · simp only [List.mem_cons, List.not_mem_nil, or_false] at member
    rcases member with rfl | rfl
    · refine ⟨by decide, by decide, by decide, value_builds fun vs yields => ?_⟩
      obtain ⟨n, -, rfl⟩ := yields_read.mp (yields_one (yields_skip_cons yields))
      exact ⟨_, rfl, trivial⟩
    · refine ⟨by decide, by decide, by decide, value_builds fun vs yields => ?_⟩
      obtain ⟨n, -, rfl⟩ := yields_read.mp yields
      exact ⟨_, rfl, trivial⟩
  · simp only [List.mem_cons, List.not_mem_nil, or_false] at member
    rcases member with rfl | rfl
    · refine ⟨by decide, by decide, by decide, value_builds fun vs yields => ?_⟩
      obtain ⟨t, rfl⟩ := yields_token yields
      exact ⟨_, rfl, trivial⟩
    · refine ⟨by decide, by decide, by decide, value_builds fun vs yields => ?_⟩
      have inner := yields_cons_skip (yields_skip_cons yields)
      rw [Yields] at inner
      rcases inner with rfl | inner
      · exact ⟨_, rfl, trivial⟩
      · obtain ⟨n, -, rfl⟩ := yields_read.mp inner
        exact ⟨_, rfl, trivial⟩
  · cases member

end SyntaxTree

namespace Table

def Part.builder : Part → String
  | .table _ => "table"
  | .line _ => "line"
  | .number _ => "number"

theorem line?_of_builder (part : Part) (built : part.builder = "line") :
    ∃ numbers, part.line? = some numbers := by
  cases part <;> simp_all [Part.builder, Part.line?]

theorem number?_of_builder (part : Part) (built : part.builder = "number") :
    ∃ n, part.number? = some n := by
  cases part <;> simp_all [Part.builder, Part.number?]

theorem yields_table
    (yields : (Plan.sequence [sequence [separated (.token "Field" .text) "Comma"],
      sequence [skip "NewLine", separated (read "line") "NewLine",
        .optional (skip "NewLine") .nothing]]).Yields good vs) :
    ∃ header rows, vs = [.list header, .list rows] ∧
      (∀ v ∈ header, ∃ cs, v.text? = some cs) ∧ ∀ v ∈ rows, ∃ a, good "line" a ∧ v = .own a := by
  have each (us : List (Value α)) (inner : (token "Field" .text).Yields good us) :
      ∃ v, (∃ cs, v.text? = some cs) ∧ us = [v] := by
    obtain ⟨t, -, rfl⟩ := inner
    exact ⟨.text t.text, ⟨t.text, rfl⟩, rfl⟩
  obtain ⟨us, ws, first, rest, rfl⟩ := yields
  obtain ⟨header, texts, rfl⟩ := yields_separated each (yields_one first)
  obtain ⟨us, ws, second, last, rfl⟩ := yields_skip_cons (yields_one rest)
  obtain ⟨rows, lines, rfl⟩ := yields_separated (one_of_yields_read _) second
  obtain rfl : ws = [] := yields_one last
  exact ⟨header, rows, rfl, texts, lines⟩

theorem regular : rules.Regular fun name part => part.builder = name := by
  intro name a member
  change a ∈ alternatives name at member
  unfold alternatives at member
  split at member
  · obtain rfl := List.mem_singleton.mp member
    refine ⟨by decide, by decide, by decide, value_builds fun vs yields => ?_⟩
    obtain ⟨header, rows, rfl, texts, lines⟩ := yields_table yields
    obtain ⟨names, named⟩ := exists_mapM texts
    obtain ⟨numbers, listed⟩ := exists_members? line?_of_builder lines
    exact ⟨_, by simp only [named, listed]; rfl, rfl⟩
  · obtain rfl := List.mem_singleton.mp member
    refine ⟨by decide, by decide, by decide, value_builds fun vs yields => ?_⟩
    obtain ⟨items, each, rfl⟩ := yields_separated (one_of_yields_read _) yields
    obtain ⟨numbers, listed⟩ := exists_members? number?_of_builder each
    exact ⟨.line numbers, by simp only [listed]; rfl, rfl⟩
  · obtain rfl := List.mem_singleton.mp member
    refine ⟨by decide, by decide, by decide, value_builds fun vs yields => ?_⟩
    obtain ⟨t, rfl⟩ := yields_token yields
    exact ⟨_, rfl, rfl⟩
  · cases member

end Table

namespace GameRecord

def Part.builder : Part → String
  | .games _ => "games"
  | .game _ => "game"
  | .round _ => "round"
  | .count _ _ => "colourCount"
  | .colour _ => "colour"
  | .number _ => "number"

theorem game?_of_builder (part : Part) (built : part.builder = "game") :
    ∃ g, part.game? = some g := by
  cases part <;> simp_all [Part.builder, Part.game?]

theorem round?_of_builder (part : Part) (built : part.builder = "round") :
    ∃ counts, part.round? = some counts := by
  cases part <;> simp_all [Part.builder, Part.round?]

theorem count?_of_builder (part : Part) (built : part.builder = "colourCount") :
    ∃ entry, part.count? = some entry := by
  cases part <;> simp_all [Part.builder, Part.count?]

theorem number_of_builder (part : Part) (built : part.builder = "number") :
    ∃ n, part = .number n := by
  cases part <;> simp_all [Part.builder]

theorem colour_of_builder (part : Part) (built : part.builder = "colour") :
    ∃ c, part = .colour c := by
  cases part <;> simp_all [Part.builder]

theorem ofList_expected (entries : List (Colour × UInt32)) :
    (∃ counts, Counts.ofList entries = .ok counts) ∨
      Counts.ofList entries = .error .additionOverflow := by
  rw [Counts.ofList]
  generalize (fun _ => none : Counts) = counts
  induction entries generalizing counts with
  | nil => exact .inl ⟨counts, rfl⟩
  | cons entry entries ih =>
    rw [List.foldlM_cons, Counts.add]
    by_cases inside : ((counts entry.1).getD 0).toNat + entry.2.toNat ≤ wordLimit
    · rw [Sample.add, if_pos inside]
      exact ih _
    · rw [Sample.add, if_neg inside]
      exact .inr rfl

theorem yields_game (yields : (Plan.sequence [sequence [skip "Game", read "number"],
      sequence [skip "Colon", separated (read "round") "Semicolon"]]).Yields good vs) :
    ∃ n rounds, vs = [.own n, .list rounds] ∧ good "number" n ∧
      ∀ v ∈ rounds, ∃ a, good "round" a ∧ v = .own a := by
  obtain ⟨us, ws, first, rest, rfl⟩ := yields
  obtain ⟨n, number, rfl⟩ := yields_read.mp (yields_one (yields_skip_cons first))
  obtain ⟨rounds, each, rfl⟩ := yields_separated (one_of_yields_read _)
    (yields_one (yields_skip_cons (yields_one rest)))
  exact ⟨n, rounds, rfl, number, each⟩

theorem yields_colourCount
    (yields : (Plan.sequence [sequence [read "number"], sequence [read "colour"]]).Yields good vs) :
    ∃ n c, vs = [.own n, .own c] ∧ good "number" n ∧ good "colour" c := by
  obtain ⟨us, ws, first, rest, rfl⟩ := yields
  obtain ⟨n, number, rfl⟩ := yields_read.mp (yields_one first)
  obtain ⟨c, colour, rfl⟩ := yields_read.mp (yields_one (yields_one rest))
  exact ⟨n, c, rfl, number, colour⟩

theorem regular : rules.Regular fun name part => part.builder = name := by
  intro name a member
  change a ∈ alternatives name at member
  unfold alternatives at member
  split at member
  · obtain rfl := List.mem_singleton.mp member
    refine ⟨by decide, by decide, by decide, value_builds fun vs yields => ?_⟩
    have silent (us : List (Value Part)) (last : (Plan.sequence [.optional (skip "NewLine")
        .nothing]).Yields (fun name part => part.builder = name) us) : us = [] := yields_one last
    obtain ⟨items, each, rfl⟩ := yields_list (one_of_yields_read _) silent yields
    obtain ⟨games, listed⟩ := exists_members? game?_of_builder each
    exact ⟨.games games, by simp only [listed]; rfl, rfl⟩
  · obtain rfl := List.mem_singleton.mp member
    refine ⟨by decide, by decide, by decide, value_builds fun vs yields => ?_⟩
    obtain ⟨n, items, rfl, number, each⟩ := yields_game yields
    obtain ⟨id, rfl⟩ := number_of_builder n number
    obtain ⟨rounds, listed⟩ := exists_members? round?_of_builder each
    exact ⟨.game ⟨id, rounds⟩, by simp only [listed]; rfl, rfl⟩
  · obtain rfl := List.mem_singleton.mp member
    refine ⟨by decide, by decide, by decide, fun vs s yields => ?_, fun vs s r => rfl⟩
    obtain ⟨items, each, rfl⟩ := yields_separated (one_of_yields_read _) yields
    obtain ⟨entries, listed⟩ := exists_members? count?_of_builder each
    refine ⟨(Counts.ofList entries).map .round, s, by simp only [round, listed]; rfl, ?_⟩
    rcases ofList_expected entries with ⟨counts, summed⟩ | overflow
    · exact .inl ⟨.round counts, by rw [summed]; rfl, rfl⟩
    · exact .inr (by rw [overflow]; rfl)
  · obtain rfl := List.mem_singleton.mp member
    refine ⟨by decide, by decide, by decide, value_builds fun vs yields => ?_⟩
    obtain ⟨n, c, rfl, number, colour⟩ := yields_colourCount yields
    obtain ⟨n, rfl⟩ := number_of_builder n number
    obtain ⟨c, rfl⟩ := colour_of_builder c colour
    exact ⟨_, rfl, rfl⟩
  · obtain rfl := List.mem_singleton.mp member
    refine ⟨by decide, by decide, by decide, value_builds fun vs yields => ?_⟩
    simp only [Yields, YieldsSome, useYields, useToken, or_false] at yields
    rcases yields with ⟨t, -, rfl⟩ | ⟨t, -, rfl⟩ | ⟨t, -, rfl⟩ <;> exact ⟨_, rfl, rfl⟩
  · obtain rfl := List.mem_singleton.mp member
    refine ⟨by decide, by decide, by decide, value_builds fun vs yields => ?_⟩
    obtain ⟨t, rfl⟩ := yields_token yields
    exact ⟨_, rfl, rfl⟩
  · cases member

end GameRecord

namespace Items

def Part.builder : Part → String
  | .items _ => "items"
  | .number _ => "number"

theorem number_of_builder (part : Part) (built : part.builder = "number") :
    ∃ n, part = .number n := by
  cases part <;> simp_all [Part.builder]

theorem number?_of_builder (part : Part) (built : part.builder = "number") :
    ∃ n, part.number? = some n := by
  obtain ⟨n, rfl⟩ := number_of_builder part built
  exact ⟨n, rfl⟩

theorem list_regular {rank : String → Nat} (lower : rank "number" < rank "items") :
    list.Regular rank (fun name part => part.builder = name) "items" := by
  have calls : list.plan.firstCalls = ["number"] := by decide
  refine ⟨by decide, by decide, by simpa [calls] using lower, value_builds fun vs yields => ?_⟩
  obtain ⟨items, each, rfl⟩ := yields_separated (one_of_yields_read _) yields
  obtain ⟨numbers, listed⟩ := exists_members? number?_of_builder each
  exact ⟨.items numbers, by simp only [listed]; rfl, rfl⟩

theorem single_regular {rank : String → Nat} (lower : rank "number" < rank "items") :
    single.Regular rank (fun name part => part.builder = name) "items" := by
  have calls : single.plan.firstCalls = ["number"] := by decide
  refine ⟨by decide, by decide, by simpa [calls] using lower, value_builds fun vs yields => ?_⟩
  obtain ⟨part, number, rfl⟩ := yields_read.mp yields
  obtain ⟨n, rfl⟩ := number_of_builder part number
  exact ⟨_, rfl, rfl⟩

theorem regular {items : List (Parsing.Alternative Unit Part)}
    (two : ∀ a ∈ items, a = list ∨ a = single) :
    (rules items).Regular fun name part => part.builder = name := by
  -- The order of the two alternatives plays no part.
  intro name a member
  change a ∈ alternatives items name at member
  unfold alternatives at member
  split at member
  · have lower : (rules items).rank "number" < (rules items).rank "items" := by
      change 2 - List.idxOf "number" ["items", "number"] < 2 - List.idxOf "items" ["items", "number"]
      decide
    rcases two a member with rfl | rfl
    · exact list_regular lower
    · exact single_regular lower
  · obtain rfl := List.mem_singleton.mp member
    refine ⟨by decide, by decide, by simp [firstCalls], value_builds fun vs yields => ?_⟩
    obtain ⟨t, rfl⟩ := yields_token yields
    exact ⟨_, rfl, rfl⟩
  · cases member

end Items

namespace Levels

theorem mem_table {name : String} {a : Parsing.Alternative Nat UInt32}
    (member : a ∈ rules.alternatives name) : ∃ as, (name, as) ∈ table ∧ a ∈ as := by
  change a ∈ (table.lookup name).getD [] at member
  cases found : table.lookup name with
  | none =>
    rw [found] at member
    cases member
  | some as =>
    rw [found] at member
    obtain ⟨front, back, split, -⟩ := List.lookup_eq_some_iff.mp found
    exact ⟨as, by simp [split], member⟩

theorem plans_regular : ∀ entry ∈ table, ∀ a ∈ entry.2, a.plan.takesToken = true ∧
    a.plan.joinsLists = true ∧
    ∀ callee ∈ a.plan.firstCalls, rules.rank callee < rules.rank entry.1 := by
  -- Every level is declared before the one that it asks for.
  decide +kernel

theorem pass_even : pass.Even := by
  intro vs s r
  unfold pass
  split <;> rfl

theorem pass_builds {name : String} {plan : Plan}
    (one : ∀ vs : List (Value UInt32), plan.Yields (fun _ _ => True) vs → ∃ n, vs = [.own n]) :
    (⟨plan, pass⟩ : Parsing.Alternative Nat UInt32).Builds (fun _ _ => True) name := by
  refine ⟨fun vs passes yields => ?_, pass_even⟩
  obtain ⟨n, rfl⟩ := one vs yields
  exact ⟨_, _, rfl, .inl ⟨n, rfl, trivial⟩⟩

theorem above_builds {i : Nat} {name : String} {a : Parsing.Alternative Nat UInt32}
    (member : a ∈ above i) : a.Builds (fun _ _ => True) name := by
  obtain ⟨kind, -, rfl⟩ := List.mem_map.mp member
  refine pass_builds fun vs yields => ?_
  obtain ⟨n, -, rfl⟩ := yields_read.mp (yields_cons_skip yields)
  exact ⟨n, rfl⟩

theorem table_builds {entry : String × List (Parsing.Alternative Nat UInt32)}
    (listed : entry ∈ table) :
    ∀ a ∈ entry.2, a.Builds (fun _ _ => True) entry.1 := by
  intro a member
  simp only [table, levels, List.mem_append, List.mem_cons, List.mem_map, List.not_mem_nil,
    or_false] at listed
  rcases listed with (rfl | ⟨i, -, rfl⟩) | rfl | rfl
  · rcases List.mem_append.mp member with higher | number
    · exact above_builds higher
    · obtain rfl := List.mem_singleton.mp number
      refine pass_builds fun vs yields => ?_
      obtain ⟨n, -, rfl⟩ := yields_read.mp yields
      exact ⟨n, rfl⟩
  · exact above_builds member
  · obtain rfl := List.mem_singleton.mp member
    refine pass_builds fun vs yields => ?_
    obtain ⟨n, -, rfl⟩ := yields_read.mp (yields_one (yields_skip_cons yields))
    exact ⟨n, rfl⟩
  · obtain rfl := List.mem_singleton.mp member
    refine value_builds fun vs yields => ?_
    obtain ⟨t, rfl⟩ := yields_token yields
    exact ⟨_, rfl, trivial⟩

theorem regular : rules.Regular fun _ _ => True := by
  intro name a member
  obtain ⟨as, listed, member⟩ := mem_table member
  obtain ⟨takes, joins, lower⟩ := plans_regular (name, as) listed a member
  exact ⟨takes, joins, lower, table_builds listed a member⟩

end Levels

inductive Language where
  | calculator
  | syntaxTree
  | table
  | gameRecord
  | greedy
  | lazy
  | levels
  deriving DecidableEq, Repr

namespace Language

abbrev State : Language → Type
  | .calculator | .levels => Nat
  | .syntaxTree | .table | .gameRecord | .greedy | .lazy => Unit

abbrev Part : Language → Type
  | .calculator => Int64
  | .syntaxTree => SyntaxTree
  | .table => Table.Part
  | .gameRecord => GameRecord.Part
  | .greedy | .lazy => Items.Part
  | .levels => UInt32

def rules : (l : Language) → Rules l.State l.Part
  | .calculator => Calculator.rules
  | .syntaxTree => SyntaxTree.rules
  | .table => Table.rules
  | .gameRecord => GameRecord.rules
  | .greedy => Items.greedy
  | .lazy => Items.lazy
  | .levels => Levels.rules

theorem rules_regular (l : Language) : ∃ good, l.rules.Regular good := by
  cases l with
  | calculator => exact ⟨_, Calculator.regular⟩
  | syntaxTree => exact ⟨_, SyntaxTree.regular⟩
  | table => exact ⟨_, Table.regular⟩
  | gameRecord => exact ⟨_, GameRecord.regular⟩
  | greedy => exact ⟨_, Items.regular (by simp)⟩
  | lazy => exact ⟨_, Items.regular (by simp)⟩
  | levels => exact ⟨_, Levels.regular⟩

/-- Keeping outcomes changes neither the answer nor the place where reading ends, on any text of
which the size is an offset. No outcome is recorded twice, which would stop the run with a fault,
and none ends before it begins. What a call gives stands in the tables from then on, and the next
call of that non-terminal there gives it again and tries nothing. -/
theorem parse_eq_parsePlain (l : Language) (name : String) {text : List Char} {offset : Nat}
    (logic : l.State) (short : Text.byteSize text < offsetLimit)
    (boundary : Text.isBoundary text offset = true) :
    ∃ answer tape, (∃ after, l.rules.parse name ⟨text, offset⟩ logic = (answer, tape, after)) ∧
      (∀ n, l.rules.depth ⟨text, offset⟩ ≤ n →
        ∃ after, l.rules.parsePlain n name ⟨text, offset⟩ logic = (answer, tape, after)) ∧
      answer ≠ .error .stuck ∧
      (∀ place, answer ≠ .error (.fault (.evaluatedTwice place))) ∧
      answer ≠ .error (.fault .subtractionOverflow) ∧ l.rules.EvaluatesOnce := by
  obtain ⟨good, regular⟩ := l.rules_regular
  have within : ({ text, offset } : Tape).Within text offset :=
    ⟨rfl, boundary, Nat.le_refl offset⟩
  obtain ⟨found, tape, parsed, without, expected⟩ := regular.parse_eq name logic within short
  have stops (stop : Stop) (answered : Rules.answer name offset found = .error stop) :
      stop.Expected := by
    match found with
    | .ok none =>
      cases answered
      exact .error _
    | .error e =>
      cases answered
      exact expected stop rfl
  refine ⟨_, tape, parsed, without, fun stuck => ?_, fun place twice => ?_, fun below => ?_,
    l.rules.evaluatesOnce⟩
  · cases stops _ stuck
  · cases stops _ twice
  · cases stops _ below

theorem calculator_parse_negation :
    Text.byteSize "é-1".toList < offsetLimit ∧ Text.isBoundary "é-1".toList 2 = true ∧
      ∃ after, calculator.rules.parse "expression" ⟨"é-1".toList, 2⟩ (0 : Nat) =
        (.ok (.own (-1)), ⟨"é-1".toList, 4⟩, after) := by
  have short : Text.byteSize "é-1".toList < offsetLimit := by decide +kernel
  have boundary : Text.isBoundary "é-1".toList 2 = true := by decide +kernel
  obtain ⟨answer, tape, ⟨after, parsed⟩, without, -⟩ :=
    parse_eq_parsePlain .calculator "expression" (0 : Nat) short boundary
  have read : calculator.rules.parsePlain 12 "expression" ⟨"é-1".toList, 2⟩ (0 : Nat) =
      (.ok (.own (-1)), ⟨"é-1".toList, 4⟩, 2) := by
    cbv
  obtain ⟨_, same⟩ := without 12 (by decide +kernel)
  rw [same] at read
  cases read
  exact ⟨short, boundary, after, parsed⟩

end Language

end Pegsmith.Sample
