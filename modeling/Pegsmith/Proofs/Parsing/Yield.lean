import Pegsmith.Parsing.Rules
import Pegsmith.Proofs.Results

set_option autoImplicit false

namespace Pegsmith

namespace Plan

mutual

/-- Whether a match always takes a token, where a match of a non-terminal does. -/
def takesToken : Plan → Bool
  | .token _ _ | .call _ _ _ => true
  | .sequence parts | .concat parts => anyTakesToken parts
  | .single inner | .present inner | .pack inner | .collect inner _ => inner.takesToken
  | .loop inner atLeastOne _ => atLeastOne && inner.takesToken
  | .optional _ _ => false
  | .choice branches => allTakeToken branches

def anyTakesToken : List Plan → Bool
  | [] => false
  | p :: ps => p.takesToken || anyTakesToken ps

def allTakeToken : List Plan → Bool
  | [] => true
  | p :: ps => p.takesToken && allTakeToken ps

end

mutual

def firstCalls : Plan → List String
  | .token _ _ => []
  | .call name _ _ => [name]
  | .sequence parts | .concat parts => firstCallsOf parts
  | .single inner | .present inner | .pack inner | .collect inner _ | .loop inner _ _
  | .optional inner _ => inner.firstCalls
  | .choice branches => branchCalls branches

def firstCallsOf : List Plan → List String
  | [] => []
  | p :: ps => p.firstCalls ++ if p.takesToken then [] else firstCallsOf ps

def branchCalls : List Plan → List String
  | [] => []
  | p :: ps => p.firstCalls ++ branchCalls ps

end

def listsOnly : Plan → Bool
  | .single _ | .concat _ | .loop _ _ _ => true
  | .token _ use => use == .nothing
  | .call _ keep _ => !keep
  | .optional _ fallback => fallback == .nothing
  | _ => false

mutual

def joinsLists : Plan → Bool
  | .token _ _ | .call _ _ _ => true
  | .sequence parts | .choice parts => allJoinLists parts
  | .concat parts => parts.all listsOnly && allJoinLists parts
  | .single inner | .present inner | .pack inner | .collect inner _ | .loop inner _ _
  | .optional inner _ => inner.joinsLists

def allJoinLists : List Plan → Bool
  | [] => true
  | p :: ps => p.joinsLists && allJoinLists ps

end

section

open Parsing

variable {α : Type} (good : String → α → Prop)

def useYields (kind : String) (use : TokenUse) (vs : List (Value α)) : Prop :=
  ∃ t : Token, t.kind = kind ∧ vs = useToken use t

mutual

def Yields : Plan → List (Value α) → Prop
  | .token kind use, vs => useYields kind use vs
  | .call name keep _, vs => ∃ a, good name a ∧ vs = if keep then [.own a] else []
  | .sequence parts, vs => YieldsAll parts vs
  | .single inner, vs => ∃ us, Yields inner us ∧ vs = [.list [Value.together us]]
  | .present inner, vs => ∃ us, Yields inner us ∧ vs = [.present (Value.together us)]
  | .pack inner, vs => ∃ us, Yields inner us ∧ vs = [.tuple us]
  | .collect inner _, vs => Yields inner vs
  | .concat parts, vs =>
      ∃ us items, YieldsAll parts us ∧ Value.concat? us = some items ∧ vs = [.list items]
  | .loop inner _ keep, vs =>
      ∃ found : List (List (Value α)), (∀ us ∈ found, Yields inner us) ∧
        vs = if keep then [.list (found.map Value.together)] else []
  | .optional inner fallback, vs =>
      match if inner.arity = 0 then .nothing else fallback with
      | .nothing => vs = []
      | .keep => vs = [.missing] ∨ ∃ us, Yields inner us ∧ vs = [.present (Value.together us)]
      | .default => vs = List.replicate inner.arity .default ∨ Yields inner vs
  | .choice branches, vs => YieldsSome branches vs

def YieldsAll : List Plan → List (Value α) → Prop
  | [], vs => vs = []
  | p :: ps, vs => ∃ us ws, Yields p us ∧ YieldsAll ps ws ∧ vs = us ++ ws

def YieldsSome : List Plan → List (Value α) → Prop
  | [], _ => False
  | p :: ps, vs => Yields p vs ∨ YieldsSome ps vs

end

variable {good}

theorem items?_isSome_of_yields {p : Plan} {vs : List (Value α)} (lists : p.listsOnly = true)
    (yields : p.Yields good vs) : ∀ v ∈ vs, (v.items?).isSome = true := by
  intro v member
  cases p with
  | token kind use =>
    obtain rfl : use = .nothing := by simpa [listsOnly] using lists
    obtain ⟨_, -, rfl⟩ := yields
    cases member
  | call name keep into =>
    obtain rfl : keep = false := by simpa [listsOnly] using lists
    obtain ⟨_, -, rfl⟩ := yields
    cases member
  | single inner =>
    obtain ⟨us, -, rfl⟩ := yields
    obtain rfl := List.mem_singleton.mp member
    rfl
  | concat parts =>
    obtain ⟨us, items, -, -, rfl⟩ := yields
    obtain rfl := List.mem_singleton.mp member
    rfl
  | loop inner atLeastOne keep =>
    obtain ⟨found, -, rfl⟩ := yields
    cases keep with
    | false => cases member
    | true =>
      obtain rfl := List.mem_singleton.mp member
      rfl
  | optional inner fallback =>
    obtain rfl : fallback = .nothing := by simpa [listsOnly] using lists
    rw [Yields, ite_self] at yields
    subst yields
    cases member
  | sequence | present | pack | collect | choice => cases lists

theorem items?_isSome_of_yieldsAll {ps : List Plan} {vs : List (Value α)}
    (lists : ps.all listsOnly = true) (yields : YieldsAll good ps vs) :
    ∀ v ∈ vs, (v.items?).isSome = true := by
  induction ps generalizing vs with
  | nil =>
    obtain rfl := yields
    intro v member
    cases member
  | cons p ps ih =>
    obtain ⟨us, ws, first, rest, rfl⟩ := yields
    rw [List.all_cons, Bool.and_eq_true] at lists
    intro v member
    rcases List.mem_append.mp member with here | further
    · exact items?_isSome_of_yields lists.1 first v here
    · exact ih lists.2 rest v further

theorem exists_concat?_of_yields {ps : List Plan} {vs : List (Value α)}
    (lists : ps.all listsOnly = true) (yields : YieldsAll good ps vs) :
    ∃ items, Value.concat? vs = some items := by
  obtain ⟨lists, mapped⟩ := exists_mapM fun v member =>
    Option.isSome_iff_exists.mp (items?_isSome_of_yieldsAll lists yields v member)
  exact ⟨lists.flatten, by rw [Value.concat?, mapped]; rfl⟩

end

end Plan

end Pegsmith
