import Mathlib
import Pegsmith.Proofs.Plan.Search

set_option autoImplicit false

namespace Pegsmith

inductive Joint where
  | inOrder
  | firstOf
  deriving DecidableEq

inductive Outline where
  | token (kind : String) (valued : Bool)
  | call (nonTerminal : String) (valued : Bool)
  | join (how : Joint) (parts : List Outline)
  | loop (body : Outline) (atLeastOne : Bool)
  | optional (body : Outline)

namespace Outline

def parts (how : Joint) : Outline → List Outline
  | .join kind parts => if kind = how then parts else [.join kind parts]
  | o => [o]

def gather (how : Joint) : List Outline → Outline
  | [o] => o
  | os => .join how os

mutual

/-- Joins inside of a join of their kind become part of it, and joins of one part are left out. -/
def flat : Outline → Outline
  | .token kind valued => .token kind valued
  | .call nonTerminal valued => .call nonTerminal valued
  | .join how parts => gather how (flatParts how parts)
  | .loop body atLeastOne => .loop body.flat atLeastOne
  | .optional body => .optional body.flat

def flatParts (how : Joint) : List Outline → List Outline
  | [] => []
  | o :: os => o.flat.parts how ++ flatParts how os

end

inductive Flat : Outline → Prop where
  | token {kind : String} {valued : Bool} : Flat (.token kind valued)
  | call {nonTerminal : String} {valued : Bool} : Flat (.call nonTerminal valued)
  | join {how : Joint} {os : List Outline} (count : os.length ≠ 1)
      (flat : ∀ o ∈ os, Flat o) (apart : ∀ o ∈ os, o.parts how = [o]) : Flat (.join how os)
  | loop {body : Outline} {atLeastOne : Bool} (flat : Flat body) : Flat (.loop body atLeastOne)
  | optional {body : Outline} (flat : Flat body) : Flat (.optional body)

theorem Flat.parts {o : Outline} (normal : o.Flat) (how : Joint) :
    ∀ part ∈ o.parts how, part.Flat ∧ part.parts how = [part] := by
  cases normal with
  | @join kind os count flat apart =>
    by_cases same : kind = how
    · subst same
      intro part member
      rw [Outline.parts, if_pos rfl] at member
      exact ⟨flat part member, apart part member⟩
    · simpa [Outline.parts, same] using Flat.join count flat apart
  | token | call | loop | optional =>
    intro part member
    cases List.mem_singleton.mp member
    exact ⟨by constructor; try assumption, rfl⟩

theorem Flat.gather {how : Joint} {os : List Outline}
    (each : ∀ o ∈ os, o.Flat ∧ o.parts how = [o]) : (Outline.gather how os).Flat := by
  have flat (o : Outline) (member : o ∈ os) : o.Flat := (each o member).1
  have apart (o : Outline) (member : o ∈ os) : o.parts how = [o] := (each o member).2
  match os with
  | [o] => exact flat o (by simp)
  | [] => exact .join (by simp) flat apart
  | _ :: _ :: _ => exact .join (by simp) flat apart

mutual

theorem flat_flat : (o : Outline) → o.flat.Flat
  | .token _ _ => .token
  | .call _ _ => .call
  | .join how os => Flat.gather (flatParts_flat how os)
  | .loop body _ => .loop (flat_flat body)
  | .optional body => .optional (flat_flat body)

theorem flatParts_flat (how : Joint) :
    (os : List Outline) → ∀ o ∈ flatParts how os, o.Flat ∧ o.parts how = [o]
  | [] => by simp [flatParts]
  | o :: os => by
    intro part member
    rw [flatParts, List.mem_append] at member
    cases member with
    | inl first => exact (flat_flat o).parts how part first
    | inr later => exact flatParts_flat how os part later

end

theorem parts_gather {how : Joint} {os : List Outline} (each : ∀ o ∈ os, o.parts how = [o]) :
    (gather how os).parts how = os := by
  match os, each with
  | [o], each => exact each o (by simp)
  | [], _ => simp [gather, parts]
  | _ :: _ :: _, _ => simp [gather, parts]

theorem Flat.gather_parts {o : Outline} (normal : o.Flat) (how : Joint) :
    Outline.gather how (o.parts how) = o := by
  cases normal with
  | @join kind os count _ _ =>
    by_cases same : kind = how
    · subst same
      simp only [Outline.parts, if_true]
      match os, count with
      | [], _ => rfl
      | _ :: _ :: _, _ => rfl
    · simp [Outline.parts, same, Outline.gather]
  | token | call | loop | optional => rfl

def pieces (how : Joint) (o : Outline) : List Outline :=
  o.flat.parts how

theorem flatParts_eq (how : Joint) (os : List Outline) :
    flatParts how os = os.flatMap (pieces how) := by
  induction os with
  | nil => rfl
  | cons o os ih => simp [flatParts, pieces, ih]

theorem pieces_join (how : Joint) (os : List Outline) :
    (Outline.join how os).pieces how = os.flatMap (pieces how) := by
  rw [← flatParts_eq, pieces, flat]
  exact parts_gather fun o member => (flatParts_flat how os o member).2

theorem flat_eq_of_pieces_eq (how : Joint) {a b : Outline} (same : a.pieces how = b.pieces how) :
    a.flat = b.flat := by
  -- A flat outline is what its own parts gather to, whatever the kind of join.
  rw [← (flat_flat a).gather_parts how, ← (flat_flat b).gather_parts how]
  exact congrArg (gather how) same

theorem flatMap_pieces_eq {α β : Type} {how : Joint} {f : α → Outline} {g : β → Outline}
    {xs : List α} {ys : List β}
    (same : xs.map (fun x => (f x).flat) = ys.map fun y => (g y).flat) :
    xs.flatMap (fun x => (f x).pieces how) = ys.flatMap fun y => (g y).pieces how := by
  have joined := congrArg (fun os => os.flatMap (parts how)) same
  simp only [List.flatMap_map] at joined
  exact joined

end Outline

/-- What a pattern matches. Groups only group, and what is discarded has no value. -/
def Pattern.outline (kept : Bool) : Pattern → Outline
  | .terminal kind _ => .token kind kept
  | .nonTerminal name => .call name kept
  | .sequence first second => .join .inOrder [first.outline kept, second.outline kept]
  | .choice first second => .join .firstOf [first.outline kept, second.outline kept]
  | .zeroOrMore inner => .loop (inner.outline kept) false
  | .oneOrMore inner => .loop (inner.outline kept) true
  | .optional inner => .optional (inner.outline kept)
  | .group inner => inner.outline kept
  | .discard inner => inner.outline false

namespace Plan

mutual

/-- What a plan matches. How values are wrapped is left out. -/
def outline : Plan → Outline
  | .token kind use => .token kind (use ≠ .nothing)
  | .call nonTerminal keep _ => .call nonTerminal keep
  | .sequence parts | .concat parts => .join .inOrder (outlines parts)
  | .single inner | .present inner | .pack inner | .collect inner _ => inner.outline
  | .loop inner atLeastOne _ => .loop inner.outline atLeastOne
  | .optional inner _ => .optional inner.outline
  | .choice branches => .join .firstOf (outlines branches)

def outlines : List Plan → List Outline
  | [] => []
  | p :: ps => p.outline :: outlines ps

end

theorem outlines_eq (ps : List Plan) : outlines ps = ps.map outline := by
  induction ps with
  | nil => rfl
  | cons p ps ih => simp [outlines, ih]

theorem outline_convert (demand : Demand) (plan : Plan) :
    (FitContext.convert demand plan).outline = plan.outline := by
  obtain kept | ⟨type, item, -, collected⟩ := FitContext.convert_cases demand plan
  · rw [kept]
  · rw [collected]
    rfl

end Plan

namespace Pattern

theorem pieces_items (kept : Bool) (p : Pattern) :
    (p.outline kept).pieces .inOrder =
      p.items.flatMap fun item => (item.outline kept).pieces .inOrder := by
  induction p with
  | sequence first second _ ih =>
    rw [outline, Outline.pieces_join]
    simp [items, ih]
  | _ => simp [items]

theorem pieces_branches (kept : Bool) (p : Pattern) :
    (p.outline kept).pieces .firstOf =
      p.branches.flatMap fun branch => (branch.outline kept).pieces .firstOf := by
  induction p with
  | choice first second _ ih =>
    rw [outline, Outline.pieces_join]
    simp [branches, ih]
  | _ => simp [branches]

end Pattern

namespace FitContext

variable {cx : FitContext}

theorem flat_of_parts {how : Joint} {kept : Bool} {p : Pattern} {plan : Plan} {ps : List Pattern}
    {plans : List Plan} (joined : plan.outline = .join how (Plan.outlines plans))
    (split : (p.outline kept).pieces how = ps.flatMap fun part => (part.outline kept).pieces how)
    (each : plans.map (fun plan => plan.outline.flat) = ps.map fun part => (part.outline kept).flat) :
    plan.outline.flat = (p.outline kept).flat := by
  apply Outline.flat_eq_of_pieces_eq how
  rw [joined, Outline.pieces_join, Plan.outlines_eq, List.flatMap_map, split]
  exact Outline.flatMap_pieces_eq each

mutual

theorem Skims.outline {discarded : Bool} {p : Pattern} {plan : Plan}
    (skims : cx.Skims discarded p plan) (void : (discarded || p.isVoid) = true) :
    plan.outline.flat = (p.outline !discarded).flat := by
  match skims with
  -- A leaf that is not discarded has a value, and only what is void is skimmed.
  | .terminal =>
    cases discarded with
    | true => rfl
    | false => cases void
  | .nonTerminal _ =>
    cases discarded with
    | true => rfl
    | false => cases void
  | .sequence items => exact flat_of_parts rfl (Pattern.pieces_items _ _) items.outlines
  | .choice branches => exact flat_of_parts rfl (Pattern.pieces_branches _ _) branches.outlines
  | .zeroOrMore void inner | .oneOrMore void inner =>
    exact congrArg (Outline.loop · _) (inner.outline void)
  | .optional void inner => exact congrArg Outline.optional (inner.outline void)
  | .group void inner => exact inner.outline void
  | .discard inner => exact inner.outline rfl

theorem SkimsEach.outlines {discarded : Bool} {ps : List Pattern} {plans : List Plan}
    (skims : cx.SkimsEach discarded ps plans) :
    plans.map (fun plan => plan.outline.flat) = ps.map fun p => (p.outline !discarded).flat := by
  match skims with
  | .nil => rfl
  | .cons void head tail =>
    rw [List.map_cons, List.map_cons, head.outline void, tail.outlines]

end

mutual

theorem Fits.outline {p : Pattern} {demand : Demand} {plan : Plan}
    (fits : cx.Fits p demand plan) : plan.outline.flat = (p.outline true).flat := by
  match fits with
  | .skim void inner => exact inner.outline void
  | .text | .rawToken | .tokenKind | .call _ _ | .callInto _ _ _ => rfl
  | .single _ inner | .present _ inner =>
    rw [Plan.outline, Plan.outline_convert]
    exact inner.outline
  | .sequence _ items =>
    apply Outline.flat_eq_of_pieces_eq .inOrder
    rw [items.outline, Pattern.pieces_items]
  | .choice _ branches _ => exact flat_of_parts rfl (Pattern.pieces_branches _ _) branches.outlines
  | .zeroOrMore inner | .oneOrMore inner =>
    rw [Plan.outline, Plan.outline_convert]
    exact congrArg (Outline.loop · _) inner.outline
  | .keep inner =>
    rw [Plan.outline, Plan.outline_convert]
    exact congrArg Outline.optional inner.outline
  | .default _ _ inner => exact congrArg Outline.optional inner.outline
  | .group _ inner => exact inner.outline

theorem FitsItems.outline {ps : List Pattern} {demand : Demand} {plan : Plan}
    (fits : cx.FitsItems ps demand plan) :
    plan.outline.pieces .inOrder = ps.flatMap fun p => (p.outline true).pieces .inOrder := by
  match fits with
  | .skim _ parts =>
    rw [Plan.outline, Outline.pieces_join, Plan.outlines_eq, List.flatMap_map]
    exact Outline.flatMap_pieces_eq parts.outlines
  | .one _ parts | .concat _ parts =>
    rw [Plan.outline, Outline.pieces_join, Plan.outlines_eq, List.flatMap_map]
    exact Outline.flatMap_pieces_eq parts.outlines
  -- The split moves no item: its front and its back are the items again.
  | .pair _ front back =>
    rw [Plan.outline, Outline.pieces_join, Plan.outlines_eq, List.flatMap_map]
    simp only [List.flatMap_cons, List.flatMap_nil, List.append_nil, Plan.outline_convert]
    rw [front.outline, back.outline, ← List.flatMap_append, Pattern.splitValued_append]
  | .pack _ inner => exact inner.outline

theorem FitsEach.outlines {ps : List Pattern} {demand : Demand} {plans : List Plan}
    (fits : cx.FitsEach ps demand plans) :
    plans.map (fun plan => plan.outline.flat) = ps.map fun p => (p.outline true).flat := by
  match fits with
  | .nil => rfl
  | .void void head tail =>
    have first := head.outline void
    rw [List.map_cons, List.map_cons, tail.outlines]
    exact congrArg (· :: _) first
  | .valued _ head tail => rw [List.map_cons, List.map_cons, head.outline, tail.outlines]

theorem FitsBranches.outlines {ps : List Pattern} {demand : Demand} {plans : List Plan}
    (fits : cx.FitsBranches ps demand plans) :
    plans.map (fun plan => plan.outline.flat) = ps.map fun p => (p.outline true).flat := by
  match fits with
  | .nil => rfl
  | .cons head tail => rw [List.map_cons, List.map_cons, head.outline, tail.outlines]

end

/-- A plan matches what its pattern matches, in the same order, and produces a value exactly for
every leaf that is not discarded. -/
theorem plan_keeps_outline {p : Pattern} {demand : Demand} {plan : Plan}
    (made : cx.plan p demand = .ok plan) : plan.outline.flat = (p.outline true).flat := by
  obtain ⟨inner, fits, rfl⟩ := fits_of_plan made
  rw [Plan.outline_convert, fits.outline]

def commaNumbers : Pattern :=
  .sequence (.nonTerminal "number")
    (.zeroOrMore (.group (.sequence (.discard (.terminal "Comma" false)) (.nonTerminal "number"))))

def numberContext : FitContext :=
  ⟨fun _ _ => false, fun name => if name = "number" then some (.named "u32") else none⟩

def commaPlan : Plan :=
  .collect (.concat [.single (.call "number" true none),
    .loop (.sequence [.token "Comma" .nothing, .call "number" true none]) false true]) numberDeque

theorem commaPlan_keeps_outline :
    numberContext.plan commaNumbers (.list numberDeque (.named (.named "u32"))) = .ok commaPlan ∧
      commaPlan.outline.flat = (commaNumbers.outline true).flat := by
  have made :
      numberContext.plan commaNumbers (.list numberDeque (.named (.named "u32"))) = .ok commaPlan := by
    cbv
  exact ⟨made, plan_keeps_outline made⟩

end FitContext

end Pegsmith
