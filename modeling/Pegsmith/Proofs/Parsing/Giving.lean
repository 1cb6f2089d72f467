import Pegsmith.Proofs.Parsing.Derivation

set_option autoImplicit false

namespace Pegsmith.Parsing

open Run

variable {σ α β γ : Type} {lexer : Lexer} {text : List Char} {start : Nat} {t u v : Tape}

def Lexer.Refuses (lexer : Lexer) (kind : String) (t : Tape) : Prop :=
  lexer.nextIf kind t = (.ok none, t)

namespace Lexer

theorem refuses_of_end (called : lexer.next t = (.ok none, u)) (kind : String) :
    lexer.Refuses kind t := by
  rw [Refuses, nextIf, called]

theorem refuses_of_next {token : Token} {kind : String}
    (called : lexer.next t = (.ok (some token), u)) (other : token.kind ≠ kind) :
    lexer.Refuses kind t := by
  rw [Refuses, nextIf, called]
  exact if_neg other

theorem nextIf_of_next {token : Token} {kind : String}
    (called : lexer.next t = (.ok (some token), u)) (same : token.kind = kind) :
    lexer.nextIf kind t = (.ok (some token), u) := by
  rw [nextIf, called]
  exact if_pos same

end Lexer

def Gives (t : Tape) (run : Run σ β) (b : β) (u : Tape) : Prop :=
  ∀ s, ∃ r, run.runFrom t s = (.ok b, u, r)

namespace Gives

theorem pure (b : β) : Gives t (pure b : Run σ β) b t := fun s => ⟨s, rfl⟩

theorem bind {run : Run σ β} {next : β → Run σ γ} {b : β} {c : γ} (first : Gives t run b u)
    (rest : Gives u (next b) c v) : Gives t (run >>= next) c v := by
  intro s
  obtain ⟨r, ran⟩ := first s
  obtain ⟨r', further⟩ := rest r
  exact ⟨r', by rw [runFrom_bind, ran]; exact further⟩

theorem position {next : Nat → Run σ γ} {c : γ} (rest : Gives t (next t.offset) c v) :
    Gives t (position >>= next) c v := rest

theorem restore {next : Unit → Run σ γ} {c : γ} (within : t.Within text start)
    (same : u.text = text) (rest : Gives t (next ()) c v) :
    Gives u (restore t.offset >>= next) c v := by
  intro s
  rw [runFrom_restore_bind within same]
  exact rest s

variable {call : String → Run σ (Option (Value α))} {found : Outputs α} {vs : List (Value α)}
  {plan : Plan} {plans : List Plan}

theorem token {token : Token} {kind : String} (called : lexer.next t = (.ok (some token), u))
    (same : token.kind = kind) (use : TokenUse) :
    Gives t (evaluate lexer call (.token kind use)) (some (useToken use token)) u := by
  have taken : Gives t (take? lexer kind : Run σ (Option Token)) (some token) u :=
    fun s => ⟨s, by rw [runFrom_take?, Lexer.nextIf_of_next called same]; rfl⟩
  rw [evaluate]
  exact taken.bind (pure _)

theorem refused {kind : String} (refuses : lexer.Refuses kind t) (use : TokenUse) :
    Gives t (evaluate lexer call (.token kind use)) none t := by
  have left : Gives t (take? lexer kind : Run σ (Option Token)) none t :=
    fun s => ⟨s, by rw [runFrom_take?, show lexer.nextIf kind t = _ from refuses]; rfl⟩
  rw [evaluate]
  exact left.bind (pure _)

theorem called {name : String} {a : α} (gives : Gives t (call name) (some (.own a)) u) :
    Gives t (evaluate lexer call (.call name true none)) (some [.own a]) u := by
  rw [evaluate]
  exact gives.bind (pure _)

theorem sequence (gives : Gives t (evaluateParts lexer call plans) found u) :
    Gives t (evaluate lexer call (.sequence plans)) found u := by
  rwa [evaluate]

theorem none_left : Gives t (evaluateParts lexer call []) (some []) t := by
  rw [evaluateParts]
  exact pure _

theorem part (first : Gives t (evaluate lexer call plan) (some vs) u)
    (rest : Gives u (evaluateParts lexer call plans) found v) :
    Gives t (evaluateParts lexer call (plan :: plans)) (found.map (vs ++ ·)) v := by
  rw [evaluateParts]
  exact first.bind (rest.bind (pure _))

theorem missing (first : Gives t (evaluate lexer call plan) none u) :
    Gives t (evaluateParts lexer call (plan :: plans)) none u := by
  rw [evaluateParts]
  exact first.bind (pure _)

theorem optional {fallback : Fallback} (gives : Gives t (evaluate lexer call plan) (some vs) u) :
    Gives t (evaluate lexer call (.optional plan fallback))
      (some (fill plan.arity fallback (some vs))) u := by
  rw [evaluate, Parsing.optional]
  exact position (gives.bind (pure _))

theorem choice (gives : Gives t (evaluateBranches lexer call t.offset plans) found u) :
    Gives t (evaluate lexer call (.choice plans)) found u := by
  rw [evaluate]
  exact position gives

theorem no_branch (offset : Nat) : Gives t (evaluateBranches lexer call offset []) none t := by
  rw [evaluateBranches]
  exact pure _

theorem branch {offset : Nat} (gives : Gives t (evaluate lexer call plan) (some vs) u) :
    Gives t (evaluateBranches lexer call offset (plan :: plans)) (some vs) u := by
  rw [evaluateBranches]
  exact gives.bind (pure _)

theorem next_branch (within : t.Within text start) (same : u.text = text)
    (gives : Gives t (evaluate lexer call plan) none u)
    (rest : Gives t (evaluateBranches lexer call t.offset plans) found v) :
    Gives t (evaluateBranches lexer call t.offset (plan :: plans)) found v := by
  rw [evaluateBranches]
  exact gives.bind (restore within same rest)

end Gives

def Build.Makes (build : Build σ α) (vs : List (Value α)) (a : α) : Prop :=
  ∀ s, ∃ r, build vs s = some (.ok a, r)

namespace Gives

variable {call : String → Run σ (Option (Value α))} {found : Option (Value α)}
  {vs : List (Value α)} {b : Alternative σ α} {bs : List (Alternative σ α)} {a : α}

theorem alternative {offset : Nat} (gives : Gives t (evaluate lexer call b.plan) (some vs) u)
    (makes : b.build.Makes vs a) :
    Gives t (Rules.firstMatch lexer call (Rules.buildWith id fun s _ => s) offset (b :: bs))
      (some (.own a)) u := by
  have built : Gives u (Rules.buildWith id (fun s _ => s) b.build vs) (.own a) u := by
    intro s
    obtain ⟨r, made⟩ := makes s
    exact ⟨r, by rw [Rules.runFrom_buildWith, show b.build vs (id s) = _ from made]; rfl⟩
  rw [Rules.firstMatch]
  exact gives.bind (built.bind (pure _))

theorem next_alternative (within : t.Within text start) (same : u.text = text)
    (gives : Gives t (evaluate lexer call b.plan) none u)
    (rest : Gives t (Rules.firstMatch lexer call (Rules.buildWith id fun s _ => s) t.offset bs)
      found v) :
    Gives t (Rules.firstMatch lexer call (Rules.buildWith id fun s _ => s) t.offset (b :: bs))
      found v := by
  rw [Rules.firstMatch]
  exact gives.bind (restore within same rest)

end Gives

theorem Gives.plain {rules : Rules σ α} {name : String} {n : Nat} {found : Option (Value α)}
    (positive : 0 < n)
    (gives : Gives t (Rules.firstMatch rules.lexer (rules.plain (n - 1))
      (Rules.buildWith id fun s _ => s) t.offset (rules.alternatives name)) found u) :
    Gives t (rules.plain n name) found u := by
  obtain ⟨n, rfl⟩ := Nat.exists_eq_add_one_of_ne_zero (Nat.pos_iff_ne_zero.mp positive)
  rw [Rules.plain]
  exact .position gives

namespace Rules

variable {rules : Rules σ α} {good : String → α → Prop}

theorem Regular.parse_of_plain (regular : rules.Regular good) {name : String} {m : Nat}
    {found : Except Stop (Option (Value α))} (within : t.Within text start)
    (short : Text.byteSize text < offsetLimit) (enough : rules.depth t ≤ m) {logic : σ}
    (plain : ∃ r, (rules.plain m name).runFrom t logic = (found, u, r)) :
    ∃ after, rules.parse name t logic = (answer name t.offset found, u, after) := by
  obtain ⟨seen, place, ⟨after, parsed⟩, without, -⟩ := regular.parse_eq name logic within short
  obtain ⟨_, same⟩ := without m enough
  obtain ⟨_, ran⟩ := plain
  rw [runFrom] at ran
  rw [parsePlain, ran] at same
  have answered : answer name t.offset found = answer name t.offset seen := congrArg Prod.fst same
  have stays : u = place := congrArg (fun outcome => outcome.2.1) same
  exact ⟨after, by rw [parsed, answered, stays]⟩

theorem Regular.parse_of_gives (regular : rules.Regular good) {name : String} {a : α} {n : Nat}
    (within : t.Within text start) (short : Text.byteSize text < offsetLimit)
    (gives : ∀ m, n ≤ m → Gives t (rules.plain m name) (some (.own a)) u) (logic : σ) :
    ∃ after, rules.parse name t logic = (.ok (.own a), u, after) :=
  regular.parse_of_plain within short (Nat.le_max_right n _) (gives _ (Nat.le_max_left ..) logic)

theorem parseAll_eq_ok_iff {name : String} {logic : σ} {value : Value α} :
    (rules.parseAll name text logic).1 = .ok value ↔ ∃ place after u,
      rules.parse name ⟨text, 0⟩ logic = (.ok value, place, after) ∧
        rules.lexer.next place = (.ok none, u) := by
  rw [parseAll]
  rcases rules.parse name ⟨text, 0⟩ logic with ⟨_ | found, place, after⟩
  · simp
  · rcases called : rules.lexer.next place with ⟨_ | _ | token, u⟩ <;> simp [called]

end Rules

end Pegsmith.Parsing
