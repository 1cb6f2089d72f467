import Mathlib
import Pegsmith.Command.Build
import Pegsmith.Command.Generate
import Pegsmith.Proofs.Command.FileTree
import Pegsmith.Proofs.Command.Runs
import Pegsmith.Proofs.Generation.Isolation

set_option autoImplicit false

namespace Pegsmith.Command

def filesIn (directory : String) (ps : List GeneratedParser) : List (String × String) :=
  ps.map fun p => (join directory p.fileName, p.source)

theorem writeAll_filesIn_cons_iff {t t' : FileTree} {directory : String} {p : GeneratedParser}
    {ps : List GeneratedParser} :
    t.writeAll (filesIn directory (p :: ps)) = .ok t' ↔
      ∃ t₁, t.write (join directory p.fileName) p.source = .ok t₁ ∧
        t₁.writeAll (filesIn directory ps) = .ok t' := by
  rw [filesIn, List.map_cons, FileTree.writeAll, List.foldlM_cons]
  cases written : t.write (join directory p.fileName) p.source with
  | error e =>
    constructor
    · intro ended
      cases ended
    · rintro ⟨_, ⟨⟩, _⟩
  | ok t₁ =>
    constructor
    · exact fun rest => ⟨t₁, rfl, rest⟩
    · rintro ⟨_, ⟨⟩, rest⟩
      exact rest

theorem does_mapM_save {ε : Type} (fail : String → FileError → ε) (directory : String)
    (ps : List GeneratedParser) :
    Does (ps.mapM fun p => save FileTree.system fail directory p) fun t paths t' =>
      paths = ps.map (join directory ·.fileName) ∧
        t.writeAll (filesIn directory ps) = .ok t' := by
  induction ps with
  | nil =>
    refine (does_pure []).congr fun t paths t' => ?_
    constructor
    · rintro ⟨rfl, rfl⟩
      exact ⟨rfl, rfl⟩
    · rintro ⟨rfl, written⟩
      cases written
      exact ⟨rfl, rfl⟩
  | cons p ps ih =>
    rw [List.mapM_cons]
    refine ((does_save fail directory p).bind fun path =>
      ih.bind fun rest => does_pure (path :: rest)).congr fun t paths t' => ?_
    rw [writeAll_filesIn_cons_iff]
    constructor
    · rintro ⟨_, t₁, ⟨rfl, written⟩, _, t₂, ⟨rfl, others⟩, rfl, rfl⟩
      exact ⟨rfl, t₁, written, others⟩
    · rintro ⟨rfl, t₁, written, others⟩
      exact ⟨_, t₁, ⟨rfl, written⟩, _, t', ⟨rfl, others⟩, rfl, rfl⟩

theorem does_forM_save {ε : Type} (fail : String → FileError → ε) (directory : String)
    {next : GeneratedParser → String → Run ε (StateM FileTree) Unit}
    (spares : ∀ p path, Spares (next p path)) (ps : List GeneratedParser) :
    Does (ps.forM fun p => do next p (← save FileTree.system fail directory p)) fun t _ t' =>
      t.writeAll (filesIn directory ps) = .ok t' := by
  induction ps with
  | nil =>
    refine spares_pure.congr fun t _ t' => ?_
    constructor
    · rintro rfl
      rfl
    · intro written
      cases written
      rfl
  | cons p ps ih =>
    rw [List.forM_eq_forM, List.forM_cons]
    have first := (does_save fail directory p).bind (spares p)
    refine (first.bind fun _ => ih).congr fun t _ t' => ?_
    rw [writeAll_filesIn_cons_iff]
    constructor
    · rintro ⟨_, t₁, ⟨_, _, ⟨rfl, written⟩, rfl⟩, others⟩
      exact ⟨_, written, others⟩
    · rintro ⟨t₁, written, others⟩
      exact ⟨(), t₁, ⟨_, t₁, ⟨rfl, written⟩, rfl⟩, others⟩

variable {t t' : FileTree} {directory : String} {ps : List GeneratedParser}

structure IsFileName (name : String) : Prop where
  plain : '/' ∉ name.toList
  long : 2 < name.length

theorem fileName_eq_of_walk {p q : GeneratedParser} {place : List String}
    (hp : IsFileName p.fileName) (hq : IsFileName q.fileName)
    (here : t.walk [] (wayParts (join directory p.fileName)) = .ok place)
    (there : t.walk [] (wayParts (join directory q.fileName)) = .ok place) :
    p.fileName = q.fileName := by
  obtain ⟨inside, leads, rfl⟩ := FileTree.walk_join hp.plain hp.long here
  obtain ⟨inside', leads', same⟩ := FileTree.walk_join hq.plain hq.long there
  exact (List.append_inj' same rfl).2 |> List.singleton_inj.mp

theorem join_ne_empty {name : String} (named : IsFileName name) : join directory name ≠ "" := by
  intro empty
  have chars := congrArg String.toList empty
  rw [toList_join named.plain, String.toList_empty, List.append_eq_nil_iff] at chars
  have none_left := named.long
  rw [← String.length_toList, chars.2] at none_left
  cases none_left

theorem read_of_writeAll (written : t.writeAll (filesIn directory ps) = .ok t')
    (named : ∀ p ∈ ps, IsFileName p.fileName) {before after : List GeneratedParser}
    {p : GeneratedParser} (split : ps = before ++ p :: after)
    (last : ∀ q ∈ after, q.fileName ≠ p.fileName) :
    t'.read (join directory p.fileName) = .ok p.source := by
  subst split
  rw [filesIn, List.map_append, List.map_cons] at written
  obtain ⟨place, leads, holds⟩ := FileTree.find?_of_writeAll_last written
  have name := named p (by simp)
  refine FileTree.read_eq_ok (join_ne_empty name) leads (holds ?_)
  intro file member there
  obtain ⟨q, later, rfl⟩ := List.mem_map.mp member
  exact last q later (fileName_eq_of_walk (named q (by simp [later])) name there leads)

structure HoldsEach (t : FileTree) (directory : String) (ps : List GeneratedParser) : Prop where
  sources : ∀ p ∈ ps, t.read (join directory p.fileName) = .ok p.source
  apart : (ps.map fun p => t.walk [] (wayParts (join directory p.fileName))).Nodup

theorem holdsEach_iff (written : t.writeAll (filesIn directory ps) = .ok t')
    (named : ∀ p ∈ ps, IsFileName p.fileName) :
    HoldsEach t' directory ps ↔ (ps.map (·.fileName)).Nodup := by
  constructor
  · intro each
    have apart : ((ps.map (·.fileName)).map fun name =>
        t'.walk [] (wayParts (join directory name))).Nodup := by
      rw [List.map_map]
      exact each.apart
    exact apart.of_map
  · intro names
    refine ⟨fun p listed => ?_, names.of_map.map_on fun p hp q hq same => ?_⟩
    · -- A later parser of the same file name would make the names repeat.
      obtain ⟨before, after, rfl⟩ := List.append_of_mem listed
      refine read_of_writeAll written named rfl fun q later same => ?_
      rw [List.map_append, List.map_cons] at names
      exact (List.nodup_cons.mp names.of_append_right).1 (same ▸ List.mem_map_of_mem later)
    · -- Its way leads somewhere, since it has been written to.
      obtain ⟨before, after, rfl⟩ := List.append_of_mem hp
      rw [filesIn, List.map_append, List.map_cons] at written
      obtain ⟨place, leads, -⟩ := FileTree.find?_of_writeAll_last written
      have equal := fileName_eq_of_walk (named p hp) (named q hq) leads (same ▸ leads)
      exact List.inj_on_of_nodup_map names hp hq equal

variable {layOut : String → String} {options : Generation.Options}

structure HasWritten (layOut : String → String) (options : Generation.Options)
    (grammar directory : String) (t t' : FileTree) (d : Description) (g : Generation) : Prop where
  described : ∃ text, t.read grammar = .ok text ∧ Description.parse text = .ok d
  generated : Generation.ofDescription layOut options d = .ok g
  clean : hasErrors g.diagnostics = false
  written : ∃ t₁, t.makeDirs directory = .ok t₁ ∧
    t₁.writeAll (filesIn directory g.parsers) = .ok t'

theorem does_build (layOut : String → String) (grammar directory : String) :
    Does (build layOut FileTree.system grammar directory) fun t paths t' =>
      ∃ d g, HasWritten layOut { header := header grammar } grammar directory t t' d g ∧
        paths = g.parsers.map (join directory ·.fileName) := by
  refine (spares_print _).bind ?_
  refine ((does_read _ grammar).bind (Q := fun text t paths t' => ∃ d,
    Description.parse text = .ok d ∧ ∃ g,
      Generation.ofDescription layOut { header := header grammar } d = .ok g ∧
      hasErrors g.diagnostics = false ∧ ∃ (_ : Unit) (t₁ : FileTree),
        t.makeDirs directory = .ok t₁ ∧ paths = g.parsers.map (join directory ·.fileName) ∧
        t₁.writeAll (filesIn directory g.parsers) = .ok t') fun text => ?_).congr
    fun t paths t' => ?_
  · refine does_of_except (fun e failed => ⟨_, by simp only [failed]; rfl⟩) fun d described => ?_
    simp only [described]
    refine does_of_except (fun f failed => ⟨_, by simp only [failed]; rfl⟩) fun g generated => ?_
    simp only [generated]
    refine (spares_forM fun _ => spares_print _).bind ?_
    refine does_unless ?_
    exact (does_makeDirs _ directory).bind fun _ => does_mapM_save _ directory g.parsers
  · constructor
    · rintro ⟨text, _, ⟨read, rfl⟩, d, described, g, generated, clean, _, t₁, made, rfl, written⟩
      exact ⟨d, g, ⟨⟨text, read, described⟩, generated, clean, t₁, made, written⟩, rfl⟩
    · rintro ⟨d, g, ⟨⟨text, read, described⟩, generated, clean, t₁, made, written⟩, rfl⟩
      exact ⟨text, t, ⟨read, rfl⟩, d, described, g, generated, clean, (), t₁, made, rfl, written⟩

theorem spares_log (asked level : LogLevel) (text : String) :
    Spares (log asked level text : GenerateRun (StateM FileTree) Unit) := by
  unfold log
  split
  · exact spares_report _
  · exact spares_pure

def Asks (a : Arguments) (environment : Option String) (level : LogLevel) : Prop :=
  LogLevel.parse? ((a.logLevel.or environment).getD "warn") = some level

theorem does_logLevel (a : Arguments) (environment : Option String) :
    Does (logLevel a environment : GenerateRun (StateM FileTree) LogLevel) fun t level t' =>
      Asks a environment level ∧ t' = t := by
  simp only [logLevel, Asks]
  cases LogLevel.parse? ((a.logLevel.or environment).getD "warn") with
  | none => exact does_throw _ (by rintro _ _ _ ⟨⟨⟩, _⟩)
  | some level => exact (does_pure level).congr fun _ _ _ => by rw [Option.some.injEq, eq_comm]

theorem does_readAndGenerate (layOut : String → String) (level : LogLevel) (a : Arguments) :
    Does (readAndGenerate layOut FileTree.system level a) fun t g t' => t' = t ∧
      ∃ text d, t.read a.grammar = .ok text ∧ Description.parse text = .ok d ∧
        Generation.ofDescription layOut a.options d = .ok g := by
  refine ((does_read _ a.grammar).bind (Q := fun text t g t' => ∃ d,
    Description.parse text = .ok d ∧ ∃ g', Generation.ofDescription layOut a.options d = .ok g' ∧
      g = g' ∧ t' = t) fun text => ?_).congr fun t g t' => ?_
  · refine does_of_except (fun e failed => ⟨_, by simp only [failed]; rfl⟩) fun d described => ?_
    simp only [described]
    refine does_of_except (fun f failed => ⟨_, by simp only [failed]; rfl⟩) fun g generated => ?_
    simp only [generated]
    exact (spares_forM fun _ => spares_log _ _ _).bind (does_pure g)
  · constructor
    · rintro ⟨text, _, ⟨read, rfl⟩, d, described, _, generated, rfl, rfl⟩
      exact ⟨rfl, text, d, read, described, generated⟩
    · rintro ⟨rfl, text, d, read, described, generated⟩
      exact ⟨text, _, ⟨read, rfl⟩, d, described, g, generated, rfl, rfl⟩

theorem does_tell (ds : List Diagnostic) :
    Does (tell ds : GenerateRun (StateM FileTree) Unit) fun t _ t' =>
      hasErrors ds = false ∧ t' = t := by
  have spares (d : Diagnostic) : Spares (do report d.text; report "" :
      GenerateRun (StateM FileTree) Unit) :=
    (spares_report _).bind (spares_report _)
  exact (spares_forM fun d => spares d).bind (does_unless spares_pure)

theorem does_generate (layOut : String → String) (environment : Option String) (a : Arguments)
    (directory : String) (target : a.outDir = some directory) (writes : a.check = false) :
    Does (generate layOut FileTree.system environment a) fun t _ t' =>
      (∃ level, Asks a environment level) ∧
        ∃ d g, HasWritten layOut a.options a.grammar directory t t' d g := by
  unfold generate
  simp only [target, writes]
  have shown (level : LogLevel) (p : GeneratedParser) (path : String) : Spares (do
      log level .info (p.name ++ " -> " ++ path); print path :
      GenerateRun (StateM FileTree) Unit) :=
    (spares_log _ _ _).bind (spares_print _)
  have saves (level : LogLevel) (g : Generation) :=
    does_forM_save .unwritable directory (shown level) g.parsers
  refine ((does_logLevel a environment).bind fun level =>
    (does_readAndGenerate layOut level a).bind fun g => (does_tell g.diagnostics).bind fun _ =>
      (does_makeDirs _ directory).bind fun _ => saves level g).congr fun t _ t' => ?_
  constructor
  · rintro ⟨level, _, ⟨asks, rfl⟩, g, _, ⟨rfl, text, d, read, described, generated⟩, _, _,
      ⟨clean, rfl⟩, _, t₁, made, written⟩
    exact ⟨⟨level, asks⟩, d, g, ⟨text, read, described⟩, generated, clean, t₁, made, written⟩
  · rintro ⟨⟨level, asks⟩, d, g, ⟨text, read, described⟩, generated, clean, t₁, made, written⟩
    exact ⟨level, t, ⟨asks, rfl⟩, g, t, ⟨rfl, text, d, read, described, generated⟩, (), t,
      ⟨clean, rfl⟩, (), t₁, made, written⟩

theorem isFileName_rs {stem : String} (plain : '/' ∉ stem.toList) : IsFileName (stem ++ ".rs") := by
  refine ⟨?_, ?_⟩
  · rw [String.toList_append, List.mem_append]
    exact not_or.mpr ⟨plain, by decide⟩
  · rw [String.length_append]
    exact Nat.lt_add_left _ (by decide)

theorem fileNames_of_namedAfter {parsers : List Description.Parser}
    (named : List.Forall₂ (fun p out => out.NamedAfter p) parsers ps) :
    ps.map (·.fileName) = (parsers.map fun p => Code.snakeCase p.name).map (· ++ ".rs") := by
  rw [List.map_map]
  exact (map_eq_of_forall₂ named fun _ _ here => here.fileName.symm).symm

theorem nodup_fileNames_iff {parsers : List Description.Parser}
    (named : List.Forall₂ (fun p out => out.NamedAfter p) parsers ps) :
    (ps.map (·.fileName)).Nodup ↔ (parsers.map fun p => Code.snakeCase p.name).Nodup := by
  have injective : Function.Injective (· ++ ".rs" : String → String) := by
    intro a b same
    simpa using same
  rw [fileNames_of_namedAfter named, List.nodup_map_iff injective]

theorem isFileName_of_namedAfter {parsers : List Description.Parser}
    (named : List.Forall₂ (fun p out => out.NamedAfter p) parsers ps)
    (plain : ∀ p ∈ parsers, '/' ∉ (Code.snakeCase p.name).toList) :
    ∀ out ∈ ps, IsFileName out.fileName := by
  intro out listed
  have among : out.fileName ∈ ps.map (·.fileName) := List.mem_map_of_mem listed
  simp only [fileNames_of_namedAfter named, List.mem_map, exists_exists_and_eq_and] at among
  obtain ⟨p, declared, same⟩ := among
  exact same ▸ isFileName_rs (plain p declared)

/-- A parser's file holds its source unless a later parser has a file of the same name, and each
parser has a file of its own exactly if snake case tells their names apart. -/
structure LastWins (t : FileTree) (directory : String) (parsers : List Description.Parser)
    (ps : List GeneratedParser) : Prop where
  last : ∀ before p after, ps = before ++ p :: after →
    (∀ q ∈ after, q.fileName ≠ p.fileName) →
    t.read (join directory p.fileName) = .ok p.source
  each : HoldsEach t directory ps ↔ (parsers.map fun p => Code.snakeCase p.name).Nodup

theorem HasWritten.lastWins {grammar : String} {d : Description} {g : Generation}
    (wrote : HasWritten layOut options grammar directory t t' d g)
    (plain : ∀ p ∈ d.parsers, '/' ∉ (Code.snakeCase p.name).toList) :
    LastWins t' directory d.parsers g.parsers := by
  have named := Generation.named_of_no_errors wrote.generated wrote.clean
  have names := isFileName_of_namedAfter named plain
  obtain ⟨t₁, -, written⟩ := wrote.written
  refine ⟨fun before p after split last => read_of_writeAll written names split last, ?_⟩
  rw [holdsEach_iff written names, nodup_fileNames_iff named]

/-- A run uses up the stack exactly if some parser tries an endless type. Otherwise, without an error
there is a file for each parser, in their order and named after the snake case of their names, so
that file names differ exactly if snake case tells the names apart. Both commands that write into a
directory end exactly when the description is read without an error, the directory is made and every
file is written. Then of parsers with one file name the last one's source is left, and each parser
has its own source in a file of its own exactly if snake case tells names apart. -/
theorem writes_apart_iff (layOut : String → String) (t : FileTree) (o : Output)
    (directory : String) :
    (∀ options d,
      (Generation.IsEndless d ∧
        Generation.ofDescription layOut options d = .error .stackOverflow) ∨
      ¬Generation.IsEndless d ∧ ∃ g, Generation.ofDescription layOut options d = .ok g ∧
        (hasErrors g.diagnostics = false →
          List.Forall₂ (fun p out => out.NamedAfter p) d.parsers g.parsers ∧
          ((g.parsers.map (·.fileName)).Nodup ↔
            (d.parsers.map fun p => Code.snakeCase p.name).Nodup))) ∧
    (∀ grammar paths t', Ends (build layOut FileTree.system grammar directory) o t paths t' ↔
      ∃ d g, HasWritten layOut { header := header grammar } grammar directory t t' d g ∧
        paths = g.parsers.map (join directory ·.fileName)) ∧
    (∀ environment a t', a.outDir = some directory → a.check = false →
      (Ends (generate layOut FileTree.system environment a) o t () t' ↔
        (∃ level, Asks a environment level) ∧
          ∃ d g, HasWritten layOut a.options a.grammar directory t t' d g)) ∧
    (∀ options grammar t' d g, HasWritten layOut options grammar directory t t' d g →
      (∀ p ∈ d.parsers, '/' ∉ (Code.snakeCase p.name).toList) →
        LastWins t' directory d.parsers g.parsers) := by
  refine ⟨fun options d => ?_, ?_, ?_, ?_⟩
  · obtain overflows | ⟨ends, g, _, returned, -⟩ := Generation.ofDescription_cases layOut options d
    · exact .inl overflows
    · refine .inr ⟨ends, g, returned, fun clean => ?_⟩
      have named := Generation.named_of_no_errors returned clean
      exact ⟨named, nodup_fileNames_iff named⟩
  · exact fun grammar paths t' => does_build layOut grammar directory o t paths t'
  · exact fun environment a t' target writes =>
      does_generate layOut environment a directory target writes o t () t'
  · exact fun options grammar t' d g wrote => wrote.lastWins

example : Code.snakeCase "FooBar" = Code.snakeCase "Foo_Bar" := by decide

end Pegsmith.Command
