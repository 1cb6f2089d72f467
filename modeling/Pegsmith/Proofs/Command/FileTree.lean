import Mathlib
import Pegsmith.Command.Files
import Pegsmith.Proofs.Results

set_option autoImplicit false

namespace Pegsmith.Command

theorem endsInSlash_iff {path : String} :
    endsInSlash path = true ↔ ∃ front, path.toList = front ++ ['/'] := by
  rw [endsInSlash, beq_iff_eq, List.getLast?_eq_some_iff]

theorem parts_of_slash {path : String} {front back : List Char}
    (split : path.toList = front ++ '/' :: back) :
    parts path = parts (String.ofList front) ++ parts (String.ofList back) := by
  simp [parts, split, List.splitOn_append_cons_self]

theorem parts_of_plain {path : String} (plain : '/' ∉ path.toList) (filled : path.toList ≠ []) :
    parts path = [path] := by
  have single : path.toList.splitOn '/' = [path.toList] := List.splitOn_eq_singleton plain
  simp [parts, single, filled]

theorem toList_join {directory file : String} (plain : '/' ∉ file.toList) :
    (join directory file).toList =
      (if directory = "" ∨ endsInSlash directory = true then directory.toList
        else directory.toList ++ ['/']) ++ file.toList := by
  have relative : (file.toList.head? == some '/') = false := by
    rw [beq_eq_false_iff_ne]
    exact fun first => plain (List.mem_of_mem_head? first)
  rw [join, relative, if_neg Bool.false_ne_true]
  by_cases inside : directory = "" ∨ endsInSlash directory = true
  · rw [if_pos inside, if_pos (by simpa using inside), String.toList_append]
  · rw [if_neg inside, if_neg (by simpa using inside)]
    simp

theorem wayParts_join {directory file : String} (plain : '/' ∉ file.toList)
    (filled : file.toList ≠ []) : wayParts (join directory file) = parts directory ++ [file] := by
  have whole : (join directory file).toList = _ := toList_join plain
  have last := parts_of_plain plain filled
  have file? : endsInSlash (join directory file) = false := by
    rw [Bool.eq_false_iff, ne_eq, endsInSlash_iff]
    rintro ⟨front, same⟩
    have ending := congrArg List.getLast? (whole.symm.trans same)
    rw [List.getLast?_append_of_ne_nil _ filled, List.getLast?_concat] at ending
    exact plain (List.mem_of_getLast? ending)
  rw [wayParts, file?, if_neg Bool.false_ne_true]
  split at whole
  · next inside =>
    rcases inside with rfl | slash
    · rw [String.toList_empty, List.nil_append, String.toList_inj] at whole
      rw [whole, last]
      rfl
    · obtain ⟨front, split⟩ := endsInSlash_iff.mp slash
      rw [split, List.append_assoc, List.singleton_append] at whole
      rw [parts_of_slash whole, parts_of_slash split, String.ofList_toList, last]
      simp [parts]
  · rw [List.append_assoc, List.singleton_append] at whole
    rw [parts_of_slash whole, String.ofList_toList, String.ofList_toList, last]

namespace FileTree

variable {t t' : FileTree} {place : List String}

theorem lookup_replace (entries : List (List String × Entry)) (place x : List String) (e : Entry) :
    (entries.map fun entry => if entry.1 = place then (place, e) else entry).lookup x =
      if x = place then (entries.lookup place).map fun _ => e else entries.lookup x := by
  induction entries with
  | nil => simp
  | cons entry entries ih =>
    obtain ⟨key, old⟩ := entry
    rw [List.map_cons]
    by_cases here : key = place
    · subst here
      by_cases same : x = key
      · simp [same]
      · simp [List.lookup_cons, beq_false_of_ne same, same, ih]
    · by_cases same : x = place
      · subst same
        simp [List.lookup_cons, here, beq_false_of_ne (Ne.symm here), ih]
      · simp [List.lookup_cons, here, same, ih]

theorem lookup_insert (t : FileTree) (place x : List String) (e : Entry) :
    (t.insert place e).entries.lookup x = if x = place then some e else t.entries.lookup x := by
  unfold insert
  split
  · next known =>
    rw [lookup_replace]
    obtain ⟨old, found⟩ := Option.isSome_iff_exists.mp known
    simp [found]
  · next fresh =>
    rw [Option.not_isSome_iff_eq_none] at fresh
    rw [List.lookup_append]
    by_cases same : x = place
    · subst same
      simp [fresh]
    · simp [List.lookup_cons, same, beq_false_of_ne same]

theorem find?_insert (root : place ≠ []) (x : List String) (e : Entry) :
    (t.insert place e).find? x = if x = place then some e else t.find? x := by
  cases x with
  | nil => rw [if_neg root.symm]; rfl
  | cons name names => exact lookup_insert t place (name :: names) e

def SameDirectories (t t' : FileTree) : Prop :=
  ∀ place, t.find? place = some .directory ↔ t'.find? place = some .directory

theorem SameDirectories.walk (same : t.SameDirectories t') {start way : List String}
    (leads : t.walk start way = .ok place) : t'.walk start way = .ok place := by
  induction way generalizing start with
  | nil => simpa [FileTree.walk] using leads
  | cons part rest ih =>
    rw [FileTree.walk] at leads ⊢
    split at leads
    · cases leads
    · cases leads
    · next inside =>
      rw [(same start).mp inside]
      split at leads
      · next here => rw [if_pos here]; exact ih leads
      · next here =>
        rw [if_neg here]
        split at leads
        · next up => rw [if_pos up]; exact ih leads
        · next up => rw [if_neg up]; exact ih leads

theorem SameDirectories.symm (same : t.SameDirectories t') : t'.SameDirectories t :=
  fun place => (same place).symm

theorem SameDirectories.walk_iff (same : t.SameDirectories t') {start way : List String} :
    t.walk start way = .ok place ↔ t'.walk start way = .ok place :=
  ⟨same.walk, same.symm.walk⟩

theorem walk_append_singleton {start way : List String} {name : String} (named : name ≠ ".")
    (down : name ≠ "..") (leads : t.walk start (way ++ [name]) = .ok place) :
    ∃ inside, t.walk start way = .ok inside ∧ place = inside ++ [name] := by
  induction way generalizing start with
  | nil =>
    rw [List.nil_append, FileTree.walk] at leads
    split at leads
    · cases leads
    · cases leads
    · rw [if_neg named, if_neg down, FileTree.walk] at leads
      cases leads
      exact ⟨start, rfl, rfl⟩
  | cons part rest ih =>
    rw [List.cons_append, FileTree.walk] at leads
    rw [FileTree.walk]
    split at leads
    · cases leads
    · cases leads
    · split at leads
      · next here => rw [if_pos here]; exact ih leads
      · next here =>
        rw [if_neg here]
        split at leads
        · next up => rw [if_pos up]; exact ih leads
        · next up => rw [if_neg up]; exact ih leads

structure Writes (t : FileTree) (path text : String) (t' : FileTree) (place : List String) :
    Prop where
  leads : t.walk [] (wayParts path) = .ok place
  file : t.find? place ≠ some .directory
  tree : t' = t.insert place (.file text)

theorem writes_of_write {path text : String} (written : t.write path text = .ok t') :
    ∃ place, t.Writes path text t' place := by
  unfold FileTree.write at written
  cases leads : t.walk [] (wayParts path) with
  | error e => simp [leads, bind, Except.bind] at written
  | ok place =>
    simp only [leads, bind, Except.bind] at written
    split at written
    · cases written
    · next file =>
      cases written
      exact ⟨place, leads, file, rfl⟩

theorem Writes.root {path text : String} (writes : t.Writes path text t' place) : place ≠ [] := by
  rintro rfl
  exact writes.file rfl

theorem Writes.find? {path text : String} (writes : t.Writes path text t' place)
    (x : List String) : t'.find? x = if x = place then some (.file text) else t.find? x := by
  rw [writes.tree, find?_insert writes.root]

theorem Writes.sameDirectories {path text : String} (writes : t.Writes path text t' place) :
    t.SameDirectories t' := by
  intro x
  rw [writes.find?]
  by_cases here : x = place
  · subst here
    simp [writes.file]
  · rw [if_neg here]

def writeAll (t : FileTree) (files : List (String × String)) : Except FileError FileTree :=
  files.foldlM (fun t file => t.write file.1 file.2) t

variable {files : List (String × String)}

theorem sameDirectories_of_writeAll (written : t.writeAll files = .ok t') :
    t.SameDirectories t' := by
  induction files generalizing t with
  | nil =>
    cases written
    exact fun _ => Iff.rfl
  | cons file files ih =>
    rw [writeAll, List.foldlM_cons] at written
    obtain ⟨t₁, first, rest⟩ := ok_of_bind written
    obtain ⟨place, writes⟩ := writes_of_write first
    exact fun x => (writes.sameDirectories x).trans (ih rest x)

theorem find?_of_writeAll (written : t.writeAll files = .ok t')
    (apart : ∀ file ∈ files, t.walk [] (wayParts file.1) ≠ .ok place) :
    t'.find? place = t.find? place := by
  induction files generalizing t with
  | nil =>
    cases written
    rfl
  | cons file files ih =>
    rw [writeAll, List.foldlM_cons] at written
    obtain ⟨t₁, first, rest⟩ := ok_of_bind written
    obtain ⟨there, writes⟩ := writes_of_write first
    have later (other : String × String) (member : other ∈ files) :
        t₁.walk [] (wayParts other.1) ≠ .ok place := by
      rw [ne_eq, ← writes.sameDirectories.walk_iff]
      exact apart other (List.mem_cons_of_mem file member)
    rw [ih rest later, writes.find?, if_neg]
    rintro rfl
    exact apart file List.mem_cons_self writes.leads

theorem find?_of_writeAll_last {before after : List (String × String)} {path text : String}
    (written : t.writeAll (before ++ (path, text) :: after) = .ok t') :
    ∃ place, t'.walk [] (wayParts path) = .ok place ∧
      ((∀ file ∈ after, t'.walk [] (wayParts file.1) ≠ .ok place) →
        t'.find? place = some (.file text)) := by
  rw [writeAll, List.foldlM_append] at written
  obtain ⟨t₁, -, written⟩ := ok_of_bind written
  rw [List.foldlM_cons] at written
  obtain ⟨t₂, wrote, rest⟩ := ok_of_bind written
  obtain ⟨place, writes⟩ := writes_of_write wrote
  -- Ways lead to the same places before, between and after the writes.
  have same := sameDirectories_of_writeAll rest
  refine ⟨place, same.walk (writes.sameDirectories.walk writes.leads), fun apart => ?_⟩
  have kept : t'.find? place = t₂.find? place :=
    find?_of_writeAll rest fun file member => same.walk_iff.not.mpr (apart file member)
  rw [kept, writes.find?, if_pos rfl]

theorem walk_join {directory file : String} (plain : '/' ∉ file.toList) (long : 2 < file.length)
    (leads : t.walk [] (wayParts (join directory file)) = .ok place) :
    ∃ inside, t.walk [] (parts directory) = .ok inside ∧ place = inside ++ [file] := by
  have filled : file.toList ≠ [] := by
    rintro empty
    simp [← String.length_toList, empty] at long
  rw [wayParts_join plain filled] at leads
  -- A name that long is none of the two that lead elsewhere.
  refine walk_append_singleton ?_ ?_ leads
  · rintro rfl
    exact absurd long (by decide)
  · rintro rfl
    exact absurd long (by decide)

theorem read_eq_ok {path text : String} (filled : path ≠ "")
    (leads : t.walk [] (wayParts path) = .ok place) (found : t.find? place = some (.file text)) :
    t.read path = .ok text := by
  simp [FileTree.read, filled, leads, found, bind, Except.bind]

end FileTree

end Pegsmith.Command
