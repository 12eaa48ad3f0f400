import Mathlib.Data.List.Lex
import TypeExport.Proofs.Actions
import TypeExport.Proofs.Files.Tree
import TypeExport.Proofs.Source.ModulePaths

/-!
# The source files of a directory tree

A scan visits the source files of a directory tree in the order of the names that lead to them. Lists of
names are compared name by name, and a list comes before those that go on after it. So what a directory
holds is visited after what stands before the directory, and before what follows it.

* `DirectoryTree.IsSource`: the source files of a tree.
* `DirectoryTree.sources`: the files that are visited (`DirectoryTree.sourceFiles_run`).
* `DirectoryTree.mem_sources_iff`: they are the source files of the tree.
* `DirectoryTree.pairwise_sources`: they are in order.
-/

namespace TypeExport

open Source (IsSourceName SourceFile isSourceName filesIn maxDepth sourceFile?)

/-! ## Source files of a tree -/

namespace DirectoryTree

variable (t : DirectoryTree)

/-- The name of a source file stands below a directory. A directory with such a name counts as well. -/
def IsSourceBelow (above names : List String) : Prop :=
  ∃ dir e, t.Reaches above dir ∧ t.Entry dir e ∧ IsSourceName e.name ∧ names = dir ++ [e.name]

/-- What stands at the top of the tree has the name of a source file. -/
def IsSourceAtTop : Prop :=
  t.isThere = true ∧ ∃ name, Path.fileName? t.root = some name ∧ IsSourceName name

/-- The tree has a source file: one below the directory at the top, or what stands at the top itself. -/
def IsSource (names : List String) : Prop := names = [] ∧ t.IsSourceAtTop ∨ t.IsSourceBelow [] names

/-- The tree has a source file with a text. -/
def HasSource (names : List String) (text : String) : Prop :=
  t.IsSource names ∧ t.text names = .ok text

/-- All source files can be read. -/
def Readable : Prop := ∀ names, t.IsSource names → ∃ text, t.text names = .ok text

/-- What is visited at a thing in a directory, the thing itself before what is below it. -/
def entrySources (below : List String → List (List String)) (above : List String) (e : DirEntry) :
    List (List String) :=
  (if isSourceName e.name then [above ++ [e.name]] else []) ++
    if e.isDirectory then below (above ++ [e.name]) else []

/-- The source files below a directory in the order in which they are visited, down to a depth. -/
def sourcesIn : Nat → List String → List (List String)
  | 0, _ => []
  | depth + 1, above =>
    match t.listing above with
    | .error _ => []
    | .ok held =>
      (held.mergeSort fun a b => a.name ≤ b.name).flatMap (entrySources (sourcesIn depth) above)

/-- The source files of the tree in the order in which they are visited. -/
def sources : List (List String) :=
  (if t.isThere && isSourceName t.root then [[]] else []) ++ t.sourcesIn maxDepth []

/-- A source file of the tree as it is found. -/
def sourceFile (names : List String) : SourceFile := ⟨t.path names, Source.withoutExtension names⟩

variable {t} {depth : Nat} {above names : List String}

/-! ### The files that are found -/

section

variable {σ : Type} {files : FileAccess (StateM σ)} {st : σ}

theorem sourceFile_concat (above : List String) (name : String) :
    t.sourceFile (above ++ [name]) =
      ⟨Path.join (t.path above) name, above ++ [Path.withoutExtension name]⟩ := by
  rw [sourceFile, path_concat, Source.withoutExtension, List.modifyLast_concat]

theorem sourceFile?_toList (above : List String) (name : String) :
    (sourceFile? (t.path above) above name).toList =
      (if isSourceName name then [above ++ [name]] else []).map t.sourceFile := by
  unfold sourceFile?
  split
  · rw [List.map_singleton, sourceFile_concat]
    rfl
  · rfl

theorem filesIn_run (hshows : files.Shows st t) (depth : Nat) (above : List String) :
    (filesIn files depth (t.path above) above).run st =
      ((t.sourcesIn depth above).map t.sourceFile, st) := by
  induction depth generalizing above with
  | zero => rfl
  | succ depth ih =>
    rw [filesIn, run_bind_of_run (hshows.list above), sourcesIn]
    cases t.listing above with
    | error e => rfl
    | ok held =>
      rw [List.map_flatMap, List.flatMap_def]
      refine (run_bind_of_run (run_mapM_of_forall fun e _ => ?_)).trans rfl
      rw [entrySources, List.map_append, ← sourceFile?_toList]
      split
      · rw [← path_concat, run_bind_of_run (ih (above ++ [e.name]))]
        rfl
      · rfl

theorem sourceFiles_run (hshows : files.Shows st t) :
    (Source.sourceFiles files t.root).run st = (t.sources.map t.sourceFile, st) := by
  have hbelow := filesIn_run hshows maxDepth []
  have hsources (isSource : Bool) (h : (t.isThere && isSourceName t.root) = isSource) :
      ((if isSource then [⟨t.root, []⟩] else []) ++ (t.sourcesIn maxDepth []).map t.sourceFile) =
        t.sources.map t.sourceFile := by
    rw [sources, h, List.map_append]
    cases isSource <;> rfl
  unfold Source.sourceFiles
  split
  · next hname =>
    refine (run_bind_of_run hshows.pathExists).trans ((run_bind_of_run hbelow).trans ?_)
    rw [← hsources t.isThere (by rw [hname, Bool.and_true])]
    rfl
  · next hname =>
    refine (run_bind_of_run hbelow).trans ?_
    rw [← hsources false (by rw [Bool.eq_false_iff.mpr hname, Bool.and_false])]
    rfl

end

/-! ### All source files are found -/

theorem mem_entrySources_iff {below : List String → List (List String)} {e : DirEntry} :
    names ∈ entrySources below above e ↔
      isSourceName e.name = true ∧ names = above ++ [e.name] ∨
        e.isDirectory = true ∧ names ∈ below (above ++ [e.name]) := by
  simp only [entrySources, List.mem_append, List.mem_ite_nil_right, List.mem_singleton]

theorem isSourceBelow_iff : t.IsSourceBelow above names ↔
    ∃ e, t.Entry above e ∧ (IsSourceName e.name ∧ names = above ++ [e.name] ∨
      e.isDirectory = true ∧ t.IsSourceBelow (above ++ [e.name]) names) := by
  constructor
  · rintro ⟨dir, e, hreaches, he, hsource, hnames⟩
    rcases reaches_iff.mp hreaches with rfl | ⟨e', he', hdir, hreaches⟩
    · exact ⟨e, he, .inl ⟨hsource, hnames⟩⟩
    · exact ⟨e', he', .inr ⟨hdir, dir, e, hreaches, he, hsource, hnames⟩⟩
  · rintro ⟨e, he, ⟨hsource, hnames⟩ | ⟨hdir, dir, e', hreaches, he', hsource, hnames⟩⟩
    · exact ⟨above, e, reaches_iff.mpr (.inl rfl), he, hsource, hnames⟩
    · exact ⟨dir, e', reaches_iff.mpr (.inr ⟨e, he, hdir, hreaches⟩), he', hsource, hnames⟩

/-- Where the paths are too long for the depth that is left, there is nothing more to find. -/
theorem mem_sourcesIn_iff (h : Disk.pathSizeLimit ≤ depth + (t.path above).utf8ByteSize) :
    names ∈ t.sourcesIn depth above ↔ t.IsSourceBelow above names := by
  induction depth generalizing above with
  | zero =>
    rw [isSourceBelow_iff]
    refine iff_of_false (List.not_mem_nil) ?_
    rintro ⟨e, he, -⟩
    have := he.size_lt
    omega
  | succ depth ih =>
    have hbelow {e : DirEntry} (he : t.Entry above e) :
        names ∈ t.sourcesIn depth (above ++ [e.name]) ↔ t.IsSourceBelow (above ++ [e.name]) names := by
      have := size_path_lt he
      exact ih (by omega)
    rw [isSourceBelow_iff, sourcesIn]
    cases hlisting : t.listing above with
    | error e => simp [Entry, hlisting]
    | ok held =>
      simp only [List.mem_flatMap, List.mem_mergeSort, mem_entrySources_iff]
      refine exists_congr fun e => ?_
      have hentry : t.Entry above e ↔ e ∈ held := by simp [Entry, hlisting]
      rw [hentry]
      refine and_congr_right fun he => ?_
      have hname := (hentry.mpr he).isName.2
      rw [hbelow (hentry.mpr he), Source.isSourceName_iff_of_notMem hname]

theorem mem_sources_iff : names ∈ t.sources ↔ t.IsSource names := by
  have hbelow : names ∈ t.sourcesIn maxDepth [] ↔ t.IsSourceBelow [] names :=
    mem_sourcesIn_iff (Nat.le_add_right _ _)
  simp only [sources, IsSource, IsSourceAtTop, ← Source.isSourceName_iff, List.mem_append,
    List.mem_ite_nil_right, List.mem_singleton, hbelow, Bool.and_eq_true, and_comm]

/-- What the names of a source file are. -/
theorem IsSource.isSourceName (h : t.IsSource names) : ∀ file ∈ names.getLast?, IsSourceName file := by
  rcases h with ⟨rfl, -⟩ | ⟨dir, e, -, -, hsource, rfl⟩
  · simp
  · simpa using hsource

/-! ### The order of source files -/

/-- What is visited below a directory stands below it. -/
def StaysBelow (below : List String → List (List String)) : Prop :=
  ∀ above, ∀ names ∈ below above, ∃ name rest, names = above ++ name :: rest

section

variable {below : List String → List (List String)} {e : DirEntry}

theorem exists_of_mem_entrySources (hbelow : StaysBelow below)
    (h : names ∈ entrySources below above e) : ∃ rest, names = above ++ e.name :: rest := by
  rcases mem_entrySources_iff.mp h with ⟨-, rfl⟩ | ⟨-, h⟩
  · exact ⟨[], rfl⟩
  · obtain ⟨name, rest, rfl⟩ := hbelow _ _ h
    exact ⟨name :: rest, by simp⟩

/-- What a directory holds is visited after the directory. -/
theorem pairwise_entrySources (hbelow : StaysBelow below)
    (hsorted : ∀ above, (below above).Pairwise (· < ·)) :
    (entrySources below above e).Pairwise (· < ·) := by
  refine List.pairwise_append.mpr ⟨?_, ?_, fun names hnames names' hnames' => ?_⟩
  · split <;> simp
  · split
    · exact hsorted _
    · exact .nil
  · obtain ⟨-, rfl⟩ : isSourceName e.name = true ∧ names = above ++ [e.name] := by simpa using hnames
    obtain ⟨-, hnames'⟩ : e.isDirectory = true ∧ names' ∈ below (above ++ [e.name]) := by
      simpa using hnames'
    obtain ⟨name, rest, rfl⟩ := hbelow _ _ hnames'
    rw [List.append_assoc]
    exact List.Lex.append_left _ (.cons .nil) above

/-- What stands in a directory under an earlier name is visited earlier, and so is all that is below it. -/
theorem lt_of_mem_entrySources {e' : DirEntry} {names' : List String} (hbelow : StaysBelow below)
    (hlt : e.name < e'.name) (h : names ∈ entrySources below above e)
    (h' : names' ∈ entrySources below above e') : names < names' := by
  obtain ⟨rest, rfl⟩ := exists_of_mem_entrySources hbelow h
  obtain ⟨rest', rfl⟩ := exists_of_mem_entrySources hbelow h'
  exact List.Lex.append_left _ (.rel hlt) above

end

/-- Sorting puts different names in strict order. -/
theorem pairwise_mergeSort_name {held : List DirEntry} (h : (held.map DirEntry.name).Nodup) :
    (held.mergeSort fun a b => a.name ≤ b.name).Pairwise fun a b => a.name < b.name := by
  let le (a b : DirEntry) : Bool := a.name ≤ b.name
  have htrans (a b c : DirEntry) (hab : le a b) (hbc : le b c) : le a c :=
    decide_eq_true (String.le_trans (of_decide_eq_true hab) (of_decide_eq_true hbc))
  have htotal (a b : DirEntry) : le a b || le b a := by
    simpa [le] using String.le_total a.name b.name
  have hsorted : (held.mergeSort le).Pairwise fun a b => le a b :=
    List.pairwise_mergeSort htrans htotal held
  have hnodup : ((held.mergeSort le).map DirEntry.name).Nodup :=
    ((List.mergeSort_perm held le).map _).nodup_iff.mpr h
  refine hsorted.imp₂ (fun a b hab hne => ?_) (List.pairwise_map.mp hnodup)
  exact String.not_le.mp fun hba => hne (String.le_antisymm (of_decide_eq_true hab) hba)

theorem staysBelow_sourcesIn (depth : Nat) : StaysBelow (t.sourcesIn depth) := by
  intro above names h
  induction depth generalizing above names with
  | zero => cases h
  | succ depth ih =>
    rw [sourcesIn] at h
    split at h
    · cases h
    · obtain ⟨e, -, h⟩ := List.mem_flatMap.mp h
      exact ⟨e.name, exists_of_mem_entrySources ih h⟩

theorem pairwise_sourcesIn : (t.sourcesIn depth above).Pairwise (· < ·) := by
  induction depth generalizing above with
  | zero => exact .nil
  | succ depth ih =>
    have hbelow := t.staysBelow_sourcesIn depth
    rw [sourcesIn]
    split
    · exact .nil
    · rename_i held hlisting
      refine List.pairwise_flatMap.mpr ⟨fun e _ => pairwise_entrySources hbelow fun _ => ih, ?_⟩
      exact (pairwise_mergeSort_name (t.nodup _ _ hlisting)).imp fun hlt names h names' h' =>
        lt_of_mem_entrySources hbelow hlt h h'

theorem pairwise_sources : t.sources.Pairwise (· < ·) := by
  refine List.pairwise_append.mpr ⟨?_, pairwise_sourcesIn, fun names hnames names' hnames' => ?_⟩
  · split <;> simp
  · obtain ⟨-, rfl⟩ : (t.isThere && isSourceName t.root) = true ∧ names = [] := by simpa using hnames
    obtain ⟨name, rest, rfl⟩ := t.staysBelow_sourcesIn _ _ _ hnames'
    exact .nil

/-- A directory that is listed in order is visited as it is listed. -/
theorem sourcesIn_of_sorted {held : List DirEntry} (hlisting : t.listing above = .ok held)
    (hsorted : held.Pairwise fun a b => a.name ≤ b.name) :
    t.sourcesIn (depth + 1) above = held.flatMap (entrySources (t.sourcesIn depth) above) := by
  simp only [sourcesIn, hlisting, List.mergeSort_of_pairwise (hsorted.imp decide_eq_true)]

end DirectoryTree

end TypeExport
