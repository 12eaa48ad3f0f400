import Mathlib.Data.List.Sort
import TypeExport.Proofs.Source.Project
import TypeExport.Proofs.Source.Visiting

/-!
# What a scan makes of a directory tree

A scan takes the source files of a tree one by one. Each file adds what it declares under its own module
path, whatever the other files are.

* `Source.Adds`: what a file adds, from the names that lead to it and its text.
* `Schema.scan_run`: the model of a scan, from the texts of the source files.
* `Schema.readable_of_scan`: a scan that gives a model has read all source files.
* `Schema.scan_outcome`: the files that do not follow the grammar and those of other kinds make no
  difference.
-/

namespace TypeExport

/-! ## What source files add -/

namespace Source

/-- What a source file adds: the declarations in its text under its own module path, and nothing if the text does
not follow the grammar. -/
inductive Adds (names : List String) (text : String) : List Declaration → Prop where
  | valid {items : List Item} {modules : List String} (parsed : itemsOfFile? text = some items)
    (path : IsModulePath names modules) :
    Adds names text (declarations (String.intercalate "::" modules) items)
  | invalid (notParsed : itemsOfFile? text = none) : Adds names text []

theorem Adds.eq_nil {names : List String} {text : String} {ds : List Declaration} (h : Adds names text ds)
    (hinvalid : itemsOfFile? text = none) : ds = [] := by
  cases h with
  | valid parsed => cases hinvalid.symm.trans parsed
  | invalid => rfl

end Source

namespace DirectoryTree

variable {t : DirectoryTree} {names : List String}

/-- The text of a file, empty if it cannot be read. -/
def textOf (t : DirectoryTree) (names : List String) : String := (t.text names).toOption.getD ""

/-- The source files with their texts in the order in which they are visited. -/
def visited (t : DirectoryTree) : List (List String × String) :=
  t.sources.map fun names => (names, t.textOf names)

theorem textOf_eq {text : String} (h : t.text names = .ok text) : t.textOf names = text := by
  rw [textOf, h]
  rfl

theorem mem_visited_iff (hreadable : t.Readable) {text : String} :
    (names, text) ∈ t.visited ↔ t.HasSource names text := by
  simp only [visited, List.mem_map, mem_sources_iff, Prod.mk.injEq]
  constructor
  · rintro ⟨names, hnames, rfl, rfl⟩
    obtain ⟨text, htext⟩ := hreadable names hnames
    exact ⟨hnames, by rw [textOf_eq htext, htext]⟩
  · rintro ⟨hnames, htext⟩
    exact ⟨names, hnames, rfl, textOf_eq htext⟩

theorem readable_of_visited (h : ∀ x ∈ t.visited, t.text x.1 = .ok x.2) : t.Readable := by
  intro names hnames
  exact ⟨_, h (names, t.textOf names) (List.mem_map.mpr ⟨names, mem_sources_iff.mpr hnames, rfl⟩)⟩

theorem pairwise_visited : t.visited.Pairwise fun a b => a.1 < b.1 :=
  List.pairwise_map.mpr pairwise_sources

end DirectoryTree

namespace DirectoryTree

variable {t : DirectoryTree} {names : List String} {text : String}

/-- What a file of the tree is taken to declare, if this is its text. -/
def declarations (t : DirectoryTree) (names : List String) (text : String) : List Declaration :=
  (t.sourceFile names).declarations text

theorem adds_declarations (h : t.IsSource names) (text : String) :
    Source.Adds names text (t.declarations names text) := by
  unfold declarations Source.SourceFile.declarations
  split
  · next hparsed =>
    exact .valid hparsed (Source.isModulePath_iff.mpr ⟨h.isSourceName, rfl⟩)
  · next hinvalid => exact .invalid hinvalid

theorem forall₂_adds : List.Forall₂ (fun x ds => Source.Adds x.1 x.2 ds) t.visited
    (t.visited.map fun x => t.declarations x.1 x.2) := by
  refine List.forall₂_map_right_iff.mpr (List.forall₂_same.mpr fun x hx => ?_)
  obtain ⟨names, hnames, rfl⟩ := List.mem_map.mp hx
  exact adds_declarations (mem_sources_iff.mp hnames) _

end DirectoryTree

/-! ## The model of a scan -/

namespace Schema

open Source (SourceFile IsModulePath Adds isSourceName maxDepth itemsOfFile?)

variable {σ : Type} {files : FileAccess (StateM σ)} {st : σ} {t : DirectoryTree}

/-- What the scan of a tree gets from a file. -/
def loaded (t : DirectoryTree) (names : List String) : Except ExportError (List Declaration) :=
  match t.text names with
  | .ok text => .ok (t.declarations names text)
  | .error e => .error (.io e)

theorem load_run (hshows : files.Shows st t) (names : List String) :
    ((t.sourceFile names).load files).run.run st = (loaded t names, st) := by
  have hread : (liftM (files.readText (t.path names)) :
      ExceptT ExportError (StateM σ) (Except OsError String)).run.run st = (.ok (t.text names), st) := by
    change (Except.ok <$> files.readText (t.path names)).run st = _
    rw [StateT.run_map, hshows.readText]
    rfl
  refine (run_run_bind_of_run hread).trans ?_
  unfold loaded
  cases t.text names <;> rfl

/-- A scan takes the source files of the tree in the order in which they are visited. -/
theorem scan_eq_mapM (hshows : files.Shows st t) : (scan files t.root).run st =
    ((t.sources.mapM (loaded t)).map fun parts => { types := parts.flatten }, st) := by
  have hload : (List.mapM (SourceFile.load files) (t.sources.map t.sourceFile)).run.run st =
      (t.sources.mapM (loaded t), st) := by
    rw [List.mapM_map]
    exact run_run_mapM_of_forall fun names _ => load_run hshows names
  refine (run_bind_of_run (DirectoryTree.sourceFiles_run hshows)).trans ?_
  exact run_bind_of_run hload

/-- The model has the declarations of the source files one after the other. -/
theorem scan_run (hshows : files.Shows st t) (hreadable : t.Readable) :
    (scan files t.root).run st =
      (.ok { types := (t.visited.map fun x => t.declarations x.1 x.2).flatten }, st) := by
  have hloaded : t.sources.mapM (loaded t) = .ok (t.visited.map fun x => t.declarations x.1 x.2) := by
    rw [DirectoryTree.visited, List.map_map, List.mapM_eq_ok_iff, List.forall₂_map_right_iff,
      List.forall₂_same]
    intro names hnames
    obtain ⟨text, htext⟩ := hreadable names (DirectoryTree.mem_sources_iff.mp hnames)
    simp only [loaded, htext, Function.comp_apply, DirectoryTree.textOf_eq htext]
  rw [scan_eq_mapM hshows, hloaded]
  rfl

/-- A scan that gives a model has read all source files. -/
theorem readable_of_scan (hshows : files.Shows st t) {s : Schema}
    (h : ((scan files t.root).run st).1 = .ok s) : t.Readable := by
  rw [scan_eq_mapM hshows] at h
  cases hparts : t.sources.mapM (loaded t) with
  | error e =>
    rw [hparts] at h
    cases h
  | ok parts =>
    have hread : List.Forall₂ (fun names ds => (∃ text, t.text names = .ok text) ∧ loaded t names = .ok ds)
        t.sources parts := by
      refine (List.mapM_eq_ok_iff.mp hparts).imp fun names ds hds => ⟨?_, hds⟩
      unfold loaded at hds
      split at hds
      · next text htext => exact ⟨text, htext⟩
      · cases hds
    intro names hnames
    exact ((List.forall₂_and_left _ _).mp hread).1 names (DirectoryTree.mem_sources_iff.mpr hnames)

/-! ## Files that make no difference -/

/-- The files that follow the grammar. -/
def validFiles (visited : List (List String × String)) : List (List String × String) :=
  visited.filter fun x => (itemsOfFile? x.2).isSome

theorem flatMap_validFiles (t : DirectoryTree) :
    (validFiles t.visited).flatMap (fun x => t.declarations x.1 x.2) =
      (t.visited.map fun x => t.declarations x.1 x.2).flatten := by
  rw [← List.flatMap_def]
  refine List.flatMap_filter_of_forall fun x hx hinvalid => ?_
  obtain ⟨names, hnames, rfl⟩ := List.mem_map.mp hx
  have hadds := DirectoryTree.adds_declarations (DirectoryTree.mem_sources_iff.mp hnames) (t.textOf names)
  exact hadds.eq_nil (by simpa using hinvalid)

/-- There is one order of visiting. -/
theorem visited_unique {visited visited' : List (List String × String)}
    (hsorted : visited.Pairwise fun a b => a.1 < b.1)
    (hsorted' : visited'.Pairwise fun a b => a.1 < b.1) (h : ∀ x, x ∈ visited ↔ x ∈ visited') :
    visited = visited' := by
  have hirrefl : Std.Irrefl fun a b : List String × String => a.1 < b.1 :=
    ⟨fun a => List.lt_irrefl a.1⟩
  have hantisymm : Std.Antisymm fun a b : List String × String => a.1 < b.1 :=
    ⟨fun a b hab hba => absurd hba (List.lt_asymm hab)⟩
  exact hsorted.eq_of_mem_iff hsorted' h

theorem scan_eq_of_hasSource_iff {σ' : Type} {files' : FileAccess (StateM σ')} {st' : σ'}
    {t' : DirectoryTree} (hshows : files.Shows st t) (hreadable : t.Readable)
    (hshows' : files'.Shows st' t') (hreadable' : t'.Readable)
    (h : ∀ names text, itemsOfFile? text ≠ none →
      (t.HasSource names text ↔ t'.HasSource names text)) :
    ((scan files' t'.root).run st').1 = ((scan files t.root).run st).1 := by
  have hvalid : validFiles t.visited = validFiles t'.visited := by
    refine visited_unique (DirectoryTree.pairwise_visited.filter _)
      (DirectoryTree.pairwise_visited.filter _) ?_
    rintro ⟨names, text⟩
    simp only [validFiles, List.mem_filter, Option.isSome_iff_ne_none,
      DirectoryTree.mem_visited_iff hreadable, DirectoryTree.mem_visited_iff hreadable']
    exact and_congr_left (h names text)
  rw [scan_run hshows hreadable, scan_run hshows' hreadable', ← flatMap_validFiles, ← flatMap_validFiles,
    hvalid]
  rfl

/-- A scan of a tree whose source files can be read takes them one by one: the model has what each single
file adds under its own module path, in the order of the names that lead to the files, with what a
directory holds right after the directory. A file that does not follow the grammar adds nothing. Two scans, of
whatever trees, have the same model if the same files that follow the grammar are in the trees. -/
theorem scan_outcome (hshows : files.Shows st t) (hreadable : t.Readable) :
    (∃ (visited : List (List String × String)) (parts : List (List Declaration)),
      (visited.map Prod.fst).Pairwise (· < ·) ∧
      (∀ names text, (names, text) ∈ visited ↔ t.HasSource names text) ∧
      List.Forall₂ (fun x ds => Adds x.1 x.2 ds) visited parts ∧
      (scan files t.root).run st = (.ok { types := parts.flatten }, st)) ∧
    (∀ names text ds, itemsOfFile? text = none → Adds names text ds → ds = []) ∧
    ∀ {σ' : Type} {files' : FileAccess (StateM σ')} {st' : σ'} {t' : DirectoryTree},
      files'.Shows st' t' → t'.Readable →
      (∀ names text, itemsOfFile? text ≠ none →
        (t.HasSource names text ↔ t'.HasSource names text)) →
      ((scan files' t'.root).run st').1 = ((scan files t.root).run st).1 := by
  refine ⟨⟨t.visited, _, ?_, ?_, DirectoryTree.forall₂_adds, scan_run hshows hreadable⟩, ?_, ?_⟩
  · exact List.pairwise_map.mpr DirectoryTree.pairwise_visited
  · exact fun names text => DirectoryTree.mem_visited_iff hreadable
  · exact fun names text ds hinvalid hadds => hadds.eq_nil hinvalid
  · exact fun hshows' hreadable' => scan_eq_of_hasSource_iff hshows hreadable hshows' hreadable'

/-! ### A project with other files -/

def lineText : String := "pub struct Line \x7b pub id: i32 \x7d"

/-- A text that breaks off. -/
def brokenText : String := "pub struct Broken \x7b"

/-- A disk with a source file in a directory of a project, and with other files next to the directory. -/
def lineProject (others : List (String × String)) : Disk where
  items := (["src"], .directory) :: others.map (fun f => (["src", f.1], .file f.2.toUTF8)) ++
    [(["src", "dto"], .directory), (["src", "dto", "mod.rs"], .file lineText.toUTF8)]

/-- A file of another kind, and one that breaks off. -/
def strayFiles : List (String × String) := [("about.txt", lineText), ("broken.rs", brokenText)]

theorem wellFormed_lineProject :
    (lineProject []).WellFormed ∧ (lineProject strayFiles).WellFormed := by
  decide

def lineTree : DirectoryTree := (lineProject []).tree wellFormed_lineProject.1 "src"

def strayTree : DirectoryTree := (lineProject strayFiles).tree wellFormed_lineProject.2 "src"

theorem visited_lineTree : lineTree.visited = [(["dto", "mod.rs"], lineText)] := by
  decide +kernel

theorem sources_strayTree : strayTree.sources = [["broken.rs"], ["dto", "mod.rs"]] := by
  have htop : strayTree.listing [] =
      .ok [⟨"about.txt", false⟩, ⟨"broken.rs", false⟩, ⟨"dto", true⟩] :=
    Except.toOption_eq_some_iff.mp (by decide +kernel)
  have hdto : strayTree.listing ["dto"] = .ok [⟨"mod.rs", false⟩] :=
    Except.toOption_eq_some_iff.mp (by decide +kernel)
  have hroot : isSourceName strayTree.root = false := by decide +kernel
  have habout : isSourceName "about.txt" = false := by decide +kernel
  have hbroken : isSourceName "broken.rs" = true := by decide +kernel
  have hdir : isSourceName "dto" = false := by decide +kernel
  have hmod : isSourceName "mod.rs" = true := by decide +kernel
  have hbelow (depth : Nat) : strayTree.sourcesIn (depth + 1) ["dto"] = [["dto", "mod.rs"]] := by
    rw [DirectoryTree.sourcesIn_of_sorted hdto (by decide +kernel)]
    simp [DirectoryTree.entrySources, hmod]
  rw [DirectoryTree.sources, maxDepth, hroot,
    DirectoryTree.sourcesIn_of_sorted htop (by decide +kernel)]
  simpa [DirectoryTree.entrySources, habout, hbroken, hdir] using hbelow 4094

theorem visited_strayTree :
    strayTree.visited = [(["broken.rs"], brokenText), (["dto", "mod.rs"], lineText)] := by
  rw [DirectoryTree.visited, sources_strayTree]
  decide +kernel

theorem readable_lineTree : lineTree.Readable := by
  refine DirectoryTree.readable_of_visited ?_
  rw [visited_lineTree]
  exact List.forall_mem_singleton.mpr (Except.toOption_eq_some_iff.mp (by decide +kernel))

theorem readable_strayTree : strayTree.Readable := by
  refine DirectoryTree.readable_of_visited ?_
  rw [visited_strayTree]
  refine List.forall_mem_cons.mpr ⟨?_, List.forall_mem_singleton.mpr ?_⟩
  · exact Except.toOption_eq_some_iff.mp (by decide +kernel)
  · exact Except.toOption_eq_some_iff.mp (by decide +kernel)

theorem hasSource_strayTree_iff {names : List String} {text : String}
    (hvalid : itemsOfFile? text ≠ none) :
    strayTree.HasSource names text ↔ lineTree.HasSource names text := by
  have hbroken : itemsOfFile? brokenText = none :=
    Option.isNone_iff_eq_none.mp (by decide +kernel)
  have hne : text ≠ brokenText := fun h => hvalid (h ▸ hbroken)
  rw [← DirectoryTree.mem_visited_iff readable_strayTree, visited_strayTree,
    ← DirectoryTree.mem_visited_iff readable_lineTree, visited_lineTree]
  simp [hne]

/-- The source file adds its structure in its own module, whatever stands next to it. -/
theorem scan_outcome_strayTree :
    strayTree.Readable ∧
    (∃ s, ((scan Disk.access strayTree.root).run (lineProject strayFiles)).1 = .ok s ∧
      s.types.map (fun d => (d.ns, d.name)) = [("crate::dto", "Line")]) ∧
    ((scan Disk.access lineTree.root).run (lineProject [])).1 =
      ((scan Disk.access strayTree.root).run (lineProject strayFiles)).1 := by
  obtain ⟨⟨visited, parts, hsorted, hmem, hadds, hrun⟩, hinvalid, hsame⟩ :=
    scan_outcome (Disk.shows_tree wellFormed_lineProject.2 "src") readable_strayTree
  refine ⟨readable_strayTree, ⟨_, congrArg Prod.fst hrun, ?_⟩,
    hsame (Disk.shows_tree wellFormed_lineProject.1 "src") readable_lineTree
      fun names text => hasSource_strayTree_iff⟩
  obtain rfl : visited = strayTree.visited := by
    refine visited_unique (List.pairwise_map.mp hsorted) DirectoryTree.pairwise_visited ?_
    exact fun x => (hmem x.1 x.2).trans (DirectoryTree.mem_visited_iff readable_strayTree).symm
  rw [visited_strayTree] at hadds
  obtain ⟨_, _, hbroken, hfollowing, rfl⟩ := List.forall₂_cons_left_iff.mp hadds
  obtain ⟨_, _, hline, hlast, rfl⟩ := List.forall₂_cons_left_iff.mp hfollowing
  obtain rfl := List.forall₂_nil_left_iff.mp hlast
  obtain rfl := hinvalid _ _ _ (Option.isNone_iff_eq_none.mp (by decide +kernel)) hbroken
  have hdeclared : (itemsOfFile? lineText).map (fun items =>
      (Source.declarations "crate::dto" items).map fun d => (d.ns, d.name)) =
        some [("crate::dto", "Line")] := by
    decide +kernel
  cases hline with
  | @valid items modules parsed path =>
    obtain rfl : modules = ["crate", "dto"] := (Source.isModulePath_iff.mp path).2.trans (by decide +kernel)
    rw [parsed] at hdeclared
    simpa using hdeclared
  | invalid notParsed => rw [notParsed] at hdeclared; cases hdeclared

end Schema

end TypeExport
