import TypeExport.Proofs.Files.Places

/-!
# File systems on which any access may fail

A `FileSystem` carries out the accesses of a run on states of a type `σ`, and shows what stands at
each place in a state. Which accesses fail, and how, is left open: a state can hold any plan of
failures. What is required is how far an access reaches. A write touches no place but the one that its
path leads to, and directories are created only where nothing stands, at the place of a path or above it.

* `FileSystem`: the accesses, the view of a state, and how far each access reaches.
* `FileSystem.Keeps`: two states differ at most by directories that have been created.
* `FileSystem.disks`: the disks are such a file system.
* `FileSystem.scripted`: the file system that fails as a script says.
-/

namespace TypeExport

/-- What stands at each place. -/
abbrev FileTree := Place → Option DiskItem

/-- The tree with something at a place. -/
def FileTree.put (t : FileTree) (p : Place) (item : DiskItem) : FileTree := fun q =>
  if q = p then some item else t q

theorem FileTree.put_self (t : FileTree) (p : Place) (item : DiskItem) : t.put p item p = some item :=
  if_pos rfl

theorem FileTree.put_of_ne {p q : Place} (t : FileTree) (item : DiskItem) (h : q ≠ p) :
    t.put p item q = t q := if_neg h

/-- A file system that may fail at any access. -/
structure FileSystem (σ : Type) where
  access : FileAccess (StateM σ)
  /-- What stands at each place in a state. -/
  tree : σ → FileTree
  /-- The directory where relative paths begin. -/
  home : σ → Place
  /-- No access of a run changes where paths lead. -/
  pathExists_home : ∀ path st, home ((access.pathExists path).run st).2 = home st
  createDirectories_home : ∀ path st, home ((access.createDirectories path).run st).2 = home st
  writeText_home : ∀ path text st, home ((access.writeText path text).run st).2 = home st
  /-- Asking for a path changes nothing. -/
  pathExists_tree : ∀ path st, tree ((access.pathExists path).run st).2 = tree st
  /-- Creating a directory makes directories where nothing stands, at the place of its path and above it,
  also where it fails in the end. -/
  createDirectories_tree : ∀ path st q,
    let st' := ((access.createDirectories path).run st).2
    tree st' q = tree st q ∨
      q ∈ (Path.ancestors path).map (Path.place (home st)) ∧ tree st q = none ∧
        tree st' q = some .directory
  /-- A write that succeeds leaves its text at the place of its path. -/
  writeText_tree : ∀ path text st, ((access.writeText path text).run st).1 = .ok () →
    tree ((access.writeText path text).run st).2 (Path.place (home st) path) = some (.file text.toUTF8)
  /-- A write touches no other place, whether it succeeds or not. -/
  writeText_tree_of_ne : ∀ path text st q, q ≠ Path.place (home st) path →
    tree ((access.writeText path text).run st).2 q = tree st q

namespace FileSystem

variable {σ : Type} (F : FileSystem σ)

/-- From one state to another nothing changes at a place, unless a directory is created there on the
way to `path`. -/
def Keeps (path : String) (st st' : σ) (q : Place) : Prop :=
  F.tree st' q = F.tree st q ∨
    q ∈ (Path.ancestors path).map (Path.place (F.home st)) ∧ F.tree st q = none ∧
      F.tree st' q = some .directory

variable {F} {path : String} {q : Place} {st st' : σ}

theorem home_of_pathExists {b : Bool} (h : (F.access.pathExists path).run st = (b, st')) :
    F.home st' = F.home st := by
  have := F.pathExists_home path st
  rwa [h] at this

theorem tree_of_pathExists {b : Bool} (h : (F.access.pathExists path).run st = (b, st')) :
    F.tree st' = F.tree st := by
  have := F.pathExists_tree path st
  rwa [h] at this

theorem home_of_createDirectories {res : Except OsError Unit}
    (h : (F.access.createDirectories path).run st = (res, st')) : F.home st' = F.home st := by
  have := F.createDirectories_home path st
  rwa [h] at this

theorem keeps_of_createDirectories {res : Except OsError Unit}
    (h : (F.access.createDirectories path).run st = (res, st')) (q : Place) :
    F.Keeps path st st' q := by
  have := F.createDirectories_tree path st q
  rwa [h] at this

theorem home_of_write {text : String} {res : Except OsError Unit}
    (h : (F.access.writeText path text).run st = (res, st')) : F.home st' = F.home st := by
  have := F.writeText_home path text st
  rwa [h] at this

theorem tree_of_write_of_ne {text : String} {res : Except OsError Unit}
    (h : (F.access.writeText path text).run st = (res, st')) (hq : q ≠ Path.place (F.home st) path) :
    F.tree st' q = F.tree st q := by
  have := F.writeText_tree_of_ne path text st q hq
  rwa [h] at this

theorem tree_of_write {text : String}
    (h : (F.access.writeText path text).run st = (.ok (), st')) :
    F.tree st' = (F.tree st).put (Path.place (F.home st) path) (.file text.toUTF8) := by
  funext q
  by_cases hq : q = Path.place (F.home st) path
  · have hok := F.writeText_tree path text st
    rw [h] at hok
    rw [hq, hok rfl, FileTree.put_self]
  · rw [tree_of_write_of_ne h hq, FileTree.put_of_ne _ _ hq]

end FileSystem

/-! ## Disks -/

namespace Disk

variable {d : Disk} {path text : String}

/-- A file is written, or the disk stays as it is. -/
theorem writeText_run (d : Disk) (path text : String) :
    (∃ d', d.writeFile path text.toUTF8 = .ok d' ∧ (access.writeText path text).run d = (.ok (), d')) ∨
      ∃ e, (access.writeText path text).run d = (.error e, d) := by
  cases h : d.writeFile path text.toUTF8 with
  | ok d' => exact .inl ⟨d', rfl, by simp only [access, change, StateT.run, h]⟩
  | error e => exact .inr ⟨e, by simp only [access, change, StateT.run, h]⟩

end Disk

/-- The file system of disks. -/
def FileSystem.disks : FileSystem Disk where
  access := Disk.access
  tree := Disk.get?
  home := Disk.home
  pathExists_home _ _ := rfl
  createDirectories_home path d := (d.grows_makeAll (Path.ancestors path)).home
  writeText_home path text d := by
    rcases d.writeText_run path text with ⟨d', hwrite, hrun⟩ | ⟨e, hrun⟩
    · rw [hrun]
      exact (Disk.get?_writeFile hwrite).1
    · rw [hrun]
  pathExists_tree _ _ := rfl
  createDirectories_tree path d := (d.grows_makeAll (Path.ancestors path)).get?
  writeText_tree path text d hok := by
    rcases d.writeText_run path text with ⟨d', hwrite, hrun⟩ | ⟨e, hrun⟩
    · rw [hrun, (Disk.get?_writeFile hwrite).2, if_pos rfl]
    · rw [hrun] at hok
      cases hok
  writeText_tree_of_ne path text d q hq := by
    rcases d.writeText_run path text with ⟨d', hwrite, hrun⟩ | ⟨e, hrun⟩
    · rw [hrun, (Disk.get?_writeFile hwrite).2, if_neg hq]
    · rw [hrun]

/-! ## Scripted failures -/

/-- A tree, and for each coming access the error with which it fails, if it does. Relative paths begin
at the root. -/
structure Script where
  tree : FileTree
  faults : List (Option OsError) := []

namespace Script

/-- The error of the next access. -/
def fault? (s : Script) : Option OsError := s.faults.head?.join

/-- After an access. -/
def pass (s : Script) (tree : FileTree) : Script := ⟨tree, s.faults.tail⟩

/-- An access that changes the tree, or leaves another tree if it fails. -/
def change (done failed : FileTree) : StateM Script (Except OsError Unit) := fun s =>
  match s.fault? with
  | none => (.ok (), s.pass done)
  | some e => (.error e, s.pass failed)

/-- What stands at the end of a path. -/
def item? (s : Script) (path : String) : Option DiskItem := s.tree (Path.place [] path)

/-- The content of a file. -/
def read (s : Script) (path : String) : Except OsError ByteArray :=
  match s.item? path with
  | some (.file content) => .ok content
  | some .directory => .error .isDirectory
  | none => .error .notFound

/-- The text of a file. -/
def readText (s : Script) (path : String) : Except OsError String := do
  match String.fromUTF8? (← s.read path) with
  | some text => .ok text
  | none => .error .notText

theorem readText_of_item? {s : Script} {path text : String} (h : s.item? path = some (.file text.toUTF8)) :
    s.readText path = .ok text := by
  have hread : s.read path = .ok text.toUTF8 := by rw [read, h]
  have htext : String.fromUTF8? text.toUTF8 = some text := dif_pos text.isValidUTF8
  simp only [readText, hread, htext, bind, Except.bind]

/-- The tree with directories where nothing stands. -/
def fill (t : FileTree) (places : List Place) : FileTree := fun q =>
  if t q = none ∧ q ∈ places then some .directory else t q

/-- A write that fails leaves an empty file, and a directory that cannot be created is missing, while
those above it are there. -/
def access : FileAccess (StateM Script) where
  home := pure "/"
  pathExists path := fun s => (s.fault?.isNone && (s.item? path).isSome, s.pass s.tree)
  isDirectory path := fun s => ((s.item? path).any DiskItem.isDirectory, s)
  readText path := fun s => (s.readText path, s)
  readLines path := fun s => ((s.read path).map textLines, s)
  createDirectories path := fun s =>
    change (fill s.tree ((Path.ancestors path).map (Path.place [])))
      (fill s.tree ((Path.ancestors path).tail.map (Path.place []))) s
  writeText path text := fun s =>
    change (s.tree.put (Path.place [] path) (.file text.toUTF8))
      (s.tree.put (Path.place [] path) (.file .empty)) s
  list _ := pure (.ok [])

/-- A change leads to one of its two trees. -/
theorem change_run (done failed : FileTree) (s : Script) :
    (change done failed).run s = (.ok (), s.pass done) ∨
      ∃ e, (change done failed).run s = (.error e, s.pass failed) := by
  cases h : s.fault? with
  | none => exact .inl (by simp only [change, StateT.run, h])
  | some e => exact .inr ⟨e, by simp only [change, StateT.run, h]⟩

theorem fill_cases (t : FileTree) (places : List Place) (q : Place) :
    fill t places q = t q ∨ q ∈ places ∧ t q = none ∧ fill t places q = some .directory := by
  by_cases h : t q = none ∧ q ∈ places
  · exact .inr ⟨h.2, h.1, by simp only [fill, if_pos h]⟩
  · exact .inl (by simp only [fill, if_neg h])

end Script

/-- The file system of scripts: every pattern of failures is the script of some state. -/
def FileSystem.scripted : FileSystem Script where
  access := Script.access
  tree := Script.tree
  home _ := []
  pathExists_home _ _ := rfl
  createDirectories_home _ _ := rfl
  writeText_home _ _ _ := rfl
  pathExists_tree _ _ := rfl
  createDirectories_tree path s q := by
    rcases Script.change_run (Script.fill s.tree ((Path.ancestors path).map (Path.place [])))
      (Script.fill s.tree ((Path.ancestors path).tail.map (Path.place []))) s with h | ⟨e, h⟩
    · simp only [Script.access, StateT.run] at h ⊢
      rw [h]
      exact Script.fill_cases s.tree _ q
    · simp only [Script.access, StateT.run] at h ⊢
      rw [h]
      rcases Script.fill_cases s.tree ((Path.ancestors path).tail.map (Path.place [])) q with
        h | ⟨hmem, hq⟩
      · exact .inl h
      · rw [List.map_tail] at hmem
        exact .inr ⟨List.mem_of_mem_tail hmem, hq⟩
  writeText_tree path text s hok := by
    rcases Script.change_run (s.tree.put (Path.place [] path) (.file text.toUTF8))
      (s.tree.put (Path.place [] path) (.file .empty)) s with h | ⟨e, h⟩
    · simp only [Script.access, StateT.run] at h hok ⊢
      rw [h]
      exact FileTree.put_self ..
    · simp only [Script.access, StateT.run] at h hok
      rw [h] at hok
      cases hok
  writeText_tree_of_ne path text s q hq := by
    rcases Script.change_run (s.tree.put (Path.place [] path) (.file text.toUTF8))
      (s.tree.put (Path.place [] path) (.file .empty)) s with h | ⟨e, h⟩ <;>
    · simp only [Script.access, StateT.run] at h ⊢
      rw [h]
      exact FileTree.put_of_ne _ _ hq

end TypeExport
