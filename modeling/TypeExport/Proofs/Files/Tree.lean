import Mathlib.Logic.Relation
import TypeExport.Files.Disk
import TypeExport.Proofs.Lists

/-!
# Directory trees

A `DirectoryTree` is a directory with all that is below it. What it holds is given by the names that lead
there from the top.

* `DirectoryTree.Reaches`: one directory is another one or stands below it.
* `DirectoryTree.size_path_lt`: paths get longer on the way down, so the size of the longest path is a
  bound for the depth.
* `FileAccess.Shows`: a file system shows a tree in a state.
* `Disk.tree`: the trees on a disk.
-/

namespace TypeExport

/-- A directory with all that is below it. -/
structure DirectoryTree where
  /-- The path of the directory. -/
  root : String
  /-- Something stands at this path. -/
  isThere : Bool
  /-- What a directory holds, if it can be listed. -/
  listing : List String → Except OsError (List DirEntry)
  /-- The text of a file, if it can be read. -/
  text : List String → Except OsError String
  /-- A directory holds at most one thing of a name. -/
  nodup : ∀ names held, listing names = .ok held → (held.map DirEntry.name).Nodup
  /-- Names are not empty, and they have no separators. -/
  isName : ∀ names held, listing names = .ok held → ∀ e ∈ held, e.name ≠ "" ∧ '/' ∉ e.name.toList
  /-- Only paths that are not too long can be followed. -/
  size_lt : ∀ names held, listing names = .ok held →
    (names.foldl Path.join root).utf8ByteSize < Disk.pathSizeLimit

namespace DirectoryTree

variable (t : DirectoryTree)

/-- The path of a directory or file in the tree. -/
def path (names : List String) : String := names.foldl Path.join t.root

@[simp] theorem path_nil : t.path [] = t.root := rfl

@[simp] theorem path_concat (names : List String) (name : String) :
    t.path (names ++ [name]) = Path.join (t.path names) name := by
  simp only [path, List.foldl_append, List.foldl_cons, List.foldl_nil]

/-- A directory holds something. -/
def Entry (above : List String) (e : DirEntry) : Prop :=
  ∃ held, t.listing above = .ok held ∧ e ∈ held

/-- One directory stands right above another one. -/
def Above (above below : List String) : Prop :=
  ∃ e, t.Entry above e ∧ e.isDirectory = true ∧ below = above ++ [e.name]

/-- One directory is another one or stands below it. -/
def Reaches : List String → List String → Prop := Relation.ReflTransGen t.Above

variable {t} {above below : List String} {e : DirEntry}

theorem Entry.isName (h : t.Entry above e) : e.name ≠ "" ∧ '/' ∉ e.name.toList := by
  obtain ⟨held, hheld, he⟩ := h
  exact t.isName _ _ hheld e he

theorem Entry.size_lt (h : t.Entry above e) :
    (t.path above).utf8ByteSize < Disk.pathSizeLimit := by
  obtain ⟨held, hheld, -⟩ := h
  exact t.size_lt _ _ hheld

/-- What a directory reaches, it is itself, or one of those right below it reaches it. -/
theorem reaches_iff : t.Reaches above below ↔
    below = above ∨
      ∃ e, t.Entry above e ∧ e.isDirectory = true ∧ t.Reaches (above ++ [e.name]) below := by
  unfold Reaches
  rw [Relation.ReflTransGen.cases_head_iff]
  constructor
  · rintro (rfl | ⟨_, ⟨e, he, hdir, rfl⟩, hbelow⟩)
    · exact .inl rfl
    · exact .inr ⟨e, he, hdir, hbelow⟩
  · rintro (rfl | ⟨e, he, hdir, hbelow⟩)
    · exact .inl rfl
    · exact .inr ⟨_, ⟨e, he, hdir, rfl⟩, hbelow⟩

end DirectoryTree

/-- A path below another one is longer. -/
theorem Path.size_lt_join {dir name : String} (hne : name ≠ "") (hsep : '/' ∉ name.toList) :
    dir.utf8ByteSize < (Path.join dir name).utf8ByteSize := by
  have hpos : 0 < name.utf8ByteSize := Nat.pos_of_ne_zero fun h => hne (by simpa using h)
  unfold Path.join
  split
  · rename_i hname
    exact absurd (by simp [hname]) hsep
  · rename_i hdir _
    obtain rfl : dir = "" := by simpa using hdir
    simpa using hpos
  · rw [String.utf8ByteSize_append]
    omega
  · rw [String.utf8ByteSize_append, String.utf8ByteSize_append]
    omega

theorem DirectoryTree.size_path_lt {t : DirectoryTree} {above : List String} {e : DirEntry}
    (h : t.Entry above e) : (t.path above).utf8ByteSize < (t.path (above ++ [e.name])).utf8ByteSize := by
  rw [path_concat]
  exact Path.size_lt_join h.isName.1 h.isName.2

/-- In a state, a file system shows the directories and files of a tree, and looking at them leaves the
state as it is. -/
structure FileAccess.Shows {σ : Type} (files : FileAccess (StateM σ)) (st : σ) (t : DirectoryTree) :
    Prop where
  pathExists : (files.pathExists t.root).run st = (t.isThere, st)
  list : ∀ names, (files.list (t.path names)).run st = (t.listing names, st)
  readText : ∀ names, (files.readText (t.path names)).run st = (t.text names, st)

/-! ## Trees on disks -/

namespace Disk

/-- Nothing stands twice on the disk, and the names on it can stand in paths. -/
def WellFormed (d : Disk) : Prop :=
  (d.items.map Prod.fst).Nodup ∧ ∀ i ∈ d.items, ∀ n ∈ i.1, n ≠ "" ∧ '/' ∉ n.toList

instance (d : Disk) : Decidable d.WellFormed := inferInstanceAs (Decidable (_ ∧ _))

variable {d : Disk} {path : String} {here : Place} {held : List DirEntry}

/-- What a place shows in a directory stands there under the last name of the place. -/
theorem place_eq_of_entry {place : Place} {item : DiskItem} {e : DirEntry}
    (h : (match place.getLast? with
      | some name => if place.dropLast == here then some (DirEntry.mk name item.isDirectory) else none
      | none => none) = some e) : place = here ++ [e.name] := by
  cases hlast : place.getLast? with
  | none => simp [hlast] at h
  | some name =>
    obtain ⟨init, rfl⟩ := List.getLast?_eq_some_iff.mp hlast
    simp only [hlast, List.dropLast_concat, beq_iff_eq, Option.ite_none_right_eq_some,
      Option.some.injEq] at h
    obtain ⟨rfl, rfl⟩ := h
    rfl

theorem exists_place_of_mem_contents {e : DirEntry} (h : e ∈ d.contents here) :
    ∃ i ∈ d.items, i.1 = here ++ [e.name] := by
  obtain ⟨i, hi, hentry⟩ := List.mem_filterMap.mp h
  exact ⟨i, hi, place_eq_of_entry hentry⟩

theorem nodup_contents (h : d.WellFormed) : ((d.contents here).map DirEntry.name).Nodup := by
  refine List.pairwise_map.mpr (List.pairwise_filterMap.mpr ?_)
  refine (List.pairwise_map.mp h.1).imp fun {i j} hij e he e' he' hname => hij ?_
  rw [place_eq_of_entry he, place_eq_of_entry he', hname]

theorem size_lt_of_target {target : Target} (h : d.target path = .ok target) :
    path.utf8ByteSize < pathSizeLimit := by
  by_contra hlong
  unfold Disk.target at h
  simp only [Nat.not_lt.mp hlong, if_true] at h
  split_ifs at h

/-- A directory that can be listed stands at a place, and its path is not too long. -/
theorem listDirectory_eq_ok (h : d.listDirectory path = .ok held) :
    (∃ here, held = d.contents here) ∧ path.utf8ByteSize < pathSizeLimit := by
  obtain ⟨target, htarget, h⟩ := Except.bind_eq_ok_iff.mp h
  refine ⟨⟨target.place, ?_⟩, size_lt_of_target htarget⟩
  split at h
  · exact (Except.ok.inj h).symm
  · cases h
  · cases h

/-- The tree at a path. -/
def tree (d : Disk) (h : d.WellFormed) (root : String) : DirectoryTree where
  root := root
  isThere := d.pathExists root
  listing names := d.listDirectory (names.foldl Path.join root)
  text names := d.readText (names.foldl Path.join root)
  nodup names held hheld := by
    obtain ⟨⟨here, rfl⟩, -⟩ := listDirectory_eq_ok hheld
    exact nodup_contents h
  isName names held hheld e he := by
    obtain ⟨⟨here, rfl⟩, -⟩ := listDirectory_eq_ok hheld
    obtain ⟨i, hi, hplace⟩ := exists_place_of_mem_contents he
    exact h.2 i hi e.name (by simp [hplace])
  size_lt names held hheld := (listDirectory_eq_ok hheld).2

/-- A disk shows all its trees. -/
theorem shows_tree (h : d.WellFormed) (root : String) : access.Shows d (d.tree h root) where
  pathExists := rfl
  list _ := rfl
  readText _ := rfl

end Disk

end TypeExport
