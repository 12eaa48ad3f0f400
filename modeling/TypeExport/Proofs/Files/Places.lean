import TypeExport.Files.Disk
import TypeExport.Proofs.Lists

/-!
# Places of paths

Two paths can lead to one place: `a`, `./a` and `b/../a` do. What an access does is a matter of places.

* `Path.place`: the place that a path leads to from a directory.
* `Path.place_join_name`: a name in a directory leads right below the directory.
* `Disk.target_eq_ok`: where a path can be followed on a disk, this is the place it leads to.
* `Disk.get?_put`: a place has what was put there last, and nothing else changes.
* `Disk.grows_makeAll`, `Disk.get?_writeFile`: how far creating directories and writing a file reach.
-/

namespace TypeExport

/-! ## Following names -/

/-- One name further. A single dot stays, two dots lead upwards, and above the root there is the root. -/
def Place.step (here : Place) (name : String) : Place :=
  if name = "." then here else if name = ".." then here.dropLast else here ++ [name]

/-- The place that a path leads to. Relative paths begin in the directory `home`. -/
def Path.place (home : Place) (path : String) : Place :=
  (Path.parts path).foldl Place.step (if Path.isAbsolute path then [] else home)

namespace Path

variable {dir name : String}

theorem parts_append (path more : String) : parts (path ++ "/" ++ more) = parts path ++ parts more := by
  have hsep : (path ++ "/" ++ more).toList = path.toList ++ '/' :: more.toList := by simp
  rw [parts, hsep, List.splitOn_append_cons_self, List.filter_append, List.map_append]
  rfl

/-- Without a separator there is one part, or none. -/
theorem parts_of_notMem (h : '/' ∉ name.toList) : parts name = if name = "" then [] else [name] := by
  rw [parts, List.splitOn_eq_singleton h]
  by_cases hname : name = "" <;> simp [hname]

theorem parts_join (dir : String) (h : '/' ∉ name.toList) :
    parts (join dir name) = parts dir ++ parts name := by
  unfold join
  split
  · next hname => exact absurd (hname ▸ List.mem_cons_self) h
  · next hdir _ =>
    obtain rfl : dir = "" := by simpa using hdir
    rfl
  · next hdir _ =>
    -- The separator is there already.
    obtain ⟨init, hinit⟩ := List.getLast?_eq_some_iff.mp hdir
    obtain rfl : dir = String.ofList init ++ "/" ++ "" := by
      rw [← String.toList_inj, hinit]
      simp
    rw [String.append_empty, parts_append, ← String.append_empty (s := String.ofList init ++ "/"),
      parts_append, List.append_assoc]
    rfl
  · exact parts_append dir name

theorem isAbsolute_of_notMem (h : '/' ∉ name.toList) : isAbsolute name = false :=
  beq_false_of_ne fun hhead => h (List.mem_of_head? hhead)

theorem isAbsolute_join (dir : String) (h : '/' ∉ name.toList) :
    isAbsolute (join dir name) = isAbsolute dir := by
  have hhead := isAbsolute_of_notMem h
  by_cases hdir : dir = ""
  · subst hdir
    unfold join
    split
    · exact hhead
    · exact hhead
    · exact hhead
    · simp_all
  · have hlist : dir.toList ≠ [] := by simpa using hdir
    have hhead (tail : String) : isAbsolute (dir ++ tail) = isAbsolute dir := by
      obtain ⟨c, cs, hcs⟩ := List.exists_cons_of_ne_nil hlist
      rw [isAbsolute, isAbsolute, String.toList_append, hcs]
      rfl
    unfold join
    split
    · next hname => exact absurd (hname ▸ List.mem_cons_self) h
    · next hnone _ => exact absurd (by simpa using hnone) hlist
    · exact hhead name
    · rw [String.append_assoc]
      exact hhead _

theorem place_join (home : Place) (dir : String) (h : '/' ∉ name.toList) :
    place home (join dir name) = (parts name).foldl Place.step (place home dir) := by
  rw [place, parts_join dir h, isAbsolute_join dir h, List.foldl_append]
  rfl

/-- A name in a directory leads right below the directory. -/
theorem place_join_name (home : Place) (dir : String) (h : '/' ∉ name.toList)
    (hname : name ∉ ["", ".", ".."]) : place home (join dir name) = place home dir ++ [name] := by
  simp only [List.mem_cons, List.not_mem_nil, or_false, not_or] at hname
  rw [place_join home dir h, parts_of_notMem h, if_neg hname.1, List.foldl_cons, List.foldl_nil,
    Place.step, if_neg hname.2.1, if_neg hname.2.2]

/-- A name that leads right below a directory leads to a place of its own. -/
theorem place_join_ne {other : String} (home : Place) (dir : String) (h : '/' ∉ name.toList)
    (hname : name ∉ ["", ".", ".."]) (hother : '/' ∉ other.toList) (hne : other ≠ name) :
    place home (join dir other) ≠ place home (join dir name) := by
  rw [place_join_name home dir h hname]
  by_cases hplain : other ∈ ["", ".", ".."]
  · -- The other name leads to the directory, or above it.
    have hlength : (place home (join dir other)).length ≤ (place home dir).length := by
      rw [place_join home dir hother]
      simp only [List.mem_cons, List.not_mem_nil, or_false] at hplain
      rcases hplain with rfl | rfl | rfl
      · exact Nat.le_refl _
      · exact Nat.le_refl _
      · show (place home dir).dropLast.length ≤ _
        rw [List.length_dropLast]
        omega
    intro heq
    rw [heq, List.length_append, List.length_singleton] at hlength
    omega
  · rw [place_join_name home dir hother hplain]
    intro heq
    exact hne (List.singleton_inj.mp (List.append_cancel_left heq))

end Path

/-! ## Places on disks -/

namespace Disk

variable {d d' : Disk} {here p q : Place} {name path : String}

theorem child_eq_ok (h : child here name = .ok p) : p = Place.step here name := by
  unfold child at h
  unfold Place.step
  split_ifs at h <;> simp_all

theorem enter_eq_ok (h : d.enter here name = .ok p) : p = Place.step here name := by
  obtain ⟨p', hp', h⟩ := Except.bind_eq_ok_iff.mp h
  have heq : p = p' := by
    split at h
    · exact (Except.ok.inj h).symm
    · cases h
    · cases h
  rw [heq]
  exact child_eq_ok hp'

theorem foldlM_enter_eq_ok {names : List String} (h : names.foldlM d.enter here = .ok p) :
    p = names.foldl Place.step here := by
  induction names generalizing here with
  | nil =>
    cases h
    rfl
  | cons name names ih =>
    rw [List.foldlM_cons] at h
    obtain ⟨below, hbelow, h⟩ := Except.bind_eq_ok_iff.mp h
    rw [List.foldl_cons, ← enter_eq_ok hbelow]
    exact ih h

theorem follow_eq_ok {names : List String} {t : Target} (h : d.follow here names = .ok t) :
    t = ⟨names.foldl Place.step here, d.get? (names.foldl Place.step here)⟩ := by
  unfold follow at h
  split at h
  · next hnone =>
    cases h
    rw [List.getLast?_eq_none_iff.mp hnone]
    rfl
  · next name hlast =>
    obtain ⟨above, habove, h⟩ := Except.bind_eq_ok_iff.mp h
    obtain ⟨p, hp, h⟩ := Except.bind_eq_ok_iff.mp h
    cases h
    obtain ⟨init, rfl⟩ := List.getLast?_eq_some_iff.mp hlast
    rw [List.dropLast_concat] at habove
    rw [List.foldl_append, ← foldlM_enter_eq_ok habove, List.foldl_cons, List.foldl_nil, ← child_eq_ok hp]

/-- A path that can be followed leads to its place. -/
theorem target_eq_ok {t : Target} (h : d.target path = .ok t) :
    t = ⟨Path.place d.home path, d.get? (Path.place d.home path)⟩ := by
  unfold target at h
  split at h
  · cases h
  · split at h
    · cases h
    · split at h
      · cases h
      · exact follow_eq_ok h

/-! ### What stands at a place -/

@[simp] theorem home_put (d : Disk) (p : Place) (item : DiskItem) : (d.put p item).home = d.home := by
  unfold put
  split <;> rfl

section

variable {items : List (Place × DiskItem)}

/-- Replacing what stands at a place does not change where it is found. -/
theorem find?_replace (item : DiskItem) (q : Place) :
    (items.map fun i => if i.1 == p then (p, item) else i).find? (·.1 == q) =
      (items.find? (·.1 == q)).map fun i => if i.1 == p then (p, item) else i := by
  have hkeys : ((fun i : Place × DiskItem => i.1 == q) ∘ fun i => if i.1 == p then (p, item) else i) =
      fun i => i.1 == q := by
    funext i
    by_cases h : i.1 = p <;> simp [h]
  rw [List.find?_map, hkeys]

theorem find?_replace_self (hp : items.any (·.1 == p) = true) (item : DiskItem) :
    (items.map fun i => if i.1 == p then (p, item) else i).find? (·.1 == p) = some (p, item) := by
  obtain ⟨i, hi⟩ := Option.isSome_iff_exists.mp (List.find?_isSome.mpr (List.any_eq_true.mp hp))
  rw [find?_replace, hi, Option.map_some, if_pos (List.find?_some hi)]

theorem find?_replace_of_ne (hq : q ≠ p) (item : DiskItem) :
    (items.map fun i => if i.1 == p then (p, item) else i).find? (·.1 == q) =
      items.find? (·.1 == q) := by
  rw [find?_replace]
  cases hi : items.find? (·.1 == q) with
  | none => rfl
  | some i =>
    have hkey : i.1 = q := by simpa using List.find?_some hi
    rw [Option.map_some, if_neg (by simpa [hkey] using hq)]

end

/-- A place has what was put there last, and nothing else changes. The root cannot be replaced. -/
theorem get?_put (d : Disk) (hp : p ≠ []) (item : DiskItem) (q : Place) :
    (d.put p item).get? q = if q = p then some item else d.get? q := by
  by_cases hq : q = []
  · rw [if_neg (by rintro rfl; exact hp hq)]
    subst hq
    rfl
  · have hempty : q.isEmpty = false := by simpa using hq
    simp only [get?, hempty, Bool.false_eq_true, if_false]
    unfold put
    split
    · next hany =>
      split
      · next heq => rw [heq, find?_replace_self hany]; rfl
      · next hne => rw [find?_replace_of_ne hne]
    · next hany =>
      rw [List.find?_append]
      split
      · next heq =>
        have hnone : d.items.find? (·.1 == p) = none :=
          List.find?_eq_none.mpr fun i hi hkey => hany (List.any_eq_true.mpr ⟨i, hi, hkey⟩)
        rw [heq, hnone]
        simp
      · next hne =>
        have hother : List.find? (·.1 == q) [(p, item)] = none := by simp [Ne.symm hne]
        rw [hother, Option.or_none]

/-! ### Changes of disks -/

theorem makeDirectory_eq_ok (h : d.makeDirectory path = .ok d') :
    d.get? (Path.place d.home path) = none ∧ d' = d.put (Path.place d.home path) .directory := by
  obtain ⟨t, ht, h⟩ := Except.bind_eq_ok_iff.mp h
  obtain rfl := target_eq_ok ht
  dsimp only at h
  split at h
  · cases h
  · next hnone =>
    cases h
    exact ⟨hnone, rfl⟩

theorem ne_nil_of_get?_eq_none (h : d.get? p = none) : p ≠ [] := by
  rintro rfl
  cases h

/-- From one disk to another, directories have been made at some of the places, where nothing stood. -/
structure Grows (d : Disk) (places : List Place) (d' : Disk) : Prop where
  home : d'.home = d.home
  get? : ∀ q, d'.get? q = d.get? q ∨ q ∈ places ∧ d.get? q = none ∧ d'.get? q = some .directory

theorem Grows.refl (d : Disk) (places : List Place) : d.Grows places d := ⟨rfl, fun _ => .inl rfl⟩

theorem Grows.mono {places more : List Place} (h : d.Grows places d') (hsub : places ⊆ more) :
    d.Grows more d' := by
  refine ⟨h.home, fun q => ?_⟩
  rcases h.get? q with hsame | ⟨hmem, hnew⟩
  · exact .inl hsame
  · exact .inr ⟨hsub hmem, hnew⟩

theorem Grows.trans {places : List Place} {d'' : Disk} (h : d.Grows places d')
    (h' : d'.Grows places d'') : d.Grows places d'' := by
  refine ⟨h'.home.trans h.home, fun q => ?_⟩
  rcases h'.get? q with hsame | ⟨hmem, hnone, hnew⟩
  · rw [hsame]
    exact h.get? q
  · rcases h.get? q with hsame | ⟨-, -, hdirectory⟩
    · exact .inr ⟨hmem, hsame ▸ hnone, hnew⟩
    · cases hnone.symm.trans hdirectory

theorem grows_makeDirectory (h : d.makeDirectory path = .ok d') :
    d.Grows [Path.place d.home path] d' := by
  obtain ⟨hnone, rfl⟩ := makeDirectory_eq_ok h
  refine ⟨home_put .., fun q => ?_⟩
  rw [get?_put d (ne_nil_of_get?_eq_none hnone)]
  by_cases hq : q = Path.place d.home path
  · exact .inr ⟨List.mem_singleton.mpr hq, hq ▸ hnone, if_pos hq⟩
  · exact .inl (if_neg hq)

/-- Directories are made at the places of the paths only, also where the last one cannot be made. -/
theorem grows_makeAll (d : Disk) (paths : List String) :
    d.Grows (paths.map (Path.place d.home)) (d.makeAll paths).2 := by
  induction paths generalizing d with
  | nil => exact .refl d _
  | cons path above ih =>
    have hmake {d₁ d₂ : Disk} (hhome : d₁.home = d.home) (h : d₁.makeDirectory path = .ok d₂) :
        d₁.Grows ((path :: above).map (Path.place d.home)) d₂ := by
      refine (grows_makeDirectory h).mono fun q hq => ?_
      rw [List.mem_singleton.mp hq, hhome, List.map_cons]
      exact List.mem_cons_self
    have habove : d.Grows ((path :: above).map (Path.place d.home)) (d.makeAll above).2 :=
      (ih d).mono (List.subset_cons_self _ _)
    rw [makeAll]
    split
    · next d₁ h => exact hmake rfl h
    · split
      · next d₁ hall =>
        have hd₁ : d₁ = (d.makeAll above).2 := by rw [hall]
        subst hd₁
        split
        · next d₂ h => exact habove.trans (hmake habove.home h)
        · exact habove
      · next e d₁ hall =>
        have hd₁ : d₁ = (d.makeAll above).2 := by rw [hall]
        rw [hd₁]
        exact habove
    · exact .refl d _

/-- A file is written where no directory stands, and nothing else changes. -/
theorem get?_writeFile {content : ByteArray} (h : d.writeFile path content = .ok d') :
    d'.home = d.home ∧ ∀ q, d'.get? q =
      if q = Path.place d.home path then some (.file content) else d.get? q := by
  obtain ⟨t, ht, h⟩ := Except.bind_eq_ok_iff.mp h
  obtain rfl := target_eq_ok ht
  dsimp only at h
  split at h
  · cases h
  · next hitem =>
    split at h
    · cases h
    · cases h
      have hp : Path.place d.home path ≠ [] := by
        intro hnil
        rw [hnil] at hitem
        exact hitem rfl
      exact ⟨home_put .., get?_put d hp _⟩

end Disk

end TypeExport
