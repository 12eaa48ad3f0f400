import Mathlib.Data.List.ModifyLast
import Mathlib.Data.List.TakeWhile
import TypeExport.Proofs.Files.Places
import TypeExport.Proofs.Schema.FullNames
import TypeExport.Source.Project

/-!
# Module paths of source files

The module path of a source file follows from the names that lead to it. It begins with `crate` and the
directories, and the name of the file without `.rs` ends it, except that `mod`, `lib` and `main` stand for the
directory itself. This is stated here by itself, on the names, and it is what a scan goes by.

* `Source.IsSourceName`: the names of source files (`Source.isSourceName_iff`).
* `Source.IsModulePath`: the module paths of files. A scan gives each file its own, and there is no other one
  (`Source.isModulePath_iff`).
-/

namespace TypeExport

/-- A text has no end mark, or it goes on after the last one. -/
theorem Text.afterLast_cases (p : Char → Bool) (cs : List Char) :
    cs = afterLast p cs ∨ ∃ before c, p c = true ∧ cs = before ++ c :: afterLast p cs := by
  have hsplit : cs.reverse.takeWhile (fun c => !p c) ++ cs.reverse.dropWhile (fun c => !p c) = cs.reverse :=
    List.takeWhile_append_dropWhile
  unfold afterLast
  cases hrest : cs.reverse.dropWhile (fun c => !p c) with
  | nil =>
    rw [hrest, List.append_nil] at hsplit
    rw [hsplit, List.reverse_reverse]
    exact .inl rfl
  | cons c before =>
    have hc : (!p c) = false := by
      have hhead := List.head_dropWhile_not (p := fun c => !p c) (l := cs.reverse) (by rw [hrest]; simp)
      simpa only [hrest, List.head_cons] using hhead
    rw [hrest] at hsplit
    refine .inr ⟨before.reverse, c, by simpa using hc, ?_⟩
    calc cs = (cs.reverse.takeWhile (fun c => !p c) ++ c :: before).reverse := by
          rw [hsplit, List.reverse_reverse]
      _ = before.reverse ++ c :: (cs.reverse.takeWhile fun c => !p c).reverse := by
          rw [List.reverse_append, List.reverse_cons, List.append_assoc, List.singleton_append]

theorem Text.afterLast_afterLast (p : Char → Bool) (cs : List Char) :
    afterLast p (afterLast p cs) = afterLast p cs := by
  unfold afterLast
  rw [List.reverse_reverse, List.takeWhile_idem]

namespace Path

/-- A name is split at its last dot, unless the dot is at the beginning. -/
theorem splitName_of_toList {name : String} {before after : List Char}
    (h : name.toList = before ++ '.' :: after) (hafter : Text.afterLast (· == '.') after = after) :
    splitName name =
      if name = ".." ∨ before = [] then (name, none) else (String.ofList before, some (String.ofList after)) := by
  have hlast : Text.afterLast (· == '.') name.toList = after := by
    rw [h, Text.afterLast_append_cons rfl, hafter]
  have hlength : name.toList.length = before.length + 1 + after.length := by
    rw [h, List.length_append, List.length_cons]
    omega
  have htake : name.toList.take (name.toList.length - after.length - 1) = before := by
    rw [hlength, show before.length + 1 + after.length - after.length - 1 = before.length by omega, h,
      List.take_left]
  have hne : after.length ≠ name.toList.length := by omega
  simp only [splitName, hlast, htake, hne, Bool.or_eq_true, beq_iff_eq, decide_eq_true_eq, or_false,
    List.isEmpty_iff]

/-- A name by itself is the last name, unless it leads nowhere or upwards. -/
theorem fileName?_of_notMem {name : String} (h : '/' ∉ name.toList) :
    fileName? name = if name ∈ ["", ".", ".."] then none else some name := by
  have hrelative := isAbsolute_of_notMem h
  by_cases hempty : name = ""
  · subst hempty
    rfl
  · simp only [fileName?, names, parts_of_notMem h, if_neg hempty, hrelative, Bool.and_false,
      Bool.false_eq_true, if_false, List.filter_nil, List.append_nil, List.getLast?_singleton]
    split <;> simp_all

end Path

namespace Source

/-! ## Names of source files -/

/-- The name of a source file: something before `.rs`. -/
def IsSourceName (name : String) : Prop := ∃ stem, stem ≠ "" ∧ name = stem ++ ".rs"

theorem IsSourceName.notMem {name : String} (h : IsSourceName name) : name ∉ ["", ".", ".."] := by
  obtain ⟨stem, -, rfl⟩ := h
  have hlast : (stem ++ ".rs").toList.getLast? = some 's' := by simp
  generalize stem ++ ".rs" = name at hlast
  simp only [List.mem_cons, List.not_mem_nil, or_false]
  rintro (rfl | rfl | rfl) <;> cases hlast

theorem splitName_rs {stem : String} (hne : stem ≠ "") : Path.splitName (stem ++ ".rs") = (stem, some "rs") := by
  have h : (stem ++ ".rs").toList = stem.toList ++ '.' :: ['r', 's'] := by simp
  have hname := IsSourceName.notMem ⟨stem, hne, rfl⟩
  rw [Path.splitName_of_toList h rfl, if_neg (by simp_all), String.ofList_toList]

theorem splitName_eq_rs_iff {name : String} : (Path.splitName name).2 = some "rs" ↔ IsSourceName name := by
  constructor
  · intro h
    rcases Text.afterLast_cases (· == '.') name.toList with hall | ⟨before, c, hc, hname⟩
    · simp [Path.splitName, ← hall] at h
    · obtain rfl : c = '.' := by simpa using hc
      rw [Path.splitName_of_toList hname (Text.afterLast_afterLast _ _)] at h
      split at h
      · cases h
      · next hbefore =>
        refine ⟨String.ofList before, ?_, ?_⟩
        · intro hempty
          exact hbefore (.inr (by simpa using hempty))
        · have hrs : Text.afterLast (· == '.') name.toList = ['r', 's'] := by
            rw [← String.toList_ofList (l := Text.afterLast _ _), Option.some.inj h]
            rfl
          rw [← String.toList_inj, hname, hrs]
          simp
  · rintro ⟨stem, hne, rfl⟩
    rw [splitName_rs hne]

/-- A path is one of a source file if its last name is. -/
theorem isSourceName_iff {path : String} :
    isSourceName path = true ↔ ∃ name, Path.fileName? path = some name ∧ IsSourceName name := by
  simp only [isSourceName, Path.extension?, beq_iff_eq, Option.bind_eq_some_iff, splitName_eq_rs_iff]

theorem isSourceName_iff_of_notMem {name : String} (h : '/' ∉ name.toList) :
    isSourceName name = true ↔ IsSourceName name := by
  rw [isSourceName_iff, Path.fileName?_of_notMem h]
  split
  · next hname => simpa using fun hsource : IsSourceName name => hsource.notMem hname
  · simp

/-! ## Module paths -/

/-- The names that lead to a file, the last one without its extension. -/
def withoutExtension (names : List String) : List String :=
  names.modifyLast Path.withoutExtension

/-- The name of the module in a file. If nothing but a dot stands before the extension, it leads upwards. -/
inductive IsModuleName : String → String → Prop where
  | stem {stem : String} (ne : stem ≠ "") (plain : stem ≠ ".") : IsModuleName (stem ++ ".rs") stem
  | upwards : IsModuleName "..rs" ".."

/-- The module path of a file, from the names that lead to it. -/
inductive IsModulePath : List String → List String → Prop where
  /-- The file is all there is. -/
  | top : IsModulePath [] ["crate"]
  /-- The file has a module of its own. -/
  | own {above : List String} {file name : String} (named : IsModuleName file name)
    (plain : name ∉ ["mod", "lib", "main"]) : IsModulePath (above ++ [file]) ("crate" :: (above ++ [name]))
  /-- The file has the module of its directory. -/
  | directory {above : List String} {file name : String} (named : IsModuleName file name)
    (special : name ∈ ["mod", "lib", "main"]) : IsModulePath (above ++ [file]) ("crate" :: above)

theorem withoutExtension_rs {stem : String} (hne : stem ≠ "") :
    Path.withoutExtension (stem ++ ".rs") = if stem = "." then ".." else stem := by
  rw [Path.withoutExtension, splitName_rs hne]
  split
  · next heq => rw [if_pos (Prod.mk.inj heq).1]
  · next hplain heq =>
    obtain ⟨rfl, rfl⟩ := Prod.mk.inj heq
    rw [if_neg fun hdot => hplain _ hdot rfl]

theorem isModuleName_iff {file name : String} :
    IsModuleName file name ↔ IsSourceName file ∧ name = Path.withoutExtension file := by
  constructor
  · rintro (⟨hne, hplain⟩ | _)
    · exact ⟨⟨_, hne, rfl⟩, by rw [withoutExtension_rs hne, if_neg hplain]⟩
    · exact ⟨⟨".", by decide, rfl⟩, by decide⟩
  · rintro ⟨⟨stem, hne, rfl⟩, rfl⟩
    rw [withoutExtension_rs hne]
    split
    · next hdot =>
      subst hdot
      exact .upwards
    · next hplain => exact .stem hne hplain

theorem modulePath_concat (above : List String) (file : String) :
    modulePath (withoutExtension (above ++ [file])) =
      "crate" :: if Path.withoutExtension file ∈ ["mod", "lib", "main"] then above
        else above ++ [Path.withoutExtension file] := by
  rw [withoutExtension, List.modifyLast_concat, modulePath, List.getLast?_concat, List.dropLast_concat]
  simp [rootNames]

/-- Files have the module paths that a scan gives them. -/
theorem isModulePath_iff {names modules : List String} : IsModulePath names modules ↔
    (∀ file ∈ names.getLast?, IsSourceName file) ∧ modules = modulePath (withoutExtension names) := by
  constructor
  · rintro (_ | ⟨named, plain⟩ | ⟨named, special⟩)
    · exact ⟨by simp, rfl⟩
    · obtain ⟨hsource, rfl⟩ := isModuleName_iff.mp named
      exact ⟨by simpa using hsource, by rw [modulePath_concat, if_neg plain]⟩
    · obtain ⟨hsource, rfl⟩ := isModuleName_iff.mp named
      exact ⟨by simpa using hsource, by rw [modulePath_concat, if_pos special]⟩
  · rintro ⟨hsource, rfl⟩
    rcases names.eq_nil_or_concat' with rfl | ⟨above, file, rfl⟩
    · exact .top
    · have named := isModuleName_iff.mpr ⟨hsource file (by simp), rfl⟩
      rw [modulePath_concat]
      split
      · next special => exact .directory named special
      · next plain => exact .own named plain

end Source

end TypeExport
