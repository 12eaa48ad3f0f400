import TypeExport.Config.Basic
import TypeExport.Proofs.Output.Generation

/-!
# Names of files

No two roots share a file: their names differ. The name of the barrel is chosen freely. It may be the
name of a root's file, and then the barrel is written over that file.

* `Schema.names_nodup_iff`: the names of a bundle differ unless the barrel has the name of a root's
  file. A run leaves the barrel and all files with other names as they have been rendered.
* `Schema.not_names_nodup`: the name of a root's file is possible for a barrel.
-/

namespace TypeExport

/-! ## Bundles -/

namespace Schema

open FileSystem

variable {s : Schema} {f : NamespaceFilter} {barrel : String} {bundle : List OutputFile}

/-- The file of a declaration stands right below the directory. -/
theorem plain_of_mem_dropLast {x : OutputFile} (h : s.render f barrel = .ok bundle)
    (hx : x ∈ bundle.dropLast) : x.name ∉ ["", ".", ".."] := by
  obtain ⟨roots, entries, -, -, hfiles⟩ := dropLast_of_render h
  rw [hfiles] at hx
  obtain ⟨e, -, rfl⟩ := List.mem_map.mp hx
  intro hname
  have hlength : 3 ≤ (e.declaration.name ++ ".ts").length := by
    rw [String.length_append]
    exact Nat.le_add_left _ _
  simp only [List.mem_cons, List.not_mem_nil, or_false] at hname
  rcases hname with hname | hname | hname <;> rw [hname] at hlength <;> exact absurd hlength (by decide)

section

variable {σ : Type} {F : FileSystem σ} {directory : String} {st st' : σ} {report : GenerationReport}
  {before after : List OutputFile} {x : OutputFile}

/-- What a successful run leaves at the place of a file where no later one stands. -/
theorem tree_of_generate (h : s.render f barrel = .ok (before ++ x :: after))
    (hrun : (s.generate F.access f directory barrel).run st = (.ok report, st'))
    (hlater : ∀ y ∈ after, y.place (F.home st) directory ≠ x.place (F.home st) directory) :
    F.tree st' (x.place (F.home st) directory) = some (.file x.contents.toUTF8) := by
  obtain ⟨-, -, st₁, -, htree⟩ := generate_eq_ok h (by simp) hrun
  rw [htree]
  refine FileTree.write_last _ fun hmem => ?_
  obtain ⟨y, hy, hplace⟩ := List.mem_map.mp hmem
  exact hlater y hy hplace

end

/-- **The names of a bundle.** The files of the roots have different names, so all names differ
exactly if the barrel has none of these. A run that succeeds leaves the text of every file at its
place, except that of a file with the name of the barrel: there it leaves the barrel. -/
theorem names_nodup_iff (h : s.render f barrel = .ok bundle) :
    (bundle.dropLast.map (·.name)).Nodup ∧
    ((bundle.map (·.name)).Nodup ↔ barrel ∉ bundle.dropLast.map (·.name)) ∧
    ∀ (σ : Type) (F : FileSystem σ) (directory : String) (st st' : σ) (report : GenerationReport),
      (s.generate F.access f directory barrel).run st = (.ok report, st') →
      (∀ x ∈ bundle, '/' ∉ x.name.toList) →
      (∀ x ∈ bundle.dropLast, x.name ≠ barrel →
        F.tree st' (x.place (F.home st) directory) = some (.file x.contents.toUTF8)) ∧
      ∀ x, bundle.getLast? = some x →
        F.tree st' (x.place (F.home st) directory) = some (.file x.contents.toUTF8) := by
  have hnodup := nodup_dropLast_of_render h
  have hplain : ∀ x ∈ bundle.dropLast, x.name ∉ ["", ".", ".."] := fun x hx => plain_of_mem_dropLast h hx
  rcases eq_nil_or_concat_of_render h with rfl | ⟨last, hconcat, hlast⟩
  · simp
  · obtain ⟨files, rfl⟩ : ∃ files, bundle = files ++ [last] := ⟨_, hconcat⟩
    rw [List.dropLast_concat] at hnodup hplain
    rw [List.dropLast_concat, List.getLast?_concat]
    refine ⟨hnodup, ?_, fun σ F directory st st' report hrun hsep => ⟨?_, ?_⟩⟩
    · rw [List.map_append, List.map_singleton, List.nodup_append, hlast]
      simp [hnodup]
    · intro x hx hname
      have hxplain := hplain x hx
      obtain ⟨before, after, rfl⟩ := List.append_of_mem hx
      rw [List.append_assoc, List.cons_append] at h hsep
      refine tree_of_generate h hrun fun y hy => ?_
      have hne : y.name ≠ x.name := by
        intro heq
        rcases List.mem_append.mp hy with hy | hy
        · -- A later file of a root would have the same name.
          rw [List.map_append, List.map_cons, List.nodup_append, List.nodup_cons] at hnodup
          exact hnodup.2.1.1 (heq ▸ List.mem_map_of_mem hy)
        · rw [List.mem_singleton.mp hy, hlast] at heq
          exact hname heq.symm
      exact Path.place_join_ne _ directory (hsep x (by simp)) hxplain (hsep y (by simp [hy])) hne
    · rintro x ⟨⟩
      exact tree_of_generate h hrun (by simp)

/-- A complete run on an empty disk, with a path that has a dot in it. -/
theorem names_nodup_iff_sampleShop :
    let d : Disk := {}
    ∃ report d',
      (sampleShop.generate Disk.access ⟨"Shop", false⟩ "./out" "index.ts").run d = (.ok report, d') ∧
      (sampleShopBundle.map (·.name)).Nodup ∧
      ∀ x ∈ sampleShopBundle, d'.get? ["out", x.name] = some (.file x.contents.toUTF8) := by
  intro d
  have hok : ((sampleShop.generate Disk.access ⟨"Shop", false⟩ "./out" "index.ts").run d).1.toOption.isSome =
      true := by
    decide +kernel
  generalize hrun : (sampleShop.generate Disk.access ⟨"Shop", false⟩ "./out" "index.ts").run d = run at hok
  obtain ⟨result, d'⟩ := run
  obtain ⟨report, hreport⟩ := Option.isSome_iff_exists.mp hok
  obtain rfl : result = .ok report := Except.toOption_eq_some_iff.mp hreport
  obtain ⟨-, hiff, hcontents⟩ := names_nodup_iff render_sampleShop
  obtain ⟨hroots, hbarrel⟩ := hcontents Disk disks "./out" d d' report hrun (by decide)
  have hplaces : ∀ x ∈ sampleShopBundle, x.place (disks.home d) "./out" = ["out", x.name] := by
    decide +kernel
  refine ⟨report, d', rfl, hiff.mpr (by decide), fun x hx => ?_⟩
  rw [← hplaces x hx]
  rw [sampleShopBundle, List.mem_cons, List.mem_singleton] at hx
  rcases hx with rfl | rfl
  · exact hroots _ List.mem_cons_self (by decide)
  · exact hbarrel _ rfl

/-- A barrel that is accepted can have the name of a root's file. -/
theorem not_names_nodup : ¬ ∀ (c : Config) (s : Schema) (f : NamespaceFilter)
    (bundle : List OutputFile), c.validate = .ok () →
    s.render f c.output.barrel = .ok bundle → (bundle.map (·.name)).Nodup := by
  intro hall
  have hrender : sampleShop.render ⟨"Shop", false⟩ "Order.ts" =
      .ok [⟨"Order.ts", ["export interface Order \x7b", "\x7d"]⟩,
        ⟨"Order.ts", ["export \x7bOrder\x7d from \"./Order\";"]⟩] := by cbv
  have hvalid : Config.validate
      ⟨{ schemaFile := some "shop.json" }, { barrel := "Order.ts" }, { ns := some "Shop" }⟩ =
      .ok () := by
    have hbarrel : (Text.trim "Order.ts").isEmpty = false := by decide
    simp only [Config.validate, SourceSettings.source, hbarrel]
    rfl
  have hnodup := hall _ sampleShop ⟨"Shop", false⟩ _ hvalid hrender
  simp at hnodup

end Schema

end TypeExport
