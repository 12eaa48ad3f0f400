import Mathlib
import TypeExport.Output.Generation
import TypeExport.Proofs.Files.Faults
import TypeExport.Proofs.Output.Bundle

/-!
# Writing a bundle on a file system that may fail

`Schema.generate` renders a bundle, makes sure that the directory is there, and writes the files one
after the other. Every access may fail, and the first failure ends the run.

* `FileTree.write`: the tree after files have been written in order. The last write of a place counts.
* `FileSystem.Writes`: files are written in order, and all writes succeed.
* `FileSystem.writeBundle_cases`: either all writes succeed, or those before the first failure.
* `FileSystem.Ends`: the three ways in which the writing of a bundle ends.
* `Schema.generate_outcome`: a run changes nothing unless there is something to write, and then it
  ends in one of these ways. A second run changes nothing that stands there.
-/

namespace TypeExport

/-- The path of a file in a directory. -/
def OutputFile.path (directory : String) (f : OutputFile) : String := Path.join directory f.name

/-- The place of a file in a directory. -/
def OutputFile.place (home : Place) (directory : String) (f : OutputFile) : Place :=
  Path.place home (f.path directory)

/-! ## Trees after writes -/

/-- The tree after files have been written into a directory, one after the other. -/
def FileTree.write (home : Place) (directory : String) (t : FileTree) (fs : List OutputFile) : FileTree :=
  fs.foldl (fun t f => t.put (f.place home directory) (.file f.contents.toUTF8)) t

namespace FileTree

variable {home q : Place} {directory : String} {fs before after : List OutputFile} {f : OutputFile}

theorem write_cons (t : FileTree) (f : OutputFile) (fs : List OutputFile) :
    t.write home directory (f :: fs) =
      (t.put (f.place home directory) (.file f.contents.toUTF8)).write home directory fs :=
  rfl

theorem write_append (t : FileTree) (fs gs : List OutputFile) :
    t.write home directory (fs ++ gs) = (t.write home directory fs).write home directory gs :=
  List.foldl_append

/-- Writing touches only the places of the files. -/
theorem write_of_notMem {t : FileTree} (h : q ∉ fs.map (·.place home directory)) :
    t.write home directory fs q = t q := by
  induction fs generalizing t with
  | nil => rfl
  | cons f fs ih =>
    rw [List.map_cons, List.mem_cons, not_or] at h
    rw [write_cons, ih h.2, put_of_ne _ _ h.1]

/-- What stands at the place of a file after writing does not depend on what stood there before. -/
theorem write_of_mem (t u : FileTree) (h : q ∈ fs.map (·.place home directory)) :
    t.write home directory fs q = u.write home directory fs q := by
  induction fs generalizing t u with
  | nil => cases h
  | cons f fs ih =>
    by_cases hq : q ∈ fs.map (·.place home directory)
    · rw [write_cons, write_cons, ih _ _ hq]
    · have heq : q = f.place home directory := by
        rw [List.map_cons, List.mem_cons] at h
        exact h.resolve_right hq
      rw [write_cons, write_cons, write_of_notMem hq, write_of_notMem hq, heq, put_self, put_self]

/-- The last file with a place is what is found there. -/
theorem write_last (t : FileTree) (h : f.place home directory ∉ after.map (·.place home directory)) :
    t.write home directory (before ++ f :: after) (f.place home directory) =
      some (.file f.contents.toUTF8) := by
  rw [write_append, write_cons, write_of_notMem h, put_self]

end FileTree

/-! ## Writes in order -/

namespace FileSystem

variable {σ : Type} {F : FileSystem σ} {directory barrel : String} {fs : List OutputFile}
  {st st' : σ}

/-- Files are written into a directory one after the other, and every write succeeds. -/
inductive Writes (F : FileSystem σ) (directory : String) : List OutputFile → σ → σ → Prop where
  | nil (st : σ) : F.Writes directory [] st st
  | cons {f : OutputFile} {fs : List OutputFile} {st st₁ st₂ : σ}
    (write : (F.access.writeText (f.path directory) f.contents).run st = (.ok (), st₁))
    (others : F.Writes directory fs st₁ st₂) : F.Writes directory (f :: fs) st st₂

theorem Writes.home (h : F.Writes directory fs st st') : F.home st' = F.home st := by
  induction h with
  | nil => rfl
  | cons write _ ih => rw [ih, home_of_write write]

theorem Writes.tree (h : F.Writes directory fs st st') :
    F.tree st' = (F.tree st).write (F.home st) directory fs := by
  induction h with
  | nil => rfl
  | cons write _ ih =>
    rw [ih, tree_of_write write, home_of_write write, FileTree.write_cons]
    rfl

/-- The report about files that have been written. -/
def reportOf (directory barrel : String) (fs : List OutputFile) : GenerationReport :=
  fs.foldl (·.add directory barrel) {}

theorem files_foldl_add (r : GenerationReport) (fs : List OutputFile) :
    (fs.foldl (·.add directory barrel) r).files = r.files ++ fs.map (·.path directory) := by
  induction fs generalizing r with
  | nil => simp
  | cons f fs ih =>
    have hadd : (r.add directory barrel f).files = r.files ++ [f.path directory] := by
      unfold GenerationReport.add
      split <;> rfl
    rw [List.foldl_cons, ih, hadd, List.map_cons, List.append_assoc, List.singleton_append]

/-- The report lists the paths of the files, in order. -/
theorem files_reportOf (fs : List OutputFile) :
    (reportOf directory barrel fs).files = fs.map (·.path directory) := by
  rw [reportOf, files_foldl_add, List.nil_append]

theorem writeBundle_nil (r : GenerationReport) (st : σ) :
    (writeBundle F.access directory barrel r []).run st = (.ok r, st) := rfl

theorem writeBundle_of_ok {f : OutputFile} {st₁ : σ}
    (h : (F.access.writeText (f.path directory) f.contents).run st = (.ok (), st₁))
    (r : GenerationReport) (fs : List OutputFile) :
    (writeBundle F.access directory barrel r (f :: fs)).run st =
      (writeBundle F.access directory barrel (r.add directory barrel f) fs).run st₁ := by
  rw [OutputFile.path] at h
  rw [writeBundle, StateT.run_bind, h]
  rfl

theorem writeBundle_of_error {f : OutputFile} {e : OsError} {st₁ : σ}
    (h : (F.access.writeText (f.path directory) f.contents).run st = (.error e, st₁))
    (r : GenerationReport) (fs : List OutputFile) :
    (writeBundle F.access directory barrel r (f :: fs)).run st = (.error (.io e), st₁) := by
  rw [OutputFile.path] at h
  rw [writeBundle, StateT.run_bind, h]
  rfl

/-- The first write that fails ends the writing. -/
theorem writeBundle_cases (F : FileSystem σ) (directory barrel : String) (r : GenerationReport)
    (fs : List OutputFile) (st : σ) :
    (∃ st₁, F.Writes directory fs st st₁ ∧ (writeBundle F.access directory barrel r fs).run st =
      (.ok (fs.foldl (·.add directory barrel) r), st₁)) ∨
    ∃ before f after e st₁ st₂, fs = before ++ f :: after ∧ F.Writes directory before st st₁ ∧
      (F.access.writeText (f.path directory) f.contents).run st₁ = (.error e, st₂) ∧
      (writeBundle F.access directory barrel r fs).run st = (.error (.io e), st₂) := by
  induction fs generalizing r st with
  | nil => exact .inl ⟨st, .nil st, writeBundle_nil r st⟩
  | cons f fs ih =>
    obtain ⟨res, st₁, hwrite⟩ : ∃ res st₁,
        (F.access.writeText (f.path directory) f.contents).run st = (res, st₁) := ⟨_, _, rfl⟩
    cases res with
    | error e =>
      exact .inr ⟨[], f, fs, e, st, st₁, rfl, .nil st, hwrite, writeBundle_of_error hwrite r fs⟩
    | ok u =>
      rw [writeBundle_of_ok hwrite, List.foldl_cons]
      rcases ih (r.add directory barrel f) st₁ with ⟨st₂, hall, hrun⟩ |
        ⟨before, g, after, e, st₂, st₃, rfl, hbefore, hfails, hrun⟩
      · exact .inl ⟨st₂, .cons hwrite hall, hrun⟩
      · exact .inr ⟨f :: before, g, after, e, st₂, st₃, rfl, .cons hwrite hbefore, hfails, hrun⟩

/-! ## The directory -/

/-- The directory was found, or it was missing and has been created. -/
inductive Ready (F : FileSystem σ) (directory : String) (st : σ) : σ → Prop where
  | present {st₁ : σ} (found : (F.access.pathExists directory).run st = (true, st₁)) :
    F.Ready directory st st₁
  | created {st₁ st₂ : σ} (missing : (F.access.pathExists directory).run st = (false, st₁))
    (creation : (F.access.createDirectories directory).run st₁ = (.ok (), st₂)) :
    F.Ready directory st st₂

theorem Ready.home (h : F.Ready directory st st') : F.home st' = F.home st := by
  cases h with
  | present found => exact home_of_pathExists found
  | created missing creation =>
    rw [home_of_createDirectories creation, home_of_pathExists missing]

theorem Ready.keeps (h : F.Ready directory st st') (q : Place) : F.Keeps directory st st' q := by
  cases h with
  | present found => exact .inl (congrFun (tree_of_pathExists found) q)
  | created missing creation =>
    have := keeps_of_createDirectories creation q
    rwa [Keeps, tree_of_pathExists missing, home_of_pathExists missing] at this

/-- A directory that is found needs no change. -/
theorem Ready.tree_of_found (h : F.Ready directory st st')
    (hfound : ((F.access.pathExists directory).run st).1 = true) : F.tree st' = F.tree st := by
  cases h with
  | present found => exact tree_of_pathExists found
  | created missing _ =>
    rw [missing] at hfound
    cases hfound

theorem ensureDirectory_of_found {st₁ : σ}
    (h : (F.access.pathExists directory).run st = (true, st₁)) :
    (ensureDirectory F.access directory).run st = (.ok (), st₁) := by
  rw [ensureDirectory, StateT.run_bind, h]
  rfl

theorem ensureDirectory_of_missing {res : Except OsError Unit} {st₁ st₂ : σ}
    (h : (F.access.pathExists directory).run st = (false, st₁))
    (hcreate : (F.access.createDirectories directory).run st₁ = (res, st₂)) :
    (ensureDirectory F.access directory).run st = (res.mapError .io, st₂) := by
  rw [ensureDirectory, StateT.run_bind, h]
  show ((F.access.createDirectories directory >>= _ : StateM σ _)).run st₁ = _
  rw [StateT.run_bind, hcreate]
  cases res <;> rfl

/-- The directory is there in the end, or it is missing and cannot be created. -/
theorem ensureDirectory_cases (F : FileSystem σ) (directory : String) (st : σ) :
    (∃ st₁, F.Ready directory st st₁ ∧
      (ensureDirectory F.access directory).run st = (.ok (), st₁)) ∨
    ∃ e st₁ st₂, (F.access.pathExists directory).run st = (false, st₁) ∧
      (F.access.createDirectories directory).run st₁ = (.error e, st₂) ∧
      (ensureDirectory F.access directory).run st = (.error (.io e), st₂) := by
  obtain ⟨found, st₁, hask⟩ : ∃ found st₁,
      (F.access.pathExists directory).run st = (found, st₁) := ⟨_, _, rfl⟩
  obtain ⟨res, st₂, hcreate⟩ : ∃ res st₂,
      (F.access.createDirectories directory).run st₁ = (res, st₂) := ⟨_, _, rfl⟩
  cases found with
  | true => exact .inl ⟨st₁, .present hask, ensureDirectory_of_found hask⟩
  | false =>
    cases res with
    | ok u => exact .inl ⟨st₂, .created hask hcreate, ensureDirectory_of_missing hask hcreate⟩
    | error e =>
      exact .inr ⟨e, st₁, st₂, hask, hcreate, ensureDirectory_of_missing hask hcreate⟩

/-! ## How a run ends -/

/-- How the writing of a bundle ends. -/
inductive Ends (F : FileSystem σ) (directory barrel : String) (bundle : List OutputFile) (st : σ) :
    Except ExportError GenerationReport × σ → Prop where
  /-- The directory is missing and cannot be created. No file is written: directories above may have
  been created. -/
  | noDirectory {e : OsError} {st₁ st₂ : σ}
    (missing : (F.access.pathExists directory).run st = (false, st₁))
    (failure : (F.access.createDirectories directory).run st₁ = (.error e, st₂))
    (frame : ∀ q, F.Keeps directory st st₂ q) : F.Ends directory barrel bundle st (.error (.io e), st₂)
  /-- A write fails. Exactly the files before it have been written, in order. Only at its own place may
  something else stand. -/
  | broken {before after : List OutputFile} {f : OutputFile} {e : OsError} {st₁ st₂ st₃ : σ}
    (ready : F.Ready directory st st₁) (frame : ∀ q, F.Keeps directory st st₁ q)
    (split : bundle = before ++ f :: after) (written : F.Writes directory before st₁ st₂)
    (failure : (F.access.writeText (f.path directory) f.contents).run st₂ = (.error e, st₃))
    (tree : ∀ q, q ≠ f.place (F.home st) directory →
      F.tree st₃ q = (F.tree st₁).write (F.home st) directory before q) :
    F.Ends directory barrel bundle st (.error (.io e), st₃)
  /-- All files are written, in order, and the report lists their paths. Elsewhere nothing changes. -/
  | complete {st₁ st₂ : σ} (ready : F.Ready directory st st₁)
    (written : F.Writes directory bundle st₁ st₂)
    (files : (reportOf directory barrel bundle).files = bundle.map (·.path directory))
    (tree : F.tree st₂ = (F.tree st₁).write (F.home st) directory bundle)
    (frame : ∀ q, q ∉ bundle.map (·.place (F.home st) directory) → F.Keeps directory st st₂ q) :
    F.Ends directory barrel bundle st (.ok (reportOf directory barrel bundle), st₂)

end FileSystem

namespace Schema

open FileSystem

variable {σ : Type} {F : FileSystem σ} {s : Schema} {f : NamespaceFilter}
  {directory barrel : String} {bundle : List OutputFile} {st : σ}

theorem generate_of_error {e : ExportError} (h : s.render f barrel = .error e) (st : σ) :
    (s.generate F.access f directory barrel).run st = (.error e, st) := by
  rw [generate, h]
  rfl

theorem generate_of_nil (h : s.render f barrel = .ok []) (st : σ) :
    (s.generate F.access f directory barrel).run st = (.ok {}, st) := by
  rw [generate, h]
  rfl

/-- With files to write, a run goes on from the state of its directory. -/
theorem generate_of_ne_nil (h : s.render f barrel = .ok bundle) (hne : bundle ≠ []) (st : σ) :
    (s.generate F.access f directory barrel).run st =
      match (ensureDirectory F.access directory).run st with
      | (.error e, st₁) => (.error e, st₁)
      | (.ok (), st₁) => (writeBundle F.access directory barrel {} bundle).run st₁ := by
  rw [generate, h]
  cases bundle with
  | nil => exact absurd rfl hne
  | cons x xs =>
    show ((ensureDirectory F.access directory >>= _ : StateM σ _)).run st = _
    rw [StateT.run_bind]
    rcases (ensureDirectory F.access directory).run st with ⟨e | u, st₁⟩ <;> rfl

theorem generate_of_ready {st₁ : σ} (h : s.render f barrel = .ok bundle) (hne : bundle ≠ [])
    (hdir : (ensureDirectory F.access directory).run st = (.ok (), st₁)) :
    (s.generate F.access f directory barrel).run st =
      (writeBundle F.access directory barrel {} bundle).run st₁ := by
  rw [generate_of_ne_nil h hne, hdir]

/-- With files to write, a run ends in one of the three ways. -/
theorem generate_ends (F : FileSystem σ) (h : s.render f barrel = .ok bundle) (hne : bundle ≠ [])
    (st : σ) :
    F.Ends directory barrel bundle st ((s.generate F.access f directory barrel).run st) := by
  rcases ensureDirectory_cases F directory st with ⟨st₁, hready, hdir⟩ |
    ⟨e, st₁, st₂, hask, hcreate, hdir⟩
  · rw [generate_of_ready h hne hdir]
    rcases writeBundle_cases F directory barrel {} bundle st₁ with ⟨st₂, hall, hrun⟩ |
      ⟨before, x, after, e, st₂, st₃, hsplit, hbefore, hfails, hrun⟩
    · rw [hrun]
      have htree : F.tree st₂ = (F.tree st₁).write (F.home st) directory bundle := by
        rw [hall.tree, hready.home]
      refine .complete hready hall (files_reportOf bundle) htree fun q hq => ?_
      have hkeeps := hready.keeps q
      rwa [Keeps, ← FileTree.write_of_notMem (t := F.tree st₁) hq, ← htree] at hkeeps
    · rw [hrun]
      have hhome : F.home st₂ = F.home st := hbefore.home.trans hready.home
      refine .broken hready hready.keeps hsplit hbefore hfails fun q hq => ?_
      rw [tree_of_write_of_ne hfails (hhome ▸ hq), hbefore.tree, hready.home]
  · rw [generate_of_ne_nil h hne, hdir]
    refine .noDirectory hask hcreate fun q => ?_
    have hkeeps := keeps_of_createDirectories hcreate q
    rwa [Keeps, tree_of_pathExists hask, home_of_pathExists hask] at hkeeps

/-- What a successful run with files to write has done. -/
theorem generate_eq_ok {report : GenerationReport} {st' : σ} (h : s.render f barrel = .ok bundle)
    (hne : bundle ≠ [])
    (hrun : (s.generate F.access f directory barrel).run st = (.ok report, st')) :
    report = reportOf directory barrel bundle ∧ F.home st' = F.home st ∧
      ∃ st₁, F.Ready directory st st₁ ∧ F.tree st' = (F.tree st₁).write (F.home st) directory bundle := by
  have hends : F.Ends directory barrel bundle st _ := generate_ends F h hne st
  rw [hrun] at hends
  cases hends with
  | complete ready written _ tree _ => exact ⟨rfl, written.home.trans ready.home, _, ready, tree⟩

/-- A second run that succeeds reports the same. It changes nothing but directories that were missing,
and nothing at all if it finds its directory. -/
theorem generate_again {report report' : GenerationReport} {st₁ st₂ : σ}
    (h₁ : (s.generate F.access f directory barrel).run st = (.ok report, st₁))
    (h₂ : (s.generate F.access f directory barrel).run st₁ = (.ok report', st₂)) :
    report' = report ∧ (∀ q, F.Keeps directory st₁ st₂ q) ∧
      (((F.access.pathExists directory).run st₁).1 = true → F.tree st₂ = F.tree st₁) := by
  cases hrender : s.render f barrel with
  | error e =>
    rw [generate_of_error hrender] at h₁
    cases h₁
  | ok bundle =>
    by_cases hne : bundle = []
    · rw [hne] at hrender
      rw [generate_of_nil hrender] at h₁ h₂
      cases h₁
      cases h₂
      exact ⟨rfl, fun q => .inl rfl, fun _ => rfl⟩
    · obtain ⟨rfl, hhome, u₁, -, ht₁⟩ := generate_eq_ok hrender hne h₁
      obtain ⟨rfl, -, u₂, hready, ht₂⟩ := generate_eq_ok hrender hne h₂
      rw [hhome] at ht₂
      -- The files are there already, with the texts that are written again.
      have hwritten : ∀ q ∈ bundle.map (·.place (F.home st) directory), F.tree st₂ q = F.tree st₁ q :=
        fun q hq => by rw [ht₁, ht₂, FileTree.write_of_mem _ _ hq]
      have hother : ∀ q ∉ bundle.map (·.place (F.home st) directory), F.tree st₂ q = F.tree u₂ q :=
        fun q hq => by rw [ht₂, FileTree.write_of_notMem hq]
      refine ⟨rfl, fun q => ?_, fun hfound => funext fun q => ?_⟩
      · by_cases hq : q ∈ bundle.map (·.place (F.home st) directory)
        · exact .inl (hwritten q hq)
        · rw [Keeps, hother q hq]
          exact hready.keeps q
      · by_cases hq : q ∈ bundle.map (·.place (F.home st) directory)
        · exact hwritten q hq
        · rw [hother q hq, hready.tree_of_found hfound]

/-- The barrel is the last file of a bundle. -/
theorem getLast?_of_render (h : s.render f barrel = .ok bundle) (hne : bundle ≠ []) :
    bundle.getLast?.map (·.name) = some barrel := by
  rcases eq_nil_or_concat_of_render h with hnil | ⟨last, hconcat, hlast⟩
  · exact absurd hnil hne
  · rw [hconcat, List.getLast?_concat, Option.map_some, hlast]

/-- **The outcome of a run**, whichever accesses fail.
* If rendering fails, the run fails with the same error, and without any access.
* Without files there is nothing to do, and no access either.
* Otherwise the run ends in one of the ways of `FileSystem.Ends`, and the last file is the barrel.
* A second run that succeeds reports the same and leaves all files as they are. -/
theorem generate_outcome (F : FileSystem σ) (s : Schema) (f : NamespaceFilter)
    (directory barrel : String) (st : σ) :
    (∀ e, s.render f barrel = .error e →
      (s.generate F.access f directory barrel).run st = (.error e, st)) ∧
    (s.render f barrel = .ok [] →
      (s.generate F.access f directory barrel).run st = (.ok {}, st)) ∧
    (∀ bundle, s.render f barrel = .ok bundle → bundle ≠ [] →
      bundle.getLast?.map (·.name) = some barrel ∧
        F.Ends directory barrel bundle st ((s.generate F.access f directory barrel).run st)) ∧
    ∀ report report' st₁ st₂,
      (s.generate F.access f directory barrel).run st = (.ok report, st₁) →
      (s.generate F.access f directory barrel).run st₁ = (.ok report', st₂) →
      report' = report ∧ (∀ q, F.Keeps directory st₁ st₂ q) ∧
        (((F.access.pathExists directory).run st₁).1 = true → F.tree st₂ = F.tree st₁) :=
  ⟨fun _ h => generate_of_error h st, fun h => generate_of_nil h st,
    fun _ h hne => ⟨getLast?_of_render h hne, generate_ends F h hne st⟩,
    fun _ _ _ _ h₁ h₂ => generate_again h₁ h₂⟩

/-- A class without properties. -/
def sampleShop : Schema where
  types := [{ name := "Order", ns := "Shop", shape := .classType false [] }]

/-- The files of `sampleShop`. -/
def sampleShopBundle : List OutputFile :=
  [⟨"Order.ts", ["export interface Order \x7b", "\x7d"]⟩,
    ⟨"index.ts", ["export \x7bOrder\x7d from \"./Order\";"]⟩]

theorem render_sampleShop :
    sampleShop.render ⟨"Shop", false⟩ "index.ts" = .ok sampleShopBundle := by cbv

/-- The directory is created and the first file is written, but not the second one. -/
theorem generate_outcome_sampleShop :
    let st : Script := ⟨fun _ => none, [none, none, none, some .nameTooLong]⟩
    let run := (sampleShop.generate scripted.access ⟨"Shop", false⟩ "out" "index.ts").run st
    sampleShop.render ⟨"Shop", false⟩ "index.ts" = .ok sampleShopBundle ∧ sampleShopBundle ≠ [] ∧
      sampleShopBundle.getLast?.map (·.name) = some "index.ts" ∧
      scripted.Ends "out" "index.ts" sampleShopBundle st run ∧ run.1 = .error (.io .nameTooLong) := by
  intro st run
  have hne : sampleShopBundle ≠ [] := List.cons_ne_nil _ _
  have houtcome := (generate_outcome scripted sampleShop ⟨"Shop", false⟩ "out" "index.ts" st).2.2.1
    sampleShopBundle render_sampleShop hne
  refine ⟨render_sampleShop, hne, houtcome.1, houtcome.2, ?_⟩
  show ((sampleShop.generate scripted.access ⟨"Shop", false⟩ "out" "index.ts").run st).1 = _
  rw [generate_of_ready render_sampleShop hne rfl, sampleShopBundle, writeBundle_of_ok rfl,
    writeBundle_of_error rfl]

end Schema

end TypeExport
