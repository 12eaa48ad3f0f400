import Mathlib
import TypeExport.Command.Run
import TypeExport.Proofs.Actions
import TypeExport.Proofs.Output.Generation

/-!
# Runs of commands

A command reads its configuration, makes a plan, loads the model and then generates its modules or
lists them.

* `FileSystem.types_reportOf`: the names in the report about files that have been written. The name of
  a file that is named like the barrel is missing.
* `FileSystem.WriteFails`: a directory or a file that is to be written cannot be written.
* `Command.run_eq`: a command is carried out with its effective configuration.
* `Command.run_of_loads`: where a model is loaded, the command goes on with it.
* `Command.run_cases`: two commands with one effective configuration stop with the same fault, or they
  go on with the same model.
-/

namespace TypeExport

/-! ## Reports -/

theorem Text.stripSuffix?_append (s tail : String) : stripSuffix? tail (s ++ tail) = some s := by
  simp [stripSuffix?]

namespace FileSystem

variable {directory barrel : String}

theorem types_foldl_add (r : GenerationReport) (fs : List OutputFile) :
    (fs.foldl (·.add directory barrel) r).types = r.types ++ fs.flatMap fun f =>
      if f.name = barrel then [] else (Text.stripSuffix? ".ts" f.name).toList := by
  induction fs generalizing r with
  | nil => simp
  | cons f fs ih =>
    have hadd : (r.add directory barrel f).types = r.types ++
        if f.name = barrel then [] else (Text.stripSuffix? ".ts" f.name).toList := by
      unfold GenerationReport.add
      by_cases h : f.name = barrel <;> simp [h]
    rw [List.foldl_cons, ih, hadd, List.flatMap_cons, List.append_assoc]

/-- A report leaves out the declaration of a file that is named like the barrel. -/
theorem types_reportOf (entries : List Entry) (lines : List String) :
    (reportOf directory barrel (entries.map (fun e =>
        ⟨e.declaration.name ++ ".ts", Output.declarationLines e.declaration⟩) ++
        [⟨barrel, lines⟩])).types =
      (entries.map (·.declaration.name)).filter fun n => n ++ ".ts" ≠ barrel := by
  rw [reportOf, types_foldl_add, List.nil_append, List.flatMap_append, List.flatMap_singleton,
    if_pos rfl, List.append_nil]
  induction entries with
  | nil => rfl
  | cons e entries ih =>
    rw [List.map_cons, List.flatMap_cons, ih, List.map_cons, List.filter_cons]
    by_cases h : e.declaration.name ++ ".ts" = barrel
    · simp [h]
    · simp [h, Text.stripSuffix?_append]

variable {σ : Type}

/-- Files are to be written into a directory, but it cannot be created, or one of the files cannot be
written after those before it. -/
inductive WriteFails (F : FileSystem σ) (directory : String) : List OutputFile → σ → Prop where
  | creation {bundle : List OutputFile} {e : OsError} {st st₁ st₂ : σ} (nonempty : bundle ≠ [])
    (missing : (F.access.pathExists directory).run st = (false, st₁))
    (failure : (F.access.createDirectories directory).run st₁ = (.error e, st₂)) :
    F.WriteFails directory bundle st
  | write {before after : List OutputFile} {f : OutputFile} {e : OsError} {st st₁ st₂ st₃ : σ}
    (ready : F.Ready directory st st₁) (written : F.Writes directory before st₁ st₂)
    (failure : (F.access.writeText (f.path directory) f.contents).run st₂ = (.error e, st₃)) :
    F.WriteFails directory (before ++ f :: after) st

end FileSystem

namespace Script

variable {s s' : Script} {directory path : String}

theorem faultless_of_pathExists {b : Bool} (h : s.faults = [])
    (hrun : (access.pathExists path).run s = (b, s')) : s'.faults = [] := by
  obtain rfl : s.pass s.tree = s' := (Prod.mk.inj hrun).2
  rw [pass, h]
  rfl

theorem faultless_of_change {done failed : FileTree} {res : Except OsError Unit}
    (h : s.faults = []) (hrun : (change done failed).run s = (res, s')) :
    res = .ok () ∧ s'.faults = [] := by
  have hfault : s.fault? = none := by
    rw [fault?, h]
    rfl
  simp only [change, StateT.run, hfault] at hrun
  obtain ⟨rfl, rfl⟩ := Prod.mk.inj hrun
  refine ⟨rfl, ?_⟩
  rw [pass, h]
  rfl

theorem faultless_of_ready (h : s.faults = [])
    (hready : FileSystem.scripted.Ready directory s s') : s'.faults = [] := by
  cases hready with
  | present found => exact faultless_of_pathExists h found
  | created missing creation =>
    exact (faultless_of_change (faultless_of_pathExists h missing) creation).2

theorem faultless_of_writes {fs : List OutputFile} (h : s.faults = [])
    (hwrites : FileSystem.scripted.Writes directory fs s s') : s'.faults = [] := by
  induction hwrites with
  | nil => exact h
  | cons write _ ih => exact ih (faultless_of_change h write).2

/-- Without faults in the script no write fails. -/
theorem not_writeFails (h : s.faults = []) (fs : List OutputFile) :
    ¬ FileSystem.scripted.WriteFails directory fs s := by
  intro hfails
  cases hfails with
  | creation _ missing failure =>
    cases (faultless_of_change (faultless_of_pathExists h missing) failure).1
  | write ready written failure =>
    have hwritten := faultless_of_writes (faultless_of_ready h ready) written
    cases (faultless_of_change hwritten failure).1

end Script

/-! ## Running commands -/

section

variable {m : Type → Type} [Monad m] (files : FileAccess m)

/-- The configuration with which a command is carried out: that of its file, with its options in it. -/
def Command.effective (env : Placeholder.Environment) (command : Command) :
    m (Except ModelError Config) := do
  let env ← EnvironmentFile.load files env
  return (← Config.readOrUsual files env command.options.config).map command.apply

/-- A command is carried out with its effective configuration. -/
theorem Command.run_eq [LawfulMonad m] (env : Placeholder.Environment) (command : Command) :
    command.run files env = (do
      match ← command.effective files env with
      | .error e => return .failed (.model e)
      | .ok c => match c.plan with
        | .error fault => return .failed fault
        | .ok p => command.follow files p) := by
  simp only [run, effective, bind_assoc, pure_bind]
  refine bind_congr fun env => bind_congr fun c => ?_
  cases c <;> rfl

end

variable {σ : Type} {F : FileSystem σ} {env : Placeholder.Environment} {command : Command}
  {c : Config} {p p' : Plan} {s s' : Schema} {st st₁ st₂ : σ}

theorem Command.run_of_effective (h : (command.effective F.access env).run st = (.ok c, st₁)) :
    (command.run F.access env).run st = match c.plan with
      | .error fault => (.failed fault, st₁)
      | .ok p => (command.follow F.access p).run st₁ := by
  rw [Command.run_eq, run_bind_of_run h]
  dsimp only
  cases c.plan <;> rfl

/-- With the configuration a run can start, and it loads its model. -/
structure Config.Loads (F : FileSystem σ) (c : Config) (st : σ) (p : Plan) (s : Schema) (st' : σ) :
    Prop where
  plan : c.plan = .ok p
  load : (p.source.load F.access).run st = (.ok s, st')

theorem Config.Loads.unique (h : c.Loads F st p s st₁) (h' : c.Loads F st p' s' st₂) :
    p' = p ∧ s' = s ∧ st₂ = st₁ := by
  obtain rfl : p = p' := Except.ok.inj (h.plan.symm.trans h'.plan)
  obtain ⟨hs, hst⟩ := Prod.mk.inj (h'.load.symm.trans h.load)
  exact ⟨rfl, Except.ok.inj hs, hst⟩

theorem Command.run_of_loads (h : (command.effective F.access env).run st = (.ok c, st₁))
    (hloads : c.Loads F st₁ p s st₂) : (command.run F.access env).run st =
      match command with
      | .generate _ _ _ => (s.generation F.access p).run st₂
      | .discover _ => (s.listing p, st₂) := by
  rw [run_of_effective h, hloads.plan]
  simp only [follow]
  rw [run_bind_of_run hloads.load]
  cases command <;> rfl

section

variable {og od : SourceOptions} {directory? barrel? : Option String}

/-- Commands of both kinds stop with the same fault, or they go on with the same model. -/
theorem Command.run_cases
    (hg : ((generate og directory? barrel?).effective F.access env).run st = (.ok c, st₁))
    (hd : ((discover od).effective F.access env).run st = (.ok c, st₁)) :
    (∃ fault st₂, (∀ p s st', ¬ c.Loads F st₁ p s st') ∧
      ((generate og directory? barrel?).run F.access env).run st = (.failed fault, st₂) ∧
      ((discover od).run F.access env).run st = (.failed fault, st₂)) ∨
    ∃ p s st₂, c.Loads F st₁ p s st₂ ∧
      ((generate og directory? barrel?).run F.access env).run st =
        (s.generation F.access p).run st₂ ∧
      ((discover od).run F.access env).run st = (s.listing p, st₂) := by
  cases hplan : c.plan with
  | error fault =>
    rw [run_of_effective hg, run_of_effective hd, hplan]
    refine .inl ⟨fault, st₁, fun p s st' h => ?_, rfl, rfl⟩
    cases hplan.symm.trans h.plan
  | ok p =>
    obtain ⟨res, st₂, hload⟩ : ∃ res st₂, (p.source.load F.access).run st₁ = (res, st₂) :=
      ⟨_, _, rfl⟩
    cases res with
    | error e =>
      rw [run_of_effective hg, run_of_effective hd, hplan]
      simp only [follow, StateT.run_bind, hload]
      refine .inl ⟨.exportFailed e, st₂, fun p' s st' h => ?_, rfl, rfl⟩
      obtain rfl : p = p' := Except.ok.inj (hplan.symm.trans h.plan)
      cases hload.symm.trans h.load
    | ok s =>
      have hloads : c.Loads F st₁ p s st₂ := ⟨hplan, hload⟩
      exact .inr ⟨p, s, st₂, hloads, run_of_loads hg hloads, run_of_loads hd hloads⟩

end

/-! ## Going on with a model -/

namespace Schema

theorem render_of_roots_nil {f : NamespaceFilter} {barrel : String} (h : s.roots f = .ok []) :
    s.render f barrel = .ok [] := by
  rw [render, h]
  rfl

theorem run_generation {report : GenerationReport}
    (h : (s.generate F.access p.filter p.output.directory p.output.barrel).run st =
      (.ok report, st₁)) :
    (s.generation F.access p).run st = ({ lines := report.lines p }, st₁) := by
  rw [generation, run_bind_of_run h]
  rfl

theorem run_generation_of_error {e : ExportError}
    (h : (s.generate F.access p.filter p.output.directory p.output.barrel).run st =
      (.error e, st₁)) :
    (s.generation F.access p).run st = (.failed (.exportFailed e), st₁) := by
  rw [generation, run_bind_of_run h]
  rfl

end Schema

/-- The model in a file that can be read. -/
theorem ModelSource.load_of_readText {path text : String}
    (h : (F.access.readText path).run st = (.ok text, st₁)) :
    ((schemaFile path).load F.access).run st =
      ((Schema.ofText (Path.extension? path) text).mapError .model, st₁) := by
  have hread : (Schema.read F.access path).run st =
      (Schema.ofText (Path.extension? path) text, st₁) := by
    rw [Schema.read, run_bind_of_run h]
    rfl
  exact (run_bind_of_run hread).trans rfl

end TypeExport
