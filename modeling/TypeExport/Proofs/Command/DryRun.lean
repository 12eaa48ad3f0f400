import Mathlib
import TypeExport.Proofs.Command.Run
import TypeExport.Proofs.Schema.FullNames

/-!
# Dry runs

A command that lists is a dry run of one that generates: with the same configuration it shows what that
one would write. Both discover the roots, but the report about what has been written is put together
again from the names of the files, and the file of a declaration that is named like the barrel is taken
for the barrel.

* `Schema.Exports.map_simpleName`: the roots have the simple names of the declarations they name.
* `DryRun.Agree`: how both commands end, where some names are reported.
* `DryRun.TellsTruth`: they agree, and all names are reported.
* `DryRun.run_agrees`: where all writes succeed, both commands agree, and the dry run tells the truth
  exactly if the barrel has no declaration's file name.
* `DryRun.not_tellsTruth_takenBarrel`: a shop whose only type is left out.
-/

namespace TypeExport

namespace Schema

variable {s : Schema} {f : NamespaceFilter} {roots : List TypeExpr} {entries : List Entry}

/-! ## Names of roots -/

/-- A root that names a declaration is the full name of that declaration. -/
theorem simpleName_root (h : s.roots f = .ok roots) {root : TypeExpr} (hroot : root ∈ roots)
    {e : Entry} (he : s.entryOf? root = some e) :
    root.simpleName = Text.simpleName e.declaration.name := by
  obtain ⟨payloads, -, rfl⟩ := roots_eq_ok_iff.mp h
  rw [rootsOf, List.mem_eraseDups] at hroot
  obtain ⟨p, -, rfl⟩ := List.mem_map.mp hroot
  cases p with
  | named n =>
    cases hn : s.resolve? n with
    | none => simp [canonical, hn, entryOf?] at he
    | some e₀ =>
      have hcanonical : s.canonical (.named n) = .named e₀.fullName := by simp only [canonical, hn]
      rw [hcanonical] at he ⊢
      obtain ⟨e₁, hresolve, hname⟩ := resolve?_fullName (mem_allTypes_of_resolve? hn)
      rw [entryOf?, hresolve] at he
      cases he
      rw [TypeExpr.simpleName, ← hname, simpleName_fullName (mem_allTypes_of_resolve? hresolve)]
  | primitive p => cases he
  | array t => cases he
  | generic w args => cases he

/-- The simple names of roots are those of their declarations. -/
theorem Exports.map_simpleName (hexp : s.Exports roots entries) (h : s.roots f = .ok roots) :
    roots.map TypeExpr.simpleName =
      entries.map fun e => Text.simpleName e.declaration.name := by
  have hroot : ∀ r ∈ roots, some r.simpleName =
      (s.entryOf? r).map fun e => Text.simpleName e.declaration.name := fun r hr => by
    obtain ⟨e, he⟩ := (exists_exports_iff.mp ⟨entries, hexp⟩).1 r hr
    rw [he, Option.map_some, simpleName_root h hr he]
  refine List.map_injective_iff.mpr (Option.some_injective String) ?_
  calc (roots.map TypeExpr.simpleName).map some
    _ = roots.map fun r => (s.entryOf? r).map fun e => Text.simpleName e.declaration.name := by
      rw [List.map_map]
      exact List.map_congr_left hroot
    _ = (roots.map s.entryOf?).map (Option.map fun e => Text.simpleName e.declaration.name) := by
      rw [List.map_map]
      rfl
    _ = (entries.map fun e => Text.simpleName e.declaration.name).map some := by
      rw [hexp.declared, List.map_map, List.map_map]
      rfl

end Schema

/-! ## Dry runs -/

namespace DryRun

variable {σ : Type} {F : FileSystem σ} {env : Placeholder.Environment} {c : Config}
  {p : Plan} {s : Schema} {st st₁ : σ}

/-- How a command that generates and one that lists end, both with configuration `c` and from the state
`st`. `reported` picks the names that are reported from those of the exported declarations. -/
inductive Agree (F : FileSystem σ) (c : Config) (st : σ)
    (reported : Plan → List String → List String) : RunResult × σ → RunResult × σ → Prop where
  /-- There is no model, or it cannot be rendered. Both end with the same fault, and one may have
  listed the roots before. -/
  | failed {fault : CommandFault} {lines : List String} {st' : σ}
    (stops : ∀ p s st', c.Loads F st p s st' →
      ∃ e, s.render p.filter p.output.barrel = .error e)
    (listed : lines = [] ∨ ∃ ns roots, lines = rootLines ns roots) :
    Agree F c st reported (.failed fault, st') (⟨lines, some fault⟩, st')
  /-- There are no roots. Both say so and write nothing. -/
  | nothing {p : Plan} {s : Schema} {st' : σ} (loads : c.Loads F st p s st')
    (empty : s.roots p.filter = .ok []) :
    Agree F c st reported (⟨emptyLines p.filter.ns, none⟩, st')
      (⟨emptyLines p.filter.ns, none⟩, st')
  /-- One writes exactly the files that the other lists, in order. -/
  | exported {p : Plan} {s : Schema} {roots : List TypeExpr} {entries : List Entry}
    {bundle : List OutputFile} {report : GenerationReport} {st' st₁ st₂ : σ}
    (loads : c.Loads F st p s st') (found : s.roots p.filter = .ok roots) (nonempty : roots ≠ [])
    (exports : s.Exports roots entries)
    (names : roots.map TypeExpr.simpleName =
      entries.map fun e => Text.simpleName e.declaration.name)
    (render : s.render p.filter p.output.barrel = .ok bundle)
    (generate : (s.generate F.access p.filter p.output.directory p.output.barrel).run st' =
      (.ok report, st₂))
    (ready : F.Ready p.output.directory st' st₁)
    (written : F.Writes p.output.directory bundle st₁ st₂)
    (files : report.files = bundle.map (·.path p.output.directory))
    (types : report.types = reported p (entries.map (·.declaration.name))) :
    Agree F c st reported (⟨report.lines p, none⟩, st₂)
      (⟨rootLines p.filter.ns roots ++ fileLines p.output.directory bundle, none⟩, st')

/-- What listing says is what generating does: the commands agree, all declarations are reported, and
one finds no types exactly if the other does. -/
structure TellsTruth (F : FileSystem σ) (c : Config) (st : σ) (g d : RunResult × σ) : Prop where
  agree : Agree F c st (fun _ names => names) g d
  notice : ∀ ns, g.1.lines = emptyLines ns ↔ d.1.lines = emptyLines ns

/-- The names that are reported: a file that is named like the barrel is taken for it. -/
def reported (p : Plan) (names : List String) : List String :=
  names.filter fun n => n ++ ".ts" ≠ p.output.barrel

/-- The barrel has the file name of a declaration. -/
def BarrelTaken (F : FileSystem σ) (c : Config) (st : σ) : Prop :=
  ∃ p s st' bundle, c.Loads F st p s st' ∧ s.render p.filter p.output.barrel = .ok bundle ∧
    p.output.barrel ∈ bundle.dropLast.map (·.name)

/-- No file that is to be written fails to be written. -/
def WritesSucceed (F : FileSystem σ) (c : Config) (st : σ) : Prop :=
  ∀ p s st' bundle, c.Loads F st p s st' → s.render p.filter p.output.barrel = .ok bundle →
    ¬ F.WriteFails p.output.directory bundle st'

variable {g d : RunResult × σ}

/-! ### What is printed -/

theorem rootLines_append_ne (ns ns' : String) (roots : List TypeExpr) (lines : List String) :
    rootLines ns roots ++ lines ≠ emptyLines ns' := by
  intro h
  have hhead := congrArg (fun ls => ls.head?.map fun l => l.toList.head?) h
  simp [rootLines, emptyLines] at hhead

theorem reportLines_ne {r : GenerationReport} (h : r.types ≠ []) (p : Plan) (ns : String) :
    r.lines p ≠ emptyLines ns := by
  intro hlines
  have hhead := congrArg (fun ls => ls.head?.map fun l => l.toList.head?) hlines
  simp [GenerationReport.lines, emptyLines, h] at hhead

/-- Where all declarations are reported, the notice that there are no types is given by both or by
none. -/
theorem Agree.notice (h : Agree F c st (fun _ names => names) g d) (ns : String) :
    g.1.lines = emptyLines ns ↔ d.1.lines = emptyLines ns := by
  cases h with
  | failed _ listed =>
    refine iff_of_false (List.cons_ne_nil _ _).symm ?_
    rcases listed with rfl | ⟨ns', roots, rfl⟩
    · exact (List.cons_ne_nil _ _).symm
    · simpa using rootLines_append_ne ns' ns roots []
  | nothing _ _ => exact Iff.rfl
  | exported _ _ nonempty exports _ _ _ _ _ _ types =>
    refine iff_of_false (reportLines_ne ?_ _ ns) (rootLines_append_ne _ ns _ _)
    rw [types, Ne, List.map_eq_nil_iff, ← List.length_eq_zero_iff, ← exports.length_eq]
    exact mt List.length_eq_zero_iff.mp nonempty

/-! ### Names that are taken -/

/-- All declarations are reported exactly if none has the barrel's name. -/
theorem reported_eq_self_iff {names : List String} :
    reported p names = names ↔ p.output.barrel ∉ names.map (· ++ ".ts") := by
  simp only [reported, List.filter_eq_self, decide_eq_true_eq, List.mem_map, not_exists, not_and]

section

variable {roots : List TypeExpr} {entries : List Entry} {bundle : List OutputFile}
  {report : GenerationReport}

/-- What is rendered for exports. -/
theorem bundle_eq (hroots : s.roots p.filter = .ok roots) (hexp : s.Exports roots entries)
    (hrender : s.render p.filter p.output.barrel = .ok bundle) :
    bundle = if entries = [] then [] else
      entries.map (fun e =>
        ⟨e.declaration.name ++ ".ts", Output.declarationLines e.declaration⟩) ++
      [⟨p.output.barrel, entries.map fun e => Output.exportLine e.declaration.name⟩] :=
  Except.ok.inj (hrender.symm.trans
    (Schema.render_eq_ok_iff.mpr ⟨roots, entries, hroots, hexp, rfl⟩))

/-- The files before the barrel have the names of the exported declarations. -/
theorem names_dropLast (hroots : s.roots p.filter = .ok roots) (hexp : s.Exports roots entries)
    (hrender : s.render p.filter p.output.barrel = .ok bundle) :
    bundle.dropLast.map (·.name) = (entries.map (·.declaration.name)).map (· ++ ".ts") := by
  rw [bundle_eq hroots hexp hrender]
  cases entries with
  | nil => rfl
  | cons e es =>
    rw [if_neg (List.cons_ne_nil e es), List.dropLast_concat, List.map_map, List.map_map]
    rfl

/-- The names in a report that could be completed. -/
theorem types_of_generate (hroots : s.roots p.filter = .ok roots) (hexp : s.Exports roots entries)
    (hrender : s.render p.filter p.output.barrel = .ok bundle)
    (hrun : (s.generate F.access p.filter p.output.directory p.output.barrel).run st =
      (.ok report, st₁)) : report.types = reported p (entries.map (·.declaration.name)) := by
  have hbundle := bundle_eq hroots hexp hrender
  cases entries with
  | nil =>
    rw [hbundle, if_pos rfl] at hrender
    cases (Schema.generate_of_nil hrender st).symm.trans hrun
    rfl
  | cons e es =>
    rw [if_neg (List.cons_ne_nil e es)] at hbundle
    have hne : bundle ≠ [] := hbundle ▸ List.append_ne_nil_of_right_ne_nil _ (List.cons_ne_nil _ _)
    rw [(Schema.generate_eq_ok hrender hne hrun).1, hbundle, FileSystem.types_reportOf]
    rfl

end

/-- Where the barrel has no declaration's file name, all declarations are reported. -/
theorem Agree.all (h : Agree F c st reported g d) (hfree : ¬ BarrelTaken F c st) :
    Agree F c st (fun _ names => names) g d := by
  cases h with
  | failed stops listed => exact .failed stops listed
  | nothing loads empty => exact .nothing loads empty
  | exported loads found nonempty exports names render generate ready written files types =>
    refine .exported loads found nonempty exports names render generate ready written files ?_
    rw [types, reported_eq_self_iff, ← names_dropLast found exports render]
    exact fun hmem => hfree ⟨_, _, _, _, loads, render, hmem⟩

/-- Where the barrel has a declaration's file name, that declaration is not reported. -/
theorem Agree.not_barrelTaken (h : Agree F c st (fun _ names => names) g d) :
    ¬ BarrelTaken F c st := by
  rintro ⟨p, s, st', bundle, hloads, hrender, hmem⟩
  cases h with
  | failed stops _ =>
    obtain ⟨e, he⟩ := stops _ _ _ hloads
    cases hrender.symm.trans he
  | nothing loads empty =>
    obtain ⟨rfl, rfl, rfl⟩ := hloads.unique loads
    cases hrender.symm.trans (Schema.render_of_roots_nil empty)
    cases hmem
  | exported loads found nonempty exports names render generate ready written files types =>
    obtain ⟨rfl, rfl, rfl⟩ := hloads.unique loads
    rw [names_dropLast found exports hrender] at hmem
    have hall := types_of_generate found exports hrender generate
    exact reported_eq_self_iff.mp (hall.symm.trans types) hmem

/-! ### The commands -/

/-- A model that cannot be rendered fails both. -/
theorem agree_of_render_error {e : ExportError} (hloads : c.Loads F st p s st₁)
    (hrender : s.render p.filter p.output.barrel = .error e) :
    Agree F c st reported ((s.generation F.access p).run st₁) (s.listing p, st₁) := by
  rw [Schema.run_generation_of_error (Schema.generate_of_error hrender st₁), Schema.listing]
  have hstops : ∀ p' s' st', c.Loads F st p' s' st' →
      ∃ e, s'.render p'.filter p'.output.barrel = .error e := fun p' s' st' h => by
    obtain ⟨rfl, rfl, -⟩ := hloads.unique h
    exact ⟨e, hrender⟩
  cases hroots : s.roots p.filter with
  | error e' =>
    cases hrender.symm.trans (Schema.render_eq_error_iff.mpr (.inl hroots))
    exact .failed hstops (.inl rfl)
  | ok roots =>
    cases roots with
    | nil => cases hrender.symm.trans (Schema.render_of_roots_nil hroots)
    | cons r rs =>
      simp only [hrender]
      exact .failed hstops (.inr ⟨p.filter.ns, r :: rs, rfl⟩)

/-- A model that is rendered is written as it is listed, if all writes succeed. -/
theorem agree_of_render_ok {bundle : List OutputFile} (hloads : c.Loads F st p s st₁)
    (hrender : s.render p.filter p.output.barrel = .ok bundle)
    (hwrites : ¬ F.WriteFails p.output.directory bundle st₁) :
    Agree F c st reported ((s.generation F.access p).run st₁) (s.listing p, st₁) := by
  obtain ⟨roots, entries, hroots, hexp, hbundle⟩ := Schema.render_eq_ok_iff.mp hrender
  rw [Schema.listing, hroots]
  cases roots with
  | nil =>
    have hnil : s.render p.filter p.output.barrel = .ok [] := Schema.render_of_roots_nil hroots
    rw [Schema.run_generation (Schema.generate_of_nil hnil st₁)]
    exact .nothing hloads hroots
  | cons r rs =>
    have hne : bundle ≠ [] := by
      rw [hbundle, if_neg (fun h => by simpa [h] using hexp.length_eq)]
      exact List.append_ne_nil_of_right_ne_nil _ (List.cons_ne_nil _ _)
    simp only [hrender]
    obtain ⟨out, hout⟩ : ∃ out,
      (s.generate F.access p.filter p.output.directory p.output.barrel).run st₁ = out := ⟨_, rfl⟩
    have hends : F.Ends p.output.directory _ bundle st₁ _ := Schema.generate_ends F hrender hne st₁
    rw [hout] at hends
    cases hends with
    | noDirectory missing failure _ => exact absurd (.creation hne missing failure) hwrites
    | broken ready _ split written failure _ =>
      exact absurd (split ▸ .write ready written failure) hwrites
    | complete ready written files _ _ =>
      rw [Schema.run_generation hout]
      exact .exported hloads hroots (List.cons_ne_nil r rs) hexp (hexp.map_simpleName hroots)
        hrender hout ready written files (types_of_generate hroots hexp hrender hout)

/-- **The dry run.** Let both commands have the same effective configuration, and let no write fail.
* Both end with the same fault, or both say that there are no types, or one writes exactly the files
  that the other lists, and reports the declarations of the roots that the other lists, in order, but
  for one whose file is named like the barrel.
* What listing says is what generating does exactly if the barrel has no declaration's file name. -/
theorem run_agrees {og od : SourceOptions} {directory barrel : Option String}
    (hg : ((Command.generate og directory barrel).effective F.access env).run st = (.ok c, st₁))
    (hd : ((Command.discover od).effective F.access env).run st = (.ok c, st₁))
    (hwrites : WritesSucceed F c st₁) :
    let g := ((Command.generate og directory barrel).run F.access env).run st
    let d := ((Command.discover od).run F.access env).run st
    Agree F c st₁ reported g d ∧ (TellsTruth F c st₁ g d ↔ ¬ BarrelTaken F c st₁) := by
  intro g d
  have hagree : Agree F c st₁ reported g d := by
    rcases Command.run_cases hg hd with ⟨fault, st₂, hnone, hfg, hfd⟩ | ⟨p, s, st₂, hloads, hrg, hrd⟩
    · simp only [g, d, hfg, hfd]
      exact .failed (fun p s st' h => absurd h (hnone p s st')) (.inl rfl)
    · simp only [g, d, hrg, hrd]
      cases hrender : s.render p.filter p.output.barrel with
      | error e => exact agree_of_render_error hloads hrender
      | ok bundle => exact agree_of_render_ok hloads hrender (hwrites _ _ _ _ hloads hrender)
  refine ⟨hagree, fun h => h.agree.not_barrelTaken, fun hfree => ?_⟩
  exact ⟨hagree.all hfree, (hagree.all hfree).notice⟩

/-! ### A shop -/

open FileSystem (scripted)

/-- `Schema.sampleShop` as a text. -/
def shopText : String :=
  "\x7b\"types\":[\x7b\"name\":\"Order\",\"namespace\":\"Shop\"," ++
    "\"kind\":\"class\",\"properties\":[]\x7d]\x7d"

/-- A file with the shop, and perhaps one with a configuration. -/
def shopFiles (config? : Option String) : Script where
  tree place :=
    if place = ["shop.json"] then some (.file shopText.toUTF8)
    else if place = ["dtogen.toml"] then config?.map fun text => .file text.toUTF8
    else none

def shopOptions : SourceOptions where
  schemaFile := some "shop.json"
  ns := some "Shop"

def shopConfig (output : OutputSettings) : Config where
  source := ⟨some "shop.json", none⟩
  output := output
  discovery := ⟨some "Shop", false⟩

def shopPlan (output : OutputSettings) : Plan where
  source := .schemaFile "shop.json"
  filter := ⟨"Shop", false⟩
  output := output

/-- A configuration in which the barrel has the name of the shop's only file. -/
def takenText : String := "[output]\nbarrel_file = \"Order.ts\"\n"

section

variable {config? : Option String} {output : OutputSettings}

theorem load_shopFiles (env : Placeholder.Environment) :
    (EnvironmentFile.load scripted.access env).run (shopFiles config?) =
      (env, shopFiles config?) := by
  have hfind : (EnvironmentFile.find? scripted.access (Path.ancestors "/")).run
    (shopFiles config?) = (none, shopFiles config?) := rfl
  have hhome : scripted.access.home.run (shopFiles config?) =
    ("/", shopFiles config?) := rfl
  rw [EnvironmentFile.load, run_bind_of_run hhome, run_bind_of_run hfind]
  rfl

theorem effective_shop (command : Command)
    (hread : (Config.readOrUsual scripted.access env command.options.config).run
      (shopFiles config?) = (.ok c, shopFiles config?)) :
    (command.effective scripted.access env).run (shopFiles config?) =
      (.ok (command.apply c), shopFiles config?) := by
  rw [Command.effective, run_bind_of_run (load_shopFiles env), run_bind_of_run hread]
  rfl

theorem ofText_shopText :
    Schema.ofText (Path.extension? "shop.json") shopText = .ok Schema.sampleShop := by
  have hextension : Path.extension? "shop.json" = some "json" := rfl
  have hjson : Schema.ofJson shopText = .ok Schema.sampleShop := by cbv
  rw [hextension]
  exact hjson

theorem loads_shop (config? : Option String) (h : (Text.trim output.barrel).isEmpty = false) :
    (shopConfig output).Loads scripted (shopFiles config?) (shopPlan output)
      Schema.sampleShop (shopFiles config?) where
  plan := by
    have hvalid : (shopConfig output).validate = .ok () := by
      simp [Config.validate, shopConfig, SourceSettings.source, h]
    rw [Config.plan, hvalid]
    rfl
  load := by
    have htext : (scripted.access.readText "shop.json").run (shopFiles config?) =
        (.ok shopText, shopFiles config?) := by
      have hitem : (shopFiles config?).item? "shop.json" = some (.file shopText.toUTF8) := rfl
      exact Prod.ext (Script.readText_of_item? hitem) rfl
    rw [shopPlan, ModelSource.load_of_readText htext, ofText_shopText]
    rfl

theorem writesSucceed_shop (h : (Text.trim output.barrel).isEmpty = false) :
    WritesSucceed scripted (shopConfig output) (shopFiles config?) := by
  intro p s st bundle hloads _
  obtain ⟨-, -, rfl⟩ := (loads_shop config? h).unique hloads
  exact Script.not_writeFails rfl bundle

end

/-- Generating reports the only type of the shop. -/
theorem run_agrees_sampleShop :
    let env : Placeholder.Environment := fun _ => none
    let st := shopFiles none
    let g := Command.generate shopOptions none none
    let d := Command.discover shopOptions
    (g.effective scripted.access env).run st = (.ok (shopConfig {}), st) ∧
      (d.effective scripted.access env).run st = (.ok (shopConfig {}), st) ∧
      WritesSucceed scripted (shopConfig {}) st ∧
      TellsTruth scripted (shopConfig {}) st
        ((g.run scripted.access env).run st)
        ((d.run scripted.access env).run st) := by
  intro env st g d
  have hread : (Config.readOrUsual scripted.access env "dtogen.toml").run st =
    (.ok {}, st) := rfl
  have hg := effective_shop g hread
  have hd := effective_shop d hread
  have hbarrel : (Text.trim ({} : OutputSettings).barrel).isEmpty = false := by cbv
  have hwrites : WritesSucceed scripted (shopConfig {}) st := writesSucceed_shop hbarrel
  refine ⟨hg, hd, hwrites, (run_agrees hg hd hwrites).2.mpr ?_⟩
  rintro ⟨p, s, st', bundle, hloads, hrender, hmem⟩
  obtain ⟨rfl, rfl, -⟩ := (loads_shop none hbarrel).unique hloads
  have hbundle : Schema.sampleShop.render ⟨"Shop", false⟩ "dto.exports.ts" =
    .ok [⟨"Order.ts", ["export interface Order \x7b", "\x7d"]⟩,
      ⟨"dto.exports.ts", ["export \x7bOrder\x7d from \"./Order\";"]⟩] := by cbv
  cases hbundle.symm.trans hrender
  revert hmem
  decide

/-- Listing shows the type `Order` and its file, but generating says that there are no types: the barrel
is written over the file, and takes its place in the report. -/
theorem not_tellsTruth_takenBarrel :
    let env : Placeholder.Environment := fun _ => none
    let st := shopFiles (some takenText)
    let c := shopConfig { barrel := "Order.ts" }
    let g := Command.generate shopOptions none none
    let d := Command.discover shopOptions
    let runG : RunResult × Script := (g.run scripted.access env).run st
    let runD : RunResult × Script := (d.run scripted.access env).run st
    (g.effective scripted.access env).run st = (.ok c, st) ∧
      (d.effective scripted.access env).run st = (.ok c, st) ∧
      WritesSucceed scripted c st ∧
      runG.1.lines = ["! No types found in namespace Shop"] ∧
      runD.1.lines = ["→ 1 root type(s) in Shop:", "  Shop.Order", "", "Files:",
        "  generated/Order.ts", "  generated/Order.ts"] ∧
      ¬ TellsTruth scripted c st runG runD := by
  intro env st c g d runG runD
  have htoml : Config.ofToml env takenText = .ok { output := { barrel := "Order.ts" } } := by cbv
  have hread : (Config.readOrUsual scripted.access env "dtogen.toml").run st =
      (.ok { output := { barrel := "Order.ts" } }, st) := by
    rw [← htoml]
    rfl
  have hbarrel : (Text.trim "Order.ts").isEmpty = false := by cbv
  have hloads : c.Loads scripted st _ _ _ := loads_shop (some takenText) hbarrel
  have hg := effective_shop g hread
  have hd := effective_shop d hread
  have hrunG : runG = (Schema.sampleShop.generation scripted.access _).run st :=
    Command.run_of_loads hg hloads
  have hrunD : runD = (Schema.sampleShop.listing _, st) := Command.run_of_loads hd hloads
  have hrender : Schema.sampleShop.render ⟨"Shop", false⟩ "Order.ts" =
    .ok [⟨"Order.ts", ["export interface Order \x7b", "\x7d"]⟩,
      ⟨"Order.ts", ["export \x7bOrder\x7d from \"./Order\";"]⟩] := by cbv
  obtain ⟨st', hgenerate⟩ : ∃ st', (Schema.sampleShop.generate scripted.access
      ⟨"Shop", false⟩ "generated" "Order.ts").run st =
      (.ok ⟨[], ["generated/Order.ts", "generated/Order.ts"], some "Order.ts"⟩, st') := by
    rw [Schema.generate_of_ready hrender (List.cons_ne_nil _ _) rfl,
      FileSystem.writeBundle_of_ok rfl, FileSystem.writeBundle_of_ok rfl,
      FileSystem.writeBundle_nil]
    exact ⟨_, rfl⟩
  have hlinesG : runG.1.lines = ["! No types found in namespace Shop"] := by
    rw [hrunG, Schema.run_generation hgenerate]
    rfl
  have hlinesD : runD.1.lines = ["→ 1 root type(s) in Shop:", "  Shop.Order", "", "Files:",
      "  generated/Order.ts", "  generated/Order.ts"] := by
    rw [hrunD]
    cbv
  refine ⟨hg, hd, writesSucceed_shop hbarrel, hlinesG, hlinesD, fun h => ?_⟩
  have hnotice := (h.notice "Shop").mp hlinesG
  rw [hlinesD] at hnotice
  exact absurd hnotice (by decide)

end DryRun

end TypeExport
