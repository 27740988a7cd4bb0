import CacheGen.Proofs.CommandRun
import CacheGen.Proofs.FirstPlace
import CacheGen.Proofs.PluginRun

/-!
# The command and the plugin

The command takes its settings as options and its files from a set; the plugin takes the settings
from a parameter and the files from a request. With the options written as the parameter
(`GenerateOptions.request`), both go by the same config (`configOf_eq`), and what the command
produces is what the plugin answers (`produce_eq_runIn`), errors included.

The plugin leaves the writing to its caller, and the command does it. That is the one way in which
the two can end differently.

Main result: `generate_agrees`.
-/

namespace CacheGen

/-! ## Runs with the config file of a directory -/

namespace Plugin

variable {readers : Discovery.Readers} {t : Tree} {source parameter : String}

theorem ofName_of_settings {base : Location} {c : Config}
    (h : settings (Discovery.load readers t base source) parameter = .ok c) :
    Target.ofName c.target = .ok c.usedTarget := by
  obtain ⟨file, hfile, h⟩ := Outcome.bind_eq_ok.1 h
  obtain ⟨given, hgiven, h⟩ := Outcome.bind_eq_ok.1 h
  have hlayers : ∀ o ∈ [file, given], Parameter.KnownTarget o := by
    intro o ho
    rw [List.mem_cons, List.mem_singleton] at ho
    rcases ho with rfl | rfl
    · exact Discovery.known_of_searchBy hfile
    · exact Parameter.known_of_parse hgiven
  exact ofName_usedTarget (Config.known_of_resolve hlayers h)

/-- The stages of a run that can fail. -/
theorem outcome_runIn (readers : Discovery.Readers) (t : Tree) (base : Location) (source : String)
    (r : Request) :
    (runIn readers t base source r).outcome = (do
      let c ← settings (Discovery.load readers t base source) r.parameter
      let files ← SourceFile.ofProtos r.files r.requested c.goImportMap
      generateFiles base files c) := by
  rw [runIn, outcome_run]
  cases hsettings : settings (Discovery.load readers t base source) r.parameter with
  | error e => rfl
  | ok c =>
    show SourceFile.ofProtos r.files r.requested c.goImportMap >>= _ =
      SourceFile.ofProtos r.files r.requested c.goImportMap >>= _
    refine bind_congr fun files => ?_
    obtain ⟨warnings, hwarnings⟩ := Outcome.exists_mapM fun f (_ : f ∈ files) =>
      exists_streamingMethods (ofName_of_settings hsettings) f
    rw [hwarnings]
    rfl

end Plugin

namespace Command

open Parameter (IsValue)

/-! ## The same input in two forms -/

/-- The request for the same files with the same settings. -/
def GenerateOptions.request (o : GenerateOptions) (files : List Proto.File) : Plugin.Request where
  requested := o.requested files
  parameter := o.parameter
  files := files

/-- The directory that is searched for the config file. -/
def GenerateOptions.configDir (o : GenerateOptions) (base : Location) : String :=
  o.config.getD base.path

section

variable {readers : Discovery.Readers} {t : Tree} {base : Location} {set : String}
  {o : GenerateOptions} (hvalues : ∀ s ∈ o.settings, IsValue s.2)
  (hscript : t.read? ((base.resolve (o.configDir base)).resolve Discovery.scriptName) = none)

include hvalues hscript

theorem configOf_eq :
    configOf readers t base o =
      Plugin.settings (Discovery.load readers t base (o.configDir base)) o.parameter := by
  have hload : Discovery.loadRunning readers t base (o.configDir base) =
      Discovery.load readers t base (o.configDir base) := Discovery.loadRunning_eq hscript
  rw [GenerateOptions.configDir] at hload ⊢
  rw [configOf, hload, Plugin.settings, GenerateOptions.parse_parameter hvalues]

/-- The command produces what the plugin answers. -/
theorem produce_eq_runIn (files : List Proto.File) :
    (produce readers t base o files).map Prod.snd =
      (Plugin.runIn readers t base (o.configDir base) (o.request files)).outcome := by
  rw [produce_eq, configOf_eq hvalues hscript, Plugin.outcome_runIn]
  show Prod.snd <$> (Plugin.settings _ o.parameter >>= _) = _
  simp only [map_bind, map_pure, bind_pure]
  rfl

/-- **The command and the plugin agree.** On the same files with the same settings, and with the
config file searched for in the same directory, where there is no script, both succeed with the same
outputs or fail with the same error; but where the plugin succeeds and the command, unless it is dry,
cannot write all of the outputs, it fails for the first of them that it cannot write. -/
theorem generate_agrees {files : List Proto.File}
    (hread : readSet t (base.resolve set) = .ok files) :
    let run := generate readers t base set o
    let report := Plugin.runIn readers t base (o.configDir base) (o.request files)
    run.outcome.map Generated.files = report.outcome ∨
      o.dryRun = false ∧ ∃ outputs before f, report.outcome = .ok outputs ∧
        StopsAt (o.outDir base) t outputs before f run.tree ∧
        run.outcome = .error (unwritten (o.outDir base) f) := by
  intro run report
  have hreport : (produce readers t base o files).map Prod.snd = report.outcome :=
    produce_eq_runIn hvalues hscript files
  have hends : Ends readers t base set o run.outcome run.tree := generate_ends readers t base set o
  generalize run.outcome = outcome, run.tree = tree at hends ⊢
  cases hends with
  | unread hunread =>
    rw [hread] at hunread
    cases hunread
  | @unproduced protos e hread' hproduce =>
    cases hread.symm.trans hread'
    rw [← hreport, hproduce]
    exact .inl rfl
  | @unneeded protos c outputs hproduces hnone =>
    cases hread.symm.trans hproduces.1
    rw [← hreport, hproduces.2]
    exact .inl rfl
  | @stopped protos c outputs before f s hproduces hwet hstop =>
    cases hread.symm.trans hproduces.1
    rw [← hreport, hproduces.2]
    exact .inr ⟨hwet, outputs, before, f, rfl, hstop, rfl⟩
  | @written protos c outputs t' hproduces hwet hwrite =>
    cases hread.symm.trans hproduces.1
    rw [← hreport, hproduces.2]
    exact .inl rfl

end

/-- A dry run on a set whose second output has no place. -/
theorem generate_agrees_dry : ∃ files,
    readSet blockedTree (Location.root.resolve "caches") = .ok files ∧
      (∀ s ∈ toTypeScript.dry.settings, IsValue s.2) ∧
      (generate .builtin blockedTree .root "caches" toTypeScript.dry).outcome.map Generated.files =
        (Plugin.runIn .builtin blockedTree .root (toTypeScript.dry.configDir .root)
          (toTypeScript.dry.request files)).outcome := by
  have hset : Outcome.error? (readSet blockedTree (Location.root.resolve "caches")) = none := by
    decide +kernel
  have hvalues : ∀ s ∈ toTypeScript.dry.settings, IsValue s.2 := by
    decide +kernel
  obtain ⟨files, hread⟩ := Outcome.error?_eq_none.1 hset
  refine ⟨files, hread, hvalues, ?_⟩
  rcases generate_agrees hvalues (by decide +kernel) hread with hsame | ⟨hwet, -⟩
  · exact hsame
  · cases hwet

/-- Where the run is not dry the command fails and the plugin does not. -/
theorem blocked_output_parts_runs :
    ¬ ∀ (readers : Discovery.Readers) (t : Tree) (base : Location) (set : String)
      (o : GenerateOptions) (files : List Proto.File), readSet t (base.resolve set) = .ok files →
      t.read? ((base.resolve (o.configDir base)).resolve Discovery.scriptName) = none →
      (∀ s ∈ o.settings, IsValue s.2) → (generate readers t base set o).outcome.map Generated.files =
        (Plugin.runIn readers t base (o.configDir base) (o.request files)).outcome := by
  intro hall
  have hset : Outcome.error? (readSet blockedTree (Location.root.resolve "caches")) = none := by
    decide +kernel
  have hvalues : ∀ s ∈ toTypeScript.settings, IsValue s.2 := by
    decide +kernel
  have hcode : (Outcome.error? (generate .builtin blockedTree .root "caches" toTypeScript).outcome).map
      GenError.code = some "WRITE_FAILED" := by
    decide +kernel
  obtain ⟨files, hread⟩ := Outcome.error?_eq_none.1 hset
  obtain ⟨e, he, hcode⟩ := Option.map_eq_some_iff.1 hcode
  have hscript : blockedTree.read? ((Location.root.resolve
      (toTypeScript.configDir .root)).resolve Discovery.scriptName) = none := by
    decide +kernel
  have hsame := hall .builtin _ _ _ _ files hread hscript hvalues
  rw [← produce_eq_runIn hvalues hscript, Outcome.error?_eq_some.1 he] at hsame
  -- The plugin's error would be one that producing ends with.
  cases hproduce : produce .builtin blockedTree .root toTypeScript files with
  | error e' =>
    rw [hproduce] at hsame
    cases hsame
    exact isEarly_iff.1 (errorsIn_produce _ _ _ _ _ _ hproduce) hcode
  | ok p =>
    rw [hproduce] at hsame
    cases hsame

end Command

end CacheGen
