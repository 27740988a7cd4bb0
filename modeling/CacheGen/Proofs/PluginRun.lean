import CacheGen.Plugin.Run
import CacheGen.Proofs.GenerationErrors
import CacheGen.Proofs.Parameters
import CacheGen.Proofs.Resolution

/-!
# How a plugin run ends

A run without a config file goes through five stages: it reads the parameter, checks the settings,
resolves all files, looks at the candidates of the requested ones, and names their outputs. Each
stage fails on a condition of its own on the request, and the first that does gives the error.

The conditions and their order are stated without the stages (`Request.Ends`), on the request and
the settings that its parameter gives. None of them looks at what the outputs say.

Main result: `runAlone_ends_iff`.
-/

namespace CacheGen

/-! ## What a request asks for -/

namespace Plugin.Request

variable (r : Request)

/-- The parameter is read to the end, and `c` is the defaults with what it gives. -/
def Sets (c : Config) : Prop :=
  ∃ given, Parameter.parse r.parameter = .ok given ∧ c = ({} : Config).override given

/-- `f` is requested and has a candidate. -/
def wants (c : Config) (f : Proto.File) : Bool :=
  r.requested.contains f.name &&
    f.services.any fun s => Text.endsWith (c.usedTarget.spell s.name) c.suffix

/-- The model of `f` without its services, which names the output. -/
def header (c : Config) (f : Proto.File) : SourceFile := f.header r.requested c.goImportMap

/-- The name of the output for `f` before the module is stripped, if it is to be stripped. -/
def plainName (c : Config) (f : Proto.File) : String := Go.plainFileName (r.header c f) c.goLayout

/-- There is an output for `f` that lies outside of the Go module. -/
def isOutside (c : Config) (f : Proto.File) : Bool :=
  c.usedTarget = .go && c.goLayout = .importPath && c.goModule ≠ "" && r.wants c f &&
    !Text.startsWith (r.plainName c f) (c.goModule ++ "/")

/-- The error of a run whose output for `f` lies outside. -/
def outsideError (c : Config) (f : Proto.File) : GenError :=
  .generationFailed f.name (GenError.moduleMismatch (r.plainName c f) c.goModule).message

/-- Resolving comes to a file that inherits its Go package. -/
def GetsStuck (c : Config) : Prop :=
  Proto.Stuck (Proto.messageNames r.files) c.goImportMap r.files

/-- How a run on `r` ends: with an error, or with outputs of these names. -/
inductive Ends : Except GenError (List String) → Prop
  | refused {e : GenError}
      (hpair : (Parameter.pairs r.parameter).findSome? Parameter.refusal? = some e) :
      Ends (.error e)
  | conflict {c : Config} (hsets : r.Sets c) (hmodule : c.goModule ≠ "")
      (hlayout : c.goLayout = .sourceRelative) :
      Ends (.error (.invalidParameter ("module=" ++ c.goModule)
        "cannot be combined with paths=source_relative"))
  | stuck {c : Config} (hsets : r.Sets c)
      (hagree : ¬ (c.goModule ≠ "" ∧ c.goLayout = .sourceRelative)) (hstuck : r.GetsStuck c) :
      Ends (.error packageFault)
  | dangling {c : Config} {ref : Reference} (hsets : r.Sets c)
      (hagree : ¬ (c.goModule ≠ "" ∧ c.goLayout = .sourceRelative)) (hfree : ¬ r.GetsStuck c)
      (href : Proto.dangling? r.files = some ref) :
      Ends (.error (.unknownType ref.typeName ref.user))
  | outside {c : Config} {f : Proto.File} (hsets : r.Sets c)
      (hagree : ¬ (c.goModule ≠ "" ∧ c.goLayout = .sourceRelative)) (hfree : ¬ r.GetsStuck c)
      (href : Proto.dangling? r.files = none) (hfile : r.files.find? (r.isOutside c) = some f) :
      Ends (.error (r.outsideError c f))
  | success {c : Config} {names : List String} (hsets : r.Sets c)
      (hagree : ¬ (c.goModule ≠ "" ∧ c.goLayout = .sourceRelative)) (hfree : ¬ r.GetsStuck c)
      (href : Proto.dangling? r.files = none) (hfile : r.files.find? (r.isOutside c) = none)
      (hnames : List.Forall₂ (fun f name => c.usedTarget.fileName (r.header c f) c = .ok name)
        (r.files.filter (r.wants c)) names) :
      Ends (.ok names)

end Plugin.Request

/-! ## Settings -/

theorem Config.resolve_alone (given : Overrides) :
    Config.resolve [{}, given] =
      let c := ({} : Config).override given
      if c.hasConflict then
        .error (.invalidParameter ("module=" ++ c.goModule)
          "cannot be combined with paths=source_relative")
      else .ok c := rfl

theorem Config.hasConflict_iff {c : Config} :
    c.hasConflict = true ↔ c.goModule ≠ "" ∧ c.goLayout = .sourceRelative := by
  simp [hasConflict]

namespace Plugin

theorem Request.Sets.ofName {r : Request} {c : Config} (h : r.Sets c) :
    Target.ofName c.target = .ok c.usedTarget := by
  obtain ⟨given, hparse, rfl⟩ := h
  refine ofName_usedTarget ?_
  have hknown := Parameter.known_of_parse hparse
  show (Target.ofName? (given.target.getD "ts")).isSome = true
  cases htarget : given.target with
  | none => rfl
  | some name => exact hknown name htarget

/-! ## Files and their models -/

open Request

variable {r : Request} (base : Location) {c : Config}

theorem contributes_of_models {f : Proto.File} {source : SourceFile}
    (h : f.Models r.requested c.goImportMap source) : c.contributes source = r.wants c f := by
  have hrequested : source.isRequested = r.requested.contains f.name :=
    congrArg SourceFile.isRequested h.1
  rw [Config.contributes, Target.not_isEmpty_candidates, h.2, hrequested, wants, List.any_map]
  rfl

theorem fileName_of_models (t : Target) {f : Proto.File} {source : SourceFile}
    (h : f.Models r.requested c.goImportMap source) :
    t.fileName source c = t.fileName (r.header c f) c := by
  rw [h.1, Target.fileName_services]
  rfl

theorem error?_of_models (hsets : r.Sets c) {f : Proto.File} {source : SourceFile}
    (h : f.Models r.requested c.goImportMap source) :
    Outcome.error? (generateRequested base c source) =
      if r.isOutside c f then some (r.outsideError c f) else none := by
  have hname : source.name = f.name := congrArg SourceFile.name h.1
  rw [error?_generateRequested base hsets.ofName, contributes_of_models h, fileName_of_models _ h,
    Target.error?_fileName, hname, isOutside, outsideError, plainName]
  cases r.wants c f with
  | false => simp
  | true => simp [and_assoc]

theorem error?_generateFiles (hsets : r.Sets c) {sources : List SourceFile}
    (h : List.Forall₂ (Proto.File.Models r.requested c.goImportMap) r.files sources) :
    Outcome.error? (generateFiles base sources c) =
      (r.files.find? (r.isOutside c)).map (r.outsideError c) := by
  have hsame := findSome?_eq_of_forall₂ (h.imp fun f source hf => (error?_of_models base hsets hf).symm)
  rw [generateFiles, Outcome.error?_bind_pure, Outcome.error?_mapM, ← hsame]
  exact findSome?_eq_map_find? (fun f => rfl) r.files

theorem exists_fileName {f : Proto.File} (hwants : r.wants c f = true)
    (hinside : r.isOutside c f = false) :
    ∃ name, c.usedTarget.fileName (r.header c f) c = .ok name := by
  rw [← Outcome.error?_eq_none, Target.error?_fileName, if_neg]
  rintro ⟨ht, hlayout, hmodule, hstart⟩
  rw [isOutside, hwants, plainName, hstart] at hinside
  simp [ht, hlayout, hmodule] at hinside

/-- The outputs of a run that succeeds are named after the files that are wanted. -/
theorem names_of_generateFiles {sources : List SourceFile}
    (h : List.Forall₂ (Proto.File.Models r.requested c.goImportMap) r.files sources)
    {outputs : List GeneratedFile} (hok : generateFiles base sources c = .ok outputs)
    (hfile : r.files.find? (r.isOutside c) = none) :
    List.Forall₂ (fun f name => c.usedTarget.fileName (r.header c f) c = .ok name)
      (r.files.filter (r.wants c)) (outputs.map GeneratedFile.name) := by
  have hinside : ∀ f ∈ r.files, r.isOutside c f = false := fun f hf => by
    simpa using List.find?_eq_none.1 hfile f hf
  -- Leaving files out loses what is known of them, so that goes along with the models.
  have hall := List.forall₂_and_left _ _ |>.2 ⟨hinside, h⟩
  have hwanted := List.rel_filter
    (fun f source hf => iff_of_eq (congrArg (· = true) (contributes_of_models hf.2).symm)) hall
  have hboth := List.forall₂_and_left _ _ |>.2 ⟨fun f hf => (List.mem_filter.1 hf).2, hwanted⟩
  rw [generateFiles_ok hok, List.map_map, List.forall₂_map_right_iff]
  refine hboth.imp fun f source ⟨hwants, hinside, hmodels⟩ => ?_
  obtain ⟨name, hname⟩ := exists_fileName hwants hinside
  have hsource := (fileName_of_models c.usedTarget hmodels).trans hname
  rw [hname, Target.fileName_eq hsource]
  rfl

/-! ## The run -/

/-- The stages of a run. -/
theorem outcome_run (project : Except GenError Overrides) (r : Request) :
    (run base project r).outcome = (do
      let c ← settings project r.parameter
      let files ← SourceFile.ofProtos r.files r.requested c.goImportMap
      let _ ← files.mapM (streamingMethods c)
      generateFiles base files c) := by
  unfold run
  cases settings project r.parameter with
  | error e => rfl
  | ok c =>
    show Report.outcome _ = SourceFile.ofProtos r.files r.requested c.goImportMap >>= _
    dsimp only
    cases SourceFile.ofProtos r.files r.requested c.goImportMap with
    | error e => rfl
    | ok files =>
      show _ = files.mapM (streamingMethods c) >>= _
      dsimp only
      cases files.mapM (streamingMethods c) with
      | error e => rfl
      | ok warnings =>
        show _ = generateFiles base files c
        dsimp only
        cases generateFiles base files c <;> rfl

theorem exists_streamingMethods (ht : Target.ofName c.target = .ok c.usedTarget) (f : SourceFile) :
    ∃ warnings, streamingMethods c f = .ok warnings := by
  unfold streamingMethods candidateServices
  rw [ht]
  cases f.isRequested with
  | false => exact ⟨_, rfl⟩
  | true => exact ⟨_, rfl⟩

/-- With settings, a run resolves its files and generates. -/
theorem outcome_of_sets (hsets : r.Sets c) :
    (runAlone base r).outcome =
      if c.goModule ≠ "" ∧ c.goLayout = .sourceRelative then
        .error (.invalidParameter ("module=" ++ c.goModule)
          "cannot be combined with paths=source_relative")
      else (do
        let files ← SourceFile.ofProtos r.files r.requested c.goImportMap
        generateFiles base files c) := by
  have ht := hsets.ofName
  obtain ⟨given, hparse, rfl⟩ := hsets
  have hsettings : settings (.ok {}) r.parameter = Config.resolve [{}, given] := by
    show Parameter.parse r.parameter >>= _ = _
    rw [hparse]
    rfl
  rw [runAlone, outcome_run, hsettings, Config.resolve_alone]
  by_cases hconflict : (({} : Config).override given).hasConflict = true
  · rw [if_pos (Config.hasConflict_iff.1 hconflict)]
    dsimp only
    rw [if_pos hconflict]
    rfl
  · rw [if_neg fun h => hconflict (Config.hasConflict_iff.2 h)]
    dsimp only
    rw [if_neg hconflict]
    show SourceFile.ofProtos _ _ _ >>= _ = SourceFile.ofProtos _ _ _ >>= _
    cases SourceFile.ofProtos r.files r.requested (({} : Config).override given).goImportMap with
    | error e => rfl
    | ok files =>
      -- The search for streaming methods asks for the target only, and that there is.
      obtain ⟨warnings, hwarnings⟩ := Outcome.exists_mapM fun f (_ : f ∈ files) =>
        exists_streamingMethods ht f
      show files.mapM (streamingMethods _) >>= _ = _
      rw [hwarnings]
      rfl

/-- A run that does not get stuck, and without a dangling reference, generates from the models of its
files. -/
theorem exists_models (hsets : r.Sets c)
    (hagree : ¬ (c.goModule ≠ "" ∧ c.goLayout = .sourceRelative)) (hfree : ¬ r.GetsStuck c)
    (href : Proto.dangling? r.files = none) :
    ∃ sources, List.Forall₂ (Proto.File.Models r.requested c.goImportMap) r.files sources ∧
      (runAlone base r).outcome = generateFiles base sources c := by
  have hresolve := (error?_ofProtos hfree r.requested).trans (congrArg _ href)
  obtain ⟨sources, hsources⟩ := Outcome.error?_eq_none.1 hresolve
  refine ⟨sources, ofProtos_forall₂ hsources, ?_⟩
  rw [outcome_of_sets base hsets, if_neg hagree, hsources]
  rfl

/-- One of the conditions holds. -/
theorem exists_ends (r : Request) : ∃ out, r.Ends out := by
  cases hpair : (Parameter.pairs r.parameter).findSome? Parameter.refusal? with
  | some e => exact ⟨_, .refused hpair⟩
  | none =>
    obtain ⟨given, hparse⟩ := Parameter.exists_parse_iff.2 hpair
    have hsets : r.Sets (({} : Config).override given) := ⟨given, hparse, rfl⟩
    generalize ({} : Config).override given = c at hsets
    by_cases hconflict : c.goModule ≠ "" ∧ c.goLayout = .sourceRelative
    · exact ⟨_, .conflict hsets hconflict.1 hconflict.2⟩
    by_cases hstuck : r.GetsStuck c
    · exact ⟨_, .stuck hsets hconflict hstuck⟩
    · cases href : Proto.dangling? r.files with
      | some ref => exact ⟨_, .dangling hsets hconflict hstuck href⟩
      | none =>
        cases hfile : r.files.find? (r.isOutside c) with
        | some f => exact ⟨_, .outside hsets hconflict hstuck href hfile⟩
        | none =>
          have hnamed : ∀ f ∈ r.files.filter (r.wants c),
              ∃ name, c.usedTarget.fileName (r.header c f) c = .ok name := fun f hf => by
            obtain ⟨hmem, hwants⟩ := List.mem_filter.1 hf
            exact exists_fileName hwants (by simpa using List.find?_eq_none.1 hfile f hmem)
          obtain ⟨names, hnames⟩ := Outcome.exists_mapM hnamed
          exact ⟨_, .success hsets hconflict hstuck href hfile (Outcome.mapM_eq_ok.1 hnames)⟩

/-- A run ends as its request says. -/
theorem outcome_of_ends {out : Except GenError (List String)} (h : r.Ends out) :
    (runAlone base r).outcome.map (·.map GeneratedFile.name) = out := by
  cases h with
  | refused hpair =>
    have hparse := Parameter.parse_eq_error_iff.2 hpair
    rw [runAlone, outcome_run, settings]
    show Except.map _ ((Parameter.parse r.parameter >>= _) >>= _) = _
    rw [hparse]
    rfl
  | conflict hsets hmodule hlayout =>
    rw [outcome_of_sets base hsets, if_pos ⟨hmodule, hlayout⟩]
    rfl
  | stuck hsets hagree hstuck =>
    rw [outcome_of_sets base hsets, if_neg hagree, ofProtos_of_stuck hstuck]
    rfl
  | dangling hsets hagree hfree href =>
    have hresolve := (error?_ofProtos hfree r.requested).trans (congrArg _ href)
    rw [outcome_of_sets base hsets, if_neg hagree, Outcome.error?_eq_some.1 hresolve]
    rfl
  | outside hsets hagree hfree href hfile =>
    obtain ⟨sources, hmodels, hrun⟩ := exists_models base hsets hagree hfree href
    have hgenerate := (error?_generateFiles base hsets hmodels).trans (congrArg _ hfile)
    rw [hrun, Outcome.error?_eq_some.1 hgenerate]
    rfl
  | success hsets hagree hfree href hfile hnames =>
    obtain ⟨sources, hmodels, hrun⟩ := exists_models base hsets hagree hfree href
    have hgenerate := (error?_generateFiles base hsets hmodels).trans (congrArg _ hfile)
    obtain ⟨outputs, houtputs⟩ := Outcome.error?_eq_none.1 hgenerate
    have hsame := Outcome.mapM_eq_ok.2 (names_of_generateFiles base hmodels houtputs hfile)
    rw [Outcome.mapM_eq_ok.2 hnames] at hsame
    rw [hrun, houtputs, hsame]
    rfl

theorem Request.Sets.unique {c' : Config} (h : r.Sets c) (h' : r.Sets c') : c = c' := by
  obtain ⟨given, hparse, rfl⟩ := h
  obtain ⟨given', hparse', rfl⟩ := h'
  rw [hparse] at hparse'
  cases hparse'
  rfl

/-- A TypeScript run leaves nothing outside of a Go module. -/
theorem Request.Sets.not_outside (hsets : r.Sets c) (htarget : c.target = "ts")
    (file cause : String) : ¬ r.Ends (.error (.generationFailed file cause)) := by
  intro h
  cases h with
  | refused hpair =>
    obtain ⟨given, hparse, -⟩ := hsets
    rw [Parameter.exists_parse_iff.1 ⟨given, hparse⟩] at hpair
    cases hpair
  | outside hsets' _ _ _ hfile =>
    cases hsets.unique hsets'
    have houtside := List.find?_some hfile
    rw [isOutside, Config.usedTarget, htarget] at houtside
    cases houtside

/-- **How a plugin run ends.** A run ends in a way exactly when its request says so: with what the
first bad pair of the parameter is refused for; else with a module and a layout that cannot be
combined; else with a file that inherits its Go package, where resolving comes to one; else with the
first reference, in any of the files, to a message that none of them declares; else with the first
output that is wanted and lies outside of the Go module; and else with one output for each file that
is wanted, in their order and each with the name that the target gives it. Resolving comes to no file
that inherits where none has the name of an inherited member. With TypeScript as the target,
generating does not fail. -/
theorem runAlone_ends_iff (r : Request) :
    (∀ out, (runAlone base r).outcome.map (·.map GeneratedFile.name) = out ↔ r.Ends out) ∧
      ((∀ f ∈ r.files, f.name ∉ inheritedMembers) → ∀ c, ¬ r.GetsStuck c) ∧
      ∀ c, r.Sets c → c.target = "ts" →
        ∀ file cause, (runAlone base r).outcome ≠ .error (.generationFailed file cause) := by
  have hends : ∀ out, (runAlone base r).outcome.map (·.map GeneratedFile.name) = out ↔
      r.Ends out := by
    refine fun out => ⟨?_, outcome_of_ends base⟩
    rintro rfl
    obtain ⟨out, hout⟩ := exists_ends r
    rwa [outcome_of_ends base hout]
  refine ⟨hends, fun hnames c => Proto.not_stuck_of_names hnames,
    fun c hsets htarget file cause houtcome => hsets.not_outside htarget file cause ?_⟩
  rw [← hends, houtcome]
  rfl

/-- A request for one of two files with a candidate. -/
def orderRequest (parameter : String) : Request where
  requested := ["shop/order.proto"]
  parameter := parameter
  files := ["shop/item.proto", "shop/order.proto"].map fun name =>
    { name := name, goPackage := "example.com/shop", services := [⟨"order_cache", []⟩] }

theorem runAlone_ends_iff_order :
    (orderRequest "target=go,module=example.com").Ends (.ok ["shop/order_cache_manager.pb.go"]) ∧
      (orderRequest "target=go,module=example.org").Ends
        (.error (.generationFailed "shop/order.proto"
          (GenError.moduleMismatch "example.com/shop/order_cache_manager.pb.go"
            "example.org").message)) ∧
      (orderRequest "").Ends (.ok []) :=
  ⟨((runAlone_ends_iff .root _).1 _).1 (by decide +kernel),
    ((runAlone_ends_iff .root _).1 _).1 (by decide +kernel),
    ((runAlone_ends_iff .root _).1 _).1 (by decide +kernel)⟩

/-- A run does not go well although nothing else is wrong with its request. -/
theorem constructor_breaks_run :
    ¬ ∀ (base : Location) (r : Request) (c : Config), r.Sets c →
      ¬ (c.goModule ≠ "" ∧ c.goLayout = .sourceRelative) → Proto.dangling? r.files = none →
      r.files.find? (r.isOutside c) = none →
      ∃ outputs, (runAlone base r).outcome = .ok outputs := by
  intro hall
  let r : Request :=
    ⟨["constructor"], "", [{ name := "constructor", services := [⟨"ACache", []⟩] }]⟩
  have hsets : r.Sets {} := ⟨{}, rfl, rfl⟩
  obtain ⟨outputs, hok⟩ := hall .root r {} hsets (by decide) (by decide +kernel) (by decide +kernel)
  have hends : r.Ends (.error packageFault) := .stuck hsets (by decide) (.here (by decide +kernel))
  have hfault := outcome_of_ends .root hends
  rw [hok] at hfault
  cases hfault

end Plugin

end CacheGen
