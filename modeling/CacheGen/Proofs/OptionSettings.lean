import CacheGen.Config.Readers
import CacheGen.Proofs.CommandRun
import CacheGen.Proofs.ConfigIssues
import CacheGen.Proofs.GenerationErrors

/-!
# Settings from options

The options of `generate` are the third way to give settings, beside a config file and a parameter,
and they are checked on their own: the target and the paths as elsewhere, the suffix not at all.

**Theorem (`begun_accepted_iff`).** A run fails before it generates, or it generates with a known
target and without a module that cannot be stripped. Its config is accepted as a config file exactly
when the option for the suffix is not the empty text. With an empty suffix every service takes part.
-/

namespace CacheGen

/-! ## Sound configs -/

namespace Schema

theorem distinctKeys_imports (m : OrderedMap String String) : m.toJson.DistinctKeys := by
  refine Json.distinctKeys_object.2 ⟨?_, List.forall_mem_map.2 fun e _ => .string e.2⟩
  rw [List.map_map]
  exact m.nodup

theorem distinctKeys_toJson (c : Config) : c.toJson.DistinctKeys := by
  refine Json.distinctKeys_object.2 ⟨by simp, ?_⟩
  simp only [List.forall_mem_cons, Json.distinctKeys_string, true_and]
  exact ⟨distinctKeys_imports c.goImportMap, by simp⟩

theorem isSound_of_conforms {c : Config} (h : Conforms c.toJson) : c.IsSound := by
  obtain ⟨members, hmembers, hall⟩ := h
  cases hmembers
  simp [Satisfies, IsWord, IsSomeText, IsText, IsImportMap] at hall
  obtain ⟨htarget, hsuffix, hruntime, hmodule, -, -, himports⟩ := hall
  refine ⟨Parameter.isSome_ofName?_iff.2 htarget, hsuffix, hruntime, hmodule, fun file hfile => ?_⟩
  exact himports file "" (OrderedMap.mem_entries_iff.2 hfile) rfl

/-- A config is accepted as a config file exactly when it is sound. -/
theorem accepts_toJson_iff {c : Config} {path : String} :
    (∃ kept, validate c.toJson path = .ok kept) ↔ c.IsSound := by
  constructor
  · rintro ⟨kept, hkept⟩
    obtain ⟨hnone, -⟩ := validate_eq_ok_iff.1 hkept
    exact isSound_of_conforms ((issues_eq_nil_iff (distinctKeys_toJson c)).1 hnone)
  · intro hc
    exact ⟨_, validate_toJson hc path⟩

end Schema

theorem Discovery.isSound_of_load {readers : Readers} {t : Tree} {base : Location}
    {source : String} {o : Overrides} (h : loadRunning readers t base source = .ok o) : o.IsSound :=
  searchBy_keeps Overrides.isSound_nothing (fun _ _ _ => Schema.isSound_of_validate) h

theorem Config.hasConflict_eq_false_iff {c : Config} :
    c.hasConflict = false ↔ c.goModule = "" ∨ c.goLayout = .importPath := by
  unfold hasConflict
  cases c.goLayout <;> simp

/-- The empty suffix is at the end of every name. -/
theorem Target.candidates_empty (t : Target) (services : List Service) :
    t.candidates "" services = services.map t.renameService := by
  rw [candidates, List.filter_eq_self]
  intro s _
  simp [Service.isCandidate, Text.endsWith_iff]

/-- The output for a file wraps its candidates. -/
theorem content_of_generateFile {base : Location} {f : SourceFile} {c : Config}
    {out : GeneratedFile} (h : generateFile base f c = .ok (some out)) :
    out.content = c.usedTarget.render base f
      ((c.usedTarget.candidates c.suffix f.services).map ManagerPlan.ofService) c := by
  have hout := generateFile_ok h
  split at hout
  · cases hout
  · cases hout
    rfl

/-! ## Options -/

theorem Parameter.known_of_readTarget {value name : String} (h : readTarget value = .ok name) :
    (Target.ofName? name).isSome = true := by
  unfold readTarget at h
  split at h
  · next hvalue =>
    cases h
    exact isSome_ofName?_iff.2 hvalue
  · cases h

namespace Command

theorem GenerateOptions.exists_overrides {o : GenerateOptions} {given : Overrides}
    (h : o.overrides = .ok given) : Parameter.KnownTarget given ∧ ∃ target layout, given =
      { target := target, suffix := o.suffix, goLayout := layout, goModule := o.module } := by
  rw [o.overrides_eq] at h
  obtain ⟨target, htarget, h⟩ := Outcome.bind_eq_ok.1 h
  obtain ⟨layout, -, h⟩ := Outcome.bind_eq_ok.1 h
  refine ⟨?_, target, layout, (Outcome.pure_eq_ok.1 h).symm⟩
  cases Outcome.pure_eq_ok.1 h
  rintro name ⟨rfl⟩
  cases hgiven : o.target with
  | none =>
    rw [hgiven] at htarget
    cases htarget
  | some value =>
    rw [hgiven] at htarget
    obtain ⟨name', hread, htarget⟩ := Outcome.bind_eq_ok.1 htarget
    cases htarget
    exact Parameter.known_of_readTarget hread

/-- Options check all they give but the suffix. -/
theorem GenerateOptions.isSound_iff {o : GenerateOptions} {given : Overrides}
    (h : o.overrides = .ok given) : given.IsSound ↔ o.suffix ≠ some "" := by
  obtain ⟨hknown, target, layout, rfl⟩ := o.exists_overrides h
  constructor
  · exact Overrides.IsSound.suffix
  · intro hsuffix
    exact ⟨hknown, hsuffix, by simp, by simp, by simp [Overrides.goPackage?]⟩

/-! ## Runs -/

section

variable (readers : Discovery.Readers) (t : Tree) (base : Location) (set : String)
  (o : GenerateOptions)

/-- What a run has when it begins to generate: the files of the set, and the config. -/
def begun : Except GenError (List Proto.File × Config) := do
  let protos ← readSet t (base.resolve set)
  let c ← configOf readers t base o
  return (protos, c)

/-- The outputs for `protos` under the config `c`. -/
def outputsFor (protos : List Proto.File) (c : Config) : Except GenError (List GeneratedFile) := do
  let files ← SourceFile.ofProtos protos (o.requested protos) c.goImportMap
  generateFiles base files c

variable {readers t base set o}

theorem outcome_of_not_begun {e : GenError} (h : begun readers t base set o = .error e) :
    (generate readers t base set o).outcome = .error e := by
  have hends := generate_ends readers t base set o
  generalize (generate readers t base set o).outcome = outcome,
    (generate readers t base set o).tree = tree at hends ⊢
  -- Once the set is read, it is the config that there is none of.
  have hproduce : ∀ protos, readSet t (base.resolve set) = .ok protos →
      produce readers t base o protos = .error e := by
    intro protos hread
    rw [begun, hread] at h
    rw [produce_eq]
    cases hconfig : configOf readers t base o with
    | error e' =>
      rw [hconfig] at h
      cases h
      rfl
    | ok c =>
      rw [hconfig] at h
      cases h
  cases hends with
  | unread hread =>
    rw [begun, hread] at h
    cases h
    rfl
  | unproduced hread hfail =>
    cases hfail.symm.trans (hproduce _ hread)
    rfl
  | unneeded hproduces hnone => cases hproduces.2.symm.trans (hproduce _ hproduces.1)
  | stopped hproduces hwet hstop => cases hproduces.2.symm.trans (hproduce _ hproduces.1)
  | written hproduces hwet hwrite => cases hproduces.2.symm.trans (hproduce _ hproduces.1)

theorem begun_ok {protos : List Proto.File} {c : Config}
    (h : begun readers t base set o = .ok (protos, c)) :
    configOf readers t base o = .ok c ∧ readSet t (base.resolve set) = .ok protos ∧
      produce readers t base o protos = (outputsFor base o protos c).map (c, ·) := by
  obtain ⟨protos', hread, h⟩ := Outcome.bind_eq_ok.1 h
  obtain ⟨c', hconfig, h⟩ := Outcome.bind_eq_ok.1 h
  cases Outcome.pure_eq_ok.1 h
  refine ⟨hconfig, hread, ?_⟩
  rw [produce_eq, hconfig, outputsFor]
  show SourceFile.ofProtos protos _ c.goImportMap >>= _ = (c, ·) <$> (_ >>= _)
  rw [map_bind]
  rfl

/-- A config is made of a sound project and of the options. -/
theorem exists_layers {c : Config} (h : configOf readers t base o = .ok c) :
    ∃ (below : Config) (given : Overrides), below.IsSound ∧ o.overrides = .ok given ∧
      c = below.override given ∧ c.hasConflict = false := by
  obtain ⟨project, hproject, h⟩ := Outcome.bind_eq_ok.1 h
  obtain ⟨given, hgiven, h⟩ := Outcome.bind_eq_ok.1 h
  obtain ⟨hlayers, hconflict⟩ := Config.resolve_eq_ok_iff.1 h
  have hbelow := Config.isSound_default.override (Discovery.isSound_of_load hproject)
  exact ⟨_, given, hbelow, hgiven, hlayers.symm, hconflict⟩

theorem known_of_configOf {c : Config} (h : configOf readers t base o = .ok c) :
    (Target.ofName? c.target).isSome = true := by
  obtain ⟨below, given, hbelow, hgiven, rfl, -⟩ := exists_layers h
  exact Config.known_override (o.exists_overrides hgiven).1 hbelow.target

theorem isSound_configOf_iff {c : Config} (h : configOf readers t base o = .ok c) :
    (c.IsSound ↔ o.suffix ≠ some "") ∧ (c.suffix = "" ↔ o.suffix = some "") := by
  obtain ⟨below, given, hbelow, hgiven, rfl, -⟩ := exists_layers h
  have hsound := o.isSound_iff hgiven
  have hempty : o.suffix = some "" → (below.override given).suffix = "" := by
    intro hsuffix
    obtain ⟨-, target, layout, rfl⟩ := o.exists_overrides hgiven
    simp [Config.override, hsuffix]
  have haccepted : o.suffix ≠ some "" → (below.override given).IsSound := fun hsuffix =>
    hbelow.override (hsound.2 hsuffix)
  refine ⟨⟨fun hc hsuffix => hc.suffix (hempty hsuffix), haccepted⟩, fun hsuffix => ?_, hempty⟩
  by_contra hgiven
  exact (haccepted hgiven).suffix hsuffix

/-- **What a run generates with.** It fails before it generates, or it does so with a known
target and no module that cannot be stripped. The config is accepted as a config file, and no
service is wrapped whose name does not end with a text, unless the option for the suffix is the
empty one. Then all services are wrapped. -/
theorem begun_accepted_iff (readers : Discovery.Readers) (t : Tree) (base : Location) (set : String)
    (o : GenerateOptions) :
    (∃ e, begun readers t base set o = .error e ∧
        (generate readers t base set o).outcome = .error e) ∨
    ∃ protos c, begun readers t base set o = .ok (protos, c) ∧
      readSet t (base.resolve set) = .ok protos ∧
      produce readers t base o protos = (outputsFor base o protos c).map (c, ·) ∧
      (c.target = "go" ∨ c.target = "ts") ∧ (c.goModule = "" ∨ c.goLayout = .importPath) ∧
      (∀ path, (∃ kept, Schema.validate c.toJson path = .ok kept) ↔ o.suffix ≠ some "") ∧
      ∀ f : SourceFile, ∃ wrapped, candidateServices f c = .ok wrapped ∧
        (∀ out, generateFile base f c = .ok (some out) →
          out.content = c.usedTarget.render base f (wrapped.map ManagerPlan.ofService) c) ∧
        (o.suffix ≠ some "" → c.suffix ≠ "" ∧
          ∀ s ∈ wrapped, Text.endsWith s.name c.suffix = true) ∧
        (o.suffix = some "" → wrapped = f.services.map c.usedTarget.renameService) := by
  cases hbegun : begun readers t base set o with
  | error e => exact .inl ⟨e, rfl, outcome_of_not_begun hbegun⟩
  | ok p =>
    obtain ⟨protos, c⟩ := p
    obtain ⟨hconfig, hread, hproduce⟩ := begun_ok hbegun
    have hknown := known_of_configOf hconfig
    obtain ⟨hsound, hempty⟩ := isSound_configOf_iff hconfig
    obtain ⟨-, -, -, -, -, hconflict⟩ := exists_layers hconfig
    have hwrapped : ∀ f, candidateServices f c =
        .ok (c.usedTarget.candidates c.suffix f.services) := by
      intro f
      rw [candidateServices, ofName_usedTarget hknown]
      rfl
    refine .inr ⟨protos, c, rfl, hread, hproduce, Parameter.isSome_ofName?_iff.1 hknown,
      Config.hasConflict_eq_false_iff.1 hconflict,
      fun path => Schema.accepts_toJson_iff.trans hsound, fun f => ⟨_, hwrapped f, ?_⟩⟩
    refine ⟨fun out => content_of_generateFile, fun hsuffix => ⟨?_, ?_⟩, fun hsuffix => ?_⟩
    · exact fun h => hsuffix (hempty.1 h)
    · intro s hs
      exact (List.mem_filter.1 hs).2
    · rw [hempty.2 hsuffix, Target.candidates_empty]

end

/-! ## An empty suffix -/

/-- A set with a service that has no marker. -/
def unmarkedTree : Tree := ⟨.ofEntries [(⟨["orders"]⟩, .file (Wire.putFileSet [
  { name := "order.proto", services := [⟨"Order", []⟩] }]))]⟩

/-- Options with an empty suffix. -/
def unmarked : GenerateOptions := { suffix := some "", quiet := true }

/-- A run takes an empty suffix, which a config file and a parameter are refused for. -/
theorem empty_suffix_generates :
    Outcome.error? (Schema.validate (.object [("suffix", .string "")]) "rc.json") =
        some (.invalidConfig "rc.json" "suffix: String must contain at least 1 character(s)") ∧
      Outcome.error? (Parameter.parse "suffix=") =
        some (.invalidParameter "suffix=" "missing value") ∧
      ((generate .builtin unmarkedTree .root "orders" unmarked).Succeeds fun g _ =>
        g.files.map GeneratedFile.name = ["order_cache_manager.ts"]) ∧
      ¬ ∀ (readers : Discovery.Readers) (t : Tree) (base : Location) (set : String)
        (o : GenerateOptions), (∃ e, begun readers t base set o = .error e) ∨ ∃ protos c,
          begun readers t base set o = .ok (protos, c) ∧
            ∃ kept, Schema.validate c.toJson "rc.json" = .ok kept := by
  refine ⟨by decide +kernel, by decide +kernel, by decide +kernel, fun hall => ?_⟩
  have hconfig : (begun .builtin unmarkedTree .root "orders" unmarked).map Prod.snd =
      .ok { suffix := "" } := by
    decide +kernel
  rcases hall .builtin unmarkedTree .root "orders" unmarked with
    ⟨e, he⟩ | ⟨protos, c, hc, kept, hkept⟩
  · rw [he] at hconfig
    cases hconfig
  · rw [hc] at hconfig
    cases hconfig
    have hrefused : (Outcome.error?
        (Schema.validate ({ suffix := "" } : Config).toJson "rc.json")).isSome = true := by
      decide +kernel
    rw [hkept] at hrefused
    cases hrefused

end Command

end CacheGen
