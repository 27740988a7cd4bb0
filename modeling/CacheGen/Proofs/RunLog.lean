import CacheGen.Plugin.Logging
import CacheGen.Proofs.PluginRun

/-!
# What a plugin run logs

A run with a logger goes step by step. Of each step it is known how it ends and what it would log at
the lowest level (`Tells`); the level only takes events away. Of steps behind one another the first
that fails ends the run, and what was told before it is the log.

**Streaming methods.** They are looked for by a pass of its own over the models of the files. Each
model has the methods of its file, with their names and whether they stream, so the warnings can be
read off the request (`Request.streaming`).

Main result: `log_of_run`.
-/

namespace CacheGen

/-! ## Streaming methods of a descriptor -/

namespace Proto

def Method.isStreaming (m : Method) : Bool := m.clientStreaming || m.serverStreaming

/-- Under the names of `t`, `service` has the methods of `s`. -/
structure Service.SpelledAs (t : Target) (s : Service) (service : CacheGen.Service) : Prop where
  name : service.name = t.spell s.name
  methods : List.Forall₂
    (fun m method => method.name = t.spell m.name ∧ method.isStreaming = m.isStreaming) s.methods
    service.methods

theorem Method.spelled_of_resolve {types : TypeIndex} {parent : String} {comment : Option String}
    {m : Method} {method : CacheGen.Method} (h : m.resolve types parent comment = .ok method) :
    method.name = m.name ∧ method.isStreaming = m.isStreaming := by
  obtain ⟨input, -, h⟩ := Outcome.bind_eq_ok.1 h
  obtain ⟨output, -, h⟩ := Outcome.bind_eq_ok.1 h
  rw [← Outcome.pure_eq_ok.1 h]
  exact ⟨rfl, rfl⟩

theorem File.spelledAs_of_resolveService (t : Target) {types : TypeIndex} {f : File} {s : Service}
    {index : ℕ} {service : CacheGen.Service} (h : f.resolveService types s index = .ok service) :
    s.SpelledAs t (t.renameService service) := by
  obtain ⟨methods, hmethods, h⟩ := Outcome.bind_eq_ok.1 h
  have hall : List.Forall₂
      (fun m method => method.name = m.name ∧ method.isStreaming = m.isStreaming) s.methods
      methods :=
    forall₂_of_zipIdx ((Outcome.mapM_eq_ok.1 hmethods).imp fun _ _ => Method.spelled_of_resolve)
  rw [← Outcome.pure_eq_ok.1 h]
  refine ⟨t.name_renameService _, ?_⟩
  cases t with
  | typeScript => exact hall
  | go =>
    exact List.forall₂_map_right_iff.2 (hall.imp fun m method ⟨hname, hstreaming⟩ =>
      ⟨congrArg Naming.goName hname, hstreaming⟩)

theorem File.spelledAs_of_resolve (t : Target) {types : TypeIndex} {requested : List String}
    {imports : OrderedMap String String} {f : File} {source : SourceFile}
    (h : f.resolve types requested imports = .ok source) :
    List.Forall₂ (Service.SpelledAs t) f.services (source.services.map t.renameService) := by
  obtain ⟨-, hservices⟩ := File.resolve_ok h
  rw [List.forall₂_map_right_iff]
  exact forall₂_of_zipIdx ((Outcome.mapM_eq_ok.1 hservices).imp fun _ _ =>
    File.spelledAs_of_resolveService t)

end Proto

namespace Plugin

/-! ## Steps that log -/

/-- With a logger that is set to `level`, `x` ends with `out` and has told `es`. -/
def Tells {α : Type} (level : Level) (x : Logging α) (out : Except GenError α) (es : Log) : Prop :=
  ∀ log, x.run.run log = (out, log ++ es.from level)

section

variable {α β : Type} {level : Level} {x : Logging α} {f : α → Logging β} {es es' : Log}

theorem from_append (level : Level) (es es' : Log) :
    Log.from level (es ++ es') = Log.from level es ++ Log.from level es' := List.filter_append ..

theorem Tells.congr {out : Except GenError α} (h : Tells level x out es) (hes : es = es') :
    Tells level x out es' :=
  hes ▸ h

theorem tells_ofOutcome (level : Level) (out : Except GenError α) :
    Tells level (.ofOutcome out) out [] :=
  fun log => congrArg (Prod.mk out) (List.append_nil log).symm

theorem tells_throw (level : Level) (e : GenError) :
    Tells level (throw e : Logging α) (.error e) [] :=
  tells_ofOutcome level (.error e)

theorem tells_pure (level : Level) (a : α) : Tells level (pure a) (.ok a) [] :=
  tells_ofOutcome level (.ok a)

theorem tells_note (level : Level) (e : Event) : Tells level (note level e) (.ok ()) [e] := by
  intro log
  show (Except.ok (), if level.rank ≤ e.level.rank then log ++ [e] else log) = _
  by_cases hlevel : level.rank ≤ e.level.rank <;> simp [Log.from, hlevel]

theorem run_bind_ok {a : α} {log log' : Log} (h : x.run.run log = (.ok a, log')) :
    (x >>= f).run.run log = (f a).run.run log' := by
  rw [ExceptT.run_bind, StateT.run_bind, h]
  rfl

theorem run_bind_error {e : GenError} {log log' : Log} (h : x.run.run log = (.error e, log')) :
    (x >>= f).run.run log = (.error e, log') := by
  rw [ExceptT.run_bind, StateT.run_bind, h]
  rfl

theorem run_tryCatch_ok {handle : GenError → Logging α} {a : α} {log log' : Log}
    (h : x.run.run log = (.ok a, log')) : (tryCatch x handle).run.run log = (.ok a, log') := by
  rw [ExceptT.run_tryCatch, StateT.run_bind, h]
  rfl

theorem run_tryCatch_error {handle : GenError → Logging α} {e : GenError} {log log' : Log}
    (h : x.run.run log = (.error e, log')) :
    (tryCatch x handle).run.run log = (handle e).run.run log' := by
  rw [ExceptT.run_tryCatch, StateT.run_bind, h]
  rfl

theorem Tells.bind {a : α} {out : Except GenError β} (hx : Tells level x (.ok a) es)
    (hf : Tells level (f a) out es') : Tells level (x >>= f) out (es ++ es') := by
  intro log
  rw [run_bind_ok (hx log), hf, from_append, List.append_assoc]

theorem Tells.bind_error {e : GenError} (hx : Tells level x (.error e) es) :
    Tells level (x >>= f) (.error e) es :=
  fun log => run_bind_error (hx log)

/-- A step that tells nothing. -/
theorem tells_step {y : Except GenError α} {a : α} {out : Except GenError β} (hy : y = .ok a)
    (hf : Tells level (f a) out es) : Tells level (.ofOutcome y >>= f) out es := by
  rw [hy]
  exact (tells_ofOutcome level (.ok a)).bind hf

theorem tells_step_error {y : Except GenError α} {e : GenError} (hy : y = .error e) :
    Tells level (.ofOutcome y >>= f) (.error e) [] := by
  rw [hy]
  exact (tells_ofOutcome level (.error e)).bind_error

/-- A pass whose steps do not fail tells what they tell. -/
theorem tells_forM {l : List α} {f : α → Logging Unit} {g : α → Log}
    (h : ∀ a ∈ l, Tells level (f a) (.ok ()) (g a)) :
    Tells level (l.forM f) (.ok ()) (l.flatMap g) := by
  induction l with
  | nil => exact tells_pure level ()
  | cons a l ih =>
    obtain ⟨ha, hl⟩ := List.forall_mem_cons.1 h
    exact ha.bind (ih hl)

end

/-! ## The pass for streaming methods -/

section

variable {level : Level} {c : Config}

/-- The warnings for the streaming methods of `services`. -/
def warnings (file : String) (services : List Service) : Log :=
  services.flatMap fun s =>
    (s.methods.filter Method.isStreaming).map fun m => .streamingMethod file s.name m.name

theorem streamingMethods_eq (c : Config) (f : SourceFile) : streamingMethods c f =
    if f.isRequested then (Target.ofName c.target).map fun t =>
      warnings f.name (t.candidates c.suffix f.services)
    else .ok [] := by
  unfold streamingMethods candidateServices
  cases Target.ofName c.target <;> rfl

theorem tells_noteMethod (level : Level) (file service : String) (m : Method) :
    Tells level
      (do if m.isStreaming then note level (.streamingMethod file service m.name))
      (.ok ())
      (([m].filter Method.isStreaming).map fun m => .streamingMethod file service m.name) := by
  cases hstreaming : m.isStreaming with
  | true => simpa [hstreaming] using tells_note level (.streamingMethod file service m.name)
  | false => simpa [hstreaming] using tells_pure level ()

theorem tells_services (level : Level) (file : String) (services : List Service) :
    Tells level
      (services.forM fun s => s.methods.forM fun m => do
        if m.isStreaming then note level (.streamingMethod file s.name m.name))
      (.ok ()) (warnings file services) := by
  refine tells_forM fun s _ => ?_
  have hmethods := tells_forM fun m (_ : m ∈ s.methods) => tells_noteMethod level file s.name m
  rwa [← List.map_flatMap, ← List.filter_flatMap, List.flatMap_singleton'] at hmethods

theorem tells_file {f : SourceFile} {es : Log} (h : streamingMethods c f = .ok es) :
    Tells level (noteStreamingMethods level c f) (.ok ()) es := by
  unfold streamingMethods at h
  unfold noteStreamingMethods
  split at h
  · next hrequested =>
    obtain ⟨services, hservices, hes⟩ := Outcome.bind_eq_ok.1 h
    rw [← Outcome.pure_eq_ok.1 hes, if_pos hrequested, hservices]
    exact (tells_ofOutcome level (.ok services)).bind (tells_services level f.name services)
  · next hrequested =>
    rw [← Outcome.pure_eq_ok.1 h, if_neg hrequested]
    exact tells_pure level ()

/-- Looking at one file fails before anything is told. -/
theorem tells_file_error {f : SourceFile} {e : GenError} (h : streamingMethods c f = .error e) :
    Tells level (noteStreamingMethods level c f) (.error e) [] := by
  unfold streamingMethods at h
  unfold noteStreamingMethods
  split at h
  · next hrequested =>
    rcases Outcome.bind_eq_error.1 h with hcandidates | ⟨services, -, hpure⟩
    · rw [if_pos hrequested, hcandidates]
      exact (tells_ofOutcome level (.error e)).bind_error
    · cases hpure
  · cases h

/-- The pass fails for the target only, so what it got through was not requested. -/
theorem nil_of_streamingMethods {f f' : SourceFile} {e : GenError} {es : Log}
    (h : streamingMethods c f = .error e) (h' : streamingMethods c f' = .ok es) : es = [] := by
  rw [streamingMethods_eq] at h h'
  cases htarget : Target.ofName c.target with
  | ok t =>
    rw [htarget] at h
    split at h <;> cases h
  | error e' =>
    rw [htarget] at h'
    split at h'
    · cases h'
    · exact (Except.ok.inj h').symm

theorem tells_files {es : List Log} {files : List SourceFile}
    (h : files.mapM (streamingMethods c) = .ok es) :
    Tells level (files.forM (noteStreamingMethods level c)) (.ok ()) es.flatten := by
  induction Outcome.mapM_eq_ok.1 h with
  | nil => exact tells_pure level ()
  | cons hf hfiles ih => exact (tells_file hf).bind (ih (Outcome.mapM_eq_ok.2 hfiles))

theorem tells_files_error {e : GenError} {files : List SourceFile}
    (h : files.mapM (streamingMethods c) = .error e) :
    Tells level (files.forM (noteStreamingMethods level c)) (.error e) [] := by
  induction files with
  | nil => cases h
  | cons f files ih =>
    rw [List.mapM_cons] at h
    rcases Outcome.bind_eq_error.1 h with hf | ⟨es, hf, h⟩
    · exact (tells_file_error hf).bind_error
    · rcases Outcome.bind_eq_error.1 h with hrest | ⟨_, -, hpure⟩
      · obtain ⟨f', -, hf'⟩ := List.exists_of_findSome?_eq_some
          ((Outcome.error?_mapM _ _).symm.trans (Outcome.error?_eq_some.2 hrest))
        rw [nil_of_streamingMethods (Outcome.error?_eq_some.1 hf') hf] at hf
        exact (tells_file hf).bind (ih hrest)
      · cases hpure

end

/-! ## The run -/

section

variable (base : Location) (project : Except GenError Overrides) (r : Request)

/-- The report of steps that end with `out` and have told `es`: an error is told behind them. -/
def Report.ofSteps (out : Except GenError (List GeneratedFile)) (es : Log) : Report :=
  match out with
  | .ok outputs => ⟨.ok outputs, es⟩
  | .error e => .failure es e

theorem tells_steps : ∃ out es, run base project r = .ofSteps out es ∧
    ∀ level, Tells level (steps level base project r) out es := by
  unfold run
  cases hsettings : settings project r.parameter with
  | error e => exact ⟨.error e, [], rfl, fun level => tells_step_error hsettings⟩
  | ok c =>
    have hresolved (level : Level) := tells_note level (.configResolved r.parameter c)
    dsimp only
    cases hfiles : SourceFile.ofProtos r.files r.requested c.goImportMap with
    | error e =>
      exact ⟨.error e, _, rfl, fun level =>
        tells_step hsettings ((hresolved level).bind (tells_step_error hfiles))⟩
    | ok files =>
      dsimp only
      cases hwarned : files.mapM (streamingMethods c) with
      | error e =>
        exact ⟨.error e, _, rfl, fun level => tells_step hsettings ((hresolved level).bind
          (tells_step hfiles (tells_files_error hwarned).bind_error))⟩
      | ok warned =>
        have hpass (level : Level) : Tells level _ _ _ := tells_files hwarned
        dsimp only
        cases houtputs : generateFiles base files c with
        | error e =>
          refine ⟨.error e, _, rfl, fun level => ?_⟩
          refine (tells_step hsettings ((hresolved level).bind (tells_step hfiles
            ((hpass level).bind (tells_step_error houtputs))))).congr ?_
          rw [List.append_nil]
        | ok outputs =>
          refine ⟨.ok outputs, _, rfl, fun level => ?_⟩
          have hwritten := tells_forM fun o (_ : o ∈ outputs) =>
            tells_note level (.generated o.name (Text.unitLength o.content))
          refine (tells_step hsettings ((hresolved level).bind (tells_step hfiles
            ((hpass level).bind (tells_step houtputs
              (hwritten.bind (tells_pure level outputs))))))).congr ?_
          rw [List.append_nil, ← List.map_eq_flatMap, List.append_assoc]

/-- The level only takes events out of the log. -/
theorem runAt_eq (level : Level) : runAt level base project r =
    ⟨(run base project r).outcome, (run base project r).log.from level⟩ := by
  obtain ⟨out, es, hrun, hsteps⟩ := tells_steps base project r
  have hlog : (steps level base project r).run.run [] = (out, es.from level) := hsteps level []
  rw [hrun, runAt]
  cases out with
  | ok outputs => rw [run_tryCatch_ok hlog, Report.ofSteps]
  | error e =>
    have hfailed : Tells level (do note level (.failed e); throw e : Logging (List GeneratedFile))
        (.error e) [.failed e] := (tells_note level (.failed e)).bind (tells_throw level e)
    rw [run_tryCatch_error hlog, hfailed, Report.ofSteps, Report.failure, from_append]

end

/-! ## Warnings by the request -/

/-- The warnings for the streaming methods of the candidates of `f`. -/
def Request.streamingIn (c : Config) (f : Proto.File) : Log :=
  (f.services.filter fun s => Text.endsWith (c.usedTarget.spell s.name) c.suffix).flatMap fun s =>
    (s.methods.filter Proto.Method.isStreaming).map fun m =>
      .streamingMethod f.name (c.usedTarget.spell s.name) (c.usedTarget.spell m.name)

/-- The warnings for the files that are requested. -/
def Request.streaming (r : Request) (c : Config) : Log :=
  (r.files.filter fun f => r.requested.contains f.name).flatMap (Request.streamingIn c)

section

variable {c : Config} {r : Request}

theorem warnings_of_spelledAs {t : Target} {services : List Proto.Service}
    {spelled : List Service} (h : List.Forall₂ (Proto.Service.SpelledAs t) services spelled)
    (file suffix : String) :
    warnings file (spelled.filter (·.isCandidate suffix)) =
      (services.filter fun s => Text.endsWith (t.spell s.name) suffix).flatMap fun s =>
        (s.methods.filter Proto.Method.isStreaming).map fun m =>
          .streamingMethod file (t.spell s.name) (t.spell m.name) := by
  have hcandidates : List.Forall₂ (Proto.Service.SpelledAs t)
      (services.filter fun s => Text.endsWith (t.spell s.name) suffix)
      (spelled.filter (·.isCandidate suffix)) := by
    refine List.rel_filter (fun s service hs => ?_) h
    show Text.endsWith (t.spell s.name) suffix = true ↔ service.isCandidate suffix = true
    rw [← hs.name]
    rfl
  refine (flatMap_eq_flatMap_of_forall₂ (hcandidates.imp fun s service hs => ?_)).symm
  have hstreaming : List.Forall₂ (fun m method => method.name = t.spell m.name ∧
      method.isStreaming = m.isStreaming) (s.methods.filter Proto.Method.isStreaming)
      (service.methods.filter Method.isStreaming) := by
    refine List.rel_filter (fun m method hm => ?_) hs.methods
    show m.isStreaming = true ↔ method.isStreaming = true
    rw [hm.2]
  exact map_eq_map_of_forall₂ (hstreaming.imp fun m method hm => by rw [hs.name, hm.1])

/-- What the pass collects for the model of a file can be read off the file. -/
theorem streamingMethods_of_resolve {types : TypeIndex} {f : Proto.File} {source : SourceFile}
    (h : f.resolve types r.requested c.goImportMap = .ok source) {es : Log}
    (hes : streamingMethods c source = .ok es) :
    es = if r.requested.contains f.name then Request.streamingIn c f else [] := by
  have hmodels := Proto.File.models_of_resolve h
  have hname : source.name = f.name := congrArg SourceFile.name hmodels.1
  have hrequested : source.isRequested = r.requested.contains f.name :=
    congrArg SourceFile.isRequested hmodels.1
  rw [streamingMethods_eq, hrequested] at hes
  split at hes
  · next hwanted =>
    rw [if_pos hwanted]
    cases htarget : Target.ofName c.target with
    | error e =>
      rw [htarget] at hes
      cases hes
    | ok t =>
      rw [htarget] at hes
      have hspelled := Proto.File.spelledAs_of_resolve t h
      rw [Request.streamingIn, usedTarget_eq htarget, ← warnings_of_spelledAs hspelled, ← hname]
      exact (Except.ok.inj hes).symm
  · next hwanted =>
    rw [if_neg hwanted]
    exact (Except.ok.inj hes).symm

/-- What the pass collects for all models can be read off the request. -/
theorem flatten_streamingMethods {sources : List SourceFile} {es : List Log}
    (hsources : SourceFile.ofProtos r.files r.requested c.goImportMap = .ok sources)
    (hes : sources.mapM (streamingMethods c) = .ok es) : es.flatten = r.streaming c := by
  have hall : List.Forall₂ (fun f es =>
      es = if r.requested.contains f.name then Request.streamingIn c f else []) r.files es := by
    refine (Outcome.mapM_eq_ok.1 (Outcome.mapM_bind hsources hes)).imp fun f es h => ?_
    obtain ⟨source, hsource, hes⟩ := Outcome.bind_eq_ok.1 h
    exact streamingMethods_of_resolve hsource hes
  rw [Request.streaming]
  clear hes
  generalize r.files = files at hall ⊢
  induction hall with
  | nil => rfl
  | cons hf _ ih =>
    rw [List.flatten_cons, hf, ih, List.filter_cons]
    split <;> rfl

end

/-! ## The log -/

theorem from_trace (log : Log) : log.from .trace = log := by
  refine List.filter_eq_self.2 fun e _ => ?_
  cases e <;> rfl

/-- What is told before anything is generated. -/
def Request.opening (r : Request) (c : Config) : Log :=
  .configResolved r.parameter c :: r.streaming c

theorem level_of_mem_opening {r : Request} {c : Config} {e : Event} (h : e ∈ r.opening c) :
    e.level = .debug ∨ e.level = .warn := by
  rcases List.mem_cons.1 h with rfl | h
  · exact .inl rfl
  · obtain ⟨f, -, h⟩ := List.mem_flatMap.1 h
    obtain ⟨s, -, h⟩ := List.mem_flatMap.1 h
    obtain ⟨m, -, rfl⟩ := List.mem_map.1 h
    exact .inr rfl

section

variable (base : Location) (project : Except GenError Overrides) (r : Request)

theorem runAt_trace : runAt .trace base project r = run base project r := by
  rw [runAt_eq, from_trace]

/-- A run fails with its settings, or it has told a part of the opening when it fails, or it tells
the opening and the outputs. -/
theorem run_cases :
    (∃ e, settings project r.parameter = .error e ∧ run base project r = .failure [] e) ∨
      ∃ c, settings project r.parameter = .ok c ∧
        ((∃ before e, before <+: r.opening c ∧ run base project r = .failure before e) ∨
          ∃ outputs, run base project r = ⟨.ok outputs, r.opening c ++
            outputs.map fun o => .generated o.name (Text.unitLength o.content)⟩) := by
  unfold run
  cases hsettings : settings project r.parameter with
  | error e => exact .inl ⟨e, rfl, rfl⟩
  | ok c =>
    have hresolved : [Event.configResolved r.parameter c] <+: r.opening c :=
      List.prefix_append [_] _
    refine .inr ⟨c, rfl, ?_⟩
    dsimp only
    cases hfiles : SourceFile.ofProtos r.files r.requested c.goImportMap with
    | error e => exact .inl ⟨_, e, hresolved, rfl⟩
    | ok files =>
      dsimp only
      cases hwarned : files.mapM (streamingMethods c) with
      | error e => exact .inl ⟨_, e, hresolved, rfl⟩
      | ok warned =>
        have hopening : [.configResolved r.parameter c] ++ warned.flatten = r.opening c := by
          rw [flatten_streamingMethods hfiles hwarned]
          rfl
        dsimp only
        rw [hopening]
        cases generateFiles base files c with
        | error e => exact .inl ⟨_, e, List.prefix_rfl, rfl⟩
        | ok outputs => exact .inr ⟨outputs, rfl⟩

end

/-- **What a run logs.** A level takes the events below it out of the log and changes nothing else.
The full log of a run that succeeds is the settings, a warning for each streaming method of a
candidate in a requested file, and the name and the size of each output. That of a run that fails is
its error behind a part of the same, without any output. -/
theorem log_of_run (base : Location) (project : Except GenError Overrides) (r : Request) :
    let full := runAt .trace base project r
    (∀ level, runAt level base project r = ⟨full.outcome, full.log.from level⟩) ∧
      match full.outcome with
      | .ok outputs =>
        (∃ c, settings project r.parameter = .ok c ∧
          full.log = [.configResolved r.parameter c] ++ r.streaming c ++
            outputs.map fun o => .generated o.name (Text.unitLength o.content)) ∧
        ∀ e ∈ full.log, e.level ≠ .error
      | .error e =>
        ∃ before, full.log = before ++ [.failed e] ∧
          (∀ c, settings project r.parameter = .ok c →
            before <+: [.configResolved r.parameter c] ++ r.streaming c) ∧
          ∀ e' ∈ before, e'.level ≠ .error ∧ e'.level ≠ .info := by
  intro full
  refine ⟨fun level => ?_, ?_⟩
  · rw [runAt_eq, show full = run base project r from runAt_trace base project r]
  · rw [show full = run base project r from runAt_trace base project r]
    rcases run_cases base project r with ⟨e, hsettings, hrun⟩ | ⟨c, hsettings, h⟩
    · rw [hrun]
      refine ⟨[], rfl, fun c hc => ?_, fun _ h => (List.not_mem_nil h).elim⟩
      rw [hsettings] at hc
      cases hc
    · rcases h with ⟨before, e, hbefore, hrun⟩ | ⟨outputs, hrun⟩
      · rw [hrun]
        refine ⟨before, rfl, fun c' hc' => ?_, fun e' he' => ?_⟩
        · rw [hsettings] at hc'
          cases hc'
          exact hbefore
        · rcases level_of_mem_opening (hbefore.subset he') with hlevel | hlevel <;> simp [hlevel]
      · rw [hrun]
        refine ⟨⟨c, hsettings, rfl⟩, fun e he => ?_⟩
        rcases List.mem_append.1 he with he | he
        · rcases level_of_mem_opening he with hlevel | hlevel <;> simp [hlevel]
        · obtain ⟨o, -, rfl⟩ := List.mem_map.1 he
          simp [Event.level]

/-- At the level of warnings, a streaming method is all that a run with an output tells of. -/
example :
    let request : Request := {
      requested := ["watch.proto"]
      parameter := "target=go"
      files := [{
        name := "watch.proto"
        goPackage := "example.com/watch"
        messages := [⟨"WatchReq", []⟩, ⟨"Event", []⟩]
        services := [⟨"watch_cache", [⟨"watch", ".WatchReq", ".Event", false, true⟩]⟩] }] }
    (runAt .warn .root (.ok {}) request).log =
      [.streamingMethod "watch.proto" "WatchCache" "Watch"] := by
  decide +kernel

end Plugin

end CacheGen
