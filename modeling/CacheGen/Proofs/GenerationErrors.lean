import CacheGen.Proofs.OutputPlace

/-!
# When generating fails

With a target that there is, generating for a file fails in one way: the file is requested and has a
candidate, and its output lies outside of the Go module that is to be stripped
(`error?_generateRequested`, `Target.error?_fileName`). Rendering never fails. An error names the
file, whatever the target is (`generateFiles_eq_error`).
-/

namespace CacheGen

/-! ## Names under a target -/

/-- The name of a service in the language of the target. -/
def Target.spell : Target → String → String
  | go, name => Naming.goName name
  | typeScript, name => name

theorem Target.name_renameService (t : Target) (s : Service) :
    (t.renameService s).name = t.spell s.name := by
  cases t <;> rfl

/-- There is a candidate when a name, as the target spells it, has the suffix. -/
theorem Target.not_isEmpty_candidates (t : Target) (suffix : String) (services : List Service) :
    (!(t.candidates suffix services).isEmpty) =
      (services.map Service.name).any fun name => Text.endsWith (t.spell name) suffix := by
  unfold candidates
  induction services with
  | nil => rfl
  | cons s services ih =>
    rw [List.map_cons, List.filter_cons, List.map_cons, List.any_cons, Service.isCandidate,
      name_renameService]
    cases Text.endsWith (t.spell s.name) suffix with
    | true => rfl
    | false => exact ih

/-! ## Naming outputs -/

/-- Stripping a module fails on the names outside of it. -/
theorem Go.error?_fileName (f : SourceFile) (c : Config) :
    Outcome.error? (Go.fileName f c) =
      if c.goLayout = .importPath ∧ c.goModule ≠ "" ∧
          Text.startsWith (plainFileName f c.goLayout) (c.goModule ++ "/") = false then
        some (.moduleMismatch (plainFileName f c.goLayout) c.goModule)
      else none := by
  unfold fileName
  by_cases hplain : c.goModule = "" ∨ c.goLayout ≠ .importPath
  · rw [if_pos hplain, if_neg]
    · rfl
    · rintro ⟨hlayout, hmodule, -⟩
      exact hplain.elim hmodule fun h => h hlayout
  · rw [if_neg hplain]
    rw [not_or, not_not] at hplain
    rw [← Text.isSome_dropStart?]
    cases Text.dropStart? (c.goModule ++ "/") (plainFileName f c.goLayout) with
    | none =>
      rw [if_pos ⟨hplain.2, hplain.1, rfl⟩]
      rfl
    | some rest =>
      rw [if_neg (by simp)]
      rfl

theorem Target.error?_fileName (t : Target) (f : SourceFile) (c : Config) :
    Outcome.error? (t.fileName f c) =
      if t = .go ∧ c.goLayout = .importPath ∧ c.goModule ≠ "" ∧
          Text.startsWith (Go.plainFileName f c.goLayout) (c.goModule ++ "/") = false then
        some (.moduleMismatch (Go.plainFileName f c.goLayout) c.goModule)
      else none := by
  cases t with
  | go =>
    show Outcome.error? (Go.fileName f c) = _
    rw [Go.error?_fileName]
    simp
  | typeScript => simp [fileName, Outcome.error?]

theorem Target.fileName_services (t : Target) (f : SourceFile) (services : List Service)
    (c : Config) : t.fileName { f with services := services } c = t.fileName f c := by
  cases t <;> rfl

/-! ## Generating -/

theorem ofName_usedTarget {c : Config} (h : (Target.ofName? c.target).isSome = true) :
    Target.ofName c.target = .ok c.usedTarget := by
  unfold Target.ofName Config.usedTarget
  cases hname : Target.ofName? c.target with
  | none => rw [hname] at h; cases h
  | some t => rfl

theorem generateFiles_eq_error {base : Location} {files : List SourceFile} {c : Config}
    {e : GenError} (h : generateFiles base files c = .error e) :
    ∃ file cause, e = .generationFailed file cause := by
  have hall : Outcome.ErrorsIn (fun e => ∃ file cause, e = .generationFailed file cause)
      (generateFiles base files c) := by
    refine .bind (.mapM (fun f => ?_) files) fun outputs => .ok _
    unfold generateRequested
    split
    · split
      · exact .ok _
      · exact .error ⟨_, _, rfl⟩
    · exact .ok none
  exact hall e h

section

variable (base : Location) {c : Config} (ht : Target.ofName c.target = .ok c.usedTarget)

include ht

theorem error?_generateFile (f : SourceFile) :
    Outcome.error? (generateFile base f c) =
      if (c.usedTarget.candidates c.suffix f.services).isEmpty then none
      else Outcome.error? (c.usedTarget.fileName f c) := by
  rw [generateFile, ht]
  show Outcome.error? (if (c.usedTarget.candidates c.suffix f.services).isEmpty then pure none
    else c.usedTarget.fileName f c >>= _) = _
  split
  · rfl
  · exact Outcome.error?_bind_pure _ _

theorem error?_generateRequested (f : SourceFile) :
    Outcome.error? (generateRequested base c f) =
      if c.contributes f then
        (Outcome.error? (c.usedTarget.fileName f c)).map fun e => .generationFailed f.name e.message
      else none := by
  have hfile := error?_generateFile base ht f
  unfold generateRequested Config.contributes
  cases f.isRequested with
  | false => rfl
  | true =>
    rw [if_pos rfl, Bool.true_and]
    refine Eq.trans (b := (Outcome.error? (generateFile base f c)).map fun e =>
      .generationFailed f.name e.message) ?_ ?_
    · cases generateFile base f c <;> rfl
    · rw [hfile]
      cases (c.usedTarget.candidates c.suffix f.services).isEmpty <;> rfl

end

end CacheGen
