import CacheGen.Generate
import CacheGen.Proofs.Outcome
import CacheGen.Proofs.Paths
import Mathlib.Tactic.SplitIfs

/-!
# Where an output goes

The name of an output is a stem with the ending of its target. The stem is that of the source file,
or in Go under import paths it is made of the path of the package and the base name of the file.
Stripping a Go module takes pieces from the front of the stem and leaves the ending alone. Hence two
outputs of a run go to one place exactly when their stems meet.
-/

namespace CacheGen

/-! ## Stems and endings -/

theorem Proto.stem_append {name : String} (h : Text.endsWith name ".proto" = true) :
    Proto.stem name ++ ".proto" = name := by
  obtain ⟨start, hstart⟩ := Text.endsWith_iff.1 h
  have hname : name = String.ofList start ++ ".proto" := by
    rw [← String.toList_inj, String.toList_append, String.toList_ofList, hstart]
  rw [Proto.stem, Text.dropEnd?_eq_some.2 hname, Option.getD_some, hname]

namespace Target

def ending : Target → String
  | go => "_cache_manager.pb.go"
  | typeScript => "_cache_manager.ts"

/-- The name of the output for `f` without the ending. -/
def outputStem (t : Target) (f : SourceFile) (c : Config) : String :=
  match t, c.goLayout with
  | go, .importPath =>
    let full := Path.join [f.goImportPath, Path.basename f.stem]
    if c.goModule = "" then full else (Text.dropStart? (c.goModule ++ "/") full).getD full
  | _, _ => f.stem

theorem slash_not_mem_ending (t : Target) : '/' ∉ t.ending.toList := by
  cases t <;> decide

theorem length_ending (t : Target) : 2 < t.ending.length := by
  cases t <;> decide

end Target

theorem Go.fileName_eq {f : SourceFile} {c : Config} {name : String}
    (h : Go.fileName f c = .ok name) :
    name = Target.go.outputStem f c ++ Target.go.ending := by
  unfold Go.fileName at h
  unfold Target.outputStem
  cases hlayout : c.goLayout with
  | sourceRelative =>
    rw [if_pos (Or.inr (by rw [hlayout]; decide)), hlayout] at h
    cases h
    rfl
  | importPath =>
    simp only [hlayout, Go.plainFileName] at h ⊢
    by_cases hm : c.goModule = ""
    · rw [if_pos (Or.inl hm)] at h
      cases h
      rw [if_pos hm]
      rfl
    · rw [if_neg (fun hor => hor.elim hm fun hne => hne rfl)] at h
      rw [if_neg hm]
      split at h
      · next rest hdrop =>
        cases h
        obtain ⟨s, hs, rfl⟩ := dropStart?_append (by decide) hdrop
        rw [hs]
        rfl
      · cases h

theorem Target.fileName_eq {t : Target} {f : SourceFile} {c : Config} {name : String}
    (h : t.fileName f c = .ok name) : name = t.outputStem f c ++ t.ending := by
  cases t with
  | go => exact Go.fileName_eq h
  | typeScript =>
    cases h
    rfl

/-! ## The outputs of a run -/

namespace Config

/-- The target of `c`; of no account if there is none of its name, since then any request fails. -/
def usedTarget (c : Config) : Target := (Target.ofName? c.target).getD .typeScript

/-- There is an output for `f`. -/
def contributes (c : Config) (f : SourceFile) : Bool :=
  f.isRequested && !(c.usedTarget.candidates c.suffix f.services).isEmpty

/-- The stem of the output for `f`. -/
def stemOf (c : Config) (f : SourceFile) : String := c.usedTarget.outputStem f c

/-- The output for `f`, if there is one. -/
def output (base : Location) (c : Config) (f : SourceFile) : GeneratedFile where
  name := c.stemOf f ++ c.usedTarget.ending
  content := c.usedTarget.render base f
    ((c.usedTarget.candidates c.suffix f.services).map ManagerPlan.ofService) c

end Config

theorem usedTarget_eq {c : Config} {t : Target} (h : Target.ofName c.target = .ok t) :
    c.usedTarget = t := by
  unfold Target.ofName at h
  unfold Config.usedTarget
  cases hname : Target.ofName? c.target with
  | none => simp [hname] at h
  | some t' => simpa [hname] using h

theorem generateFile_ok {base : Location} {f : SourceFile} {c : Config}
    {out : Option GeneratedFile} (h : generateFile base f c = .ok out) :
    out = if (c.usedTarget.candidates c.suffix f.services).isEmpty then none
      else some (c.output base f) := by
  obtain ⟨t, ht, hrest⟩ := Outcome.bind_eq_ok.1 h
  have hused : c.usedTarget = t := usedTarget_eq ht
  rw [hused]
  by_cases hnone : (t.candidates c.suffix f.services).isEmpty = true
  · rw [if_pos hnone] at hrest ⊢
    exact (Outcome.pure_eq_ok.1 hrest).symm
  · rw [if_neg hnone] at hrest ⊢
    obtain ⟨name, hname, hout⟩ := Outcome.bind_eq_ok.1 hrest
    rw [← Outcome.pure_eq_ok.1 hout, Target.fileName_eq hname]
    unfold Config.output Config.stemOf
    rw [hused]

theorem generateRequested_ok {base : Location} {c : Config} {f : SourceFile}
    {out : Option GeneratedFile} (h : generateRequested base c f = .ok out) :
    out = if c.contributes f then some (c.output base f) else none := by
  unfold generateRequested at h
  unfold Config.contributes
  by_cases hreq : f.isRequested = true
  · rw [if_pos hreq] at h
    have hfile : generateFile base f c = .ok out := by
      cases hg : generateFile base f c with
      | error e => simp [hg] at h
      | ok out' => simpa [hg] using h
    rw [generateFile_ok hfile, hreq, Bool.true_and]
    cases (c.usedTarget.candidates c.suffix f.services).isEmpty <;> rfl
  · rw [if_neg hreq] at h
    cases h
    rw [Bool.not_eq_true] at hreq
    rw [hreq]
    rfl

/-- A run that succeeds gives the outputs of the files that contribute, in their order. -/
theorem generateFiles_ok {base : Location} {sources : List SourceFile} {c : Config}
    {outputs : List GeneratedFile} (h : generateFiles base sources c = .ok outputs) :
    outputs = (sources.filter c.contributes).map (c.output base) := by
  obtain ⟨parts, hparts, hout⟩ := Outcome.bind_eq_ok.1 h
  rw [← Outcome.pure_eq_ok.1 hout]
  have hall := Outcome.mapM_eq_ok.1 hparts
  clear h hparts hout
  induction hall with
  | nil => rfl
  | cons hhead _ ih =>
    rw [generateRequested_ok hhead, List.filterMap_cons, List.filter_cons, ih]
    split_ifs <;> rfl

/-- Two outputs of a run have one place exactly when their stems meet. -/
theorem place_output_eq_iff (base out : Location) (c : Config) (f g : SourceFile) :
    out.resolve (c.output base f).name = out.resolve (c.output base g).name ↔
      out.Meet (c.stemOf f) (c.stemOf g) :=
  Location.resolve_eq_iff_meet (Target.slash_not_mem_ending _) (Target.length_ending _) out _ _

end CacheGen
