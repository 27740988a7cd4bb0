import CacheGen.Config.Readers
import CacheGen.Proofs.CommandRun
import CacheGen.Proofs.OutputPlace
import Mathlib.Data.List.Nodup

/-!
# Outputs that are kept

After a run of `generate` that wrote its outputs, an output is *kept* when its text is read back
from its place. The outputs are written one after the other, and none is held back because another
has its place, so what decides is whether two outputs share a place.

A stem is that of the file name, or in Go it is made of the package's own path and the base name of
the file. In Go, then, nothing but the base name is left of a file name, and two files of one package
in different directories meet. Where the stem is that of the file name, files with distinct, plain
names ending in `.proto` do not meet (`generate_keeps_protos`).

**Theorem (`generate_keeps_iff`).** All outputs of a run are kept exactly when any two source files
whose stems meet have the same output.
-/

namespace CacheGen

/-! ## Files behind the outputs -/

/-- Only Go under import paths has stems that are not those of the file names. -/
theorem Config.stemOf_eq (c : Config) (f : SourceFile)
    (h : c.usedTarget = .typeScript ∨ c.goLayout = .sourceRelative) : c.stemOf f = f.stem := by
  unfold stemOf Target.outputStem
  rcases h with h | h
  · rw [h]
  · rw [h]
    cases c.usedTarget <;> rfl

theorem SourceFile.ofProtos_ok {protos : List Proto.File} {requested : List String}
    {imports : OrderedMap String String} {sources : List SourceFile}
    (h : SourceFile.ofProtos protos requested imports = .ok sources) :
    sources.map SourceFile.name = protos.map Proto.File.name ∧
      ∀ s ∈ sources, s.stem = Proto.stem s.name := by
  constructor
  · refine (map_eq_map_of_forall₂ ((ofProtos_forall₂ h).imp fun f s hs => ?_)).symm
    rw [hs.1]
    rfl
  · intro s hs
    obtain ⟨f, -, hresolve⟩ := Outcome.exists_of_mem_mapM h hs
    rw [(Proto.File.models_of_resolve hresolve).1]
    rfl

namespace Command

/-- What `outputs` were generated from: the files of the set, the config and the model. -/
structure Basis (readers : Discovery.Readers) (t : Tree) (base : Location) (set : String)
    (o : GenerateOptions) (outputs : List GeneratedFile) (protos : List Proto.File) (c : Config)
    (sources : List SourceFile) : Prop where
  read : readSet t (base.resolve set) = .ok protos
  configured : configOf readers t base o = .ok c
  decoded : SourceFile.ofProtos protos (o.requested protos) c.goImportMap = .ok sources
  generated : generateFiles base sources c = .ok outputs

section Runs

variable {readers : Discovery.Readers} {t : Tree} {base : Location} {set : String}
  {o : GenerateOptions} {g : Generated}

theorem Produces.exists_basis {protos : List Proto.File} {c : Config} {outputs : List GeneratedFile}
    (h : Produces readers t base set o protos c outputs) :
    ∃ sources, Basis readers t base set o outputs protos c sources := by
  obtain ⟨hread, hproduce⟩ := h
  rw [produce_eq] at hproduce
  obtain ⟨c', hc, hproduce⟩ := Outcome.bind_eq_ok.1 hproduce
  obtain ⟨sources, hsources, hproduce⟩ := Outcome.bind_eq_ok.1 hproduce
  obtain ⟨outputs', houtputs, hproduce⟩ := Outcome.bind_eq_ok.1 hproduce
  cases Outcome.pure_eq_ok.1 hproduce
  exact ⟨sources, hread, hc, hsources, houtputs⟩

/-- A run that succeeds has a basis, and unless it is dry it has written all its outputs. -/
theorem generate_ok (h : (generate readers t base set o).outcome = .ok g) :
    (∃ protos c sources, Basis readers t base set o g.files protos c sources) ∧
      (o.dryRun = false → writeAll (base.resolve (o.out.getD ".")) t g.files =
        (.ok g.written, (generate readers t base set o).tree)) := by
  have hends := generate_ends readers t base set o
  rw [h] at hends
  generalize (generate readers t base set o).tree = tree at hends ⊢
  cases hends with
  | unneeded hproduces hnone =>
    refine ⟨⟨_, _, hproduces.exists_basis⟩, fun hwet => ?_⟩
    rcases hnone with rfl | hdry
    · rfl
    · rw [hdry] at hwet
      cases hwet
  | written hproduces hwet hwrite => exact ⟨⟨_, _, hproduces.exists_basis⟩, fun _ => hwrite⟩

/-! ## Kept outputs -/

/-- Each of `outputs` is read back from its place below `out`. -/
def AllKept (t : Tree) (out : Location) (outputs : List GeneratedFile) : Prop :=
  ∀ f ∈ outputs, t.readText? (out.resolve f.name) = some f.content

/-- Sources with outputs have the same output wherever their stems meet. -/
def SameWhereMeeting (base out : Location) (c : Config) (sources : List SourceFile) : Prop :=
  ∀ a ∈ sources.filter c.contributes, ∀ b ∈ sources.filter c.contributes,
    out.Meet (c.stemOf a) (c.stemOf b) → (c.output base a).content = (c.output base b).content

theorem allKept_iff (hdry : o.dryRun = false)
    (hok : (generate readers t base set o).outcome = .ok g) {protos : List Proto.File} {c : Config}
    {sources : List SourceFile} (hbasis : Basis readers t base set o g.files protos c sources) :
    AllKept (generate readers t base set o).tree (base.resolve (o.out.getD ".")) g.files ↔
      SameWhereMeeting base (base.resolve (o.out.getD ".")) c sources := by
  unfold AllKept SameWhereMeeting
  rw [writeAll_keeps_iff ((generate_ok hok).2 hdry), generateFiles_ok hbasis.generated]
  simp only [List.forall_mem_map, place_output_eq_iff]

/-- Outputs named after files whose names are distinct and plain are all kept. -/
theorem generate_keeps_protos (hdry : o.dryRun = false)
    (hok : (generate readers t base set o).outcome = .ok g) {protos : List Proto.File} {c : Config}
    {sources : List SourceFile} (hbasis : Basis readers t base set o g.files protos c sources)
    (hlayout : c.usedTarget = .typeScript ∨ c.goLayout = .sourceRelative)
    (hnodup : (protos.map Proto.File.name).Nodup)
    (hnames : ∀ f ∈ protos, Text.endsWith f.name ".proto" = true ∧ Path.IsPlain f.name) :
    AllKept (generate readers t base set o).tree (base.resolve (o.out.getD ".")) g.files := by
  obtain ⟨hsame, hstem⟩ := SourceFile.ofProtos_ok hbasis.decoded
  have hsource : ∀ s ∈ sources, c.stemOf s ++ ".proto" = s.name ∧ Path.IsPlain (c.stemOf s) := by
    intro s hs
    obtain ⟨f, hf, hname⟩ := List.mem_map.1 (hsame ▸ List.mem_map_of_mem hs)
    obtain ⟨hend, hplain⟩ := hnames f hf
    rw [hname] at hend hplain
    have hback := Proto.stem_append hend
    rw [c.stemOf_eq s hlayout, hstem s hs]
    refine ⟨hback, ?_⟩
    unfold Path.IsPlain at hplain ⊢
    rwa [← hback, Path.folder_append (by decide)] at hplain
  refine (allKept_iff hdry hok hbasis).2 fun a ha b hb hmeet => ?_
  obtain ⟨hnameA, hplainA⟩ := hsource a (List.mem_of_mem_filter ha)
  obtain ⟨hnameB, hplainB⟩ := hsource b (List.mem_of_mem_filter hb)
  have hstems := (Location.meet_iff_of_plain hplainA hplainB).1 hmeet
  have hnames : a.name = b.name := by rw [← hnameA, hstems, hnameB]
  rw [List.inj_on_of_nodup_map (hsame ▸ hnodup) (List.mem_of_mem_filter ha)
    (List.mem_of_mem_filter hb) hnames]

/-- No place is listed twice. -/
theorem allKept_of_nodup (hdry : o.dryRun = false)
    (hok : (generate readers t base set o).outcome = .ok g) (h : g.written.Nodup) :
    AllKept (generate readers t base set o).tree (base.resolve (o.out.getD ".")) g.files := by
  have hwrite := (generate_ok hok).2 hdry
  rw [(writeAll_ok hwrite).1] at h
  refine (writeAll_keeps_iff hwrite).2 fun f hf f' hf' hplace => ?_
  rw [List.inj_on_of_nodup_map h hf hf' hplace]

/-- **When all outputs are kept.** A run that succeeds and is not dry lists the places of its
outputs in order. It keeps them all exactly when sources whose stems meet have the same output. So it
does whenever it lists no place twice, and wherever outputs are named after their files and these have
distinct, plain names. -/
theorem generate_keeps_iff (hdry : o.dryRun = false)
    (hok : (generate readers t base set o).outcome = .ok g) :
    let out := base.resolve (o.out.getD ".")
    let tree := (generate readers t base set o).tree
    g.written = g.files.map (fun f => out.resolve f.name) ∧
      (g.written.Nodup → AllKept tree out g.files) ∧
      ∃ protos c sources, Basis readers t base set o g.files protos c sources ∧
        g.files = (sources.filter c.contributes).map (c.output base) ∧
        (AllKept tree out g.files ↔ SameWhereMeeting base out c sources) ∧
        (c.usedTarget = .typeScript ∨ c.goLayout = .sourceRelative →
          (protos.map Proto.File.name).Nodup →
          (∀ f ∈ protos, Text.endsWith f.name ".proto" = true ∧ Path.IsPlain f.name) →
          AllKept tree out g.files) := by
  intro out tree
  obtain ⟨⟨protos, c, sources, hbasis⟩, hwritten⟩ := generate_ok hok
  exact ⟨(writeAll_ok (hwritten hdry)).1, allKept_of_nodup hdry hok, protos, c, sources, hbasis,
    generateFiles_ok hbasis.generated, allKept_iff hdry hok hbasis,
    generate_keeps_protos hdry hok hbasis⟩

end Runs

/-! ## Two files of one package -/

/-- Two files of one Go package with the same base name. -/
def orders : List Proto.File := [
  { name := "a/order.proto", goPackage := "shop", services := [⟨"ACache", []⟩] },
  { name := "b/order.proto", goPackage := "shop", services := [⟨"BCache", []⟩] }]

def orderTree : Tree := ⟨.ofEntries [(⟨["orders"]⟩, .file (Wire.putFileSet orders))]⟩

/-- Generate Go for `orders`. -/
def orderRun (paths : String) : Run Generated :=
  generate .builtin orderTree .root "orders"
    { target := some "go", paths := some paths, quiet := true }

/-- Beside their sources the two outputs do not meet. -/
theorem generate_keeps_iff_orders :
    (orderRun "source_relative").Succeeds fun g tree =>
      g.written.length = 2 ∧ AllKept tree (Location.root.resolve ".") g.files := by
  have hrun : (orderRun "source_relative").Succeeds fun g _ =>
      g.written.length = 2 ∧ g.written.Nodup := by
    decide +kernel
  obtain ⟨g, hok, htwo, hnodup⟩ := hrun
  exact ⟨g, hok, htwo, (generate_keeps_iff rfl hok).2.1 hnodup⟩

/-- Under the path of their package they share a place, and the second replaces the first. -/
theorem shared_place_loses_output :
    ¬ ∀ (readers : Discovery.Readers) (t : Tree) (base : Location) (set : String)
      (o : GenerateOptions) (g : Generated) (protos : List Proto.File),
      readSet t (base.resolve set) = .ok protos →
      (protos.map Proto.File.name).Nodup → o.dryRun = false →
      (generate readers t base set o).outcome = .ok g →
      AllKept (generate readers t base set o).tree (base.resolve (o.out.getD ".")) g.files := by
  intro hall
  have hrun : (orderRun "import").Succeeds fun g _ =>
      ∃ f ∈ g.files, ∃ f' ∈ g.files, f.name = f'.name ∧ f.content ≠ f'.content := by
    decide +kernel
  have hnames : (readSet orderTree (Location.root.resolve "orders")).toOption.map
      (fun protos => protos.map Proto.File.name) = some ["a/order.proto", "b/order.proto"] := by
    decide +kernel
  obtain ⟨g, hok, f, hf, f', hf', hname, hcontent⟩ := hrun
  obtain ⟨⟨protos, c, sources, hbasis⟩, -⟩ := generate_ok hok
  rw [hbasis.read] at hnames
  have hnodup : (protos.map Proto.File.name).Nodup := by
    have hlist : protos.map Proto.File.name = ["a/order.proto", "b/order.proto"] :=
      Option.some.inj hnames
    rw [hlist]
    decide
  have hkept := hall .builtin orderTree .root "orders" _ g protos hbasis.read hnodup rfl hok
  have hread := hkept f hf
  rw [hname, hkept f' hf'] at hread
  exact hcontent (Option.some.inj hread).symm

end Command

end CacheGen
