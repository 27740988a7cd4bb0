import CacheGen.Command.Init
import CacheGen.Proofs.Agreement
import CacheGen.Proofs.ConfigRoundTrip
import CacheGen.Proofs.FirstPlace
import CacheGen.Proofs.JsonRoundTrip
import CacheGen.Proofs.RelativeWays

/-!
# The config file that `init` leaves

What is written is the printed form of a config, so it is read back as that config, by the round
trips of the bytes, of the value and of the settings. And it is written to the place that both
loaders look at first, so nothing else in the directory is asked (`Holds.load`).

A directory with that file is *ready*: the loaders give the defaults there, a run of `generate`
goes by the defaults and its own options, and without force `init` keeps the file.

Main result: `init_leaves_ready`.
-/

namespace CacheGen

/-! ## Config files as text -/

theorem Config.legible_toJson (c : Config) : Json.Legible c.toJson := by
  have hmap : Json.Legible (.object (c.goImportMap.entries.map fun e => (e.1, .string e.2))) := by
    refine .object ?_ ?_
    · rw [List.map_map]
      exact c.goImportMap.nodup
    · rw [List.forall_mem_map]
      exact fun e _ => .string e.2
  have hkeys : Schema.knownKeys.Nodup := by decide
  refine .object hkeys ?_
  simp only [List.forall_mem_cons, List.not_mem_nil, IsEmpty.forall_iff, implies_true, and_true]
  exact ⟨.string _, .string _, .string _, .string _, .string _, .string _, .string _, hmap⟩

namespace Config

/-- The text of the config file with the settings of `c`. -/
def fileText (c : Config) : String := Json.pretty c.toJson ++ "\n"

theorem parse?_fileText (c : Config) : Json.parse? c.fileText = some c.toJson :=
  Json.parse?_pretty c.legible_toJson (by simp [Json.isSpace])

theorem allBlank_fileText (c : Config) : Text.allBlank c.fileText = false := by
  rw [Text.allBlank, fileText, Json.pretty, toJson, Json.print, String.toList_append,
    Json.toList_bracketed (by simp [Json.printMembers])]
  rfl

end Config

namespace Discovery

variable {t : Tree} {base : Location} {source : String} {c : Config}

/-- The config file of `dir` has the settings of `c`, and nothing else. -/
def Holds (t : Tree) (dir : Location) (c : Config) : Prop :=
  t.read? (dir.resolve ".cachemanagerrc.json") = some (Utf8.encode c.fileText)

theorem Holds.valueAt (readers : Readers) {dir : Location} (h : Holds t dir c) :
    valueAt readers t (dir.resolve ".cachemanagerrc.json") .json = .ok (some c.toJson) := by
  have hread := c.parse?_fileText
  have hblank := c.allBlank_fileText
  rw [Discovery.valueAt, valueIn, h]
  simp only [Utf8.decode_encode, hblank, Format.parse, hread]
  rfl

/-- The first of all places decides for both loaders. -/
theorem Holds.load (readers : Readers) (h : Holds t (base.resolve source) c) (hc : c.IsSound) :
    let overrides := (c.withoutFile Schema.reservedKey).asOverrides
    load readers t base source = .ok overrides ∧
      loadRunning readers t base source = .ok overrides := by
  intro overrides
  have hvalid : ∀ path, Schema.validate c.toJson path = .ok overrides := Schema.validate_toJson hc
  constructor
  · show searchBy _ _ _ ((".cachemanagerrc.json", Format.json) :: _) = _
    rw [searchBy]
    simp only [h.valueAt, hvalid]
  · show searchBy _ _ _ ((".cachemanagerrc.json", Content.text .json) :: _) = _
    rw [searchBy]
    simp only [Content.valueAt, h.valueAt, hvalid]

end Discovery

/-! ## Paths and writes -/

/-- The path of a location leads there, from anywhere. -/
theorem Location.resolve_path {l : Location} (h : l.IsProper) (base : Location) :
    base.resolve l.path = l := by
  have habsolute : Path.isAbsolute l.path = true := by simp [Path.isAbsolute, path]
  have hpieces : Text.pieces '/' l.path = "" :: Text.pieces '/' ("/".intercalate l.names) :=
    Text.pieces_append_mark '/' "" _
  have hwalk : walk false [] (Text.pieces '/' ("/".intercalate l.names)) = l.names := by
    by_cases hne : l.names = []
    · rw [hne]
      rfl
    · rw [Path.pieces_joined h.pieces hne, walk_plain h.plain, List.nil_append]
  rw [resolve, if_pos habsolute, hpieces]
  exact congrArg mk hwalk

theorem Tree.write_eq_none_iff {t : Tree} {l : Location} {content : Bytes} :
    t.write l content = none ↔ ¬ (t.isDirectory l.parent ∧ ¬ t.isDirectory l) := by
  unfold write
  split
  next hfree => simpa using hfree
  next hfree => simpa using hfree

namespace Command

/-! ## Runs of `init` -/

/-- The directory that a run of `init` is for. -/
def InitOptions.dir (o : InitOptions) (base : Location) : Location :=
  (o.directory.map base.resolve).getD base

/-- Where a run of `init` writes. -/
def InitOptions.place (o : InitOptions) (base : Location) : Location :=
  (o.dir base).resolve configFileName

theorem InitOptions.parent_place (o : InitOptions) (base : Location) :
    (o.place base).parent = o.dir base := by
  show Location.mk ((o.dir base).names ++ [configFileName]).dropLast = _
  rw [List.dropLast_concat]

/-- There is a config file, and it is not to be replaced. -/
def InitOptions.Keeps (o : InitOptions) (t : Tree) (base : Location) : Prop :=
  o.force = false ∧ (t.get? (o.place base)).isSome

/-- The outcome of a run of `init`, and the tree it leaves. -/
inductive InitEnds (t : Tree) (base : Location) (o : InitOptions) :
    Except GenError (Option Location) → Tree → Prop
  | kept (hkeeps : o.Keeps t base) : InitEnds t base o (.ok none) t
  | unwritten (hnew : ¬ o.Keeps t base)
      (hwrite : t.write (o.place base) (Utf8.encode defaultConfigText) = none) :
      InitEnds t base o
        (.error (.writeFailed (o.place base).path "it cannot be written there")) t
  | written {t' : Tree} (hnew : ¬ o.Keeps t base)
      (hwrite : t.write (o.place base) (Utf8.encode defaultConfigText) = some t') :
      InitEnds t base o (.ok (some (o.place base))) t'

section

variable {t : Tree} {base : Location} {o : InitOptions}

variable (t base o) in
theorem init_ends : InitEnds t base o (init t base o).outcome (init t base o).tree := by
  unfold init
  dsimp only
  rw [← InitOptions.dir, ← InitOptions.place]
  have hkeeps : ((t.get? (o.place base)).isSome && !o.force) = true ↔ o.Keeps t base := by
    rw [Bool.and_eq_true, Bool.not_eq_true', and_comm, InitOptions.Keeps]
  by_cases hkeep : ((t.get? (o.place base)).isSome && !o.force) = true
  · rw [if_pos hkeep]
    exact .kept (hkeeps.1 hkeep)
  · rw [if_neg hkeep]
    rw [hkeeps] at hkeep
    cases hwrite : t.write (o.place base) (Utf8.encode defaultConfigText) with
    | none => exact .unwritten hkeep hwrite
    | some t' => exact .written hkeep hwrite

theorem init_of_keeps (h : o.Keeps t base) :
    (init t base o).outcome = .ok none ∧ (init t base o).tree = t := by
  have hends := init_ends t base o
  generalize (init t base o).outcome = outcome, (init t base o).tree = tree at hends ⊢
  cases hends with
  | kept => exact ⟨rfl, rfl⟩
  | unwritten hnew => exact absurd h hnew
  | written hnew => exact absurd h hnew

/-! ## Ready directories -/

/-- `dir` is as `init` leaves it. -/
structure IsReady (t : Tree) (dir : Location) : Prop where
  load : ∀ readers base source, base.resolve source = dir →
    Discovery.load readers t base source = .ok ({} : Config).asOverrides
  loadRunning : ∀ readers base source, base.resolve source = dir →
    Discovery.loadRunning readers t base source = .ok ({} : Config).asOverrides
  /-- The options of a run of `generate` are laid over the defaults. -/
  configOf : ∀ readers base (o : GenerateOptions), base.resolve (o.configDir base) = dir →
    configOf readers t base o = o.overrides >>= fun given => Config.resolve [given]
  /-- A run of `generate` without settings goes by the defaults. -/
  produce : ∀ readers base (o : GenerateOptions) set, base.resolve (o.configDir base) = dir →
    o.overrides = .ok {} → produce readers t base o set = do
      let files ← SourceFile.ofProtos set (o.requested set) ∅
      let outputs ← generateFiles base files {}
      return ({}, outputs)
  init : ∀ base (o : InitOptions), o.dir base = dir → o.force = false →
    (init t base o).outcome = .ok none ∧ (init t base o).tree = t

theorem isReady_of_get? {dir : Location}
    (h : t.get? (dir.resolve configFileName) = some (.file (Utf8.encode defaultConfigText))) :
    IsReady t dir := by
  have hholds : Discovery.Holds t dir {} := by
    show t.read? (dir.resolve configFileName) = _
    rw [Tree.read?, h]
    rfl
  have hload : ∀ readers base source, base.resolve source = dir →
      Discovery.load readers t base source = .ok ({} : Config).asOverrides ∧
        Discovery.loadRunning readers t base source = .ok ({} : Config).asOverrides := by
    rintro readers base source rfl
    exact hholds.load readers Config.isSound_default
  have hconfig : ∀ readers base (o : GenerateOptions), base.resolve (o.configDir base) = dir →
      configOf readers t base o = o.overrides >>= fun given => Config.resolve [given] := by
    intro readers base o hdir
    have hproject : Discovery.loadRunning readers t base (o.config.getD base.path) = _ :=
      (hload _ _ _ hdir).2
    rw [configOf, hproject]
    show (o.overrides >>= fun given => Config.resolve [_, given]) = _
    refine bind_congr fun given => ?_
    rw [Config.resolve, List.foldl_cons, Config.override_asOverrides]
    rfl
  refine ⟨fun readers base source hdir => (hload readers base source hdir).1,
    fun readers base source hdir => (hload readers base source hdir).2, hconfig, ?produce, ?init⟩
  case produce =>
    intro readers base o set hdir hnone
    rw [produce_eq, hconfig readers base o hdir, hnone]
    rfl
  case init =>
    rintro base o rfl hforce
    refine init_of_keeps ⟨hforce, ?_⟩
    rw [InitOptions.place, h]
    rfl

variable (t base o) in
/-- **What `init` does.** Without force it keeps a config file that is there, and nothing is
changed. Otherwise, where there is no directory to write to, or one in place of the file, it fails
and nothing is changed. Anywhere else the file is all that is changed, and the directory is
ready. -/
theorem init_leaves_ready :
    let run := init t base o
    let place := o.place base
    let writable := t.isDirectory (o.dir base) ∧ ¬ t.isDirectory place
    (o.Keeps t base → run.outcome = .ok none ∧ run.tree = t) ∧
      (¬ o.Keeps t base → ¬ writable →
        (∃ e, run.outcome = .error e ∧ e.code = "WRITE_FAILED") ∧ run.tree = t) ∧
      (¬ o.Keeps t base → writable →
        run.outcome = .ok (some place) ∧
          (∀ l, run.tree.get? l =
            if l = place then some (.file (Utf8.encode defaultConfigText)) else t.get? l) ∧
          IsReady run.tree (o.dir base)) := by
  intro run place writable
  have hends : InitEnds t base o run.outcome run.tree := init_ends t base o
  have hwritable : t.write place (Utf8.encode defaultConfigText) = none ↔ ¬ writable := by
    rw [Tree.write_eq_none_iff, o.parent_place]
  generalize run.outcome = outcome, run.tree = tree at hends ⊢
  cases hends with
  | kept hkeeps => exact ⟨fun _ => ⟨rfl, rfl⟩, absurd hkeeps, absurd hkeeps⟩
  | unwritten hnew hwrite =>
    have hno := hwritable.1 hwrite
    exact ⟨fun hkeeps => absurd hkeeps hnew, fun _ _ => ⟨⟨_, rfl, rfl⟩, rfl⟩,
      fun _ hyes => absurd hyes hno⟩
  | written hnew hwrite =>
    have hget := Tree.get?_write hwrite
    have hplace : tree.get? place = some (.file (Utf8.encode defaultConfigText)) := by
      rw [hget, if_pos rfl]
    refine ⟨fun hkeeps => absurd hkeeps hnew, fun _ hno => ?_,
      fun _ _ => ⟨rfl, hget, isReady_of_get? hplace⟩⟩
    rw [hwritable.2 hno] at hwrite
    cases hwrite

end

/-- Unless told otherwise, `generate` takes the config file of the directory it runs in. -/
theorem resolve_configDir {o : GenerateOptions} {base : Location} (h : base.IsProper)
    (hnone : o.config = none) : base.resolve (o.configDir base) = base := by
  rw [GenerateOptions.configDir, hnone]
  exact Location.resolve_path h base

/-- A directory with two other config files, and neither is right. -/
def shopTree : Tree := ⟨.ofEntries [
  (⟨["shop"]⟩, .directory),
  (⟨["shop", ".cachemanagerrc.yml"]⟩, .file (Utf8.encode "suffix: ''\n")),
  (⟨["shop", "package.json"]⟩, .file (Utf8.encode "\x7b"))]⟩

theorem init_leaves_ready_shop :
    let o : InitOptions := { directory := some "shop" }
    let run := init shopTree .root o
    let shop : Location := ⟨["shop"]⟩
    (∃ e, Discovery.load .builtin shopTree .root "shop" = .error e) ∧
      run.outcome = .ok (some (shop.resolve configFileName)) ∧
      Discovery.load .builtin run.tree .root "shop" = .ok ({} : Config).asOverrides ∧
      configOf .builtin run.tree shop {} = .ok {} ∧
      (init run.tree shop {}).outcome = .ok none ∧ (init run.tree shop {}).tree = run.tree := by
  intro o run shop
  have hnew : ¬ o.Keeps shopTree .root := fun h => absurd h.2 (by decide +kernel)
  have hbad : Discovery.load .builtin shopTree .root "shop" = .error (.invalidConfig
      "/shop/.cachemanagerrc.yml" "suffix: String must contain at least 1 character(s)") := by
    decide +kernel
  obtain ⟨hok, -, hready⟩ :=
    (init_leaves_ready shopTree .root o).2.2 hnew (by decide +kernel)
  have hshop : shop.IsProper := ⟨by decide, by decide⟩
  have hconfig : configOf .builtin run.tree shop {} = .ok {} :=
    hready.configOf .builtin shop {} (resolve_configDir hshop rfl)
  exact ⟨⟨_, hbad⟩, hok, hready.load .builtin .root "shop" rfl, hconfig, hready.init shop {} rfl rfl⟩

end Command

end CacheGen
