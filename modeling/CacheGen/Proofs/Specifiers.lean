import CacheGen.Proofs.MessageModules
import CacheGen.Proofs.TidyPaths

/-!
# Specifiers of message modules

A module is imported by the way to it from the directory of the generated file, with `./` put in
front unless the way begins with a dot. The dot may be that of a name, though, and a way that goes
one step up has no slash behind its dots.

Between tidy paths the way does not depend on where they are read from, and joined to the directory
it is the path of the module again, if it has a step at all.

**Theorem (`specifier_exact`).** A specifier begins with `./` or `../` except where the way leads
down into a name with a dot in front, or up to the module from a directory right inside of it. Joined
to the directory it gives the path of the module, unless this directory has the path itself.
-/

namespace CacheGen

/-! ## Ways between locations -/

namespace Location

theorem pastCommon_append_left (common as bs : List String) :
    pastCommon (common ++ as) (common ++ bs) = pastCommon as bs := by
  induction common with
  | nil => rfl
  | cons name common ih => rw [List.cons_append, List.cons_append, pastCommon, if_pos rfl, ih]

theorem pastCommon_nil_left (bs : List String) : pastCommon [] bs = ([], bs) := by
  cases bs <;> rfl

theorem pastCommon_nil_right (as : List String) : pastCommon as [] = (as, []) := by
  cases as <;> rfl

/-- `l` is inside of `dir`, and the first name on the way down has a dot in front. -/
def DottedInside (dir l : Location) : Prop :=
  ∃ name rest, l.names = dir.names ++ name :: rest ∧ Text.startsWith name "." = true

/-- `dir` is one step below `l`. -/
def RightInside (dir l : Location) : Prop := ∃ name, dir.names = l.names ++ [name]

section

variable {dir l : Location}

theorem wayNames_down {names : List String} (h : l.names = dir.names ++ names) :
    dir.wayNames l = names := by
  have hparts := pastCommon_append_left dir.names [] names
  rw [List.append_nil, pastCommon_nil_left, ← h] at hparts
  rw [wayNames, hparts]
  rfl

theorem wayNames_up (h : dir.RightInside l) : dir.wayNames l = [".."] := by
  obtain ⟨name, hname⟩ := h
  have hparts := pastCommon_append_left l.names [name] []
  rw [List.append_nil, pastCommon_nil_right, ← hname] at hparts
  rw [wayNames, hparts]
  rfl

theorem dottedInside_iff {names : List String} (h : l.names = dir.names ++ names) :
    dir.DottedInside l ↔ ∃ name ∈ names.head?, Text.startsWith name "." = true := by
  constructor
  · rintro ⟨name, rest, hrest, hstart⟩
    have hnames : names = name :: rest := List.append_cancel_left (h.symm.trans hrest)
    exact ⟨name, by rw [hnames]; rfl, hstart⟩
  · rintro ⟨name, hname, hstart⟩
    obtain ⟨rest, hnames⟩ := List.head?_eq_some_iff.1 hname
    exact ⟨name, rest, hnames ▸ h, hstart⟩

theorem not_rightInside_of_prefix (h : dir.names <+: l.names) : ¬ dir.RightInside l := by
  rintro ⟨name, hname⟩
  have hlength := h.length_le
  rw [hname, List.length_append, List.length_singleton] at hlength
  omega

/-- Every other way goes up first, and then on. -/
theorem exists_wayNames_up (hdown : ¬ dir.names <+: l.names) (hup : ¬ dir.RightInside l) :
    ∃ rest, rest ≠ [] ∧ dir.wayNames l = ".." :: rest := by
  obtain ⟨common, hdir, hl⟩ := exists_common dir.names l.names
  rw [wayNames]
  generalize pastCommon dir.names l.names = parts at hdir hl ⊢
  cases hparts : parts.1 with
  | nil =>
    rw [hparts, List.append_nil] at hdir
    exact absurd ⟨parts.2, hdir ▸ hl.symm⟩ hdown
  | cons name names =>
    refine ⟨names.map (fun _ => "..") ++ parts.2, fun hnil => hup ?_, rfl⟩
    obtain ⟨hnames, hrest⟩ := List.append_eq_nil_iff.1 hnil
    rw [hrest, List.append_nil] at hl
    rw [hparts, List.map_eq_nil_iff.1 hnames] at hdir
    exact ⟨name, hl ▸ hdir⟩

end

/-- The location that `l`, read from the root, has from `base`. -/
def below (base l : Location) : Location := ⟨base.names ++ l.names⟩

section

variable (base dir l : Location)

theorem relative_below : (base.below dir).relative (base.below l) = dir.relative l := by
  rw [relative_eq, relative_eq, wayNames, wayNames, below, below, pastCommon_append_left]

theorem dottedInside_below :
    (base.below dir).DottedInside (base.below l) ↔ dir.DottedInside l := by
  simp [DottedInside, below, List.append_assoc]

theorem rightInside_below : (base.below dir).RightInside (base.below l) ↔ dir.RightInside l := by
  simp [RightInside, below, List.append_assoc]

theorem below_inj : base.below dir = base.below l ↔ dir = l := by
  rw [below, below, mk.injEq, List.append_cancel_left_eq]
  exact ⟨congrArg mk, congrArg names⟩

end

/-- What a text leads to below every location is made of the names of directories. -/
theorem IsProper.of_below {p : String} {l : Location}
    (h : ∀ base : Location, base.resolve p = base.below l) : l.IsProper := by
  have hroot := IsProper.root.resolve p
  rwa [h] at hroot

end Location

/-! ## The start of a specifier -/

/-- A way, as an import names it. -/
def specifierOf (way : String) : String := if Text.startsWith way "." then way else "./" ++ way

/-- The text begins with a step from the directory or out of it. -/
def IsRelative (specifier : String) : Prop :=
  Text.startsWith specifier "./" = true ∨ Text.startsWith specifier "../" = true

instance (specifier : String) : Decidable (IsRelative specifier) :=
  inferInstanceAs (Decidable (_ ∨ _))

theorem Text.startsWith_dot_iff {s : String} :
    startsWith s "." = true ↔ s.toList.head? = some '.' := by
  rw [startsWith_iff]
  cases s.toList with
  | nil => simp
  | cons c cs => simp [List.cons_prefix_cons, eq_comm]

/-- A text that begins with a name and a slash has this name as its first piece. -/
theorem Text.head?_pieces {s : String} (name : String) (hname : '/' ∉ name.toList)
    (h : startsWith s (name ++ "/") = true) : (pieces '/' s).head? = some name := by
  obtain ⟨rest, hrest⟩ := startsWith_iff.1 h
  have hs : s = name ++ String.singleton '/' ++ String.ofList rest := by
    rw [← String.toList_inj, String.toList_append, String.toList_ofList, ← hrest]
    rfl
  have hone : pieces '/' name = [name] := by
    have hpieces : pieces '/' ((String.singleton '/').intercalate [name]) = [name] :=
      pieces_intercalate (List.cons_ne_nil _ _) (by simpa using hname)
    rwa [String.intercalate_singleton] at hpieces
  rw [hs, pieces_append_mark, hone]
  rfl

theorem not_isRelative_of_name {s name : String} (h : (Text.pieces '/' s).head? = some name)
    (hdot : name ≠ ".") (hdots : name ≠ "..") : ¬ IsRelative s := by
  rintro (hstart | hstart)
  · have hhead := Text.head?_pieces "." (by decide) hstart
    exact hdot (Option.some.inj (h.symm.trans hhead))
  · have hhead := Text.head?_pieces ".." (by decide) hstart
    exact hdots (Option.some.inj (h.symm.trans hhead))

theorem head?_joined {name : String} (h : name ≠ "") (rest : List String) :
    ("/".intercalate (name :: rest)).toList.head? = name.toList.head? := by
  cases rest with
  | nil => rw [String.intercalate_singleton]
  | cons next rest =>
    rw [String.intercalate_cons_cons, String.append_assoc, String.toList_append,
      List.head?_append_of_ne_nil _ (by simpa using h)]

/-- A way down is told by the first character of its first name. -/
theorem isRelative_specifierOf_down {names : List String} (h : Location.IsProper ⟨names⟩) :
    IsRelative (specifierOf ("/".intercalate names)) ↔
      ¬ ∃ name ∈ names.head?, Text.startsWith name "." = true := by
  cases names with
  | nil => decide
  | cons name rest =>
    obtain ⟨hempty, hdot, hdots⟩ := h.plain name List.mem_cons_self
    have hway : Text.startsWith ("/".intercalate (name :: rest)) "." = true ↔
        Text.startsWith name "." = true := by
      rw [Text.startsWith_dot_iff, Text.startsWith_dot_iff, head?_joined hempty]
    rw [specifierOf]
    by_cases hstart : Text.startsWith name "." = true
    · rw [if_pos (hway.2 hstart)]
      refine iff_of_false (not_isRelative_of_name ?_ hdot hdots) fun hno => ?_
      · rw [Path.pieces_joined h.pieces (List.cons_ne_nil _ _)]
        rfl
      · exact hno ⟨name, rfl, hstart⟩
    · rw [if_neg (mt hway.1 hstart)]
      refine iff_of_true (Or.inl (Text.startsWith_iff.2 (by simp))) ?_
      rintro ⟨_, hname, hdotted⟩
      exact hstart (Option.some.inj hname ▸ hdotted)

theorem isRelative_specifierOf_up {rest : List String} (h : rest ≠ []) :
    IsRelative (specifierOf ("/".intercalate (".." :: rest))) := by
  rw [String.intercalate_cons_of_ne_nil h]
  have hdot : Text.startsWith (".." ++ "/" ++ "/".intercalate rest) "." = true :=
    Text.startsWith_iff.2 (by simp)
  rw [specifierOf, if_pos hdot]
  exact Or.inr (Text.startsWith_iff.2 (by simp))

/-- **When a specifier is a relative one.** -/
theorem isRelative_specifierOf_iff {dir l : Location} (hl : l.IsProper) :
    IsRelative (specifierOf (dir.relative l)) ↔ ¬ dir.DottedInside l ∧ ¬ dir.RightInside l := by
  rw [Location.relative_eq]
  by_cases hdown : dir.names <+: l.names
  · obtain ⟨names, hnames⟩ := hdown
    have hproper : Location.IsProper ⟨names⟩ :=
      hl.mono (hnames ▸ List.subset_append_right dir.names names)
    rw [Location.wayNames_down hnames.symm, isRelative_specifierOf_down hproper,
      Location.dottedInside_iff hnames.symm]
    exact (and_iff_left (Location.not_rightInside_of_prefix ⟨names, hnames⟩)).symm
  · have hnot : ¬ dir.DottedInside l := fun ⟨name, rest, hrest, _⟩ => hdown ⟨_, hrest.symm⟩
    by_cases hup : dir.RightInside l
    · rw [Location.wayNames_up hup]
      exact iff_of_false (by decide) fun h => h.2 hup
    · obtain ⟨rest, hrest, hway⟩ := Location.exists_wayNames_up hdown hup
      rw [hway]
      exact iff_of_true (isRelative_specifierOf_up hrest) ⟨hnot, hup⟩

/-! ## Joining a specifier to its directory -/

section

variable {dir l : Location} (hdir : dir.IsProper) (hl : l.IsProper)

include hdir hl

omit hdir in
/-- Unless it is empty, a specifier is made of names that lead on as the way does. -/
theorem exists_specifierOf (hway : dir.wayNames l ≠ []) :
    ∃ steps, steps ≠ [] ∧ (∀ name ∈ steps, name ≠ "" ∧ '/' ∉ name.toList) ∧
      specifierOf (dir.relative l) = "/".intercalate steps ∧
      ∀ start, walk true start steps = walk true start (dir.wayNames l) := by
  have hnames := Location.pieces_wayNames (a := dir) hl
  rw [Location.relative_eq]
  unfold specifierOf
  split
  · exact ⟨dir.wayNames l, hway, hnames, rfl, fun _ => rfl⟩
  · refine ⟨"." :: dir.wayNames l, List.cons_ne_nil _ _, ?_, ?_, fun _ => rfl⟩
    · exact List.forall_mem_cons.2 ⟨by decide, hnames⟩
    · rw [String.intercalate_cons_of_ne_nil hway]
      rfl

/-- Between different locations the specifier leads back to the path. -/
theorem join_specifierOf (hne : dir ≠ l) :
    Path.join [Path.spell dir.names, specifierOf (dir.relative l)] = Path.spell l.names := by
  have hwalk : walk true dir.names (dir.wayNames l) = l.names :=
    Location.walk_wayNames true hdir.plain.not_mem hl.plain
  have hway : dir.wayNames l ≠ [] := by
    intro hnil
    rw [hnil] at hwalk
    exact hne (congrArg Location.mk hwalk)
  obtain ⟨start, hstart, hstartNames, hspell, hdown⟩ := Path.exists_spell hdir
  obtain ⟨steps, hsteps, hstepNames, hspecifier, hon⟩ := exists_specifierOf hl hway
  rw [hspell, hspecifier, Path.join_joined hstartNames hstepNames hstart hsteps, hdown, hon, hwalk]

omit hl in
/-- From a location to itself it leaves a slash at the end. -/
theorem getLast?_join_specifierOf :
    (Path.join [Path.spell dir.names, specifierOf (dir.relative dir)]).toList.getLast? =
      some '/' := by
  have hhere : specifierOf (dir.relative dir) = "./" := by
    rw [Location.relative_eq, Location.wayNames_down (List.append_nil dir.names).symm]
    rfl
  have hspell := Path.spell_ne_empty hdir.pieces
  have hboth : [Path.spell dir.names, "./"].filter (· ≠ "") = [Path.spell dir.names, "./"] := by
    simp [hspell]
  have hrel : Path.isAbsolute (Path.spell dir.names) = false := by
    obtain ⟨start, -, hnames, hstart, -⟩ := Path.exists_spell hdir
    rw [hstart, Path.isAbsolute_joined hnames]
  rw [hhere, Path.join, hboth]
  refine Path.getLast?_normalize ?_ (by simp)
  rw [String.intercalate_cons_cons, String.append_assoc, Path.isAbsolute_append_left hspell, hrel]

end

/-! ## Tidy paths -/

theorem Location.resolve_spell (base : Location) {names : List String}
    (h : Location.IsProper ⟨names⟩) : base.resolve (Path.spell names) = ⟨base.names ++ names⟩ := by
  unfold Path.spell
  split
  · next hnil =>
    rw [hnil, List.append_nil]
    rfl
  · next hnil =>
    rw [resolve, Path.isAbsolute_joined h.pieces, Path.pieces_joined h.pieces hnil,
      if_neg Bool.false_ne_true, walk_plain h.plain]

theorem Path.folder_stem (file : String) : folder (Proto.stem file) = folder file := by
  unfold Proto.stem
  cases hstem : Text.dropEnd? ".proto" file with
  | none => rfl
  | some stem => rw [Text.dropEnd?_eq_some.1 hstem, Option.getD_some, folder_append (by decide)]

section

variable {output file : String} (ext : ImportExtension)

/-- From anywhere, the directory of a tidy path is below by the same names. -/
theorem Path.IsTidy.dirname_eq (h : Path.IsTidy output) :
    ∃ dir : Location, dir.IsProper ∧ Path.dirname output = Path.spell dir.names ∧
      ∀ base : Location, base.resolve (Path.dirname output) = base.below dir := by
  obtain ⟨names, hnames, hdirname⟩ := h.exists_dirname
  refine ⟨⟨names⟩, hnames, hdirname, fun base => ?_⟩
  rw [hdirname, base.resolve_spell hnames, Location.below]

/-- So is the module of a tidy path, and but for one of them it is spelled by these names. -/
theorem Path.IsTidy.messagePath_eq (h : Path.IsTidy file) :
    ∃ l : Location, l.IsProper ∧ (messagePath file ext = Path.spell l.names ↔ file ≠ "./") ∧
      ∀ base : Location, base.resolve (messagePath file ext) = base.below l := by
  have hslash : '/' ∉ ("_pb" ++ ext.text).toList := by cases ext <;> decide
  have hlong : 2 < ("_pb" ++ ext.text).length := by cases ext <;> decide
  have hpath : messagePath file ext = Proto.stem file ++ ("_pb" ++ ext.text) :=
    String.append_assoc ..
  have hresolve : ∀ base : Location, base.resolve (messagePath file ext) =
      ⟨(base.folderOf (Proto.stem file)).names ++
        [Path.lastPiece (Proto.stem file) ++ ("_pb" ++ ext.text)]⟩ := fun base => by
    rw [hpath, Location.resolve_append hslash hlong]
  by_cases hdot : file = "./"
  · subst hdot
    have hbelow : ∀ base : Location, base.resolve (messagePath "./" ext) =
        base.below ⟨[Path.lastPiece (Proto.stem "./") ++ ("_pb" ++ ext.text)]⟩ := by
      intro base
      have hfolder : base.folderOf (Proto.stem "./") = base := rfl
      rw [hresolve, hfolder, Location.below]
    refine ⟨_, .of_below hbelow, iff_of_false ?_ (absurd rfl), hbelow⟩
    cases ext <;> decide
  · have hplain : Path.IsPlain (Proto.stem file) := by
      unfold Path.IsPlain
      rw [Path.folder_stem]
      exact h.isPlain hdot
    have hbelow : ∀ base : Location, base.resolve (messagePath file ext) = base.below
        ⟨Path.folder (Proto.stem file) ++
          [Path.lastPiece (Proto.stem file) ++ ("_pb" ++ ext.text)]⟩ := by
      intro base
      rw [hresolve, Location.folderOf_of_plain _ hplain, List.append_assoc, Location.below]
    have hproper := Location.IsProper.of_below hbelow
    refine ⟨_, hproper, iff_of_true ?_ hdot, hbelow⟩
    apply Path.pieces_injective
    rw [Path.spell, if_neg (List.concat_ne_nil _ _),
      Path.pieces_joined hproper.pieces (List.concat_ne_nil _ _), hpath, Path.pieces_append hslash]

end

theorem getLast?_messagePath (file : String) (ext : ImportExtension) :
    (messagePath file ext).toList.getLast? ≠ some '/' := by
  cases ext <;> simp [messagePath, ImportExtension.text]

/-! ## Specifiers -/

/-- **When specifiers are right.** Let the paths of an output and of a file that is not well known be
tidy. The specifier of the module of the file begins with `./` or `../` if and only if the way from
the directory of the output does not lead down into a name with a dot in front, nor just one step up.
Joined to the directory, it is the path of the module if and only if the directory is not at that
path itself and the file is not `./`, whose module has a path with a dot to spare. -/
theorem specifier_exact {output file : String} (houtput : Path.IsTidy output)
    (hfile : Path.IsTidy file) (hforeign : ¬ IsWellKnown file) (base : Location)
    (ext : ImportExtension) :
    let specifier := messageModule base output file ext
    let dir := base.resolve (Path.dirname output)
    let l := base.resolve (messagePath file ext)
    (IsRelative specifier ↔ ¬ dir.DottedInside l ∧ ¬ dir.RightInside l) ∧
      (Path.join [Path.dirname output, specifier] = messagePath file ext ↔
        dir ≠ l ∧ file ≠ "./") := by
  intro specifier dir l
  obtain ⟨d, hd, hdirname, hdir⟩ := houtput.dirname_eq
  obtain ⟨m, hm, hpath, hmodule⟩ := hfile.messagePath_eq ext
  have hspecifier : specifier = specifierOf (d.relative m) := by
    unfold specifier
    rw [messageModule_of_not output hforeign, hdir, hmodule, Location.relative_below]
    rfl
  have hdirBelow : dir = base.below d := hdir base
  have hmoduleBelow : l = base.below m := hmodule base
  rw [hspecifier, hdirBelow, hmoduleBelow, Location.dottedInside_below,
    Location.rightInside_below, Ne, Location.below_inj, hdirname]
  refine ⟨isRelative_specifierOf_iff hm, ?_⟩
  by_cases hsame : d = m
  · subst hsame
    refine iff_of_false (fun hjoin => ?_) fun h => h.1 rfl
    have hlast := getLast?_join_specifierOf hd
    rw [hjoin] at hlast
    exact getLast?_messagePath file ext hlast
  · rw [join_specifierOf hd hm hsame, eq_comm, hpath]
    exact ⟨fun h => ⟨hsame, h⟩, fun h => h.2⟩

/-- The way up and down is named well, and the one into a directory with a dot in front is not. -/
theorem specifier_exact_orders :
    (IsRelative (messageModule .root "shop/order_cache_manager.ts" "common/money.proto" .js) ∧
      Path.join [Path.dirname "shop/order_cache_manager.ts",
          messageModule .root "shop/order_cache_manager.ts" "common/money.proto" .js] =
        messagePath "common/money.proto" .js) ∧
    ¬ IsRelative (messageModule .root "shop/order_cache_manager.ts" "shop/.v1/item.proto" .js) := by
  have houtput : Path.IsTidy "shop/order_cache_manager.ts" := by decide +kernel
  have hmoney : Path.IsTidy "common/money.proto" := by decide +kernel
  have hitem : Path.IsTidy "shop/.v1/item.proto" := by decide +kernel
  have hdir : Location.root.resolve (Path.dirname "shop/order_cache_manager.ts") = ⟨["shop"]⟩ := by
    decide +kernel
  have hmoneyModule : Location.root.resolve (messagePath "common/money.proto" .js) =
      ⟨["common", "money_pb.js"]⟩ := by
    decide +kernel
  have hitemModule : Location.root.resolve (messagePath "shop/.v1/item.proto" .js) =
      ⟨["shop", ".v1", "item_pb.js"]⟩ := by
    decide +kernel
  obtain ⟨hrelative, hjoin⟩ := specifier_exact houtput hmoney (by decide) .root .js
  obtain ⟨hdotted, -⟩ := specifier_exact houtput hitem (by decide) .root .js
  rw [hdir, hmoneyModule] at hrelative hjoin
  rw [hdir, hitemModule] at hdotted
  refine ⟨⟨hrelative.2 ⟨?_, ?_⟩, hjoin.2 (by decide)⟩, fun h => (hdotted.1 h).1 ?_⟩
  · rintro ⟨name, rest, hnames, -⟩
    simp at hnames
  · rintro ⟨name, hname⟩
    simp at hname
  · exact ⟨".v1", ["item_pb.js"], rfl, by decide⟩

/-- A directory with a dot in front is not told from a step. -/
theorem dotted_directory_not_relative :
    ¬ ∀ (base : Location) (output file : String) (ext : ImportExtension), Path.IsTidy output →
      Path.IsTidy file → ¬ IsWellKnown file →
      IsRelative (messageModule base output file ext) ∧
        Path.join [Path.dirname output, messageModule base output file ext] =
          messagePath file ext := by
  intro hall
  have hdotted := (hall .root "order_cache_manager.ts" ".shop/item.proto" .js (by decide +kernel)
    (by decide +kernel) (by decide)).1
  exact absurd hdotted (by decide +kernel)

end CacheGen
