import CacheGen.Proofs.ConfigRoundTrip

/-!
# The layer that counts

A setting comes from the last layer that gives it (`lastGiven`), and from the defaults where none
does. The map of imports goes file by file. One fact is behind all of these: where a step takes what
the layer gives or else keeps what it had, a run over the layers ends with the last that is given
(`read_foldl`).

Whether the settings go together is asked of the outcome. So it does not matter in which layers they
were, nor what a few of the layers would have come to.

**Theorem (`resolve_precedence`).** Layers resolve to the config of the last settings given, or fail
for a module that it cannot strip. Any run of layers may be replaced by its merge.
-/

namespace CacheGen

namespace Overrides

section

variable {α β : Type} {field : Overrides → Option α}

/-- What the last of `layers` to give anything under `field` gives. -/
def lastGiven (field : Overrides → Option α) (layers : List Overrides) : Option α :=
  layers.reverse.findSome? field

theorem lastGiven_cons (o : Overrides) (layers : List Overrides) :
    lastGiven field (o :: layers) = (lastGiven field layers).or (field o) := by
  rw [lastGiven, List.reverse_cons, List.findSome?_append, List.findSome?_singleton]
  rfl

theorem read_foldl {f : β → Overrides → β} {p : β → Option α}
    (hp : ∀ b o, p (f b o) = (field o).or (p b)) (layers : List Overrides) (b : β) :
    p (layers.foldl f b) = (lastGiven field layers).or (p b) := by
  induction layers generalizing b with
  | nil => rfl
  | cons o layers ih => rw [List.foldl_cons, ih, hp, lastGiven_cons, Option.or_assoc]

end

/-- `layers` as one. -/
def merged (layers : List Overrides) : Overrides := layers.foldl overlay {}

theorem field_merged {α : Type} (field : Overrides → Option α) (hnothing : field {} = none)
    (hoverlay : ∀ below above, field (overlay below above) = (field above).or (field below))
    (layers : List Overrides) : field (merged layers) = lastGiven field layers := by
  have hread := read_foldl hoverlay layers {}
  rwa [hnothing, Option.or_none] at hread

/-- `o` gives what the last of `layers` gives, setting by setting and file by file. -/
structure FollowsLast (o : Overrides) (layers : List Overrides) : Prop where
  target : o.target = lastGiven (·.target) layers
  suffix : o.suffix = lastGiven (·.suffix) layers
  goRuntimeImport : o.goRuntimeImport = lastGiven (·.goRuntimeImport) layers
  tsRuntimeModule : o.tsRuntimeModule = lastGiven (·.tsRuntimeModule) layers
  importExtension : o.importExtension = lastGiven (·.importExtension) layers
  goLayout : o.goLayout = lastGiven (·.goLayout) layers
  goModule : o.goModule = lastGiven (·.goModule) layers
  goPackage : ∀ file, o.goPackage? file = lastGiven (·.goPackage? file) layers

theorem followsLast_merged (layers : List Overrides) : (merged layers).FollowsLast layers where
  target := field_merged (·.target) rfl (fun _ _ => rfl) layers
  suffix := field_merged (·.suffix) rfl (fun _ _ => rfl) layers
  goRuntimeImport := field_merged (·.goRuntimeImport) rfl (fun _ _ => rfl) layers
  tsRuntimeModule := field_merged (·.tsRuntimeModule) rfl (fun _ _ => rfl) layers
  importExtension := field_merged (·.importExtension) rfl (fun _ _ => rfl) layers
  goLayout := field_merged (·.goLayout) rfl (fun _ _ => rfl) layers
  goModule := field_merged (·.goModule) rfl (fun _ _ => rfl) layers
  goPackage file := field_merged (·.goPackage? file) rfl
    (fun below above => goPackage?_overlay below above file) layers

end Overrides

namespace Config

open Overrides (lastGiven merged read_foldl)

/-- Each setting of `c` is the last that `layers` give, or the default. The map of imports has the
files that they give a package to, and no others. -/
structure FollowsLast (c : Config) (layers : List Overrides) : Prop where
  target : c.target = (lastGiven (·.target) layers).getD "ts"
  suffix : c.suffix = (lastGiven (·.suffix) layers).getD "Cache"
  goRuntimeImport : c.goRuntimeImport = (lastGiven (·.goRuntimeImport) layers).getD
    "github.com/NSXBet/go-cache-manager/pkg/gocachemanager"
  tsRuntimeModule :
    c.tsRuntimeModule = (lastGiven (·.tsRuntimeModule) layers).getD "cache-manager-runtime"
  importExtension : c.importExtension = (lastGiven (·.importExtension) layers).getD .js
  goLayout : c.goLayout = (lastGiven (·.goLayout) layers).getD .importPath
  goModule : c.goModule = (lastGiven (·.goModule) layers).getD ""
  goImportMap : ∀ file, c.goImportMap.get? file = lastGiven (·.goPackage? file) layers

theorem setting_foldl {α : Type} {p : Config → α} {field : Overrides → Option α}
    (hp : ∀ c o, p (c.override o) = (field o).getD (p c)) (layers : List Overrides) (c : Config) :
    p (layers.foldl override c) = (lastGiven field layers).getD (p c) := by
  have hsome : ∀ c o, some (p (c.override o)) = (field o).or (some (p c)) := fun c o => by
    rw [hp, Option.or_some]
  have hread := read_foldl (p := fun c => some (p c)) hsome layers c
  rwa [Option.or_some, Option.some.injEq] at hread

theorem import_foldl (layers : List Overrides) (c : Config) (file : String) :
    (layers.foldl override c).goImportMap.get? file =
      (lastGiven (·.goPackage? file) layers).or (c.goImportMap.get? file) :=
  read_foldl (p := fun c => c.goImportMap.get? file) (fun c o => get?_override c o file) layers c

theorem followsLast_foldl (layers : List Overrides) :
    (layers.foldl override {}).FollowsLast layers where
  target := setting_foldl (fun _ _ => rfl) layers {}
  suffix := setting_foldl (fun _ _ => rfl) layers {}
  goRuntimeImport := setting_foldl (fun _ _ => rfl) layers {}
  tsRuntimeModule := setting_foldl (fun _ _ => rfl) layers {}
  importExtension := setting_foldl (fun _ _ => rfl) layers {}
  goLayout := setting_foldl (fun _ _ => rfl) layers {}
  goModule := setting_foldl (fun _ _ => rfl) layers {}
  goImportMap file := (import_foldl layers {} file).trans (Option.or_none)

theorem override_merged (layers : List Overrides) (c : Config) :
    c.override (merged layers) = layers.foldl override c := by
  have hfrom : ∀ o : Overrides,
      c.override (layers.foldl Overrides.overlay o) = layers.foldl override (c.override o) := by
    induction layers with
    | nil => exact fun o => rfl
    | cons above layers ih =>
      intro o
      rw [List.foldl_cons, ih, override_overlay, List.foldl_cons]
  exact hfrom {}

/-- **Of the layers the last counts.** -/
theorem resolve_precedence (layers : List Overrides) :
    (∃ c : Config, c.FollowsLast layers ∧ resolve layers =
        if c.goModule ≠ "" ∧ c.goLayout = .sourceRelative then
          .error (.invalidParameter ("module=" ++ c.goModule)
            "cannot be combined with paths=source_relative")
        else .ok c) ∧
      (merged layers).FollowsLast layers ∧
      ∀ before after,
        resolve (before ++ layers ++ after) = resolve (before ++ merged layers :: after) := by
  refine ⟨⟨_, followsLast_foldl layers, ?_⟩, Overrides.followsLast_merged layers, ?_⟩
  · rw [resolve]
    simp only [hasConflict, Bool.and_eq_true, decide_eq_true_eq]
  · intro before after
    have hsame : (before ++ layers ++ after).foldl override {} =
        (before ++ merged layers :: after).foldl override {} := by
      rw [List.foldl_append, List.foldl_append, List.foldl_append, List.foldl_cons,
        override_merged]
    rw [resolve, hsame, resolve]

/-- A later layer settles the conflict of those before it. -/
example : resolve [{ goModule := some "shop.com" }, { goLayout := some .sourceRelative },
      { goModule := some "" }] = .ok { goLayout := .sourceRelative } := by
  decide

end Config

end CacheGen
