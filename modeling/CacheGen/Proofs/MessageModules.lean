import CacheGen.Proofs.OutputPlace
import CacheGen.Proofs.RelativeWays
import CacheGen.Target.Bindings

/-!
# Modules of messages

The messages of a file are in a module beside it, and a generated module names it by the way there
from its own directory. The files under `google/protobuf/` have one module for all of them, named
without a way.

Read from that directory, the name leads to the module (`resolve_messageModule`), so it tells where
the module is. Two files have one module, then, exactly when both are well known or neither is and
their names lead to one place (`messageModule_eq_iff`).
-/

namespace CacheGen

/-- The protobuf runtime brings the messages of the file. -/
def IsWellKnown (file : String) : Prop := Text.startsWith file "google/protobuf/" = true

instance (file : String) : Decidable (IsWellKnown file) :=
  inferInstanceAs (Decidable (_ = true))

/-- The messages of both files are in one module. -/
def ShareModule (base : Location) (file file' : String) : Prop :=
  IsWellKnown file ∧ IsWellKnown file' ∨
    ¬ IsWellKnown file ∧ ¬ IsWellKnown file' ∧ base.resolve file = base.resolve file'

instance (base : Location) (file file' : String) : Decidable (ShareModule base file file') :=
  inferInstanceAs (Decidable (_ ∨ _))

/-- Where the messages of `file` are, if it is not well known. -/
def messagePath (file : String) (ext : ImportExtension) : String :=
  Proto.stem file ++ "_pb" ++ ext.text

/-- A dot in front of a relative text changes nothing. -/
theorem Location.resolve_here (dir : Location) {p : String} (h : Path.isAbsolute p = false) :
    dir.resolve ("./" ++ p) = dir.resolve p := by
  have hlist : ("./" ++ p).toList = '.' :: '/' :: p.toList := by simp
  have hpieces : Text.pieces '/' ("./" ++ p) = "." :: Text.pieces '/' p := by
    rw [Text.pieces, hlist, List.splitOn_cons_eq_if_modifyHead, if_neg (by decide),
      List.splitOn_cons_eq_if_modifyHead, if_pos (by decide)]
    rfl
  have hrel : Path.isAbsolute ("./" ++ p) = false := by
    rw [Path.isAbsolute, hlist]
    rfl
  rw [resolve, resolve, hrel, h, hpieces]
  rfl

section

variable {base : Location} {file file' : String} {ext : ImportExtension}

theorem messageModule_of_wellKnown (output : String) (h : IsWellKnown file) :
    messageModule base output file ext = wellKnownModule :=
  if_pos h

theorem messageModule_of_not (output : String) (h : ¬ IsWellKnown file) :
    messageModule base output file ext =
      let way := (base.resolve (Path.dirname output)).relative (base.resolve (messagePath file ext))
      if Text.startsWith way "." then way else "./" ++ way :=
  if_neg h

/-- The name of a module that is not well known begins with a dot and leads to the module. -/
theorem resolve_messageModule (hbase : base.IsProper) (output : String) (h : ¬ IsWellKnown file)
    (ext : ImportExtension) :
    Text.startsWith (messageModule base output file ext) "." = true ∧
      (base.resolve (Path.dirname output)).resolve (messageModule base output file ext) =
        base.resolve (messagePath file ext) := by
  obtain ⟨hrel, hback⟩ := Location.resolve_relative
    (hbase.resolve (Path.dirname output)).plain.not_mem (hbase.resolve (messagePath file ext))
  rw [messageModule_of_not output h]
  dsimp only
  split
  · next hdot => exact ⟨hdot, hback⟩
  · exact ⟨Text.startsWith_iff.2 (by simp), (Location.resolve_here _ hrel).trans hback⟩

/-- The endings of the two texts change nothing about where they meet. -/
theorem resolve_messagePath_eq_iff (base : Location) (hend : Text.endsWith file ".proto" = true)
    (hend' : Text.endsWith file' ".proto" = true) (ext : ImportExtension) :
    base.resolve (messagePath file ext) = base.resolve (messagePath file' ext) ↔
      base.resolve file = base.resolve file' := by
  have hslash : '/' ∉ ("_pb" ++ ext.text).toList := by cases ext <;> decide
  have hlong : 2 < ("_pb" ++ ext.text).length := by cases ext <;> decide
  have hmeet := Location.resolve_eq_iff_meet hslash hlong base (Proto.stem file) (Proto.stem file')
  have hproto : '/' ∉ ".proto".toList := by decide
  rw [messagePath, messagePath, String.append_assoc, String.append_assoc, hmeet,
    ← Location.resolve_eq_iff_meet hproto (by decide), Proto.stem_append hend,
    Proto.stem_append hend']

/-- **When two files have one module.** -/
theorem messageModule_eq_iff (hbase : base.IsProper) (output : String)
    (hend : Text.endsWith file ".proto" = true) (hend' : Text.endsWith file' ".proto" = true) :
    messageModule base output file ext = messageModule base output file' ext ↔
      ShareModule base file file' := by
  have hdot : Text.startsWith wellKnownModule "." = false := by decide
  unfold ShareModule
  by_cases h : IsWellKnown file <;> by_cases h' : IsWellKnown file'
  · simp [messageModule_of_wellKnown output h, messageModule_of_wellKnown output h', h, h']
  · have hway := (resolve_messageModule hbase output h' ext).1
    rw [messageModule_of_wellKnown output h]
    refine iff_of_false (fun heq => ?_) (by simp [h, h'])
    rw [← heq, hdot] at hway
    cases hway
  · have hway := (resolve_messageModule hbase output h ext).1
    rw [messageModule_of_wellKnown output h']
    refine iff_of_false (fun heq => ?_) (by simp [h, h'])
    rw [heq, hdot] at hway
    cases hway
  · obtain ⟨-, hlead⟩ := resolve_messageModule hbase output h ext
    obtain ⟨-, hlead'⟩ := resolve_messageModule hbase output h' ext
    simp only [h, h', not_false_eq_true, true_and, false_and, false_or]
    rw [← resolve_messagePath_eq_iff base hend hend' ext]
    constructor
    · intro heq
      rw [← hlead, heq, hlead']
    · intro heq
      rw [messageModule_of_not output h, messageModule_of_not output h', heq]

end

example : ShareModule .root "shop/order.proto" "./shop//order.proto" := by decide

end CacheGen
