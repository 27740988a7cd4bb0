import CacheGen.Descriptor.GoPackage
import CacheGen.Naming
import Mathlib.Logic.Function.Basic
import Mathlib.Tactic.SplitIfs

/-!
# Derived names are told apart

A name is derived by putting fixed text around the name of a service or a method; a field also has
its first letter in lower case. So each derivation is injective, and names of different kinds are
told apart by the text in front: a wrapper begins with a capital and a field does not.

There is one exception. A manager has no fixed text in front, so `NewOrderCacheManager` is both the
manager of `NewOrderCache` and the constructor of the manager of `OrderCache`
(`managerName_eq_constructorName_iff`).
-/

namespace CacheGen.Naming

/-! ## Identifiers -/

/-- A letter or an underscore, then letters, digits and underscores, all of ASCII. -/
structure IsIdentifier (name : String) : Prop where
  chars : ∀ c ∈ name.toList, Proto.isIdentifierChar c = true
  begins : (name.toList.head?.any fun c => !c.isDigit) = true

instance (name : String) : Decidable (IsIdentifier name) :=
  decidable_of_iff (name.toList.all Proto.isIdentifierChar = true ∧
      (name.toList.head?.any fun c => !c.isDigit) = true)
    ⟨fun ⟨h, h'⟩ => ⟨List.all_eq_true.1 h, h'⟩, fun ⟨h, h'⟩ => ⟨List.all_eq_true.2 h, h'⟩⟩

theorem IsIdentifier.exists_cons {name : String} (h : IsIdentifier name) :
    ∃ c cs, name.toList = c :: cs ∧ Proto.isIdentifierChar c = true := by
  cases hname : name.toList with
  | nil =>
    have hbegins := h.begins
    rw [hname] at hbegins
    cases hbegins
  | cons c cs => exact ⟨c, cs, rfl, h.chars c (hname ▸ List.mem_cons_self)⟩

theorem IsIdentifier.ne_empty {name : String} (h : IsIdentifier name) : name ≠ "" := by
  obtain ⟨c, cs, hname, -⟩ := h.exists_cons
  rintro rfl
  cases hname

theorem toNat_lt_of_isIdentifierChar {c : Char} (h : Proto.isIdentifierChar c = true) :
    c.toNat < 0x80 := by
  unfold Proto.isIdentifierChar Char.isAlphanum Char.isAlpha Char.isUpper Char.isLower
    Char.isDigit at h
  simp only [Bool.or_eq_true, Bool.and_eq_true, decide_eq_true_eq, UInt32.le_iff_toNat_le,
    ge_iff_le] at h
  have hZ : 'Z'.val.toNat = 90 := rfl
  have hz : 'z'.val.toNat = 122 := rfl
  have h9 : '9'.val.toNat = 57 := rfl
  show c.val.toNat < 0x80
  rcases h with ((h | h) | h) | rfl
  · omega
  · omega
  · omega
  · decide

/-! ## Managers and constructors -/

theorem managerName_of_ne {service : String} (h : service ≠ "") :
    managerName service = service ++ "Manager" := if_neg h

theorem managerName_injective : Function.Injective managerName := by
  have hlonger : ∀ service : String, "" ≠ service ++ "Manager" := by
    intro service h
    have hlength := congrArg String.length h
    rw [String.length_append, show "Manager".length = 7 from rfl] at hlength
    exact absurd hlength (by simp)
  intro a b h
  unfold managerName at h
  split_ifs at h with ha hb hb
  · rw [ha, hb]
  · exact absurd h (hlonger b)
  · exact absurd h.symm (hlonger a)
  · exact (String.append_left_inj "Manager").1 h

theorem constructorName_injective : Function.Injective constructorName :=
  fun _ _ h => (String.append_right_inj "New").1 h

theorem managerName_eq_constructorName_iff {a b : String} (ha : a ≠ "") (hb : b ≠ "") :
    managerName a = constructorName (managerName b) ↔ a = "New" ++ b := by
  rw [managerName_of_ne ha, managerName_of_ne hb, constructorName, ← String.append_assoc,
    String.append_left_inj]

/-! ## Members of a manager -/

theorem handleField_injective (service : String) : Function.Injective (handleField service) :=
  fun _ _ h => (String.append_right_inj (privateName (managerName service) ++ "_")).1 h

theorem getterName_injective : Function.Injective getterName :=
  fun _ _ h => (String.append_right_inj "Get").1 h

theorem refresherName_injective : Function.Injective refresherName :=
  fun _ _ h => (String.append_right_inj "Refresh").1 h

theorem updateParam_injective : Function.Injective updateParam :=
  fun _ _ h => (String.append_right_inj "update").1 ((String.append_left_inj "Fn").1 h)

theorem getterName_ne_refresherName (m m' : String) : getterName m ≠ refresherName m' := by
  intro h
  have hfirst := congrArg (fun s : String => s.toList.head?) h
  simp [getterName, refresherName] at hfirst

/-- Lower-casing never gives a capital. -/
theorem toLower_ne {c d : Char} (hd : d.isUpper = true) : c.toLower ≠ d := by
  rintro rfl
  unfold Char.toLower Char.isUpper at hd
  split at hd
  · next h =>
    simp only [UInt32.le_iff_toNat_le, ge_iff_le, UInt32.toNat_add, decide_eq_true_eq] at h hd
    have hA : 'A'.val.toNat = 65 := rfl
    have hZ : 'Z'.val.toNat = 90 := rfl
    have hshift : ('a'.val - 'A'.val).toNat = 32 := rfl
    omega
  · next h => exact h (of_decide_eq_true hd)

/-- What the fields of the manager of an identifier begin with. -/
theorem toList_privateName {service : String} (h : IsIdentifier service) {c : Char}
    {cs : List Char} (hservice : service.toList = c :: cs) :
    (privateName (managerName service)).toList = c.toLower :: (cs ++ "Manager".toList) := by
  have hne : service ≠ "" := by
    rintro rfl
    cases hservice
  have hc : Proto.isIdentifierChar c = true := h.chars c (hservice ▸ List.mem_cons_self)
  have hmanager : (managerName service).toList = c :: (cs ++ "Manager".toList) := by
    rw [managerName_of_ne hne, String.toList_append, hservice, List.cons_append]
  rw [privateName, Text.lowercaseFirst, hmanager]
  simp only [Text.lowerChar_ascii (toNat_lt_of_isIdentifierChar hc), String.toList_ofList,
    List.singleton_append]

theorem head?_handleField {service : String} (h : IsIdentifier service) (method : String) :
    ∃ c : Char, (handleField service method).toList.head? = some c.toLower := by
  obtain ⟨c, cs, hservice, -⟩ := h.exists_cons
  refine ⟨c, ?_⟩
  rw [handleField, compositeName, String.toList_append, String.toList_append,
    toList_privateName h hservice]
  rfl

/-- No field has the name of a wrapper. -/
theorem handleField_ne_wrapper {service : String} (h : IsIdentifier service) (m m' : String) :
    handleField service m ≠ getterName m' ∧ handleField service m ≠ refresherName m' := by
  obtain ⟨c, hc⟩ := head?_handleField h m
  constructor
  · intro heq
    rw [heq, getterName, String.toList_append] at hc
    have hlower : 'G' = c.toLower := Option.some.inj hc
    exact toLower_ne rfl hlower.symm
  · intro heq
    rw [heq, refresherName, String.toList_append] at hc
    have hlower : 'R' = c.toLower := Option.some.inj hc
    exact toLower_ne rfl hlower.symm

end CacheGen.Naming
