import CacheGen.Generate
import CacheGen.Proofs.GoSteps
import Mathlib.Data.List.Chain

/-!
# The spelling of Go names

A Go name has no dot in it, and no word of it begins with a lower-case letter, where a word begins
at the front and behind an underscore or a digit. Unless the name that it was made from begins with
a dot, it does not begin with an underscore either. A text that is spelled in this way is its own Go
name (`goName_eq_self`).

**Theorem (`isExported_goName`).** The Go name of identifiers joined by dots is an exported
identifier.

**Theorem (`renaming_settles`).** A second renaming changes nothing, unless a name begins with a
dot.
-/

namespace CacheGen

namespace Naming

/-! ## Spelling -/

/-- Behind `before`, no word of `cs` begins with a lower-case letter. -/
def CapitalWords (before : Option Char) : List Char → Prop
  | [] => True
  | c :: cs => (isLowerLetter c = true → beginsWord before = false) ∧ CapitalWords (some c) cs

/-- The spelling of Go names. -/
structure IsGoSpelled (name : String) : Prop where
  noDot : '.' ∉ name.toList
  noMark : name.toList.head? ≠ some '_'
  words : CapitalWords none name.toList

theorem dot_not_mem_goName (name : String) : '.' ∉ (goName name).toList := by
  have hall : ∀ d ∈ (goName name).toList, d ≠ '.' := by
    refine forall_goName (by decide) (by decide) (fun c hc hdot => ?_) fun c _ hdot => hdot
    have hupper := (toUpper_spec hc).1
    rw [hdot] at hupper
    cases hupper
  exact fun hdot => hall _ hdot rfl

/-- The words are those of the name, where `prev` stands for what `before` has become. -/
theorem capitalWords_goNameFrom {before prev : Option Char}
    (h : beginsWord before = false → beginsWord prev = false) (cs : List Char) :
    CapitalWords prev (goNameFrom before cs) := by
  induction cs generalizing before prev with
  | nil => trivial
  | cons c cs ih =>
    rw [goNameFrom]
    have hstep := becomes_goNameStep before c cs.head?
    generalize goNameStep before c cs.head? = out at hstep ⊢
    cases hstep with
    -- A word begins behind a mark, so nothing is asked of what the mark becomes.
    | nothing hc _ => exact ih fun hword => absurd hword (by simp [beginsWord_of_mark hc])
    | mark hc _ =>
      refine ⟨fun hlower => absurd hlower (by decide), ih fun hword => ?_⟩
      exact absurd hword (by simp [beginsWord_of_mark hc])
    | start hc _ =>
      refine ⟨fun hlower => absurd hlower (by decide), ih fun hword => ?_⟩
      exact absurd hword (by simp [beginsWord_of_mark (.inr hc)])
    | capital hlower _ =>
      obtain ⟨-, -, hsmall, hword⟩ := toLower_spec (toUpper_spec hlower).1
      exact ⟨fun hcapital => absurd hcapital (by simp [hsmall]), ih fun _ => hword⟩
    | itself _ _ hword => exact ⟨fun hlower => h (hword hlower), ih id⟩

theorem head?_goName_ne {name : String} (h : Text.startsWith name "." = false) :
    (goName name).toList.head? ≠ some '_' := by
  cases hname : name.toList with
  | nil => simp [hname, goNameFrom]
  | cons c cs =>
    have hdot : c ≠ '.' := by
      rintro rfl
      simp [Text.startsWith, hname] at h
    rw [head?_goName hname hdot]
    intro hfirst
    have hc := Option.some.inj hfirst
    split_ifs at hc with hmark hlower
    · cases hc
    · have hupper := (toUpper_spec hlower).1
      rw [hc] at hupper
      cases hupper
    · exact hmark hc

theorem isGoSpelled_goName {name : String} (h : Text.startsWith name "." = false) :
    IsGoSpelled (goName name) := by
  refine ⟨dot_not_mem_goName name, head?_goName_ne h, ?_⟩
  rw [toList_goName]
  exact capitalWords_goNameFrom id _

theorem goNameFrom_eq_self {before : Option Char} {cs : List Char} (hdot : '.' ∉ cs)
    (hstart : cs.head? = some '_' → before ≠ none ∧ before ≠ some '.')
    (hwords : CapitalWords before cs) : goNameFrom before cs = cs := by
  induction cs generalizing before with
  | nil => rfl
  | cons c cs ih =>
    rw [List.mem_cons, not_or] at hdot
    obtain ⟨hword, hrest⟩ := hwords
    have htail : goNameFrom (some c) cs = cs :=
      ih hdot.2 (fun _ => ⟨nofun, fun hc => hdot.1 (Option.some.inj hc).symm⟩) hrest
    -- A letter behind a mark begins a word, so the mark stays.
    have hafter : c = '.' ∨ c = '_' → cs.head?.any isLowerLetter = false := by
      intro hc
      cases cs with
      | nil => rfl
      | cons d ds =>
        refine Bool.eq_false_iff.2 fun hlower => ?_
        have hbegins := beginsWord_of_mark hc
        rw [hrest.1 hlower] at hbegins
        cases hbegins
    rw [goNameFrom, htail]
    have hstep := becomes_goNameStep before c cs.head?
    generalize goNameStep before c cs.head? = out at hstep ⊢
    cases hstep with
    | nothing hc hlower =>
      rw [hafter hc] at hlower
      cases hlower
    | mark hc _ =>
      rcases hc with rfl | rfl
      · exact absurd rfl hdot.1
      · rfl
    | start hc hbefore =>
      obtain ⟨hnone, hsome⟩ := hstart (congrArg some hc)
      exact absurd hbefore (not_or.2 ⟨hnone, hsome⟩)
    | capital hlower hbegins =>
      rw [hword hlower] at hbegins
      cases hbegins
    | itself _ _ _ => rfl

theorem goName_eq_self {name : String} (h : IsGoSpelled name) : goName name = name := by
  rw [← String.toList_inj, toList_goName]
  exact goNameFrom_eq_self h.noDot (fun hmark => absurd hmark h.noMark) h.words

theorem goName_goName {name : String} (h : Text.startsWith name "." = false) :
    goName (goName name) = goName name :=
  goName_eq_self (isGoSpelled_goName h)

/-! ## Exported identifiers -/

/-- An identifier that begins with a capital, and so does every word in it that begins with a
letter. -/
structure IsExported (name : String) : Prop where
  begins : (name.toList.head?.any Char.isUpper) = true
  chars : ∀ c ∈ name.toList, Proto.isIdentifierChar c = true
  words : name.toList.IsChain fun a b => a = '_' ∨ a.isDigit = true → b.isLower = false

theorem CapitalWords.isChain {before : Option Char} {cs : List Char} (h : CapitalWords before cs) :
    cs.IsChain fun a b => a = '_' ∨ a.isDigit = true → b.isLower = false := by
  induction cs generalizing before with
  | nil => exact .nil
  | cons a cs ih =>
    refine List.isChain_cons.2 ⟨fun b hb hmark => Bool.eq_false_iff.2 fun hlower => ?_, ih h.2⟩
    cases cs with
    | nil => cases hb
    | cons d ds =>
      obtain rfl : d = b := Option.some.inj hb
      have hbegins : beginsWord (some a) = true := beginsWord_some_iff.2 (.inr hmark)
      rw [h.2.1 hlower] at hbegins
      cases hbegins

section

variable {names : List String}

theorem isIdentifierChar_of_mem_joined (h : ∀ name ∈ names, IsIdentifier name) :
    ∀ c ∈ (".".intercalate names).toList, c ≠ '.' → Proto.isIdentifierChar c = true := by
  induction names with
  | nil => exact fun c hc => absurd hc (by simp)
  | cons name names ih =>
    obtain ⟨hname, hnames⟩ := List.forall_mem_cons.1 h
    cases names with
    | nil => simpa using fun c hc _ => hname.chars c hc
    | cons next names =>
      intro c hc hdot
      rw [String.intercalate_cons_cons, String.toList_append, String.toList_append,
        List.mem_append, List.mem_append] at hc
      rcases hc with (hc | hc) | hc
      · exact hname.chars c hc
      · exact absurd (List.mem_singleton.1 hc) hdot
      · exact ih hnames c hc hdot

/-- Identifiers joined by dots begin as the first of them. -/
theorem exists_first_joined (hne : names ≠ []) (h : ∀ name ∈ names, IsIdentifier name) :
    ∃ c cs, (".".intercalate names).toList = c :: cs ∧ Proto.isIdentifierChar c = true ∧
      c.isDigit = false := by
  obtain ⟨name, rest, rfl⟩ := List.exists_cons_of_ne_nil hne
  obtain ⟨c, cs, hcs, hfirst⟩ := (h name List.mem_cons_self).exists_first
  cases rest with
  | nil => exact ⟨c, cs, by simpa using hcs, hfirst⟩
  | cons next rest =>
    refine ⟨c, cs ++ ".".toList ++ (".".intercalate (next :: rest)).toList, ?_, hfirst⟩
    rw [String.intercalate_cons_cons, String.toList_append, String.toList_append, hcs,
      List.cons_append, List.cons_append]

/-- **Go names of identifiers are exported.** -/
theorem isExported_goName (hne : names ≠ []) (h : ∀ name ∈ names, IsIdentifier name) :
    IsExported (goName (".".intercalate names)) := by
  refine ⟨?_, isIdentifierChar_goName (isIdentifierChar_of_mem_joined h), ?_⟩
  · obtain ⟨c, cs, hcs, hc, hdigit⟩ := exists_first_joined hne h
    obtain ⟨d, hd, hupper⟩ := exists_capital_goName hcs hc hdigit
    rwa [hd, Option.any_some]
  · have hwords : CapitalWords none (goNameFrom none (".".intercalate names).toList) :=
      capitalWords_goNameFrom id _
    rw [← toList_goName] at hwords
    exact hwords.isChain

theorem isExported_goName_nested :
    (["order", "_line", "item2x"] ≠ [] ∧
      ∀ name ∈ ["order", "_line", "item2x"], IsIdentifier name) ∧
    IsExported (goName (".".intercalate ["order", "_line", "item2x"])) ∧
      goName (".".intercalate ["order", "_line", "item2x"]) = "Order_XLineItem2X" := by
  have hnames : ∀ name ∈ ["order", "_line", "item2x"], IsIdentifier name := by decide
  exact ⟨⟨by decide, hnames⟩, isExported_goName (by decide) hnames, by decide +kernel⟩

end

end Naming

/-! ## Renaming again -/

/-- No name of the service or of its methods begins with a dot. -/
structure Service.IsUndotted (s : Service) : Prop where
  name : Text.startsWith s.name "." = false
  methods : ∀ m ∈ s.methods,
    Text.startsWith m.name "." = false ∧ Text.startsWith m.parent "." = false

namespace Go

theorem renameMethod_renameMethod {m : Method} (hname : Text.startsWith m.name "." = false)
    (hparent : Text.startsWith m.parent "." = false) :
    renameMethod (renameMethod m) = renameMethod m := by
  have hnames := Naming.goName_goName hname
  have hparents := Naming.goName_goName hparent
  -- A reference keeps its scoped name, so its Go name is made from the same text.
  simp only [renameMethod, renameRef, hnames, hparents]

theorem renameService_renameService {s : Service} (h : s.IsUndotted) :
    renameService (renameService s) = renameService s := by
  have hmethods : (s.methods.map renameMethod).map renameMethod = s.methods.map renameMethod := by
    rw [List.map_map]
    refine List.map_congr_left fun m hm => ?_
    obtain ⟨hname, hparent⟩ := h.methods m hm
    exact renameMethod_renameMethod hname hparent
  simp only [renameService, Naming.goName_goName h.name, hmethods]

end Go

theorem Target.candidates_renamed {services : List Service} (h : ∀ s ∈ services, s.IsUndotted)
    (suffix : String) :
    go.candidates suffix (services.map Go.renameService) = go.candidates suffix services := by
  have hservices : (services.map Go.renameService).map Go.renameService =
      services.map Go.renameService := by
    rw [List.map_map]
    exact List.map_congr_left fun s hs => Go.renameService_renameService (h s hs)
  show ((services.map Go.renameService).map Go.renameService).filter _ =
    (services.map Go.renameService).filter _
  rw [hservices]

/-- **Renaming again changes nothing.** -/
theorem renaming_settles :
    (∀ name : String, Text.startsWith name "." = false →
      Naming.goName (Naming.goName name) = Naming.goName name) ∧
    (∀ s : Service, s.IsUndotted → Go.renameService (Go.renameService s) = Go.renameService s) ∧
    ∀ (f : SourceFile) (c : Config), (∀ s ∈ f.services, s.IsUndotted) →
      candidateServices { f with services := f.services.map Go.renameService }
          { c with target := "go" } =
        candidateServices f { c with target := "go" } := by
  refine ⟨fun _ => Naming.goName_goName, fun _ => Go.renameService_renameService, ?_⟩
  intro f c h
  show Except.ok (Target.go.candidates c.suffix (f.services.map Go.renameService)) =
    Except.ok (Target.go.candidates c.suffix f.services)
  rw [Target.candidates_renamed h]

/-- A service in snake case. It takes a message whose name begins with an underscore and returns a
nested one. -/
def snakeService : Service where
  name := "order_cache"
  methods := [{
    name := "get_2nd_line"
    parent := "order_cache"
    input := ⟨"shop._key", "_key", "_key", "shop.proto"⟩
    output := ⟨"shop.order.line", "order_line", "order.line", "shop.proto"⟩
    leadingComment := none
    clientStreaming := false
    serverStreaming := true }]
  leadingComment := none

def snakeFile : SourceFile := ⟨"shop.proto", "shop", true, "shop", "shop", "shop", [snakeService]⟩

theorem renaming_settles_snakeFile :
    Text.startsWith "get_2nd_line" "." = false ∧ (∀ s ∈ snakeFile.services, s.IsUndotted) ∧
    Naming.goName (Naming.goName "get_2nd_line") = Naming.goName "get_2nd_line" ∧
    Go.renameService (Go.renameService snakeService) = Go.renameService snakeService ∧
    candidateServices { snakeFile with services := snakeFile.services.map Go.renameService }
        { target := "go" } =
      candidateServices snakeFile { target := "go" } ∧
    (candidateServices snakeFile { target := "go" }).map
        (·.flatMap fun s => s.name :: s.methods.map Method.name) =
      .ok ["OrderCache", "Get_2NdLine"] := by
  have hname : Text.startsWith "get_2nd_line" "." = false := by decide
  have hservice : snakeService.IsUndotted := ⟨by decide, by decide⟩
  have hservices : ∀ s ∈ snakeFile.services, s.IsUndotted := by
    intro s hs
    rw [List.mem_singleton.1 hs]
    exact hservice
  exact ⟨hname, hservices, renaming_settles.1 _ hname, renaming_settles.2.1 _ hservice,
    renaming_settles.2.2 snakeFile {} hservices, by decide +kernel⟩

/-- The first character of `.Order` becomes an underscore, which a second time is an `X`. -/
example : Naming.goName ".Order" = "_Order" ∧ Naming.goName "_Order" = "XOrder" := by decide +kernel

end CacheGen
