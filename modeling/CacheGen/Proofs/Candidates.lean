import CacheGen.Proofs.GoSpelling

/-!
# Candidates by the names in the source

Whether a service takes part is decided on its Go name where Go is the target. For a suffix such as
`Cache`, a capital followed by lower-case letters, the name in the source tells it as well. Letters
in lower case at the end of a Go name are those at the end of the source, and the capital in front
of them stands there too: as it is, or in lower case where a word begins.

**Theorem (`candidates_exact`).** For Go, the candidates among services called by identifiers are
those whose name ends with the suffix, is the suffix in lower case, or ends with that behind an
underscore or a digit; for TypeScript, those whose name ends with the suffix.
-/

namespace CacheGen

namespace Naming

/-! ## Words at the end of a Go name -/

/-- A capital followed by at least one letter, all of them in lower case. -/
structure IsCapitalWord (word : String) : Prop where
  capital : (word.toList.head?.any Char.isUpper) = true
  small : ∀ c ∈ word.toList.tail, c.isLower = true
  letters : word.toList.tail ≠ []

instance (word : String) : Decidable (IsCapitalWord word) :=
  decidable_of_iff ((word.toList.head?.any Char.isUpper) = true ∧
      word.toList.tail.all Char.isLower = true ∧ word.toList.tail ≠ [])
    ⟨fun ⟨h, h', h''⟩ => ⟨h, List.all_eq_true.1 h', h''⟩,
      fun ⟨h, h', h''⟩ => ⟨h, List.all_eq_true.2 h', h''⟩⟩

/-- A Go name in lower-case letters was made from the same letters, and the first of them did not
begin a word. -/
theorem goNameFrom_eq_lower_iff {before : Option Char} {cs ls : List Char}
    (hls : ∀ c ∈ ls, isLowerLetter c = true) :
    goNameFrom before cs = ls ↔ cs = ls ∧ (ls ≠ [] → beginsWord before = false) := by
  induction cs generalizing before ls with
  | nil => exact ⟨fun h => ⟨h, fun hne => absurd h.symm hne⟩, fun h => h.1⟩
  | cons c cs ih =>
    have hfirst : c :: cs = ls ∧ (ls ≠ [] → beginsWord before = false) →
        isLowerLetter c = true ∧ beginsWord before = false := by
      rintro ⟨rfl, hbegins⟩
      exact ⟨hls c List.mem_cons_self, hbegins nofun⟩
    rw [goNameFrom]
    have hstep := becomes_goNameStep before c cs.head?
    generalize goNameStep before c cs.head? = out at hstep ⊢
    cases hstep with
    | nothing hc hafter =>
      refine iff_of_false (fun h => ?_) fun h => ?_
      · -- The letter that made the mark vanish begins a word.
        obtain ⟨rfl, hbegins⟩ := (ih hls).1 h
        have hne : cs ≠ [] := by
          rintro rfl
          cases hafter
        rw [beginsWord_of_mark hc] at hbegins
        cases hbegins hne
      · rcases hc with rfl | rfl <;> cases (hfirst h).1
    | mark hc _ =>
      refine iff_of_false (fun h => ?_) fun h => ?_
      · cases hls '_' (h ▸ List.mem_cons_self)
      · rcases hc with rfl | rfl <;> cases (hfirst h).1
    | start hc _ =>
      refine iff_of_false (fun h => ?_) fun h => ?_
      · cases hls 'X' (h ▸ List.mem_cons_self)
      · rcases hc with rfl
        cases (hfirst h).1
    | capital hlower hbegins =>
      refine iff_of_false (fun h => ?_) fun h => ?_
      · have hcapital := hls c.toUpper (h ▸ List.mem_cons_self)
        rw [(toLower_spec (toUpper_spec hlower).1).2.2.1] at hcapital
        cases hcapital
      · rw [(hfirst h).2] at hbegins
        cases hbegins
    | itself _ _ hword =>
      constructor
      · rintro rfl
        obtain ⟨hlower, hrest⟩ := List.forall_mem_cons.1 hls
        obtain ⟨hcs, -⟩ := (ih hrest).1 rfl
        exact ⟨congrArg (c :: ·) hcs, fun _ => hword hlower⟩
      · rintro ⟨rfl, -⟩
        obtain ⟨hlower, hrest⟩ := List.forall_mem_cons.1 hls
        have hcs := (ih hrest).2 ⟨rfl, fun _ => (toUpper_spec hlower).2.2⟩
        exact congrArg (c :: ·) hcs

section

variable {u : Char} {ls : List Char} (hu : u.isUpper = true)
  (hls : ∀ c ∈ ls, isLowerLetter c = true) (hne : ls ≠ [])

include hu hls hne

/-- A capital word that begins at `c`. -/
theorem goName_word_iff {before : Option Char} {c : Char} {cs : List Char} :
    goNameStep before c cs.head? = [u] ∧ goNameFrom (some c) cs = ls ↔
      c :: cs = u :: ls ∨ c :: cs = u.toLower :: ls ∧ beginsWord before = true := by
  rw [goNameFrom_eq_lower_iff hls]
  constructor
  · rintro ⟨hstep, rfl, hword⟩
    rw [goNameStep_inside (hword hne), List.singleton_inj] at hstep
    split_ifs at hstep with hcapital
    · refine .inr ⟨?_, hcapital.2⟩
      rw [← hstep, (toUpper_spec hcapital.1).2.1]
    · exact .inl (by rw [hstep])
  · obtain ⟨hlower, hupper, hsmall, hword⟩ := toLower_spec hu
    rintro (h | ⟨h, hbegins⟩)
    · obtain ⟨rfl, rfl⟩ := List.cons.inj h
      rw [goNameStep_inside hword, if_neg (by simp [hsmall])]
      exact ⟨rfl, rfl, fun _ => hword⟩
    · obtain ⟨rfl, rfl⟩ := List.cons.inj h
      have hword' := (toUpper_spec hlower).2.2
      rw [goNameStep_inside hword', if_pos ⟨hlower, hbegins⟩, hupper]
      exact ⟨rfl, rfl, fun _ => hword'⟩

/-- A capital word at the end. -/
theorem suffix_goNameFrom_iff {before : Option Char} {cs : List Char} :
    u :: ls <:+ goNameFrom before cs ↔
      u :: ls <:+ cs ∨ cs = u.toLower :: ls ∧ beginsWord before = true ∨
        ∃ p, beginsWord (some p) = true ∧ p :: u.toLower :: ls <:+ cs := by
  induction cs generalizing before with
  | nil => simp [goNameFrom]
  | cons c cs ih =>
    -- The word is at the end of what the rest becomes, or it begins here.
    have hhere : u :: ls <:+ goNameFrom before (c :: cs) ↔
        (goNameStep before c cs.head? = [u] ∧ goNameFrom (some c) cs = ls) ∨
          u :: ls <:+ goNameFrom (some c) cs := by
      rw [goNameFrom]
      have hstep := becomes_goNameStep before c cs.head?
      generalize goNameStep before c cs.head? = out at hstep ⊢
      cases hstep with
      | nothing => simp
      | _ => simp [List.suffix_cons_iff, eq_comm]
    have hbehind : (∃ p, beginsWord (some p) = true ∧ p :: u.toLower :: ls <:+ c :: cs) ↔
        (cs = u.toLower :: ls ∧ beginsWord (some c) = true) ∨
          ∃ p, beginsWord (some p) = true ∧ p :: u.toLower :: ls <:+ cs := by
      simp only [List.suffix_cons_iff, List.cons.injEq]
      constructor
      · rintro ⟨p, hp, ⟨rfl, rfl⟩ | hend⟩
        · exact .inl ⟨rfl, hp⟩
        · exact .inr ⟨p, hp, hend⟩
      · rintro (⟨rfl, hc⟩ | ⟨p, hp, hend⟩)
        · exact ⟨c, hc, .inl ⟨rfl, rfl⟩⟩
        · exact ⟨p, hp, .inr hend⟩
    rw [hhere, goName_word_iff hu hls hne, ih, hbehind, List.suffix_cons_iff,
      eq_comm (a := u :: ls)]
    exact or_or_or_comm

end

/-! ## Names -/

theorem IsCapitalWord.exists_cons {word : String} (h : IsCapitalWord word) :
    ∃ u ls, word.toList = u :: ls ∧ word.toLower.toList = u.toLower :: ls ∧ u.isUpper = true ∧
      (∀ c ∈ ls, isLowerLetter c = true) ∧ ls ≠ [] := by
  obtain ⟨hcapital, hsmall, hletters⟩ := h
  cases hword : word.toList with
  | nil =>
    rw [hword] at hcapital
    cases hcapital
  | cons u ls =>
    rw [hword] at hcapital hsmall hletters
    have hlower : ls.map Char.toLower = ls.map id :=
      List.map_congr_left fun c hc => toLower_of_isLowerLetter (hsmall c hc)
    refine ⟨u, ls, rfl, ?_, hcapital, hsmall, hletters⟩
    show (word.map Char.toLower).toList = u.toLower :: ls
    rw [String.toList_map, hword, List.map_cons, hlower, List.map_id]

theorem endsWith_goName_iff {name word : String} (h : IsCapitalWord word) :
    Text.endsWith (goName name) word = true ↔
      Text.endsWith name word = true ∨ name = word.toLower ∨
        ∃ p, beginsWord (some p) = true ∧
          Text.endsWith name (String.singleton p ++ word.toLower) = true := by
  obtain ⟨u, ls, hword, hlower, hu, hls, hne⟩ := h.exists_cons
  have hwhole : name = word.toLower ↔ name.toList = u.toLower :: ls ∧ beginsWord none = true := by
    rw [← String.toList_inj, hlower]
    exact (and_iff_left rfl).symm
  simp only [Text.endsWith_iff, toList_goName, String.toList_append, String.toList_singleton,
    List.singleton_append, hword, hlower, hwhole]
  exact suffix_goNameFrom_iff hu hls hne

/-- An identifier has no dot that a word could begin behind. -/
theorem IsIdentifier.endsWith_goName_iff {name word : String} (hname : IsIdentifier name)
    (hword : IsCapitalWord word) :
    Text.endsWith (goName name) word = true ↔
      Text.endsWith name word = true ∨ name = word.toLower ∨
        ∃ p, (p = '_' ∨ p.isDigit = true) ∧
          Text.endsWith name (String.singleton p ++ word.toLower) = true := by
  have hdot : ¬ Text.endsWith name (String.singleton '.' ++ word.toLower) = true := by
    intro hend
    have hmem : '.' ∈ name.toList := (Text.endsWith_iff.1 hend).subset (by simp)
    cases hname.chars '.' hmem
  rw [Naming.endsWith_goName_iff hword]
  refine or_congr_right (or_congr_right (exists_congr fun p => and_congr_left fun hend => ?_))
  rw [beginsWord_some_iff]
  exact or_iff_right fun hp => hdot (hp ▸ hend)

end Naming

/-! ## Candidates -/

/-- The service takes part where `t` is the target. -/
def Target.selects (t : Target) (suffix : String) (s : Service) : Bool :=
  (t.renameService s).isCandidate suffix

theorem Target.candidates_eq (t : Target) (suffix : String) (services : List Service) :
    t.candidates suffix services = (services.filter (t.selects suffix)).map t.renameService :=
  List.filter_map

/-- **The candidates by their names in the source.** -/
theorem candidates_exact (f : SourceFile) {c : Config} (hsuffix : Naming.IsCapitalWord c.suffix) :
    candidateServices f { c with target := "go" } =
        .ok ((f.services.filter (Target.go.selects c.suffix)).map Go.renameService) ∧
    candidateServices f { c with target := "ts" } =
        .ok (f.services.filter (Target.typeScript.selects c.suffix)) ∧
    ∀ s : Service, Naming.IsIdentifier s.name →
      (Target.go.selects c.suffix s = true ↔
        Text.endsWith s.name c.suffix = true ∨ s.name = c.suffix.toLower ∨
          ∃ p, (p = '_' ∨ p.isDigit = true) ∧
            Text.endsWith s.name (String.singleton p ++ c.suffix.toLower) = true) ∧
      (Target.typeScript.selects c.suffix s = true ↔ Text.endsWith s.name c.suffix = true) ∧
      (Target.typeScript.selects c.suffix s = true → Target.go.selects c.suffix s = true) := by
  have hgo := Target.go.candidates_eq c.suffix f.services
  refine ⟨congrArg Except.ok hgo, ?_, fun s hs => ?_⟩
  · have hts := Target.typeScript.candidates_eq c.suffix f.services
    exact congrArg Except.ok (hts.trans (List.map_id _))
  · have hgo := hs.endsWith_goName_iff hsuffix
    exact ⟨hgo, Iff.rfl, fun hend => hgo.2 (.inl hend)⟩

def cachesFile : SourceFile :=
  let names := ["OrderCache", "order_cache", "v2cache", "cache", "ordercache", "Cache_order"]
  ⟨"shop.proto", "shop", true, "shop", "shop", "shop", names.map fun name => ⟨name, [], none⟩⟩

theorem candidates_exact_cachesFile :
    Naming.IsCapitalWord "Cache" ∧ (∀ s ∈ cachesFile.services, Naming.IsIdentifier s.name) ∧
    candidateServices cachesFile { target := "go" } =
      .ok ((cachesFile.services.filter (Target.go.selects "Cache")).map Go.renameService) ∧
    (∀ s ∈ cachesFile.services,
      Target.typeScript.selects "Cache" s = true → Target.go.selects "Cache" s = true) ∧
    (candidateServices cachesFile { target := "go" }).map (·.map Service.name) =
      .ok ["OrderCache", "OrderCache", "V2Cache", "Cache"] ∧
    (candidateServices cachesFile { target := "ts" }).map (·.map Service.name) =
      .ok ["OrderCache"] := by
  have hsuffix : Naming.IsCapitalWord ({} : Config).suffix := by decide
  have hnames : ∀ s ∈ cachesFile.services, Naming.IsIdentifier s.name := by decide
  obtain ⟨hgo, -, hselects⟩ := candidates_exact cachesFile hsuffix
  exact ⟨hsuffix, hnames, hgo, fun s hs => (hselects s (hnames s hs)).2.2, by decide +kernel,
    by decide +kernel⟩

end CacheGen
