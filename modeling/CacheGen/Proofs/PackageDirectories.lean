import CacheGen.Proofs.TidyPaths
import CacheGen.Target

/-!
# Directories of Go packages

The shortest spelling of a path is made of the pieces of its *route*: the names that a walk along it
comes to, behind an empty piece if the path is absolute. Two paths have one shortest spelling, but for
a slash at the end, exactly when they have one route (`settled_eq`, `spellRoute_injective`).

Under import paths the output for a file is one more name behind the route of its import path. What is
stripped as a module are pieces from the front of the route, the same for all files. So the directory
of an output tells the route of the import path.

**Theorem (`same_directory_iff`).** Two outputs are in one directory exactly when the import paths of
their files have one shortest spelling, but for a slash at the end.
-/

namespace CacheGen

/-! ## Routes -/

theorem kept_of_mem_walk {climbs : Bool} {start names : List String}
    (h : ∀ name ∈ start, name ≠ "" ∧ name ≠ ".") :
    ∀ name ∈ walk climbs start names, name ≠ "" ∧ name ≠ "." := by
  induction names generalizing start with
  | nil => exact h
  | cons name names ih =>
    refine ih fun n hn => ?_
    by_cases hskip : name = "" ∨ name = "."
    · rw [stepName, if_pos hskip] at hn
      exact h n hn
    · rcases List.mem_append.1 (stepName_subset climbs start name hn) with hwalked | hlast
      · exact h n hwalked
      · rw [List.mem_singleton.1 hlast]
        exact not_or.1 hskip

namespace Path

/-- The pieces that the shortest spelling of `p` is made of. -/
def route (p : String) : List String :=
  (if isAbsolute p then [""] else []) ++ walk (!isAbsolute p) [] (Text.pieces '/' p)

/-- The text for the directory with this route. -/
def spellRoute (pieces : List String) : String :=
  if pieces = [] then "." else if pieces = [""] then "/" else "/".intercalate pieces

/-- Pieces of which no other spelling is shorter: only the first may be empty, and none is a dot. -/
structure IsRoute (pieces : List String) : Prop where
  named : ∀ piece ∈ pieces.tail, piece ≠ ""
  noDot : "." ∉ pieces
  noSlash : ∀ piece ∈ pieces, '/' ∉ piece.toList

theorem isRoute_route (p : String) : IsRoute (route p) := by
  have hkept : ∀ name ∈ walk (!isAbsolute p) [] (Text.pieces '/' p), name ≠ "" ∧ name ≠ "." :=
    kept_of_mem_walk fun _ h => absurd h List.not_mem_nil
  have hslash : ∀ name ∈ walk (!isAbsolute p) [] (Text.pieces '/' p), '/' ∉ name.toList := by
    intro name hname
    exact Text.not_mem_of_mem_pieces (walk_subset _ [] _ hname)
  unfold route
  generalize walk (!isAbsolute p) [] (Text.pieces '/' p) = names at hkept hslash ⊢
  cases isAbsolute p with
  | false =>
    refine ⟨fun name hname => ?_, fun hdot => (hkept _ hdot).2 rfl, hslash⟩
    exact (hkept name (List.mem_of_mem_tail hname)).1
  | true =>
    refine ⟨fun name hname => (hkept name hname).1, fun hdot => ?_, fun name hname => ?_⟩
    · rcases List.mem_cons.1 hdot with heq | hdot
      · exact absurd heq (by decide)
      · exact (hkept _ hdot).2 rfl
    · rcases List.mem_cons.1 hname with rfl | hname
      · exact List.not_mem_nil
      · exact hslash name hname

/-- A route can be read off the text for its directory. -/
theorem pieces_spellRoute {pieces : List String} (h : IsRoute pieces) (hnil : pieces ≠ [])
    (hroot : pieces ≠ [""]) : Text.pieces '/' (spellRoute pieces) = pieces := by
  rw [spellRoute, if_neg hnil, if_neg hroot]
  exact Text.pieces_intercalate hnil h.noSlash

theorem spellRoute_injective {as bs : List String} (ha : IsRoute as) (hb : IsRoute bs)
    (h : spellRoute as = spellRoute bs) : as = bs := by
  -- The texts for no piece and for the root alone are cut into what is no route.
  have hdot : ∀ {pieces}, IsRoute pieces → spellRoute pieces = "." → pieces = [] := by
    intro pieces hpieces htext
    by_contra hnil
    by_cases hroot : pieces = [""]
    · rw [hroot] at htext
      exact absurd htext (by decide)
    · have hback := pieces_spellRoute hpieces hnil hroot
      rw [htext] at hback
      exact hpieces.noDot (hback ▸ (by decide))
  have hslash : ∀ {pieces}, IsRoute pieces → spellRoute pieces = "/" → pieces = [""] := by
    intro pieces hpieces htext
    by_contra hroot
    by_cases hnil : pieces = []
    · rw [hnil] at htext
      exact absurd htext (by decide)
    · have hback := pieces_spellRoute hpieces hnil hroot
      rw [htext] at hback
      exact hpieces.named "" (hback ▸ (by decide)) rfl
  by_cases hnil : as = []
  · rw [hnil, hdot hb (by rw [← h, hnil]; rfl)]
  by_cases hroot : as = [""]
  · rw [hroot, hslash hb (by rw [← h, hroot]; rfl)]
  by_cases hnil' : bs = []
  · exact absurd (hdot ha (by rw [h, hnil']; rfl)) hnil
  by_cases hroot' : bs = [""]
  · exact absurd (hslash ha (by rw [h, hroot']; rfl)) hroot
  rw [← pieces_spellRoute ha hnil hroot, h, pieces_spellRoute hb hnil' hroot']

theorem spellRoute_ne_empty {pieces : List String} (h : IsRoute pieces) : spellRoute pieces ≠ "" := by
  by_cases hnil : pieces = []
  · rw [hnil]
    decide
  · by_cases hroot : pieces = [""]
    · rw [hroot]
      decide
    · intro hempty
      have hback := pieces_spellRoute h hnil hroot
      rw [hempty] at hback
      exact hroot hback.symm

/-! ## Shortest spellings -/

theorem IsRoute.left {front rest : List String} (h : IsRoute (front ++ rest)) : IsRoute front := by
  refine ⟨fun piece hpiece => ?_, fun hdot => h.noDot (List.mem_append_left _ hdot),
    fun piece hpiece => h.noSlash piece (List.mem_append_left _ hpiece)⟩
  have hne : front ≠ [] := by
    rintro rfl
    exact List.not_mem_nil hpiece
  refine h.named piece ?_
  rw [List.tail_append_of_ne_nil hne]
  exact List.mem_append_left _ hpiece

theorem IsRoute.right {front rest : List String} (h : IsRoute (front ++ rest))
    (hfront : front ≠ []) : (∀ piece ∈ rest, piece ≠ "") ∧ IsRoute rest := by
  obtain ⟨first, front, rfl⟩ := List.exists_cons_of_ne_nil hfront
  have hnamed : ∀ piece ∈ rest, piece ≠ "" := fun piece hpiece =>
    h.named piece (List.mem_append_right front hpiece)
  refine ⟨hnamed, fun piece hpiece => hnamed piece (List.mem_of_mem_tail hpiece), ?_, ?_⟩
  · exact fun hdot => h.noDot (List.mem_append_right _ hdot)
  · exact fun piece hpiece => h.noSlash piece (List.mem_append_right _ hpiece)

theorem IsRoute.concat {pieces : List String} (h : IsRoute pieces) {name : String}
    (hempty : name ≠ "") (hdot : name ≠ ".") (hslash : '/' ∉ name.toList) :
    IsRoute (pieces ++ [name]) := by
  refine ⟨fun piece hpiece => ?_, fun hmem => ?_, fun piece hpiece => ?_⟩
  · cases pieces with
    | nil => exact absurd hpiece List.not_mem_nil
    | cons first rest =>
      rcases List.mem_append.1 hpiece with hrest | hlast
      · exact h.named piece hrest
      · rwa [List.mem_singleton.1 hlast]
  · rcases List.mem_append.1 hmem with hmem | hlast
    · exact h.noDot hmem
    · exact hdot (List.mem_singleton.1 hlast).symm
  · rcases List.mem_append.1 hpiece with hpiece | hlast
    · exact h.noSlash piece hpiece
    · rwa [List.mem_singleton.1 hlast]

theorem getLast?_spellRoute {pieces : List String} (h : IsRoute pieces) (hroot : pieces ≠ [""]) :
    (spellRoute pieces).toList.getLast? ≠ some '/' := by
  rcases List.eq_nil_or_concat pieces with rfl | ⟨init, name, rfl⟩
  · decide
  · rw [List.concat_eq_append] at h hroot ⊢
    have hname : name ≠ "" := by
      by_cases hinit : init = []
      · rintro rfl
        exact hroot (by rw [hinit]; rfl)
      · exact (h.right hinit).1 name List.mem_cons_self
    rw [spellRoute, if_neg (by simp), if_neg hroot, toList_joined_concat,
      List.getLast?_append_of_ne_nil _ (by simpa using hname)]
    exact fun hlast => h.noSlash name (by simp) (List.mem_of_getLast? hlast)

theorem normalize_eq (p : String) :
    normalize p = spellRoute (route p) ++
      if route p ≠ [""] ∧ p.toList.getLast? = some '/' then "/" else "" := by
  have hnames : ∀ name ∈ walk (!isAbsolute p) [] (Text.pieces '/' p),
      name ≠ "" ∧ '/' ∉ name.toList := by
    intro name hname
    exact ⟨(kept_of_mem_walk (fun _ h => absurd h List.not_mem_nil) name hname).1,
      Text.not_mem_of_mem_pieces (walk_subset _ [] _ hname)⟩
  unfold normalize route
  generalize walk (!isAbsolute p) [] (Text.pieces '/' p) = names at hnames ⊢
  have hempty : "" ∉ names := fun h => (hnames "" h).1 rfl
  by_cases hnil : names = []
  · subst hnil
    cases isAbsolute p <;> by_cases hlast : p.toList.getLast? = some '/' <;>
      simp [hlast, spellRoute]
  · have hbody := joined_ne_empty hnames hnil
    cases isAbsolute p with
    | false =>
      have hroot : names ≠ [""] := by
        rintro rfl
        exact hempty List.mem_cons_self
      by_cases hlast : p.toList.getLast? = some '/' <;>
        simp [hlast, spellRoute, hnil, hbody, hroot]
    | true =>
      have htext : "/".intercalate ("" :: names) = "/" ++ "/".intercalate names := by
        rw [String.intercalate_cons_of_ne_nil hnil, String.empty_append]
      by_cases hlast : p.toList.getLast? = some '/' <;>
        simp [hlast, spellRoute, hnil, hbody, htext]

/-- `p` without a slash at its end. The root is a slash and keeps it. -/
def withoutSlash (p : String) : String := if p = "/" then p else (Text.dropEnd? "/" p).getD p

theorem withoutSlash_append {p : String} (h : p ≠ "") : withoutSlash (p ++ "/") = p := by
  have hroot : p ++ "/" ≠ "/" := by
    intro heq
    have hlength := congrArg String.length heq
    simp [String.length_append, h] at hlength
  rw [withoutSlash, if_neg hroot, Text.dropEnd?_eq_some.2 rfl, Option.getD_some]

theorem withoutSlash_eq_self {p : String} (h : p.toList.getLast? ≠ some '/') :
    withoutSlash p = p := by
  unfold withoutSlash
  split
  · rfl
  · cases hdrop : Text.dropEnd? "/" p with
    | none => rfl
    | some rest =>
      rw [Text.dropEnd?_eq_some.1 hdrop] at h
      simp at h

/-- The shortest spelling of `p`, without a slash at its end. -/
def settled (p : String) : String := withoutSlash (normalize p)

theorem settled_eq (p : String) : settled p = spellRoute (route p) := by
  have hroute := isRoute_route p
  rw [settled, normalize_eq]
  by_cases hroot : route p = [""]
  · rw [if_neg fun h => h.1 hroot, hroot]
    decide
  · by_cases hslash : p.toList.getLast? = some '/'
    · rw [if_pos ⟨hroot, hslash⟩, withoutSlash_append (spellRoute_ne_empty hroute)]
    · rw [if_neg fun h => hslash h.2, String.append_empty,
        withoutSlash_eq_self (getLast?_spellRoute hroute hroot)]

/-! ## Names in a directory -/

theorem dirname_spellRoute {pieces : List String} {name : String}
    (h : IsRoute (pieces ++ [name])) (hname : name ≠ "") :
    dirname ("/".intercalate (pieces ++ [name])) = spellRoute pieces := by
  have hslash : '/' ∉ name.toList := h.noSlash name (List.mem_append_right _ List.mem_cons_self)
  have hfront := dropName_eq (p := "/".intercalate (pieces ++ [name]))
    (if pieces = [] then [] else ("/".intercalate pieces).toList ++ ['/']) name.toList []
    (by rw [toList_joined_concat, List.append_nil]) (by simp) hslash (by simpa using hname)
    (by split <;> simp)
  unfold dirname
  rw [hfront]
  by_cases hnil : pieces = []
  · have hrel : isAbsolute ("/".intercalate (pieces ++ [name])) = false := by
      rw [hnil]
      exact isAbsolute_joined (by simpa using ⟨hname, hslash⟩)
    simp only [if_pos hnil, hrel]
    rw [hnil]
    rfl
  · simp only [if_neg hnil]
    by_cases hroot : pieces = [""]
    · rw [hroot]
      rfl
    · have hlast := getLast?_spellRoute h.left hroot
      have hne := spellRoute_ne_empty h.left
      rw [spellRoute, if_neg hnil, if_neg hroot] at hlast hne ⊢
      generalize "/".intercalate pieces = text at hlast hne ⊢
      -- The text in front is neither empty nor a slash, so one slash is cut from behind it.
      split
      · next heq => simp at heq
      · next heq =>
        have htext : text.toList = [] :=
          List.append_cancel_right (heq : text.toList ++ ['/'] = [] ++ ['/'])
        exact absurd (String.toList_eq_nil_iff.1 htext) hne
      · next heq =>
        have htext : text.toList = ['/'] :=
          List.append_cancel_right (heq : text.toList ++ ['/'] = ['/'] ++ ['/'])
        exact absurd (by rw [htext]; rfl) hlast
      · rw [List.dropLast_concat, String.ofList_toList]

/-- A name below a path is one more piece of its route. -/
theorem join_eq {p name : String} (hname : name ∉ ["", ".", ".."]) (hslash : '/' ∉ name.toList) :
    join [p, name] = "/".intercalate (route p ++ [name]) := by
  obtain ⟨hempty, hdot, hup⟩ : name ≠ "" ∧ name ≠ "." ∧ name ≠ ".." := by simpa using hname
  have hstep : ∀ climbs walked, walk climbs walked [name] = walked ++ [name] := by
    intro climbs walked
    exact walk_plain (by simpa using ⟨hempty, hdot, hup⟩) walked
  have hsingle : ∀ n ∈ [name], n ≠ "" ∧ '/' ∉ n.toList := by simpa using ⟨hempty, hslash⟩
  have hpieces : Text.pieces '/' name = [name] := by
    simpa using pieces_joined hsingle (List.cons_ne_nil _ _)
  have hrel : isAbsolute name = false := by
    simpa using isAbsolute_joined hsingle
  have hlast : name.toList.getLast? ≠ some '/' := fun h => hslash (List.mem_of_getLast? h)
  obtain ⟨q, hjoin, hroute, hend⟩ : ∃ q, join [p, name] = normalize q ∧
      route q = route p ++ [name] ∧ q.toList.getLast? = name.toList.getLast? := by
    by_cases hp : p = ""
    · refine ⟨name, by simp [join, hp, hempty], ?_, rfl⟩
      unfold route
      rw [hpieces, hstep, hrel, hp]
      rfl
    · refine ⟨p ++ "/" ++ name, by simp [join, hp, hempty], ?_, ?_⟩
      · have hall : Text.pieces '/' (p ++ "/" ++ name) = Text.pieces '/' p ++ [name] := by
          rw [← hpieces]
          exact Text.pieces_append_mark '/' p name
        unfold route
        rw [hall, String.append_assoc, isAbsolute_append_left hp, walk_append, hstep,
          List.append_assoc]
      · rw [String.toList_append, List.getLast?_append_of_ne_nil _ (by simpa using hempty)]
  have hroot : route p ++ [name] ≠ [""] := by
    intro heq
    have hlasts := congrArg List.getLast? heq
    rw [List.getLast?_concat] at hlasts
    exact hempty (Option.some.inj hlasts)
  rw [hjoin, normalize_eq, hroute, hend, if_neg fun h => hlast h.2, String.append_empty, spellRoute,
    if_neg (by simp), if_neg hroot]

theorem slash_not_mem_basename (p : String) : '/' ∉ (basename p).toList := by
  intro h
  rw [basename, String.toList_ofList, List.mem_reverse] at h
  simpa using List.mem_takeWhile_imp h

end Path

/-! ## Outputs below a module -/

/-- The pieces that are stripped from the front of the routes of outputs. -/
def Config.moduleRoute (c : Config) : List String :=
  if c.goModule = "" then [] else Text.pieces '/' c.goModule

namespace Go

open CacheGen.Path (route settled spellRoute)

variable {f g : SourceFile} {c : Config} {a b : String}

/-- The name of the output for `f` in its directory. -/
def lastName (f : SourceFile) : String := Path.basename f.stem ++ "_cache_manager.pb.go"

theorem slash_not_mem_lastName (f : SourceFile) : '/' ∉ (lastName f).toList := by
  rw [lastName, String.toList_append, List.mem_append]
  rintro (h | h)
  · exact Path.slash_not_mem_basename f.stem h
  · exact absurd h (by decide)

theorem lastName_ne {short : String} (h : short.length ≤ 2) (f : SourceFile) :
    lastName f ≠ short := by
  have hending : "_cache_manager.pb.go".length = 20 := by decide
  rintro rfl
  rw [lastName, String.length_append, hending] at h
  omega

theorem pieces_lastName {pieces : List String} (h : Path.IsRoute pieces) (f : SourceFile) :
    Text.pieces '/' ("/".intercalate (pieces ++ [lastName f])) = pieces ++ [lastName f] := by
  refine Text.pieces_intercalate (List.concat_ne_nil _ _) fun piece hpiece => ?_
  rcases List.mem_append.1 hpiece with hpiece | hlast
  · exact h.noSlash piece hpiece
  · rw [List.mem_singleton.1 hlast]
    exact slash_not_mem_lastName f

theorem dirname_lastName {pieces : List String} (h : Path.IsRoute pieces) (f : SourceFile) :
    Path.dirname ("/".intercalate (pieces ++ [lastName f])) = spellRoute pieces := by
  have hempty : lastName f ≠ "" := lastName_ne (by decide) f
  have hdot : lastName f ≠ "." := lastName_ne (by decide) f
  exact Path.dirname_spellRoute (h.concat hempty hdot (slash_not_mem_lastName f)) hempty

theorem plainFileName_eq (hname : Path.basename f.stem ∉ ["", ".", ".."]) :
    plainFileName f .importPath = "/".intercalate (route f.goImportPath ++ [lastName f]) := by
  rw [plainFileName, Path.join_eq hname (Path.slash_not_mem_basename f.stem), lastName,
    ← String.toList_inj, String.toList_append, Path.toList_joined_concat,
    Path.toList_joined_concat, String.toList_append, List.append_assoc]

/-- What is left of the route of the import path, with a name behind it, is the output. -/
theorem exists_rest (hlayout : c.goLayout = .importPath)
    (hname : Path.basename f.stem ∉ ["", ".", ".."]) (h : fileName f c = .ok a) :
    ∃ rest, route f.goImportPath = c.moduleRoute ++ rest ∧ Path.IsRoute rest ∧
      a = "/".intercalate (rest ++ [lastName f]) := by
  have hroute := Path.isRoute_route f.goImportPath
  unfold fileName at h
  rw [hlayout, plainFileName_eq hname] at h
  unfold Config.moduleRoute
  by_cases hmodule : c.goModule = ""
  · rw [if_pos (.inl hmodule)] at h
    rw [if_pos hmodule]
    exact ⟨route f.goImportPath, rfl, hroute, (Except.ok.inj h).symm⟩
  · rw [if_neg (by simpa using hmodule)] at h
    rw [if_neg hmodule]
    split at h
    · next hdrop =>
      cases h
      have hwhole := pieces_lastName hroute f
      rw [Text.dropStart?_eq_some.1 hdrop] at hwhole
      -- What is stripped ends with a slash, so both texts are cut at the same places.
      have hcut : Text.pieces '/' c.goModule ++ Text.pieces '/' a =
          route f.goImportPath ++ [lastName f] := by
        rw [← hwhole]
        exact (Text.pieces_append_mark '/' c.goModule a).symm
      obtain ⟨rest, last, hpieces⟩ : ∃ rest last, Text.pieces '/' a = rest ++ [last] :=
        ⟨_, _, Path.pieces_eq a⟩
      rw [hpieces, ← List.append_assoc] at hcut
      obtain ⟨hfront, hlast⟩ := List.append_inj' hcut rfl
      rw [← hfront] at hroute
      have hrest := (hroute.right (by simp [Text.pieces])).2
      refine ⟨rest, hfront.symm, hrest, Path.pieces_injective ?_⟩
      rw [pieces_lastName hrest, hpieces, hlast]
    · cases h

theorem fileName_withoutModule (hlayout : c.goLayout = .importPath) (hmodule : c.goModule ≠ "")
    (h : fileName f c = .ok a) :
    fileName f { c with goModule := "" } = .ok (c.goModule ++ "/" ++ a) := by
  unfold fileName at h ⊢
  rw [if_pos (.inl rfl)]
  rw [hlayout] at h ⊢
  rw [if_neg (by simpa using hmodule)] at h
  split at h
  · next rest hdrop =>
    cases h
    exact congrArg Except.ok (Text.dropStart?_eq_some.1 hdrop)
  · cases h

/-- **Directories of Go packages.** Under import paths, the outputs for two files with a base name are
in one directory exactly when the import paths have one shortest spelling, but for a slash at the end.
A module that was stripped from an output is what its name lacks: with it in front, the name is the one
that there is without a module. -/
theorem same_directory_iff (hlayout : c.goLayout = .importPath)
    (hf : Path.basename f.stem ∉ ["", ".", ".."]) (hg : Path.basename g.stem ∉ ["", ".", ".."])
    (ha : Target.go.fileName f c = .ok a) (hb : Target.go.fileName g c = .ok b) :
    (Path.dirname a = Path.dirname b ↔ settled f.goImportPath = settled g.goImportPath) ∧
      (c.goModule ≠ "" →
        Target.go.fileName f { c with goModule := "" } = .ok (c.goModule ++ "/" ++ a)) := by
  obtain ⟨rest, hrest, hroute, rfl⟩ := exists_rest hlayout hf ha
  obtain ⟨rest', hrest', hroute', rfl⟩ := exists_rest hlayout hg hb
  refine ⟨?_, fun hmodule => fileName_withoutModule hlayout hmodule ha⟩
  rw [dirname_lastName hroute, dirname_lastName hroute', Path.settled_eq, Path.settled_eq]
  constructor
  · intro h
    rw [hrest, hrest', Path.spellRoute_injective hroute hroute' h]
  · intro h
    have hsame := Path.spellRoute_injective (Path.isRoute_route _) (Path.isRoute_route _) h
    rw [hrest, hrest'] at hsame
    rw [List.append_cancel_left hsame]

/-- A file of the Go package `example.com/shop/v1`. -/
def orderSource : SourceFile where
  name := "shop/order.proto"
  package := "shop"
  isRequested := true
  stem := "shop/order"
  goPackageName := "v1"
  goImportPath := "example.com//shop/./v1/"
  services := []

/-- Another file of the package, which spells the import path in another way. -/
def lineSource : SourceFile :=
  { orderSource with
    name := "line.proto"
    stem := "line"
    goImportPath := "example.com/shop/x/../v1" }

theorem same_directory_iff_spellings :
    let c : Config := { target := "go", goModule := "example.com" }
    c.goLayout = .importPath ∧
      Path.basename orderSource.stem ∉ ["", ".", ".."] ∧
      Path.basename lineSource.stem ∉ ["", ".", ".."] ∧
      Target.go.fileName orderSource c = .ok "shop/v1/order_cache_manager.pb.go" ∧
      Target.go.fileName lineSource c = .ok "shop/v1/line_cache_manager.pb.go" ∧
      settled orderSource.goImportPath = settled lineSource.goImportPath ∧
      Target.go.fileName orderSource { c with goModule := "" } =
        .ok "example.com/shop/v1/order_cache_manager.pb.go" := by
  intro c
  have hf : Path.basename orderSource.stem ∉ ["", ".", ".."] := by decide
  have hg : Path.basename lineSource.stem ∉ ["", ".", ".."] := by decide
  have ha : Target.go.fileName orderSource c = .ok "shop/v1/order_cache_manager.pb.go" := by
    decide +kernel
  have hb : Target.go.fileName lineSource c = .ok "shop/v1/line_cache_manager.pb.go" := by
    decide +kernel
  obtain ⟨hsame, hback⟩ := same_directory_iff (c := c) rfl hf hg ha hb
  exact ⟨rfl, hf, hg, ha, hb, hsame.1 (by decide +kernel), hback (by decide)⟩

end Go

end CacheGen
