import CacheGen.Proofs.ImportUse
import CacheGen.Proofs.ManagerText
import CacheGen.Proofs.OneLine
import CacheGen.Proofs.QuotedText
import CacheGen.Text.Utf8

/-!
# What the literals in the output stand for

The outputs hold texts of the project as string literals: module names and cache names in
TypeScript, cache names and method names in Go. One way of quoting serves both languages, and each
reads it by escape rules of its own.

* In TypeScript a literal stands for 16-bit units. A backslash may go before any character but a
  digit other than a lone zero, and hides a line end (`TypeScript.literalRules`).
* In Go a literal stands for bytes. A character or a code point is its bytes in UTF-8, and two
  hexadecimal or three octal digits are one byte; no other escapes are known (`Go.literalRules`).

Main result: `literals_denote`.
-/

namespace CacheGen

open Text (LiteralRules QuotesEscaped charUnits quote escape)

/-! ## Literals -/

namespace Text.LiteralRules

variable {υ : Type}

/-- By the rules `L`, `literal` stands for `values` wherever it is put. It ends at its last quote
and nowhere before. -/
structure Denotes (L : LiteralRules υ) (literal : String) (values : List υ) : Prop where
  oneLine : OneLine literal
  quotes : ∃ inside, literal.toList = '"' :: inside ++ ['"'] ∧ QuotesEscaped inside
  read : ∀ rest, L.read (literal.toList ++ rest) = some (values, rest)

theorem Undo.denotes_quote {L : LiteralRules υ} {value : Char → List υ} (h : L.Undo value)
    (s : String) : L.Denotes (quote s) (s.toList.flatMap value) where
  oneLine := oneLine_quote s
  quotes := ⟨escape s.toList, toList_quote s, quotesEscaped_escape s.toList⟩
  read := h.read_quote s

end Text.LiteralRules

/-! ## TypeScript -/

namespace TypeScript

def isLineEnd (c : Char) : Bool :=
  c = '\n' || c = '\r' || c.toNat = 0x2028 || c.toNat = 0x2029

/-- The units of a code point, surrogates included. -/
def codePointUnits (n : Nat) : List Nat :=
  if n < 0x10000 then [n] else [0xD800 + (n - 0x10000) / 0x400, 0xDC00 + (n - 0x10000) % 0x400]

/-- A code point in hexadecimal digits, up to a closing brace. -/
def readBraced : Option Nat → List Char → Option (List Nat × List Char)
  | some n, '\x7d' :: cs => some (codePointUnits n, cs)
  | n, c :: cs => do
    let digit ← Json.hexValue? c
    let n := n.getD 0 * 16 + digit
    if n ≤ 0x10FFFF then readBraced (some n) cs else none
  | _, [] => none

/-- The units of the escape behind a backslash. -/
def readEscape : List Char → Option (List Nat × List Char)
  | 'b' :: cs => some ([0x08], cs)
  | 't' :: cs => some ([0x09], cs)
  | 'n' :: cs => some ([0x0A], cs)
  | 'v' :: cs => some ([0x0B], cs)
  | 'f' :: cs => some ([0x0C], cs)
  | 'r' :: cs => some ([0x0D], cs)
  | 'x' :: high :: low :: cs => do
    let high ← Json.hexValue? high
    let low ← Json.hexValue? low
    return ([high * 16 + low], cs)
  | 'u' :: '\x7b' :: cs => readBraced none cs
  | 'u' :: cs => (Json.readUnit cs).map fun (n, rest) => ([n], rest)
  | '\r' :: '\n' :: cs => some ([], cs)
  | c :: cs =>
    if isLineEnd c then some ([], cs)
    else if c = '0' ∧ ¬ cs.head?.any Char.isDigit then some ([0], cs)
    else if c.isDigit ∨ c = 'x' then none
    else some (charUnits c, cs)
  | [] => none

/-- The rules for string literals in modules. -/
def literalRules : LiteralRules Nat where
  plain c := if c = '\n' ∨ c = '\r' then none else some (charUnits c)
  readEscape := readEscape

theorem charUnits_control {c : Char} (h : c.toNat < 0x20) : charUnits c = [c.toNat] :=
  if_pos (by omega)

theorem undo_literalRules : literalRules.Undo charUnits where
  plain c hc := if_neg (by rintro (rfl | rfl) <;> exact absurd hc (by decide))
  marked c rest hc := by rcases hc with rfl | rfl <;> rfl
  lettered := by
    simp only [Text.letters, List.forall_mem_cons]
    exact ⟨fun _ => rfl, fun _ => rfl, fun _ => rfl, fun _ => rfl, fun _ => rfl, by simp⟩
  numbered c rest hc := by
    show (Json.readUnit ('0' :: '0' :: _ :: _ :: rest)).map _ = _
    rw [Json.readUnit_digits (by omega), charUnits_control hc]
    rfl

/-- Octal escapes are none. -/
example : literalRules.read ['"', '\\', '1', '0', '1', '"'] = none := by decide

/-- The line of an import up to its module name. -/
def Import.opening (i : Import) : String :=
  "import " ++ (if i.typeOnly then "type " else "") ++ "\x7b " ++
    ", ".intercalate (i.bindings.map Binding.clause) ++ " \x7d from "

theorem Import.line_eq (i : Import) : i.line = i.opening ++ quote i.source ++ ";" := by
  simp only [Import.line, Import.opening, String.append_assoc]

theorem constructionLines_infix_lines (base : Location) (f : SourceFile)
    {plans : List ManagerPlan} (c : Config) {p : ManagerPlan} (hp : p ∈ plans) {h : Handle}
    (hh : h ∈ p.handles) :
    constructionLines (names base f plans c) h <:+: lines base f plans c := by
  let n := names base f plans c
  have hconstructor : p.handles.flatMap (constructionLines n) <:+: constructorLines n p :=
    (List.infix_append _ _ (returnLines p)).trans (List.prefix_append _ _).isInfix
  have hmanager : constructorLines n p <:+: managerLines n p := (List.suffix_append _ _).isInfix
  exact (infix_flatMap hh _).trans
    (hconstructor.trans (hmanager.trans (managerLines_infix_lines base f c hp)))

/-- The runtime module and the modules of messages are those that are imported. -/
theorem exists_import {n : ModuleNames} {runtimeModule source : String}
    (h : source = runtimeModule ∨ source ∈ messageSources n.messages) :
    ∃ i ∈ imports n runtimeModule, i.source = source := by
  rcases h with rfl | hsource
  · cases hhandles : n.hasHandles <;> simp [imports, runtimeImports, hhandles]
  · rw [← sourcesOf_types, sourcesOf] at hsource
    obtain ⟨i, hi, rfl⟩ := List.mem_map.1 hsource
    exact ⟨i, List.mem_append_right _ (List.mem_filter.1 hi).1, rfl⟩

theorem line_mem_lines {base : Location} {f : SourceFile} {plans : List ManagerPlan} {c : Config}
    {i : Import} (hi : i ∈ imports (names base f plans c) c.tsRuntimeModule) :
    i.line ∈ lines base f plans c := by
  have hline := List.mem_map_of_mem hi (f := Import.line)
  exact List.mem_append_left _ (List.mem_append_left _ (List.mem_append_right _ hline))

theorem denotes_quote (s : String) : literalRules.Denotes (quote s) (Text.units s) :=
  undo_literalRules.denotes_quote s

end TypeScript

/-! ## Go -/

namespace Go

/-- The bytes of a code point that a character has. -/
def codePointBytes (n : Nat) : Option Bytes :=
  if n.isValidChar then some (String.utf8EncodeChar (Char.ofNat n)) else none

def octalValue? (c : Char) : Option Nat :=
  if '0' ≤ c ∧ c ≤ '7' then some (c.toNat - '0'.toNat) else none

/-- The bytes of the escape behind a backslash. -/
def readEscape : List Char → Option (Bytes × List Char)
  | 'a' :: cs => some ([0x07], cs)
  | 'b' :: cs => some ([0x08], cs)
  | 't' :: cs => some ([0x09], cs)
  | 'n' :: cs => some ([0x0A], cs)
  | 'v' :: cs => some ([0x0B], cs)
  | 'f' :: cs => some ([0x0C], cs)
  | 'r' :: cs => some ([0x0D], cs)
  | '\\' :: cs => some ([0x5C], cs)
  | '"' :: cs => some ([0x22], cs)
  | 'x' :: high :: low :: cs => do
    let high ← Json.hexValue? high
    let low ← Json.hexValue? low
    return ([UInt8.ofNat (high * 16 + low)], cs)
  | 'u' :: cs => do
    let (n, cs) ← Json.readUnit cs
    let bytes ← codePointBytes n
    return (bytes, cs)
  | 'U' :: cs => do
    let (high, cs) ← Json.readUnit cs
    let (low, cs) ← Json.readUnit cs
    let bytes ← codePointBytes (high * 0x10000 + low)
    return (bytes, cs)
  | a :: b :: c :: cs => do
    let a ← octalValue? a
    let b ← octalValue? b
    let c ← octalValue? c
    let n := (a * 8 + b) * 8 + c
    if n < 0x100 then some ([UInt8.ofNat n], cs) else none
  | _ => none

/-- The rules for interpreted string literals. -/
def literalRules : LiteralRules UInt8 where
  plain c := if c = '\n' then none else some (String.utf8EncodeChar c)
  readEscape := readEscape

theorem codePointBytes_toNat (c : Char) :
    codePointBytes c.toNat = some (String.utf8EncodeChar c) := by
  have hvalid : c.toNat.isValidChar := c.valid
  rw [codePointBytes, if_pos hvalid, Char.ofNat_toNat]

theorem undo_literalRules : literalRules.Undo String.utf8EncodeChar where
  plain c hc := if_neg (by rintro rfl; exact absurd hc (by decide))
  marked c rest hc := by rcases hc with rfl | rfl <;> rfl
  lettered := by
    simp only [Text.letters, List.forall_mem_cons]
    exact ⟨fun _ => rfl, fun _ => rfl, fun _ => rfl, fun _ => rfl, fun _ => rfl, by simp⟩
  numbered c rest hc := by
    show (Json.readUnit ('0' :: '0' :: _ :: _ :: rest) >>= _) = _
    rw [Json.readUnit_digits (by omega)]
    show (codePointBytes c.toNat >>= _) = _
    rw [codePointBytes_toNat]
    rfl

/-- Octal escapes are bytes. -/
example : literalRules.read ['"', '\\', '1', '0', '1', '"'] = some ([0x41], []) := by decide

theorem constructionLines_infix_lines (f : SourceFile) {plans : List ManagerPlan} (c : Config)
    {p : ManagerPlan} (hp : p ∈ plans) {h : Handle} (hh : h ∈ p.handles) :
    constructionLines h <:+: lines f plans c := by
  have hconstructor : p.handles.flatMap constructionLines <:+: constructorLines p :=
    (List.infix_append _ _ _).trans
      ((List.prefix_append _ _).trans (List.prefix_append _ _)).isInfix
  have hmanager : constructorLines p <:+: managerLines p := List.infix_append _ _ _
  exact (infix_flatMap hh _).trans
    (hconstructor.trans (hmanager.trans (managerLines_infix_lines f c hp)))

theorem denotes_quote (s : String) : literalRules.Denotes (quote s) (Utf8.encode s) :=
  undo_literalRules.denotes_quote s

end Go

/-! ## Both -/

/-- **Literals denote.** In TypeScript the literal at the end of each import stands for the name of
its module, and the first argument of each construction for the name of the cache. In Go the first
argument stands for the name of the cache as well, and the one of the error text for the name of
the method. -/
theorem literals_denote (base : Location) (f : SourceFile) (plans : List ManagerPlan) (c : Config) :
    (let n := TypeScript.names base f plans c
      let imports := TypeScript.imports n c.tsRuntimeModule
      let text := TypeScript.lines base f plans c
      (∀ source, source = c.tsRuntimeModule ∨ source ∈ TypeScript.messageSources n.messages →
        ∃ i ∈ imports, i.source = source) ∧
      (∀ i ∈ imports, i.line ∈ text ∧ ∃ literal, i.line = i.opening ++ literal ++ ";" ∧
        TypeScript.literalRules.Denotes literal (Text.units i.source)) ∧
      ∀ p ∈ plans, ∀ h ∈ p.handles, TypeScript.constructionLines n h <:+: text ∧
        ∃ literal, (TypeScript.constructionLines n h)[3]? = some ("      " ++ literal ++ ",") ∧
          TypeScript.literalRules.Denotes literal (Text.units h.cacheName)) ∧
    (let text := Go.lines f plans c
      ∀ p ∈ plans, ∀ h ∈ p.handles, Go.constructionLines h <:+: text ∧
        (∃ literal, (Go.constructionLines h)[1]? = some ("\t\t" ++ literal ++ ",") ∧
          Go.literalRules.Denotes literal (Utf8.encode h.cacheName)) ∧
        ∃ literal, (Go.constructionLines h)[7]? =
            some ("\t\treturn nil, fmt.Errorf(\"creating cache manager %s: %w\", " ++ literal ++
              ", err)") ∧
          Go.literalRules.Denotes literal (Utf8.encode h.method.name)) := by
  refine ⟨⟨fun source => TypeScript.exists_import, fun i hi => ?modules,
    fun p hp h hh => ?caches⟩, fun p hp h hh => ?go⟩
  case modules =>
    exact ⟨TypeScript.line_mem_lines hi, _, i.line_eq, TypeScript.denotes_quote i.source⟩
  case caches =>
    exact ⟨TypeScript.constructionLines_infix_lines base f c hp hh, _, rfl,
      TypeScript.denotes_quote h.cacheName⟩
  case go =>
    exact ⟨Go.constructionLines_infix_lines f c hp hh, ⟨_, rfl, Go.denotes_quote h.cacheName⟩,
      _, rfl, Go.denotes_quote h.method.name⟩

/-- Backslashes in front of a quote, a line feed, another control, and characters of more units or
bytes than one. -/
def strangeName : String :=
  String.ofList ['\\', '\\', '"', '\n', Char.ofNat 0x01, Char.ofNat 0x2028, Char.ofNat 0x1F600]

/-- A handle with that name for its cache and its method. -/
def strangeHandle : Handle :=
  { (default : Handle) with
    cacheName := strangeName
    method := { (default : Method) with name := strangeName } }

theorem literals_denote_strange :
    let plans : List ManagerPlan := [{ (default : ManagerPlan) with handles := [strangeHandle] }]
    let c : Config := { tsRuntimeModule := strangeName }
    let n := TypeScript.names .root default plans c
    let units := [0x5C, 0x5C, 0x22, 0x0A, 0x01, 0x2028, 0xD83D, 0xDE00]
    let bytes := [0x5C, 0x5C, 0x22, 0x0A, 0x01, 0xE2, 0x80, 0xA8, 0xF0, 0x9F, 0x98, 0x80]
    (∃ i ∈ TypeScript.imports n strangeName, ∃ literal, i.line = i.opening ++ literal ++ ";" ∧
      TypeScript.literalRules.Denotes literal units) ∧
    (∃ literal,
      (TypeScript.constructionLines n strangeHandle)[3]? = some ("      " ++ literal ++ ",") ∧
      TypeScript.literalRules.Denotes literal units) ∧
    (∃ literal, (Go.constructionLines strangeHandle)[1]? = some ("\t\t" ++ literal ++ ",") ∧
      Go.literalRules.Denotes literal bytes) := by
  intro plans c n units bytes
  have hunits : Text.units strangeName = units := by decide
  have hbytes : Utf8.encode strangeName = bytes := by decide
  obtain ⟨⟨hmodules, hlines, hcaches⟩, hgo⟩ := literals_denote .root default plans c
  have hhandle : strangeHandle ∈ [strangeHandle] := List.mem_singleton_self _
  obtain ⟨i, hi, hsource⟩ := hmodules strangeName (.inl rfl)
  obtain ⟨-, literal, hline, hdenotes⟩ := hlines i hi
  rw [hsource, hunits] at hdenotes
  refine ⟨⟨i, hi, literal, hline, hdenotes⟩, ?_, ?_⟩
  · exact hunits ▸ (hcaches _ (List.mem_singleton_self _) strangeHandle hhandle).2
  · exact hbytes ▸ (hgo _ (List.mem_singleton_self _) strangeHandle hhandle).2.1

end CacheGen
