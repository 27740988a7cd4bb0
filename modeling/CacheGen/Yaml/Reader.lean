import CacheGen.Yaml.Flow

/-!
# Reading YAML

One document of block mappings and lists, with plain and quoted scalars and flow collections inside
them, and with comments. Anchors, tags, block scalars, explicit keys and directives are not read;
a text that uses them is refused like one that is broken.

A document is read line by line. What belongs to an entry is what is indented deeper than it; the
number of lines bounds the recursion, since each step takes a line or shortens one.
-/

namespace CacheGen.Yaml

/-! ## Lines -/

/-- Lines as they stand, line feeds and carriage returns in front of them taken off. -/
def splitLines (cs : List Char) : List (List Char) :=
  (cs.splitOn '\n').map fun l => if l.getLast? = some '\r' then l.dropLast else l

def joinLines (ls : List (List Char)) : List Char := ['\n'].intercalate ls

def indentOf (l : List Char) : Nat := (l.takeWhile (· = ' ')).length

def contentOf (l : List Char) : List Char := l.dropWhile (· = ' ')

/-- Nothing but blanks and a comment. -/
def isVoid (l : List Char) : Bool := (l.dropWhile isSpace).head?.all (· = '#')

def skipVoid (ls : List (List Char)) : List (List Char) := ls.dropWhile isVoid

/-- Without the comment at its end. -/
def dropComment : List Char → List Char
  | [] => []
  | c :: cs => if isSpace c && cs.head? = some '#' then [] else c :: dropComment cs

/-- The dash of a list item is first. -/
def isItem (content : List Char) : Bool :=
  match content with
  | ['-'] => true
  | '-' :: c :: _ => isSpace c
  | _ => false

/-! ## Keys -/

/-- Cut at the first colon that ends its word. -/
def cutColon : List Char → Option (List Char × List Char)
  | [] => none
  | c :: cs =>
    if c = ':' && cs.head?.all isSpace then some ([], cs)
    else (cutColon cs).map fun (k, rest) => (c :: k, rest)

/-- The key of a mapping entry and what stands behind its colon. -/
def readKey (content : List Char) : Option (String × List Char) :=
  if content.head? = some '\t' then none
  else match readQuoted content with
  | some (key, rest) =>
    match rest.dropWhile isSpace with
    | ':' :: cs => if cs.head?.all isSpace then some (key, cs) else none
    | _ => none
  | none =>
    match cutColon (dropComment content) with
    | some (key, _) =>
      if beginsPlain key && !key.isEmpty then
        some (String.ofList (trimSpace key), content.drop (key.length + 1))
      else none
    | none => none

/-! ## Values -/

/-- The lines that go on with a plain scalar: those indented at least by `least`. -/
def continuation (least : Nat) (ls : List (List Char)) : List (List Char) × List (List Char) :=
  let deeper := fun l => isVoid l || least ≤ indentOf l
  -- Void lines at the end belong to what follows.
  let taken := ((ls.takeWhile deeper).reverse.dropWhile isVoid).reverse
  (taken, ls.drop taken.length)

/-- A plain scalar that begins with `first` and goes on below. -/
def readPlain (least : Nat) (first : List Char) (ls : List (List Char)) :
    Option (Json × List (List Char)) :=
  let (more, rest) := continuation least ls
  let parts := (first :: more).map fun l => trimSpace (dropComment l)
  if beginsPlain first && parts.all fun p => (cutColon p).isNone then
    some (scalarValue (String.ofList ([' '].intercalate (parts.filter (!·.isEmpty)))), rest)
  else none

/-- A quoted scalar or a flow collection that begins with `first`; nothing may stand behind it. -/
def readClosedLines (first : List Char) (ls : List (List Char)) :
    Option (Json × List (List Char)) := do
  let (value, rest) ← readClosed (joinLines (first :: ls))
  match splitLines rest with
  | [] => some (value, [])
  | tail :: ls => if isVoid tail then some (value, ls) else none

/-! ## Blocks -/

mutual

/-- The value in the lines indented at least by `least`, or nothing if there is none. -/
def readBlock : Nat → Nat → List (List Char) → Option (Json × List (List Char))
  | 0, _, _ => none
  | n + 1, least, ls =>
    match skipVoid ls with
    | [] => some (.null, [])
    | l :: rest =>
      let indent := indentOf l
      let content := contentOf l
      if indent < least then some (.null, l :: rest)
      -- Lines are not indented by tabs.
      else if content.head? = some '\t' then none
      else if isItem content then
        (readItems n indent (l :: rest)).map fun (items, rest) => (.array items, rest)
      else if (readKey content).isSome then
        (readMembers n indent [] (l :: rest)).map fun (ms, rest) => (.object ms, rest)
      else if opensClosed content then readClosedLines content rest
      else readPlain least content rest

/-- The items whose dashes stand at `indent`. -/
def readItems : Nat → Nat → List (List Char) → Option (List Json × List (List Char))
  | 0, _, _ => none
  | n + 1, indent, ls =>
    match skipVoid ls with
    | [] => some ([], [])
    | l :: rest =>
      if indentOf l < indent then some ([], l :: rest)
      else if indentOf l = indent && isItem (contentOf l) then do
        -- What stands behind the dash is a block of its own, indented by where it stands.
        let inner := List.replicate (indent + 1) ' ' ++ (contentOf l).drop 1
        let (item, rest) ← readBlock n (indent + 1) (inner :: rest)
        let (items, rest) ← readItems n indent rest
        some (item :: items, rest)
      else if indentOf l = indent then some ([], l :: rest)
      else none

/-- The entries whose keys stand at `indent`, behind those in `earlier`. -/
def readMembers : Nat → Nat → List (String × Json) → List (List Char) →
    Option (List (String × Json) × List (List Char))
  | 0, _, _, _ => none
  | n + 1, indent, earlier, ls =>
    match skipVoid ls with
    | [] => some (earlier, [])
    | l :: rest =>
      if indentOf l < indent then some (earlier, l :: rest)
      else if indent < indentOf l then none
      else do
        let (key, behind) ← readKey (contentOf l)
        let first := behind.dropWhile isSpace
        let (value, rest) ←
          if isVoid behind then
            -- A list may stand no deeper than its key.
            match skipVoid rest with
            | next :: below =>
              if indentOf next = indent && isItem (contentOf next) then
                (readItems n indent (next :: below)).map fun (items, r) => (Json.array items, r)
              else readBlock n (indent + 1) (next :: below)
            | [] => some (.null, [])
          else if opensClosed first then readClosedLines first rest
          else readPlain (indent + 1) first rest
        let members ← addMember earlier key value
        readMembers n indent members rest

end

/-! ## Documents -/

/-- The mark that begins a document, with what stands behind it. -/
def documentStart? : List Char → Option (List Char)
  | ['-', '-', '-'] => some []
  | '-' :: '-' :: '-' :: c :: cs => if isSpace c then some (c :: cs) else none
  | _ => none

def isDocumentEnd : List Char → Bool
  | ['.', '.', '.'] => true
  | '.' :: '.' :: '.' :: c :: _ => isSpace c
  | _ => false

/-- The lines of the only document, without its marks. -/
def documentLines (ls : List (List Char)) : Option (List (List Char)) :=
  let ls := match skipVoid ls with
    | [] => []
    | l :: rest =>
      match documentStart? l with
      | some behind => (List.replicate 3 (Char.ofNat 32) ++ behind) :: rest
      | none => l :: rest
  let body := ls.takeWhile fun l => !isDocumentEnd l && (documentStart? l).isNone
  match ls.drop body.length with
  | [] => some body
  | mark :: after => if isDocumentEnd mark && after.all isVoid then some body else none

/-- The value of a text, nothing for a text without one. -/
def parse? (text : String) : Option Json := do
  let cs := match text.toList with
    | c :: cs => if c.toNat = 0xFEFF then cs else c :: cs
    | [] => []
  let ls ← documentLines (splitLines cs)
  let (value, rest) ← readBlock (2 * cs.length + 2) 0 ls
  if (skipVoid rest).isEmpty then some value else none

end CacheGen.Yaml
