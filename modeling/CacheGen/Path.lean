import CacheGen.Text.Cut

/-!
# Paths with slashes

Two notions. A *path text* is what descriptors and options hold, relative or not, in any spelling;
`join`, `dirname` and `basename` work on the text alone. A *location* is an absolute place: the
list of names from the root down to it, free of `.`, `..` and empty names. A text denotes a
location once a directory is given that relative texts start from.

Above the root there is nothing, so `..` at the root stays there; a relative text without a base
keeps its leading `..`.
-/

namespace CacheGen

/-! ## Names on the way -/

/-- One more name behind those in `walked`. `..` takes the last one back, unless that is itself a
`..`; with nothing to take back it is kept only if `climbs`. -/
def stepName (climbs : Bool) (walked : List String) (name : String) : List String :=
  if name = "" ∨ name = "." then walked
  else if name = ".." then
    match walked.getLast? with
    | none => if climbs then [".."] else []
    | some last => if last = ".." then walked ++ [".."] else walked.dropLast
  else walked ++ [name]

def walk (climbs : Bool) (start names : List String) : List String :=
  names.foldl (stepName climbs) start

namespace Path

/-! ## Path texts -/

def isAbsolute (p : String) : Bool := p.toList.head? == some '/'

/-- The shortest spelling of the same path; a slash at the end is kept. -/
def normalize (p : String) : String :=
  let body := "/".intercalate (walk (!isAbsolute p) [] (Text.pieces '/' p))
  let slash := if p.toList.getLast? == some '/' then "/" else ""
  if isAbsolute p then
    if body = "" then "/" else "/" ++ body ++ slash
  else if body = "" then "." ++ slash
  else body ++ slash

/-- Several texts one below the other, empty ones left out. -/
def join (parts : List String) : String :=
  match parts.filter (· ≠ "") with
  | [] => "."
  | given => normalize ("/".intercalate given)

/-- The text backwards, without the slashes at its end. -/
def reversedBody (p : String) : List Char := p.toList.reverse.dropWhile (· = '/')

def basename (p : String) : String :=
  String.ofList ((reversedBody p).takeWhile (· ≠ '/')).reverse

/-- The text in front of the slash before the last name. One slash is cut, so more of them stay,
and of a text that begins with two slashes both stay. -/
def dirname (p : String) : String :=
  match ((reversedBody p).dropWhile (· ≠ '/')).reverse with
  | [] => if isAbsolute p then "/" else "."
  | ['/'] => "/"
  | ['/', '/'] => "//"
  | head => String.ofList head.dropLast

end Path

/-! ## Locations -/

structure Location where
  names : List String
  deriving DecidableEq, Inhabited, Repr

namespace Location

def root : Location := ⟨[]⟩

/-- The location of the text `p`, read from `base` unless it is absolute. -/
def resolve (base : Location) (p : String) : Location :=
  ⟨walk false (if Path.isAbsolute p then [] else base.names) (Text.pieces '/' p)⟩

def path (l : Location) : String := "/" ++ "/".intercalate l.names

def parent (l : Location) : Location := ⟨l.names.dropLast⟩

/-- The names left of each list after their common start. -/
def pastCommon : List String → List String → List String × List String
  | a :: as, b :: bs => if a = b then pastCommon as bs else (a :: as, b :: bs)
  | as, bs => (as, bs)

/-- The way from `a` to `b`: up to where they part, then down. Empty when they are the same. -/
def relative (a b : Location) : String :=
  let (up, down) := pastCommon a.names b.names
  "/".intercalate (up.map (fun _ => "..") ++ down)

/-- The locations on the way from below the root to `l`, `l` included. -/
def ancestry (l : Location) : List Location :=
  (List.range l.names.length).map fun n => ⟨l.names.take (n + 1)⟩

end Location

/-- The way from the text `a` to the text `b`, both read from `base`. -/
def Path.relative (base : Location) (a b : String) : String :=
  (base.resolve a).relative (base.resolve b)

end CacheGen
