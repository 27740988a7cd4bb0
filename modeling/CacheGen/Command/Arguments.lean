import CacheGen.Command.Init
import CacheGen.Command.Suggestion

/-!
# Command line arguments

`cache-manager generate <descriptor-set>` and `cache-manager init`, each with options. An option
takes its value from the next argument, from behind an equals sign, or, in its short spelling, from
the rest of the argument; short options without a value may share one dash. Options stand anywhere,
and `--` ends them. Arguments beyond those a command needs are ignored.
-/

namespace CacheGen.Arguments

/-! ## Options -/

structure Flag where
  short : Option String
  long : String
  /-- What the value stands for, if there is one. -/
  value : Option String
  deriving DecidableEq, Repr

/-- The option as messages name it. -/
def Flag.label (f : Flag) : String :=
  ((f.short.map (· ++ ", ")).getD "") ++ f.long ++ ((f.value.map (" <" ++ · ++ ">")).getD "")

def find? (flags : List Flag) (spelling : String) : Option Flag :=
  flags.find? fun f => f.short = some spelling || f.long = spelling

def versionFlag : Flag := ⟨some "-V", "--version", none⟩

def helpFlag : Flag := ⟨some "-h", "--help", none⟩

def generateFlags : List Flag := [
  ⟨some "-o", "--out", some "dir"⟩,
  ⟨some "-f", "--file", some "proto"⟩,
  ⟨some "-t", "--target", some "target"⟩,
  ⟨some "-s", "--suffix", some "suffix"⟩,
  ⟨none, "--paths", some "mode"⟩,
  ⟨none, "--module", some "prefix"⟩,
  ⟨none, "--config", some "dir"⟩,
  ⟨none, "--dry-run", none⟩]

def initFlags : List Flag := [⟨none, "--force", none⟩]

/-! ## Scanning -/

/-- What scanning found: the options it knows with their values, the arguments that are none, and
everything from the first unknown option on. -/
structure Scan where
  given : List (Flag × String) := []
  operands : List String := []
  unknown : List String := []

def looksLikeOption (arg : String) : Bool :=
  match arg.toList with
  | '-' :: _ :: _ => true
  | _ => false

/-- How an argument gives an option of `flags`. -/
inductive Reading where
  /-- The option, whose value is the next argument if it has one. -/
  | exact (f : Flag)
  | withValue (f : Flag) (value : String)
  /-- An option without a value, and the argument that remains without it. -/
  | joined (f : Flag) (remaining : String)
  | none

/-- A short option with something behind it in the same argument. -/
def readShort (flags : List Flag) (arg : String) : Reading :=
  match arg.toList with
  | '-' :: c :: d :: more =>
    if c = '-' then .none
    else
      match find? flags (String.ofList ['-', c]) with
      | some f =>
        if f.value.isSome then .withValue f (String.ofList (d :: more))
        else .joined f (String.ofList ('-' :: d :: more))
      | Option.none => .none
  | _ => .none

/-- A long option with a value behind an equals sign. -/
def readLong (flags : List Flag) (arg : String) : Reading :=
  match Text.cutFirst? '=' arg with
  | some (name, value) =>
    match (find? flags name).filter fun f => f.value.isSome && f.long = name with
    | some f => .withValue f value
    | Option.none => .none
  | Option.none => .none

def read (flags : List Flag) (arg : String) : Reading :=
  match find? flags arg with
  | some f => .exact f
  | Option.none =>
    match readShort flags arg with
    | .none => readLong flags arg
    | r => r

/-- Keep an argument that gives no option. -/
def Scan.keep (s : Scan) (arg : String) : Scan :=
  if looksLikeOption arg || !s.unknown.isEmpty then { s with unknown := s.unknown ++ [arg] }
  else { s with operands := s.operands ++ [arg] }

def Scan.give (s : Scan) (f : Flag) (value : String) : Scan :=
  { s with given := s.given ++ [(f, value)] }

/-- Everything behind `--` is no option. -/
def Scan.rest (s : Scan) (args : List String) : Scan :=
  if s.unknown.isEmpty then { s with operands := s.operands ++ args }
  else { s with unknown := s.unknown ++ "--" :: args }

/-- Scan `args`, of at most `n` letters and arguments together. An option whose value is missing
ends the scan. -/
def scanFrom (flags : List Flag) : Nat → Scan → List String → Except Flag Scan
  | 0, s, _ => .ok s
  | _, s, [] => .ok s
  | n + 1, s, arg :: args =>
    if arg = "--" then .ok (s.rest args)
    else
      match read flags arg with
      | .exact f =>
        if f.value.isSome then
          match args with
          | [] => .error f
          | value :: args => scanFrom flags n (s.give f value) args
        else scanFrom flags n (s.give f "") args
      | .withValue f value => scanFrom flags n (s.give f value) args
      | .joined f remaining => scanFrom flags n (s.give f "") (remaining :: args)
      | .none => scanFrom flags n (s.keep arg) args

def scan (flags : List Flag) (args : List String) : Except Flag Scan :=
  scanFrom flags (args.foldl (fun n a => n + a.length + 1) 0) {} args

/-! ## Commands -/

inductive Invocation where
  | generate (set : String) (o : Command.GenerateOptions)
  | init (o : Command.InitOptions)
  | version
  /-- The usage, because it was asked for or because nothing was. -/
  | usage (asked : Bool)
  deriving DecidableEq

/-- What is wrong with the arguments. -/
inductive Complaint where
  | unknownCommand (name : String)
  | unknownOption (spelling : String) (known : List Flag)
  | missingValue (f : Flag)
  | missingArgument (name : String)
  deriving DecidableEq

def Complaint.text : Complaint → String
  | unknownCommand name =>
    "error: unknown command '" ++ name ++ "'" ++
      Suggestion.question name ["generate", "init", "help"]
  | unknownOption spelling known =>
    "error: unknown option '" ++ spelling ++ "'" ++
      if Text.startsWith spelling "--" then Suggestion.question spelling (known.map (·.long))
      else ""
  | missingValue f => "error: option '" ++ f.label ++ "' argument missing"
  | missingArgument name => "error: missing required argument '" ++ name ++ "'"

/-- `o` with one option given. -/
def applyGenerate (o : Command.GenerateOptions) (given : Flag × String) :
    Command.GenerateOptions :=
  match given.1.long with
  | "--out" => { o with out := some given.2 }
  | "--file" => { o with files := o.files ++ [given.2] }
  | "--target" => { o with target := some given.2 }
  | "--suffix" => { o with suffix := some given.2 }
  | "--paths" => { o with paths := some given.2 }
  | "--module" => { o with module := some given.2 }
  | "--config" => { o with config := some given.2 }
  | "--dry-run" => { o with dryRun := true }
  | _ => o

def asksHelp (args : List String) : Bool := args.any fun a => (find? [helpFlag] a).isSome

/-- The options and operands of a command, or the usage if that is asked for. -/
def readCommand (flags : List Flag) (operands args : List String)
    (finish : List (Flag × String) → List String → Except Complaint Invocation) :
    Except Complaint Invocation :=
  match scan flags args with
  | .error f => .error (.missingValue f)
  | .ok s =>
    if asksHelp s.unknown then .ok (.usage true)
    else
      match s.unknown with
      | option :: _ => .error (.unknownOption option (flags ++ [helpFlag, versionFlag]))
      | [] => finish s.given (operands ++ s.operands)

def readGenerate (operands args : List String) : Except Complaint Invocation :=
  readCommand generateFlags operands args fun given operands =>
    match operands with
    | [] => .error (.missingArgument "descriptor-set")
    | set :: _ => .ok (.generate set (given.foldl applyGenerate { out := some "." }))

def readInit (operands args : List String) : Except Complaint Invocation :=
  readCommand initFlags operands args fun given _ =>
    .ok (.init { force := given.any (·.1.long = "--force") })

/-- The command that the arguments ask for. The version is printed wherever it is asked for. -/
def parse (args : List String) : Except Complaint Invocation :=
  match scan [versionFlag] args with
  | .error f => .error (.missingValue f)
  | .ok s =>
    if !s.given.isEmpty then .ok .version
    else
      match s.operands with
      | "generate" :: operands => readGenerate operands s.unknown
      | "init" :: operands => readInit operands s.unknown
      | "help" :: _ => .ok (.usage true)
      | operands =>
        if asksHelp s.unknown then .ok (.usage true)
        else
          match operands, s.unknown with
          | name :: _, _ => .error (.unknownCommand name)
          | [], option :: _ => .error (.unknownOption option [versionFlag, helpFlag])
          | [], [] => .ok (.usage false)

end CacheGen.Arguments
