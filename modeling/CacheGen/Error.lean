/-!
# Errors

Everything that can go wrong for the user, by cause. Each cause has a code, a message for logs and
callers, a sentence for the terminal and, where there is one, advice. A fault of the generator itself
ends a run like an error.
-/

namespace CacheGen

inductive GenError where
  /-- A `key=value` pair of the plugin parameter, or an option that stands for one. -/
  | invalidParameter (pair detail : String)
  | unknownTarget (target : String)
  /-- A method refers to a message that no file declares. -/
  | unknownType (typeName method : String)
  /-- A config file was read and its content refused. -/
  | invalidConfig (path detail : String)
  /-- A config file could not be read as the format it is in. -/
  | unreadableConfig (path detail : String)
  | fileNotFound (path : String)
  | descriptorUnreadable (path detail : String)
  /-- Generating for one file failed, with the message of the cause. -/
  | generationFailed (file cause : String)
  /-- An output lies outside the Go module that is to be stripped. -/
  | moduleMismatch (file module : String)
  | writeFailed (path detail : String)
  /-- A fault: what was called is no function. -/
  | notCallable (callee : String)
  deriving DecidableEq, Repr

namespace GenError

def code : GenError → String
  | invalidParameter .. => "INVALID_PARAMETER"
  | unknownTarget .. => "UNKNOWN_TARGET"
  | unknownType .. => "UNKNOWN_TYPE"
  | invalidConfig .. => "INVALID_CONFIG"
  | unreadableConfig .. => "INVALID_CONFIG"
  | fileNotFound .. => "FILE_NOT_FOUND"
  | descriptorUnreadable .. => "DESCRIPTOR_READ_FAILED"
  | generationFailed .. => "GENERATION_FAILED"
  | moduleMismatch .. => "MODULE_MISMATCH"
  | writeFailed .. => "WRITE_FAILED"
  | notCallable .. => "TypeError"

def message : GenError → String
  | invalidParameter pair detail => "Invalid plugin parameter \"" ++ pair ++ "\": " ++ detail
  | unknownTarget target => "Unknown target: " ++ target
  | unknownType typeName method =>
    "Unknown message type " ++ typeName ++ " referenced by " ++ method
  | invalidConfig path detail => "Invalid config in " ++ path ++ ": " ++ detail
  | unreadableConfig path detail => "Invalid config in " ++ path ++ ": " ++ detail
  | fileNotFound path => "File not found: " ++ path
  | descriptorUnreadable path detail =>
    "Failed to read descriptor set " ++ path ++ ": " ++ detail
  | generationFailed file cause => "generating file " ++ file ++ ": " ++ cause
  | moduleMismatch file module =>
    file ++ ": generated file does not match prefix \"" ++ module ++ "\""
  | writeFailed path detail => "Failed to write to " ++ path ++ ": " ++ detail
  | notCallable callee => callee ++ " is not a function"

/-- The sentence shown on a terminal. -/
def headline : GenError → String
  | invalidParameter pair detail =>
    "Plugin parameter \"" ++ pair ++ "\" is not valid: " ++ detail
  | unknownTarget target => "Target \"" ++ target ++ "\" is not supported."
  | unknownType typeName method =>
    "Method " ++ method ++ " references " ++ typeName ++
      ", which is not in the compilation request."
  | invalidConfig path _ => "Config file " ++ path ++ " is not valid."
  | unreadableConfig path _ => "Config file " ++ path ++ " is not valid."
  | fileNotFound path => "Could not find file: " ++ path
  | descriptorUnreadable path _ => "Could not decode " ++ path ++ " as a FileDescriptorSet."
  | generationFailed file _ => "Could not generate the cache manager for " ++ file ++ "."
  | moduleMismatch file module =>
    "Output " ++ file ++ " does not live under module " ++ module ++ "."
  | writeFailed path _ => "Could not write output file: " ++ path
  | notCallable callee => callee ++ " is not a function"

/-- What to do about it. -/
def advice : GenError → Option String
  | invalidParameter .. =>
    some ("Known keys: target, suffix, runtime_import, runtime_module, import_extension, " ++
      "paths, module, M<file>.")
  | unknownTarget .. => some "Supported targets: go, ts."
  | unknownType .. => some "Make sure every imported .proto file is passed to protoc."
  | invalidConfig _ detail => some detail
  | unreadableConfig _ detail => some detail
  | fileNotFound .. => some "Check the path and try again."
  | descriptorUnreadable .. =>
    some ("Produce it with: protoc --include_source_info --include_imports " ++
      "--descriptor_set_out=<file>")
  | generationFailed .. => none
  | moduleMismatch .. =>
    some "Check the go_package option or the M parameters, or drop module=."
  | writeFailed .. => some "Check file permissions and available disk space."
  | notCallable .. => none

/-- The text shown on a terminal: the sentence, and the advice unless it is empty. -/
def display (e : GenError) : String :=
  "\n✖ " ++ e.headline ++
    match e.advice with
    | none => ""
    | some advice => if advice = "" then "" else "\n  → " ++ advice

end GenError

end CacheGen
