import CacheGen.Command.Generate
import CacheGen.Json.Printer

/-!
# The `init` command

Writes a config file with the default settings. One that is there is kept unless forced.
-/

namespace CacheGen.Command

structure InitOptions where
  force : Bool := false
  /-- The directory to write to, if not the working directory. -/
  directory : Option String := none
  quiet : Bool := false
  deriving DecidableEq, Inhabited

def configFileName : String := ".cachemanagerrc.json"

/-- The config file with the default settings. -/
def defaultConfigText : String := Json.pretty (Config.toJson {}) ++ "\n"

def nextSteps : Terminal :=
  .line "\n✅ Ready!\n" ++
    .line "Next steps:" ++
    .line "  1. Name the services to cache with the \"Cache\" suffix:" ++
    .line "       service OrderCache \x7b rpc GetOrder(OrderReq) returns (OrderResp); \x7d" ++
    .line "  2. Run protoc with the plugin:" ++
    .line "       protoc --plugin=protoc-gen-cache-manager --cache-manager_out=. order.proto" ++
    .line "  3. Or generate from a descriptor set:" ++
    .line "       cache-manager generate order.binpb --out gen" ++
    .line ""

/-- Write the config file; the result is where, or nothing if one was kept. -/
def init (t : Tree) (base : Location) (o : InitOptions) : Run (Option Location) :=
  let place := ((o.directory.map base.resolve).getD base).resolve configFileName
  let opening := Terminal.hushed o.quiet (.line "\n🔧 Cache manager init\n")
  if (t.get? place).isSome && !o.force then
    ⟨.ok none, opening ++ .hushed o.quiet
      (.line ("⚠ " ++ configFileName ++ " already exists — use --force to overwrite.")), t⟩
  else
    let writing := Terminal.begun ("Writing " ++ configFileName ++ "...")
    match t.write place (Utf8.encode defaultConfigText) with
    | none =>
      ⟨.error (.writeFailed place.path "it cannot be written there"),
        opening ++ .hushed o.quiet (writing ++ .failed ("Failed to write " ++ configFileName)), t⟩
    | some t =>
      ⟨.ok (some place),
        opening ++ .hushed o.quiet
          (writing ++ .succeeded ("Created " ++ configFileName) ++ nextSteps), t⟩

end CacheGen.Command
