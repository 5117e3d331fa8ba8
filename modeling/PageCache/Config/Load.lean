import PageCache.CommandLine
import PageCache.Files
import PageCache.Json.Parser
import PageCache.Path
import PageCache.Settings
import PageCache.Toml.Parser

/-! Loading settings. Sources are put over each other in this order: the default file, the local
file, the configuration file that is asked for, the environment, and the command line. -/
namespace PageCache

structure Environment where
  vars : List (Text × Text) := []
  workingDirectory : Text := "/"
  deriving DecidableEq, Repr

inductive LoadError where
  | build (e : ConfigError)
  | invalid (e : InvalidOption)
  deriving DecidableEq, Repr

def LoadError.message : LoadError → Text
  | build e => "failed to build configuration: " ++ e.message
  | invalid e => e.message

namespace Config

inductive Format where
  | toml
  | json
  deriving DecidableEq, Repr

namespace Format

def extension : Format → Text
  | toml => "toml"
  | json => "json"

def ofExtension? (t : Text) : Option Format :=
  if t = toml.extension then some toml else if t = json.extension then some json else none

def parse? (f : Format) (source text : Text) : Option (List (Text × ConfigTree)) :=
  match f with
  | toml => (Toml.parse? text).map (ConfigTree.ofTomlEntries source)
  | json =>
    match Json.parse? text with
    | some (.obj members) => some (ConfigTree.ofJsonMembers source members)
    | _ => none

end Format

def defaultFile : Text := "config/default"

def localFile : Text := "cacherules"

def variablePrefix : Text := "cacherules__"

def configFileVariable : Text := "CACHERULES_CONFIG_FILE"

def environmentSource : Text := "the environment"

/-- The text of a file without a byte order mark. -/
def textOf (bytes : ByteArray) : Text :=
  match Utf8.decodeLossy bytes with
  | '\uFEFF' :: t => t
  | t => t

/-- The name with two underscores read as a dot. -/
def dotted : Text → Text
  | '_' :: '_' :: t => '.' :: dotted t
  | c :: t => c :: dotted t
  | [] => []

def ofVariables (given : List (Text × Text)) : List (Text × ConfigTree) :=
  given.filterMap fun (name, value) =>
    (name.lower.stripPrefix? variablePrefix).map fun key =>
      (dotted key, .scalar environmentSource (.text value))

section
variable {m : Type → Type} [Monad m] [Files m]

/-- The first of some files that can be read, with its format. -/
def firstFile (paths : List (Text × Format)) : m (Option (Text × Format × ByteArray)) :=
  match paths with
  | [] => return none
  | (path, format) :: rest => do
    match ← Files.read path with
    | .ok bytes => return some (path, format, bytes)
    | .error _ => firstFile rest

/-- The file with exactly the given name, or else with the extension of a format. -/
def findFile (env : Environment) (name : Text) :
    m (Except ConfigError (Text × Format × ByteArray)) := do
  match ← Files.read name with
  | .ok bytes =>
    match (Path.extension? name).bind Format.ofExtension? with
    | some format => return .ok (name, format, bytes)
    | none =>
      return .error (.unavailable ("configuration file \"" ++ Path.push env.workingDirectory name ++
        "\" is not of a supported file format"))
  | .error _ =>
    let stem := name.trimEndSlashes
    match ← firstFile [(stem ++ ".toml", .toml), (stem ++ ".json", .json)] with
    | some found => return .ok found
    | none => return .error (.unavailable ("configuration file \"" ++ name ++ "\" not found"))

def readFile (env : Environment) (name : Text) (required : Bool) :
    m (Except ConfigError (List (Text × ConfigTree))) := do
  match ← findFile env name with
  | .error e => return if required then .error e else .ok []
  | .ok (path, format, bytes) =>
    let source := Path.relativeTo env.workingDirectory path
    match format.parse? source (textOf bytes) with
    | some entries => return .ok entries
    | none => return .error (.malformed source)

/-- The tree of all sources but the command line. -/
def readTree (env : Environment) (configFile : Option Text) :
    m (Except ConfigError ConfigTree) := do
  match ← readFile env defaultFile false with
  | .error e => return .error e
  | .ok defaults =>
    match ← readFile env localFile false with
    | .error e => return .error e
    | .ok locals =>
      let asked ← match configFile with
        | some name => readFile env name true
        | none => pure (.ok [])
      match asked with
      | .error e => return .error e
      | .ok asked =>
        return .ok ((((ConfigTree.empty.add defaults).add locals).add asked).add
          (ofVariables env.vars))

end

end Config

def Options.override (o : Options) (c : CommandLine.Overrides) : Options where
  logging := ⟨c.logLevel <|> o.logging.level, c.logJson <|> o.logging.json⟩
  server := ⟨c.server <|> o.server.kind, c.serverSoftware <|> o.server.software⟩
  site :=
    { o.site with
      documentRoot := c.documentRoot <|> o.site.documentRoot
      cacheDir := c.cacheDir <|> o.site.cacheDir }
  targets := ⟨c.coreRulesPath <|> o.targets.core, c.cacheRulesPath <|> o.targets.cache⟩
  policy := o.policy

namespace Settings

def ofTree (t : ConfigTree) (c : CommandLine.Overrides) : Except LoadError Settings :=
  match Options.read t with
  | .error e => .error (.build e)
  | .ok options => (ofOptions (options.override c)).mapError .invalid

def load {m : Type → Type} [Monad m] [Files m] (env : Environment)
    (invocation : CommandLine.Invocation) : m (Except LoadError Settings) := do
  match ← Config.readTree env invocation.configFile with
  | .error e => return .error (.build e)
  | .ok t => return ofTree t invocation.overrides

end Settings
end PageCache
