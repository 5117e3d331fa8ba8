import PageCache.Config.Load
import PageCache.Decision.Evaluate
import PageCache.Policy.Toml
import PageCache.RuleFile.Report

/-! A run of the program: arguments and an environment in, and an exit code, a text for standard
output and log entries out. Files are reached through the monad. -/
namespace PageCache

def Decision.toJson : Decision → Json
  | selfTest => .obj [("decision", .str "self_test")]
  | redirect target => .obj [("decision", .str "redirect"), ("target", .str target)]
  | bypass reason => .obj [("decision", .str "bypass"), ("reason", .str reason)]
  | miss candidate => .obj [("decision", .str "miss"), ("candidate", .str candidate)]
  | serve file => .obj [("decision", .str "serve"), ("file", .str file)]

inductive LogEntry where
  | event (format : LogFormat) (e : LogEvent)
  /-- A complaint about the log filter itself. -/
  | complaint (t : Text)
  deriving DecidableEq, Repr

def LogEntry.toText : LogEntry → Text
  | event .compact e => e.toLine
  | event .json e => e.toJson.compact
  | complaint t => t

structure RunResult where
  exitCode : Nat
  output : Text
  log : List LogEntry
  deriving DecidableEq, Repr

/-- What a command prints and logs, and whether something failed. -/
structure Answer where
  output : Text := []
  events : List LogEvent := []
  failed : Bool := false
  deriving DecidableEq, Repr

namespace Run

def programName : Text := "cacherules"

def version : Text := "0.1.0"

def event (level : LogLevel) (message : Text) (fields : List (Text × LogValue)) : LogEvent where
  level := level
  origin := programName
  message := message
  fields := fields

def filterVariable : Text := "RUST_LOG"

/-- The log filter with complaints: the rules of the environment, else the threshold of the
settings. -/
def logFilter (env : Environment) (s : Settings) : LogFilter × List Text :=
  let (rules, complaints) := LogFilter.parse ((env.vars.lookup filterVariable).getD [])
  (if rules.isEmpty then [⟨[], s.logThreshold⟩] else rules, complaints)

def warningEvent (warning : Text) : LogEvent :=
  event .warn warning [("target", .quoted "cacherules::config")]

def target (s : Settings) : Block → Text
  | .core => s.targets.core
  | .cache => s.targets.cache

def rules? (s : Settings) (b : Block) : Option Text := s.server.rules? b s.policy s.site

/-- The rules of a block between their markers, or an event if there are none. -/
def render (s : Settings) (b : Block) : Answer :=
  match s.server.blockText? b s.policy s.site with
  | some text => { output := text }
  | none =>
    { events :=
        [event .warn "No rules are generated for this server kind"
          [("target", .quoted "cacherules::render"), ("server", .plain s.server.name)]] }

def reportLine (b : Block) (label path : Text) : Text :=
  b.label ++ ": " ++ label ++ " (" ++ path ++ ")\n"

def failedLabel (e : FileFailure) : Text := "failed: " ++ e.message

/-- What is said about the outcome of writing or removing a block. -/
def reportOutcome (s : Settings) (b : Block) : Except FileFailure RuleFile.Outcome → Answer
  | .ok o =>
    { output := reportLine b o.label (target s b)
      events := [RuleFile.outcomeEvent s.server b (target s b) o] }
  | .error e =>
    { output := reportLine b (failedLabel e) (target s b)
      events := [RuleFile.failureEvent e]
      failed := true }

/-- The status of a block in its file, or why it is not known. -/
structure CheckReport where
  block : Block
  path : Text
  status : Except FileFailure RuleFile.Status

namespace CheckReport

def isHealthy (r : CheckReport) : Bool :=
  match r.status with
  | .ok status => status.isHealthy
  | .error _ => false

def toLine (r : CheckReport) : Text :=
  match r.status with
  | .ok status => reportLine r.block status.label r.path
  | .error e => reportLine r.block (failedLabel e) r.path

def toJson (r : CheckReport) : Json :=
  .obj
    (("file", .str r.block.label) :: ("path", .str r.path) ::
      match r.status with
      | .ok status => [("status", .str status.name)]
      | .error e => [("status", .null), ("error", .str e.message)])

def event? (r : CheckReport) : Option LogEvent :=
  match r.status with
  | .ok status => RuleFile.statusEvent? r.block r.path status
  | .error e => some (RuleFile.failureEvent e)

end CheckReport

def reportChecks (json : Bool) (reports : List CheckReport) : Answer :=
  let healthy := reports.all CheckReport.isHealthy
  { output :=
      if json then (Json.arr (reports.map CheckReport.toJson)).pretty ++ "\n"
      else reports.flatMap CheckReport.toLine
    events :=
      reports.filterMap CheckReport.event? ++
        [event .info "Check completed"
          [("target", .quoted "cacherules::check"), ("healthy", .bool healthy)]]
    failed := !healthy }

def combine (fs : List Answer) : Answer where
  output := fs.flatMap (·.output)
  events := fs.flatMap (·.events)
  failed := fs.any (·.failed)

section
variable {m : Type → Type} [Monad m] [Files m]

def checkReport (s : Settings) (b : Block) : m CheckReport := do
  return ⟨b, target s b, ← RuleFile.check b (rules? s b) (target s b)⟩

/-- Whether there is a file with the page that a program looks for. The candidate does not depend
on the answer. -/
def probe (s : Settings) (r : Request) : m Answer := do
  let program := Program.build s.policy s.site
  let fileExists ← match program.evaluate r fun _ => false with
    | .miss candidate => Files.leadsSomewhere candidate
    | _ => pure false
  return { output := (program.evaluate r fun _ => fileExists).toJson.pretty ++ "\n" }

def runCommand (s : Settings) : CommandLine.Command → m Answer
  | .render b => return render s b
  | .write files => do
    return combine (← files.blocks.mapM fun b => do
      return reportOutcome s b (← RuleFile.write b (rules? s b) (target s b)))
  | .remove files => do
    return combine (← files.blocks.mapM fun b => do
      return reportOutcome s b (← RuleFile.remove b (target s b)))
  | .check files json => do
    return reportChecks json (← files.blocks.mapM (checkReport s))
  | .policy => return { output := s.policy.toToml }
  | .probe r => probe s r

def usage : CommandLine.UsageError → RunResult
  | .displayVersion => ⟨0, programName ++ " " ++ version ++ "\n", []⟩
  | .displayHelp =>
    ⟨0, "Usage: " ++ programName ++ " [--config-file <PATH>] <COMMAND>\n\nCommands: " ++
      Text.join CommandLine.topGrammar.commands ", " ++ "\n", []⟩
  | _ => ⟨2, [], []⟩

def fatal (e : LoadError) : RunResult where
  exitCode := 1
  output := []
  log :=
    [.event .compact
      (event .error "application error"
        [("error", .plain ("failed to load configuration: " ++ e.message))])]

/-- The result of a command with the log entries that the filter lets through. -/
def finish (env : Environment) (s : Settings) (f : Answer) : RunResult :=
  let (filter, complaints) := logFilter env s
  let events := (s.warnings.map warningEvent ++ f.events).filter filter.allows
  { exitCode := if f.failed then 1 else 0
    output := f.output
    log := complaints.map LogEntry.complaint ++ events.map (LogEntry.event s.logFormat) }

def run (env : Environment) (args : List Text) : m RunResult := do
  match CommandLine.parse args (env.vars.lookup Config.configFileVariable) with
  | .error e => return usage e
  | .ok invocation =>
    match ← Settings.load env invocation with
    | .error e => return fatal e
    | .ok s => return finish env s (← runCommand s invocation.command)

end

end Run
end PageCache
