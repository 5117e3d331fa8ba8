import PageCache.Log
import PageCache.RuleFile

/-! What is said about operations on rule files: labels, names and log events. -/
namespace PageCache.RuleFile

namespace Outcome

def label : Outcome → Text
  | written => "written"
  | unchanged => "unchanged"
  | removed => "removed"
  | absent _ => "absent"
  | notApplicable => "not applicable"

def name : Outcome → Text
  | notApplicable => "not_applicable"
  | o => o.label

end Outcome

namespace Status

def label : Status → Text
  | inSync => "in sync"
  | drifted => "drifted"
  | missing _ => "missing"
  | notApplicable => "not applicable"

def name : Status → Text
  | inSync => "in_sync"
  | drifted => "drifted"
  | missing _ => "missing"
  | notApplicable => "not_applicable"

def logName : Status → Text
  | inSync => "InSync"
  | drifted => "Drifted"
  | missing _ => "Missing"
  | notApplicable => "NotApplicable"

end Status

def event (level : LogLevel) (message : Text) (fields : List (Text × LogValue)) : LogEvent where
  level := level
  origin := "cacherules::infra::rules"
  message := message
  fields := ("target", .quoted "cacherules::rules") :: fields

def blockEvent (level : LogLevel) (message : Text) (b : Block) (path : Text)
    (more : List (Text × LogValue)) : LogEvent :=
  event level message (("block", .quoted b.label) :: ("path", .plain path) :: more)

def failureEvent (e : FileFailure) : LogEvent :=
  event .warn "Rule file operation failed" [("error", .plain e.message)]

def outcomeEvent (server : Server) (b : Block) (path : Text) : Outcome → LogEvent
  | .written => blockEvent .info "Rules written" b path []
  | .unchanged => blockEvent .debug "Rules already current" b path []
  | .removed => blockEvent .info "Rules removed" b path []
  | .absent .noFile =>
    blockEvent .debug "Target file does not exist; nothing to remove" b path []
  | .absent .noRegion => blockEvent .debug "Region absent; nothing to remove" b path []
  | .notApplicable =>
    event .debug "Server kind not supported; skipping write"
      [("block", .quoted b.label), ("server", .plain server.name)]

/-- A check is logged if there was a text to look at. -/
def statusEvent? (b : Block) (path : Text) : Status → Option LogEvent
  | .missing .noFile | .notApplicable => none
  | s => some (blockEvent .debug "Rules checked" b path [("status", .plain s.logName)])

end PageCache.RuleFile
