import PageCache.Files
import PageCache.Path
import PageCache.Rules

/-! Keeping a block in its file: each operation reads the whole file and writes it at most once. A
file that does not exist reads as absent; one that cannot be read is never written. -/
namespace PageCache

/-- Why a rule file was not handled. -/
inductive FileFailure where
  | unreadable (path : Text) (cause : IoError)
  | unwritable (path : Text) (cause : IoError)
  deriving DecidableEq, Repr

def FileFailure.message : FileFailure → Text
  | unreadable path cause => "failed to read `" ++ path ++ "`: " ++ cause.message
  | unwritable path cause => "failed to write `" ++ path ++ "`: " ++ cause.message

namespace RuleFile

inductive Absence where
  | noFile
  | noRegion
  deriving DecidableEq, Repr

inductive Outcome where
  | written
  /-- The file carried the block already. -/
  | unchanged
  | removed
  | absent (why : Absence)
  /-- The server has no rules. -/
  | notApplicable
  deriving DecidableEq, Repr

/-- How the block in a file compares with the current rules. -/
inductive Status where
  | inSync
  | drifted
  | missing (why : Absence)
  | notApplicable
  deriving DecidableEq, Repr

def Status.isHealthy : Status → Bool
  | inSync | notApplicable => true
  | drifted | missing _ => false

/-- The text of a file with the rules of a block installed. The core rules also replace those of a
competing page cache. -/
def install (b : Block) (rules current : Text) : Text :=
  let current := match b with
    | .core => Region.superCache.erase current
    | .cache => current
  b.region.upsert current rules b.anchors

def statusOf (b : Block) (rules current : Text) : Status :=
  if b.region.isCurrent current rules then .inSync
  else if (b.region.locate? current).isSome then .drifted
  else .missing .noRegion

section
variable {m : Type → Type} [Monad m] [Files m]

/-- The text of a file, or none if the file does not exist. -/
def readText? (path : Text) : m (Except FileFailure (Option Text)) := do
  match ← Files.read path with
  | .ok bytes =>
    match Utf8.decode? bytes with
    | some text => return .ok (some text)
    | none => return .error (.unreadable path .notUtf8)
  | .error .notFound => return .ok none
  | .error cause => return .error (.unreadable path cause)

def makeParents (path : Text) : m (Except IoError Unit) :=
  match (Path.parent? path).filter (!·.isEmpty) with
  | some parent => Files.createDirectories parent
  | none => return .ok ()

/-- Writes a file below directories that are created if they are missing. -/
def writeText (path text : Text) : m (Except FileFailure Unit) := do
  match ← makeParents path with
  | .error cause => return .error (.unwritable path cause)
  | .ok () =>
    match ← Files.write path (Utf8.encode text) with
    | .error cause => return .error (.unwritable path cause)
    | .ok () => return .ok ()

/-- Installs the rules of a block, if there are any. -/
def write (b : Block) (rules : Option Text) (path : Text) : m (Except FileFailure Outcome) := do
  match rules with
  | none => return .ok .notApplicable
  | some rules =>
    match ← readText? path with
    | .error e => return .error e
    | .ok current =>
      let current := current.getD []
      let updated := install b rules current
      if updated = current then return .ok .unchanged
      else
        match ← writeText path updated with
        | .error e => return .error e
        | .ok () => return .ok .written

def remove (b : Block) (path : Text) : m (Except FileFailure Outcome) := do
  match ← readText? path with
  | .error e => return .error e
  | .ok none => return .ok (.absent .noFile)
  | .ok (some current) =>
    if (b.region.locate? current).isNone then return .ok (.absent .noRegion)
    else
      match ← writeText path (b.region.erase current) with
      | .error e => return .error e
      | .ok () => return .ok .removed

def check (b : Block) (rules : Option Text) (path : Text) : m (Except FileFailure Status) := do
  match rules with
  | none => return .ok .notApplicable
  | some rules =>
    match ← readText? path with
    | .error e => return .error e
    | .ok none => return .ok (.missing .noFile)
    | .ok (some current) => return .ok (statusOf b rules current)

end

end RuleFile
end PageCache
