import PageCache.Path
import PageCache.Utf8

/-! Access to files: what the program needs of a file system, and the errors it may give. -/
namespace PageCache

inductive IoError where
  | notFound
  | alreadyExists
  | notDirectory
  | isDirectory
  | nameTooLong
  | nulInName
  | notUtf8
  /-- Another failure, described by the system. -/
  | other (description : Text)
  deriving DecidableEq, Repr

def IoError.message : IoError → Text
  | notFound => "No such file or directory (os error 2)"
  | alreadyExists => "File exists (os error 17)"
  | notDirectory => "Not a directory (os error 20)"
  | isDirectory => "Is a directory (os error 21)"
  | nameTooLong => "File name too long (os error 36)"
  | nulInName => "file name contained an unexpected NUL byte"
  | notUtf8 => "stream did not contain valid UTF-8"
  | other description => description

/-- A monad in which files are read and written. -/
class Files (m : Type → Type) where
  read : Text → m (Except IoError ByteArray)
  /-- Replaces the content of a file or creates the file. -/
  write : Text → ByteArray → m (Except IoError Unit)
  /-- Creates one directory, in a directory that is there. -/
  makeDirectory : Text → m (Except IoError Unit)
  isDirectory : Text → m Bool
  /-- Whether the path leads to a file or a directory. -/
  leadsSomewhere : Text → m Bool

namespace Files

variable {m : Type → Type} [Monad m] [Files m]

/-- Success if there is a directory after all. -/
def orDirectory (path : Text) : Except IoError Unit → m (Except IoError Unit)
  | .ok () => return .ok ()
  | .error e => return if ← isDirectory path then .ok () else .error e

/-- Creates a directory after its parents, which are at most as many as the fuel. -/
def createFrom : Nat → Text → m (Except IoError Unit)
  | 0, _ => return .error .notFound
  | fuel + 1, path => do
    if path.isEmpty then return .ok ()
    else
      match ← makeDirectory path with
      | .error .notFound =>
        match Path.parent? path with
        | none => return .error (.other "failed to create whole tree")
        | some parent =>
          match ← createFrom fuel parent with
          | .error e => return .error e
          | .ok () => orDirectory path (← makeDirectory path)
      | made => orDirectory path made

def createDirectories (path : Text) : m (Except IoError Unit) := createFrom (path.length + 1) path

end Files

end PageCache
