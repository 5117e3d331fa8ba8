import PageCache.Variant

/-! Files that are stored on a content delivery network. A compressed sibling has the name of the
file itself, followed by the suffix of compressed pages. -/
namespace PageCache.Cdn

structure FileMapping where
  localPath : Text
  remotePath : Text
  deriving DecidableEq, Repr

inductive Status where
  | ok
  | error
  /-- Nothing was attempted. -/
  | halt
  deriving DecidableEq, Repr

def Status.name : Status → Text
  | ok => "ok"
  | error => "error"
  | halt => "halt"

structure Outcome where
  file : FileMapping
  status : Status
  message : Text
  deriving DecidableEq, Repr

/-- What keeps the network from working. -/
inductive Failure where
  | notConfigured (reason : Text)
  | request (reason : Text)
  deriving DecidableEq, Repr

def Failure.message : Failure → Text
  | notConfigured reason => "cdn backend is not configured: " ++ reason
  | request reason => "cdn request failed: " ++ reason

def stored (f : FileMapping) : Outcome := ⟨f, .ok, "OK"⟩

/-- The outcomes when no file is attempted. -/
def haltAll (files : List FileMapping) (reason : Text) : List Outcome :=
  files.map fun f => ⟨f, .halt, reason⟩

def compressibleExtensions : List Text := ["css", "js", "html", "htm", "xml", "txt", "json", "svg"]

def withoutQuery (path : Text) : Text := path.takeWhile (· != '?')

/-- The query with its question mark. -/
def query (path : Text) : Text := path.dropWhile (· != '?')

/-- Whether the last extension of a path, up to case and without the query, is worth compressing. -/
def mayGzip (path : Text) : Bool :=
  match (withoutQuery path).splitLast? "." with
  | some (_, extension) => compressibleExtensions.any fun e => e.eqIgnoreCase extension
  | none => false

def sibling (f : FileMapping) : FileMapping :=
  { f with remotePath := f.remotePath ++ VariantTags.gzipSuffix }

/-- The mappings, each followed by its compressed sibling where it has one. -/
def withSiblings (files : List FileMapping) (compression : Bool) : List FileMapping :=
  files.flatMap fun f => if compression && mayGzip f.remotePath then [f, sibling f] else [f]

/-- The URL of the compressed sibling; the query stays last. -/
def gzipUrl (url : Text) : Text := withoutQuery url ++ VariantTags.gzipSuffix ++ query url

end PageCache.Cdn
