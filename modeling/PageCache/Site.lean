import PageCache.Text

/-! The site that is served: its web server, its directories, and the directory segment that is
kept apart for each tenant. -/
namespace PageCache

inductive Server where
  | apache
  | nginx
  | unknown
  deriving DecidableEq, Repr

namespace Server

def name : Server → Text
  | apache => "apache"
  | nginx => "nginx"
  | unknown => "unknown"

/-- The server that a signature such as `Apache/2.4.57 (Debian)` names. -/
def detect (signature : Text) : Server :=
  let s := signature.lower
  if s.includes "nginx" then nginx
  else if s.includes "apache" || s.includes "litespeed" then apache
  else unknown

/-- The server that a setting names; an unsupported name is returned in lower case. -/
def parse (t : Text) : Except Text Server :=
  let s := t.trim.lower
  if s = "apache" then .ok apache
  else if s = "nginx" then .ok nginx
  else if s = "unknown" ∨ s = [] then .ok unknown
  else .error s

def unsupportedMessage (t : Text) : Text := "unsupported server kind `" ++ t ++ "`"

end Server

structure Site where
  documentRoot : Text := "/srv/www"
  /-- The directory of the cached pages. -/
  cacheDir : Text := "/srv/www/cache/page"
  homePath : Text := "/"
  /-- The path below which tenants live. -/
  basePath : Text := "/"
  charset : Text := "UTF-8"
  pingbackUrl : Option Text := none
  deriving DecidableEq, Repr

/-- The cache directory below the document root, or unchanged if it lies elsewhere. -/
def Site.cachePath (s : Site) : Text :=
  let root := s.documentRoot.trimEndSlashes
  ((s.cacheDir.stripPrefix? root).getD s.cacheDir).trimEndSlashes

namespace TenantSegment

def stem : Text := "pgc-"

/-- Whether a directory below the root of the path belongs to a tenant. -/
def occursIn (dir : Text) : Bool := dir.includes ('/' :: stem)

/-- Replaces the first tenant segment, with both its slashes, or adds one at the end if there is
none. No slash is added at the end. -/
def replace (dir replacement : Text) : Text :=
  match dir.splitFirst? ('/' :: stem) with
  | none => dir.trimEndSlashes ++ replacement.trimEndSlashes
  | some (before, after) =>
    match after.splitFirst? ['/'] with
    | some (_, rest) => before ++ replacement ++ rest
    | none => before ++ replacement.trimEndSlashes

end TenantSegment
end PageCache
