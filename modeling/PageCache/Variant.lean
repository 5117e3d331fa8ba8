import PageCache.Pattern.Matcher
import PageCache.Policy

/-! Requests, and the variants of a cached page: four tags in its file name, of which groups choose the
first two. -/
namespace PageCache

/-- The attributes of a request that caching depends on. -/
structure Request where
  /-- The path without the query. -/
  uri : Text
  method : Text := "GET"
  query : Text := []
  host : Text := []
  userAgent : Text := []
  cookie : Text := []
  acceptEncoding : Text := []
  https : Bool := false
  port : Nat := 80
  deriving DecidableEq, Repr

namespace Request

def tlsPort : Nat := 443

def isTls (r : Request) : Bool := r.https || r.port == tlsPort

def acceptsGzip (r : Request) : Bool := r.acceptEncoding.includes "gzip"

end Request

/-- The tags of a cached page in the order of its file name. -/
structure VariantTags where
  device : Text := []
  referrer : Text := []
  tls : Text := []
  encoding : Text := []
  deriving DecidableEq, Repr

namespace VariantTags

def indexStem : Text := "_index"

def htmlExtension : Text := ".html"

def tlsTag : Text := "_ssl"

def gzipSuffix : Text := ".gzip"

def fileName (v : VariantTags) : Text :=
  indexStem ++ v.device ++ v.referrer ++ v.tls ++ htmlExtension ++ v.encoding

end VariantTags

inductive Subject where
  | userAgent
  | referrerCookie
  deriving DecidableEq, Repr

namespace Subject

/-- The cookie that holds where a visitor came from. -/
def referrerCookieName : Text := "pgc_referrer"

/-- The pattern that finds any of the matchers in the subject. -/
def pattern (s : Subject) (matchers : List Text) : Text :=
  match s with
  | userAgent => Pattern.alternation matchers
  | referrerCookie => referrerCookieName ++ "=.*" ++ Pattern.alternation matchers

def value (s : Subject) (r : Request) : Text :=
  match s with
  | userAgent => r.userAgent
  | referrerCookie => r.cookie

end Subject

structure TagCandidate where
  pattern : Text
  tag : Text
  deriving DecidableEq, Repr

namespace TagCandidate

/-- The candidates of the groups that only tag: the group declared last comes first. -/
def ofGroups (groups : List Group) (s : Subject) : List TagCandidate :=
  (groups.reverse.filter Group.isTagOnly).map fun g => ⟨s.pattern g.matchers, g.tag⟩

/-- The tag of the first candidate that is found, empty if none is. -/
def select (candidates : List TagCandidate) (value : Text) : Text :=
  ((candidates.find? fun c => Pattern.found true c.pattern value).map (·.tag)).getD []

end TagCandidate
end PageCache
