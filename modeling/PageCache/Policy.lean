import PageCache.Text.Set

/-! The caching policy: which requests are excluded, how clients are grouped, how tenants are told
apart and which headers a cached page carries. Excluded patterns that are built in come first. -/
namespace PageCache

/-- A class of devices or referrers, recognised by any of its matchers. An active group either
redirects, if it has a target, or tags the cached page. -/
structure Group where
  name : Text
  enabled : Bool
  matchers : List Text
  redirect : Option Text := none
  deriving DecidableEq, Repr

namespace Group

def isActive (g : Group) : Bool := g.enabled && !g.matchers.isEmpty

def redirectTarget (g : Group) : Option Text := g.redirect.filter (!·.isEmpty)

def isRedirect (g : Group) : Bool := g.isActive && g.redirectTarget.isSome

def isTagOnly (g : Group) : Bool := g.isActive && g.redirectTarget.isNone

def tag (g : Group) : Text := '_' :: g.name

end Group

inductive CacheControl where
  | cache
  | cacheValidation
  | cacheNoproxy
  | cacheMaxage
  | noCache
  deriving DecidableEq, Repr

namespace CacheControl

def all : List CacheControl := [cache, cacheValidation, cacheNoproxy, cacheMaxage, noCache]

def name : CacheControl → Text
  | cache => "cache"
  | cacheValidation => "cache_validation"
  | cacheNoproxy => "cache_noproxy"
  | cacheMaxage => "cache_maxage"
  | noCache => "no_cache"

def ofName? (t : Text) : Option CacheControl := all.find? (·.name == t)

/-- The policy named by a text, without regard to blanks around it and to case. An unknown name is
returned without the blanks. -/
def parse (t : Text) : Except Text CacheControl :=
  match all.find? fun p => p.name.eqIgnoreCase t.trim with
  | some p => .ok p
  | none => .error t.trim

def unknownMessage (t : Text) : Text := "unknown cache-control policy `" ++ t ++ "`"

end CacheControl

structure BrowserCache where
  compression : Bool := false
  expires : Bool := false
  lifetimeSeconds : UInt64 := 3600
  cacheControl : Option CacheControl := none
  etag : Bool := false
  brandHeader : Bool := false
  deriving DecidableEq, Repr

def BrowserCache.disabled : BrowserCache := { lifetimeSeconds := 0 }

/-- Everything that the generated rules depend on, besides the site. Groups stand in declared
order. -/
structure Policy where
  rejectCookies : List Text
  rejectUris : List Text
  rejectUserAgents : List Text := []
  acceptFiles : List Text := []
  multiTenant : Bool := false
  domainMapped : Bool := false
  tenantNames : TextSet := ∅
  trailingSlash : Bool := true
  deviceGroups : List Group := []
  referrerGroups : List Group := []
  browserCache : BrowserCache := {}
  deriving DecidableEq, Repr

/-- Which of the built-in exclusions apply. -/
structure Builtins where
  rejectLogged : Bool := true
  cacheHome : Bool := true
  cacheFeed : Bool := false
  deriving DecidableEq, Repr

namespace Builtins

/-- Cookies of commenters and of visitors to protected pages. -/
def cookies : List Text := ["comment_author", "wp-postpass"]

def sessionCookies : List Text := ["wordpress_[a-f0-9]+", "wordpress_logged_in"]

def uris : List Text :=
  ["\\/wp-admin\\/", "\\/xmlrpc.php", "\\/wp-(app|cron|login|register|mail)\\.php"]

def homeUri : Text := "^(\\/|\\/index.php)$"

def feedUri : Text := "\\/feed\\/"

def rejectCookies (b : Builtins) : List Text :=
  cookies ++ if b.rejectLogged then sessionCookies else []

def rejectUris (b : Builtins) : List Text :=
  uris ++ (if b.cacheHome then [] else [homeUri]) ++ if b.cacheFeed then [] else [feedUri]

end Builtins

structure Exclusions where
  rejectCookies : List Text := []
  rejectUris : List Text := []
  rejectUserAgents : List Text := []
  acceptFiles : List Text := []
  deriving DecidableEq, Repr

namespace Policy

/-- The policy with the built-in exclusions and further ones. -/
def ofParts (b : Builtins) (more : Exclusions) : Policy where
  rejectCookies := b.rejectCookies ++ more.rejectCookies
  rejectUris := b.rejectUris ++ more.rejectUris
  rejectUserAgents := more.rejectUserAgents
  acceptFiles := more.acceptFiles

def default : Policy := ofParts {} {}

/-- Tenants are addressed by the first segment of the path. -/
def pathTenancy (p : Policy) : Bool := p.multiTenant && !p.domainMapped && !p.tenantNames.isEmpty

def compression (p : Policy) : Bool := p.browserCache.compression

end Policy
end PageCache
