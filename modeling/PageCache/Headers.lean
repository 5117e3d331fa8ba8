import PageCache.Policy
import PageCache.Site

/-! The headers of cached pages, planned once for both servers. -/
namespace PageCache

/-- How a header meets one that the response has already. -/
inductive HeaderMode where
  | set
  | append
  deriving DecidableEq, Repr

structure CacheControlHeaders where
  pragma : Text
  value : Text
  mode : HeaderMode
  deriving DecidableEq, Repr

/-- The headers of a policy. A lifetime that `Expires` states is not stated again. -/
def CacheControlHeaders.ofPolicy (p : CacheControl) (expires : Bool) (lifetime : UInt64) :
    CacheControlHeaders :=
  match p with
  | .cache => ⟨"public", "public", .set⟩
  | .cacheValidation => ⟨"public", "public, must-revalidate, proxy-revalidate", .set⟩
  | .cacheNoproxy => ⟨"public", "public, must-revalidate", .set⟩
  | .cacheMaxage =>
    if expires then ⟨"public", "public, must-revalidate, proxy-revalidate", .append⟩
    else
      ⟨"public", "max-age=" ++ Text.ofNat lifetime.toNat ++
        ", public, must-revalidate, proxy-revalidate", .set⟩
  | .noCache => ⟨"no-cache", "max-age=0, private, no-store, no-cache, must-revalidate", .set⟩

structure HeaderPlan where
  etag : Bool
  charset : Text
  compression : Bool
  /-- The lifetime in seconds, if pages expire. -/
  expires : Option UInt64
  pingbackUrl : Option Text
  poweredBy : Option Text
  vary : Text
  cacheControl : Option CacheControlHeaders
  deriving DecidableEq, Repr

namespace HeaderPlan

def brand : Text := "cacherules/0.1.0"

def defaultCharset : Text := "UTF-8"

def build (p : Policy) (s : Site) : HeaderPlan where
  etag := p.browserCache.etag
  charset := if s.charset.isBlank then defaultCharset else s.charset
  compression := p.browserCache.compression
  expires := if p.browserCache.expires then some p.browserCache.lifetimeSeconds else none
  pingbackUrl := s.pingbackUrl.filter (!·.isEmpty)
  poweredBy := if p.browserCache.brandHeader then some brand else none
  vary := if p.browserCache.compression then "Accept-Encoding, Cookie" else "Cookie"
  cacheControl := p.browserCache.cacheControl.map fun c =>
    .ofPolicy c p.browserCache.expires p.browserCache.lifetimeSeconds

end HeaderPlan
end PageCache
