import PageCache.Path
import PageCache.Tenant
import PageCache.Variant

/-! The decision program: the steps that decide for each request whether a cached page is served.
One program is interpreted for a request and written as directives of either server. -/
namespace PageCache

inductive Tenancy where
  | domain
  /-- Also by the path, which the pattern takes apart. -/
  | path (pattern : Text)
  deriving DecidableEq, Repr

/-- The tenancy of a policy; a single site has none. -/
def Tenancy.ofPolicy (p : Policy) (s : Site) : Option Tenancy :=
  if p.multiTenant then
    some (if p.pathTenancy then path (Tenant.pathPattern s.basePath p.tenantNames) else domain)
  else none

inductive TagSlot where
  | device
  | referrer
  deriving DecidableEq, Repr

def TagSlot.subject : TagSlot → Subject
  | device => .userAgent
  | referrer => .referrerCookie

/-- Conditions under which the application answers instead of the cache. -/
inductive Disqualifier where
  | unsafeMethod
  | queryString
  /-- The path does not end in a slash though it should, or ends in one though it should not. -/
  | trailingSlash (expected : Bool)
  /-- The path has the pattern and not the accepted one. -/
  | rejectedUri (pattern : Text) (accepted : Option Text)
  | rejectedCookie (pattern : Text)
  | rejectedUserAgent (pattern : Text)
  deriving DecidableEq, Repr

namespace Disqualifier

def label : Disqualifier → Text
  | unsafeMethod => "unsafe_method"
  | queryString => "query_string"
  | trailingSlash _ => "trailing_slash"
  | rejectedUri .. => "rejected_uri"
  | rejectedCookie _ => "rejected_cookie"
  | rejectedUserAgent _ => "rejected_user_agent"

def ofPolicy (p : Policy) : List Disqualifier :=
  [unsafeMethod, queryString, trailingSlash p.trailingSlash] ++
    (if p.rejectUris.isEmpty then []
     else
      [rejectedUri (Pattern.alternation p.rejectUris)
        (if p.acceptFiles.isEmpty then none else some (Pattern.alternation p.acceptFiles))]) ++
    (if p.rejectCookies.isEmpty then []
     else [rejectedCookie (Pattern.alternation p.rejectCookies)]) ++
    (if p.rejectUserAgents.isEmpty then []
     else [rejectedUserAgent (Pattern.alternation p.rejectUserAgents)])

end Disqualifier

structure CacheTarget where
  documentRoot : Text
  /-- The cache directory below the document root. -/
  cachePath : Text
  tenancy : Option Tenancy
  deriving DecidableEq, Repr

namespace CacheTarget

def ofSite (s : Site) (tenancy : Option Tenancy) : CacheTarget where
  documentRoot := s.documentRoot.trimEndSlashes
  cachePath := s.cachePath
  tenancy := tenancy

/-- The cache directory with a placeholder for the tenant's segment. -/
def templatedPath (c : CacheTarget) (placeholder : Text) : Text :=
  if c.tenancy.isSome then TenantSegment.replace c.cachePath placeholder else c.cachePath

def directory (c : CacheTarget) : Option Tenant → Text
  | some t => TenantSegment.replace c.cachePath ("/" ++ t.directory ++ "/")
  | none => c.cachePath

/-- The file in which a page is cached; empty parts of its path are left out. -/
def candidate (c : CacheTarget) (tenant : Option Tenant) (uri : Text) (tags : VariantTags) :
    Text :=
  let parts := [c.directory tenant, uri].map Text.trimSlashes
  Path.push ((parts.filter (!·.isEmpty)).foldl Path.push c.documentRoot) tags.fileName

end CacheTarget

inductive Step where
  | selfTest
  | redirect (subject : Subject) (pattern target : Text)
  | detectTenant (tenancy : Tenancy)
  /-- The candidates stand in the order of precedence. -/
  | classify (slot : TagSlot) (candidates : List TagCandidate)
  | detectTls
  | detectEncoding
  | eligibility (disqualifiers : List Disqualifier)
  | serve (target : CacheTarget)
  deriving DecidableEq, Repr

/-- The tenancy in force after a step, given the one before it. -/
def Step.tenancyAfter : Step → Option Tenancy → Option Tenancy
  | .detectTenant t, _ => some t
  | _, tenancy => tenancy

structure Program where
  rewriteBase : Text
  steps : List Step
  deriving DecidableEq, Repr

namespace Program

/-- The last segment of the path that tests whether rewriting works. -/
def selfTestToken : Text := "pgcache_rewrite_test"

def selfTestPattern : Text := "^(.*\\/)?" ++ selfTestToken ++ "$"

def redirects (groups : List Group) (s : Subject) : List Step :=
  groups.filterMap fun g =>
    if g.isActive then g.redirectTarget.map fun t => .redirect s (s.pattern g.matchers) t else none

def classification (groups : List Group) (slot : TagSlot) : Step :=
  .classify slot (TagCandidate.ofGroups groups slot.subject)

def build (p : Policy) (s : Site) : Program where
  rewriteBase := if p.multiTenant then s.basePath else s.homePath
  steps :=
    let tenancy := Tenancy.ofPolicy p s
    [.selfTest] ++ redirects p.deviceGroups .userAgent ++
      redirects p.referrerGroups .referrerCookie ++ (tenancy.map Step.detectTenant).toList ++
      [classification p.deviceGroups .device, classification p.referrerGroups .referrer,
        .detectTls] ++
      (if p.compression then [.detectEncoding] else []) ++
      [.eligibility (Disqualifier.ofPolicy p), .serve (CacheTarget.ofSite s tenancy)]

def detectsEncoding (p : Program) : Bool := p.steps.contains .detectEncoding

end Program
end PageCache
