import PageCache.Decision.Program
import PageCache.Headers
import PageCache.Nginx.Directive

/-! The rules of a cache as Nginx directives. Eligibility is a variable: it starts at 1, each
disqualifying block sets it to 0, and the cached page is served while it is still 1. -/
namespace PageCache.Nginx

def subjectVariable : Subject → Text
  | .userAgent => "$http_user_agent"
  | .referrerCookie => "$http_cookie"

def slotVariable : TagSlot → Text
  | .device => "$pgc_ua"
  | .referrer => "$pgc_ref"

def ineligible : Action := .set "$pgc_rewrite" (.bare "0")

def ineligibleIf (c : Condition) : Directive := .block c [ineligible]

def tenantDirectives (t : Tenancy) : List Directive :=
  [.set "$pgc_domain" (.inQuotes []),
    .block (.test "$http_host" .sensitive (.inQuotes Tenant.hostPattern))
      [.set "$pgc_domain" (.bare "$2")]] ++
    match t with
    | .domain => []
    | .path pattern =>
      [.set "$pgc_tenant" (.inQuotes []), .set "$pgc_uri" (.bare "$request_uri"),
        .block (.test "$request_uri" .sensitive (.inQuotes pattern))
          [.set "$pgc_tenant" (.bare "$1."), .set "$pgc_uri" (.bare "$2")]]

/-- Later blocks overwrite earlier ones, so the candidate that takes precedence comes last. -/
def classifyDirectives (slot : TagSlot) (candidates : List TagCandidate) : List Directive :=
  .set (slotVariable slot) (.inQuotes []) ::
    candidates.reverse.map fun c =>
      .block (.test (subjectVariable slot.subject) .insensitive (.inQuotes c.pattern))
        [.set (slotVariable slot) (.given c.tag)]

def tlsDirectives : List Directive :=
  let mark : List Action := [.set "$pgc_ssl" (.bare VariantTags.tlsTag)]
  [.set "$pgc_ssl" (.inQuotes []), .block (.equal "$scheme" (.bare "https")) mark,
    .block (.equal "$server_port" (.bare "443")) mark]

def encodingDirectives : List Directive :=
  [.set "$pgc_enc" (.inQuotes []),
    .block (.test "$http_accept_encoding" .sensitive (.bare "gzip"))
      [.set "$pgc_enc" (.bare VariantTags.gzipSuffix)]]

def disqualifierDirectives : Disqualifier → List Directive
  | .unsafeMethod => [ineligibleIf (.equal "$request_method" (.bare "POST"))]
  | .queryString => [ineligibleIf (.notEqual "$query_string" (.inQuotes []))]
  | .trailingSlash true => [ineligibleIf (.test "$request_uri" .negated (.bare "\\/$"))]
  | .trailingSlash false => [ineligibleIf (.test "$request_uri" .negated (.bare "[^\\/]$"))]
  | .rejectedUri pattern none =>
    [ineligibleIf (.test "$request_uri" .insensitive (.inQuotes pattern))]
  | .rejectedUri pattern (some accepted) =>
    [.set "$pgc_rewrite2" (.bare "1"),
      .block (.test "$request_uri" .insensitive (.inQuotes pattern))
        [.set "$pgc_rewrite2" (.bare "0")],
      .block (.test "$request_uri" .insensitive (.inQuotes accepted))
        [.set "$pgc_rewrite2" (.bare "1")],
      ineligibleIf (.notEqual "$pgc_rewrite2" (.bare "1"))]
  | .rejectedCookie pattern =>
    [ineligibleIf (.test "$http_cookie" .insensitive (.inQuotes pattern))]
  | .rejectedUserAgent pattern =>
    [ineligibleIf (.test "$http_user_agent" .insensitive (.inQuotes pattern))]

/-- The path of the cached file below the document root, with variables. -/
def cacheFile (target : CacheTarget) (tenancy : Option Tenancy) (encoding : Text) : Text :=
  let (directory, uri) : Text × Text := match tenancy with
    | none => (target.cachePath, "$request_uri")
    | some .domain =>
      (target.templatedPath ("/" ++ TenantSegment.stem ++ "$pgc_domain/"), "$request_uri")
    | some (.path _) =>
      (target.templatedPath ("/" ++ TenantSegment.stem ++ "$pgc_tenant$pgc_domain/"), "$pgc_uri")
  directory ++ "/" ++ uri ++ "/" ++ VariantTags.indexStem ++ "$pgc_ua$pgc_ref$pgc_ssl" ++
    VariantTags.htmlExtension ++ encoding

def serveDirectives (file : Text) : List Directive :=
  [ineligibleIf (.noFile ("$document_root" ++ file)),
    .block (.equal "$pgc_rewrite" (.bare "1")) [.rewrite ".*" (.inQuotes file) .last]]

/-- The directives of a step, given the tenancy detected last and the variable of the encoding. -/
def stepDirectives (tenancy : Option Tenancy) (encoding : Text) : Step → List Directive
  | .selfTest =>
    [.act (.rewrite Program.selfTestPattern (.bare ("$1?" ++ Program.selfTestToken ++ "=1")) .last)]
  | .redirect subject pattern target =>
    [.block (.test (subjectVariable subject) .insensitive (.inQuotes pattern))
      [.rewrite ".*" (.given target) .redirect]]
  | .detectTenant t => tenantDirectives t
  | .classify slot candidates => classifyDirectives slot candidates
  | .detectTls => tlsDirectives
  | .detectEncoding => encodingDirectives
  | .eligibility ds => .set "$pgc_rewrite" (.bare "1") :: ds.flatMap disqualifierDirectives
  | .serve target => serveDirectives (cacheFile target tenancy encoding)

def stepsDirectives (encoding : Text) : Option Tenancy → List Step → List Directive
  | _, [] => []
  | tenancy, s :: steps =>
    stepDirectives tenancy encoding s ++ stepsDirectives encoding (s.tenancyAfter tenancy) steps

def coreDirectives (p : Program) : List Directive :=
  stepsDirectives (if p.detectsEncoding then "$pgc_enc" else []) none p.steps

/-- The routing rules of the application's directory. -/
def coreRules (p : Program) : Text := render (coreDirectives p)

def headerLines (plan : HeaderPlan) : List Text :=
  Text.keepIf "etag on;" plan.etag ++
    [("charset " ++ plan.charset ++ ";" : Text)] ++
    Text.enclosed? (plan.expires.map fun n => Text.ofNat n.toNat) "expires modified " "s;" ++
    Text.enclosed? plan.pingbackUrl "add_header X-Pingback \"" "\";" ++
    Text.enclosed? plan.poweredBy "add_header X-Powered-By \"" "\";" ++
    [("add_header Vary \"" ++ plan.vary ++ "\";" : Text)] ++
    Text.enclosed? (plan.cacheControl.map (·.pragma)) "add_header Pragma \"" "\";" ++
    Text.enclosed? (plan.cacheControl.map (·.value)) "add_header Cache-Control \"" "\";"

def gzipLines (plan : HeaderPlan) : List Text :=
  "gzip off;" :: "types \x7b\x7d" :: "default_type text/html;" ::
    (headerLines plan).concat "add_header Content-Encoding gzip;"

/-- The locations of the cached pages, and of the compressed ones if there are any. -/
def locations (plan : HeaderPlan) (target : CacheTarget) : List Location :=
  let path := target.templatedPath ("/" ++ TenantSegment.stem ++ ".*?/")
  ⟨path ++ ".*html$", headerLines plan⟩ ::
    if plan.compression then [⟨path ++ ".*gzip$", gzipLines plan⟩] else []

/-- The header rules of the cache directory. -/
def cacheRules (plan : HeaderPlan) (target : CacheTarget) : Text :=
  (locations plan target).flatMap Location.render

end PageCache.Nginx
