import PageCache.Decision.Program
import PageCache.Headers
import PageCache.Apache.Directive

/-! The rules of a cache as Apache directives. State is kept in environment variables, and every
condition of eligibility guards the last rule, which serves the cached page. -/
namespace PageCache.Apache

def subjectVariable : Subject → Text
  | .userAgent => "%\x7bHTTP_USER_AGENT\x7d"
  | .referrerCookie => "%\x7bHTTP_COOKIE\x7d"

def condition (subject : Text) (check : Check) : Directive :=
  .cond (.bare subject) check false false

def caselessCondition (subject : Text) (negated : Bool) (pattern : Text) : Directive :=
  .cond (.bare subject) (.pattern negated pattern) true false

def requestUri : Text := "%\x7bREQUEST_URI\x7d"

def envValue (name : Text) : Text := "%\x7bENV:" ++ name ++ "\x7d"

def slotVariable : TagSlot → Text
  | .device => "PGC_UA"
  | .referrer => "PGC_REF"

/-- A rule that sets environment variables and rewrites nothing. -/
def setEnv (values : List (Text × Word)) : Directive :=
  .rule ".*" (.bare "-") (values.map fun v => .env v.1 v.2)

def tenantDirectives (t : Tenancy) : List Directive :=
  [condition "%\x7bHTTP_HOST\x7d" (.pattern false Tenant.hostPattern),
    setEnv [("PGC_DOMAIN", .bare "%2")]] ++
    match t with
    | .domain => []
    | .path pattern =>
      [setEnv [("PGC_URI", .bare requestUri)], condition requestUri (.pattern false pattern),
        setEnv [("PGC_TENANT", .bare "%1."), ("PGC_URI", .bare "%2")]]

/-- Later rules overwrite earlier ones, so the candidate that takes precedence comes last. -/
def classifyDirectives (slot : TagSlot) (candidates : List TagCandidate) : List Directive :=
  candidates.reverse.flatMap fun c =>
    [caselessCondition (subjectVariable slot.subject) false c.pattern,
      setEnv [(slotVariable slot, .given c.tag)]]

def tlsDirectives : List Directive :=
  let mark := setEnv [("PGC_SSL", .bare VariantTags.tlsTag)]
  [condition "%\x7bHTTPS\x7d" (.equal (.bare "on")), mark,
    condition "%\x7bSERVER_PORT\x7d" (.equal (.bare "443")), mark]

def encodingDirectives : List Directive :=
  [condition "%\x7bHTTP:Accept-Encoding\x7d" (.pattern false "gzip"),
    setEnv [("PGC_ENC", .bare VariantTags.gzipSuffix)]]

/-- Conditions that hold while a request is not disqualified. -/
def eligibilityConditions : Disqualifier → List Directive
  | .unsafeMethod => [condition "%\x7bREQUEST_METHOD\x7d" (.notEqual (.bare "POST"))]
  | .queryString => [condition "%\x7bQUERY_STRING\x7d" (.equal (.inQuotes []))]
  | .trailingSlash true => [condition requestUri (.pattern false "\\/$")]
  | .trailingSlash false => [condition requestUri (.pattern false "[^\\/]$")]
  | .rejectedUri pattern none => [caselessCondition requestUri true pattern]
  | .rejectedUri pattern (some accepted) =>
    [.cond (.bare requestUri) (.pattern true pattern) true true,
      caselessCondition requestUri false accepted]
  | .rejectedCookie pattern => [caselessCondition (subjectVariable .referrerCookie) true pattern]
  | .rejectedUserAgent pattern => [caselessCondition (subjectVariable .userAgent) true pattern]

/-- The path of the cached file below the document root, with variables. -/
def cacheFile (target : CacheTarget) (tenancy : Option Tenancy) (encoding : Text) : Text :=
  let (directory, uri) : Text × Text := match tenancy with
    | none => (target.cachePath, requestUri)
    | some .domain =>
      (target.templatedPath ("/" ++ TenantSegment.stem ++ envValue "PGC_DOMAIN" ++ "/"), requestUri)
    | some (.path _) =>
      (target.templatedPath
        ("/" ++ TenantSegment.stem ++ envValue "PGC_TENANT" ++ envValue "PGC_DOMAIN" ++ "/"),
        envValue "PGC_URI")
  directory ++ "/" ++ uri ++ "/" ++ VariantTags.indexStem ++ envValue "PGC_UA" ++
    envValue "PGC_REF" ++ envValue "PGC_SSL" ++ VariantTags.htmlExtension ++ encoding

def serveDirectives (file : Text) : List Directive :=
  [.cond (.inQuotes ("%\x7bDOCUMENT_ROOT\x7d" ++ file)) .isFile false false,
    .rule ".*" (.inQuotes file) [.last]]

/-- The directives of a step, given the tenancy detected last and the value of the encoding. -/
def stepDirectives (tenancy : Option Tenancy) (encoding : Text) : Step → List Directive
  | .selfTest =>
    [.rule Program.selfTestPattern (.bare ("$1?" ++ Program.selfTestToken ++ "=1")) [.last]]
  | .redirect subject pattern target =>
    [caselessCondition (subjectVariable subject) false pattern,
      .rule ".*" (.given target) [.redirect, .last]]
  | .detectTenant t => tenantDirectives t
  | .classify slot candidates => classifyDirectives slot candidates
  | .detectTls => tlsDirectives
  | .detectEncoding => encodingDirectives
  | .eligibility ds => ds.flatMap eligibilityConditions
  | .serve target => serveDirectives (cacheFile target tenancy encoding)

def stepsDirectives (encoding : Text) : Option Tenancy → List Step → List Directive
  | _, [] => []
  | tenancy, s :: steps =>
    stepDirectives tenancy encoding s ++ stepsDirectives encoding (s.tenancyAfter tenancy) steps

def coreDirectives (p : Program) : List Directive :=
  [.engineOn, .base p.rewriteBase] ++
    stepsDirectives (if p.detectsEncoding then envValue "PGC_ENC" else []) none p.steps

/-- The routing rules of the application's directory. -/
def coreRules (p : Program) : Text := render (coreDirectives p)

def modeWord : HeaderMode → Text
  | .set => "set"
  | .append => "append"

def headerLines (plan : HeaderPlan) : List Text :=
  Text.enclosed? plan.pingbackUrl "Header set X-Pingback \"" "\"" ++
    Text.enclosed? plan.poweredBy "Header set X-Powered-By \"" "\"" ++
    [("Header set Vary \"" ++ plan.vary ++ "\"" : Text)] ++
    match plan.cacheControl with
    | none => []
    | some h =>
      ["Header set Pragma \"" ++ h.pragma ++ "\"",
        "Header " ++ modeWord h.mode ++ " Cache-Control \"" ++ h.value ++ "\""]

def compressionRules : Text :=
  ifModule "mod_mime.c"
      ["AddType text/html " ++ VariantTags.gzipSuffix,
        "AddEncoding gzip " ++ VariantTags.gzipSuffix] ++
    ifModule "mod_deflate.c" ["SetEnvIfNoCase Request_URI \\.gzip$ no-gzip"]

/-- The header rules of the cache directory. -/
def cacheRules (plan : HeaderPlan) : Text :=
  (if plan.etag then "FileETag MTime Size\n" else "") ++
    "AddDefaultCharset " ++ plan.charset ++ "\n" ++
    (if plan.compression then compressionRules else []) ++
    (match plan.expires with
    | some lifetime =>
      ifModule "mod_expires.c"
        ["ExpiresActive On", "ExpiresByType text/html M" ++ Text.ofNat lifetime.toNat]
    | none => []) ++
    ifModule "mod_headers.c" (headerLines plan)

end PageCache.Apache
