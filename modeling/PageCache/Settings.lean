import PageCache.Config.Options
import PageCache.Log
import PageCache.Path
import PageCache.Pattern.Matcher
import PageCache.Policy
import PageCache.Site

/-! Settings: validated options. Texts are trimmed and blank ones count as not given; what does not
keep the program from working is a warning. -/
namespace PageCache

inductive LogFormat where
  | compact
  | json
  deriving DecidableEq, Repr

structure Targets where
  core : Text
  cache : Text
  deriving DecidableEq, Repr

structure Settings where
  logThreshold : LogThreshold
  logFormat : LogFormat
  server : Server
  site : Site
  targets : Targets
  policy : Policy
  warnings : List Text
  deriving DecidableEq, Repr

/-- An option whose value is not acceptable. -/
structure InvalidOption where
  key : Text
  reason : Text
  deriving DecidableEq, Repr

def InvalidOption.message (e : InvalidOption) : Text :=
  "invalid configuration for `" ++ e.key ++ "`: " ++ e.reason

namespace Settings

/-- The value without blanks around it, if anything is left. -/
def given (t : Option Text) : Option Text := (t.map Text.trim).filter (!·.isEmpty)

def inQuotes (t : Text) : Text := "`" ++ t ++ "`"

def logThreshold? (o : LoggingOptions) : Except InvalidOption LogThreshold :=
  match o.level with
  | none => .ok (some .info)
  | some level =>
    match LogThreshold.parse? level with
    | some threshold => .ok threshold
    | none => .error ⟨"logging.level", "failed to parse: " ++ LogThreshold.errorMessage⟩

def logFormatOf (o : LoggingOptions) : LogFormat := if o.json.getD false then .json else .compact

def serverOf (o : ServerOptions) : Server × List Text :=
  match given o.kind with
  | some kind =>
    match Server.parse kind with
    | .ok server => (server, [])
    | .error name =>
      (.unknown,
        ["server.kind: " ++ Server.unsupportedMessage name ++ "; no rules will be generated"])
  | none =>
    match given o.software with
    | some signature =>
      let server := Server.detect signature
      (server,
        if server = .unknown then
          ["server.software: " ++ inQuotes signature ++
            " is not a supported server; no rules will be generated"]
        else [])
    | none => (.unknown, [])

/-- A URL path that starts with a slash and ends with exactly one. -/
def urlPath? (key : Text) (value : Option Text) : Except InvalidOption Text :=
  match given value with
  | none => .ok "/"
  | some path =>
    if path.startsWith "/" then .ok (path.trimEndSlashes ++ "/")
    else .error ⟨key, inQuotes path ++ " must start with `/`"⟩

def site? (o : SiteOptions) : Except InvalidOption Site := do
  let some documentRoot := given o.documentRoot
    | .error ⟨"site.document_root", "a document root is required"⟩
  let some cacheDir := given o.cacheDir
    | .error ⟨"site.cache_dir", "a cache directory is required"⟩
  if !cacheDir.startsWith "/" then
    .error ⟨"site.cache_dir", inQuotes cacheDir ++ " must be an absolute path"⟩
  else
    let homePath ← urlPath? "site.home_path" o.homePath
    let basePath ← urlPath? "site.base_path" o.basePath
    return {
      documentRoot, cacheDir, homePath, basePath
      charset := (given o.charset).getD "UTF-8"
      pingbackUrl := given o.pingbackUrl }

/-- The files that are used if none are given: one of Nginx, one in either directory otherwise. -/
def defaultTargets (server : Server) (s : Site) : Targets :=
  match server with
  | .nginx =>
    let file := Path.push s.documentRoot "nginx.conf"
    ⟨file, file⟩
  | .apache | .unknown =>
    ⟨Path.push s.documentRoot ".htaccess", Path.push s.cacheDir ".htaccess"⟩

def targets? (o : TargetOptions) (default : Targets) : Except InvalidOption Targets :=
  let core := o.core.getD default.core
  let cache := o.cache.getD default.cache
  if core.isEmpty then .error ⟨"targets.core_rules_path", "path must not be empty"⟩
  else if cache.isEmpty then .error ⟨"targets.cache_rules_path", "path must not be empty"⟩
  else .ok ⟨core, cache⟩

/-- The patterns that are not blank, without blanks around them. -/
def patternsOf (values : Option (List Text)) : List Text :=
  ((values.getD []).map Text.trim).filter (!·.isEmpty)

/-- The warnings about patterns that only the server can evaluate. -/
def patternWarnings (key : Text) (patterns : List Text) : List Text :=
  (patterns.filter (!Pattern.isValid ·)).map fun p =>
    key ++ ": pattern " ++ inQuotes p ++ " cannot be evaluated locally"

/-- Letters, digits, underscores and hyphens may stand in the name of a group. -/
def isNameChar (c : Char) : Bool := c.isAlphanum || c == '_' || c == '-'

/-- The name of a group, which must not be among the names seen before. -/
def groupName? (key : Text) (seen : List Text) (name : Option Text) : Except InvalidOption Text :=
  match given name with
  | none => .error ⟨key, "every group needs a name"⟩
  | some name =>
    if !name.all isNameChar then
      .error ⟨key,
        "group name " ++ inQuotes name ++ " may only contain letters, digits, `_` and `-`"⟩
    else if name ∈ seen then .error ⟨key, "duplicate group " ++ inQuotes name⟩
    else .ok name

/-- Groups with different names, none of which is among those seen before. -/
def groupsFrom? (key : Text) : List Text → List GroupOptions → Except InvalidOption (List Group)
  | _, [] => .ok []
  | seen, o :: rest => do
    let name ← groupName? key seen o.name
    let others ← groupsFrom? key (name :: seen) rest
    return {
      name
      enabled := o.enabled.getD true
      matchers := patternsOf o.matchers
      redirect := given o.redirect } :: others

/-- The groups of a section, none if it is disabled. -/
def groups? (key : Text) (o : GroupsOptions) : Except InvalidOption (List Group) :=
  if o.enabled.getD true then groupsFrom? key [] (o.groups.getD []) else .ok []

def groupWarnings (key : Text) (groups : List Group) : List Text :=
  groups.flatMap fun g => patternWarnings key g.matchers

/-- The headers of cached pages and the warnings about them. -/
def browserCacheOf (o : BrowserCacheOptions) : BrowserCache × List Text :=
  if !o.enabled.getD true then (.disabled, [])
  else
    let (cacheControl, warnings) : Option CacheControl × List Text :=
      match if o.cacheControl.getD false then given o.cachePolicy else none with
      | none => (none, [])
      | some name =>
        match CacheControl.parse name with
        | .ok c => (some c, [])
        | .error name =>
          (none,
            ["policy.browser_cache.cache_policy: " ++ CacheControl.unknownMessage name ++
              "; no cache-control headers will be emitted"])
    ({ compression := o.compression.getD false
       expires := o.expires.getD false
       lifetimeSeconds := o.lifetimeSeconds.getD 3600
       cacheControl
       etag := o.etag.getD false
       brandHeader := o.brandHeader.getD false }, warnings)

def builtinsOf (o : PolicyOptions) : Builtins where
  rejectLogged := o.rejectLogged.getD true
  cacheHome := o.cacheHome.getD true
  cacheFeed := o.cacheFeed.getD false

def exclusionsOf (o : PolicyOptions) : Exclusions where
  rejectCookies := patternsOf o.rejectCookies
  rejectUris := patternsOf o.rejectUris
  rejectUserAgents := patternsOf o.rejectUserAgents
  acceptFiles := patternsOf o.acceptFiles

def exclusionWarnings (e : Exclusions) : List Text :=
  patternWarnings "policy.reject_cookies" e.rejectCookies ++
    patternWarnings "policy.reject_uris" e.rejectUris ++
    patternWarnings "policy.reject_user_agents" e.rejectUserAgents ++
    patternWarnings "policy.accept_files" e.acceptFiles

def tenantNamesOf (o : PolicyOptions) : TextSet :=
  .ofList (((o.tenantNames.getD []).map Text.trim).filter (!·.isEmpty))

def policy? (o : PolicyOptions) : Except InvalidOption (Policy × List Text) := do
  let exclusions := exclusionsOf o
  let deviceGroups ← groups? "policy.device.groups" o.device
  let referrerGroups ← groups? "policy.referrer.groups" o.referrer
  let (browserCache, headerWarnings) := browserCacheOf o.browserCache
  let p : Policy :=
    { Policy.ofParts (builtinsOf o) exclusions with
      deviceGroups, referrerGroups, browserCache
      trailingSlash := o.trailingSlash.getD true
      multiTenant := o.multiTenant.getD false
      domainMapped := o.domainMapped.getD false
      tenantNames := tenantNamesOf o }
  if p.multiTenant && !p.domainMapped && p.tenantNames.isEmpty then
    .error ⟨"policy.tenant_names",
      "path-addressed multi-tenant mode needs at least one tenant name"⟩
  else
    return (p,
      exclusionWarnings exclusions ++ groupWarnings "policy.device.groups" deviceGroups ++
        groupWarnings "policy.referrer.groups" referrerGroups ++ headerWarnings)

/-- The settings of options. With several tenants the cache directory has to hold the segment that
is replaced for each of them. -/
def ofOptions (o : Options) : Except InvalidOption Settings := do
  let logThreshold ← logThreshold? o.logging
  let (server, serverWarnings) := serverOf o.server
  let site ← site? o.site
  let targets ← targets? o.targets (defaultTargets server site)
  let (policy, policyWarnings) ← policy? o.policy
  if policy.multiTenant && !TenantSegment.occursIn site.cacheDir then
    .error ⟨"site.cache_dir",
      inQuotes site.cacheDir ++ " needs a `/" ++ TenantSegment.stem ++
        "<domain>/` segment in multi-tenant mode"⟩
  else
    return {
      logThreshold, server, site, targets, policy
      logFormat := logFormatOf o.logging
      warnings := serverWarnings ++ policyWarnings }

end Settings
end PageCache
