import PageCache.Config.Read

/-! The options of a configuration before they are validated: every one may be left out. -/
namespace PageCache

structure LoggingOptions where
  level : Option Text := none
  json : Option Bool := none
  deriving DecidableEq, Repr

structure ServerOptions where
  kind : Option Text := none
  /-- A signature that tells the server. -/
  software : Option Text := none
  deriving DecidableEq, Repr

structure SiteOptions where
  documentRoot : Option Text := none
  cacheDir : Option Text := none
  homePath : Option Text := none
  basePath : Option Text := none
  charset : Option Text := none
  pingbackUrl : Option Text := none
  deriving DecidableEq, Repr

structure TargetOptions where
  core : Option Text := none
  cache : Option Text := none
  deriving DecidableEq, Repr

structure GroupOptions where
  name : Option Text := none
  enabled : Option Bool := none
  matchers : Option (List Text) := none
  redirect : Option Text := none
  deriving DecidableEq, Repr

structure GroupsOptions where
  enabled : Option Bool := none
  groups : Option (List GroupOptions) := none
  deriving DecidableEq, Repr

structure BrowserCacheOptions where
  enabled : Option Bool := none
  compression : Option Bool := none
  expires : Option Bool := none
  lifetimeSeconds : Option UInt64 := none
  cacheControl : Option Bool := none
  cachePolicy : Option Text := none
  etag : Option Bool := none
  brandHeader : Option Bool := none
  deriving DecidableEq, Repr

structure PolicyOptions where
  rejectLogged : Option Bool := none
  cacheHome : Option Bool := none
  cacheFeed : Option Bool := none
  rejectCookies : Option (List Text) := none
  rejectUris : Option (List Text) := none
  rejectUserAgents : Option (List Text) := none
  acceptFiles : Option (List Text) := none
  trailingSlash : Option Bool := none
  multiTenant : Option Bool := none
  domainMapped : Option Bool := none
  tenantNames : Option (List Text) := none
  device : GroupsOptions := {}
  referrer : GroupsOptions := {}
  browserCache : BrowserCacheOptions := {}
  deriving DecidableEq, Repr

structure Options where
  logging : LoggingOptions := {}
  server : ServerOptions := {}
  site : SiteOptions := {}
  targets : TargetOptions := {}
  policy : PolicyOptions := {}
  deriving DecidableEq, Repr

open ConfigTree

def LoggingOptions.read : Reader LoggingOptions := fun v => do
  let s ← sectionOf "RawLoggingSettings" ["level", "json"] v
  return { level := ← s.get? "level" text, json := ← s.get? "json" flag }

def ServerOptions.read : Reader ServerOptions := fun v => do
  let s ← sectionOf "RawServerSettings" ["kind", "software"] v
  return { kind := ← s.get? "kind" text, software := ← s.get? "software" text }

def SiteOptions.read : Reader SiteOptions := fun v => do
  let s ← sectionOf "RawSiteSettings"
    ["document_root", "cache_dir", "home_path", "base_path", "charset", "pingback_url"] v
  return {
    documentRoot := ← s.get? "document_root" text
    cacheDir := ← s.get? "cache_dir" text
    homePath := ← s.get? "home_path" text
    basePath := ← s.get? "base_path" text
    charset := ← s.get? "charset" text
    pingbackUrl := ← s.get? "pingback_url" text }

def TargetOptions.read : Reader TargetOptions := fun v => do
  let s ← sectionOf "RawTargetSettings" ["core_rules_path", "cache_rules_path"] v
  return { core := ← s.get? "core_rules_path" text, cache := ← s.get? "cache_rules_path" text }

def GroupOptions.read : Reader GroupOptions := fun v => do
  let s ← sectionOf "RawGroup" ["name", "enabled", "matchers", "redirect"] v
  return {
    name := ← s.get? "name" text
    enabled := ← s.get? "enabled" flag
    matchers := ← s.get? "matchers" (listOf text)
    redirect := ← s.get? "redirect" text }

def GroupsOptions.read : Reader GroupsOptions := fun v => do
  let s ← sectionOf "RawGroupSettings" ["enabled", "groups"] v
  return {
    enabled := ← s.get? "enabled" flag
    groups := ← s.get? "groups" (listOf GroupOptions.read) }

def BrowserCacheOptions.read : Reader BrowserCacheOptions := fun v => do
  let s ← sectionOf "RawBrowserCacheSettings"
    ["enabled", "compression", "expires", "lifetime_seconds", "cache_control", "cache_policy",
      "etag", "brand_header"] v
  return {
    enabled := ← s.get? "enabled" flag
    compression := ← s.get? "compression" flag
    expires := ← s.get? "expires" flag
    lifetimeSeconds := ← s.get? "lifetime_seconds" natural
    cacheControl := ← s.get? "cache_control" flag
    cachePolicy := ← s.get? "cache_policy" text
    etag := ← s.get? "etag" flag
    brandHeader := ← s.get? "brand_header" flag }

def PolicyOptions.read : Reader PolicyOptions := fun v => do
  let s ← sectionOf "RawPolicySettings"
    ["reject_logged", "cache_home", "cache_feed", "reject_cookies", "reject_uris",
      "reject_user_agents", "accept_files", "trailing_slash", "multi_tenant", "domain_mapped",
      "tenant_names", "device", "referrer", "browser_cache"] v
  return {
    rejectLogged := ← s.get? "reject_logged" flag
    cacheHome := ← s.get? "cache_home" flag
    cacheFeed := ← s.get? "cache_feed" flag
    rejectCookies := ← s.get? "reject_cookies" (listOf text)
    rejectUris := ← s.get? "reject_uris" (listOf text)
    rejectUserAgents := ← s.get? "reject_user_agents" (listOf text)
    acceptFiles := ← s.get? "accept_files" (listOf text)
    trailingSlash := ← s.get? "trailing_slash" flag
    multiTenant := ← s.get? "multi_tenant" flag
    domainMapped := ← s.get? "domain_mapped" flag
    tenantNames := ← s.get? "tenant_names" (listOf text)
    device := ← s.getD "device" GroupsOptions.read {}
    referrer := ← s.getD "referrer" GroupsOptions.read {}
    browserCache := ← s.getD "browser_cache" BrowserCacheOptions.read {} }

def Options.read : Reader Options := fun v => do
  let s ← sectionOf "RawSettings" ["logging", "server", "site", "targets", "policy"] v
  return {
    logging := ← s.getD "logging" LoggingOptions.read {}
    server := ← s.getD "server" ServerOptions.read {}
    site := ← s.getD "site" SiteOptions.read {}
    targets := ← s.getD "targets" TargetOptions.read {}
    policy := ← s.getD "policy" PolicyOptions.read {} }

end PageCache
