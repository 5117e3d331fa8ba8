import PageCache.Policy
import PageCache.Toml.Printer

/-! The policy as a TOML document: plain values first, then the groups and the headers as
tables. -/
namespace PageCache

open Toml.Printer

def Group.toToml (g : Group) : Text :=
  line "name" (string g.name) ++ line "enabled" (bool g.enabled) ++
    line "matchers" (textArray g.matchers) ++ textLine? "redirect" g.redirect

def BrowserCache.toToml (b : BrowserCache) : Text :=
  line "compression" (bool b.compression) ++ line "expires" (bool b.expires) ++
    line "lifetime_seconds" (Text.ofNat b.lifetimeSeconds.toNat) ++
    textLine? "cache_control" (b.cacheControl.map (·.name)) ++
    line "etag" (bool b.etag) ++ line "brand_header" (bool b.brandHeader)

namespace Policy

/-- The plain value of a list of groups, which is only written if the list is empty. -/
def emptyGroups (key : Text) (groups : List Group) : Text :=
  if groups.isEmpty then line key (array []) else []

def groupTables (key : Text) (groups : List Group) : Text :=
  groups.flatMap fun g => "\n[[" ++ key ++ "]]\n" ++ g.toToml

def toToml (p : Policy) : Text :=
  line "reject_cookies" (textArray p.rejectCookies) ++
    line "reject_uris" (textArray p.rejectUris) ++
    line "reject_user_agents" (textArray p.rejectUserAgents) ++
    line "accept_files" (textArray p.acceptFiles) ++
    line "multi_tenant" (bool p.multiTenant) ++
    line "domain_mapped" (bool p.domainMapped) ++
    line "tenant_names" (textArray p.tenantNames.toList) ++
    line "trailing_slash" (bool p.trailingSlash) ++
    emptyGroups "device_groups" p.deviceGroups ++
    emptyGroups "referrer_groups" p.referrerGroups ++
    groupTables "device_groups" p.deviceGroups ++
    groupTables "referrer_groups" p.referrerGroups ++
    "\n[browser_cache]\n" ++ p.browserCache.toToml

end Policy
end PageCache
