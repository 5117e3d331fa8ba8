import PageCache.Json.Decode
import PageCache.Policy

/-! The JSON form of a policy. An absent redirect or cache-control policy has no member. -/
namespace PageCache

def Json.texts (ts : List Text) : Json := .arr (ts.map .str)

/-- The members before others, of which a text that is absent is left out. -/
def Json.consText? (key : Text) (t : Option Text) (rest : List (Text × Json)) :
    List (Text × Json) :=
  match t with
  | some t => (key, .str t) :: rest
  | none => rest

namespace Group

def toJson (g : Group) : Json :=
  .obj
    (("name", .str g.name) :: ("enabled", .bool g.enabled) :: ("matchers", .texts g.matchers) ::
      Json.consText? "redirect" g.redirect [])

def rules : List Json.FieldRule :=
  [.required "name" Json.Decode.text, .required "enabled" Json.Decode.flag,
    .required "matchers" (Json.Decode.listOf Json.Decode.text),
    .maybe "redirect" (Json.Decode.optional Json.Decode.text)]

def readJson (visit : Json.Visit) (v : Json) : Except Json.DecodeError Group := do
  let fields ← Json.readFields visit "Group" rules v
  return {
    name := ← fields.get "name" Json.Decode.text
    enabled := ← fields.get "enabled" Json.Decode.flag
    matchers := ← fields.get "matchers" (Json.Decode.listOf Json.Decode.text)
    redirect := ← fields.get? "redirect" Json.Decode.text }

end Group

def CacheControl.ofJson (v : Json) : Except Json.DecodeError CacheControl :=
  Json.Decode.choice (CacheControl.all.map fun c => (c.name, c)) v

namespace BrowserCache

def toJson (b : BrowserCache) : Json :=
  .obj
    (("compression", .bool b.compression) :: ("expires", .bool b.expires) ::
      ("lifetime_seconds", .int b.lifetimeSeconds.toNat) ::
      Json.consText? "cache_control" (b.cacheControl.map (·.name))
        [("etag", .bool b.etag), ("brand_header", .bool b.brandHeader)])

def rules : List Json.FieldRule :=
  [.required "compression" Json.Decode.flag, .required "expires" Json.Decode.flag,
    .required "lifetime_seconds" Json.Decode.natural,
    .maybe "cache_control" (Json.Decode.optional CacheControl.ofJson),
    .required "etag" Json.Decode.flag, .required "brand_header" Json.Decode.flag]

def readJson (visit : Json.Visit) (v : Json) : Except Json.DecodeError BrowserCache := do
  let fields ← Json.readFields visit "BrowserCachePolicy" rules v
  return {
    compression := ← fields.get "compression" Json.Decode.flag
    expires := ← fields.get "expires" Json.Decode.flag
    lifetimeSeconds := ← fields.get "lifetime_seconds" Json.Decode.natural
    cacheControl := ← fields.get? "cache_control" CacheControl.ofJson
    etag := ← fields.get "etag" Json.Decode.flag
    brandHeader := ← fields.get "brand_header" Json.Decode.flag }

end BrowserCache

namespace Policy

def toJson (p : Policy) : Json :=
  .obj
    [("reject_cookies", .texts p.rejectCookies), ("reject_uris", .texts p.rejectUris),
      ("reject_user_agents", .texts p.rejectUserAgents), ("accept_files", .texts p.acceptFiles),
      ("multi_tenant", .bool p.multiTenant), ("domain_mapped", .bool p.domainMapped),
      ("tenant_names", .texts p.tenantNames.toList), ("trailing_slash", .bool p.trailingSlash),
      ("device_groups", .arr (p.deviceGroups.map Group.toJson)),
      ("referrer_groups", .arr (p.referrerGroups.map Group.toJson)),
      ("browser_cache", p.browserCache.toJson)]

def texts : Json → Except Json.DecodeError (List Text) := Json.Decode.listOf Json.Decode.text

section
variable (visit : Json.Visit)

def groups : Json → Except Json.DecodeError (List Group) :=
  Json.Decode.listOf (Group.readJson visit)

def rules : List Json.FieldRule :=
  [.required "reject_cookies" texts, .required "reject_uris" texts,
    .required "reject_user_agents" texts, .required "accept_files" texts,
    .required "multi_tenant" Json.Decode.flag, .required "domain_mapped" Json.Decode.flag,
    .required "tenant_names" texts, .required "trailing_slash" Json.Decode.flag,
    .required "device_groups" (groups visit), .required "referrer_groups" (groups visit),
    .required "browser_cache" (BrowserCache.readJson visit)]

def readJson (v : Json) : Except Json.DecodeError Policy := do
  let fields ← Json.readFields visit "PolicyModel" (rules visit) v
  return {
    rejectCookies := ← fields.get "reject_cookies" texts
    rejectUris := ← fields.get "reject_uris" texts
    rejectUserAgents := ← fields.get "reject_user_agents" texts
    acceptFiles := ← fields.get "accept_files" texts
    multiTenant := ← fields.get "multi_tenant" Json.Decode.flag
    domainMapped := ← fields.get "domain_mapped" Json.Decode.flag
    tenantNames := .ofList (← fields.get "tenant_names" texts)
    trailingSlash := ← fields.get "trailing_slash" Json.Decode.flag
    deviceGroups := ← fields.get "device_groups" (groups visit)
    referrerGroups := ← fields.get "referrer_groups" (groups visit)
    browserCache := ← fields.get "browser_cache" (BrowserCache.readJson visit) }

end

/-- The policy of a value whose members are visited in the order of their keys. -/
def ofJson (v : Json) : Except Json.DecodeError Policy := readJson .byKey v

end Policy
end PageCache
