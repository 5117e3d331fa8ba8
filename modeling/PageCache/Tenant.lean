import PageCache.Pattern.Matcher
import PageCache.Site
import PageCache.Text.Set

/-! Tenants: the domain of a host name, and the name that leads the path where tenants are
addressed by path. -/
namespace PageCache

structure Tenant where
  domain : Text
  name : Option Text
  /-- The path without the tenant's name. -/
  uri : Text
  deriving DecidableEq, Repr

namespace Tenant

/-- The pattern of a host name; the second group is the domain. -/
def hostPattern : Text := "^(www\\.)?([a-z0-9\\-\\.]+\\.[a-z]+)\\.?(:[0-9]+)?$"

/-- The domain of a host name, empty if it has none. -/
def domainOf (host : Text) : Text :=
  ((Pattern.captures? false hostPattern host).bind (·.lookup 2)).getD []

/-- The pattern of the paths of tenants: the first group is the name, the second the rest. -/
def pathPattern (basePath : Text) (names : TextSet) : Text :=
  "^" ++ basePath.trimEndSlashes ++ "/(" ++ Text.join (names.toList.map Pattern.quote) "|" ++
    ")(/.*)$"

def ofRequest (host uri : Text) (pattern : Option Text) : Tenant :=
  let domain := domainOf host
  match pattern.bind (Pattern.captures? false · uri) with
  | some groups => { domain, name := groups.lookup 1, uri := (groups.lookup 2).getD [] }
  | none => { domain, name := none, uri }

def directory (t : Tenant) : Text :=
  match t.name with
  | some name => TenantSegment.stem ++ name ++ "." ++ t.domain
  | none => TenantSegment.stem ++ t.domain

end Tenant
end PageCache
