import PageCache.Apache.Rules
import PageCache.Nginx.Rules
import PageCache.Region

/-! The two generated blocks: routing rules for the application's directory and header rules for
the cache directory, in the dialect of the server and between their markers. The other regions belong
to neighbours in the shared files and serve as anchors. -/
namespace PageCache

namespace Region

def pageCacheCore : Region := ⟨"# BEGIN Page Cache core", "# END Page Cache core"⟩

def pageCacheCache : Region := ⟨"# BEGIN Page Cache cache", "# END Page Cache cache"⟩

def browserCacheCache : Region := ⟨"# BEGIN Browser Cache cache", "# END Browser Cache cache"⟩

def browserCacheNo404 : Region := ⟨"# BEGIN Browser Cache no404", "# END Browser Cache no404"⟩

def minifyCore : Region := ⟨"# BEGIN Minify core", "# END Minify core"⟩

def minifyCache : Region := ⟨"# BEGIN Minify cache", "# END Minify cache"⟩

def wordPress : Region := ⟨"# BEGIN WordPress", "# END WordPress"⟩

def superCache : Region := ⟨"# BEGIN WPSuperCache", "# END WPSuperCache"⟩

def beforeRegion (r : Region) : Anchor := ⟨r.opening, .before⟩

def afterRegion (r : Region) : Anchor := ⟨r.closing, .after⟩

/-- Where the core rules go when the file has none. -/
def coreAnchors : List Anchor :=
  [beforeRegion browserCacheNo404, beforeRegion wordPress, afterRegion minifyCore,
    afterRegion browserCacheCache, afterRegion pageCacheCache, afterRegion minifyCache]

/-- Where the cache rules go when the file has none. -/
def cacheAnchors : List Anchor :=
  [beforeRegion browserCacheCache, beforeRegion minifyCore, beforeRegion pageCacheCore,
    beforeRegion browserCacheNo404, beforeRegion wordPress, afterRegion minifyCache]

end Region

inductive Block where
  | core
  | cache
  deriving DecidableEq, Repr

namespace Block

def label : Block → Text
  | core => "core"
  | cache => "cache"

def region : Block → Region
  | core => .pageCacheCore
  | cache => .pageCacheCache

/-- Where the block goes in a file that has none. -/
def anchors : Block → List Anchor
  | core => Region.coreAnchors
  | cache => Region.cacheAnchors

end Block

/-- Where the pages of a site are looked up under a policy. -/
def CacheTarget.ofPolicy (p : Policy) (s : Site) : CacheTarget :=
  CacheTarget.ofSite s (Tenancy.ofPolicy p s)

/-- The rules of a block without markers; an unknown server has none. -/
def Server.rules? (server : Server) (b : Block) (p : Policy) (s : Site) : Option Text :=
  match server, b with
  | apache, .core => some (Apache.coreRules (Program.build p s))
  | apache, .cache => some (Apache.cacheRules (HeaderPlan.build p s))
  | nginx, .core => some (Nginx.coreRules (Program.build p s))
  | nginx, .cache => some (Nginx.cacheRules (HeaderPlan.build p s) (CacheTarget.ofPolicy p s))
  | unknown, _ => none

def Server.blockText? (server : Server) (b : Block) (p : Policy) (s : Site) : Option Text :=
  (server.rules? b p s).map b.region.wrap

end PageCache
