import PageCache.Proofs.Decision.Isolation
import PageCache.Proofs.Path.Root
import PageCache.Proofs.Path.Segment

/-! Where the segment of a tenant goes. Loading asks for a segment in the cache directory, and rules
write it into what is left of that directory below the document root. Main statement: a segment that
is there is substituted if one begins after the root, and otherwise one is added at the end. -/
namespace PageCache

namespace TenantSegment

variable {dir : Text}

theorem occursIn_trimEndSlashes_iff :
    occursIn dir.trimEndSlashes = true ↔ occursIn dir = true := by
  obtain ⟨slashes, hdir, hall⟩ := Text.exists_eq_trimEnd_append dir (· == '/')
  have hdir : dir = dir.trimEndSlashes ++ slashes := hdir
  rw [occursIn_iff, occursIn_iff]
  constructor
  · intro h
    exact h.trans ⟨[], slashes, hdir.symm⟩
  · rintro ⟨before, after, h⟩
    rcases List.append_eq_append_iff.1 (h.trans hdir) with ⟨z, hz, -⟩ | ⟨z, hz, hslashes⟩
    · exact ⟨before, z, hz.symm⟩
    · rcases List.eq_nil_or_concat' z with rfl | ⟨z, c, rfl⟩
      · exact ⟨before, [], by simpa using hz⟩
      · have hc : c = '-' := by simpa [stem] using (congrArg List.getLast? hz).symm
        have hslash := hall c (by rw [hslashes]; simp)
        rw [hc] at hslash
        exact absurd hslash (by decide)

end TenantSegment

namespace Site

variable {s : Site}

/-- What is left of the cache directory has a segment if one begins after the root that was taken
away. -/
theorem occursIn_cachePath_iff : TenantSegment.occursIn s.cachePath = true ↔
    ∃ before after, s.cacheDir = before ++ '/' :: TenantSegment.stem ++ after ∧
      (s.documentRoot.trimEndSlashes <+: s.cacheDir → s.documentRoot.trimEndSlashes <+: before) := by
  rw [cachePath, TenantSegment.occursIn_trimEndSlashes_iff, TenantSegment.occursIn_iff]
  cases hrest : s.cacheDir.stripPrefix? s.documentRoot.trimEndSlashes with
  | none =>
    have hnot := Text.stripPrefix?_eq_none_iff.1 hrest
    rw [Option.getD_none]
    constructor
    · rintro ⟨before, after, h⟩
      exact ⟨before, after, h.symm, fun hroot => absurd hroot hnot⟩
    · rintro ⟨before, after, h, -⟩
      exact ⟨before, after, h.symm⟩
  | some rest =>
    have hdir := Text.stripPrefix?_eq_some_iff.1 hrest
    rw [Option.getD_some]
    constructor
    · rintro ⟨before, after, h⟩
      refine ⟨s.documentRoot.trimEndSlashes ++ before, after, ?_, fun _ => List.prefix_append _ _⟩
      rw [hdir, ← h]
      simp only [List.append_assoc]
    · rintro ⟨before, after, h, hroot⟩
      obtain ⟨before, rfl⟩ := hroot ⟨rest, hdir.symm⟩
      rw [hdir, List.append_assoc, List.append_assoc, List.append_cancel_left_eq] at h
      exact ⟨before, after, by rw [h, List.append_assoc]⟩

theorem trimEndSlashes_cachePath (s : Site) : s.cachePath.trimEndSlashes = s.cachePath :=
  Text.trimEndSlashes_of_getLast?_ne (Text.getLast?_trimEndSlashes_ne _)

end Site

/-- The place of all segments that are written, of tenants and of placeholders for them. -/
structure CacheTarget.WritesAt (c : CacheTarget) (before after : Text) : Prop where
  templatedPath : ∀ body : Text, body ≠ [] → body.getLast? ≠ some '/' →
    c.templatedPath ('/' :: body ++ ['/']) = before ++ '/' :: body ++ after
  directory : ∀ host uri pattern, c.directory (some (Tenant.ofRequest host uri pattern)) =
    before ++ '/' :: (Tenant.ofRequest host uri pattern).directory ++ after

namespace CacheTarget

variable {c : CacheTarget} {before name after : Text}

theorem writesAt_of_replace (htenancy : c.tenancy.isSome = true)
    (h : ∀ body : Text, body ≠ [] → body.getLast? ≠ some '/' →
      TenantSegment.replace c.cachePath ('/' :: body ++ ['/']) = before ++ '/' :: body ++ after) :
    c.WritesAt before after where
  templatedPath body hne hlast := by
    rw [CacheTarget.templatedPath, if_pos htenancy]
    exact h body hne hlast
  directory host uri pattern := by
    refine h _ (by simp [Tenant.directory_eq, TenantSegment.stem]) (Tenant.getLast?_directory_ne ?_)
    rw [Tenant.domain_ofRequest]
    exact Tenant.slash_not_mem_domainOf host

theorem writesAt_of_holds (htenancy : c.tenancy.isSome = true)
    (h : TenantSegment.Holds c.cachePath before name after) : c.WritesAt before after :=
  writesAt_of_replace htenancy fun _ => h.replace_eq

theorem writesAt_end (htenancy : c.tenancy.isSome = true)
    (h : TenantSegment.occursIn c.cachePath = false) : c.WritesAt c.cachePath.trimEndSlashes [] :=
  writesAt_of_replace htenancy fun body hne hlast => by
    rw [List.append_nil]
    exact TenantSegment.replace_eq_of_occursIn_eq_false h hne hlast

end CacheTarget

namespace Settings

variable {o : Options} {st : Settings}

def target (st : Settings) : CacheTarget :=
  CacheTarget.ofSite st.site (Tenancy.ofPolicy st.policy st.site)

theorem isSome_tenancy_target (h : st.policy.multiTenant = true) :
    st.target.tenancy.isSome = true := by
  simp [target, CacheTarget.ofSite, Tenancy.ofPolicy, h]

/-- With several tenants there is a segment in the cache directory. It is the one that is substituted
for every tenant if one begins after the document root; otherwise each tenant has one added at the
end. -/
theorem substitutes_iff (h : ofOptions o = .ok st) (hmulti : st.policy.multiTenant = true) :
    let root := st.site.documentRoot.trimEndSlashes
    let Below := ∃ before after, st.site.cacheDir = before ++ '/' :: TenantSegment.stem ++ after ∧
      (root <+: st.site.cacheDir → root <+: before)
    (∃ before name after, TenantSegment.Holds st.site.cacheDir before name after) ∧
    (TenantSegment.occursIn st.site.cachePath = true ↔ Below) ∧
    (Below → ∃ before name after, TenantSegment.Holds st.site.cachePath before name after ∧
      st.target.WritesAt before after) ∧
    (¬ Below → st.target.WritesAt st.site.cachePath []) := by
  intro root Below
  have hiff : TenantSegment.occursIn st.site.cachePath = true ↔ Below := Site.occursIn_cachePath_iff
  have htenancy := isSome_tenancy_target hmulti
  refine ⟨?_, hiff, fun hbelow => ?_, fun hbelow => ?_⟩
  · exact TenantSegment.exists_holds_iff.2 ((wellFormed_of_ofOptions h).tenantSegment hmulti)
  · obtain ⟨before, name, after, hholds⟩ := TenantSegment.exists_holds_iff.2 (hiff.2 hbelow)
    exact ⟨before, name, after, hholds, CacheTarget.writesAt_of_holds htenancy hholds⟩
  · have hend := CacheTarget.writesAt_end (c := st.target) htenancy
      (Bool.eq_false_iff.2 fun h => hbelow (hiff.1 h))
    rwa [show st.target.cachePath = st.site.cachePath from rfl, Site.trimEndSlashes_cachePath]
      at hend

/-- A segment below the root. -/
theorem substitutes_below :
    let o : Options :=
      { site :=
          { documentRoot := some "/srv/www"
            cacheDir := some "/srv/www/cache/pgc-example.com/page" }
        policy := { multiTenant := some true, domainMapped := some true } }
    ∃ st, ofOptions o = .ok st ∧ st.policy.multiTenant = true ∧
      ∃ before name after, TenantSegment.Holds st.site.cachePath before name after ∧
        st.target.WritesAt before after := by
  intro o
  have hloaded : (match ofOptions o with
      | .ok st => decide (st.policy.multiTenant = true ∧
        TenantSegment.occursIn st.site.cachePath = true)
      | .error _ => false) = true := by decide +kernel
  match hst : ofOptions o with
  | .error _ => simp [hst] at hloaded
  | .ok st =>
    simp only [hst, decide_eq_true_eq] at hloaded
    obtain ⟨hmulti, hsegment⟩ := hloaded
    obtain ⟨-, hiff, hbelow, -⟩ := substitutes_iff hst hmulti
    exact ⟨st, rfl, hmulti, hbelow (hiff.1 hsegment)⟩

/-- The directory of a site below which its pages are cached. -/
theorem not_substitutes :
    let o : Options :=
      { site :=
          { documentRoot := some "/srv/www/pgc-example.com"
            cacheDir := some "/srv/www/pgc-example.com/cache/page" }
        policy := { multiTenant := some true, domainMapped := some true } }
    ∃ st, ofOptions o = .ok st ∧ st.policy.multiTenant = true ∧
      TenantSegment.occursIn st.site.cachePath = false ∧
      st.target.directory (some { domain := "example.org", name := none, uri := "/" }) =
        "/cache/page/pgc-example.org" := by
  intro o
  have hloaded : (match ofOptions o with
      | .ok st => decide (st.policy.multiTenant = true ∧
        TenantSegment.occursIn st.site.cachePath = false ∧
        st.target.directory (some { domain := "example.org", name := none, uri := "/" }) =
          "/cache/page/pgc-example.org")
      | .error _ => false) = true := by decide +kernel
  match hst : ofOptions o with
  | .error _ => simp [hst] at hloaded
  | .ok st =>
    simp only [hst, decide_eq_true_eq] at hloaded
    exact ⟨st, rfl, hloaded⟩

end Settings
end PageCache
