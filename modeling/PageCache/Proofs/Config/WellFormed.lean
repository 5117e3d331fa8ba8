import PageCache.Proofs.Config.Groups
import PageCache.Proofs.Path.Template

/-! What settings satisfy that are made of options, whatever the options are. Rules and decisions
rely on it: no pattern is blank, so none finds everything by being empty; each tag belongs to one
group; and where there are several tenants, there are names or domains to tell them apart and a place
for their directories. -/
namespace PageCache

namespace Text

/-- A path of directories: it starts with a slash, and it ends in exactly one. -/
structure IsDirectoryPath (t : Text) : Prop where
  starts : t.startsWith "/" = true
  ends : ∃ u : Text, t = u ++ ['/'] ∧ u.getLast? ≠ some '/'

theorem isDirectoryPath_root : IsDirectoryPath "/" := ⟨rfl, [], rfl, by simp⟩

end Text

structure Site.WellFormed (s : Site) : Prop where
  documentRoot : s.documentRoot.Trimmed
  cacheDir : s.cacheDir.startsWith "/" = true
  homePath : s.homePath.IsDirectoryPath
  basePath : s.basePath.IsDirectoryPath
  charset : s.charset.Trimmed
  pingbackUrl : ∀ url ∈ s.pingbackUrl, Text.Trimmed url

structure Policy.WellFormed (p : Policy) : Prop where
  rejectCookies : ∀ t ∈ p.rejectCookies, Text.Trimmed t
  rejectUris : ∀ t ∈ p.rejectUris, Text.Trimmed t
  rejectUserAgents : ∀ t ∈ p.rejectUserAgents, Text.Trimmed t
  acceptFiles : ∀ t ∈ p.acceptFiles, Text.Trimmed t
  deviceGroups : Group.WellFormedList p.deviceGroups
  referrerGroups : Group.WellFormedList p.referrerGroups
  tenantNames : ∀ name ∈ p.tenantNames.toList, Text.Trimmed name
  has_tenantNames : p.multiTenant = true → p.domainMapped = false → p.tenantNames.toList ≠ []

structure Settings.WellFormed (st : Settings) : Prop where
  site : st.site.WellFormed
  coreTarget : st.targets.core ≠ []
  cacheTarget : st.targets.cache ≠ []
  policy : st.policy.WellFormed
  tenantSegment : st.policy.multiTenant = true → TenantSegment.occursIn st.site.cacheDir = true

namespace Settings

variable {o : Options} {st : Settings}

theorem isDirectoryPath_of_urlPath? {key path : Text} {value : Option Text}
    (h : urlPath? key value = .ok path) : path.IsDirectoryPath := by
  unfold urlPath? at h
  split at h
  · obtain rfl := Except.ok.inj h
    exact Text.isDirectoryPath_root
  · next given? _ =>
    split at h
    · next hstart =>
      obtain rfl := Except.ok.inj h
      refine ⟨?_, given?.trimEndSlashes, rfl, given?.getLast?_trimEndSlashes_ne⟩
      obtain ⟨rest, rfl⟩ := List.isPrefixOf_iff_prefix.1 hstart
      rcases Text.head?_trimEndSlashes (.inr (by rfl : (("/" : Text) ++ rest).head? = some '/')) with
        hnil | hhead
      · rw [hnil]
        rfl
      · obtain ⟨kept, hkept⟩ := List.head?_eq_some_iff.1 hhead
        rw [hkept]
        rfl
    · cases h

theorem site_wellFormed {o : SiteOptions} {s : Site} (h : site? o = .ok s) : s.WellFormed := by
  unfold site? at h
  split at h
  next documentRoot hroot =>
    split at h
    next cacheDir hdir =>
      split at h
      · cases h
      · next hstart =>
        obtain ⟨homePath, hhome, h⟩ := exists_of_bind_ok h
        obtain ⟨basePath, hbase, h⟩ := exists_of_bind_ok h
        obtain rfl := Except.ok.inj h
        exact
          { documentRoot := trimmed_of_given hroot
            cacheDir := by simpa using hstart
            homePath := isDirectoryPath_of_urlPath? hhome
            basePath := isDirectoryPath_of_urlPath? hbase
            charset := trimmed_getD_given (by decide)
            pingbackUrl := fun url hurl => trimmed_of_given hurl }
    · cases h
  · cases h

theorem targets_ne_nil {o : TargetOptions} {default t : Targets} (h : targets? o default = .ok t) :
    t.core ≠ [] ∧ t.cache ≠ [] := by
  dsimp only [targets?] at h
  split at h
  · cases h
  · next hcore =>
    split at h
    · cases h
    · next hcache =>
      obtain rfl := Except.ok.inj h
      exact ⟨by simpa using hcore, by simpa using hcache⟩

/-- Every pattern that is built in passes the check of a given one. -/
theorem trimmed_builtins (b : Builtins) :
    (∀ t ∈ b.rejectCookies, Text.Trimmed t) ∧ ∀ t ∈ b.rejectUris, Text.Trimmed t := by
  obtain ⟨rejectLogged, cacheHome, cacheFeed⟩ := b
  cases rejectLogged <;> cases cacheHome <;> cases cacheFeed <;> decide

theorem policy_wellFormed {o : PolicyOptions} {p : Policy × List Text} (h : policy? o = .ok p) :
    p.1.WellFormed := by
  obtain ⟨devices, hdevices, h⟩ := exists_of_bind_ok h
  obtain ⟨referrers, hreferrers, h⟩ := exists_of_bind_ok h
  generalize browserCacheOf o.browserCache = headers at h
  obtain ⟨browserCache, warnings⟩ := headers
  dsimp only at h
  split at h
  · cases h
  · next hnames =>
    obtain rfl := Except.ok.inj h
    obtain ⟨hcookies, huris⟩ := trimmed_builtins (builtinsOf o)
    exact
      { rejectCookies := List.forall_mem_append.2 ⟨hcookies, fun _ => trimmed_of_mem_patternsOf⟩
        rejectUris := List.forall_mem_append.2 ⟨huris, fun _ => trimmed_of_mem_patternsOf⟩
        rejectUserAgents := fun _ => trimmed_of_mem_patternsOf
        acceptFiles := fun _ => trimmed_of_mem_patternsOf
        deviceGroups := wellFormedList_of_groups? hdevices
        referrerGroups := wellFormedList_of_groups? hreferrers
        tenantNames := fun _ => trimmed_of_mem_tenantNamesOf
        has_tenantNames := fun hmulti hmapped hnil => by
          simp_all [TextSet.isEmpty] }

theorem exists_parts_of_ofOptions (h : ofOptions o = .ok st) :
    site? o.site = .ok st.site ∧
      targets? o.targets (defaultTargets st.server st.site) = .ok st.targets ∧
      (∃ warnings, policy? o.policy = .ok (st.policy, warnings)) ∧
      (st.policy.multiTenant = true → TenantSegment.occursIn st.site.cacheDir = true) := by
  obtain ⟨threshold, -, h⟩ := exists_of_bind_ok h
  obtain ⟨site, hsite, h⟩ := exists_of_bind_ok h
  obtain ⟨targets, htargets, h⟩ := exists_of_bind_ok h
  obtain ⟨⟨policy, warnings⟩, hpolicy, h⟩ := exists_of_bind_ok h
  dsimp only at h
  split at h
  · cases h
  · next hsegment =>
    obtain rfl := Except.ok.inj h
    refine ⟨hsite, htargets, ⟨warnings, hpolicy⟩, fun hmulti => ?_⟩
    simp only [Bool.and_eq_true, Bool.not_eq_true', not_and, Bool.not_eq_false] at hsegment
    exact hsegment hmulti

theorem site_wellFormed_of_ofOptions (h : ofOptions o = .ok st) : st.site.WellFormed :=
  site_wellFormed (exists_parts_of_ofOptions h).1

theorem policy_wellFormed_of_ofOptions (h : ofOptions o = .ok st) : st.policy.WellFormed := by
  obtain ⟨warnings, hpolicy⟩ := (exists_parts_of_ofOptions h).2.2.1
  exact policy_wellFormed hpolicy

/-- Settings are well formed, whatever the options were that they are made of. -/
theorem wellFormed_of_ofOptions (h : ofOptions o = .ok st) : st.WellFormed where
  site := site_wellFormed_of_ofOptions h
  coreTarget := (targets_ne_nil (exists_parts_of_ofOptions h).2.1).1
  cacheTarget := (targets_ne_nil (exists_parts_of_ofOptions h).2.1).2
  policy := policy_wellFormed_of_ofOptions h
  tenantSegment := (exists_parts_of_ofOptions h).2.2.2

/-- A network of shops that sends phones elsewhere, with blanks around what was given. -/
theorem wellFormed_of_ofOptions_network :
    let o : Options :=
      { site :=
          { documentRoot := some " /srv/www "
            cacheDir := some "/srv/www/cache/pgc-example.com/page"
            basePath := some "/network//" }
        policy :=
          { rejectUris := some [" /cart/ ", " "]
            multiTenant := some true
            tenantNames := some [" shop", ""]
            device :=
              { groups := some
                  [{ name := some "phone"
                     matchers := some ["iphone ", ""]
                     redirect := some " https://m.example.com" }] } } }
    ∃ st, ofOptions o = .ok st ∧ st.WellFormed := by
  intro o
  have hloaded : (ofOptions o).isOk = true := by decide +kernel
  match hst : ofOptions o with
  | .ok st => exact ⟨st, rfl, wellFormed_of_ofOptions hst⟩
  | .error _ =>
    rw [hst] at hloaded
    cases hloaded

end Settings
end PageCache
