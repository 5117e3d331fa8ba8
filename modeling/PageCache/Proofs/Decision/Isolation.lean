import PageCache.Proofs.Config.WellFormed
import PageCache.Proofs.Decision.Separation
import PageCache.Proofs.Path.Steps
import PageCache.Proofs.Pattern.Captures

/-! Which tenants share cached pages. The directory of a tenant is one step of its files, at the same
place for all tenants of a site; so tenants are kept apart as far as the names of their directories
are. A domain names its directory. A name and a domain do not: they are joined by a dot, and both may
have dots. -/
namespace PageCache

attribute [local irreducible] Pattern.captures? Pattern.found

namespace Tenant

variable {t t' : Tenant}

/-- The second group of the pattern reads no such character. -/
theorem not_mem_domainOf {c : Char}
    (hpattern : ((Pattern.parse? false hostPattern).all fun e =>
      (e.bodies 2).all fun body => body.classes.all fun cls => !cls.contains c) = true)
    (host : Text) : c ∉ domainOf host := by
  intro hmem
  match hc : Pattern.captures? false hostPattern host with
  | none => simp [domainOf, hc] at hmem
  | some groups =>
    match hd : groups.lookup 2 with
    | none => simp [domainOf, hc, hd] at hmem
    | some d =>
      have hmem : c ∈ d := by simpa [domainOf, hc, hd] using hmem
      obtain ⟨e, he, body, hbody, before, after, hmatch⟩ := Pattern.exists_body_of_captures? hc hd
      obtain ⟨cls, hcls, hcontains⟩ := hmatch.exists_class hmem
      rw [he, Option.all_some, List.all_eq_true] at hpattern
      have hnot := List.all_eq_true.1 (hpattern body hbody) cls hcls
      simp [hcontains] at hnot

theorem slash_not_mem_domainOf (host : Text) : '/' ∉ domainOf host :=
  not_mem_domainOf (by decide +kernel) host

theorem domain_ofRequest (host uri : Text) (pattern : Option Text) :
    (ofRequest host uri pattern).domain = domainOf host := by
  unfold ofRequest
  split <;> rfl

theorem namePrefix_inj : t.namePrefix = t'.namePrefix ↔ t.name = t'.name := by
  obtain ⟨domain, name, uri⟩ := t
  obtain ⟨domain', name', uri'⟩ := t'
  cases name <;> cases name' <;> simp [namePrefix]

theorem isIdle_directory (t : Tenant) : Path.isIdle t.directory = false := by
  rw [directory_eq]
  rfl

theorem slash_not_mem_directory (hname : ∀ n ∈ t.name, '/' ∉ n) (hdomain : '/' ∉ t.domain) :
    '/' ∉ t.directory := by
  have hfront : '/' ∉ t.namePrefix := by
    cases hn : t.name with
    | none => simp [namePrefix, hn]
    | some n => simpa [namePrefix, hn] using hname n hn
  rw [directory_eq, List.mem_append, List.mem_append, not_or, not_or]
  exact ⟨by decide, hfront, hdomain⟩

theorem getLast?_directory_ne (h : '/' ∉ t.domain) : t.directory.getLast? ≠ some '/' := by
  intro hlast
  rw [directory_eq, ← List.append_assoc] at hlast
  by_cases hdomain : t.domain = []
  · rw [hdomain, List.append_nil] at hlast
    cases hname : t.name with
    | none => simp [namePrefix, hname, TenantSegment.stem] at hlast
    | some name =>
      rw [namePrefix, hname, Option.map_some, Option.getD_some, ← List.append_assoc,
        List.getLast?_concat] at hlast
      cases hlast
  · rw [List.getLast?_append_of_ne_nil _ hdomain] at hlast
    exact h (List.mem_of_getLast? hlast)

/-- The name of a tenant reaches into the domain of another one: what is left of it after the name of
the other tenant, and the dot, is the beginning of that domain. -/
def Shadows (t t' : Tenant) : Prop :=
  ∃ lead, t.name = some (t'.namePrefix ++ lead) ∧ t'.domain = lead ++ "." ++ t.domain

theorem Shadows.directory_eq (h : t.Shadows t') : t.directory = t'.directory := by
  obtain ⟨lead, hname, hdomain⟩ := h
  have hfront : t.namePrefix = t'.namePrefix ++ lead ++ "." := by
    rw [namePrefix, hname]
    rfl
  rw [Tenant.directory_eq, Tenant.directory_eq, hfront, hdomain]
  simp only [List.append_assoc]

/-- A name that goes on after the name of another tenant goes on with the beginning of its domain. -/
theorem shadows_of_append {rest : Text} (hne : rest ≠ [])
    (hfront : t.namePrefix = t'.namePrefix ++ rest) (hdomain : t'.domain = rest ++ t.domain) :
    t.Shadows t' := by
  obtain ⟨lead, c, rfl⟩ := (List.eq_nil_or_concat' rest).resolve_left hne
  cases hname : t.name with
  | none => simp [namePrefix, hname] at hfront
  | some n =>
    have heq : n ++ ['.'] = t'.namePrefix ++ lead ++ [c] := by
      simpa [namePrefix, hname] using hfront
    obtain ⟨rfl, hc⟩ := List.append_inj' heq rfl
    obtain rfl : '.' = c := by simpa using hc
    exact ⟨lead, hname, hdomain⟩

/-- Two tenants have one directory if they are the same, or if the name of one of them reaches into
the domain of the other. -/
theorem directory_inj : t.directory = t'.directory ↔
    (t.name = t'.name ∧ t.domain = t'.domain) ∨ t.Shadows t' ∨ t'.Shadows t := by
  constructor
  · intro h
    rw [directory_eq, directory_eq, List.append_cancel_left_eq] at h
    rcases List.append_eq_append_iff.1 h with ⟨rest, hfront, hdomain⟩ | ⟨rest, hfront, hdomain⟩
    · by_cases hne : rest = []
      · rw [hne, List.append_nil] at hfront
        rw [hne, List.nil_append] at hdomain
        exact .inl ⟨(namePrefix_inj.1 hfront).symm, hdomain⟩
      · exact .inr (.inr (shadows_of_append hne hfront hdomain))
    · by_cases hne : rest = []
      · rw [hne, List.append_nil] at hfront
        rw [hne, List.nil_append] at hdomain
        exact .inl ⟨namePrefix_inj.1 hfront, hdomain.symm⟩
      · exact .inr (.inl (shadows_of_append hne hfront hdomain))
  · rintro (⟨hname, hdomain⟩ | h | h)
    · rw [directory_eq, directory_eq, namePrefix_inj.2 hname, hdomain]
    · exact h.directory_eq
    · exact h.directory_eq.symm

end Tenant

namespace Program

variable {p : Policy} {s : Site} {r r' : Request} {t t' : Tenant}
  {fileExists fileExists' : Text → Bool} {file file' : Text}

/-- The directory of the tenant is one step to the file, and it stands at the same place for all
tenants of the site. -/
theorem exists_steps_candidate (p : Policy) (s : Site) : ∃ before after, ∀ (r : Request) (t : Tenant),
    p.tenant? s r = some t → '/' ∉ t.directory →
      Path.steps (candidate p s r) =
        before ++ t.directory :: (after ++ (Path.steps t.uri ++ Path.steps (p.tags r).fileName)) := by
  obtain ⟨before, after, hreplace⟩ := TenantSegment.exists_steps_replace s.cachePath
  refine ⟨Path.steps s.documentRoot.trimEndSlashes ++ before, after, fun r t ht hslash => ?_⟩
  have hdirectory : Path.steps ((CacheTarget.ofSite s (Tenancy.ofPolicy p s)).directory (some t)) =
      before ++ t.directory :: after := hreplace t.directory hslash t.isIdle_directory
  rw [candidate_eq, ht, CacheTarget.steps_candidate (Text.getLast?_trimEndSlashes_ne s.documentRoot),
    hdirectory]
  simp [CacheTarget.ofSite]

theorem tenant?_eq_some (h : p.tenant? s r = some t) : t.domain = Tenant.domainOf r.host := by
  rw [← Tenancy.map_tenant_ofPolicy] at h
  obtain ⟨tenancy, -, rfl⟩ := Option.map_eq_some_iff.1 h
  cases tenancy with
  | domain => rw [Tenancy.tenant_domain]
  | path pattern => rw [Tenancy.tenant_path]

/-- Where tenants are told apart by their domains, requests of two domains never share a file, also
if repeated slashes and single dots do not count. -/
theorem steps_ne_of_domainOf_ne (hmulti : p.multiTenant = true) (hmode : p.pathTenancy = false)
    (hdomain : Tenant.domainOf r.host ≠ Tenant.domainOf r'.host)
    (h : ((build p s).evaluate r fileExists).file? = some file)
    (h' : ((build p s).evaluate r' fileExists').file? = some file') :
    Path.steps file ≠ Path.steps file' := by
  have htenant : ∀ r : Request, p.tenant? s r =
      some { domain := Tenant.domainOf r.host, name := none, uri := r.uri } := by
    intro r
    have htenancy : Tenancy.ofPolicy p s = some .domain := by simp [Tenancy.ofPolicy, hmulti, hmode]
    rw [← Tenancy.map_tenant_ofPolicy, htenancy, Option.map_some, Tenancy.tenant_domain]
  have hslash : ∀ r : Request, '/' ∉
      ({ domain := Tenant.domainOf r.host, name := none, uri := r.uri } : Tenant).directory :=
    fun r => Tenant.slash_not_mem_directory (by simp) (Tenant.slash_not_mem_domainOf r.host)
  obtain ⟨before, after, hsteps⟩ := exists_steps_candidate p s
  rw [eq_candidate_of_file? h, eq_candidate_of_file? h', hsteps r _ (htenant r) (hslash r),
    hsteps r' _ (htenant r') (hslash r'), ne_eq, List.append_cancel_left_eq, List.cons.injEq, not_and]
  intro hdirectory
  simp only [Tenant.directory, List.append_cancel_left_eq] at hdirectory
  exact absurd hdirectory hdomain

/-- Two sites of a network of domains. -/
theorem steps_ne_of_domainOf_ne_com :
    let p : Policy := { Policy.default with multiTenant := true, domainMapped := true }
    let s : Site := { cacheDir := "/srv/www/cache/page" }
    let r : Request := { uri := "/post/", host := "www.example.com:8080" }
    let r' : Request := { uri := "/post/", host := "localhost" }
    let file : Text := "/srv/www/cache/page/pgc-example.com/post/_index.html"
    let file' : Text := "/srv/www/cache/page/pgc-/post/_index.html"
    (p.multiTenant = true ∧ p.pathTenancy = false ∧
        Tenant.domainOf r.host ≠ Tenant.domainOf r'.host) ∧
      ((build p s).evaluate r (fun _ => true)).file? = some file ∧
      ((build p s).evaluate r' (fun _ => true)).file? = some file' ∧
      Path.steps file ≠ Path.steps file' := by
  intro p s r r' file file'
  have hdomain : Tenant.domainOf r.host ≠ Tenant.domainOf r'.host := by decide +kernel
  have h : ((build p s).evaluate r (fun _ => true)).file? = some file := by decide +kernel
  have h' : ((build p s).evaluate r' (fun _ => true)).file? = some file' := by decide +kernel
  exact ⟨⟨rfl, rfl, hdomain⟩, h, h', steps_ne_of_domainOf_ne rfl rfl hdomain h h'⟩

end Program

theorem Policy.fileName_char {p : Policy}
    (h : ∀ g ∈ p.deviceGroups ++ p.referrerGroups, ∀ c ∈ g.name, Settings.isNameChar c = true)
    (r : Request) : ∀ c ∈ (p.tags r).fileName, Settings.isNameChar c = true ∨ c = '.' := by
  obtain ⟨device, referrer, tls, ⟨hdevice, hreferrer, htls⟩, hd, hr, ht⟩ := p.exists_names r
  have htag : ∀ name : Option Text, (∀ n ∈ name, ∀ c ∈ n, Settings.isNameChar c = true) →
      ∀ c ∈ VariantTags.tagOf name, Settings.isNameChar c = true := by
    intro name hname c hc
    cases name with
    | none => simp [VariantTags.tagOf] at hc
    | some n =>
      have hc : c = '_' ∨ c ∈ n := by simpa [VariantTags.tagOf] using hc
      rcases hc with rfl | hc
      · decide
      · exact hname n rfl c hc
  have hgroups : ∀ groups : List Group, (∀ g ∈ groups, ∀ c ∈ g.name, Settings.isNameChar c = true) →
      ∀ n ∈ Group.tagNames groups, ∀ c ∈ n, Settings.isNameChar c = true := by
    intro groups hgroups n hn
    obtain ⟨g, hg, rfl⟩ := List.mem_map.1 hn
    exact hgroups g (List.mem_of_mem_filter hg)
  obtain ⟨hdevices, hreferrers⟩ := List.forall_mem_append.1 h
  have hencoding : ∀ c ∈ (p.tags r).encoding, Settings.isNameChar c = true ∨ c = '.' := by
    rcases p.encoding_tags r with h | h <;> simp [h, VariantTags.gzipSuffix, Settings.isNameChar]
  simp only [VariantTags.fileName, hd, hr, ht, List.forall_mem_append]
  refine ⟨⟨⟨⟨⟨?_, fun c hc => .inl ?_⟩, fun c hc => .inl ?_⟩, fun c hc => .inl ?_⟩, ?_⟩, hencoding⟩
  · simp [VariantTags.indexStem, Settings.isNameChar]
  · exact htag device (fun n hn => hgroups _ hdevices n (hdevice n hn)) c hc
  · exact htag referrer (fun n hn => hgroups _ hreferrers n (hreferrer n hn)) c hc
  · refine htag tls (fun n hn => ?_) c hc
    rw [htls n hn]
    simp [Settings.isNameChar]
  · simp [VariantTags.htmlExtension, Settings.isNameChar]

theorem Settings.fileName_char {o : Options} {st : Settings} (h : Settings.ofOptions o = .ok st)
    (r : Request) : ∀ c ∈ (st.policy.tags r).fileName, isNameChar c = true ∨ c = '.' := by
  have hwell := policy_wellFormed_of_ofOptions h
  exact Policy.fileName_char (List.forall_mem_append.2
    ⟨fun g hg c hc => isNameChar_iff.2 (hwell.deviceGroups.name_char g hg c hc),
      fun g hg c hc => isNameChar_iff.2 (hwell.referrerGroups.name_char g hg c hc)⟩) r

theorem Settings.slash_not_mem_fileName {o : Options} {st : Settings}
    (h : Settings.ofOptions o = .ok st) (r : Request) : '/' ∉ (st.policy.tags r).fileName :=
  fun hslash => absurd (fileName_char h r _ hslash) (by decide)

theorem VariantTags.steps_fileName {v : VariantTags} (h : '/' ∉ v.fileName) :
    Path.steps v.fileName = [v.fileName] :=
  Path.steps_of_not_mem h (Path.isIdle_eq_false v.head?_fileName (by decide))

namespace Program

variable {o : Options} {st : Settings} {r r' : Request} {t t' : Tenant}
  {fileExists fileExists' : Text → Bool} {file file' : Text}

/-- Requests of two tenants whose names have no slash share a file exactly where the tenants have one
directory, and paths and tags agree. So tenants of one domain never do, and tenants of two domains
only if the name of one reaches into the domain of the other. -/
theorem steps_file_eq_iff (hst : Settings.ofOptions o = .ok st)
    (ht : st.policy.tenant? st.site r = some t) (ht' : st.policy.tenant? st.site r' = some t')
    (hname : ∀ n ∈ t.name, '/' ∉ n) (hname' : ∀ n ∈ t'.name, '/' ∉ n)
    (h : ((build st.policy st.site).evaluate r fileExists).file? = some file)
    (h' : ((build st.policy st.site).evaluate r' fileExists').file? = some file') :
    Path.steps file = Path.steps file' ↔
      ((t.name = t'.name ∧ t.domain = t'.domain) ∨ t.Shadows t' ∨ t'.Shadows t) ∧
        Path.steps t.uri = Path.steps t'.uri ∧
        (st.policy.tags r).fileName = (st.policy.tags r').fileName := by
  have hdomain : ∀ {r t}, st.policy.tenant? st.site r = some t → '/' ∉ t.domain := by
    intro r t ht
    rw [tenant?_eq_some ht]
    exact Tenant.slash_not_mem_domainOf r.host
  have hfileName : ∀ r, Path.steps (st.policy.tags r).fileName = [(st.policy.tags r).fileName] :=
    fun r => VariantTags.steps_fileName (Settings.slash_not_mem_fileName hst r)
  obtain ⟨before, after, hsteps⟩ := exists_steps_candidate st.policy st.site
  rw [eq_candidate_of_file? h, eq_candidate_of_file? h',
    hsteps r t ht (Tenant.slash_not_mem_directory hname (hdomain ht)),
    hsteps r' t' ht' (Tenant.slash_not_mem_directory hname' (hdomain ht')),
    List.append_cancel_left_eq, List.cons.injEq, List.append_cancel_left_eq, hfileName, hfileName,
    ← List.concat_eq_append, ← List.concat_eq_append, List.concat_inj, Tenant.directory_inj]

/-- The main page of a domain and a shop on it, which is addressed by its path. -/
theorem steps_file_eq_iff_shop :
    let o : Options :=
      { site :=
          { documentRoot := some "/srv/www"
            cacheDir := some "/srv/www/cache/pgc-example.com/page" }
        policy := { multiTenant := some true, tenantNames := some ["shop"] } }
    let r : Request := { uri := "/post/", host := "example.com" }
    let r' : Request := { uri := "/shop/post/", host := "example.com" }
    let t : Tenant := { domain := "example.com", name := none, uri := "/post/" }
    let t' : Tenant := { domain := "example.com", name := some "shop", uri := "/post/" }
    let file : Text := "/srv/www/cache/pgc-example.com/page/post/_index.html"
    let file' : Text := "/srv/www/cache/pgc-shop.example.com/page/post/_index.html"
    ∃ st, Settings.ofOptions o = .ok st ∧
      (st.policy.tenant? st.site r = some t ∧ st.policy.tenant? st.site r' = some t' ∧
        ((build st.policy st.site).evaluate r fun _ => true).file? = some file ∧
        ((build st.policy st.site).evaluate r' fun _ => true).file? = some file') ∧
      (Path.steps file = Path.steps file' ↔
        ((t.name = t'.name ∧ t.domain = t'.domain) ∨ t.Shadows t' ∨ t'.Shadows t) ∧
          Path.steps t.uri = Path.steps t'.uri ∧
          (st.policy.tags r).fileName = (st.policy.tags r').fileName) := by
  intro o r r' t t' file file'
  have hloaded : (match Settings.ofOptions o with
      | .ok st => decide (st.policy.tenant? st.site r = some t ∧
        st.policy.tenant? st.site r' = some t' ∧
        ((build st.policy st.site).evaluate r fun _ => true).file? = some file ∧
        ((build st.policy st.site).evaluate r' fun _ => true).file? = some file')
      | .error _ => false) = true := by decide +kernel
  match hst : Settings.ofOptions o with
  | .error _ => simp [hst] at hloaded
  | .ok st =>
    simp only [hst, decide_eq_true_eq] at hloaded
    obtain ⟨ht, ht', h, h'⟩ := hloaded
    have hname : ∀ n ∈ t.name, '/' ∉ n := by decide
    have hname' : ∀ n ∈ t'.name, '/' ∉ n := by decide
    exact ⟨st, rfl, ⟨ht, ht', h, h'⟩, steps_file_eq_iff hst ht ht' hname hname' h h'⟩

/-- A shop that is addressed by its path and the domain of the same name: the dot between them may be
either the one after the name or one of the domain. -/
theorem not_file_separates_tenants : ∃ (o : Options) (st : Settings) (r r' : Request) (t t' : Tenant)
    (file : Text), Settings.ofOptions o = .ok st ∧ st.policy.pathTenancy = true ∧
      st.policy.tenant? st.site r = some t ∧ st.policy.tenant? st.site r' = some t' ∧
      t.domain ≠ t'.domain ∧ t.name ≠ t'.name ∧
      (build st.policy st.site).evaluate r (fun _ => true) = .serve file ∧
      (build st.policy st.site).evaluate r' (fun _ => true) = .serve file := by
  let o : Options :=
    { site :=
        { documentRoot := some "/srv/www"
          cacheDir := some "/srv/www/cache/pgc-example.com/page" }
      policy := { multiTenant := some true, tenantNames := some ["shop"] } }
  let r : Request := { uri := "/post/", host := "shop.example.com" }
  let r' : Request := { uri := "/shop/post/", host := "example.com" }
  let t : Tenant := { domain := "shop.example.com", name := none, uri := "/post/" }
  let t' : Tenant := { domain := "example.com", name := some "shop", uri := "/post/" }
  let file : Text := "/srv/www/cache/pgc-shop.example.com/page/post/_index.html"
  have hloaded : (match Settings.ofOptions o with
      | .ok st => decide (st.policy.pathTenancy = true ∧
        st.policy.tenant? st.site r = some t ∧ st.policy.tenant? st.site r' = some t' ∧
        t.domain ≠ t'.domain ∧ t.name ≠ t'.name ∧
        (build st.policy st.site).evaluate r (fun _ => true) = .serve file ∧
        (build st.policy st.site).evaluate r' (fun _ => true) = .serve file)
      | .error _ => false) = true := by decide +kernel
  match hst : Settings.ofOptions o with
  | .error _ => simp [hst] at hloaded
  | .ok st =>
    simp only [hst, decide_eq_true_eq] at hloaded
    exact ⟨o, st, r, r', t, t', file, hst, hloaded⟩

end Program
end PageCache
