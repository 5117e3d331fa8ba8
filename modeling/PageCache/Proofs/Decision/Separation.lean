import PageCache.Proofs.Decision.Verdict
import PageCache.Proofs.Decision.Written
import PageCache.Settings

/-! Which requests share a cached page. The tags of a request stand one after the other in the name
of its file, with nothing between them; so the file tells the tags apart if and only if that text
does. It does where the names of groups have no underscore, differ between the two kinds of groups
and are not the name of the tag of encrypted requests. -/
namespace PageCache

attribute [local irreducible] Pattern.captures? Pattern.found

/-- The tags before the extension, as they stand in the file name. -/
def VariantTags.joined (v : VariantTags) : Text := v.device ++ v.referrer ++ v.tls

/-- The names of the groups that only tag. -/
def Group.tagNames (groups : List Group) : List Text :=
  (groups.filter Group.isTagOnly).map Group.name

namespace Policy

def tags (p : Policy) (r : Request) : VariantTags where
  device := TagCandidate.select (TagCandidate.ofGroups p.deviceGroups .userAgent) r.userAgent
  referrer := TagCandidate.select (TagCandidate.ofGroups p.referrerGroups .referrerCookie) r.cookie
  tls := if r.isTls then VariantTags.tlsTag else []
  encoding := if p.compression && r.acceptsGzip then VariantTags.gzipSuffix else []

/-- The names in file names can be told apart. -/
structure NamesApart (p : Policy) : Prop where
  plain : ∀ name ∈ Group.tagNames p.deviceGroups ++ Group.tagNames p.referrerGroups, '_' ∉ name
  not_tls : ("ssl" : Text) ∉ Group.tagNames p.deviceGroups ++ Group.tagNames p.referrerGroups
  disjoint : ∀ name ∈ Group.tagNames p.deviceGroups, name ∉ Group.tagNames p.referrerGroups

end Policy

namespace VariantTags

variable {v v' : VariantTags}

theorem fileName_inj (h : v.encoding = [] ∨ v.encoding = gzipSuffix)
    (h' : v'.encoding = [] ∨ v'.encoding = gzipSuffix) :
    v.fileName = v'.fileName ↔ v.joined = v'.joined ∧ v.encoding = v'.encoding := by
  have hname : ∀ v : VariantTags,
      v.fileName = indexStem ++ (v.joined ++ (htmlExtension ++ v.encoding)) := by
    intro v
    simp [fileName, joined]
  rw [hname, hname, List.append_cancel_left_eq]
  constructor
  · intro heq
    -- The extension and the suffix of compressed files end in different letters.
    have hencoding : v.encoding = v'.encoding := by
      have hhtml : htmlExtension.getLast? = some 'l' := by decide
      have hgzip : gzipSuffix.getLast? = some 'p' := by decide
      have hlast := congrArg List.getLast? heq
      rcases h with h | h <;> rcases h' with h' | h' <;> simp [h, h', hhtml, hgzip] at hlast ⊢
    rw [hencoding, List.append_cancel_right_eq] at heq
    exact ⟨heq, hencoding⟩
  · rintro ⟨hjoined, hencoding⟩
    rw [hjoined, hencoding]

def tagOf (name : Option Text) : Text := name.toList.flatMap ('_' :: ·)

end VariantTags

theorem TagCandidate.exists_select_eq (groups : List Group) (s : Subject) (value : Text) :
    ∃ name : Option Text, (∀ n ∈ name, n ∈ Group.tagNames groups) ∧
      select (ofGroups groups s) value = VariantTags.tagOf name := by
  match hfind : (ofGroups groups s).find? fun c => Pattern.found true c.pattern value with
  | none => exact ⟨none, by simp, by simp [select, hfind, VariantTags.tagOf]⟩
  | some c =>
    obtain ⟨g, hg, rfl⟩ := List.mem_map.1 (List.mem_of_find?_eq_some hfind)
    refine ⟨some g.name, ?_, by simp [select, hfind, VariantTags.tagOf, Group.tag]⟩
    simp only [Option.mem_some_iff, forall_eq', Group.tagNames, List.mem_map]
    exact ⟨g, by simpa using hg, rfl⟩

namespace Policy

variable {p : Policy} {r r' : Request}

theorem encoding_tags (p : Policy) (r : Request) :
    (p.tags r).encoding = [] ∨ (p.tags r).encoding = VariantTags.gzipSuffix := by
  cases h : p.compression && r.acceptsGzip <;> simp [tags, h]

theorem exists_names (p : Policy) (r : Request) :
    ∃ device referrer tls : Option Text,
      ((∀ n ∈ device, n ∈ Group.tagNames p.deviceGroups) ∧
        (∀ n ∈ referrer, n ∈ Group.tagNames p.referrerGroups) ∧ ∀ n ∈ tls, n = "ssl") ∧
      (p.tags r).device = VariantTags.tagOf device ∧
      (p.tags r).referrer = VariantTags.tagOf referrer ∧
      (p.tags r).tls = VariantTags.tagOf tls := by
  obtain ⟨device, hdevice, hd⟩ :=
    TagCandidate.exists_select_eq p.deviceGroups .userAgent r.userAgent
  obtain ⟨referrer, hreferrer, hr⟩ :=
    TagCandidate.exists_select_eq p.referrerGroups .referrerCookie r.cookie
  cases htls : r.isTls with
  | false =>
    exact ⟨device, referrer, none, ⟨hdevice, hreferrer, by simp⟩, hd, hr,
      by simp [tags, htls, VariantTags.tagOf]⟩
  | true =>
    exact ⟨device, referrer, some "ssl", ⟨hdevice, hreferrer, by simp⟩, hd, hr,
      by simp [tags, htls, VariantTags.tagOf, VariantTags.tlsTag]⟩

/-- Of three names of different kinds, each is the one of its kind. -/
theorem find?_of_apart {ds rs : List Text} {t : Text} (hdisjoint : ∀ n ∈ ds, n ∉ rs)
    (hds : t ∉ ds) (hrs : t ∉ rs) {x y z : Option Text} (hx : ∀ n ∈ x, n ∈ ds)
    (hy : ∀ n ∈ y, n ∈ rs) (hz : ∀ n ∈ z, n = t) :
    (x.toList ++ y.toList ++ z.toList).find? (· ∈ ds) = x ∧
      (x.toList ++ y.toList ++ z.toList).find? (· ∈ rs) = y ∧
      (x.toList ++ y.toList ++ z.toList).find? (· = t) = z := by
  have hx' : ∀ n ∈ x, n ∉ rs ∧ n ≠ t := fun n hn =>
    ⟨hdisjoint n (hx n hn), fun heq => hds (heq ▸ hx n hn)⟩
  have hy' : ∀ n ∈ y, n ∉ ds ∧ n ≠ t := fun n hn =>
    ⟨fun hin => hdisjoint n hin (hy n hn), fun heq => hrs (heq ▸ hy n hn)⟩
  cases x <;> cases y <;> cases z <;> simp_all

theorem NamesApart.not_mem_names (h : p.NamesApart) {device referrer tls : Option Text}
    (hdevice : ∀ n ∈ device, n ∈ Group.tagNames p.deviceGroups)
    (hreferrer : ∀ n ∈ referrer, n ∈ Group.tagNames p.referrerGroups)
    (htls : ∀ n ∈ tls, n = "ssl") :
    ∀ n ∈ device.toList ++ referrer.toList ++ tls.toList, '_' ∉ n := by
  intro n hn
  simp only [List.mem_append, Option.mem_toList] at hn
  rcases hn with (hn | hn) | hn
  · exact h.plain n (List.mem_append_left _ (hdevice n hn))
  · exact h.plain n (List.mem_append_right _ (hreferrer n hn))
  · rw [htls n hn]
    decide

/-- Where names can be told apart, so can tags. -/
theorem NamesApart.tags_eq (h : p.NamesApart)
    (hjoined : (p.tags r).joined = (p.tags r').joined)
    (hencoding : (p.tags r).encoding = (p.tags r').encoding) : p.tags r = p.tags r' := by
  obtain ⟨d, e, q, ⟨hd, he, hq⟩, htd, hte, htq⟩ := p.exists_names r
  obtain ⟨d', e', q', ⟨hd', he', hq'⟩, htd', hte', htq'⟩ := p.exists_names r'
  have hlist : d.toList ++ e.toList ++ q.toList = d'.toList ++ e'.toList ++ q'.toList := by
    refine Text.flatMap_sep_injective (h.not_mem_names hd he hq) (h.not_mem_names hd' he' hq') ?_
    simpa [VariantTags.joined, htd, hte, htq, htd', hte', htq', VariantTags.tagOf] using hjoined
  -- The lists of names are equal, and no name of one kind is a name of another.
  have hnot := h.not_tls
  rw [List.mem_append, not_or] at hnot
  obtain ⟨hdevice, hreferrer, htls⟩ := find?_of_apart h.disjoint hnot.1 hnot.2 hd he hq
  obtain ⟨hdevice', hreferrer', htls'⟩ := find?_of_apart h.disjoint hnot.1 hnot.2 hd' he' hq'
  rw [hlist, hdevice'] at hdevice
  rw [hlist, hreferrer'] at hreferrer
  rw [hlist, htls'] at htls
  have hext : ∀ v v' : VariantTags, v.device = v'.device → v.referrer = v'.referrer →
      v.tls = v'.tls → v.encoding = v'.encoding → v = v' := by
    rintro ⟨⟩ ⟨⟩ rfl rfl rfl rfl
    rfl
  exact hext _ _ (by rw [htd, htd', hdevice]) (by rw [hte, hte', hreferrer])
    (by rw [htq, htq', htls]) hencoding

end Policy

namespace Program

variable {p : Policy} {s : Site} {r r' : Request} {fileExists fileExists' : Text → Bool}
  {file file' : Text}

theorem after_redirects (groups : List Group) (subject : Subject) (f : Findings) :
    f.after r (redirects groups subject) = f := by
  have hstay : ∀ steps : List Step, (∀ x ∈ steps, ∃ subject pattern target,
      x = .redirect subject pattern target) → f.after r steps = f := by
    intro steps hsteps
    induction steps with
    | nil => rfl
    | cons x steps ih =>
      obtain ⟨⟨subject, pattern, target, rfl⟩, hrest⟩ := List.forall_mem_cons.1 hsteps
      exact ih hrest
  refine hstay _ fun x hx => ?_
  obtain ⟨pattern, target, rfl⟩ := exists_of_mem_redirects hx
  exact ⟨_, _, _, rfl⟩

theorem tags_after_front (p : Policy) (s : Site) (r : Request) :
    (Findings.after r {} (front p s)).tags = p.tags r := by
  rw [front]
  change (Findings.after r {} (redirects p.deviceGroups .userAgent ++ _)).tags = _
  rw [Findings.after_append, Findings.after_append, after_redirects, after_redirects, detection,
    Policy.tags]
  cases Tenancy.ofPolicy p s <;> cases p.compression <;> cases htls : r.isTls <;>
    cases hgzip : r.acceptsGzip <;>
    simp [Findings.after, Step.find, classification, Findings.setTag, Findings.setTls,
      Findings.setGzip, TagSlot.subject, Subject.value, htls, hgzip]

theorem candidate_eq (p : Policy) (s : Site) (r : Request) : candidate p s r =
    (CacheTarget.ofSite s (Tenancy.ofPolicy p s)).candidate (p.tenant? s r)
      (((p.tenant? s r).map (·.uri)).getD r.uri) (p.tags r) := by
  rw [candidate, Findings.candidate, tags_after_front, tenant_after_front,
    Tenancy.map_tenant_ofPolicy]

/-- The file of a request ends with its tags; what comes before them depends on the tenant and the
path. -/
theorem exists_candidate_eq (p : Policy) (s : Site) (uri : Text) (tenant : Option Tenant) :
    ∃ lead, ∀ r : Request, r.uri = uri → p.tenant? s r = tenant →
      candidate p s r = lead ++ (p.tags r).fileName := by
  obtain ⟨lead, hlead⟩ := Path.exists_ofParts_concat
    [s.documentRoot.trimEndSlashes,
      ((CacheTarget.ofSite s (Tenancy.ofPolicy p s)).directory tenant).trimSlashes,
      Text.trimSlashes ((tenant.map (·.uri)).getD uri)]
  refine ⟨lead, fun r huri htenant => ?_⟩
  have hname := hlead _ (p.tags r).fileName_ne_nil
  rw [candidate_eq, htenant, huri,
    CacheTarget.candidate_eq_ofParts (Text.getLast?_trimEndSlashes_ne s.documentRoot)]
  exact hname

theorem eq_candidate_of_file? (h : ((build p s).evaluate r fileExists).file? = some file) :
    file = candidate p s r := by
  rw [evaluate_build_eq] at h
  match ha : answer? p s r with
  | some d =>
    rw [ha] at h
    cases h.symm.trans (file?_of_answer? p s r ha)
  | none =>
    rw [ha] at h
    cases hexists : fileExists (candidate p s r) <;> simp [hexists, Decision.file?] at h <;>
      exact h.symm

/-- Requests of one tenant for one path share a file exactly where the tags that stand in its name
agree as one text; and so where the tags agree, if names can be told apart. -/
theorem file_eq_iff (huri : r.uri = r'.uri) (htenant : p.tenant? s r = p.tenant? s r')
    (h : ((build p s).evaluate r fileExists).file? = some file)
    (h' : ((build p s).evaluate r' fileExists').file? = some file') :
    (file = file' ↔ (p.tags r).joined = (p.tags r').joined ∧
        (p.tags r).encoding = (p.tags r').encoding) ∧
      (p.NamesApart → (file = file' ↔ p.tags r = p.tags r')) := by
  obtain ⟨lead, hlead⟩ := exists_candidate_eq p s r'.uri (p.tenant? s r')
  have hfile : file = file' ↔ (p.tags r).joined = (p.tags r').joined ∧
      (p.tags r).encoding = (p.tags r').encoding := by
    rw [eq_candidate_of_file? h, eq_candidate_of_file? h', hlead r huri htenant, hlead r' rfl rfl,
      List.append_cancel_left_eq]
    exact VariantTags.fileName_inj (p.encoding_tags r) (p.encoding_tags r')
  refine ⟨hfile, fun hapart => hfile.trans ⟨fun ⟨hjoined, hencoding⟩ => ?_, fun htags => ?_⟩⟩
  · exact hapart.tags_eq hjoined hencoding
  · rw [htags]
    exact ⟨rfl, rfl⟩

/-- Visitors on a mobile device and visitors from a search engine. -/
theorem file_eq_iff_mobile_search :
    let p : Policy :=
      { rejectCookies := [], rejectUris := []
        deviceGroups := [{ name := "mobile", enabled := true, matchers := ["Mobile"] }]
        referrerGroups := [{ name := "search", enabled := true, matchers := ["google"] }] }
    let r : Request := { uri := "/post/", userAgent := "Mobile" }
    let r' : Request := { uri := "/post/", cookie := "pgc_referrer=google" }
    let file : Text := "/srv/www/cache/page/post/_index_mobile.html"
    let file' : Text := "/srv/www/cache/page/post/_index_search.html"
    p.NamesApart ∧ ((build p {}).evaluate r (fun _ => true)).file? = some file ∧
      ((build p {}).evaluate r' (fun _ => true)).file? = some file' ∧
      (file = file' ↔ p.tags r = p.tags r') := by
  intro p r r' file file'
  have hapart : p.NamesApart :=
    ⟨by decide +kernel, by decide +kernel, by decide +kernel⟩
  have h : ((build p {}).evaluate r (fun _ => true)).file? = some file := by decide +kernel
  have h' : ((build p {}).evaluate r' (fun _ => true)).file? = some file' := by decide +kernel
  have huri : r.uri = r'.uri := rfl
  have htenant : p.tenant? {} r = p.tenant? {} r' := rfl
  exact ⟨hapart, h, h', (file_eq_iff huri htenant h h').2 hapart⟩

/-- A device group may have the name of the tag of encrypted requests: visitors whom it recognises
then share the file of encrypted requests. -/
theorem not_file_separates : ∃ (o : Options) (st : Settings) (r r' : Request) (file : Text),
    Settings.ofOptions o = .ok st ∧ r.uri = r'.uri ∧
      st.policy.tenant? st.site r = st.policy.tenant? st.site r' ∧
      (build st.policy st.site).evaluate r (fun _ => true) = .serve file ∧
      (build st.policy st.site).evaluate r' (fun _ => true) = .serve file ∧
      (st.policy.tags r).device ≠ (st.policy.tags r').device ∧
      (st.policy.tags r).tls ≠ (st.policy.tags r').tls := by
  let o : Options :=
    { site := { documentRoot := some "/srv/www", cacheDir := some "/srv/www/cache/page" }
      policy :=
        { device := { groups := some [{ name := some "ssl", matchers := some ["Mobile"] }] } } }
  let r : Request := { uri := "/post/", https := true }
  let r' : Request := { uri := "/post/", userAgent := "Mobile" }
  let file : Text := "/srv/www/cache/page/post/_index_ssl.html"
  have hloaded : (match Settings.ofOptions o with
      | .ok st => decide (st.policy.tenant? st.site r = st.policy.tenant? st.site r' ∧
        (build st.policy st.site).evaluate r (fun _ => true) = .serve file ∧
        (build st.policy st.site).evaluate r' (fun _ => true) = .serve file ∧
        (st.policy.tags r).device ≠ (st.policy.tags r').device ∧
        (st.policy.tags r).tls ≠ (st.policy.tags r').tls)
      | .error _ => false) = true := by decide +kernel
  match hst : Settings.ofOptions o with
  | .error _ => simp [hst] at hloaded
  | .ok st =>
    simp only [hst, decide_eq_true_eq] at hloaded
    exact ⟨o, st, r, r', file, hst, rfl, hloaded⟩

end Program

end PageCache
