import PageCache.Proofs.Decision.Isolation
import PageCache.Proofs.Pattern.Plain
import PageCache.Rules

/-! Which pages the locations of the header rules select. The directory of cached pages stands in the
pattern of a location as it is, with a gap for the tenant. So a directory of plain characters, with
single slashes where the path of a page has them, is found in front of every page; the end of the
pattern tells compressed pages from the others. -/
namespace PageCache

attribute [local irreducible] Pattern.captures? Pattern.found

open Pattern (Piece)

namespace Text

variable {t : Text}

/-- A path that neither starts with two slashes nor ends with one. -/
structure SingleSlashes (t : Text) : Prop where
  starts : t.startsWith "//" = false
  ends : t.getLast? ≠ some '/'

theorem trimSlashes_of_bare (hfirst : t.head? ≠ some '/') (hlast : t.getLast? ≠ some '/') :
    t.trimSlashes = t := by
  have hstart : t.trimStart (· == '/') = t := trimStart_of_head? fun c hc => by
    rw [beq_eq_false_iff_ne]
    rintro rfl
    exact hfirst hc
  rw [trimSlashes, hstart]
  exact trimEndSlashes_of_getLast?_ne hlast

theorem endsWith_append_of_length_le {s ending : Text} (h : ending.length ≤ s.length) :
    endsWith (t ++ s) ending = s.endsWith ending := by
  rw [endsWith, endsWith, Bool.eq_iff_iff, List.isSuffixOf_iff_suffix, List.isSuffixOf_iff_suffix]
  exact ⟨fun hsuffix => List.suffix_of_suffix_length_le hsuffix (List.suffix_append t s) h,
    fun hsuffix => hsuffix.trans (List.suffix_append t s)⟩

theorem trimSlashes_slash_cons (t : Text) : trimSlashes ('/' :: t) = t.trimSlashes := rfl

/-- Trimmed and with one slash in front, the path still ends with what it was. -/
theorem SingleSlashes.exists_lead (h : t.SingleSlashes) :
    ∃ lead : Text, '/' :: t.trimSlashes = lead ++ t := by
  by_cases hfirst : t.head? = some '/'
  · obtain ⟨u, rfl⟩ := List.head?_eq_some_iff.1 hfirst
    have hu : u ≠ [] := by
      rintro rfl
      exact h.ends rfl
    have huhead : u.head? ≠ some '/' := by
      intro hhead
      obtain ⟨v, rfl⟩ := List.head?_eq_some_iff.1 hhead
      exact absurd h.starts (by simp [startsWith])
    have hulast : u.getLast? ≠ some '/' := by
      rw [← List.getLast?_cons_of_ne_nil hu]
      exact h.ends
    exact ⟨[], by rw [trimSlashes_slash_cons, trimSlashes_of_bare huhead hulast, List.nil_append]⟩
  · exact ⟨['/'], by rw [trimSlashes_of_bare hfirst h.ends]; rfl⟩

end Text

theorem Site.getLast?_cachePath_ne (s : Site) : s.cachePath.getLast? ≠ some '/' :=
  Text.getLast?_trimEndSlashes_ne _

/-- A step in place of the tenant's segment adds no slashes. -/
theorem TenantSegment.Frame.singleSlashes {dir : Text} (frame : Frame dir) (h : dir.SingleSlashes)
    {body : Text} (hne : body ≠ []) (hfirst : body.head? ≠ some '/')
    (hlast : body.getLast? ≠ some '/') :
    Text.SingleSlashes (frame.before ++ '/' :: body ++ frame.after) where
  starts := by
    rw [Bool.eq_false_iff]
    intro hstart
    have hdir : ¬ ("//" : Text) <+: dir := fun htwo => by
      rw [← List.isPrefixOf_iff_prefix] at htwo
      exact absurd (htwo.symm.trans h.starts) (by decide)
    have htwo := List.isPrefixOf_iff_prefix.1 hstart
    match hb : frame.before with
    | [] =>
      rw [hb] at htwo
      obtain ⟨c, rest, rfl⟩ := List.exists_cons_of_ne_nil hne
      have hc : '/' = c := by simpa using htwo
      exact hfirst (by rw [hc]; rfl)
    | [c] =>
      rw [hb] at htwo
      obtain rfl : '/' = c := by simpa using htwo
      have hslash := frame.slash_begins (by simp [hb])
      rw [hb] at hslash
      exact hdir hslash
    | c :: d :: rest =>
      rw [hb] at htwo
      obtain ⟨rfl, rfl⟩ : '/' = c ∧ '/' = d := by simpa using htwo
      have hbegins := frame.begins
      rw [hb] at hbegins
      exact hdir ((List.prefix_append _ rest).trans hbegins)
  ends := by
    by_cases hafter : frame.after = []
    · rw [hafter, List.append_nil, List.getLast?_append_of_ne_nil _ (by simp),
        List.getLast?_cons_of_ne_nil hne]
      exact hlast
    · obtain ⟨lead, hlead⟩ := frame.ends
      rw [List.getLast?_append_of_ne_nil _ hafter, ← List.getLast?_append_of_ne_nil lead hafter,
        hlead]
      exact h.ends

/-- The tenant of a request without newlines has none either. -/
theorem Program.newline_not_mem_tenant {p : Policy} {s : Site} {r : Request} {t : Tenant}
    (h : p.tenant? s r = some t) (hr : '\n' ∉ r.uri) : '\n' ∉ t.directory ∧ '\n' ∉ t.uri := by
  have hdomain : '\n' ∉ t.domain := by
    rw [tenant?_eq_some h]
    exact Tenant.not_mem_domainOf (by decide +kernel) r.host
  have hparts : (∀ name ∈ t.name, '\n' ∉ name) ∧ '\n' ∉ t.uri := by
    rw [← Tenancy.map_tenant_ofPolicy] at h
    obtain ⟨tenancy, -, rfl⟩ := Option.map_eq_some_iff.1 h
    cases tenancy with
    | domain => exact ⟨by simp [Tenancy.tenant_domain], by simpa [Tenancy.tenant_domain] using hr⟩
    | path pattern =>
      cases hc : Pattern.captures? false pattern r.uri with
      | none => exact ⟨by simp [Tenancy.tenant_path, hc], by simpa [Tenancy.tenant_path, hc] using hr⟩
      | some groups =>
        have hgroup : ∀ {i m}, groups.lookup i = some m → '\n' ∉ m := fun hm hnewline =>
          hr ((Pattern.isInfix_of_captures? hc hm).subset hnewline)
        constructor
        · intro name hname
          exact hgroup (by simpa [Tenancy.tenant_path, hc] using hname)
        · cases hm : groups.lookup 2 with
          | none => simp [Tenancy.tenant_path, hc, hm]
          | some m => simpa [Tenancy.tenant_path, hc, hm] using hgroup hm
  refine ⟨?_, hparts.2⟩
  rw [Tenant.directory_eq, Tenant.namePrefix]
  cases hname : t.name with
  | none => simpa [TenantSegment.stem] using hdomain
  | some name =>
    have hn := hparts.1 name hname
    simpa [TenantSegment.stem, hdomain] using hn

namespace Site

/-- What follows the document root in the path of a file below it. -/
def partOf? (s : Site) (file : Text) : Option Text :=
  (file.stripPrefix? s.documentRoot.trimEndSlashes).filter (·.startsWith "/")

theorem eq_of_partOf? {s : Site} {file part : Text} (h : s.partOf? file = some part) :
    file = s.documentRoot.trimEndSlashes ++ part ∧ part.startsWith "/" = true := by
  obtain ⟨hstrip, hstart⟩ := Option.filter_eq_some_iff.1 h
  exact ⟨Text.eq_of_stripPrefix? hstrip, hstart⟩

end Site

namespace Path

/-- Between the first and the last of three parts stand slashes and the second part. -/
theorem exists_gap_ofParts (a b : Text) {name : Text} (hn : name ≠ []) :
    ∃ gap : Text, (∀ c ∈ gap, c = '/' ∨ c ∈ b) ∧ ofParts [a, b, name] = a ++ (gap ++ name) := by
  have hpair : ∃ gap : Text, (∀ c ∈ gap, c = '/' ∨ c ∈ b) ∧ ofParts [b, name] = gap ++ name := by
    by_cases hb : b = []
    · exact ⟨[], by simp, by simp [hb, ofParts, Text.join, hn]⟩
    · refine ⟨b ++ ['/'], fun c hc => ?_, by simp [hb, ofParts, Text.join, hn]⟩
      exact (List.mem_append.1 hc).symm.imp_left fun h => by simpa using h
  obtain ⟨gap, hgap, hparts⟩ := hpair
  by_cases ha : a = []
  · exact ⟨gap, hgap, by rw [ha, ofParts_empty_cons, hparts, List.nil_append]⟩
  · refine ⟨'/' :: gap, by simpa using hgap, ?_⟩
    rw [ofParts_cons ha, if_neg (by simp [hparts, hn]), hparts]
    simp

end Path

/-- Below the document root, a page has the directory of its tenant, the path of the request and its
name. -/
theorem CacheTarget.exists_part {s : Site} {tenancy : Option Tenancy} {tenant : Option Tenant}
    {uri part : Text} {tags : VariantTags}
    (h : s.partOf? ((ofSite s tenancy).candidate tenant uri tags) = some part)
    (hdir : ((ofSite s tenancy).directory tenant).SingleSlashes) :
    ∃ lead gap, part = lead ++ ((ofSite s tenancy).directory tenant ++ (gap ++ tags.fileName)) ∧
      ∀ c ∈ gap, c = '/' ∨ c ∈ uri := by
  obtain ⟨heq, hstart⟩ := Site.eq_of_partOf? h
  rw [candidate_eq_ofParts (Text.getLast?_trimEndSlashes_ne s.documentRoot)] at heq
  set dir := (ofSite s tenancy).directory tenant
  change Path.ofParts [s.documentRoot.trimEndSlashes, _, _, _] = _ at heq
  obtain ⟨gap, hgap, hparts⟩ :=
    Path.exists_gap_ofParts dir.trimSlashes uri.trimSlashes tags.fileName_ne_nil
  have hroot : s.documentRoot.trimEndSlashes ≠ [] := by
    -- A file below no root would have a relative path.
    intro hroot
    rw [hroot, Path.ofParts_empty_cons, List.nil_append] at heq
    rw [← heq, Text.startsWith, List.isPrefixOf_iff_prefix] at hstart
    obtain ⟨rest, hrest⟩ := hstart
    have hhead : (Path.ofParts [dir.trimSlashes, uri.trimSlashes, tags.fileName]).head? ≠ some '/' :=
      Path.head?_ofParts_ne (by simp [Text.head?_trimSlashes_ne, tags.head?_fileName])
    rw [← hrest] at hhead
    exact hhead rfl
  rw [Path.ofParts_cons hroot, if_neg (by simp [hparts, tags.fileName_ne_nil]), hparts,
    List.append_assoc, List.append_cancel_left_eq] at heq
  obtain ⟨lead, hlead⟩ := hdir.exists_lead
  refine ⟨lead, gap, ?_, fun c hc => ?_⟩
  · rw [← heq, ← List.append_assoc lead, ← hlead]
    rfl
  · refine (hgap c hc).imp_right fun hmem => ?_
    obtain ⟨l, r, huri, -, -⟩ := uri.exists_eq_trimSlashes
    rw [huri]
    simp [hmem]

namespace CacheTarget

variable {c : CacheTarget}

/-- The pieces of the path that a location has for a target: they stand for the directory of every
tenant. -/
theorem exists_pieces (hplain : ∀ d ∈ c.cachePath, Pattern.isPlain d = true)
    (hsingle : c.cachePath.SingleSlashes) :
    ∃ ps : List Piece, (∀ p ∈ ps, p.IsPlain) ∧
      c.templatedPath ("/" ++ TenantSegment.stem ++ ".*?/") = Piece.renderAll ps ∧
      ∀ tenant : Option Tenant, tenant.isSome = c.tenancy.isSome →
        (∀ t ∈ tenant, '\n' ∉ t.directory ∧ '/' ∉ t.domain) →
        Piece.AdmitAll ps (c.directory tenant) ∧ (c.directory tenant).SingleSlashes := by
  cases htenancy : c.tenancy with
  | none =>
    refine ⟨[.plain c.cachePath], by simpa [Piece.IsPlain] using hplain, ?_, fun tenant htenant _ => ?_⟩
    · simp [templatedPath, htenancy, Piece.renderAll, Piece.render]
    · obtain rfl : tenant = none := by simpa using htenant
      exact ⟨⟨_, [], by simp [directory], Piece.admits_plain_self _, rfl⟩, hsingle⟩
  | some tenancy =>
    obtain ⟨frame⟩ := TenantSegment.nonempty_frame c.cachePath
    refine ⟨[.plain (frame.before ++ '/' :: TenantSegment.stem), .gap true, .plain frame.after],
      ?_, ?_, fun tenant htenant hproper => ?_⟩
    · have hstem : ∀ d ∈ TenantSegment.stem, Pattern.isPlain d = true := by
        simp [TenantSegment.stem, Pattern.isPlain]
      simp only [List.forall_mem_cons, Piece.IsPlain, List.forall_mem_append]
      exact ⟨⟨fun d hd => hplain d (frame.mem_dir d (.inl hd)), by decide, hstem⟩, trivial,
        fun d hd => hplain d (frame.mem_dir d (.inr hd)), by simp⟩
    · rw [templatedPath, htenancy, Option.isSome_some, if_pos rfl]
      refine (frame.replace_eq (TenantSegment.stem ++ ".*?") (by decide) (by decide)).trans ?_
      simp [Piece.renderAll, Piece.render]
    · obtain ⟨t, rfl⟩ := Option.isSome_iff_exists.1 htenant
      obtain ⟨hnewline, hslash⟩ := hproper t rfl
      have hlast := Tenant.getLast?_directory_ne hslash
      have hne : t.directory ≠ [] := by simp [Tenant.directory_eq, TenantSegment.stem]
      have hfirst : t.directory.head? ≠ some '/' := by simp [Tenant.directory_eq, TenantSegment.stem]
      have hreplace : c.directory (some t) = frame.before ++ '/' :: t.directory ++ frame.after :=
        frame.replace_eq t.directory hne hlast
      rw [hreplace]
      refine ⟨⟨_, _, ?_, Piece.admits_plain_self _, t.namePrefix ++ t.domain, frame.after, rfl, ?_,
        _, [], (List.append_nil _).symm, Piece.admits_plain_self _, rfl⟩,
        frame.singleSlashes hsingle hne hfirst hlast⟩
      · simp [Tenant.directory_eq]
      · rw [Tenant.directory_eq, List.mem_append, not_or] at hnewline
        exact hnewline.2

end CacheTarget

/-- A pattern of pieces and an ending is found in a page of a directory that the pieces stand for
exactly if the name of the page has the ending. -/
theorem Pattern.finds_ending_iff {ps : List Piece} (hps : ∀ p ∈ ps, p.IsPlain)
    {lead dir gap name ending : Text} (hdir : Piece.AdmitAll ps dir) (hgap : '\n' ∉ gap)
    (hname : '\n' ∉ name) (hending : ∀ c ∈ ending, isPlain c = true ∧ c ≠ '.')
    (hlength : ending.length ≤ name.length) :
    Finds (Piece.renderAll ps ++ (".*" ++ ending ++ "$")) (lead ++ (dir ++ (gap ++ name))) ↔
      ending <:+ name := by
  have hrender : Piece.renderAll ps ++ (".*" ++ ending ++ "$") =
      Piece.renderAll (ps ++ [.gap false, .plain ending]) ++ "$" := by
    simp [Piece.renderAll, Piece.render]
  have hplain : ∀ p ∈ ps ++ [.gap false, .plain ending], p.IsPlain := by
    simp only [List.forall_mem_append, List.forall_mem_cons]
    exact ⟨hps, trivial, fun c hc => (hending c hc).1, by simp⟩
  have hadmits : ∀ v, Piece.AdmitAll [.gap false, .plain ending] v ↔
      ∃ a, v = a ++ ending ∧ '\n' ∉ a := by
    intro v
    have hdot : '.' ∉ ending := fun hdot => (hending _ hdot).2 rfl
    simp only [Piece.AdmitAll, Piece.admits_plain_iff hdot]
    simp [Piece.Admits]
  rw [hrender, finds_renderAll_iff hplain]
  simp only [Piece.admitAll_append, hadmits]
  constructor
  · rintro ⟨front, -, heq, a, -, rfl, -, b, rfl, -⟩
    have hvalue : ending <:+ lead ++ (dir ++ (gap ++ name)) := ⟨front ++ (a ++ b), by simp [heq]⟩
    have hend : name <:+ lead ++ (dir ++ (gap ++ name)) := ⟨lead ++ (dir ++ gap), by simp⟩
    exact List.suffix_of_suffix_length_le hvalue hend hlength
  · rintro ⟨stem, rfl⟩
    have hstem : '\n' ∉ gap ++ stem := by
      simp only [List.mem_append, not_or] at hname ⊢
      exact ⟨hgap, hname.1⟩
    exact ⟨lead, _, rfl, dir, _, rfl, hdir, gap ++ stem, by simp, hstem⟩

namespace VariantTags

variable {v : VariantTags}

theorem html_suffix_of_nil (h : v.encoding = []) : ("html" : Text) <:+ v.fileName := by
  have hhtml : htmlExtension = ['.'] ++ ("html" : Text) := by decide
  rw [fileName, h, List.append_nil, hhtml]
  exact (List.suffix_append ['.'] _).trans (List.suffix_append _ _)

theorem gzip_suffix_of_gzip (h : v.encoding = gzipSuffix) : ("gzip" : Text) <:+ v.fileName := by
  have hgzip : gzipSuffix = ['.'] ++ ("gzip" : Text) := by decide
  rw [fileName, h, hgzip]
  exact (List.suffix_append ['.'] _).trans (List.suffix_append _ _)

theorem not_html_and_gzip_suffix (name : Text) :
    ¬(("html" : Text) <:+ name ∧ ("gzip" : Text) <:+ name) := fun h =>
  absurd (List.suffix_of_suffix_length_le h.1 h.2 (by decide)) (by decide)

theorem html_suffix_fileName_iff (h : v.encoding = [] ∨ v.encoding = gzipSuffix) :
    ("html" : Text) <:+ v.fileName ↔ v.encoding = [] := by
  rcases h with h | h
  · exact iff_of_true (html_suffix_of_nil h) h
  · refine iff_of_false (fun hsuffix => ?_) (by rw [h]; decide)
    exact not_html_and_gzip_suffix _ ⟨hsuffix, gzip_suffix_of_gzip h⟩

theorem gzip_suffix_fileName_iff (h : v.encoding = [] ∨ v.encoding = gzipSuffix) :
    ("gzip" : Text) <:+ v.fileName ↔ v.encoding = gzipSuffix := by
  rcases h with h | h
  · refine iff_of_false (fun hsuffix => ?_) (by rw [h]; decide)
    exact not_html_and_gzip_suffix _ ⟨html_suffix_of_nil h, hsuffix⟩
  · exact iff_of_true (gzip_suffix_of_gzip h) h

theorem four_le_length_fileName (v : VariantTags) : 4 ≤ v.fileName.length := by
  have hstem : indexStem.length = 6 := by decide
  simp only [fileName, List.length_append, hstem]
  omega

end VariantTags

theorem Policy.compression_of_encoding (p : Policy) {r : Request}
    (h : (p.tags r).encoding = VariantTags.gzipSuffix) : p.compression = true := by
  cases hc : p.compression with
  | true => rfl
  | false =>
    have hnone : (p.tags r).encoding = [] := by simp [tags, hc]
    exact absurd (hnone.symm.trans h) (by decide)

namespace Nginx

def Location.Selects (l : Location) (path : Text) : Prop := Pattern.Finds l.pattern path

def locationOf? (ending : Text) (ls : List Location) : Option Location :=
  ls.find? fun l => l.pattern.endsWith (ending ++ "$")

/-- A page is selected by the location of its kind, which is there, and not by the other. -/
structure Covers (ls : List Location) (encoding part : Text) : Prop where
  html : ∃ l, locationOf? "html" ls = some l ∧ (l.Selects part ↔ encoding = [])
  gzip_given : encoding = VariantTags.gzipSuffix → (locationOf? "gzip" ls).isSome = true
  gzip : ∀ l, locationOf? "gzip" ls = some l →
    (l.Selects part ↔ encoding = VariantTags.gzipSuffix)

variable {plan : HeaderPlan} {target : CacheTarget}

theorem locationOf?_html : locationOf? "html" (locations plan target) =
    some ⟨target.templatedPath ("/" ++ TenantSegment.stem ++ ".*?/") ++ ".*html$",
      headerLines plan⟩ := by
  rw [locationOf?, locations, List.find?_cons_of_pos]
  rw [Text.endsWith_append_of_length_le (by decide)]
  rfl

theorem locationOf?_gzip : locationOf? "gzip" (locations plan target) =
    if plan.compression then
      some ⟨target.templatedPath ("/" ++ TenantSegment.stem ++ ".*?/") ++ ".*gzip$", gzipLines plan⟩
    else none := by
  rw [locationOf?, locations, List.find?_cons_of_neg]
  · cases plan.compression with
    | false => rfl
    | true =>
      rw [if_pos rfl, if_pos rfl, List.find?_cons_of_pos]
      rw [Text.endsWith_append_of_length_le (by decide)]
      rfl
  · rw [Text.endsWith_append_of_length_le (by decide)]
    decide

variable {o : Options} {st : Settings} {r : Request} {fileExists : Text → Bool} {file part : Text}

/-- The pattern of a location with an ending is found in a page exactly if the name of the page has
the ending. -/
theorem finds_location_iff (hst : Settings.ofOptions o = .ok st)
    (hplain : ∀ c ∈ st.site.cachePath, Pattern.isPlain c = true)
    (hslashes : st.site.cachePath.startsWith "//" = false) (huri : '\n' ∉ r.uri)
    (hfile : ((Program.build st.policy st.site).evaluate r fileExists).file? = some file)
    (hpart : st.site.partOf? file = some part) {ending : Text}
    (hending : ∀ c ∈ ending, Pattern.isPlain c = true ∧ c ≠ '.') (hlength : ending.length = 4) :
    Pattern.Finds ((CacheTarget.ofPolicy st.policy st.site).templatedPath
        ("/" ++ TenantSegment.stem ++ ".*?/") ++ (".*" ++ ending ++ "$")) part ↔
      ending <:+ (st.policy.tags r).fileName := by
  set target := CacheTarget.ofPolicy st.policy st.site
  set tags := st.policy.tags r
  have hsingle : st.site.cachePath.SingleSlashes := ⟨hslashes, st.site.getLast?_cachePath_ne⟩
  have htenant : ∀ t ∈ st.policy.tenant? st.site r,
      '\n' ∉ t.directory ∧ '\n' ∉ t.uri ∧ '/' ∉ t.domain := by
    intro t ht
    obtain ⟨hdirectory, hturi⟩ := Program.newline_not_mem_tenant ht huri
    rw [Program.tenant?_eq_some ht]
    exact ⟨hdirectory, hturi, Tenant.slash_not_mem_domainOf r.host⟩
  have hsome : (st.policy.tenant? st.site r).isSome = target.tenancy.isSome := by
    rw [← Tenancy.map_tenant_ofPolicy, Option.isSome_map]
    rfl
  obtain ⟨ps, hps, hpath, hpieces⟩ := CacheTarget.exists_pieces (c := target) hplain hsingle
  obtain ⟨hadmits, hdir⟩ := hpieces _ hsome fun t ht => ⟨(htenant t ht).1, (htenant t ht).2.2⟩
  rw [Program.eq_candidate_of_file? hfile, Program.candidate_eq] at hpart
  obtain ⟨lead, gap, rfl, hgap⟩ := CacheTarget.exists_part hpart hdir
  have hgap : '\n' ∉ gap := by
    intro hnewline
    rcases hgap _ hnewline with h | h
    · exact absurd h (by decide)
    · cases ht : st.policy.tenant? st.site r with
      | none => exact huri (by simpa [ht] using h)
      | some t => exact (htenant t ht).2.1 (by simpa [ht] using h)
  have hname : '\n' ∉ tags.fileName := fun hnewline =>
    absurd (Settings.fileName_char hst r _ hnewline) (by decide)
  rw [hpath]
  exact Pattern.finds_ending_iff hps hadmits hgap hname hending
    (hlength ▸ tags.four_le_length_fileName)

/-- Where the directory of cached pages has plain characters and does not start with two slashes, the
locations of the header rules cover every page that is served, for every tenant. -/
theorem covers_of_file? (hst : Settings.ofOptions o = .ok st)
    (hplain : ∀ c ∈ st.site.cachePath, Pattern.isPlain c = true)
    (hslashes : st.site.cachePath.startsWith "//" = false) (huri : '\n' ∉ r.uri)
    (hfile : ((Program.build st.policy st.site).evaluate r fileExists).file? = some file)
    (hpart : st.site.partOf? file = some part) :
    Covers (locations (HeaderPlan.build st.policy st.site) (CacheTarget.ofPolicy st.policy st.site))
      (st.policy.tags r).encoding part := by
  have hencoding := st.policy.encoding_tags r
  have hhtml : ∀ c ∈ ("html" : Text), Pattern.isPlain c = true ∧ c ≠ '.' := by
    simp [Pattern.isPlain]
  have hgzip : ∀ c ∈ ("gzip" : Text), Pattern.isPlain c = true ∧ c ≠ '.' := by
    simp [Pattern.isPlain]
  exact
    { html := by
        refine ⟨_, locationOf?_html, ?_⟩
        rw [Location.Selects, ← VariantTags.html_suffix_fileName_iff hencoding]
        exact finds_location_iff hst hplain hslashes huri hfile hpart hhtml rfl
      gzip_given := fun hgiven => by
        have hcompression : (HeaderPlan.build st.policy st.site).compression = true :=
          st.policy.compression_of_encoding hgiven
        rw [locationOf?_gzip, if_pos hcompression]
        rfl
      gzip := fun l hl => by
        rw [locationOf?_gzip] at hl
        split at hl
        · obtain rfl := Option.some.inj hl
          rw [Location.Selects, ← VariantTags.gzip_suffix_fileName_iff hencoding]
          exact finds_location_iff hst hplain hslashes huri hfile hpart hgzip rfl
        · cases hl }

/-- A compressed page of a shop on a domain. -/
theorem covers_of_file?_shop :
    let o : Options :=
      { site :=
          { documentRoot := some "/srv/www"
            cacheDir := some "/srv/www/cache/pgc-example.com/page" }
        policy :=
          { multiTenant := some true
            tenantNames := some ["shop"]
            browserCache := { compression := some true } } }
    let r : Request := { uri := "/shop/post/", host := "example.com", acceptEncoding := "gzip" }
    let file : Text := "/srv/www/cache/pgc-shop.example.com/page/post/_index.html.gzip"
    let part : Text := "/cache/pgc-shop.example.com/page/post/_index.html.gzip"
    ∃ st, Settings.ofOptions o = .ok st ∧
      ((∀ c ∈ st.site.cachePath, Pattern.isPlain c = true) ∧
        st.site.cachePath.startsWith "//" = false ∧ '\n' ∉ r.uri ∧
        ((Program.build st.policy st.site).evaluate r fun _ => true).file? = some file ∧
        st.site.partOf? file = some part) ∧
      Covers (locations (HeaderPlan.build st.policy st.site) (CacheTarget.ofPolicy st.policy st.site))
        (st.policy.tags r).encoding part := by
  intro o r file part
  have hloaded : (match Settings.ofOptions o with
      | .ok st => decide ((st.site.cachePath.all Pattern.isPlain) = true ∧
        st.site.cachePath.startsWith "//" = false ∧
        ((Program.build st.policy st.site).evaluate r fun _ => true).file? = some file ∧
        st.site.partOf? file = some part)
      | .error _ => false) = true := by decide +kernel
  match hst : Settings.ofOptions o with
  | .error _ => simp [hst] at hloaded
  | .ok st =>
    simp only [hst, decide_eq_true_eq, List.all_eq_true] at hloaded
    obtain ⟨hplain, hslashes, hfile, hpart⟩ := hloaded
    have huri : '\n' ∉ r.uri := by decide
    exact ⟨st, rfl, ⟨hplain, hslashes, huri, hfile, hpart⟩,
      covers_of_file? hst hplain hslashes huri hfile hpart⟩

/-- A directory with a number in parentheses: they group in the pattern of the location. -/
theorem not_covers_of_file? : ∃ (o : Options) (st : Settings) (r : Request) (file part : Text),
    Settings.ofOptions o = .ok st ∧ '\n' ∉ r.uri ∧
      (Program.build st.policy st.site).evaluate r (fun _ => true) = .serve file ∧
      st.site.partOf? file = some part ∧
      ¬ Covers (locations (HeaderPlan.build st.policy st.site)
        (CacheTarget.ofPolicy st.policy st.site)) (st.policy.tags r).encoding part := by
  let o : Options :=
    { site := { documentRoot := some "/srv/www", cacheDir := some "/srv/www/cache/page(1)" } }
  let r : Request := { uri := "/post/" }
  let file : Text := "/srv/www/cache/page(1)/post/_index.html"
  let part : Text := "/cache/page(1)/post/_index.html"
  let pattern : Text := "/cache/page(1).*html$"
  have hloaded : (match Settings.ofOptions o with
      | .ok st => decide ((Program.build st.policy st.site).evaluate r (fun _ => true) = .serve file ∧
        st.site.partOf? file = some part ∧ (st.policy.tags r).encoding = [] ∧
        (CacheTarget.ofPolicy st.policy st.site).templatedPath
          ("/" ++ TenantSegment.stem ++ ".*?/") ++ ".*html$" = pattern)
      | .error _ => false) = true := by decide +kernel
  match hst : Settings.ofOptions o with
  | .error _ => simp [hst] at hloaded
  | .ok st =>
    simp only [hst, decide_eq_true_eq] at hloaded
    obtain ⟨hserve, hpart, hencoding, hpattern⟩ := hloaded
    refine ⟨o, st, r, file, part, hst, by decide, hserve, hpart, fun hcovers => ?_⟩
    obtain ⟨l, hl, hselects⟩ := hcovers.html
    rw [locationOf?_html, hpattern] at hl
    obtain rfl := Option.some.inj hl
    have hvalid : Pattern.isValid pattern = true := by decide +kernel
    have hfound : Pattern.found false pattern part = true :=
      (Pattern.finds_iff_found hvalid).1 (hselects.2 hencoding)
    have hnot : Pattern.found false pattern part = false := by decide +kernel
    rw [hnot] at hfound
    cases hfound

end Nginx

end PageCache
