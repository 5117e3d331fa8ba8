import PageCache.Proofs.Path.Candidate
import PageCache.Proofs.Text.Occurrence
import PageCache.Proofs.Decision.Front

/-! What a policy says about a request, read off its fields without a program. The first declared
group that redirects wins, but the last declared group that tags. Main statement: the program that
is built from a policy and a site decides every request in this way. -/
namespace PageCache

namespace Group

/-- The group is enabled, and one of its matchers is found in the value after the lead. -/
def recognises (g : Group) (lead value : Text) : Bool :=
  g.enabled && !g.matchers.isEmpty &&
    Pattern.found true (lead ++ "(" ++ Text.join g.matchers "|" ++ ")") value

/-- The target of the first group that recognises the value and has one. -/
def firstRedirect? (groups : List Group) (lead value : Text) : Option Text :=
  groups.findSome? fun g =>
    if g.recognises lead value then g.redirect.filter (!·.isEmpty) else none

/-- The tag of the last group that recognises the value and has no target. -/
def lastTag (groups : List Group) (lead value : Text) : Text :=
  match (groups.filter fun g => g.recognises lead value && (g.redirect.getD []).isEmpty).getLast? with
  | some g => "_" ++ g.name
  | none => []

end Group

namespace Policy

def referrerLead : Text := "pgc_referrer=.*"

/-- The rules against serving a cached page, in order, and whether the request violates them. -/
def servingRules (p : Policy) (r : Request) : List (Text × Bool) :=
  [("unsafe_method", r.method.eqIgnoreCase "POST"),
    ("query_string", !r.query.isEmpty),
    ("trailing_slash",
      if p.trailingSlash then !r.uri.endsWith "/" else r.uri.isEmpty || r.uri.endsWith "/"),
    ("rejected_uri",
      !p.rejectUris.isEmpty && Pattern.found true (Pattern.alternation p.rejectUris) r.uri &&
        !(!p.acceptFiles.isEmpty && Pattern.found true (Pattern.alternation p.acceptFiles) r.uri)),
    ("rejected_cookie",
      !p.rejectCookies.isEmpty &&
        Pattern.found true (Pattern.alternation p.rejectCookies) r.cookie),
    ("rejected_user_agent",
      !p.rejectUserAgents.isEmpty &&
        Pattern.found true (Pattern.alternation p.rejectUserAgents) r.userAgent)]

def violation? (p : Policy) (r : Request) : Option Text :=
  ((p.servingRules r).find? (·.2)).map (·.1)

/-- The tenant of a request, where there are tenants. -/
def tenant? (p : Policy) (s : Site) (r : Request) : Option Tenant :=
  if p.multiTenant then
    some (Tenant.ofRequest r.host r.uri
      (if p.pathTenancy then some (Tenant.pathPattern s.basePath p.tenantNames) else none))
  else none

/-- The name of the file that holds the variant for a request. -/
def fileName (p : Policy) (r : Request) : Text :=
  "_index" ++ Group.lastTag p.deviceGroups [] r.userAgent ++
    Group.lastTag p.referrerGroups referrerLead r.cookie ++
    (if r.https ∨ r.port = 443 then ("_ssl" : Text) else []) ++ ".html" ++
    (if p.browserCache.compression ∧ r.acceptEncoding.includes "gzip" then (".gzip" : Text) else [])

def cachedFile (p : Policy) (s : Site) (r : Request) : Text :=
  let directory := match p.tenant? s r with
    | some t => TenantSegment.replace s.cachePath ("/" ++ t.directory ++ "/")
    | none => s.cachePath
  let uri := match p.tenant? s r with
    | some t => t.uri
    | none => r.uri
  Path.ofParts
    [s.documentRoot.trimEndSlashes, directory.trimSlashes, uri.trimSlashes, p.fileName r]

def verdict (p : Policy) (s : Site) (r : Request) (fileExists : Text → Bool) : Decision :=
  if r.uri = Program.selfTestToken ∨ r.uri.endsWith ("/" ++ Program.selfTestToken) then .selfTest
  else
    match (Group.firstRedirect? p.deviceGroups [] r.userAgent).or
        (Group.firstRedirect? p.referrerGroups referrerLead r.cookie) with
    | some target => .redirect target
    | none =>
      match p.violation? r with
      | some label => .bypass label
      | none =>
        if fileExists (p.cachedFile s r) then .serve (p.cachedFile s r)
        else .miss (p.cachedFile s r)

section
variable {p : Policy} {s : Site} {r : Request} {fileExists : Text → Bool}

/-- The request is neither the test of rewriting nor redirected. -/
def Reaches (p : Policy) (r : Request) : Prop :=
  ¬(r.uri = Program.selfTestToken ∨ r.uri.endsWith ("/" ++ Program.selfTestToken) = true) ∧
    Group.firstRedirect? p.deviceGroups [] r.userAgent = none ∧
    Group.firstRedirect? p.referrerGroups referrerLead r.cookie = none

theorem verdict_of_reaches (h : p.Reaches r) : p.verdict s r fileExists =
    match p.violation? r with
    | some label => .bypass label
    | none =>
      if fileExists (p.cachedFile s r) then .serve (p.cachedFile s r)
      else .miss (p.cachedFile s r) := by
  obtain ⟨hself, hdevice, hreferrer⟩ := h
  rw [verdict, if_neg hself, hdevice, hreferrer]
  rfl

theorem reaches_of_verdict {d : Decision} (h : p.verdict s r fileExists = d) (hself : d ≠ .selfTest)
    (hredirect : ∀ target, d ≠ .redirect target) : p.Reaches r := by
  unfold verdict at h
  split at h
  · exact absurd h.symm hself
  · next hother =>
    split at h
    · exact absurd h.symm (hredirect _)
    · next hnone => exact ⟨hother, Option.or_eq_none_iff.1 hnone⟩

theorem verdict_eq_bypass_iff {label : Text} : p.verdict s r fileExists = .bypass label ↔
    p.Reaches r ∧ p.violation? r = some label := by
  constructor
  · intro h
    have hreaches := reaches_of_verdict h (by simp) (by simp)
    rw [verdict_of_reaches hreaches] at h
    split at h
    · next hviolation =>
      cases h
      exact ⟨hreaches, hviolation⟩
    · split at h <;> cases h
  · rintro ⟨hreaches, hviolation⟩
    rw [verdict_of_reaches hreaches, hviolation]

theorem verdict_eq_serve_iff {file : Text} : p.verdict s r fileExists = .serve file ↔
    p.Reaches r ∧ p.violation? r = none ∧ fileExists file = true ∧ p.cachedFile s r = file := by
  constructor
  · intro h
    have hreaches := reaches_of_verdict h (by simp) (by simp)
    rw [verdict_of_reaches hreaches] at h
    split at h
    · cases h
    · next hviolation =>
      split at h
      · next hexists =>
        obtain rfl := Decision.serve.inj h
        exact ⟨hreaches, hviolation, hexists, rfl⟩
      · cases h
  · rintro ⟨hreaches, hviolation, hexists, rfl⟩
    rw [verdict_of_reaches hreaches, hviolation]
    exact if_pos hexists

end

end Policy

namespace Subject

/-- What comes before the matchers in the pattern of a subject. -/
def lead : Subject → Text
  | userAgent => []
  | referrerCookie => Policy.referrerLead

theorem pattern_eq (s : Subject) (matchers : List Text) :
    s.pattern matchers = s.lead ++ "(" ++ Text.join matchers "|" ++ ")" := by
  cases s <;> rfl

end Subject

theorem Group.recognises_iff (g : Group) (s : Subject) (value : Text) :
    g.recognises s.lead value = (g.isActive && Pattern.found true (s.pattern g.matchers) value) := by
  rw [recognises, isActive, s.pattern_eq]

theorem Request.isSelfTest_iff (r : Request) : r.isSelfTest = true ↔
    r.uri = Program.selfTestToken ∨ r.uri.endsWith ("/" ++ Program.selfTestToken) = true := by
  rw [Text.endsWith_iff]
  constructor
  · intro h
    unfold isSelfTest at h
    split at h
    · next before hb =>
      have hu := Text.stripSuffix?_eq_some_iff.1 hb
      rcases Bool.or_eq_true _ _ ▸ h with h | h
      · left
        simpa [List.isEmpty_iff.1 h] using hu
      · obtain ⟨a, rfl⟩ := Text.endsWith_iff.1 h
        exact .inr ⟨a, by rw [hu, List.append_assoc]⟩
    · simp at h
  · intro h
    have hb : ∃ before, r.uri = before ++ Program.selfTestToken ∧
        (before.isEmpty || Text.endsWith before "/") = true := by
      rcases h with h | ⟨a, ha⟩
      · exact ⟨[], by simpa using h, rfl⟩
      · refine ⟨a ++ "/", by rw [← ha, List.append_assoc], ?_⟩
        exact Bool.or_eq_true_iff.2 (.inr (Text.endsWith_iff.2 ⟨a, rfl⟩))
    obtain ⟨before, hu, hb⟩ := hb
    rw [isSelfTest, Text.stripSuffix?_eq_some_iff.2 hu]
    exact hb

namespace Program

variable {r : Request} {fileExists : Text → Bool} {f : Findings} {rest : List Step}

theorem redirects_cons (g : Group) (groups : List Group) (s : Subject) :
    redirects (g :: groups) s =
      (if g.isActive then g.redirectTarget.map fun t => Step.redirect s (s.pattern g.matchers) t
        else none).toList ++ redirects groups s := by
  rw [redirects, List.filterMap_cons]
  split
  · next h => simp [h, redirects]
  · next h => simp [h, redirects]

/-- The redirects of groups end the run with the target of the first group that is recognised. -/
theorem runSteps_redirects (groups : List Group) (s : Subject) :
    runSteps r fileExists f (redirects groups s ++ rest) =
      match Group.firstRedirect? groups s.lead (s.value r) with
      | some target => .redirect target
      | none => runSteps r fileExists f rest := by
  induction groups with
  | nil => rfl
  | cons g groups ih =>
    rw [redirects_cons, Group.firstRedirect?, List.findSome?_cons, g.recognises_iff s,
      ← Group.redirectTarget, ← Group.firstRedirect?]
    cases g.isActive with
    | false => simpa using ih
    | true =>
      cases g.redirectTarget with
      | none => simpa using ih
      | some target =>
        cases hf : Pattern.found true (s.pattern g.matchers) (s.value r) with
        | true => simp [runSteps, Step.run, hf]
        | false => simpa [runSteps, Step.run, hf] using ih

/-- The tag that the candidates of groups select is that of the last group that is recognised. -/
theorem select_ofGroups (groups : List Group) (s : Subject) (value : Text) :
    TagCandidate.select (TagCandidate.ofGroups groups s) value =
      Group.lastTag groups s.lead value := by
  have hp : ∀ g : Group, decide (g.isTagOnly = true ∧
      Pattern.found true (s.pattern g.matchers) value = true) =
        (g.recognises s.lead value && (g.redirect.getD []).isEmpty) := by
    intro g
    rw [g.recognises_iff, Group.isTagOnly, Group.redirectTarget]
    cases g.redirect with
    | none => simp
    | some target => cases target <;> simp
  rw [Group.lastTag, List.getLast?_filter]
  simp only [TagCandidate.select, TagCandidate.ofGroups, List.find?_map, List.find?_filter,
    Function.comp_def, hp]
  cases List.find? (fun g => g.recognises s.lead value && (g.redirect.getD []).isEmpty)
    groups.reverse <;> rfl

/-- The label of the first condition that holds, as a search among labels. -/
def firstLabel? (ls : List (Text × Bool)) : Option Text := (ls.find? (·.2)).map (·.1)

theorem label_find?_cons (d : Disqualifier) (ds : List Disqualifier) :
    ((d :: ds).find? (·.applies r)).map (·.label) =
      if d.applies r then some d.label else (ds.find? (·.applies r)).map (·.label) := by
  cases h : d.applies r <;> simp [h]

theorem label_find?_unless (c : Bool) (d : Disqualifier) (ds : List Disqualifier) :
    (((if c then [] else [d]) ++ ds).find? (·.applies r)).map (·.label) =
      if !c && d.applies r then some d.label else (ds.find? (·.applies r)).map (·.label) := by
  cases c with
  | true => rfl
  | false => simpa using label_find?_cons d ds

theorem firstLabel?_cons (label : Text) (b : Bool) (ls : List (Text × Bool)) :
    firstLabel? ((label, b) :: ls) = if b then some label else firstLabel? ls := by
  cases b <;> rfl

/-- The first condition that holds is that of the first rule that is violated. -/
theorem find?_applies (p : Policy) (r : Request) :
    ((Disqualifier.ofPolicy p).find? (·.applies r)).map (·.label) = p.violation? r := by
  have hslash : (Disqualifier.trailingSlash p.trailingSlash).applies r =
      if p.trailingSlash then !r.uri.endsWith "/" else r.uri.isEmpty || r.uri.endsWith "/" := by
    cases p.trailingSlash <;> rfl
  have huri : (Disqualifier.rejectedUri (Pattern.alternation p.rejectUris)
      (if p.acceptFiles.isEmpty then none else some (Pattern.alternation p.acceptFiles))).applies r =
        (Pattern.found true (Pattern.alternation p.rejectUris) r.uri &&
          !(!p.acceptFiles.isEmpty &&
            Pattern.found true (Pattern.alternation p.acceptFiles) r.uri)) := by
    cases h : p.acceptFiles.isEmpty <;> simp [Disqualifier.applies]
  rw [← List.append_nil (Disqualifier.ofPolicy p), Disqualifier.ofPolicy]
  simp only [List.append_assoc, List.cons_append, List.nil_append, label_find?_cons,
    label_find?_unless, hslash, huri]
  change _ = firstLabel? (p.servingRules r)
  simp only [Policy.servingRules, firstLabel?_cons, Bool.and_assoc]
  rfl

end Program

theorem Tenancy.map_tenant_ofPolicy (p : Policy) (s : Site) (r : Request) :
    (Tenancy.ofPolicy p s).map (·.tenant r) = p.tenant? s r := by
  unfold ofPolicy Policy.tenant?
  cases p.multiTenant with
  | false => rfl
  | true => cases p.pathTenancy <;> rfl

namespace Program

variable {p : Policy} {s : Site} {r : Request} {fileExists : Text → Bool}

/-- What the steps between the redirects and the eligibility find out. -/
def findings (p : Policy) (s : Site) (r : Request) : Findings where
  tenant := p.tenant? s r
  tags :=
    { device := Group.lastTag p.deviceGroups [] r.userAgent
      referrer := Group.lastTag p.referrerGroups Policy.referrerLead r.cookie
      tls := if r.https ∨ r.port = 443 then "_ssl" else []
      encoding :=
        if p.browserCache.compression ∧ r.acceptEncoding.includes "gzip" then ".gzip" else [] }

theorem find_classification (f : Findings) (groups : List Group) (slot : TagSlot) :
    Step.find r f (classification groups slot) =
      f.setTag slot (Group.lastTag groups slot.subject.lead (slot.subject.value r)) := by
  rw [← select_ofGroups]
  rfl

theorem find_detectTls (f : Findings) : Step.find r f .detectTls =
    { f with tags := { f.tags with tls := if r.https ∨ r.port = 443 then "_ssl" else f.tags.tls } } := by
  have h : r.isTls = true ↔ r.https = true ∨ r.port = 443 := by
    simp [Request.isTls, Request.tlsPort]
  by_cases hr : r.https = true ∨ r.port = 443
  · rw [Step.find, if_pos (h.2 hr), if_pos hr]
    rfl
  · rw [Step.find, if_neg (mt h.1 hr), if_neg hr]

theorem after_encoding (f : Findings) :
    f.after r (if p.compression then [.detectEncoding] else []) =
      { f with
        tags := { f.tags with
          encoding := if p.browserCache.compression ∧ r.acceptEncoding.includes "gzip" then ".gzip"
            else f.tags.encoding } } := by
  cases hc : p.browserCache.compression with
  | false => simp [Policy.compression, hc, Findings.after]
  | true =>
    by_cases hg : r.acceptEncoding.includes "gzip" = true
    · simp only [Policy.compression, hc, hg, if_true, and_self, Findings.after, List.foldl_cons,
        List.foldl_nil, Step.find, Request.acceptsGzip]
      rfl
    · simp only [Policy.compression, hc, hg, if_true, Bool.false_eq_true, and_false, if_false,
        Findings.after, List.foldl_cons, List.foldl_nil, Step.find, Request.acceptsGzip]

theorem after_detection : Findings.after r {} (detection p s) = findings p s r := by
  have htenant : Findings.after r {} ((Tenancy.ofPolicy p s).map Step.detectTenant).toList =
      { tenant := p.tenant? s r } := by
    rw [← Tenancy.map_tenant_ofPolicy]
    cases Tenancy.ofPolicy p s <;> rfl
  rw [detection, Findings.after_append, Findings.after_append, htenant, after_encoding]
  simp only [Findings.after, List.foldl_cons, List.foldl_nil, find_classification, find_detectTls]
  rfl

theorem candidate_findings :
    (findings p s r).candidate (CacheTarget.ofSite s (Tenancy.ofPolicy p s)) r =
      p.cachedFile s r := by
  rw [Findings.candidate,
    CacheTarget.candidate_eq_ofParts (Text.getLast?_trimEndSlashes_ne s.documentRoot)]
  have hname : (findings p s r).tags.fileName = p.fileName r := rfl
  rw [hname, Policy.cachedFile, findings]
  cases p.tenant? s r <;> rfl

/-- The program of a policy and a site decides every request as the policy says. -/
theorem evaluate_build (p : Policy) (s : Site) (r : Request) (fileExists : Text → Bool) :
    (build p s).evaluate r fileExists = p.verdict s r fileExists := by
  have hdetection : ∀ rest, runSteps r fileExists {} (detection p s ++ rest) =
      runSteps r fileExists (findings p s r) rest := fun rest => by
    rw [runSteps_front fun s => isFront_of_mem_detection, halt?_detection, after_detection]
  have hlookup : runSteps r fileExists (findings p s r) (lookup p s) =
      match p.violation? r with
      | some label => .bypass label
      | none =>
        if fileExists (p.cachedFile s r) then .serve (p.cachedFile s r)
        else .miss (p.cachedFile s r) := by
    rw [← candidate_findings, ← find?_applies]
    cases h : (Disqualifier.ofPolicy p).find? (·.applies r) <;>
      simp [lookup, runSteps, Step.run, h]
  rw [evaluate, build_steps, front, List.cons_append, List.append_assoc, List.append_assoc,
    Policy.verdict, runSteps]
  by_cases hself : r.isSelfTest = true
  · rw [if_pos (r.isSelfTest_iff.1 hself), Step.run, if_pos hself]
  · rw [if_neg (mt r.isSelfTest_iff.2 hself), Step.run, if_neg hself]
    simp only [runSteps_redirects, hdetection, hlookup]
    rw [show Subject.userAgent.lead = [] from rfl, show Subject.userAgent.value r = r.userAgent from rfl]
    cases Group.firstRedirect? p.deviceGroups [] r.userAgent <;> rfl

end Program

namespace Policy

variable {p : Policy} {s : Site} {r r' : Request}

/-- Where tenants and paths agree, files are told apart by their names. -/
theorem cachedFile_eq_iff (htenant : p.tenant? s r = p.tenant? s r') (huri : r.uri = r'.uri) :
    p.cachedFile s r = p.cachedFile s r' ↔ p.fileName r = p.fileName r' := by
  have hne : ∀ r, p.fileName r ≠ [] := fun r => (Program.findings p s r).tags.fileName_ne_nil
  have hlast : ∀ (directory uri : Text) {a b : Text}, a ≠ [] → b ≠ [] →
      (Path.ofParts [s.documentRoot.trimEndSlashes, directory, uri, a] =
        Path.ofParts [s.documentRoot.trimEndSlashes, directory, uri, b] ↔ a = b) := by
    intro directory uri a b ha hb
    obtain ⟨lead, hlead⟩ :=
      Path.exists_ofParts_concat [s.documentRoot.trimEndSlashes, directory, uri]
    have hfile : ∀ c : Text, c ≠ [] →
        Path.ofParts [s.documentRoot.trimEndSlashes, directory, uri, c] = lead ++ c := fun c => hlead c
    rw [hfile a ha, hfile b hb, List.append_cancel_left_eq]
  rw [cachedFile, cachedFile, htenant, huri]
  exact hlast _ _ (hne r) (hne r')

end Policy

end PageCache
