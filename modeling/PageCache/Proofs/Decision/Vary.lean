import PageCache.Headers
import PageCache.Proofs.Decision.Separation

/-! Pages in shared caches. A shared cache answers a request with the page of another one if both have
the same target and agree on the headers that `Vary` names. Of the headers that decisions read, only
the user agent is never named; so such requests are decided alike exactly where their user agents
are. -/
namespace PageCache

attribute [local irreducible] Pattern.captures? Pattern.found

def HeaderPlan.varyNames (h : HeaderPlan) : List Text := (h.vary.splitOn ',').map Text.trim

theorem HeaderPlan.varyNames_build (p : Policy) (s : Site) : (build p s).varyNames =
    if p.browserCache.compression then ["Accept-Encoding", "Cookie"] else ["Cookie"] := by
  unfold varyNames build
  cases p.browserCache.compression <;> rfl

namespace Request

def headers (r : Request) : List (Text × Text) :=
  [("User-Agent", r.userAgent), ("Cookie", r.cookie), ("Accept-Encoding", r.acceptEncoding)]

/-- The value of a header; the case of its name does not matter. -/
def header? (r : Request) (name : Text) : Option Text :=
  (r.headers.find? fun h => h.1.eqIgnoreCase name).map (·.2)

/-- What two requests share that a shared cache does not tell apart, apart from headers. -/
structure SameTarget (r r' : Request) : Prop where
  method : r.method = r'.method
  host : r.host = r'.host
  uri : r.uri = r'.uri
  query : r.query = r'.query
  https : r.https = r'.https
  port : r.port = r'.port

/-- Two requests have the same values of headers. -/
def AgreeOn (names : List Text) (r r' : Request) : Prop :=
  ∀ name ∈ names, r.header? name = r'.header? name

end Request

namespace Policy

variable {p : Policy} {s : Site} {r r' : Request} {fileExists : Text → Bool} {file : Text}

/-- Pages are not served to a user agent. -/
def rejectsUserAgent (p : Policy) (userAgent : Text) : Bool :=
  !p.rejectUserAgents.isEmpty && Pattern.found true (Pattern.alternation p.rejectUserAgents) userAgent

/-- A user agent is served the pages of another one. -/
def ServesAlike (p : Policy) (userAgent userAgent' : Text) : Prop :=
  Group.firstRedirect? p.deviceGroups [] userAgent' = none ∧ p.rejectsUserAgent userAgent' = false ∧
    Group.lastTag p.deviceGroups [] userAgent' = Group.lastTag p.deviceGroups [] userAgent

/-- Without compressed files, it does not matter which encodings are accepted. -/
theorem verdict_acceptEncoding (hc : p.browserCache.compression = false) (encoding : Text) :
    p.verdict s { r with acceptEncoding := encoding } fileExists = p.verdict s r fileExists := by
  have hplain : ∀ a : Text, ¬(p.browserCache.compression = true ∧ a.includes "gzip" = true) :=
    fun a h => Bool.false_ne_true (hc.symm.trans h.1)
  have hname : p.fileName { r with acceptEncoding := encoding } = p.fileName r := by
    unfold fileName
    rw [if_neg (hplain _), if_neg (hplain _)]
  have hfile : p.cachedFile s { r with acceptEncoding := encoding } = p.cachedFile s r := by
    have htenant : p.tenant? s { r with acceptEncoding := encoding } = p.tenant? s r := rfl
    rw [cachedFile, cachedFile, htenant, hname]
  have hviolation : p.violation? { r with acceptEncoding := encoding } = p.violation? r := rfl
  rw [verdict, verdict, hfile, hviolation]

/-- Of what may differ between requests that agree on the headers in `Vary`, only the user agent is
read. -/
theorem verdict_of_agreeOn (htarget : r.SameTarget r')
    (hagree : r.AgreeOn (HeaderPlan.build p s).varyNames r') :
    p.verdict s r' fileExists = p.verdict s { r with userAgent := r'.userAgent } fileExists := by
  obtain ⟨uri, method, query, host, userAgent, cookie, acceptEncoding, https, port⟩ := r
  obtain ⟨uri', method', query', host', userAgent', cookie', acceptEncoding', https', port'⟩ := r'
  obtain ⟨rfl, rfl, rfl, rfl, rfl, rfl⟩ := htarget
  rw [HeaderPlan.varyNames_build] at hagree
  have hcookie : cookie = cookie' := by
    refine Option.some.inj (hagree "Cookie" ?_)
    split <;> simp
  subst hcookie
  cases hc : p.browserCache.compression with
  | false => exact (verdict_acceptEncoding hc acceptEncoding).symm
  | true =>
    have hencoding : acceptEncoding = acceptEncoding' :=
      Option.some.inj (hagree "Accept-Encoding" (by simp [hc]))
    subst hencoding
    rfl

theorem violation?_eq_none_iff : p.violation? r = none ↔ ∀ rule ∈ p.servingRules r, rule.2 = false := by
  rw [violation?, Option.map_eq_none_iff, List.find?_eq_none]
  simp only [Bool.not_eq_true]

/-- Of the rules against serving a page, only the last one reads the user agent. -/
theorem violation?_userAgent (h : p.violation? r = none) (userAgent : Text) :
    p.violation? { r with userAgent } = none ↔ p.rejectsUserAgent userAgent = false := by
  let last (userAgent : Text) : Text × Bool := ("rejected_user_agent", p.rejectsUserAgent userAgent)
  obtain ⟨rules, hr, hr'⟩ : ∃ rules, p.servingRules r = rules ++ [last r.userAgent] ∧
      p.servingRules { r with userAgent } = rules ++ [last userAgent] :=
    ⟨(p.servingRules r).dropLast, rfl, rfl⟩
  rw [violation?_eq_none_iff, hr, List.forall_mem_append] at h
  rw [violation?_eq_none_iff, hr', List.forall_mem_append, List.forall_mem_singleton]
  exact and_iff_right h.1

theorem fileName_userAgent (p : Policy) (r : Request) (userAgent : Text) :
    p.fileName { r with userAgent } = p.fileName r ↔
      Group.lastTag p.deviceGroups [] userAgent = Group.lastTag p.deviceGroups [] r.userAgent := by
  unfold fileName
  rw [List.append_cancel_right_eq, List.append_cancel_right_eq, List.append_cancel_right_eq,
    List.append_cancel_right_eq, List.append_cancel_left_eq]

theorem cachedFile_userAgent (p : Policy) (s : Site) (r : Request) (userAgent : Text) :
    p.cachedFile s { r with userAgent } = p.cachedFile s r ↔
      Group.lastTag p.deviceGroups [] userAgent = Group.lastTag p.deviceGroups [] r.userAgent := by
  rw [← fileName_userAgent]
  exact cachedFile_eq_iff rfl rfl

theorem verdict_userAgent (h : p.verdict s r fileExists = .serve file) (userAgent : Text) :
    p.verdict s { r with userAgent } fileExists = .serve file ↔
      p.ServesAlike r.userAgent userAgent := by
  obtain ⟨⟨hself, -, hreferrer⟩, hviolation, hexists, rfl⟩ := verdict_eq_serve_iff.1 h
  rw [verdict_eq_serve_iff, violation?_userAgent hviolation, cachedFile_userAgent, ServesAlike]
  constructor
  · rintro ⟨⟨-, hdevice, -⟩, hrejects, -, htag⟩
    exact ⟨hdevice, hrejects, htag⟩
  · rintro ⟨hdevice, hrejects, htag⟩
    exact ⟨⟨hself, hdevice, hreferrer⟩, hrejects, hexists, htag⟩

end Policy

namespace Program

variable {p : Policy} {s : Site} {r r' : Request} {fileExists : Text → Bool} {file : Text}

/-- A request that a shared cache takes for another one gets the same page from the program if and
only if its user agent is neither redirected nor rejected and is taken for the same device. -/
theorem evaluate_eq_serve_iff_of_agreeOn (h : (build p s).evaluate r fileExists = .serve file)
    (htarget : r.SameTarget r') (hagree : r.AgreeOn (HeaderPlan.build p s).varyNames r') :
    (build p s).evaluate r' fileExists = .serve file ↔ p.ServesAlike r.userAgent r'.userAgent := by
  rw [evaluate_build] at h ⊢
  rw [Policy.verdict_of_agreeOn htarget hagree]
  exact Policy.verdict_userAgent h r'.userAgent

/-- Two phones behind a cache, which accept different encodings. -/
theorem evaluate_eq_serve_iff_of_agreeOn_phones :
    let p : Policy :=
      { rejectCookies := [], rejectUris := []
        deviceGroups := [{ name := "mobile", enabled := true, matchers := ["Mobile"] }] }
    let r : Request := { uri := "/post/", userAgent := "Mobile", acceptEncoding := "gzip" }
    let r' : Request := { uri := "/post/", userAgent := "Mobile Safari" }
    let file : Text := "/srv/www/cache/page/post/_index_mobile.html"
    ((build p {}).evaluate r (fun _ => true) = .serve file ∧ r.SameTarget r' ∧
        r.AgreeOn (HeaderPlan.build p {}).varyNames r') ∧
      ((build p {}).evaluate r' (fun _ => true) = .serve file ↔
        p.ServesAlike r.userAgent r'.userAgent) := by
  intro p r r' file
  have h : (build p {}).evaluate r (fun _ => true) = .serve file := by decide +kernel
  have htarget : r.SameTarget r' := ⟨rfl, rfl, rfl, rfl, rfl, rfl⟩
  have hagree : r.AgreeOn (HeaderPlan.build p {}).varyNames r' := by
    unfold Request.AgreeOn
    decide +kernel
  exact ⟨⟨h, htarget, hagree⟩, evaluate_eq_serve_iff_of_agreeOn h htarget hagree⟩

/-- A phone and a desktop behind a cache. -/
theorem not_serve_of_agreeOn : ∃ (p : Policy) (s : Site) (r r' : Request) (file file' : Text),
    r.SameTarget r' ∧ r.AgreeOn (HeaderPlan.build p s).varyNames r' ∧ file ≠ file' ∧
      (build p s).evaluate r (fun _ => true) = .serve file ∧
      (build p s).evaluate r' (fun _ => true) = .serve file' := by
  let p : Policy :=
    { Policy.default with
      deviceGroups := [{ name := "mobile", enabled := true, matchers := ["Mobile"] }] }
  let r : Request := { uri := "/post/", userAgent := "Mobile" }
  let r' : Request := { uri := "/post/", userAgent := "Desktop" }
  have hagree : r.AgreeOn (HeaderPlan.build p {}).varyNames r' := by
    unfold Request.AgreeOn
    decide +kernel
  exact ⟨p, {}, r, r', "/srv/www/cache/page/post/_index_mobile.html",
    "/srv/www/cache/page/post/_index.html", ⟨rfl, rfl, rfl, rfl, rfl, rfl⟩, hagree,
    by decide +kernel, by decide +kernel, by decide +kernel⟩

end Program
end PageCache
