import PageCache.Proofs.Decision.Separation
import PageCache.Proofs.Pattern.Keyed

/-! What the cookies of a request decide. Where none of them is rejected, only the groups of referrers
read them, and these read everything from the first place of the name of their cookie on. So requests
with other cookies are decided alike if the cookie of the referrer comes last, and its name is not in
the others. -/
namespace PageCache

attribute [local irreducible] Pattern.captures? Pattern.found

/-- The name of the cookie of referrers, and the sign behind it. -/
def Subject.referrerKey : Text := Subject.referrerCookieName ++ "="

namespace Group

variable {g : Group} {groups : List Group}

/-- The matchers of the group are read one after the other. -/
def ReadsInTurn (g : Group) : Prop := g.isActive = true → Pattern.readsInTurn g.matchers = true

theorem recognises_fromFirst (h : g.ReadsInTurn) (value : Text) :
    g.recognises Policy.referrerLead (Text.fromFirst Subject.referrerKey value) =
      g.recognises Policy.referrerLead value := by
  have hpattern : Subject.referrerCookie.pattern g.matchers =
      Pattern.keyed Subject.referrerKey g.matchers := by
    simp [Subject.pattern, Pattern.keyed, Subject.referrerKey]
  have hlead : Policy.referrerLead = Subject.referrerCookie.lead := rfl
  rw [hlead, recognises_iff, recognises_iff, hpattern]
  cases hactive : g.isActive with
  | false => rfl
  | true =>
    have hmatchers : g.matchers ≠ [] := by
      rintro hnil
      simp [isActive, hnil] at hactive
    rw [Pattern.found_keyed_fromFirst (by decide +kernel) (by decide) hmatchers (h hactive)]

theorem firstRedirect?_fromFirst (h : ∀ g ∈ groups, g.ReadsInTurn) (value : Text) :
    firstRedirect? groups Policy.referrerLead (Text.fromFirst Subject.referrerKey value) =
      firstRedirect? groups Policy.referrerLead value := by
  induction groups with
  | nil => rfl
  | cons g groups ih =>
    obtain ⟨hg, hgroups⟩ := List.forall_mem_cons.1 h
    have hrest := ih hgroups
    simp only [firstRedirect?] at hrest ⊢
    rw [List.findSome?_cons, List.findSome?_cons, recognises_fromFirst hg, hrest]

theorem lastTag_fromFirst (h : ∀ g ∈ groups, g.ReadsInTurn) (value : Text) :
    lastTag groups Policy.referrerLead (Text.fromFirst Subject.referrerKey value) =
      lastTag groups Policy.referrerLead value := by
  have hfilter : groups.filter (fun g => g.recognises Policy.referrerLead
        (Text.fromFirst Subject.referrerKey value) && (g.redirect.getD []).isEmpty) =
      groups.filter (fun g => g.recognises Policy.referrerLead value &&
        (g.redirect.getD []).isEmpty) :=
    List.filter_congr fun g hg => by rw [recognises_fromFirst (h g hg)]
  rw [lastTag, lastTag, hfilter]

end Group

namespace Policy

variable {p : Policy} {s : Site} {r : Request} {cookie cookie' : Text}

/-- Pages are not served with these cookies. -/
def rejectsCookie (p : Policy) (cookie : Text) : Bool :=
  !p.rejectCookies.isEmpty && Pattern.found true (Pattern.alternation p.rejectCookies) cookie

/-- What referrer groups make of two headers comes to the same for a request: nothing, if it is
decided before, and otherwise the same redirect, or the same tag where a page may be served. -/
def ClassifiesAlike (p : Policy) (r : Request) (cookie cookie' : Text) : Prop :=
  r.isSelfTest = true ∨ (Group.firstRedirect? p.deviceGroups [] r.userAgent).isSome = true ∨
    Group.firstRedirect? p.referrerGroups referrerLead cookie =
        Group.firstRedirect? p.referrerGroups referrerLead cookie' ∧
      ((Group.firstRedirect? p.referrerGroups referrerLead cookie).isSome = true ∨
        (p.violation? r).isSome = true ∨
        Group.lastTag p.referrerGroups referrerLead cookie =
          Group.lastTag p.referrerGroups referrerLead cookie')

theorem classifiesAlike_self (p : Policy) (r : Request) (cookie : Text) :
    p.ClassifiesAlike r cookie cookie := .inr (.inr ⟨rfl, .inr (.inr rfl)⟩)

theorem classifiesAlike_fromFirst_iff (h : ∀ g ∈ p.referrerGroups, g.ReadsInTurn) :
    p.ClassifiesAlike r (Text.fromFirst Subject.referrerKey cookie)
        (Text.fromFirst Subject.referrerKey cookie') ↔ p.ClassifiesAlike r cookie cookie' := by
  simp only [ClassifiesAlike, Group.firstRedirect?_fromFirst h, Group.lastTag_fromFirst h]

theorem violation?_cookie (h : p.rejectsCookie r.cookie = false)
    (h' : p.rejectsCookie cookie = false) :
    p.violation? { r with cookie } = p.violation? r := by
  have hrules : p.servingRules { r with cookie } = p.servingRules r := by
    unfold rejectsCookie at h h'
    simp only [servingRules, h, h']
  rw [violation?, violation?, hrules]

theorem cachedFile_cookie (p : Policy) (s : Site) (r : Request) (cookie : Text) :
    p.cachedFile s r = p.cachedFile s { r with cookie } ↔
      Group.lastTag p.referrerGroups referrerLead r.cookie =
        Group.lastTag p.referrerGroups referrerLead cookie := by
  have hname : p.fileName r = p.fileName { r with cookie } ↔
      Group.lastTag p.referrerGroups referrerLead r.cookie =
        Group.lastTag p.referrerGroups referrerLead cookie := by
    unfold fileName
    rw [List.append_cancel_right_eq, List.append_cancel_right_eq, List.append_cancel_right_eq,
      List.append_cancel_left_eq]
  rw [← hname]
  exact cachedFile_eq_iff rfl rfl

/-- What is done with a request behind the redirects of devices: a redirect, a reason against
serving a page, and the file of the page. -/
def outcome (redirect? violation? : Option Text) (file : Text) (fileExists : Text → Bool) : Decision :=
  match redirect?, violation? with
  | some target, _ => .redirect target
  | none, some label => .bypass label
  | none, none => if fileExists file then .serve file else .miss file

theorem outcome_eq_iff {redirect? redirect?' violation? : Option Text} {file file' : Text} :
    (∀ fileExists, outcome redirect? violation? file fileExists =
      outcome redirect?' violation? file' fileExists) ↔
    redirect? = redirect?' ∧ (redirect?.isSome = true ∨ violation?.isSome = true ∨ file = file') := by
  constructor
  · intro h
    have hall := h fun _ => true
    cases redirect? <;> cases redirect?' <;> cases violation? <;> simp_all [outcome]
  · rintro ⟨rfl, h⟩ fileExists
    cases redirect? <;> cases violation? <;> simp_all [outcome]

theorem verdict_eq_outcome {fileExists : Text → Bool} (hself : ¬ r.isSelfTest = true)
    (hdevice : Group.firstRedirect? p.deviceGroups [] r.userAgent = none) :
    p.verdict s r fileExists = outcome (Group.firstRedirect? p.referrerGroups referrerLead r.cookie)
      (p.violation? r) (p.cachedFile s r) fileExists := by
  rw [verdict, if_neg (mt r.isSelfTest_iff.2 hself), hdevice, Option.none_or]
  unfold outcome
  cases Group.firstRedirect? p.referrerGroups referrerLead r.cookie <;>
    cases p.violation? r <;> rfl

/-- Requests that differ in cookies which are not rejected are decided alike exactly where their
cookies are classified alike. -/
theorem verdict_cookie_iff (h : p.rejectsCookie r.cookie = false)
    (h' : p.rejectsCookie cookie = false) :
    (∀ fileExists, p.verdict s r fileExists = p.verdict s { r with cookie } fileExists) ↔
      p.ClassifiesAlike r r.cookie cookie := by
  by_cases hself : r.isSelfTest = true
  · have htest := r.isSelfTest_iff.1 hself
    exact iff_of_true (fun _ => by rw [verdict, verdict, if_pos htest, if_pos htest]) (.inl hself)
  cases hdevice : Group.firstRedirect? p.deviceGroups [] r.userAgent with
  | some target =>
    refine iff_of_true (fun fileExists => ?_) (.inr (.inl (by rw [hdevice]; rfl)))
    simp only [verdict, hdevice, Option.some_or]
  | none =>
    have hself' : ¬ ({ r with cookie } : Request).isSelfTest = true := hself
    have hdevice' : Group.firstRedirect? p.deviceGroups [] ({ r with cookie } : Request).userAgent =
        none := hdevice
    simp only [verdict_eq_outcome hself hdevice, verdict_eq_outcome hself' hdevice',
      violation?_cookie h h', outcome_eq_iff, cachedFile_cookie, ClassifiesAlike, hself, hdevice,
      false_or, Option.isSome_none, Bool.false_eq_true]

end Policy

/-- A header of cookies of which none but the last one has the name of the referrer cookie in it. -/
def ReferrerLast (header last : Text) : Prop :=
  ∃ front, header = Text.join (front ++ [last]) "; " ∧
    ∀ a ∈ front, ¬ Subject.referrerKey <:+: Text.lower a

theorem ReferrerLast.fromFirst_eq {header last : Text} (h : ReferrerLast header last) :
    Text.fromFirst Subject.referrerKey header = Text.fromFirst Subject.referrerKey last := by
  obtain ⟨front, rfl, hfront⟩ := h
  have hlower : Text.lower Subject.referrerKey = Subject.referrerKey := by decide
  have hsep : ∀ c ∈ ("; " : Text), c.toLower ∉ Text.lower Subject.referrerKey := by
    rw [hlower]
    change ∀ c ∈ [';', ' '], c.toLower ∉ Subject.referrerKey
    exact List.forall_mem_cons.2 ⟨by decide, List.forall_mem_singleton.2 (by decide)⟩
  refine Text.fromFirst_join (by decide) (by decide) hsep (fun a ha => ?_) last
  exact Text.fromFirst_eq_nil (by rw [hlower]; exact hfront a ha)

namespace Program

variable {p : Policy} {s : Site} {r : Request} {cookie : Text}

/-- Requests that differ in cookies which are not rejected are decided alike exactly where referrer
groups classify their cookies alike. Groups whose matchers are read one after the other read the
cookies from the first place of the name of their own one on, so only what stands before it may
differ. -/
theorem evaluate_cookie_iff (h : p.rejectsCookie r.cookie = false)
    (h' : p.rejectsCookie cookie = false) :
    ((∀ fileExists, (build p s).evaluate r fileExists =
        (build p s).evaluate { r with cookie } fileExists) ↔ p.ClassifiesAlike r r.cookie cookie) ∧
    ((∀ g ∈ p.referrerGroups, g.ReadsInTurn) →
      (p.ClassifiesAlike r (Text.fromFirst Subject.referrerKey r.cookie)
          (Text.fromFirst Subject.referrerKey cookie) ↔ p.ClassifiesAlike r r.cookie cookie) ∧
      ∀ last last', ReferrerLast r.cookie last → ReferrerLast cookie last' →
        Text.fromFirst Subject.referrerKey last = Text.fromFirst Subject.referrerKey last' →
        ∀ fileExists, (build p s).evaluate r fileExists =
          (build p s).evaluate { r with cookie } fileExists) := by
  have hiff := Policy.verdict_cookie_iff (s := s) h h'
  simp only [evaluate_build]
  refine ⟨hiff, fun hturn => ⟨Policy.classifiesAlike_fromFirst_iff hturn, ?_⟩⟩
  intro last last' hlast hlast' heq
  rw [hiff, ← Policy.classifiesAlike_fromFirst_iff hturn, hlast.fromFirst_eq, hlast'.fromFirst_eq, heq]
  exact Policy.classifiesAlike_self p r _

/-- A visitor from a search engine, with and without another cookie in front. -/
theorem evaluate_cookie_iff_theme :
    let g : Group := { name := "search", enabled := true, matchers := ["google", "bing"] }
    let p : Policy := { Policy.default with referrerGroups := [g] }
    let r : Request := { uri := "/post/", cookie := "pgc_referrer=google.com" }
    let cookie : Text := "theme=bing; pgc_referrer=google.com"
    (p.rejectsCookie r.cookie = false ∧ p.rejectsCookie cookie = false) ∧
      (∀ g ∈ p.referrerGroups, g.ReadsInTurn) ∧
      ∀ fileExists, (build p {}).evaluate r fileExists =
        (build p {}).evaluate { r with cookie } fileExists := by
  intro g p r cookie
  have h : p.rejectsCookie r.cookie = false := by decide +kernel
  have h' : p.rejectsCookie cookie = false := by decide +kernel
  have hturn : ∀ g ∈ p.referrerGroups, g.ReadsInTurn := by
    rintro g' hg'
    obtain rfl := List.mem_singleton.1 hg'
    intro _
    decide +kernel
  have hlast : ReferrerLast r.cookie "pgc_referrer=google.com" := ⟨[], rfl, by simp⟩
  have hlast' : ReferrerLast cookie "pgc_referrer=google.com" :=
    ⟨["theme=bing"], rfl, by decide⟩
  exact ⟨⟨h, h'⟩, hturn, ((evaluate_cookie_iff h h').2 hturn).2 _ _ hlast hlast' rfl⟩

/-- A cookie behind the one of the referrer. -/
theorem not_evaluate_cookie : ∃ (p : Policy) (s : Site) (r : Request) (cookie : Text),
    r.cookie = Text.join ["pgc_referrer=none"] "; " ∧
      cookie = Text.join ["pgc_referrer=none", "from=google"] "; " ∧
      p.rejectsCookie r.cookie = false ∧ p.rejectsCookie cookie = false ∧
      (∀ g ∈ p.referrerGroups, g.ReadsInTurn) ∧
      (build p s).evaluate r (fun _ => true) ≠
        (build p s).evaluate { r with cookie } (fun _ => true) := by
  let g : Group := { name := "search", enabled := true, matchers := ["google"] }
  refine ⟨{ Policy.default with referrerGroups := [g] }, {},
    { uri := "/post/", cookie := "pgc_referrer=none" }, "pgc_referrer=none; from=google", rfl, rfl,
    by decide +kernel, by decide +kernel, ?_, by decide +kernel⟩
  rintro g' hg'
  obtain rfl := List.mem_singleton.1 hg'
  intro _
  decide +kernel

end Program
end PageCache
