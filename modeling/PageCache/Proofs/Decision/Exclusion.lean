import PageCache.Settings
import PageCache.Proofs.Pattern.Alternation
import PageCache.Proofs.Decision.Verdict

/-! Excluding further requests. A pattern that is added to a list of exclusions takes nothing away as
long as the patterns of the list are read one after the other and can be evaluated together.
Otherwise the whole list excludes nothing. -/
namespace PageCache

attribute [local irreducible] Pattern.found

/-- The lists of patterns that keep pages from being served, in the order in which they are asked. -/
inductive Exclusion where
  | uri
  | cookie
  | userAgent
  deriving DecidableEq, Repr

namespace Exclusion

def all : List Exclusion := [uri, cookie, userAgent]

theorem mem_all (e : Exclusion) : e ∈ all := by cases e <;> decide

def label : Exclusion → Text
  | uri => "rejected_uri"
  | cookie => "rejected_cookie"
  | userAgent => "rejected_user_agent"

theorem label_injective {e e' : Exclusion} (h : e.label = e'.label) : e = e' := by
  have hall : ∀ e ∈ all, ∀ e' ∈ all, e.label = e'.label → e = e' := by decide
  exact hall e e.mem_all e' e'.mem_all h

def value (r : Request) : Exclusion → Text
  | uri => r.uri
  | cookie => r.cookie
  | userAgent => r.userAgent

end Exclusion

namespace Policy

def rejected (p : Policy) : Exclusion → List Text
  | .uri => p.rejectUris
  | .cookie => p.rejectCookies
  | .userAgent => p.rejectUserAgents

def exclude (p : Policy) (e : Exclusion) (pattern : Text) : Policy :=
  match e with
  | .uri => { p with rejectUris := p.rejectUris ++ [pattern] }
  | .cookie => { p with rejectCookies := p.rejectCookies ++ [pattern] }
  | .userAgent => { p with rejectUserAgents := p.rejectUserAgents ++ [pattern] }

/-- Accepted files are served although their uri is excluded. -/
def excepts (p : Policy) (r : Request) : Exclusion → Bool
  | .uri => !p.acceptFiles.isEmpty && Pattern.found true (Pattern.alternation p.acceptFiles) r.uri
  | _ => false

def excludes (p : Policy) (r : Request) (e : Exclusion) : Bool :=
  !(p.rejected e).isEmpty && Pattern.found true (Pattern.alternation (p.rejected e)) (e.value r) &&
    !p.excepts r e

variable {p : Policy} {s : Site} {r : Request} {fileExists : Text → Bool} {e e' : Exclusion}
  {pattern : Text}

theorem rejected_exclude : (p.exclude e pattern).rejected e' =
    if e' = e then p.rejected e' ++ [pattern] else p.rejected e' := by
  cases e <;> cases e' <;> rfl

theorem rejected_exclude_self : (p.exclude e pattern).rejected e = p.rejected e ++ [pattern] := by
  rw [rejected_exclude, if_pos rfl]

theorem excepts_exclude : (p.exclude e pattern).excepts r e' = p.excepts r e' := by
  cases e <;> rfl

theorem excludes_exclude_of_ne (h : e' ≠ e) :
    (p.exclude e pattern).excludes r e' = p.excludes r e' := by
  simp only [excludes, excepts_exclude, rejected_exclude, if_neg h]

/-- The rules on the form of a request, which come before the exclusions. -/
def formRules (p : Policy) (r : Request) : List (Text × Bool) := (p.servingRules r).take 3

theorem formRules_exclude : (p.exclude e pattern).formRules r = p.formRules r := by
  cases e <;> simp only [formRules, servingRules, exclude, List.take_succ_cons, List.take_zero] <;> rfl

theorem label_not_mem_formRules : e.label ∉ (p.formRules r).map (·.1) := by
  simp only [formRules, servingRules, List.take_succ_cons, List.take_zero, List.map_cons, List.map_nil]
  cases e <;> decide

theorem servingRules_eq (p : Policy) (r : Request) : p.servingRules r =
    p.formRules r ++ Exclusion.all.map fun e => (e.label, p.excludes r e) := by
  have hall : Exclusion.all.map (fun e => (e.label, p.excludes r e)) =
      [(Exclusion.uri.label, p.excludes r .uri), (Exclusion.cookie.label, p.excludes r .cookie),
        (Exclusion.userAgent.label, p.excludes r .userAgent)] := rfl
  have hcookie : p.excludes r .cookie = (!p.rejectCookies.isEmpty &&
      Pattern.found true (Pattern.alternation p.rejectCookies) r.cookie) := Bool.and_true _
  have huserAgent : p.excludes r .userAgent = (!p.rejectUserAgents.isEmpty &&
      Pattern.found true (Pattern.alternation p.rejectUserAgents) r.userAgent) := Bool.and_true _
  rw [hall, hcookie, huserAgent]
  rfl

/-- A request whose form is in order violates the rule of the first list that excludes it. -/
theorem violation?_eq_label_iff : p.violation? r = some e.label ↔
    (p.formRules r).find? (·.2) = none ∧ Exclusion.all.find? (p.excludes r) = some e := by
  have hfind : p.violation? r = (((p.formRules r).find? (·.2)).map (·.1)).or
      ((Exclusion.all.find? (p.excludes r)).map Exclusion.label) := by
    rw [violation?, servingRules_eq, List.find?_append, List.find?_map, Option.map_or, Option.map_map]
    rfl
  rw [hfind]
  match hform : (p.formRules r).find? (·.2) with
  | none =>
    rw [hform, Option.map_none, Option.none_or, Option.map_eq_some_iff]
    simp only [true_and]
    constructor
    · rintro ⟨e', he', hlabel⟩
      rwa [← Exclusion.label_injective hlabel]
    · exact fun he => ⟨e, he, rfl⟩
  | some rule =>
    rw [hform, Option.map_some, Option.some_or, Option.some.injEq]
    have hrule : rule.1 ∈ (p.formRules r).map (·.1) :=
      List.mem_map_of_mem (List.mem_of_find?_eq_some hform)
    constructor
    · intro hlabel
      exact absurd (hlabel ▸ hrule) label_not_mem_formRules
    · rintro ⟨hnone, -⟩
      cases hnone

theorem excludes_of_verdict (h : p.verdict s r fileExists = .bypass e.label) :
    p.excludes r e = true := by
  obtain ⟨-, hviolation⟩ := verdict_eq_bypass_iff.1 h
  exact List.find?_some (violation?_eq_label_iff.1 hviolation).2

/-- An excluded request is still excluded under a further pattern if any list excludes it. -/
theorem verdict_exclude_eq_bypass_iff (h : p.verdict s r fileExists = .bypass e.label) :
    (∃ e'' : Exclusion, (p.exclude e' pattern).verdict s r fileExists = .bypass e''.label) ↔
      ∃ e'', (p.exclude e' pattern).excludes r e'' = true := by
  obtain ⟨hreaches, hviolation⟩ := verdict_eq_bypass_iff.1 h
  obtain ⟨hform, -⟩ := violation?_eq_label_iff.1 hviolation
  have hreaches' : (p.exclude e' pattern).Reaches r := by cases e' <;> exact hreaches
  simp only [verdict_eq_bypass_iff, violation?_eq_label_iff, formRules_exclude, hform, hreaches', true_and,
    ← Option.isSome_iff_exists, List.find?_isSome]
  constructor
  · rintro ⟨e'', -, he''⟩
    exact ⟨e'', he''⟩
  · rintro ⟨e'', he''⟩
    exact ⟨e'', e''.mem_all, he''⟩

theorem compiles_of_excludes (h : p.excludes r e = true) :
    Pattern.compiles (p.rejected e) = true := by
  simp only [excludes, Bool.and_eq_true] at h
  exact Pattern.compiles_of_found h.1.2

theorem excludes_exclude (hturn : Pattern.readsInTurn (p.rejected e ++ [pattern]) = true)
    (hcompiles : Pattern.compiles (p.rejected e ++ [pattern]) = true) (h : p.excludes r e = true) :
    (p.exclude e pattern).excludes r e = true := by
  simp only [excludes, Bool.and_eq_true, Bool.not_eq_true', List.isEmpty_eq_false_iff] at h
  obtain ⟨⟨hne, hfound⟩, hexcepts⟩ := h
  have hmore := Pattern.found_alternation_append hne hturn hcompiles hfound
  simp [excludes, rejected_exclude_self, excepts_exclude, hmore, hexcepts]

end Policy

namespace Program

variable {p : Policy} {s : Site} {r : Request} {fileExists : Text → Bool} {e e' : Exclusion}
  {pattern : Text}

/-- An excluded request is still excluded after a further pattern if and only if the list of the
pattern can be evaluated or another list excludes the request too. If it is the list that excluded the
request, its patterns have to be read in turn. -/
theorem exists_bypass_exclude_iff (h : (build p s).evaluate r fileExists = .bypass e.label)
    (hturn : e' = e → Pattern.compiles (p.rejected e' ++ [pattern]) = true →
      Pattern.readsInTurn (p.rejected e' ++ [pattern]) = true) :
    (∃ e'' : Exclusion, (build (p.exclude e' pattern) s).evaluate r fileExists = .bypass e''.label) ↔
      Pattern.compiles (p.rejected e' ++ [pattern]) = true ∨
        ∃ e'', e'' ≠ e' ∧ p.excludes r e'' = true := by
  rw [evaluate_build] at h
  simp only [evaluate_build, Policy.verdict_exclude_eq_bypass_iff h]
  have hexcludes : p.excludes r e = true := Policy.excludes_of_verdict h
  constructor
  · rintro ⟨e'', he''⟩
    by_cases heq : e'' = e'
    · subst heq
      left
      rw [← Policy.rejected_exclude_self]
      exact Policy.compiles_of_excludes he''
    · right
      rw [Policy.excludes_exclude_of_ne heq] at he''
      exact ⟨e'', heq, he''⟩
  · rintro (hcompiles | ⟨e'', hne, he''⟩)
    · by_cases heq : e' = e
      · subst heq
        exact ⟨e', Policy.excludes_exclude (hturn rfl hcompiles) hcompiles hexcludes⟩
      · rw [← Policy.excludes_exclude_of_ne (Ne.symm heq)] at hexcludes
        exact ⟨e, hexcludes⟩
    · rw [← Policy.excludes_exclude_of_ne hne] at he''
      exact ⟨e'', he''⟩

/-- A signed-in visitor, under a further pattern for carts. -/
theorem exists_bypass_exclude_iff_signedIn :
    let p : Policy := .default
    let r : Request := { uri := "/post/", cookie := "wordpress_logged_in_x=1" }
    let pattern : Text := "cart_[0-9]+"
    ((build p {}).evaluate r (fun _ => true) = .bypass Exclusion.cookie.label ∧
        Pattern.compiles (p.rejected .cookie ++ [pattern]) = true ∧
        Pattern.readsInTurn (p.rejected .cookie ++ [pattern]) = true) ∧
      ∃ e : Exclusion,
        (build (p.exclude .cookie pattern) {}).evaluate r (fun _ => true) = .bypass e.label := by
  intro p r pattern
  have h : (build p {}).evaluate r (fun _ => true) = .bypass Exclusion.cookie.label := by decide +kernel
  have hcompiles : Pattern.compiles (p.rejected .cookie ++ [pattern]) = true := by decide +kernel
  have hturn : Pattern.readsInTurn (p.rejected .cookie ++ [pattern]) = true := by decide +kernel
  exact ⟨⟨h, hcompiles, hturn⟩, (exists_bypass_exclude_iff h fun _ _ => hturn).2 (.inl hcompiles)⟩

/-- A pattern that opens a group and does not close it: a signed-in visitor is served a cached page. -/
theorem not_bypass_exclude : ∃ (o o' : Options) (st st' : Settings) (r : Request) (file : Text),
    Settings.ofOptions o = .ok st ∧ Settings.ofOptions o' = .ok st' ∧
      st'.policy = st.policy.exclude .cookie "(" ∧ st'.site = st.site ∧
      (build st.policy st.site).evaluate r (fun _ => true) = .bypass Exclusion.cookie.label ∧
      (build st'.policy st'.site).evaluate r (fun _ => true) = .serve file := by
  let site : SiteOptions := { documentRoot := some "/srv/www", cacheDir := some "/srv/www/cache/page" }
  let o : Options := { site }
  let o' : Options := { site, policy := { rejectCookies := some ["("] } }
  let r : Request := { uri := "/post/", cookie := "wordpress_logged_in_x=1" }
  let file : Text := "/srv/www/cache/page/post/_index.html"
  have hloaded : (Settings.ofOptions o).toOption.any fun st =>
      (Settings.ofOptions o').toOption.any fun st' =>
        decide (st'.policy = st.policy.exclude .cookie "(" ∧ st'.site = st.site ∧
          (build st.policy st.site).evaluate r (fun _ => true) = .bypass Exclusion.cookie.label ∧
          (build st'.policy st'.site).evaluate r (fun _ => true) = .serve file) := by
    decide +kernel
  cases hst : Settings.ofOptions o with
  | error _ => simp [hst, Except.toOption] at hloaded
  | ok st =>
    cases hst' : Settings.ofOptions o' with
    | error _ => simp [hst, hst', Except.toOption] at hloaded
    | ok st' =>
      simp only [hst, hst', Except.toOption, Option.any_some, decide_eq_true_eq] at hloaded
      exact ⟨o, o', st, st', r, file, hst, hst', hloaded⟩

end Program
end PageCache
