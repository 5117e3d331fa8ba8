import PageCache.Proofs.Config.WellFormed
import PageCache.Proofs.Decision.Written
import PageCache.Proofs.Words.Pieces

/-! The texts of a policy and a site that a program takes over as they are: the patterns and targets
of its steps, and the pieces that these are made of. -/
namespace PageCache

theorem forall_mem_around {α : Type} {Q : α → Prop} {as bs : List α} {a : α}
    (has : ∀ x ∈ as, Q x) (hbs : ∀ x ∈ bs, Q x) : (∀ x ∈ as ++ a :: bs, Q x) ↔ Q a := by
  rw [List.forall_mem_append, List.forall_mem_cons]
  exact ⟨fun h => h.2.1, fun h => ⟨has, h, hbs⟩⟩

def Tenancy.patterns : Tenancy → List Text
  | domain => []
  | path pattern => [pattern]

def Disqualifier.patterns : Disqualifier → List Text
  | rejectedUri pattern accepted => pattern :: accepted.toList
  | rejectedCookie pattern => [pattern]
  | rejectedUserAgent pattern => [pattern]
  | _ => []

namespace Step

def patterns : Step → List Text
  | redirect _ pattern _ => [pattern]
  | detectTenant tenancy => tenancy.patterns
  | classify _ candidates => candidates.map (·.pattern)
  | eligibility ds => ds.flatMap (·.patterns)
  | _ => []

def targets : Step → List Text
  | redirect _ _ target => [target]
  | _ => []

/-- The places where a step looks pages up. -/
def lookups : Step → List CacheTarget
  | serve target => [target]
  | _ => []

def tags : Step → List Text
  | classify _ candidates => candidates.map (·.tag)
  | _ => []

end Step

namespace Policy

def activeGroups (p : Policy) : List Group :=
  (p.deviceGroups ++ p.referrerGroups).filter Group.isActive

def targetTexts (p : Policy) : List Text := p.activeGroups.filterMap Group.redirectTarget

/-- The pieces of the patterns: those that were given, and where tenants are told apart by path, the
path before their names, and the names. -/
def patternTexts (p : Policy) (s : Site) : List Text :=
  p.activeGroups.flatMap (·.matchers) ++
    (if p.pathTenancy then
      s.basePath.trimEndSlashes :: p.tenantNames.toList.map Pattern.quote
    else []) ++
    (if p.rejectUris.isEmpty then [] else p.rejectUris ++ p.acceptFiles) ++ p.rejectCookies ++
    p.rejectUserAgents

theorem WellFormed.trimmed_of_mem_targetTexts {p : Policy} (h : p.WellFormed) {t : Text}
    (ht : t ∈ p.targetTexts) : t.Trimmed := by
  obtain ⟨g, hg, htarget⟩ := List.mem_filterMap.1 ht
  have hredirect : t ∈ g.redirect := (Option.filter_eq_some_iff.1 htarget).1
  rcases List.mem_append.1 (List.mem_filter.1 hg).1 with hg | hg
  · exact h.deviceGroups.redirect g hg t hredirect
  · exact h.referrerGroups.redirect g hg t hredirect

/-- The cache directory, without the segment of a tenant where there are tenants. -/
def cachePath (p : Policy) (s : Site) : Text :=
  (CacheTarget.ofSite s (Tenancy.ofPolicy p s)).templatedPath "/"

end Policy

theorem Site.WellFormed.rewriteBase {s : Site} (h : s.WellFormed) (p : Policy) :
    (Program.build p s).rewriteBase.IsDirectoryPath := by
  rw [Program.build]
  dsimp only
  split
  · exact h.basePath
  · exact h.homePath

namespace Program

variable {p : Policy} {s : Site} {P : Text → Prop}

theorem forall_mem_redirects {Q : Step → Prop} {groups : List Group} {subject : Subject} :
    (∀ x ∈ redirects groups subject, Q x) ↔
      ∀ g ∈ groups, g.isActive = true → ∀ target ∈ g.redirectTarget,
        Q (.redirect subject (subject.pattern g.matchers) target) := by
  simp only [redirects, List.mem_filterMap]
  constructor
  · intro h g hg hactive target htarget
    refine h _ ⟨g, hg, ?_⟩
    rw [if_pos hactive, Option.mem_def.1 htarget, Option.map_some]
  · rintro h x ⟨g, hg, hx⟩
    split at hx
    · next hactive =>
      obtain ⟨target, htarget, rfl⟩ := Option.map_eq_some_iff.1 hx
      exact h g hg hactive target htarget
    · cases hx

theorem forall_mem_ofGroups {Q : TagCandidate → Prop} {groups : List Group} {subject : Subject} :
    (∀ c ∈ TagCandidate.ofGroups groups subject, Q c) ↔
      ∀ g ∈ groups, g.isTagOnly = true → Q ⟨subject.pattern g.matchers, g.tag⟩ := by
  simp only [TagCandidate.ofGroups, List.forall_mem_map, List.mem_filter, List.mem_reverse, and_imp]

theorem forall_mem_steps_build {Q : Step → Prop} :
    (∀ x ∈ (build p s).steps, Q x) ↔
      Q .selfTest ∧
      (∀ g ∈ p.deviceGroups, g.isActive = true → ∀ target ∈ g.redirectTarget,
        Q (.redirect .userAgent (Subject.userAgent.pattern g.matchers) target)) ∧
      (∀ g ∈ p.referrerGroups, g.isActive = true → ∀ target ∈ g.redirectTarget,
        Q (.redirect .referrerCookie (Subject.referrerCookie.pattern g.matchers) target)) ∧
      (∀ t ∈ Tenancy.ofPolicy p s, Q (.detectTenant t)) ∧
      Q (classification p.deviceGroups .device) ∧ Q (classification p.referrerGroups .referrer) ∧
      Q .detectTls ∧ (p.compression = true → Q .detectEncoding) ∧
      Q (.eligibility (Disqualifier.ofPolicy p)) ∧
      Q (.serve (CacheTarget.ofSite s (Tenancy.ofPolicy p s))) := by
  have htenancy : (∀ x ∈ ((Tenancy.ofPolicy p s).map Step.detectTenant).toList, Q x) ↔
      ∀ t ∈ Tenancy.ofPolicy p s, Q (.detectTenant t) := by
    cases Tenancy.ofPolicy p s <;> simp
  have hencoding : (∀ x ∈ if p.compression then [Step.detectEncoding] else [], Q x) ↔
      (p.compression = true → Q .detectEncoding) := by
    cases p.compression <;> simp
  simp only [build, List.forall_mem_append, List.forall_mem_singleton, List.forall_mem_cons,
    forall_mem_redirects, htenancy, hencoding, and_assoc]

/-- Each active group has its pattern in a redirect or in the classification. -/
theorem forall_patterns_groups {groups : List Group} {slot : TagSlot} :
    ((∀ g ∈ groups, g.isActive = true → g.redirectTarget.isSome = true →
          P (slot.subject.pattern g.matchers)) ∧
        ∀ t ∈ (classification groups slot).patterns, P t) ↔
      ∀ g ∈ groups, g.isActive = true → P (slot.subject.pattern g.matchers) := by
  rw [classification, Step.patterns, List.forall_mem_map, forall_mem_ofGroups]
  constructor
  · rintro ⟨hredirect, htag⟩ g hg hactive
    cases htarget : g.redirectTarget with
    | some target => exact hredirect g hg hactive (by simp [htarget])
    | none => exact htag g hg (by simp [Group.isTagOnly, hactive, htarget])
  · intro h
    exact ⟨fun g hg hactive _ => h g hg hactive,
      fun g hg htag => h g hg (Bool.and_eq_true_iff.1 htag).1⟩

theorem forall_patterns_tenancy :
    (∀ t ∈ Tenancy.ofPolicy p s, ∀ pattern ∈ t.patterns, P pattern) ↔
      (p.pathTenancy = true → P (Tenant.pathPattern s.basePath p.tenantNames)) := by
  cases hmulti : p.multiTenant <;> cases hpath : p.pathTenancy <;>
    simp [Tenancy.ofPolicy, hmulti, hpath, Tenancy.patterns]
  simp [Policy.pathTenancy, hmulti] at hpath

theorem forall_patterns_eligibility :
    (∀ t ∈ (Step.eligibility (Disqualifier.ofPolicy p)).patterns, P t) ↔
      (p.rejectUris ≠ [] → P (Pattern.alternation p.rejectUris) ∧
        (p.acceptFiles ≠ [] → P (Pattern.alternation p.acceptFiles))) ∧
      (p.rejectCookies ≠ [] → P (Pattern.alternation p.rejectCookies)) ∧
      (p.rejectUserAgents ≠ [] → P (Pattern.alternation p.rejectUserAgents)) := by
  simp only [Step.patterns, Disqualifier.ofPolicy, List.flatMap_append, List.forall_mem_append]
  cases p.rejectUris <;> cases p.acceptFiles <;> cases p.rejectCookies <;>
    cases p.rejectUserAgents <;> simp [Disqualifier.patterns, and_assoc]

/-- What holds of the patterns of the steps, by the parts of the policy that they come from. -/
theorem forall_patterns_build :
    (∀ x ∈ (build p s).steps, ∀ t ∈ x.patterns, P t) ↔
      (∀ g ∈ p.deviceGroups, g.isActive = true → P (Subject.userAgent.pattern g.matchers)) ∧
      (∀ g ∈ p.referrerGroups, g.isActive = true → P (Subject.referrerCookie.pattern g.matchers)) ∧
      (p.pathTenancy = true → P (Tenant.pathPattern s.basePath p.tenantNames)) ∧
      ∀ t ∈ (Step.eligibility (Disqualifier.ofPolicy p)).patterns, P t := by
  have hdevice := @forall_patterns_groups P p.deviceGroups .device
  have hreferrer := @forall_patterns_groups P p.referrerGroups .referrer
  simp only [TagSlot.subject] at hdevice hreferrer
  have hsome : ∀ (o : Option Text) (q : Prop), (∀ target ∈ o, q) ↔ (o.isSome = true → q) := by
    intro o q
    cases o <;> simp
  have hnone : ∀ x ∈ [Step.selfTest, .detectTls, .detectEncoding,
      .serve (CacheTarget.ofSite s (Tenancy.ofPolicy p s))], ∀ t ∈ x.patterns, P t := by
    simp [Step.patterns]
  simp only [List.forall_mem_cons] at hnone
  have hredirect : ∀ subject pattern target, (∀ t ∈ (Step.redirect subject pattern target).patterns,
      P t) ↔ P pattern := fun _ _ _ => List.forall_mem_singleton
  have htenant : ∀ t : Tenancy, (Step.detectTenant t).patterns = t.patterns := fun _ => rfl
  rw [forall_mem_steps_build, ← forall_patterns_tenancy, ← hdevice, ← hreferrer]
  simp only [hredirect, hsome, htenant]
  tauto

theorem forall_mem_activeGroups {Q : Group → Prop} : (∀ g ∈ p.activeGroups, Q g) ↔
    (∀ g ∈ p.deviceGroups, g.isActive = true → Q g) ∧
      ∀ g ∈ p.referrerGroups, g.isActive = true → Q g := by
  simp only [Policy.activeGroups, List.mem_filter, and_imp, List.forall_mem_append]

theorem forall_targets_build :
    (∀ x ∈ (build p s).steps, ∀ t ∈ x.targets, P t) ↔ ∀ t ∈ p.targetTexts, P t := by
  have htexts : (∀ t ∈ p.targetTexts, P t) ↔ ∀ g ∈ p.activeGroups, ∀ t ∈ g.redirectTarget, P t := by
    simp only [Policy.targetTexts, List.mem_filterMap, Option.mem_def]
    exact ⟨fun h g hg t ht => h t ⟨g, hg, ht⟩, fun h t ⟨g, hg, ht⟩ => h g hg t ht⟩
  rw [forall_mem_steps_build, htexts, forall_mem_activeGroups]
  simp [Step.targets, classification]

theorem forall_lookups_build {Q : CacheTarget → Prop} :
    (∀ x ∈ (build p s).steps, ∀ target ∈ x.lookups, Q target) ↔
      Q (CacheTarget.ofSite s (Tenancy.ofPolicy p s)) := by
  rw [forall_mem_steps_build]
  simp [Step.lookups, classification]

end Program

namespace Lexicon.Criterion

variable {L : Lexicon} {mk : Text → Word} {R : Word → Prop} {S T : Text → Prop} {p : Policy}
  {s : Site}

theorem forall_patternTexts : (∀ t ∈ p.patternTexts s, S t) ↔
    (∀ g ∈ p.deviceGroups, g.isActive = true → ∀ t ∈ g.matchers, S t) ∧
    (∀ g ∈ p.referrerGroups, g.isActive = true → ∀ t ∈ g.matchers, S t) ∧
    (p.pathTenancy = true → S s.basePath.trimEndSlashes ∧
      ∀ name ∈ p.tenantNames.toList, S (Pattern.quote name)) ∧
    (p.rejectUris ≠ [] → (∀ t ∈ p.rejectUris, S t) ∧ ∀ t ∈ p.acceptFiles, S t) ∧
    (∀ t ∈ p.rejectCookies, S t) ∧ ∀ t ∈ p.rejectUserAgents, S t := by
  have hpath : (∀ t ∈ if p.pathTenancy then
      s.basePath.trimEndSlashes :: p.tenantNames.toList.map Pattern.quote else [], S t) ↔
      (p.pathTenancy = true → S s.basePath.trimEndSlashes ∧
        ∀ name ∈ p.tenantNames.toList, S (Pattern.quote name)) := by
    cases p.pathTenancy <;> simp
  have huris : (∀ t ∈ if p.rejectUris.isEmpty then [] else p.rejectUris ++ p.acceptFiles, S t) ↔
      (p.rejectUris ≠ [] → (∀ t ∈ p.rejectUris, S t) ∧ ∀ t ∈ p.acceptFiles, S t) := by
    cases p.rejectUris <;> simp [or_imp, forall_and, and_assoc]
  have hgroups : (∀ t ∈ p.activeGroups.flatMap (·.matchers), S t) ↔
      (∀ g ∈ p.deviceGroups, g.isActive = true → ∀ t ∈ g.matchers, S t) ∧
      ∀ g ∈ p.referrerGroups, g.isActive = true → ∀ t ∈ g.matchers, S t := by
    rw [← Program.forall_mem_activeGroups, List.forall_mem_flatMap]
  rw [Policy.patternTexts, List.forall_mem_append, List.forall_mem_append, List.forall_mem_append,
    List.forall_mem_append, hgroups, hpath, huris]
  simp only [and_assoc]

/-- The patterns of a program come down to the texts of the policy and the site. -/
theorem forall_patterns_iff (hL : L.Spares) (hR : L.Criterion mk R S T) :
    (∀ x ∈ (Program.build p s).steps, ∀ t ∈ x.patterns, R (mk t)) ↔
      ∀ t ∈ p.patternTexts s, S t := by
  have halternation : ∀ ps : List Text, R (mk (Pattern.alternation ps)) ↔ ∀ t ∈ ps, S t :=
    hR.pattern_iff hL .userAgent
  have hnil : ∀ ps : List Text, (ps ≠ [] → ∀ t ∈ ps, S t) ↔ ∀ t ∈ ps, S t := by
    intro ps
    cases ps <;> simp
  rw [Program.forall_patterns_build, Program.forall_patterns_eligibility, forall_patternTexts]
  simp only [hR.pattern_iff hL, hR.pathPattern_iff hL, halternation, hnil]

end Lexicon.Criterion

/-- A text without blanks around it starts a word. -/
theorem Lexicon.starts_of_trimmed {L : Lexicon}
    (hblank : ∀ c, L.blank c = true → Text.isSpace c = true) {t : Text} (h : t.Trimmed)
    (hcomment : t.head?.any L.opensComment = false) : (Word.given t).Starts L := by
  obtain ⟨c, hhead, hspace⟩ := h.head?
  have hc : L.blank c = false := by
    by_contra hc
    rw [hblank c (Bool.not_eq_false _ ▸ hc)] at hspace
    cases hspace
  have hopens : L.opensComment c = false := by simpa [hhead] using hcomment
  exact .inr (by simp [Word.given, hhead, hc, hopens])

theorem Lexicon.Splits.templatedPath {L : Lexicon} {T : Text → Prop} (hL : L.Spares)
    (h : L.Splits T) {x : Text} (hx : ∀ c ∈ x, L.isPlain c = true) (target : CacheTarget) :
    T (target.templatedPath ("/" ++ x ++ "/")) ↔ T (target.templatedPath "/") := by
  unfold CacheTarget.templatedPath
  split
  · exact h.replace (hL.isPlain_break rfl) hx _
  · exact Iff.rfl

/-- What the rules of a server need to know of a step: each pattern is made of pieces, tags are plain,
and pages are looked up under the tenancy that was detected. -/
structure Step.Sound (L : Lexicon) (tenancy : Option Tenancy) (x : Step) : Prop where
  patterns : ∀ t ∈ x.patterns, ∃ u, L.Frames t u
  tags : ∀ t ∈ x.tags, t ≠ [] ∧ ∀ c ∈ t, L.isPlain c = true
  lookups : ∀ target ∈ x.lookups, target.tenancy = tenancy

namespace Program

variable {L : Lexicon} {p : Policy} {s : Site}

theorem isPlain_tag (hL : L.Spares) {groups : List Group} (h : Group.WellFormedList groups)
    (slot : TagSlot) : ∀ t ∈ (classification groups slot).tags, t ≠ [] ∧
      ∀ c ∈ t, L.isPlain c = true := by
  rw [classification, Step.tags, List.forall_mem_map, forall_mem_ofGroups]
  intro g hg _
  refine ⟨by simp [Group.tag], List.forall_mem_cons.2 ⟨hL.name _ (.inr (.inl rfl)), fun c hc => ?_⟩⟩
  exact hL.name c (h.name_char g hg c hc)

theorem sound_of_mem_build (hL : L.Spares) (hp : p.WellFormed) :
    ∀ x ∈ (build p s).steps, x.Sound L (Tenancy.ofPolicy p s) := by
  have hpattern : ∀ x ∈ (build p s).steps, ∀ t ∈ x.patterns, ∃ u, L.Frames t u := by
    have hany : ∀ (subject : Subject) (ps : List Text), ∃ u, L.Frames (subject.pattern ps) u :=
      fun subject ps => ⟨_, Lexicon.frames_pattern hL subject ps⟩
    have halternation : ∀ ps : List Text, ∃ u, L.Frames (Pattern.alternation ps) u :=
      hany .userAgent
    rw [forall_patterns_build, forall_patterns_eligibility]
    exact ⟨fun g _ _ => hany _ _, fun g _ _ => hany _ _,
      fun _ => ⟨_, Lexicon.frames_pathPattern hL _ _⟩,
      fun _ => ⟨halternation _, fun _ => halternation _⟩, fun _ => halternation _,
      fun _ => halternation _⟩
  have htag : ∀ x ∈ (build p s).steps, ∀ t ∈ x.tags, t ≠ [] ∧ ∀ c ∈ t, L.isPlain c = true := by
    rw [forall_mem_steps_build]
    simpa [Step.tags] using
      And.intro (isPlain_tag hL hp.deviceGroups .device) (isPlain_tag hL hp.referrerGroups .referrer)
  have hlookup : ∀ x ∈ (build p s).steps, ∀ target ∈ x.lookups,
      target.tenancy = Tenancy.ofPolicy p s := forall_lookups_build.2 rfl
  exact fun x hx => ⟨hpattern x hx, htag x hx, hlookup x hx⟩

/-- If the words of each sound step come down to its texts, those of a program come down to the texts
of the policy and the site. -/
theorem forall_words_build {mk : Text → Word} {R : Word → Prop} {S T : Text → Prop}
    {words : Step → List Word} (hL : L.Spares) (hR : L.Criterion mk R S T) (hp : p.WellFormed)
    (hwords : ∀ x, x.Sound L (Tenancy.ofPolicy p s) → ((∀ w ∈ words x, R w) ↔
      (∀ t ∈ x.patterns, R (mk t)) ∧ (∀ t ∈ x.targets, R (.given t)) ∧
        ∀ target ∈ x.lookups, T (target.templatedPath "/"))) :
    (∀ x ∈ (build p s).steps, ∀ w ∈ words x, R w) ↔
      (∀ t ∈ p.patternTexts s, S t) ∧ (∀ t ∈ p.targetTexts, R (.given t)) ∧ T (p.cachePath s) := by
  have hlookups : (∀ x ∈ (build p s).steps, ∀ target ∈ x.lookups, T (target.templatedPath "/")) ↔
      T (p.cachePath s) := forall_lookups_build
  rw [← hR.forall_patterns_iff hL, ← forall_targets_build (s := s), ← hlookups, ← forall₂_and,
    ← forall₂_and]
  exact forall₂_congr fun x hx => hwords x (sound_of_mem_build hL hp x hx)

/-- Rules that are emitted step by step, each under the tenancy detected before it, are those of the
steps under the tenancy of the policy: only the steps of the lookup depend on the tenancy, and they
come last. -/
theorem emitted_build {α : Type} (emit : Option Tenancy → Step → List α)
    (emitAll : Option Tenancy → List Step → List α) (hnil : ∀ t, emitAll t [] = [])
    (hcons : ∀ t x xs, emitAll t (x :: xs) = emit t x ++ emitAll (x.tenancyAfter t) xs)
    (hfront : ∀ x : Step, x.isFront = true → ∀ t t', emit t x = emit t' x) :
    emitAll none (build p s).steps = (build p s).steps.flatMap (emit (Tenancy.ofPolicy p s)) := by
  have hsplit : ∀ xs : List Step, (∀ x ∈ xs, x.isFront = true) → ∀ t ys, emitAll t (xs ++ ys) =
      xs.flatMap (emit (Tenancy.ofPolicy p s)) ++
        emitAll (xs.foldl (fun t x => x.tenancyAfter t) t) ys := by
    intro xs hxs
    induction xs with
    | nil => intro t ys; rfl
    | cons x xs ih =>
      obtain ⟨hx, hxs⟩ := List.forall_mem_cons.1 hxs
      intro t ys
      rw [List.cons_append, hcons, ih hxs, hfront x hx t (Tenancy.ofPolicy p s),
        List.flatMap_cons, List.append_assoc, List.foldl_cons]
  rw [build_steps, hsplit _ (fun x => isFront_of_mem_front), ← Step.tenancyOf, tenancyOf_front,
    List.flatMap_append]
  simp [lookup, hcons, hnil, Step.tenancyAfter]

end Program
end PageCache
