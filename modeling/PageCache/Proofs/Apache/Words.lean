import PageCache.Apache.Rules
import PageCache.Proofs.Decision.Inputs

/-! The words of Apache directives, and which of them hold texts of the configuration. -/
namespace PageCache.Apache

/-- A line is cut at blanks that are not between quotes. A backslash protects the blank behind it, and
nothing protects the end of the line. -/
def lexicon : Lexicon where
  blank c := c == ' ' || c == '\t' || c == '\x0b' || c == '\x0c' || c == '\r'
  mark _ := false
  hard := Text.isNewline
  escapesBackslash := false
  escapesQuote := false

theorem usual_lexicon : lexicon.Usual := by constructor <;> decide

theorem spares_lexicon : lexicon.Spares := .of_special (by decide) fun c hc => by
  simp only [Lexicon.isPlain, Lexicon.cuts, lexicon, Lexicon.isQuote, Text.isNewline] at hc
  simp [Lexicon.special] at hc ⊢
  tauto

def flagWords (flags : List Text) : List Word :=
  if flags.isEmpty then [] else [.bare ("[" ++ Text.join flags "," ++ "]")]

namespace Directive

def words : Directive → List Word
  | engineOn => [.bare "RewriteEngine", .bare "On"]
  | base path => [.bare "RewriteBase", .bare path]
  | cond subject check ignoreCase either =>
    [.bare "RewriteCond", subject, .bare check.render] ++
      flagWords (Text.keepIf "NC" ignoreCase ++ Text.keepIf "OR" either)
  | rule pattern substitution flags =>
    [.bare "RewriteRule", .bare pattern, substitution] ++ flagWords (flags.map RuleFlag.render)

theorem join_words (a b c : Word) (flags : List Text) :
    Text.join (([a, b, c] ++ flagWords flags).map Word.render) " " =
      a.render ++ " " ++ b.render ++ " " ++ c.render ++ flagsText flags := by
  unfold flagsText flagWords
  split <;> simp [Text.join, List.intercalate, Word.render, Word.bare]

theorem render_eq (d : Directive) : d.render = Text.join (d.words.map Word.render) " " := by
  rw [render.eq_def]
  cases d with
  | engineOn => simp [words, Text.join, List.intercalate, Word.render, Word.bare]
  | base path => simp [words, Text.join, List.intercalate, Word.render, Word.bare]
  | cond subject check ignoreCase either =>
    rw [words, join_words]
    simp [Word.render, Word.bare]
  | rule pattern substitution flags =>
    rw [words, join_words]
    simp [Word.render, Word.bare]

end Directive

def stepWords (tenancy : Option Tenancy) (encoding : Text) (x : Step) : List Word :=
  (stepDirectives tenancy encoding x).flatMap Directive.words

/-- The end of the path of a cached file, up to the encoding. -/
def variantPart : Text :=
  "/" ++ VariantTags.indexStem ++ envValue "PGC_UA" ++ envValue "PGC_REF" ++ envValue "PGC_SSL" ++
    VariantTags.htmlExtension

variable {R : Word → Prop} {S T : Text → Prop} {tenancy : Option Tenancy} {encoding t u : Text}

section
variable (hR : lexicon.Criterion .bare R S T)
include hR

theorem forall_words_cond {v : Word} (hv : R v) (check : Check) (ignoreCase either : Bool) :
    (∀ w ∈ (Directive.cond v check ignoreCase either).words, R w) ↔ R (.bare check.render) := by
  have hname : R (.bare "RewriteCond") := hR.fixed (by decide)
  have hflags : ∀ w ∈ flagWords (Text.keepIf "NC" ignoreCase ++ Text.keepIf "OR" either), R w :=
    hR.forall_of_fixed (by cases ignoreCase <;> cases either <;> decide)
  rw [Directive.words, List.forall_mem_append, List.forall_mem_cons, List.forall_mem_cons,
    List.forall_mem_singleton]
  exact ⟨fun h => h.1.2.2, fun h => ⟨⟨hname, hv, h⟩, hflags⟩⟩

theorem forall_words_pattern {v : Text} (hv : (Word.bare v).Fixed lexicon) (ht : lexicon.Frames t u)
    (negated ignoreCase either : Bool) :
    (∀ w ∈ (Directive.cond (.bare v) (.pattern negated t) ignoreCase either).words, R w) ↔
      R (.bare t) := by
  rw [forall_words_cond hR (hR.fixed hv)]
  cases negated with
  | false => exact Iff.rfl
  | true =>
    have hnegated : (Check.pattern true t).render = '!' :: t := rfl
    rw [hnegated, hR.pattern (ht.negated spares_lexicon), hR.pattern ht]

theorem forall_words_tenant {t : Tenancy} (ht : ∀ p ∈ t.patterns, ∃ u, lexicon.Frames p u) :
    (∀ d ∈ tenantDirectives t, ∀ w ∈ d.words, R w) ↔ ∀ p ∈ t.patterns, R (.bare p) := by
  have hdomain : ∀ d ∈ tenantDirectives .domain, ∀ w ∈ d.words, R w :=
    hR.forall_words_of_fixed (by decide)
  cases t with
  | domain => exact iff_of_true hdomain (by simp [Tenancy.patterns])
  | path pattern =>
    obtain ⟨u, hu⟩ := ht pattern List.mem_cons_self
    have hbefore : ∀ d ∈ tenantDirectives .domain ++ [setEnv [("PGC_URI", .bare requestUri)]],
        ∀ w ∈ d.words, R w := hR.forall_words_of_fixed (by decide)
    have hafter : ∀ d ∈ [setEnv [("PGC_TENANT", .bare "%1."), ("PGC_URI", .bare "%2")]],
        ∀ w ∈ d.words, R w := hR.forall_words_of_fixed (by decide)
    have hdirectives : tenantDirectives (.path pattern) =
        (tenantDirectives .domain ++ [setEnv [("PGC_URI", .bare requestUri)]]) ++
          condition requestUri (.pattern false pattern) ::
          [setEnv [("PGC_TENANT", .bare "%1."), ("PGC_URI", .bare "%2")]] := rfl
    rw [hdirectives, forall_mem_around hbefore hafter, condition,
      forall_words_pattern hR (by decide) hu, Tenancy.patterns, List.forall_mem_singleton]

theorem forall_words_setEnv {name value : Text} (hname : name.all lexicon.isPlain = true)
    (hvalue : ∀ c ∈ value, lexicon.isPlain c = true) :
    ∀ w ∈ (setEnv [(name, .given value)]).words, R w := by
  have hflag : ∀ c ∈ ("[E=" : Text) ++ name ++ ":" ++ value ++ "]", lexicon.isPlain c = true := by
    simp only [List.forall_mem_append]
    exact ⟨⟨⟨⟨List.all_eq_true.1 (by decide), List.all_eq_true.1 hname⟩,
      List.all_eq_true.1 (by decide)⟩, hvalue⟩, List.all_eq_true.1 (by decide)⟩
  have hwords : (setEnv [(name, .given value)]).words =
      [.bare "RewriteRule", .bare ".*", .bare "-",
        .bare (("[E=" : Text) ++ name ++ ":" ++ value ++ "]")] := by
    simp [setEnv, Directive.words, flagWords, RuleFlag.render, Word.render, Word.given, Word.bare,
      Text.join]
  rw [hwords]
  simp only [List.forall_mem_cons]
  exact ⟨hR.fixed (by decide), hR.fixed (by decide), hR.fixed (by decide),
    hR.fixed (Lexicon.fixed_of_forall_isPlain (by simp) hflag), by simp⟩

theorem forall_words_classify (slot : TagSlot) {candidates : List TagCandidate}
    (hc : ∀ c ∈ candidates, ∃ u, lexicon.Frames c.pattern u)
    (htag : ∀ c ∈ candidates, c.tag ≠ [] ∧ ∀ d ∈ c.tag, lexicon.isPlain d = true) :
    (∀ d ∈ classifyDirectives slot candidates, ∀ w ∈ d.words, R w) ↔
      ∀ c ∈ candidates, R (.bare c.pattern) := by
  simp only [classifyDirectives, List.forall_mem_flatMap, List.mem_reverse]
  refine forall₂_congr fun c hmem => ?_
  obtain ⟨u, hu⟩ := hc c hmem
  have hsubject : (Word.bare (subjectVariable slot.subject)).Fixed lexicon := by
    cases slot <;> decide
  have hset : ∀ w ∈ (setEnv [(slotVariable slot, .given c.tag)]).words, R w :=
    forall_words_setEnv hR (by cases slot <;> decide) (htag c hmem).2
  rw [List.forall_mem_cons, List.forall_mem_singleton, and_iff_left hset, caselessCondition,
    forall_words_pattern hR hsubject hu]

theorem forall_words_eligibility {d : Disqualifier}
    (hd : ∀ p ∈ d.patterns, ∃ u, lexicon.Frames p u) :
    (∀ x ∈ eligibilityConditions d, ∀ w ∈ x.words, R w) ↔ ∀ p ∈ d.patterns, R (.bare p) := by
  cases d with
  | unsafeMethod =>
    exact iff_of_true (hR.forall_words_of_fixed (by decide)) (by simp [Disqualifier.patterns])
  | queryString =>
    exact iff_of_true (hR.forall_words_of_fixed (by decide)) (by simp [Disqualifier.patterns])
  | trailingSlash expected =>
    cases expected with
    | true =>
      exact iff_of_true (hR.forall_words_of_fixed (by decide)) (by simp [Disqualifier.patterns])
    | false =>
      exact iff_of_true (hR.forall_words_of_fixed (by decide)) (by simp [Disqualifier.patterns])
  | rejectedUri pattern accepted =>
    obtain ⟨u, hu⟩ := hd pattern List.mem_cons_self
    cases accepted with
    | none =>
      rw [eligibilityConditions, List.forall_mem_singleton, caselessCondition,
        forall_words_pattern hR (by decide) hu, Disqualifier.patterns, Option.toList_none,
        List.forall_mem_singleton]
    | some accepted =>
      obtain ⟨v, hv⟩ := hd accepted (by simp [Disqualifier.patterns])
      rw [eligibilityConditions, List.forall_mem_cons, List.forall_mem_singleton,
        caselessCondition, forall_words_pattern hR (by decide) hu,
        forall_words_pattern hR (by decide) hv, Disqualifier.patterns, Option.toList_some,
        List.forall_mem_cons, List.forall_mem_singleton]
  | rejectedCookie pattern =>
    obtain ⟨u, hu⟩ := hd pattern List.mem_cons_self
    rw [eligibilityConditions, List.forall_mem_singleton, caselessCondition,
      forall_words_pattern hR (by decide) hu, Disqualifier.patterns, List.forall_mem_singleton]
  | rejectedUserAgent pattern =>
    obtain ⟨u, hu⟩ := hd pattern List.mem_cons_self
    rw [eligibilityConditions, List.forall_mem_singleton, caselessCondition,
      forall_words_pattern hR (by decide) hu, Disqualifier.patterns, List.forall_mem_singleton]

theorem exists_cacheFile {target : CacheTarget} (htarget : target.tenancy = tenancy)
    (hencoding : ∀ c ∈ encoding, lexicon.isPlain c = true) :
    ∃ dir rest, cacheFile target tenancy encoding = dir ++ '/' :: rest ∧
      (∀ c ∈ '/' :: rest, lexicon.isPlain c = true) ∧
      (T dir ↔ T (target.templatedPath "/")) := by
  have hrest : ∀ uri : Text, uri.all lexicon.isPlain = true →
      ∀ c ∈ '/' :: (uri ++ variantPart ++ encoding), lexicon.isPlain c = true := by
    intro uri huri
    simp only [List.forall_mem_cons, List.forall_mem_append]
    exact ⟨by decide, ⟨List.all_eq_true.1 huri, List.all_eq_true.1 (by decide)⟩, hencoding⟩
  have hsegment : ∀ {x : Text}, x.all lexicon.isPlain = true →
      (T (target.templatedPath ("/" ++ x ++ "/")) ↔ T (target.templatedPath "/")) := fun hx =>
    hR.inPath.templatedPath spares_lexicon (List.all_eq_true.1 hx) target
  match tenancy with
  | none =>
    have hpath : target.templatedPath "/" = target.cachePath := by
      simp [CacheTarget.templatedPath, htarget]
    exact ⟨target.cachePath, requestUri ++ variantPart ++ encoding,
      by simp [cacheFile, variantPart], hrest _ (by decide), by rw [hpath]⟩
  | some .domain =>
    exact ⟨_, requestUri ++ variantPart ++ encoding, by simp [cacheFile, variantPart],
      hrest _ (by decide), hsegment (x := TenantSegment.stem ++ envValue "PGC_DOMAIN") (by decide)⟩
  | some (.path _) =>
    exact ⟨_, envValue "PGC_URI" ++ variantPart ++ encoding, by simp [cacheFile, variantPart],
      hrest _ (by decide),
      hsegment (x := TenantSegment.stem ++ envValue "PGC_TENANT" ++ envValue "PGC_DOMAIN")
        (by decide)⟩

theorem forall_words_serve {target : CacheTarget} (htarget : target.tenancy = tenancy)
    (hencoding : ∀ c ∈ encoding, lexicon.isPlain c = true) :
    (∀ d ∈ serveDirectives (cacheFile target tenancy encoding), ∀ w ∈ d.words, R w) ↔
      T (target.templatedPath "/") := by
  obtain ⟨dir, rest, hfile, hrest, hdir⟩ := exists_cacheFile hR htarget hencoding
  have hroot : R (.inQuotes ("%\x7bDOCUMENT_ROOT\x7d" ++ cacheFile target tenancy encoding)) ↔
      T dir := by
    rw [hfile, hR.path _ (List.all_eq_true.1 (by decide)) hrest]
  have hpath : R (.inQuotes (cacheFile target tenancy encoding)) ↔ T dir := by
    rw [hfile]
    exact hR.path [] (by simp) hrest
  have hcond : (∀ w ∈ [Word.bare "RewriteCond"], R w) ∧ ∀ w ∈ [Word.bare "-f"], R w :=
    ⟨hR.forall_of_fixed (by decide), hR.forall_of_fixed (by decide)⟩
  have hrule : (∀ w ∈ [Word.bare "RewriteRule", .bare ".*"], R w) ∧ ∀ w ∈ [Word.bare "[L]"], R w :=
    ⟨hR.forall_of_fixed (by decide), hR.forall_of_fixed (by decide)⟩
  rw [serveDirectives, List.forall_mem_cons, List.forall_mem_singleton]
  have hfirst := forall_mem_around (a := Word.inQuotes ("%\x7bDOCUMENT_ROOT\x7d" ++
    cacheFile target tenancy encoding)) hcond.1 hcond.2
  have hsecond := forall_mem_around (a := Word.inQuotes (cacheFile target tenancy encoding))
    hrule.1 hrule.2
  exact (and_congr (hfirst.trans hroot) (hsecond.trans hpath)).trans (by rw [and_self, hdir])

theorem forall_words_redirect {subject : Subject} {pattern target : Text}
    (hpattern : lexicon.Frames pattern u) :
    (∀ d ∈ stepDirectives tenancy encoding (.redirect subject pattern target),
      ∀ w ∈ d.words, R w) ↔ R (.bare pattern) ∧ R (.given target) := by
  have hsubject : (Word.bare (subjectVariable subject)).Fixed lexicon := by
    cases subject <;> decide
  have hbefore : ∀ w ∈ [Word.bare "RewriteRule", .bare ".*"], R w :=
    hR.forall_of_fixed (by decide)
  have hafter : ∀ w ∈ [Word.bare "[R,L]"], R w := hR.forall_of_fixed (by decide)
  have htarget : (∀ w ∈ (Directive.rule ".*" (.given target) [.redirect, .last]).words, R w) ↔
      R (.given target) := forall_mem_around hbefore hafter
  have hdirectives : stepDirectives tenancy encoding (.redirect subject pattern target) =
      [.cond (.bare (subjectVariable subject)) (.pattern false pattern) true false,
        .rule ".*" (.given target) [.redirect, .last]] := rfl
  rw [hdirectives, List.forall_mem_cons, List.forall_mem_singleton, htarget,
    forall_words_pattern hR hsubject hpattern]

theorem forall_stepWords (hencoding : ∀ c ∈ encoding, lexicon.isPlain c = true) (x : Step)
    (hx : x.Sound lexicon tenancy) :
    (∀ w ∈ stepWords tenancy encoding x, R w) ↔
      (∀ t ∈ x.patterns, R (.bare t)) ∧ (∀ t ∈ x.targets, R (.given t)) ∧
        ∀ target ∈ x.lookups, T (target.templatedPath "/") := by
  obtain ⟨hpatterns, htags, hlookups⟩ := hx
  have hfixed : ∀ x ∈ [Step.selfTest, .detectTls, .detectEncoding],
      ∀ d ∈ stepDirectives none [] x, ∀ w ∈ d.words, w.Fixed lexicon := by decide
  simp only [List.forall_mem_cons] at hfixed
  obtain ⟨hself, htls, hgzip, -⟩ := hfixed
  rw [stepWords, List.forall_mem_flatMap]
  cases x with
  | selfTest =>
    exact iff_of_true (hR.forall_words_of_fixed hself)
      (by simp [Step.patterns, Step.targets, Step.lookups])
  | redirect subject pattern target =>
    obtain ⟨u, hu⟩ := hpatterns pattern List.mem_cons_self
    rw [forall_words_redirect hR hu]
    simp [Step.patterns, Step.targets, Step.lookups]
  | detectTenant t =>
    exact (forall_words_tenant hR hpatterns).trans
      (by simp [Step.patterns, Step.targets, Step.lookups])
  | classify slot candidates =>
    have hcandidates : ∀ c ∈ candidates, ∃ u, lexicon.Frames c.pattern u := fun c hc =>
      hpatterns _ (List.mem_map_of_mem hc)
    refine (forall_words_classify hR slot hcandidates (fun c hc => (htags _
      (List.mem_map_of_mem hc)))).trans ?_
    simp [Step.patterns, Step.targets, Step.lookups]
  | detectTls =>
    exact iff_of_true (hR.forall_words_of_fixed htls)
      (by simp [Step.patterns, Step.targets, Step.lookups])
  | detectEncoding =>
    exact iff_of_true (hR.forall_words_of_fixed hgzip)
      (by simp [Step.patterns, Step.targets, Step.lookups])
  | eligibility ds =>
    have hdirectives : stepDirectives tenancy encoding (.eligibility ds) =
        ds.flatMap eligibilityConditions := rfl
    have hds : ∀ d ∈ ds, ∀ p ∈ d.patterns, ∃ u, lexicon.Frames p u :=
      List.forall_mem_flatMap.1 hpatterns
    rw [hdirectives, List.forall_mem_flatMap,
      forall₂_congr fun d hd => forall_words_eligibility hR (hds d hd), Step.patterns,
      List.forall_mem_flatMap]
    simp [Step.targets, Step.lookups]
  | serve target =>
    exact (forall_words_serve hR (hlookups target List.mem_cons_self) hencoding).trans
      (by simp [Step.patterns, Step.targets, Step.lookups])

end

/-- Only the steps of the lookup depend on the tenancy. -/
theorem stepDirectives_of_isFront {x : Step} (hx : x.isFront = true) (t t' : Option Tenancy)
    (encoding : Text) : stepDirectives t encoding x = stepDirectives t' encoding x := by
  cases x with
  | eligibility ds => cases hx
  | serve target => cases hx
  | _ => rfl

/-- The variable that holds the encoding, if the program has it. -/
def encodingOf (p : Program) : Text := if p.detectsEncoding then envValue "PGC_ENC" else []

theorem coreDirectives_build (p : Policy) (s : Site) :
    coreDirectives (.build p s) = [.engineOn, .base (Program.build p s).rewriteBase] ++
      (Program.build p s).steps.flatMap
        (stepDirectives (Tenancy.ofPolicy p s) (encodingOf (.build p s))) := by
  have hsteps := Program.emitted_build (p := p) (s := s)
    (fun t => stepDirectives t (encodingOf (.build p s)))
    (stepsDirectives (encodingOf (.build p s))) (fun _ => rfl) (fun _ _ _ => rfl)
    fun _ hx t t' => stepDirectives_of_isFront hx t t' _
  rw [coreDirectives, ← encodingOf, hsteps]

theorem isPlain_encodingOf (p : Program) : ∀ c ∈ encodingOf p, lexicon.isPlain c = true := by
  unfold encodingOf
  split
  · exact List.all_eq_true.1 (by decide)
  · simp

variable {p : Policy} {s : Site}

/-- The words of the core rules come down to the texts of the policy and the site. -/
theorem forall_words_coreDirectives (hR : lexicon.Criterion .bare R S T) (hp : p.WellFormed) :
    (∀ d ∈ coreDirectives (.build p s), ∀ w ∈ d.words, R w) ↔
      R (.bare (Program.build p s).rewriteBase) ∧ (∀ t ∈ p.patternTexts s, S t) ∧
        (∀ t ∈ p.targetTexts, R (.given t)) ∧ T (p.cachePath s) := by
  have hsteps := Program.forall_words_build (s := s) spares_lexicon hR hp
    (forall_stepWords hR (isPlain_encodingOf (.build p s)))
  have hhead : (∀ d ∈ [Directive.engineOn, .base (Program.build p s).rewriteBase],
      ∀ w ∈ d.words, R w) ↔ R (.bare (Program.build p s).rewriteBase) := by
    have hon : ∀ w ∈ Directive.engineOn.words, R w := by
      simp only [Directive.words, List.forall_mem_cons]
      exact ⟨hR.fixed (by decide), hR.fixed (by decide), by simp⟩
    have hname : R (.bare "RewriteBase") := hR.fixed (by decide)
    rw [List.forall_mem_cons, and_iff_right hon, List.forall_mem_singleton, Directive.words,
      List.forall_mem_cons, and_iff_right hname, List.forall_mem_singleton]
  rw [coreDirectives_build, List.forall_mem_append, hhead, ← hsteps, List.forall_mem_flatMap]
  simp only [stepWords, List.forall_mem_flatMap]

end PageCache.Apache
