import PageCache.Nginx.Rules
import PageCache.Proofs.Decision.Inputs

/-! The words of Nginx directives, and which of them hold texts of the configuration. -/
namespace PageCache.Nginx

/-- Text is cut at blanks, line ends among them, and at the marks of the end of a directive and of
blocks, if they are not between quotes. A backslash protects whatever follows it, and a hash between
words starts a comment. -/
def lexicon : Lexicon where
  blank c := c == ' ' || c == '\t' || c == '\r' || c == '\n'
  mark c := c == ';' || c == '\x7b' || c == '\x7d'
  hard _ := false
  escapesBackslash := true
  escapesQuote := true
  comments := true

theorem usual_lexicon : lexicon.Usual := by constructor <;> decide

theorem spares_lexicon : lexicon.Spares := .of_special (by decide) fun c hc => by
  simp only [Lexicon.isPlain, Lexicon.cuts, lexicon, Lexicon.isQuote] at hc
  simp [Lexicon.special] at hc ⊢
  tauto

def Action.words : Action → List Word
  | set target value => [.bare "set", .bare target, value]
  | rewrite pattern replacement flag =>
    [.bare "rewrite", .bare pattern, replacement, .bare flag.name]

namespace Condition

/-- The words of a condition before its last one. -/
def front : Condition → List Word
  | test subject op _ => [.bare ("(" ++ subject), .bare op.symbol]
  | equal subject _ => [.bare ("(" ++ subject), .bare "="]
  | notEqual subject _ => [.bare ("(" ++ subject), .bare "!="]
  | noFile _ => [.bare "(!-f"]

def last : Condition → Word
  | test _ _ pattern => pattern
  | equal _ value => value
  | notEqual _ value => value
  | noFile path => .inQuotes path

/-- A word before a parenthesis, which belongs to it unless there are quotes between them. -/
def closed (w : Word) : List Word :=
  if w.quoted then [w, .bare ")"] else [.bare (w.text ++ ")")]

def words (c : Condition) : List Word := .bare "if" :: c.front ++ closed c.last

end Condition

def Directive.words : Directive → List Word
  | act a => a.words
  | block c body => c.words ++ body.flatMap Action.words

def stepWords (tenancy : Option Tenancy) (encoding : Text) (x : Step) : List Word :=
  (stepDirectives tenancy encoding x).flatMap Directive.words

/-- The end of the path of a cached file, up to the encoding. -/
def variantPart : Text :=
  "/" ++ VariantTags.indexStem ++ "$pgc_ua$pgc_ref$pgc_ssl" ++ VariantTags.htmlExtension

variable {R : Word → Prop} {S T : Text → Prop} {tenancy : Option Tenancy} {encoding t u : Text}

section
variable (hR : lexicon.Criterion .inQuotes R S T)
include hR

theorem forall_words_set {target : Text} {value : Word} (htarget : (Word.bare target).Fixed lexicon)
    (hvalue : R value) : ∀ w ∈ (Action.set target value).words, R w := by
  simp only [Action.words, List.forall_mem_cons]
  exact ⟨hR.fixed (by decide), hR.fixed htarget, hvalue, by simp⟩

theorem forall_words_block {subject : Text} (hsubject : (Word.bare ("(" ++ subject)).Fixed lexicon)
    (op : MatchOp) (body : List Action) (t : Text) :
    (∀ w ∈ (Directive.block (.test subject op (.inQuotes t)) body).words, R w) ↔
      R (.inQuotes t) ∧ ∀ a ∈ body, ∀ w ∈ a.words, R w := by
  have hop : (Word.bare op.symbol).Fixed lexicon := by cases op <;> decide
  have hbefore : ∀ w ∈ [Word.bare "if", .bare ("(" ++ subject), .bare op.symbol], R w := by
    simp only [List.forall_mem_cons]
    exact ⟨hR.fixed (by decide), hR.fixed hsubject, hR.fixed hop, by simp⟩
  have hcondition : (∀ w ∈ (Condition.test subject op (.inQuotes t)).words, R w) ↔
      R (.inQuotes t) :=
    forall_mem_around hbefore (List.forall_mem_singleton.2 (hR.fixed (by decide)))
  rw [Directive.words, List.forall_mem_append, hcondition, List.forall_mem_flatMap]

/-- Everything but the pattern of a block is fixed. -/
theorem forall_words_test {subject : Text} (hsubject : (Word.bare ("(" ++ subject)).Fixed lexicon)
    (op : MatchOp) {body : List Action} (hbody : ∀ a ∈ body, ∀ w ∈ a.words, R w) (t : Text) :
    (∀ w ∈ (Directive.block (.test subject op (.inQuotes t)) body).words, R w) ↔
      R (.inQuotes t) := by
  rw [forall_words_block hR hsubject, and_iff_left hbody]

theorem forall_words_tenant (t : Tenancy) :
    (∀ d ∈ tenantDirectives t, ∀ w ∈ d.words, R w) ↔ ∀ p ∈ t.patterns, R (.inQuotes p) := by
  have hdomain : ∀ d ∈ tenantDirectives .domain, ∀ w ∈ d.words, R w :=
    hR.forall_words_of_fixed (by decide)
  cases t with
  | domain => exact iff_of_true hdomain (by simp [Tenancy.patterns])
  | path pattern =>
    have hbefore : ∀ d ∈ tenantDirectives .domain ++
        [.set "$pgc_tenant" (.inQuotes []), .set "$pgc_uri" (.bare "$request_uri")],
        ∀ w ∈ d.words, R w := hR.forall_words_of_fixed (by decide)
    have hbody : ∀ a ∈ [Action.set "$pgc_tenant" (.bare "$1."), .set "$pgc_uri" (.bare "$2")],
        ∀ w ∈ a.words, R w := hR.forall_words_of_fixed (by decide)
    have hdirectives : tenantDirectives (.path pattern) =
        (tenantDirectives .domain ++
          [.set "$pgc_tenant" (.inQuotes []), .set "$pgc_uri" (.bare "$request_uri")]) ++
          .block (.test "$request_uri" .sensitive (.inQuotes pattern))
            [.set "$pgc_tenant" (.bare "$1."), .set "$pgc_uri" (.bare "$2")] :: [] := rfl
    rw [hdirectives, forall_mem_around hbefore (by simp), forall_words_test hR (by decide) _ hbody,
      Tenancy.patterns, List.forall_mem_singleton]

theorem forall_words_classify (slot : TagSlot) {candidates : List TagCandidate}
    (htag : ∀ c ∈ candidates, c.tag ≠ [] ∧ ∀ d ∈ c.tag, lexicon.isPlain d = true) :
    (∀ d ∈ classifyDirectives slot candidates, ∀ w ∈ d.words, R w) ↔
      ∀ c ∈ candidates, R (.inQuotes c.pattern) := by
  have hfirst : ∀ w ∈ (Directive.set (slotVariable slot) (.inQuotes [])).words, R w :=
    hR.forall_of_fixed (by cases slot <;> decide)
  have hsubject : (Word.bare ("(" ++ subjectVariable slot.subject)).Fixed lexicon := by
    cases slot <;> decide
  have hvariable : (Word.bare (slotVariable slot)).Fixed lexicon := by cases slot <;> decide
  rw [classifyDirectives, List.forall_mem_cons, and_iff_right hfirst, List.forall_mem_map]
  simp only [List.mem_reverse]
  refine forall₂_congr fun c hc => forall_words_test hR hsubject _ ?_ c.pattern
  have hbare := Lexicon.fixed_of_forall_isPlain (htag c hc).1 (htag c hc).2
  have hvalue : (Word.given c.tag).Fixed lexicon := ⟨hbare.reads, hbare.starts, hbare.no_comment⟩
  exact List.forall_mem_singleton.2 (forall_words_set hR hvariable (hR.fixed hvalue))

theorem forall_words_eligibility (d : Disqualifier) :
    (∀ x ∈ disqualifierDirectives d, ∀ w ∈ x.words, R w) ↔ ∀ p ∈ d.patterns, R (.inQuotes p) := by
  have hineligible : ∀ a ∈ [ineligible], ∀ w ∈ a.words, R w := hR.forall_words_of_fixed (by decide)
  cases d with
  | unsafeMethod =>
    exact iff_of_true (hR.forall_words_of_fixed (by decide)) (by simp [Disqualifier.patterns])
  | queryString =>
    exact iff_of_true (hR.forall_words_of_fixed (by decide)) (by simp [Disqualifier.patterns])
  | trailingSlash expected =>
    cases expected with
    | true =>
      exact iff_of_true (hR.forall_words_of_fixed (by decide)) (by simp [Disqualifier.patterns])
    | false =>
      exact iff_of_true (hR.forall_words_of_fixed (by decide)) (by simp [Disqualifier.patterns])
  | rejectedUri pattern accepted =>
    cases accepted with
    | none =>
      rw [disqualifierDirectives, List.forall_mem_singleton, ineligibleIf,
        forall_words_test hR (by decide) _ hineligible, Disqualifier.patterns, Option.toList_none,
        List.forall_mem_singleton]
    | some accepted =>
      have hset : ∀ value, (Word.bare value).Fixed lexicon →
          ∀ w ∈ (Action.set "$pgc_rewrite2" (.bare value)).words, R w := fun value hvalue =>
        forall_words_set hR (by decide) (hR.fixed hvalue)
      have hfirst : ∀ w ∈ (Directive.set "$pgc_rewrite2" (.bare "1")).words, R w :=
        hset "1" (by decide)
      have hlast : ∀ x ∈ [ineligibleIf (.notEqual "$pgc_rewrite2" (.bare "1"))],
          ∀ w ∈ x.words, R w := hR.forall_words_of_fixed (by decide)
      rw [disqualifierDirectives, List.forall_mem_cons, and_iff_right hfirst, List.forall_mem_cons,
        List.forall_mem_cons, and_iff_left hlast,
        forall_words_test hR (by decide) _ (List.forall_mem_singleton.2 (hset "0" (by decide))),
        forall_words_test hR (by decide) _ (List.forall_mem_singleton.2 (hset "1" (by decide))),
        Disqualifier.patterns, Option.toList_some, List.forall_mem_cons, List.forall_mem_singleton]
  | rejectedCookie pattern =>
    rw [disqualifierDirectives, List.forall_mem_singleton, ineligibleIf,
      forall_words_test hR (by decide) _ hineligible, Disqualifier.patterns,
      List.forall_mem_singleton]
  | rejectedUserAgent pattern =>
    rw [disqualifierDirectives, List.forall_mem_singleton, ineligibleIf,
      forall_words_test hR (by decide) _ hineligible, Disqualifier.patterns,
      List.forall_mem_singleton]

theorem exists_cacheFile {target : CacheTarget} (htarget : target.tenancy = tenancy)
    (hencoding : ∀ c ∈ encoding, lexicon.isPlain c = true) :
    ∃ dir rest, cacheFile target tenancy encoding = dir ++ '/' :: rest ∧
      (∀ c ∈ '/' :: rest, lexicon.isPlain c = true) ∧
      (T dir ↔ T (target.templatedPath "/")) := by
  have hrest : ∀ uri : Text, uri.all lexicon.isPlain = true →
      ∀ c ∈ '/' :: (uri ++ variantPart ++ encoding), lexicon.isPlain c = true := by
    intro uri huri
    simp only [List.forall_mem_cons, List.forall_mem_append]
    exact ⟨by decide, ⟨List.all_eq_true.1 huri, List.all_eq_true.1 (by decide)⟩, hencoding⟩
  have hsegment : ∀ {x : Text}, x.all lexicon.isPlain = true →
      (T (target.templatedPath ("/" ++ x ++ "/")) ↔ T (target.templatedPath "/")) := fun hx =>
    hR.inPath.templatedPath spares_lexicon (List.all_eq_true.1 hx) target
  match tenancy with
  | none =>
    have hpath : target.templatedPath "/" = target.cachePath := by
      simp [CacheTarget.templatedPath, htarget]
    exact ⟨target.cachePath, "$request_uri" ++ variantPart ++ encoding,
      by simp [cacheFile, variantPart], hrest _ (by decide), by rw [hpath]⟩
  | some .domain =>
    refine ⟨target.templatedPath ("/" ++ (TenantSegment.stem ++ "$pgc_domain") ++ "/"),
      "$request_uri" ++ variantPart ++ encoding, ?_, hrest _ (by decide), hsegment (by decide)⟩
    simp [cacheFile, variantPart]
  | some (.path _) =>
    refine ⟨target.templatedPath ("/" ++ (TenantSegment.stem ++ "$pgc_tenant$pgc_domain") ++ "/"),
      "$pgc_uri" ++ variantPart ++ encoding, ?_, hrest _ (by decide), hsegment (by decide)⟩
    simp [cacheFile, variantPart]

theorem forall_words_serve {target : CacheTarget} (htarget : target.tenancy = tenancy)
    (hencoding : ∀ c ∈ encoding, lexicon.isPlain c = true) :
    (∀ d ∈ serveDirectives (cacheFile target tenancy encoding), ∀ w ∈ d.words, R w) ↔
      T (target.templatedPath "/") := by
  obtain ⟨dir, rest, hfile, hrest, hdir⟩ := exists_cacheFile hR htarget hencoding
  have hroot : R (.inQuotes ("$document_root" ++ cacheFile target tenancy encoding)) ↔ T dir := by
    rw [hfile, hR.path _ (List.all_eq_true.1 (by decide)) hrest]
  have hpath : R (.inQuotes (cacheFile target tenancy encoding)) ↔ T dir := by
    rw [hfile]
    exact hR.path [] (by simp) hrest
  have hblock : (∀ w ∈ [Word.bare "if", .bare "(!-f"], R w) ∧
      ∀ w ∈ Word.bare ")" :: [ineligible].flatMap Action.words, R w :=
    ⟨hR.forall_of_fixed (by decide), hR.forall_of_fixed (by decide)⟩
  have hrewrite : (∀ w ∈ (Condition.equal "$pgc_rewrite" (.bare "1")).words ++
      [.bare "rewrite", .bare ".*"], R w) ∧ ∀ w ∈ [Word.bare "last"], R w :=
    ⟨hR.forall_of_fixed (by decide), hR.forall_of_fixed (by decide)⟩
  have hfirst := forall_mem_around (a := Word.inQuotes ("$document_root" ++
    cacheFile target tenancy encoding)) hblock.1 hblock.2
  have hsecond := forall_mem_around (a := Word.inQuotes (cacheFile target tenancy encoding))
    hrewrite.1 hrewrite.2
  rw [serveDirectives, List.forall_mem_cons, List.forall_mem_singleton]
  exact (and_congr (hfirst.trans hroot) (hsecond.trans hpath)).trans (by rw [and_self, hdir])

theorem forall_words_redirect {subject : Subject} {pattern target : Text} :
    (∀ d ∈ stepDirectives tenancy encoding (.redirect subject pattern target),
      ∀ w ∈ d.words, R w) ↔ R (.inQuotes pattern) ∧ R (.given target) := by
  have hsubject : (Word.bare ("(" ++ subjectVariable subject)).Fixed lexicon := by
    cases subject <;> decide
  have hbefore : ∀ w ∈ [Word.bare "rewrite", .bare ".*"], R w := by
    simp only [List.forall_mem_cons]
    exact ⟨hR.fixed (by decide), hR.fixed (by decide), by simp⟩
  have htarget : (∀ w ∈ (Action.rewrite ".*" (.given target) .redirect).words, R w) ↔
      R (.given target) :=
    forall_mem_around hbefore (List.forall_mem_singleton.2 (hR.fixed (by decide)))
  have hdirectives : stepDirectives tenancy encoding (.redirect subject pattern target) =
      [.block (.test (subjectVariable subject) .insensitive (.inQuotes pattern))
        [.rewrite ".*" (.given target) .redirect]] := rfl
  rw [hdirectives, List.forall_mem_singleton, forall_words_block hR hsubject,
    List.forall_mem_singleton, htarget]

theorem forall_stepWords (hencoding : ∀ c ∈ encoding, lexicon.isPlain c = true) (x : Step)
    (hx : x.Sound lexicon tenancy) :
    (∀ w ∈ stepWords tenancy encoding x, R w) ↔
      (∀ t ∈ x.patterns, R (.inQuotes t)) ∧ (∀ t ∈ x.targets, R (.given t)) ∧
        ∀ target ∈ x.lookups, T (target.templatedPath "/") := by
  have hfixed : ∀ x ∈ [Step.selfTest, .detectTls, .detectEncoding],
      ∀ d ∈ stepDirectives none [] x, ∀ w ∈ d.words, w.Fixed lexicon := by decide
  simp only [List.forall_mem_cons] at hfixed
  obtain ⟨hself, htls, hgzip, -⟩ := hfixed
  rw [stepWords, List.forall_mem_flatMap]
  cases x with
  | selfTest =>
    exact iff_of_true (hR.forall_words_of_fixed hself)
      (by simp [Step.patterns, Step.targets, Step.lookups])
  | redirect subject pattern target =>
    rw [forall_words_redirect hR]
    simp [Step.patterns, Step.targets, Step.lookups]
  | detectTenant t =>
    exact (forall_words_tenant hR t).trans (by simp [Step.patterns, Step.targets, Step.lookups])
  | classify slot candidates =>
    refine (forall_words_classify hR slot fun c hc =>
      hx.tags _ (List.mem_map_of_mem hc)).trans ?_
    simp [Step.patterns, Step.targets, Step.lookups]
  | detectTls =>
    exact iff_of_true (hR.forall_words_of_fixed htls)
      (by simp [Step.patterns, Step.targets, Step.lookups])
  | detectEncoding =>
    exact iff_of_true (hR.forall_words_of_fixed hgzip)
      (by simp [Step.patterns, Step.targets, Step.lookups])
  | eligibility ds =>
    have hfirst : ∀ w ∈ (Directive.set "$pgc_rewrite" (.bare "1")).words, R w :=
      forall_words_set hR (by decide) (hR.fixed (by decide))
    have hdirectives : stepDirectives tenancy encoding (.eligibility ds) =
        .set "$pgc_rewrite" (.bare "1") :: ds.flatMap disqualifierDirectives := rfl
    rw [hdirectives, List.forall_mem_cons, and_iff_right hfirst, List.forall_mem_flatMap,
      forall₂_congr fun d _ => forall_words_eligibility hR d, Step.patterns,
      List.forall_mem_flatMap]
    simp [Step.targets, Step.lookups]
  | serve target =>
    exact (forall_words_serve hR (hx.lookups target List.mem_cons_self) hencoding).trans
      (by simp [Step.patterns, Step.targets, Step.lookups])

end

/-- Only the steps of the lookup depend on the tenancy. -/
theorem stepDirectives_of_isFront {x : Step} (hx : x.isFront = true) (t t' : Option Tenancy)
    (encoding : Text) : stepDirectives t encoding x = stepDirectives t' encoding x := by
  cases x with
  | eligibility ds => cases hx
  | serve target => cases hx
  | _ => rfl

/-- The variable that holds the encoding, if the program has it. -/
def encodingOf (p : Program) : Text := if p.detectsEncoding then "$pgc_enc" else []

theorem coreDirectives_build (p : Policy) (s : Site) :
    coreDirectives (.build p s) = (Program.build p s).steps.flatMap
      (stepDirectives (Tenancy.ofPolicy p s) (encodingOf (.build p s))) :=
  Program.emitted_build (fun t => stepDirectives t (encodingOf (.build p s)))
    (stepsDirectives (encodingOf (.build p s))) (fun _ => rfl) (fun _ _ _ => rfl)
    fun _ hx t t' => stepDirectives_of_isFront hx t t' _

theorem isPlain_encodingOf (p : Program) : ∀ c ∈ encodingOf p, lexicon.isPlain c = true := by
  unfold encodingOf
  split
  · exact List.all_eq_true.1 (by decide)
  · simp

/-- The words of the core rules come down to the texts of the policy and the site. -/
theorem forall_words_coreDirectives {p : Policy} {s : Site}
    (hR : lexicon.Criterion .inQuotes R S T) (hp : p.WellFormed) :
    (∀ d ∈ coreDirectives (.build p s), ∀ w ∈ d.words, R w) ↔
      (∀ t ∈ p.patternTexts s, S t) ∧ (∀ t ∈ p.targetTexts, R (.given t)) ∧
        T (p.cachePath s) := by
  rw [← Program.forall_words_build (s := s) spares_lexicon hR hp
    (forall_stepWords hR (isPlain_encodingOf (.build p s))), coreDirectives_build,
    List.forall_mem_flatMap]
  simp only [stepWords, List.forall_mem_flatMap]

end PageCache.Nginx
