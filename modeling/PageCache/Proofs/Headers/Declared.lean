import PageCache.Headers
import PageCache.Proofs.Words.Pieces
import PageCache.Proofs.Words.Statements

/-! What header rules declare about pages, read from their directives. -/
namespace PageCache

inductive Declaration where
  | entityTags
  | charset (names : List Text)
  /-- Pages expire so many seconds after their modification. -/
  | lifetime (seconds : ℕ)
  | header (name : Text) (values : List Text)
  /-- Pages are compressed. -/
  | gzip
  deriving DecidableEq, Repr

theorem Text.isAlphanum_of_mem_ofNat {n : ℕ} {c : Char} (h : c ∈ Text.ofNat n) :
    c.isAlphanum = true := by
  have hdigit := Nat.isDigit_of_mem_toDigits (by decide) (by decide) h
  simp [Char.isAlphanum, hdigit]

/-- A lifetime in digits between a beginning and an ending. -/
def Declaration.ofPeriod? (before after : Text) (period : Text) : Option Declaration :=
  ((period.stripPrefix? before).bind (·.stripSuffix? after)).map fun digits =>
    .lifetime (Nat.ofDigitChars 10 digits 0)

theorem Declaration.ofPeriod?_ofNat (before after : Text) (n : ℕ) :
    ofPeriod? before after (before ++ Text.ofNat n ++ after) = some (.lifetime n) := by
  have hprefix : (before ++ Text.ofNat n ++ after).stripPrefix? before =
      some (Text.ofNat n ++ after) := Text.stripPrefix?_eq_some_iff.2 (List.append_assoc _ _ _)
  have hsuffix : (Text.ofNat n ++ after).stripSuffix? after = some (Text.ofNat n) :=
    Text.stripSuffix?_eq_some_iff.2 rfl
  rw [ofPeriod?, hprefix, Option.bind_some, hsuffix]
  exact congrArg (some ∘ lifetime) Nat.ofDigitChars_ten_toDigits

/-- How the arguments of the directives that declare something are read, by their names. -/
abbrev Dialect := List (Text × (List Text → Option Declaration))

namespace Dialect

def declaration? (d : Dialect) (s : Statement) : Option Declaration :=
  match s.words with
  | [] => none
  | name :: args => (d.lookup name).bind (· args)

def declared (d : Dialect) (ss : List Statement) : List Declaration := ss.filterMap d.declaration?

theorem declared_append (d : Dialect) (ss ss' : List Statement) :
    d.declared (ss ++ ss') = d.declared ss ++ d.declared ss' := List.filterMap_append

end Dialect

namespace HeaderPlan

def headers (plan : HeaderPlan) : List Declaration :=
  (plan.pingbackUrl.map fun v => Declaration.header "X-Pingback" [v]).toList ++
    (plan.poweredBy.map fun v => Declaration.header "X-Powered-By" [v]).toList ++
    [Declaration.header "Vary" [plan.vary]] ++
    (plan.cacheControl.map fun c => Declaration.header "Pragma" [c.pragma]).toList ++
    (plan.cacheControl.map fun c => Declaration.header "Cache-Control" [c.value]).toList

/-- What a plan declares about every page, compressed or not. -/
def declarations (plan : HeaderPlan) : List Declaration :=
  (if plan.etag then [Declaration.entityTags] else []) ++ [Declaration.charset [plan.charset]] ++
    (plan.expires.map fun n => Declaration.lifetime n.toNat).toList ++ plan.headers

theorem gzip_not_mem_declarations (plan : HeaderPlan) : .gzip ∉ plan.declarations := by
  cases h : plan.etag <;> simp [declarations, headers, h]

/-- The values of headers that a plan brings along itself. -/
def ownTexts (plan : HeaderPlan) : List Text :=
  plan.poweredBy.toList ++ plan.vary :: plan.cacheControl.toList.flatMap fun c => [c.pragma, c.value]

theorem vary_mem_ownTexts (plan : HeaderPlan) : plan.vary ∈ plan.ownTexts := by
  simp [ownTexts]

theorem poweredBy_mem_ownTexts {plan : HeaderPlan} {t : Text} (h : plan.poweredBy = some t) :
    t ∈ plan.ownTexts := by
  simp [ownTexts, h]

theorem cacheControl_mem_ownTexts {plan : HeaderPlan} {c : CacheControlHeaders}
    (h : plan.cacheControl = some c) : c.pragma ∈ plan.ownTexts ∧ c.value ∈ plan.ownTexts := by
  simp [ownTexts, h]

def isOwn (c : Char) : Bool := c.isAlphanum || (" ,-./=" : Text).contains c

theorem isOwn_of_mem_ofPolicy (c : CacheControl) (expires : Bool) (lifetime : UInt64) :
    (CacheControlHeaders.ofPolicy c expires lifetime).pragma.all isOwn = true ∧
      (CacheControlHeaders.ofPolicy c expires lifetime).value.all isOwn = true := by
  cases c with
  | cache => exact ⟨rfl, rfl⟩
  | cacheValidation => exact ⟨rfl, rfl⟩
  | cacheNoproxy => exact ⟨rfl, rfl⟩
  | cacheMaxage =>
    cases expires with
    | true => exact ⟨rfl, rfl⟩
    | false =>
      have hdigits : (Text.ofNat lifetime.toNat).all isOwn = true :=
        List.all_eq_true.2 fun d hd => by simp [isOwn, Text.isAlphanum_of_mem_ofNat hd]
      have hvalue : ("max-age=" ++ Text.ofNat lifetime.toNat ++
          ", public, must-revalidate, proxy-revalidate" : Text).all isOwn = true := by
        rw [List.all_append, List.all_append, hdigits]
        decide
      exact ⟨rfl, hvalue⟩
  | noCache => exact ⟨rfl, rfl⟩

theorem isOwn_of_mem_ownTexts_build (p : Policy) (s : Site) :
    ∀ t ∈ (build p s).ownTexts, t.all isOwn = true := by
  intro t ht
  rw [ownTexts, List.mem_append, List.mem_cons, List.mem_flatMap] at ht
  rcases ht with ht | rfl | ⟨c, hc, ht⟩
  · have hpowered : (build p s).poweredBy = if p.browserCache.brandHeader then some brand else none :=
      rfl
    rw [Option.mem_toList, hpowered, Option.ite_none_right_eq_some] at ht
    rw [← Option.some.inj ht.2]
    decide
  · have hvary : (build p s).vary =
        if p.browserCache.compression then ("Accept-Encoding, Cookie" : Text) else "Cookie" := rfl
    rw [hvary]
    split <;> decide
  · rw [Option.mem_toList] at hc
    obtain ⟨control, -, rfl⟩ := Option.map_eq_some_iff.1 hc
    have hcontrol := isOwn_of_mem_ofPolicy control p.browserCache.expires
      p.browserCache.lifetimeSeconds
    rcases List.mem_pair.1 ht with rfl | rfl
    · exact hcontrol.1
    · exact hcontrol.2

end HeaderPlan

theorem Lexicon.reads_of_isOwn {L : Lexicon} (hhard : ∀ c, HeaderPlan.isOwn c = true → L.hard c = false)
    {t : Text} (ht : t.all HeaderPlan.isOwn = true) : (Word.inQuotes t).reads L = true := by
  have hquote : HeaderPlan.isOwn '"' = false := by decide
  have hbackslash : HeaderPlan.isOwn '\\' = false := by decide
  have hunclosed : ∀ escaped, L.unclosed '"' escaped t = true := by
    induction t with
    | nil => exact fun _ => rfl
    | cons c t ih =>
      rw [List.all_cons, Bool.and_eq_true] at ht
      have hc : c ≠ '"' := by
        rintro rfl
        exact absurd ht.1 (by simp [hquote])
      intro escaped
      simp [hhard c ht.1, closes, hc, ih ht.2]
  have hescaped : L.escapedAfter false t = false := by
    by_cases hne : t = []
    · rw [hne]
      rfl
    · refine escapedAfter_of_getLast?_ne hne fun hlast => ?_
      have hown := List.all_eq_true.1 ht _ (List.mem_of_getLast? hlast)
      exact absurd hown (by simp [hbackslash])
  simp [Word.reads, Word.inQuotes, hunclosed, hescaped]

end PageCache
