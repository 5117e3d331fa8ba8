import PageCache.Proofs.Apache.Reading
import PageCache.Proofs.Nginx.Reading

/-! Whether servers read the arguments that their rules are written for. Texts of the settings go into
the rules as they are, so each of them can take an argument apart; the rules are read as they are meant
exactly if none of them does. -/
namespace PageCache.Settings

variable {o : Options} {st : Settings}

/-- In the rules of Apache, patterns, targets and the base path stand without quotes, so nothing in
them may cut a word. In those of Nginx patterns stand between quotes, and so does the cached file in
both: what is given must not close them. -/
theorem coreRules_read_iff (h : ofOptions o = .ok st) :
    (Apache.lexicon.tokens .gap (Apache.coreRules (.build st.policy st.site)) =
        Apache.ruleTokens (Apache.coreDirectives (.build st.policy st.site)) ↔
      Apache.lexicon.uncut false (Program.build st.policy st.site).rewriteBase = true ∧
        (∀ t ∈ st.policy.patternTexts st.site, Apache.lexicon.uncut false t = true) ∧
        (∀ t ∈ st.policy.targetTexts, (Word.given t).reads Apache.lexicon = true) ∧
        Apache.lexicon.unclosed '"' false (st.policy.cachePath st.site) = true) ∧
    (Nginx.lexicon.tokens .gap (Nginx.coreRules (.build st.policy st.site)) =
        Nginx.ruleTokens (Nginx.coreDirectives (.build st.policy st.site)) ↔
      (∀ t ∈ st.policy.patternTexts st.site, Nginx.lexicon.unclosed '"' false t = true) ∧
        (∀ t ∈ st.policy.targetTexts, (Word.given t).reads Nginx.lexicon = true) ∧
        Nginx.lexicon.unclosed '"' false (st.policy.cachePath st.site) = true) := by
  have hpolicy := policy_wellFormed_of_ofOptions h
  exact ⟨Apache.tokens_coreRules_iff hpolicy (site_wellFormed_of_ofOptions h),
    Nginx.tokens_coreRules_iff hpolicy⟩

/-- A blank behind a backslash does not cut a pattern. -/
theorem coreRules_read_iff_bots :
    let o : Options :=
      { site := { documentRoot := some "/srv/www", cacheDir := some "/srv/www/cache/page" }
        policy :=
          { rejectUserAgents := some ["Bad\\ Bot"]
            device :=
              { groups := some
                  [{ name := some "phone"
                     matchers := some ["iphone"]
                     redirect := some "https://m.example.com" }] } } }
    ∃ st, ofOptions o = .ok st ∧
      Apache.lexicon.tokens .gap (Apache.coreRules (.build st.policy st.site)) =
        Apache.ruleTokens (Apache.coreDirectives (.build st.policy st.site)) ∧
      Nginx.lexicon.tokens .gap (Nginx.coreRules (.build st.policy st.site)) =
        Nginx.ruleTokens (Nginx.coreDirectives (.build st.policy st.site)) := by
  intro o
  have hloaded : (match ofOptions o with
      | .ok st => decide (
        Apache.lexicon.uncut false (Program.build st.policy st.site).rewriteBase = true ∧
        (∀ t ∈ st.policy.patternTexts st.site, Apache.lexicon.uncut false t = true ∧
          Nginx.lexicon.unclosed '"' false t = true) ∧
        (∀ t ∈ st.policy.targetTexts, (Word.given t).reads Apache.lexicon = true ∧
          (Word.given t).reads Nginx.lexicon = true) ∧
        Apache.lexicon.unclosed '"' false (st.policy.cachePath st.site) = true ∧
        Nginx.lexicon.unclosed '"' false (st.policy.cachePath st.site) = true)
      | .error _ => false) = true := by decide +kernel
  match hst : ofOptions o with
  | .error _ => simp [hst] at hloaded
  | .ok st =>
    simp only [hst, decide_eq_true_eq] at hloaded
    obtain ⟨hbase, hpatterns, htargets, hpath, hpath'⟩ := hloaded
    exact ⟨st, rfl,
      (coreRules_read_iff hst).1.2 ⟨hbase, fun t ht => (hpatterns t ht).1,
        fun t ht => (htargets t ht).1, hpath⟩,
      (coreRules_read_iff hst).2.2 ⟨fun t ht => (hpatterns t ht).2,
        fun t ht => (htargets t ht).2, hpath'⟩⟩

/-- A pattern with a blank, as the names of browsers have it, is two arguments for Apache; a quote in
it ends it for Nginx. -/
theorem not_coreRules_read : ∃ (o : Options) (st : Settings), ofOptions o = .ok st ∧
    Apache.lexicon.tokens .gap (Apache.coreRules (.build st.policy st.site)) ≠
      Apache.ruleTokens (Apache.coreDirectives (.build st.policy st.site)) ∧
    Nginx.lexicon.tokens .gap (Nginx.coreRules (.build st.policy st.site)) ≠
      Nginx.ruleTokens (Nginx.coreDirectives (.build st.policy st.site)) := by
  let o : Options :=
    { site := { documentRoot := some "/srv/www", cacheDir := some "/srv/www/cache/page" }
      policy := { rejectUserAgents := some ["Mozilla Foo", "\"Bar\""] } }
  have hloaded : (match ofOptions o with
      | .ok st => decide (("Mozilla Foo" : Text) ∈ st.policy.patternTexts st.site ∧
        ("\"Bar\"" : Text) ∈ st.policy.patternTexts st.site)
      | .error _ => false) = true := by decide +kernel
  match hst : ofOptions o with
  | .error _ => simp [hst] at hloaded
  | .ok st =>
    simp only [hst, decide_eq_true_eq] at hloaded
    obtain ⟨hblank, hquote⟩ := hloaded
    have hpolicy := policy_wellFormed_of_ofOptions hst
    refine ⟨o, st, hst, fun hread => ?_, fun hread => ?_⟩
    · have hcut : Apache.lexicon.uncut false "Mozilla Foo" = true :=
        ((Apache.tokens_coreRules_iff hpolicy (site_wellFormed_of_ofOptions hst)).1 hread).2.1 _
          hblank
      exact absurd hcut (by decide)
    · have hclosed : Nginx.lexicon.unclosed '"' false "\"Bar\"" = true :=
        ((Nginx.tokens_coreRules_iff hpolicy).1 hread).1 _ hquote
      exact absurd hclosed (by decide)

end PageCache.Settings
