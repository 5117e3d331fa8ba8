import PageCache.Proofs.Apache.Words

/-! How the core rules of Apache are read: line by line, each line as the words of its directive. -/
namespace PageCache.Apache

namespace Directive

/-- Subjects and the patterns of rules are fixed, and the line does not end in a text of the
configuration that a backslash could end. -/
def Regular : Directive → Prop
  | engineOn => True
  | base path => path.getLast? ≠ some '\\'
  | cond subject check ignoreCase either =>
    (subject.quoted = true ∨ '#' ∉ subject.text) ∧
      (ignoreCase = true ∨ either = true ∨ check.render.getLast? ≠ some '\\')
  | rule pattern _ flags => '#' ∉ pattern ∧ flags ≠ []

instance (d : Directive) : Decidable d.Regular := by
  cases d <;> (unfold Regular; infer_instance)

def tokens (d : Directive) : List Token := d.words.map Word.token ++ [.mark '\n']

theorem ends_flagWords {flags : List Text} (h : flags ≠ []) (ws : List Word) :
    ∀ w ∈ (ws ++ flagWords flags).getLast?, w.Ends := by
  intro w hw
  rw [flagWords, if_neg (by simpa using h), List.getLast?_concat] at hw
  obtain rfl := Option.some.inj hw
  have hlast : (("[" : Text) ++ Text.join flags "," ++ "]").getLast? = some ']' :=
    List.getLast?_concat
  exact .inr (by rw [Word.bare, hlast]; decide)

theorem Regular.ends {d : Directive} (h : d.Regular) : ∀ w ∈ d.words.getLast?, w.Ends := by
  cases d with
  | engineOn =>
    intro w hw
    obtain rfl := Option.some.inj hw
    decide
  | base path =>
    intro w hw
    obtain rfl := Option.some.inj hw
    exact .inr h
  | cond subject check ignoreCase either =>
    by_cases hflags : Text.keepIf "NC" ignoreCase ++ Text.keepIf "OR" either = []
    · have hnone : flagWords (Text.keepIf "NC" ignoreCase ++ Text.keepIf "OR" either) = [] := by
        rw [hflags]
        rfl
      have hcheck : check.render.getLast? ≠ some '\\' := by
        have h' := h.2
        cases ignoreCase <;> cases either <;> simp_all [Text.keepIf]
      intro w hw
      rw [words, hnone, List.append_nil] at hw
      obtain rfl := Option.some.inj hw
      exact .inr hcheck
    · exact ends_flagWords hflags _
  | rule pattern substitution flags => exact ends_flagWords (by simpa using h.2) _

theorem words_ne_nil (d : Directive) : d.words ≠ [] := by
  cases d <;> simp [words]

/-- A regular directive is read as its words exactly if each of them is read back. -/
theorem exactly {d : Directive} (h : d.Regular) (hstart : ∀ w ∈ d.words, w.Starts lexicon) :
    lexicon.Exactly (indented d.render) d.tokens (∀ w ∈ d.words, w.reads lexicon = true) := by
  have hblank : lexicon.Exactly [' '] [] True := Lexicon.Exactly.cut usual_lexicon.cuts_blank
  have hindent := hblank.append (hblank.append (hblank.append hblank))
  have hwords := Lexicon.Exactly.words (c := '\n') usual_lexicon d.words d.words_ne_nil hstart
    (by decide) (.inr h.ends)
  have htext : indented d.render = [' '] ++ ([' '] ++ ([' '] ++ [' '])) ++
      (Text.join (d.words.map Word.render) " " ++ ['\n']) := by
    simp [indented, render_eq]
  rw [htext]
  exact (hindent.append hwords).congr (by simp)

end Directive

variable {tenancy : Option Tenancy} {encoding t u : Text}

/-- A text that is one piece of a pattern ends in a plain character. -/
theorem getLast?_ne_of_frames (h : lexicon.Frames t u) : t.getLast? ≠ some '\\' := by
  obtain ⟨lead, u, c, rest, hne, hlead, hc, hrest⟩ := h
  intro hlast
  have hmem : '\\' ∈ c :: rest := by
    rw [← List.append_assoc, List.getLast?_append_of_ne_nil _ (by simp)] at hlast
    exact List.mem_of_getLast? hlast
  exact absurd (hrest _ hmem) (by decide)

theorem regular_condition {subject : Text} {check : Check} (hsubject : '#' ∉ subject)
    (hcheck : check.render.getLast? ≠ some '\\') : (condition subject check).Regular :=
  ⟨.inr hsubject, .inr (.inr hcheck)⟩

theorem regular_caselessCondition {subject : Text} (hsubject : '#' ∉ subject) (negated : Bool)
    (pattern : Text) : (caselessCondition subject negated pattern).Regular :=
  ⟨.inr hsubject, .inl rfl⟩

theorem hash_not_mem_subjectVariable (subject : Subject) : '#' ∉ subjectVariable subject := by
  cases subject <;> decide

theorem regular_setEnv {values : List (Text × Word)} (h : values ≠ []) : (setEnv values).Regular :=
  ⟨by decide, by simpa using h⟩

theorem regular_eligibility (d : Disqualifier) : ∀ x ∈ eligibilityConditions d, x.Regular := by
  have huri : '#' ∉ requestUri := by decide
  cases d with
  | unsafeMethod => exact List.forall_mem_singleton.2 (regular_condition (by decide) (by decide))
  | queryString => exact List.forall_mem_singleton.2 (regular_condition (by decide) (by decide))
  | trailingSlash expected =>
    cases expected with
    | true => exact List.forall_mem_singleton.2 (regular_condition huri (by decide))
    | false => exact List.forall_mem_singleton.2 (regular_condition huri (by decide))
  | rejectedUri pattern accepted =>
    cases accepted with
    | none => exact List.forall_mem_singleton.2 (regular_caselessCondition huri _ _)
    | some accepted =>
      exact List.forall_mem_cons.2 ⟨⟨.inr huri, .inl rfl⟩,
        List.forall_mem_singleton.2 (regular_caselessCondition huri _ _)⟩
  | rejectedCookie pattern =>
    exact List.forall_mem_singleton.2 (regular_caselessCondition (by decide) _ _)
  | rejectedUserAgent pattern =>
    exact List.forall_mem_singleton.2 (regular_caselessCondition (by decide) _ _)

theorem regular_tenant {t : Tenancy} (ht : ∀ p ∈ t.patterns, ∃ u, lexicon.Frames p u) :
    ∀ d ∈ tenantDirectives t, d.Regular := by
  have hdomain : ∀ d ∈ tenantDirectives .domain, d.Regular := by decide
  cases t with
  | domain => exact hdomain
  | path pattern =>
    obtain ⟨u, hu⟩ := ht pattern List.mem_cons_self
    refine List.forall_mem_append.2 ⟨hdomain, ?_⟩
    simp only [List.forall_mem_cons]
    exact ⟨regular_setEnv (by simp),
      regular_condition (by decide) (getLast?_ne_of_frames hu), regular_setEnv (by simp), by simp⟩

theorem regular_of_mem_stepDirectives {x : Step} (hx : x.Sound lexicon tenancy) :
    ∀ d ∈ stepDirectives tenancy encoding x, d.Regular := by
  cases x with
  | selfTest => exact (by decide : ∀ d ∈ stepDirectives none [] .selfTest, d.Regular)
  | redirect subject pattern target =>
    have hrule : (Directive.rule ".*" (.given target) [.redirect, .last]).Regular :=
      ⟨by decide, by simp⟩
    exact List.forall_mem_cons.2
      ⟨regular_caselessCondition (hash_not_mem_subjectVariable subject) _ _,
        List.forall_mem_singleton.2 hrule⟩
  | detectTenant t => exact regular_tenant hx.patterns
  | classify slot candidates =>
    refine List.forall_mem_flatMap.2 fun c _ => List.forall_mem_cons.2
      ⟨regular_caselessCondition (hash_not_mem_subjectVariable _) _ _,
        List.forall_mem_singleton.2 (regular_setEnv (by simp))⟩
  | detectTls => exact (by decide : ∀ d ∈ stepDirectives none [] .detectTls, d.Regular)
  | detectEncoding => exact (by decide : ∀ d ∈ stepDirectives none [] .detectEncoding, d.Regular)
  | eligibility ds => exact List.forall_mem_flatMap.2 fun d _ => regular_eligibility d
  | serve target =>
    have hcond : (Directive.cond (.inQuotes ("%\x7bDOCUMENT_ROOT\x7d" ++
        cacheFile target tenancy encoding)) .isFile false false).Regular :=
      ⟨.inl rfl, .inr (.inr (by decide))⟩
    have hrule : (Directive.rule ".*" (.inQuotes (cacheFile target tenancy encoding))
        [.last]).Regular := ⟨by decide, by simp⟩
    exact List.forall_mem_cons.2 ⟨hcond, List.forall_mem_singleton.2 hrule⟩

/-- The tokens that the core rules are written for: a line for each directive, in a section. -/
def ruleTokens (ds : List Directive) : List Token :=
  [.word "<IfModule", .word "mod_rewrite.c>", .mark '\n'] ++ ds.flatMap Directive.tokens ++
    [.word "</IfModule>", .mark '\n']

theorem exactly_render {ds : List Directive} (hregular : ∀ d ∈ ds, d.Regular)
    (hstart : ∀ d ∈ ds, ∀ w ∈ d.words, w.Starts lexicon) :
    lexicon.Exactly (render ds) (ruleTokens ds) (∀ d ∈ ds, ∀ w ∈ d.words, w.reads lexicon = true) := by
  have hopening := Lexicon.Exactly.words (c := '\n') usual_lexicon
    [.bare "<IfModule", .bare "mod_rewrite.c>"] (by simp) (by decide) (by decide) (.inr (by decide))
  have hclosing := Lexicon.Exactly.words (c := '\n') usual_lexicon
    [.bare "</IfModule>"] (by simp) (by decide) (by decide) (.inr (by decide))
  have hlines := Lexicon.Exactly.flatMap fun d hd =>
    Directive.exactly (hregular d hd) (hstart d hd)
  have hfirst : Text.join ([Word.bare "<IfModule", .bare "mod_rewrite.c>"].map Word.render) " " ++
      ['\n'] = ("<IfModule " : Text) ++ "mod_rewrite.c" ++ ">\n" := by decide
  have hlast : Text.join ([Word.bare "</IfModule>"].map Word.render) " " ++ ['\n'] =
      ("</IfModule>\n" : Text) := by decide
  rw [hfirst] at hopening
  rw [hlast] at hclosing
  have hall := (hopening.append hlines).append hclosing
  have htext : render ds = ("<IfModule " : Text) ++ "mod_rewrite.c" ++ ">\n" ++
      (ds.map Directive.render).flatMap indented ++ "</IfModule>\n" := rfl
  have hfixed : (∀ w ∈ [Word.bare "<IfModule", .bare "mod_rewrite.c>"],
      w.reads lexicon = true) ∧ ∀ w ∈ [Word.bare "</IfModule>"], w.reads lexicon = true := by decide
  rw [htext, List.flatMap_map]
  exact hall.congr ⟨fun h => h.1.2, fun h => ⟨⟨hfixed.1, h⟩, hfixed.2⟩⟩

variable {p : Policy} {s : Site}

theorem regular_of_mem_coreDirectives (hp : p.WellFormed)
    (hbase : (Program.build p s).rewriteBase.getLast? ≠ some '\\') :
    ∀ d ∈ coreDirectives (.build p s), d.Regular := by
  rw [coreDirectives_build]
  refine List.forall_mem_append.2 ⟨?_, List.forall_mem_flatMap.2 fun x hx => ?_⟩
  · exact List.forall_mem_cons.2 ⟨trivial, List.forall_mem_singleton.2 hbase⟩
  · exact regular_of_mem_stepDirectives (Program.sound_of_mem_build spares_lexicon hp x hx)

theorem isSpace_of_blank (c : Char) (h : lexicon.blank c = true) : Text.isSpace c = true := by
  simp only [lexicon, Bool.or_eq_true, beq_iff_eq, or_assoc] at h
  rcases h with rfl | rfl | rfl | rfl | rfl <;> decide

/-- The core rules are read as their directives exactly if no text of the policy and the site is cut,
and the cache directory does not close the quotes around it. -/
theorem tokens_coreRules_iff (hp : p.WellFormed) (hs : s.WellFormed) :
    lexicon.tokens .gap (coreRules (.build p s)) = ruleTokens (coreDirectives (.build p s)) ↔
      lexicon.uncut false (Program.build p s).rewriteBase = true ∧
        (∀ t ∈ p.patternTexts s, lexicon.uncut false t = true) ∧
        (∀ t ∈ p.targetTexts, (Word.given t).reads lexicon = true) ∧
        lexicon.unclosed '"' false (p.cachePath s) = true := by
  obtain ⟨hslash, u, hend, -⟩ := hs.rewriteBase p
  have hhead : (Program.build p s).rewriteBase.head? = some '/' := by
    obtain ⟨rest, hrest⟩ := List.isPrefixOf_iff_prefix.1 hslash
    rw [← hrest]
    rfl
  have hlast : (Program.build p s).rewriteBase.getLast? = some '/' := by
    rw [hend, List.getLast?_concat]
  have hregular := regular_of_mem_coreDirectives hp (s := s) (by rw [hlast]; decide)
  have hstart : ∀ d ∈ coreDirectives (.build p s), ∀ w ∈ d.words, w.Starts lexicon := by
    refine (forall_words_coreDirectives (Lexicon.criterion_starts_bare lexicon) hp).2
      ⟨.inr (by rw [Word.bare, hhead]; decide), by simp, fun t ht => ?_, trivial⟩
    exact Lexicon.starts_of_trimmed isSpace_of_blank (hp.trimmed_of_mem_targetTexts ht)
      (by cases t <;> rfl)
  have hbase : (Word.bare (Program.build p s).rewriteBase).reads lexicon = true ↔
      lexicon.uncut false (Program.build p s).rewriteBase = true :=
    Lexicon.reads_bare_iff (by rw [hhead]; rfl) (by rw [hlast]; decide)
  rw [coreRules, (exactly_render hregular hstart).tokens_eq_iff,
    forall_words_coreDirectives (Lexicon.criterion_reads_bare lexicon) hp, hbase]

end PageCache.Apache
