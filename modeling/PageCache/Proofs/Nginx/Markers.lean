import PageCache.Proofs.Nginx.Reading
import PageCache.Proofs.Rules.Avoidance

/-! Markers in the rules of Nginx. Only the last word of an action or a condition can end in the
beginning of a marker, and what stands behind it is in no marker. -/
namespace PageCache.Nginx

open Region

variable {b : Block} {p : Policy} {s : Site} {tenancy : Option Tenancy} {encoding : Text}

def Action.Regular : Action → Prop
  | set target _ => '#' ∉ target
  | rewrite pattern _ _ => '#' ∉ pattern

instance (a : Action) : Decidable a.Regular := by
  cases a <;> (unfold Action.Regular; infer_instance)

def Condition.Regular (c : Condition) : Prop := ∀ w ∈ c.front, '#' ∉ w.text

instance (c : Condition) : Decidable c.Regular := by
  unfold Condition.Regular
  infer_instance

def Directive.Regular : Directive → Prop
  | act a => a.Regular
  | block c body => c.Regular ∧ ∀ a ∈ body, a.Regular

instance (d : Directive) : Decidable d.Regular := by
  cases d <;> (unfold Directive.Regular; infer_instance)

theorem Action.Regular.avoids_render_iff {a : Action} (h : a.Regular) :
    Avoids [b.region] a.render ↔ ∀ w ∈ a.words, Avoids [b.region] w.text := by
  have hsemicolon : b.spares ';' = true := by cases b <;> decide
  rw [render_eq, Block.avoids_append_of_rest hsemicolon (List.not_mem_nil)]
  refine Block.avoids_join ?_
  cases a with
  | set target value =>
    exact List.isChain_cons_cons.2 ⟨.inl (by decide),
      List.isChain_cons_cons.2 ⟨.inl h, List.isChain_singleton _⟩⟩
  | rewrite pattern replacement flag =>
    have hflag : b.Joined replacement (.bare flag.name) := by
      cases flag with
      | last => exact .inr (.inr ⟨'l', rfl, by cases b <;> decide⟩)
      | redirect => exact .inr (.inr ⟨'r', rfl, by cases b <;> decide⟩)
    exact List.isChain_cons_cons.2 ⟨.inl (by decide),
      List.isChain_cons_cons.2 ⟨.inl h,
        List.isChain_cons_cons.2 ⟨hflag, List.isChain_singleton _⟩⟩⟩

theorem Condition.avoids_closed_iff (w : Word) :
    (∀ v ∈ closed w, Avoids [b.region] v.text) ↔ Avoids [b.region] w.text := by
  have hclose : b.spares ')' = true := Block.spares_break rfl
  unfold closed
  split
  · rw [List.forall_mem_cons, List.forall_mem_singleton]
    exact and_iff_left (Block.avoids_of_no_hash (by decide))
  · rw [List.forall_mem_singleton]
    exact Block.avoids_append_of_rest hclose List.not_mem_nil

theorem avoids_braced (heading : Text) (body : List Text) :
    Avoids [b.region] (braced heading body) ↔
      Avoids [b.region] heading ∧ ∀ l ∈ body, Avoids [b.region] l := by
  have hblank : b.sparesBlank '\x7b' = true := by cases b <;> decide
  have hclose : b.spares '\x7d' = true := by cases b <;> decide
  have htext : braced heading body =
      heading ++ (' ' :: (("\x7b\n" : Text) ++ (body.flatMap indented ++ '\x7d' :: ['\n']))) := by
    simp [braced]
  have hrest : Avoids [b.region]
      (' ' :: (("\x7b\n" : Text) ++ (body.flatMap indented ++ '\x7d' :: ['\n']))) ↔
      Avoids [b.region] (body.flatMap indented ++ '\x7d' :: ['\n']) :=
    Block.avoids_append_of_no_hash (a := " \x7b\n") (by decide)
  -- Markers have blanks in them, so it is the brace that keeps the heading apart from the body.
  rw [htext, (Block.apart_of_blank hblank rfl heading).avoids_append_iff, hrest,
    Block.avoids_append_of_rest hclose (by decide)]
  exact and_congr_right fun _ => Block.avoids_lines body

theorem exists_braced_eq (heading : Text) (body : List Text) :
    ∃ u, braced heading body = u ++ ['\n'] :=
  ⟨heading ++ " \x7b\n" ++ body.flatMap indented ++ ['\x7d'], by simp [braced]⟩

theorem Condition.Regular.avoids_render_iff {c : Condition} (h : c.Regular) :
    Avoids [b.region] ("if (" ++ c.render ++ ")") ↔ ∀ w ∈ c.words, Avoids [b.region] w.text := by
  have hclose : b.spares ')' = true := Block.spares_break rfl
  have hfront : ∀ w ∈ Word.bare "if" :: c.front, '#' ∉ w.text :=
    List.forall_mem_cons.2 ⟨by decide, h⟩
  have hopening : '#' ∉ Text.join ((Word.bare "if" :: c.front).map Word.render) " " ++ " " := by
    refine List.not_mem_append (Text.not_mem_join (by decide) (List.forall_mem_map.2 ?_)) (by decide)
    exact fun w hw => Word.no_hash_render (hfront w hw)
  rw [render_eq, List.append_assoc, Block.avoids_append_of_no_hash hopening, words,
    List.forall_mem_append, avoids_closed_iff,
    and_iff_right fun w hw => Block.avoids_of_no_hash (hfront w hw), ← Block.avoids_render_iff]
  exact Block.avoids_append_of_rest hclose List.not_mem_nil

theorem Directive.Regular.avoids_render_iff {d : Directive} (h : d.Regular) :
    Avoids [b.region] d.render ↔ ∀ w ∈ d.words, Avoids [b.region] w.text := by
  cases d with
  | act a =>
    have htext : (Directive.act a).render = a.render ++ '\n' :: [] := rfl
    rw [htext, Block.avoids_append_of_rest Block.spares_newline List.not_mem_nil]
    exact Action.Regular.avoids_render_iff h
  | block c body =>
    rw [Directive.render, avoids_braced, h.1.avoids_render_iff, List.forall_mem_map,
      forall₂_congr fun a ha => (h.2 a ha).avoids_render_iff, words, List.forall_mem_append,
      List.forall_mem_flatMap]

theorem regular_test {subject : Text} (hsubject : '#' ∉ subject) (op : MatchOp) (pattern : Word)
    {body : List Action} (hbody : ∀ a ∈ body, a.Regular) :
    (Directive.block (.test subject op pattern) body).Regular := by
  have hop : '#' ∉ op.symbol := by cases op <;> decide
  exact ⟨List.forall_mem_cons.2 ⟨List.not_mem_append (by decide) hsubject,
    List.forall_mem_singleton.2 hop⟩, hbody⟩

theorem hash_not_mem_subjectVariable (subject : Subject) : '#' ∉ subjectVariable subject := by
  cases subject <;> decide

theorem hash_not_mem_slotVariable (slot : TagSlot) : '#' ∉ slotVariable slot := by
  cases slot <;> decide

theorem regular_tenant (t : Tenancy) : ∀ d ∈ tenantDirectives t, d.Regular := by
  have hdomain : ∀ d ∈ tenantDirectives .domain, d.Regular := by decide
  cases t with
  | domain => exact hdomain
  | path pattern =>
    have hset : ∀ d ∈ [Directive.set "$pgc_tenant" (.inQuotes []),
        .set "$pgc_uri" (.bare "$request_uri")], d.Regular := by decide
    have hbody : ∀ a ∈ [Action.set "$pgc_tenant" (.bare "$1."), .set "$pgc_uri" (.bare "$2")],
        a.Regular := by decide
    have hpath := regular_test (by decide : '#' ∉ ("$request_uri" : Text)) .sensitive
      (.inQuotes pattern) hbody
    exact List.forall_mem_append.2 ⟨hdomain,
      List.forall_mem_append.2 ⟨hset, List.forall_mem_singleton.2 hpath⟩⟩

theorem regular_disqualifier (x : Disqualifier) : ∀ d ∈ disqualifierDirectives x, d.Regular := by
  have htest : ∀ {subject : Text}, '#' ∉ subject → ∀ pattern,
      ∀ d ∈ [ineligibleIf (.test subject .insensitive (.inQuotes pattern))], d.Regular :=
    fun h _ => List.forall_mem_singleton.2 (regular_test h _ _ (by decide))
  have huri : '#' ∉ ("$request_uri" : Text) := by decide
  cases x with
  | unsafeMethod => exact (by decide : ∀ d ∈ disqualifierDirectives .unsafeMethod, d.Regular)
  | queryString => exact (by decide : ∀ d ∈ disqualifierDirectives .queryString, d.Regular)
  | trailingSlash expected => revert expected; decide
  | rejectedUri pattern accepted =>
    cases accepted with
    | none => exact htest huri pattern
    | some accepted =>
      have hfirst : ∀ d ∈ [Directive.set "$pgc_rewrite2" (.bare "1")], d.Regular := by decide
      have hlast : ∀ d ∈ [ineligibleIf (.notEqual "$pgc_rewrite2" (.bare "1"))], d.Regular := by
        decide
      exact List.forall_mem_append.2 ⟨hfirst, List.forall_mem_cons.2
        ⟨regular_test huri _ _ (by decide), List.forall_mem_cons.2
          ⟨regular_test huri _ _ (by decide), hlast⟩⟩⟩
  | rejectedCookie pattern => exact htest (by decide) pattern
  | rejectedUserAgent pattern => exact htest (by decide) pattern

theorem regular_of_mem_stepDirectives (tenancy : Option Tenancy) (encoding : Text) (x : Step) :
    ∀ d ∈ stepDirectives tenancy encoding x, d.Regular := by
  cases x with
  | selfTest => exact (by decide : ∀ d ∈ stepDirectives none [] .selfTest, d.Regular)
  | redirect subject pattern target =>
    have hrewrite : (Action.rewrite ".*" (.given target) .redirect).Regular :=
      (by decide : '#' ∉ (".*" : Text))
    exact List.forall_mem_singleton.2 (regular_test (hash_not_mem_subjectVariable subject) _ _
      (List.forall_mem_singleton.2 hrewrite))
  | detectTenant t => exact regular_tenant t
  | classify slot candidates =>
    refine List.forall_mem_cons.2 ⟨hash_not_mem_slotVariable slot,
      List.forall_mem_map.2 fun c _ => regular_test (hash_not_mem_subjectVariable _) _ _ ?_⟩
    exact List.forall_mem_singleton.2 (hash_not_mem_slotVariable slot)
  | detectTls => exact (by decide : ∀ d ∈ stepDirectives none [] .detectTls, d.Regular)
  | detectEncoding => exact (by decide : ∀ d ∈ stepDirectives none [] .detectEncoding, d.Regular)
  | eligibility ds =>
    exact List.forall_mem_cons.2 ⟨(by decide : '#' ∉ ("$pgc_rewrite" : Text)),
      List.forall_mem_flatMap.2 fun x _ => regular_disqualifier x⟩
  | serve target =>
    have hmissing : (ineligibleIf (.noFile ("$document_root" ++
        cacheFile target tenancy encoding))).Regular :=
      ⟨List.forall_mem_singleton.2 (by decide), by decide⟩
    have hserve : (Directive.block (.equal "$pgc_rewrite" (.bare "1"))
        [.rewrite ".*" (.inQuotes (cacheFile target tenancy encoding)) .last]).Regular :=
      ⟨by decide, List.forall_mem_singleton.2 (by decide : '#' ∉ (".*" : Text))⟩
    exact List.forall_mem_cons.2 ⟨hmissing, List.forall_mem_singleton.2 hserve⟩

/-- The core rules have a marker only if a text of the policy or the site brings it along. -/
theorem avoids_coreRules_iff (hp : p.WellFormed) :
    Avoids [b.region] (coreRules (.build p s)) ↔
      (∀ t ∈ p.patternTexts s, Avoids [b.region] t) ∧
        (∀ t ∈ p.targetTexts, Avoids [b.region] t) ∧ Avoids [b.region] (p.cachePath s) := by
  have hregular : ∀ d ∈ coreDirectives (.build p s), d.Regular := by
    rw [coreDirectives_build]
    exact List.forall_mem_flatMap.2 fun x _ => regular_of_mem_stepDirectives _ _ x
  have hline : ∀ d : Directive, ∃ u, d.render = u ++ ['\n'] := fun d => match d with
    | .act a => ⟨a.render, rfl⟩
    | .block _ _ => exists_braced_eq _ _
  rw [coreRules, Nginx.render, Block.avoids_flatMap fun d _ => hline d,
    forall₂_congr fun d hd => (hregular d hd).avoids_render_iff]
  exact forall_words_coreDirectives (Block.criterion_avoids b lexicon fun _ => rfl) hp

theorem avoids_headerLines {plan : HeaderPlan} (h : plan.NoHash) :
    (∀ l ∈ headerLines plan, Avoids [b.region] l) ↔
      Avoids [b.region] plan.charset ∧ ∀ url ∈ plan.pingbackUrl, Avoids [b.region] url := by
  have hsemicolon : b.spares ';' = true := by cases b <;> decide
  have hetag : ∀ l ∈ Text.keepIf "etag on;" plan.etag, Avoids [b.region] l := by
    cases plan.etag
    · simp [Text.keepIf]
    · exact List.forall_mem_singleton.2 (Block.avoids_of_no_hash (by decide))
  have hcharset : Avoids [b.region] ("charset " ++ plan.charset ++ ";") ↔
      Avoids [b.region] plan.charset := by
    rw [List.append_assoc, Block.avoids_append_of_no_hash (by decide)]
    exact Block.avoids_append_of_rest hsemicolon List.not_mem_nil
  have hpingback := Block.avoids_enclosed (b := b) (c := '"') plan.pingbackUrl
    (by decide : '#' ∉ ("add_header X-Pingback \"" : Text)) Block.spares_quote
    (by decide : '#' ∉ (";" : Text))
  have hexpires : ∀ l ∈ Text.enclosed? (plan.expires.map fun n => Text.ofNat n.toNat)
      "expires modified " "s;", Avoids [b.region] l := by
    refine Block.avoids_enclosed_of_no_hash (by decide) (fun t ht => ?_) (by decide)
    obtain ⟨n, -, rfl⟩ := Option.map_eq_some_iff.1 ht
    exact Text.no_hash_ofNat _
  have hpowered : ∀ l ∈ Text.enclosed? plan.poweredBy "add_header X-Powered-By \"" "\";",
      Avoids [b.region] l :=
    Block.avoids_enclosed_of_no_hash (by decide) h.poweredBy (by decide)
  have hvary : Avoids [b.region] (("add_header Vary \"" : Text) ++ plan.vary ++ "\";") :=
    Block.avoids_of_no_hash (List.not_mem_append (List.not_mem_append (by decide) h.vary) (by decide))
  have hpragma : ∀ l ∈ Text.enclosed? (plan.cacheControl.map (·.pragma)) "add_header Pragma \""
      "\";", Avoids [b.region] l := by
    refine Block.avoids_enclosed_of_no_hash (by decide) (fun t ht => ?_) (by decide)
    obtain ⟨control, hcontrol, rfl⟩ := Option.map_eq_some_iff.1 ht
    exact (h.cacheControl control hcontrol).1
  have hvalue : ∀ l ∈ Text.enclosed? (plan.cacheControl.map (·.value))
      "add_header Cache-Control \"" "\";", Avoids [b.region] l := by
    refine Block.avoids_enclosed_of_no_hash (by decide) (fun t ht => ?_) (by decide)
    obtain ⟨control, hcontrol, rfl⟩ := Option.map_eq_some_iff.1 ht
    exact (h.cacheControl control hcontrol).2
  have hpingback := Block.avoids_enclosed (b := b) (c := '"') plan.pingbackUrl
    (by decide : '#' ∉ ("add_header X-Pingback \"" : Text)) Block.spares_quote
    (by decide : '#' ∉ (";" : Text))
  unfold headerLines
  simp only [List.forall_mem_append, List.forall_mem_singleton]
  rw [hcharset, and_iff_right hetag, and_iff_left hvalue, and_iff_left hpragma, and_iff_left hvary,
    and_iff_left hpowered, and_iff_left hexpires]
  exact and_congr_right fun _ => hpingback

theorem avoids_gzipLines {plan : HeaderPlan} (h : plan.NoHash) :
    (∀ l ∈ gzipLines plan, Avoids [b.region] l) ↔
      Avoids [b.region] plan.charset ∧ ∀ url ∈ plan.pingbackUrl, Avoids [b.region] url := by
  have hbefore : ∀ l ∈ [("gzip off;" : Text), "types \x7b\x7d", "default_type text/html;"],
      Avoids [b.region] l := by
    have hhash : ∀ l ∈ [("gzip off;" : Text), "types \x7b\x7d", "default_type text/html;"],
        '#' ∉ l := by decide
    exact fun l hl => Block.avoids_of_no_hash (hhash l hl)
  have hlast : ∀ l ∈ [("add_header Content-Encoding gzip;" : Text)], Avoids [b.region] l :=
    List.forall_mem_singleton.2 (Block.avoids_of_no_hash (by decide))
  have hlines : gzipLines plan = [("gzip off;" : Text), "types \x7b\x7d", "default_type text/html;"] ++
      (headerLines plan ++ [("add_header Content-Encoding gzip;" : Text)]) := by
    simp [gzipLines]
  rw [hlines, List.forall_mem_append, List.forall_mem_append, and_iff_right hbefore,
    and_iff_left hlast, avoids_headerLines h]

theorem avoids_location {directory rest : Text} (hrest : '#' ∉ rest) (ls : List Text) :
    Avoids [b.region] (Location.render ⟨directory ++ '.' :: rest, ls⟩) ↔
      Avoids [b.region] directory ∧ ∀ l ∈ ls, Avoids [b.region] l := by
  have hdot : b.spares '.' = true := by cases b <;> decide
  rw [Location.render, avoids_braced, Block.avoids_append_of_no_hash (by decide),
    Block.avoids_append_of_rest hdot hrest]

/-- The location rules have a marker only if the cache directory or a header does. -/
theorem avoids_cacheRules_iff {plan : HeaderPlan} (h : plan.NoHash) (target : CacheTarget) :
    Avoids [b.region] (cacheRules plan target) ↔
      Avoids [b.region] (target.templatedPath "/") ∧ Avoids [b.region] plan.charset ∧
        ∀ url ∈ plan.pingbackUrl, Avoids [b.region] url := by
  have hstem : (TenantSegment.stem ++ ".*?" : Text).all lexicon.isPlain = true := by decide
  have hdirectory : Avoids [b.region]
      (target.templatedPath ("/" ++ TenantSegment.stem ++ ".*?/")) ↔
      Avoids [b.region] (target.templatedPath "/") := by
    simpa using (Block.splits_avoids b lexicon).templatedPath spares_lexicon
      (List.all_eq_true.1 hstem) target
  have hpages := (avoids_location (b := b) (by decide : '#' ∉ ("*html$" : Text))
    (headerLines plan)).trans (and_congr hdirectory (avoids_headerLines h))
  have hgzip := (avoids_location (b := b) (by decide : '#' ∉ ("*gzip$" : Text))
    (gzipLines plan)).trans (and_congr hdirectory (avoids_gzipLines h))
  have hlocation : ∀ l : Location, ∃ u, l.render = u ++ ['\n'] := fun _ => exists_braced_eq _ _
  rw [cacheRules, Block.avoids_flatMap fun l _ => hlocation l, locations, List.forall_mem_cons]
  split
  · rw [List.forall_mem_singleton]
    exact (and_congr hpages hgzip).trans (by rw [and_self])
  · exact (and_iff_left (by simp)).trans hpages

end PageCache.Nginx
