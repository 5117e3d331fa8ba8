import PageCache.Proofs.Apache.Front

/-! The directives of the lookup. The conditions of eligibility are kept for the rule that serves the
page, from the file that the environment spells out. -/
namespace PageCache.Apache

attribute [local irreducible] Pattern.captures? Pattern.found

variable {ctx : Context} {σ τ : State} {scope : Scope}

def guard? : Directive → Option Guard
  | .cond subject check ignoreCase either => some ⟨subject, check, ignoreCase, either⟩
  | _ => none

def guards (ds : List Directive) : List Guard := ds.filterMap guard?

theorem foldlM_run_conditions {ds : List Directive} (h : ∀ d ∈ ds, (guard? d).isSome = true) :
    ds.foldlM (Directive.run ctx) σ = .ok { σ with guards := σ.guards ++ guards ds } := by
  induction ds generalizing σ with
  | nil => simp [guards, pure, Except.pure]
  | cons d ds ih =>
    obtain ⟨hd, hds⟩ := List.forall_mem_cons.1 h
    cases d with
    | cond subject check ignoreCase either =>
      rw [List.foldlM_cons]
      refine (ih hds).trans ?_
      simp [guards, guard?]
    | _ => cases hd

theorem satisfy_cons {g : Guard} {gs : List Guard} {b : Bool} {next : Scope} (hg : g.either = false)
    (htest : g.test ctx scope = (b, next)) :
    satisfy ctx false scope (g :: gs) = if b then satisfy ctx false next gs else none := by
  rw [satisfy, htest]
  simp only [hg, Bool.false_eq_true, if_false]

/-- A condition that is negated holds or may be replaced by the next one. -/
theorem satisfy_either {subject v pattern accepted : Text} (hv : ∀ scope, expand ctx scope subject = v)
    (gs : List Guard) : ∃ condition,
    satisfy ctx false scope
        (⟨.bare subject, .pattern true pattern, true, true⟩ ::
          ⟨.bare subject, .pattern false accepted, true, false⟩ :: gs) =
      if Pattern.found true pattern v && !Pattern.found true accepted v then none
      else satisfy ctx false { scope with condition := condition } gs := by
  rw [satisfy, test_negated pattern (hv _)]
  cases Pattern.found true pattern v with
  | false => exact ⟨scope.condition, rfl⟩
  | true =>
    refine ⟨(Pattern.captures? true accepted v).getD scope.condition, ?_⟩
    refine Eq.trans (satisfy_cons rfl (test_pattern accepted (hv _))) ?_
    cases Pattern.found true accepted v <;> rfl

/-- The conditions of a disqualifier hold where it does not apply. -/
theorem satisfy_disqualifier
    (hmethod : ctx.request.method.eqIgnoreCase "POST" = true → ctx.request.method = "POST")
    (d : Disqualifier) (scope : Scope) (gs : List Guard) : ∃ condition,
    satisfy ctx false scope (guards (eligibilityConditions d) ++ gs) =
      if d.applies ctx.request then none
      else satisfy ctx false { scope with condition := condition } gs := by
  have hnot : ∀ (b : Bool) (o : Option Scope), (if !b then o else none) = if b then none else o := by
    intro b o
    cases b <;> rfl
  cases d with
  | unsafeMethod =>
    have htest : Guard.test ctx scope
        ⟨.bare "%\x7bREQUEST_METHOD\x7d", .notEqual (.bare "POST"), false, false⟩ =
        (!ctx.request.method.eqIgnoreCase "POST", scope) :=
      (test_notEqual (@expands_variable ctx scope "REQUEST_METHOD" (by decide)
        (by decide)).expand_eq (word_of_plain (.inr (by decide)))).trans
        (congrArg (fun b => (!b, scope)) (Request.beq_post hmethod))
    exact ⟨scope.condition, (satisfy_cons rfl htest).trans (hnot _ _)⟩
  | queryString =>
    have hempty : (ctx.request.query == []) = !!ctx.request.query.isEmpty := by
      cases ctx.request.query <;> rfl
    have htest : Guard.test ctx scope
        ⟨.bare "%\x7bQUERY_STRING\x7d", .equal (.inQuotes []), false, false⟩ =
        (!!ctx.request.query.isEmpty, scope) :=
      (test_equal (@expands_variable ctx scope "QUERY_STRING" (by decide) (by decide)).expand_eq
        (word_of_plain (.inr (by simp [Word.inQuotes])))).trans
        (congrArg (fun b => (b, scope)) hempty)
    exact ⟨scope.condition, (satisfy_cons rfl htest).trans (hnot _ _)⟩
  | trailingSlash expected =>
    cases expected with
    | true =>
      have htest := @test_pattern ctx scope requestUri _ false false "\\/$" expand_requestUri
      rw [Pattern.found_slashAtEnd, ← Bool.not_not (ctx.request.uri.endsWith "/")] at htest
      exact ⟨_, (satisfy_cons rfl htest).trans (hnot _ _)⟩
    | false =>
      have htest := @test_pattern ctx scope requestUri _ false false "[^\\/]$" expand_requestUri
      rw [Pattern.found_otherAtEnd] at htest
      exact ⟨_, (satisfy_cons rfl htest).trans (hnot _ _)⟩
  | rejectedUri pattern accepted =>
    cases accepted with
    | none =>
      have ha : Disqualifier.applies (.rejectedUri pattern none) ctx.request =
          Pattern.found true pattern ctx.request.uri := Bool.and_true _
      rw [ha]
      exact ⟨scope.condition,
        (satisfy_cons rfl (test_negated pattern expand_requestUri)).trans (hnot _ _)⟩
    | some accepted => exact satisfy_either (fun _ => expand_requestUri) gs
  | rejectedCookie pattern =>
    exact ⟨scope.condition,
      (satisfy_cons rfl (test_negated pattern (expand_subject .referrerCookie))).trans (hnot _ _)⟩
  | rejectedUserAgent pattern =>
    exact ⟨scope.condition,
      (satisfy_cons rfl (test_negated pattern (expand_subject .userAgent))).trans (hnot _ _)⟩

theorem satisfy_disqualifiers
    (hmethod : ctx.request.method.eqIgnoreCase "POST" = true → ctx.request.method = "POST")
    (ds : List Disqualifier) (scope : Scope) (gs : List Guard) : ∃ condition,
    satisfy ctx false scope (guards (ds.flatMap eligibilityConditions) ++ gs) =
      if ds.any (·.applies ctx.request) then none
      else satisfy ctx false { scope with condition := condition } gs := by
  induction ds generalizing scope with
  | nil => exact ⟨scope.condition, rfl⟩
  | cons d ds ih =>
    obtain ⟨condition, hd⟩ := satisfy_disqualifier hmethod d scope
      (guards (ds.flatMap eligibilityConditions) ++ gs)
    obtain ⟨condition', hds⟩ := ih { scope with condition := condition }
    refine ⟨condition', ?_⟩
    have hguards : guards ((d :: ds).flatMap eligibilityConditions) =
        guards (eligibilityConditions d) ++ guards (ds.flatMap eligibilityConditions) := by
      rw [guards, List.flatMap_cons, List.filterMap_append]
      rfl
    rw [hguards, List.append_assoc, hd, hds, List.any_cons]
    cases d.applies ctx.request <;> rfl

theorem isSome_guard?_of_mem {ds : List Disqualifier} {x : Directive}
    (h : x ∈ ds.flatMap eligibilityConditions) : (guard? x).isSome = true := by
  obtain ⟨d, -, hx⟩ := List.mem_flatMap.1 h
  have hall : (eligibilityConditions d).all fun x => (guard? x).isSome := by
    cases d with
    | trailingSlash expected => cases expected <;> rfl
    | rejectedUri pattern accepted => cases accepted <;> rfl
    | _ => rfl
  exact List.all_eq_true.1 hall x hx

def segment : Tenancy → Text
  | .domain => TenantSegment.stem ++ envValue "PGC_DOMAIN"
  | .path _ => TenantSegment.stem ++ (envValue "PGC_TENANT" ++ envValue "PGC_DOMAIN")

theorem segment_ne_nil (t : Tenancy) : segment t ≠ [] := by
  cases t <;> exact List.cons_ne_nil _ _

theorem getLast?_segment_ne (t : Tenancy) : (segment t).getLast? ≠ some '/' := by
  have hlast : (segment t).getLast? = some '\x7d' := by cases t <;> rfl
  rw [hlast]
  decide

def uriVariable : Option Tenancy → Text
  | some (.path _) => envValue "PGC_URI"
  | _ => requestUri

def encodingVariable (slots : List Slot) : Text :=
  if .encoding ∈ slots then envValue "PGC_ENC" else []

def fileNameWith (encoding : Text) : Text :=
  VariantTags.indexStem ++ (envValue "PGC_UA" ++ (envValue "PGC_REF" ++ (envValue "PGC_SSL" ++
    (VariantTags.htmlExtension ++ encoding))))

theorem cacheFile_none (target : CacheTarget) (encoding : Text) :
    cacheFile target none encoding =
      target.cachePath ++ ("/" ++ (uriVariable none ++ ("/" ++ fileNameWith encoding))) := by
  rw [show uriVariable none = requestUri from rfl]
  simp only [cacheFile, fileNameWith, List.append_assoc]

theorem cacheFile_some {target : CacheTarget} {t : Tenancy} (ht : target.tenancy = some t)
    (encoding : Text) (frame : TenantSegment.Frame target.cachePath) :
    cacheFile target (some t) encoding =
      (frame.before ++ '/' :: segment t ++ frame.after) ++
        ("/" ++ (uriVariable (some t) ++ ("/" ++ fileNameWith encoding))) := by
  have hreplace : ∀ body : Text, body ≠ [] → body.getLast? ≠ some '/' →
      target.templatedPath ('/' :: body ++ ['/']) = frame.before ++ '/' :: body ++ frame.after :=
    fun body hne hlast => by
      rw [CacheTarget.templatedPath, ht]
      exact frame.replace_eq body hne hlast
  rw [← hreplace (segment t) (segment_ne_nil t) (getLast?_segment_ne t)]
  cases t <;> simp only [cacheFile, fileNameWith, List.append_assoc] <;> rfl

variable {tenancy : Option Tenancy} {slots : List Slot} {f : Findings} {v : Text}

theorem expands_fileName (h : Tracks ctx.request tenancy slots f σ) (hscope : scope.env = σ.env) :
    Expands ctx scope (fileNameWith (encodingVariable slots)) f.tags.fileName := by
  have henv : ∀ {name v : Text}, '%' ∉ name → '\x7d' ∉ name → σ.env name = v →
      Expands ctx scope (envValue name) v := fun hp hc hv => by
    rw [← hv, ← hscope]
    exact expands_env hp hc
  have hencoding : Expands ctx scope (encodingVariable slots) f.tags.encoding := by
    unfold encodingVariable
    split
    · exact henv (by decide) (by decide) h.encoding
    · next hm =>
      rw [h.no_encoding hm]
      exact .literal (by simp) (by simp)
  have hall := (Expands.literal (t := VariantTags.indexStem) (by decide) (by decide)).append
    ((henv (by decide) (by decide) (h.tag .device)).append
      ((henv (by decide) (by decide) (h.tag .referrer)).append
        ((henv (by decide) (by decide) h.tls).append
          ((Expands.literal (t := VariantTags.htmlExtension) (by decide) (by decide)).append
            hencoding))))
  have hname : f.tags.fileName = VariantTags.indexStem ++ (f.tag .device ++ (f.tag .referrer ++
      (f.tags.tls ++ (VariantTags.htmlExtension ++ f.tags.encoding)))) := by
    simp only [VariantTags.fileName, Findings.tag, List.append_assoc]
  rw [hname]
  exact hall

theorem expands_segment {t : Tenancy} (h : Tracks ctx.request (some t) slots f σ)
    (hscope : scope.env = σ.env) :
    Expands ctx scope (segment t) (t.writtenTenant ctx.request).directory := by
  have hdomain : Expands ctx scope (envValue "PGC_DOMAIN") (Tenant.domainOf ctx.request.host) := by
    rw [← h.domain t rfl, ← hscope]
    exact expands_env (by decide) (by decide)
  have hstem : Expands ctx scope TenantSegment.stem TenantSegment.stem :=
    .literal (by decide) (by decide)
  cases t with
  | domain =>
    rw [Tenancy.writtenTenant, Tenancy.tenant_domain]
    exact hstem.append hdomain
  | path pattern =>
    have hname : Expands ctx scope (envValue "PGC_TENANT")
        ((Tenancy.path pattern).writtenTenant ctx.request).namePrefix := by
      rw [← h.name pattern rfl, ← hscope]
      exact expands_env (by decide) (by decide)
    have hd : ((Tenancy.path pattern).writtenTenant ctx.request).domain =
        Tenant.domainOf ctx.request.host := by
      rw [Tenancy.writtenTenant_domain, Tenancy.tenant_path]
    rw [Tenant.directory_eq, hd]
    exact hstem.append (hname.append hdomain)

theorem expands_uri (h : Tracks ctx.request tenancy slots f σ) (hscope : scope.env = σ.env) :
    Expands ctx scope (uriVariable tenancy)
      (((tenancy.map (·.tenant ctx.request)).map (·.uri)).getD ctx.request.uri) := by
  have hrequest : Expands ctx scope requestUri ctx.request.uri :=
    @expands_variable ctx scope "REQUEST_URI" (by decide) (by decide)
  match tenancy, h with
  | none, _ => exact hrequest
  | some .domain, _ =>
    rw [Option.map_some, Tenancy.tenant_domain]
    exact hrequest
  | some (.path pattern), h =>
    rw [Option.map_some, Option.map_some, Option.getD_some, ← h.path pattern rfl, ← hscope]
    exact expands_env (by decide) (by decide)

/-- In the path of the cached file the variables have their values. Its directory is the one of the
tenant as rules write it, up to repeated slashes. -/
theorem exists_expands_cacheFile (target : CacheTarget) (h : Tracks ctx.request tenancy slots f σ)
    (ht : target.tenancy = tenancy) (hcache : Path.Rooted target.cachePath)
    (hpercent : '%' ∉ target.cachePath) (hdollar : '$' ∉ target.cachePath) :
    ∃ dir, Path.Rooted dir ∧
      Path.Alike (dir ++ ['/'])
        (target.directory (tenancy.map (·.writtenTenant ctx.request)) ++ ['/']) ∧
      ∀ scope : Scope, scope.env = σ.env →
        Expands ctx scope (cacheFile target tenancy (encodingVariable slots))
          (dir ++ "/" ++ ((tenancy.map (·.tenant ctx.request)).map (·.uri)).getD ctx.request.uri ++
            "/" ++ f.tags.fileName) := by
  have hfile : ∀ scope : Scope, scope.env = σ.env →
      Expands ctx scope
        ("/" ++ (uriVariable tenancy ++ ("/" ++ fileNameWith (encodingVariable slots))))
        ("/" ++ (((tenancy.map (·.tenant ctx.request)).map (·.uri)).getD ctx.request.uri ++
          ("/" ++ f.tags.fileName))) := fun scope hscope => by
    have hslash : Expands ctx scope "/" "/" := .literal (by decide) (by decide)
    exact hslash.append ((expands_uri h hscope).append
      (hslash.append (expands_fileName h hscope)))
  cases tenancy with
  | none =>
    refine ⟨target.cachePath, hcache, rfl, fun scope hscope => ?_⟩
    rw [cacheFile_none]
    simpa only [List.append_assoc] using
      (Expands.literal hpercent hdollar).append (hfile scope hscope)
  | some t =>
    obtain ⟨frame⟩ := TenantSegment.nonempty_frame target.cachePath
    refine ⟨frame.before ++ '/' :: (t.writtenTenant ctx.request).directory ++ frame.after,
      frame.rooted hcache _, (frame.alike_replace _).symm, fun scope hscope => ?_⟩
    have hplain : ∀ c, c ∉ target.cachePath → c ∉ frame.before ∧ c ∉ frame.after := fun c hc =>
      ⟨fun hm => hc (frame.mem_dir _ (.inl hm)), fun hm => hc (frame.mem_dir _ (.inr hm))⟩
    have hbefore : Expands ctx scope (frame.before ++ ['/']) (frame.before ++ ['/']) :=
      .literal (by simp [(hplain _ hpercent).1]) (by simp [(hplain _ hdollar).1])
    have hafter : Expands ctx scope frame.after frame.after :=
      .literal (hplain _ hpercent).2 (hplain _ hdollar).2
    rw [cacheFile_some ht _ frame]
    simpa only [List.append_assoc, List.cons_append, List.nil_append] using
      hbefore.append ((expands_segment h hscope).append (hafter.append (hfile scope hscope)))

def fileGuard (file : Text) : Guard :=
  ⟨.inQuotes ("%\x7bDOCUMENT_ROOT\x7d" ++ file), .isFile, false, false⟩

/-- The rule that serves the page is applied if the conditions kept before hold and the file
exists. -/
theorem run_serve {file : Text} {ds : List Disqualifier} (hguards : σ.guards = [])
    (hmethod : ctx.request.method.eqIgnoreCase "POST" = true → ctx.request.method = "POST")
    (hv : ∀ scope : Scope, scope.env = σ.env → Expands ctx scope file v) :
    ∃ τ, (ds.flatMap eligibilityConditions ++ serveDirectives file).foldlM (Directive.run ctx) σ =
      if !ds.any (·.applies ctx.request) && ctx.fileExists (ctx.documentRoot ++ v) then
        .error (.rewritten ".*" v)
      else .ok τ := by
  have hconds : (ds.flatMap eligibilityConditions ++
      [Directive.cond (.inQuotes ("%\x7bDOCUMENT_ROOT\x7d" ++ file)) .isFile false false]).foldlM
        (Directive.run ctx) σ =
      .ok { σ with guards := guards (ds.flatMap eligibilityConditions) ++ [fileGuard file] } := by
    rw [List.foldlM_append, foldlM_run_conditions fun x => isSome_guard?_of_mem, hguards]
    rfl
  have hpath : ∀ scope : Scope, scope.env = σ.env →
      expand ctx scope ("%\x7bDOCUMENT_ROOT\x7d" ++ file) = ctx.documentRoot ++ v :=
    fun scope hscope =>
      ((@expands_variable ctx scope "DOCUMENT_ROOT" (by decide) (by decide)).append
        (hv scope hscope)).expand_eq
  obtain ⟨rule, hrule⟩ := exists_captures?_anything σ.uri
  obtain ⟨condition, hpass⟩ := satisfy_disqualifiers hmethod ds { env := σ.env, rule := rule }
    [fileGuard file]
  have htest : Guard.test ctx { env := σ.env, rule := rule, condition := condition }
      (fileGuard file) =
      (ctx.fileExists (ctx.documentRoot ++ v),
        { env := σ.env, rule := rule, condition := condition }) := by
    rw [← hpath { env := σ.env, rule := rule, condition := condition } rfl]
    rfl
  have hserve : ∀ scope : Scope, scope.env = σ.env →
      applyRule ctx σ.uri scope ".*" (.inQuotes file) [.last] = .error (.rewritten ".*" v) :=
    fun scope hscope => by
      have hne : Word.inQuotes file ≠ .bare "-" := fun h => by cases congrArg Word.quoted h
      have hword : word ctx scope (.inQuotes file) = v := (hv scope hscope).expand_eq
      rw [applyRule, if_neg hne, hword]
      rfl
  refine ⟨{ σ with guards := [] }, ?_⟩
  rw [serveDirectives, ← List.singleton_append, ← List.append_assoc, List.foldlM_append, hconds]
  refine (foldlM_run_singleton _).trans ?_
  rw [Directive.run, hrule]
  simp only [hpass, satisfy_cons rfl htest]
  cases ds.any (·.applies ctx.request) with
  | true => rfl
  | false =>
    cases ctx.fileExists (ctx.documentRoot ++ v) with
    | false => rfl
    | true => exact hserve _ rfl

end PageCache.Apache
