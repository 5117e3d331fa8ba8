import PageCache.Proofs.Apache.Assignment

/-! The directives of the steps in front. They end the run where the program does, and otherwise the
environment holds what the program has found out. -/
namespace PageCache.Apache

attribute [local irreducible] Pattern.captures? Pattern.found

variable {ctx : Context} {σ τ : State}

/-- The outcome of the directives stands for the decision. A page is served from the same file up to
repeated slashes. -/
inductive Agrees (documentRoot : Text) : Outcome → Decision → Prop
  | selfTest (target : Text) :
    Agrees documentRoot (.rewritten Program.selfTestPattern target) .selfTest
  | redirect (target : Text) : Agrees documentRoot (.redirected target) (.redirect target)
  | serve {file path : Text} (h : Path.Alike (documentRoot ++ file) path) :
    Agrees documentRoot (.rewritten ".*" file) (.serve path)
  | bypass (reason : Text) : Agrees documentRoot .passed (.bypass reason)
  | miss (path : Text) : Agrees documentRoot .passed (.miss path)

/-- Under a tenancy the environment holds what steps have found out so far. What they have not found
out is empty. -/
structure Tracks (r : Request) (tenancy : Option Tenancy) (slots : List Slot) (f : Findings)
    (σ : State) : Prop where
  uri : σ.uri = r.uri
  guards : σ.guards = []
  no_tenant : .tenant ∉ slots → σ.env "PGC_DOMAIN" = [] ∧ σ.env "PGC_TENANT" = []
  domain : ∀ t, tenancy = some t → σ.env "PGC_DOMAIN" = Tenant.domainOf r.host
  name : ∀ pattern, tenancy = some (.path pattern) →
    σ.env "PGC_TENANT" = ((Tenancy.path pattern).writtenTenant r).namePrefix
  path : ∀ pattern, tenancy = some (.path pattern) →
    σ.env "PGC_URI" = ((Tenancy.path pattern).tenant r).uri
  tag : ∀ slot, σ.env (slotVariable slot) = f.tag slot
  no_tag : ∀ slot, .tag slot ∉ slots → f.tag slot = []
  tls : σ.env "PGC_SSL" = f.tags.tls
  no_tls : .tls ∉ slots → f.tags.tls = []
  encoding : σ.env "PGC_ENC" = f.tags.encoding
  no_encoding : .encoding ∉ slots → f.tags.encoding = []

theorem Tracks.start (r : Request) :
    Tracks r (Step.tenancyOf []) (Step.slots []) {} { uri := r.uri } where
  uri := rfl
  guards := rfl
  no_tenant _ := ⟨rfl, rfl⟩
  domain t ht := by cases ht
  name pattern ht := by cases ht
  path pattern ht := by cases ht
  tag slot := by cases slot <;> rfl
  no_tag slot _ := by cases slot <;> rfl
  tls := rfl
  no_tls _ := rfl
  encoding := rfl
  no_encoding _ := rfl

variable {tenancy : Option Tenancy} {slots : List Slot} {f : Findings}

theorem Tracks.detectTag (h : Tracks ctx.request tenancy slots f σ) {slot : TagSlot} {tag : Text}
    (hx : Extends σ τ [(slotVariable slot, tag)]) :
    Tracks ctx.request tenancy (slots ++ [.tag slot]) (f.setTag slot tag) τ where
  uri := hx.uri.trans h.uri
  guards := hx.guards
  no_tenant hn := by
    obtain ⟨hd, ht⟩ := h.no_tenant (by simpa using hn)
    cases slot <;> exact ⟨(hx.env _).trans hd, (hx.env _).trans ht⟩
  domain t ht := by cases slot <;> exact (hx.env _).trans (h.domain t ht)
  name pattern ht := by cases slot <;> exact (hx.env _).trans (h.name pattern ht)
  path pattern ht := by cases slot <;> exact (hx.env _).trans (h.path pattern ht)
  tag other := by
    cases slot <;> cases other
    · exact hx.env _
    · exact (hx.env _).trans (h.tag .referrer)
    · exact (hx.env _).trans (h.tag .device)
    · exact hx.env _
  no_tag other hn := by
    have hold : .tag other ∉ slots := fun hm => hn (List.mem_append_left _ hm)
    cases slot <;> cases other
    · exact absurd (by simp) hn
    · exact h.no_tag _ hold
    · exact h.no_tag _ hold
    · exact absurd (by simp) hn
  tls := by cases slot <;> exact (hx.env _).trans h.tls
  no_tls hn := by cases slot <;> exact h.no_tls (by simpa using hn)
  encoding := by cases slot <;> exact (hx.env _).trans h.encoding
  no_encoding hn := by cases slot <;> exact h.no_encoding (by simpa using hn)

theorem Tracks.detectTls (h : Tracks ctx.request tenancy slots f σ) (hnew : .tls ∉ slots)
    (hx : Extends σ τ [("PGC_SSL", if ctx.request.isTls then VariantTags.tlsTag else [])]) :
    Tracks ctx.request tenancy (slots ++ [.tls]) (if ctx.request.isTls then f.setTls else f) τ := by
  rw [Findings.setTls_if (h.no_tls hnew)]
  exact
    { uri := hx.uri.trans h.uri
      guards := hx.guards
      no_tenant := fun hn =>
        have hold := h.no_tenant (by simpa using hn)
        ⟨(hx.env _).trans hold.1, (hx.env _).trans hold.2⟩
      domain := fun t ht => (hx.env _).trans (h.domain t ht)
      name := fun pattern ht => (hx.env _).trans (h.name pattern ht)
      path := fun pattern ht => (hx.env _).trans (h.path pattern ht)
      tag := fun slot => by cases slot <;> exact (hx.env _).trans (h.tag _)
      no_tag := fun slot hn => h.no_tag slot (by simpa using hn)
      tls := hx.env _
      no_tls := fun hn => absurd (by simp) hn
      encoding := (hx.env _).trans h.encoding
      no_encoding := fun hn => h.no_encoding (by simpa using hn) }

theorem Tracks.detectEncoding (h : Tracks ctx.request tenancy slots f σ) (hnew : .encoding ∉ slots)
    (hx : Extends σ τ
      [("PGC_ENC", if ctx.request.acceptsGzip then VariantTags.gzipSuffix else [])]) :
    Tracks ctx.request tenancy (slots ++ [.encoding])
      (if ctx.request.acceptsGzip then f.setGzip else f) τ := by
  rw [Findings.setGzip_if (h.no_encoding hnew)]
  exact
    { uri := hx.uri.trans h.uri
      guards := hx.guards
      no_tenant := fun hn =>
        have hold := h.no_tenant (by simpa using hn)
        ⟨(hx.env _).trans hold.1, (hx.env _).trans hold.2⟩
      domain := fun t ht => (hx.env _).trans (h.domain t ht)
      name := fun pattern ht => (hx.env _).trans (h.name pattern ht)
      path := fun pattern ht => (hx.env _).trans (h.path pattern ht)
      tag := fun slot => by cases slot <;> exact (hx.env _).trans (h.tag _)
      no_tag := fun slot hn => h.no_tag slot (by simpa using hn)
      tls := (hx.env _).trans h.tls
      no_tls := fun hn => h.no_tls (by simpa using hn)
      encoding := hx.env _
      no_encoding := fun hn => absurd (by simp) hn }

/-- Only the variables of the tenant change with the tenancy. -/
theorem Tracks.detectTenant (h : Tracks ctx.request tenancy slots f σ) {t : Tenancy}
    {l : List (Text × Text)} {tenant : Tenant} (hx : Extends σ τ l)
    (hl : ∀ v ∈ l, v.1 ∈ ([("PGC_DOMAIN" : Text), "PGC_TENANT", "PGC_URI"] : List Text))
    (hdomain : l.lookup ("PGC_DOMAIN" : Text) = some (Tenant.domainOf ctx.request.host))
    (hpath : ∀ pattern, t = .path pattern →
      l.lookup ("PGC_TENANT" : Text) =
          some ((Tenancy.path pattern).writtenTenant ctx.request).namePrefix ∧
        l.lookup ("PGC_URI" : Text) = some ((Tenancy.path pattern).tenant ctx.request).uri) :
    Tracks ctx.request (some t) (slots ++ [.tenant]) { f with tenant := some tenant } τ := by
  have hsame : ∀ x, x ∉ ([("PGC_DOMAIN" : Text), "PGC_TENANT", "PGC_URI"] : List Text) →
      τ.env x = σ.env x := fun x hn => by
    have hnone : l.lookup x = none := List.lookup_eq_none_iff.2 fun v hv => by
      simp only [bne_iff_ne]
      rintro rfl
      exact hn (hl v hv)
    rw [hx.env, hnone]
    rfl
  exact
    { uri := hx.uri.trans h.uri
      guards := hx.guards
      no_tenant := fun hn => absurd (by simp) hn
      domain := fun u _ => by rw [hx.env, hdomain]; rfl
      name := fun pattern hu => by rw [hx.env, (hpath pattern (Option.some.inj hu)).1]; rfl
      path := fun pattern hu => by rw [hx.env, (hpath pattern (Option.some.inj hu)).2]; rfl
      tag := fun slot => by cases slot <;> exact (hsame _ (by decide)).trans (h.tag _)
      no_tag := fun slot hn => h.no_tag slot (by simpa using hn)
      tls := (hsame _ (by decide)).trans h.tls
      no_tls := fun hn => h.no_tls (by simpa using hn)
      encoding := (hsame _ (by decide)).trans h.encoding
      no_encoding := fun hn => h.no_encoding (by simpa using hn) }

theorem step_selfTest (huri : '\n' ∉ ctx.request.uri) (hσ : σ.uri = ctx.request.uri)
    (hguards : σ.guards = []) (encoding : Text) (t : Option Tenancy) :
    (ctx.request.isSelfTest = true → ∃ target,
      (stepDirectives t encoding .selfTest).foldlM (Directive.run ctx) σ =
        .error (.rewritten Program.selfTestPattern target)) ∧
    (ctx.request.isSelfTest = false →
      (stepDirectives t encoding .selfTest).foldlM (Directive.run ctx) σ = .ok σ) := by
  have hfound := Pattern.found_selfTest huri
  rw [stepDirectives, foldlM_run_singleton, Directive.run, hσ]
  constructor
  · intro h
    obtain ⟨groups, hg⟩ := Pattern.exists_captures? (hfound.trans h)
    rw [hg, hguards]
    exact ⟨_, rfl⟩
  · intro h
    rw [Pattern.captures?_eq_none (hfound.trans h), ← hguards, ← hσ]

theorem applyRule_redirect (uri : Text) (scope : Scope) (target : Text) :
    applyRule ctx uri scope ".*" (.given target) [.redirect, .last] =
      .error (.redirected target) := by
  have hne : Word.given target ≠ .bare "-" := fun h => by cases congrArg Word.verbatim h
  rw [applyRule, if_neg hne]
  rfl

theorem step_redirect (hguards : σ.guards = []) (encoding : Text) (t : Option Tenancy)
    (subject : Subject) (pattern target : Text) :
    (Pattern.found true pattern (subject.value ctx.request) = true →
      (stepDirectives t encoding (.redirect subject pattern target)).foldlM (Directive.run ctx) σ =
        .error (.redirected target)) ∧
    (Pattern.found true pattern (subject.value ctx.request) = false →
      (stepDirectives t encoding (.redirect subject pattern target)).foldlM (Directive.run ctx) σ =
        .ok σ) := by
  obtain ⟨rule, hrule⟩ := exists_captures?_anything σ.uri
  have hcond : Directive.run ctx σ (caselessCondition (subjectVariable subject) false pattern) =
      .ok { σ with guards := [⟨.bare (subjectVariable subject), .pattern false pattern, true, false⟩] } := by
    rw [caselessCondition, Directive.run, hguards]
    rfl
  have hrun : (stepDirectives t encoding (.redirect subject pattern target)).foldlM
      (Directive.run ctx) σ =
      Directive.run ctx
        { σ with guards :=
            [⟨.bare (subjectVariable subject), .pattern false pattern, true, false⟩] }
        (.rule ".*" (.given target) [.redirect, .last]) := by
    rw [stepDirectives, List.foldlM_cons, hcond]
    exact foldlM_run_singleton _
  rw [hrun, Directive.run, hrule]
  simp only [satisfy, test_pattern pattern (expand_subject subject)]
  constructor
  · intro h
    rw [h]
    exact applyRule_redirect _ _ _
  · intro h
    rw [h, ← hguards]
    rfl

theorem step_detectTenant {encoding : Text} {tenancy' : Option Tenancy} (t : Tenancy)
    (h : Tracks ctx.request tenancy slots f σ) (hnew : .tenant ∉ slots) :
    ∃ τ, (stepDirectives tenancy' encoding (.detectTenant t)).foldlM (Directive.run ctx) σ = .ok τ ∧
      Tracks ctx.request (some t) (slots ++ [.tenant])
        { f with tenant := some (t.tenant ctx.request) } τ := by
  obtain ⟨hdomain, hname⟩ := h.no_tenant hnew
  cases t with
  | domain =>
    obtain ⟨τ, hτ, hx⟩ := @assigns_domain ctx σ h.guards hdomain
    exact ⟨τ, hτ, h.detectTenant hx (by simp) rfl fun pattern hp => by cases hp⟩
  | path pattern =>
    obtain ⟨τ, hτ, hx⟩ := (@assigns_domain ctx σ h.guards hdomain).append
      fun τ hτ => assigns_path hτ.guards ((hτ.env _).trans hname) pattern
    refine ⟨τ, hτ, h.detectTenant hx (by simp) rfl fun pattern' hp => ?_⟩
    cases hp
    exact ⟨rfl, rfl⟩

theorem Tracks.concat {past : List Step} {s : Step} {r : Request}
    (h : Tracks r (s.tenancyAfter (Step.tenancyOf past)) (Step.slots past ++ s.slot?.toList) f σ) :
    Tracks r (Step.tenancyOf (past ++ [s])) (Step.slots (past ++ [s])) f σ := by
  rwa [Step.tenancyOf_concat, Step.slots_concat]

/-- A step in front ends the run where the program does, or goes on with what it finds out. -/
theorem step_front (documentRoot : Text) (huri : '\n' ∉ ctx.request.uri) (encoding : Text)
    (past : List Step) (s : Step) (f : Findings) (σ : State) (hs : s.isFront = true)
    (hfresh : ∀ slot, s.slot? = some slot → slot ∉ Step.slots past)
    (h : Tracks ctx.request (Step.tenancyOf past) (Step.slots past) f σ) :
    match s.halt? ctx.request with
    | some d => ∃ o, (stepDirectives (Step.tenancyOf past) encoding s).foldlM
        (Directive.run ctx) σ = .error o ∧ Agrees documentRoot o d
    | none => ∃ τ, (stepDirectives (Step.tenancyOf past) encoding s).foldlM
        (Directive.run ctx) σ = .ok τ ∧
          Tracks ctx.request (Step.tenancyOf (past ++ [s])) (Step.slots (past ++ [s]))
            (s.find ctx.request f) τ := by
  cases s with
  | selfTest =>
    obtain ⟨hhalt, hpass⟩ := step_selfTest huri h.uri h.guards encoding (Step.tenancyOf past)
    rw [Step.halt?]
    cases hr : ctx.request.isSelfTest with
    | true =>
      obtain ⟨target, ht⟩ := hhalt hr
      exact ⟨_, ht, .selfTest target⟩
    | false =>
      refine ⟨σ, hpass hr, .concat ?_⟩
      simpa [Step.slot?, Step.tenancyAfter, Step.find] using h
  | redirect subject pattern target =>
    obtain ⟨hhalt, hpass⟩ := @step_redirect ctx σ h.guards encoding (Step.tenancyOf past)
      subject pattern target
    rw [Step.halt?]
    cases hr : Pattern.found true pattern (subject.value ctx.request) with
    | true => exact ⟨_, hhalt hr, .redirect target⟩
    | false =>
      refine ⟨σ, hpass hr, .concat ?_⟩
      simpa [Step.slot?, Step.tenancyAfter, Step.find] using h
  | detectTenant t =>
    obtain ⟨τ, hτ, htracks⟩ := step_detectTenant t h (hfresh _ rfl)
    exact ⟨τ, hτ, .concat htracks⟩
  | classify slot candidates =>
    obtain ⟨τ, hτ, hx⟩ := @assigns_classify ctx σ h.guards slot
      ((h.tag slot).trans (h.no_tag slot (hfresh _ rfl))) candidates
    exact ⟨τ, hτ, .concat (h.detectTag hx)⟩
  | detectTls =>
    obtain ⟨τ, hτ, hx⟩ := @assigns_tls ctx σ h.guards (h.tls.trans (h.no_tls (hfresh _ rfl)))
    exact ⟨τ, hτ, .concat (h.detectTls (hfresh _ rfl) hx)⟩
  | detectEncoding =>
    obtain ⟨τ, hτ, hx⟩ := @assigns_encoding ctx σ h.guards
      (h.encoding.trans (h.no_encoding (hfresh _ rfl)))
    exact ⟨τ, hτ, .concat (h.detectEncoding (hfresh _ rfl) hx)⟩
  | eligibility ds => cases hs
  | serve target => cases hs

end PageCache.Apache
