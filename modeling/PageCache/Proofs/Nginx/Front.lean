import PageCache.Proofs.Nginx.Assignment

/-! The directives of the steps in front. They end the run where the program does, and otherwise the
variables hold what the program has found out. -/
namespace PageCache.Nginx

attribute [local irreducible] Pattern.captures? Pattern.found

variable {ctx : Context} {σ τ : State}

/-- The outcome of the directives stands for the decision. A page is served from the same file up to
repeated slashes, and no variable is read before it is set. -/
inductive Agrees (documentRoot : Text) : Outcome → Decision → Prop
  | selfTest (target : Text) :
    Agrees documentRoot (.rewritten Program.selfTestPattern target .last) .selfTest
  | redirect (target : Text) :
    Agrees documentRoot (.rewritten ".*" target .redirect) (.redirect target)
  | serve {file path : Text} (h : Path.Alike (documentRoot ++ file) path) :
    Agrees documentRoot (.rewritten ".*" file .last) (.serve path)
  | bypass (reason : Text) : Agrees documentRoot .passed (.bypass reason)
  | miss (path : Text) : Agrees documentRoot .passed (.miss path)

/-- Under a tenancy the variables hold what steps have found out so far. -/
structure Tracks (r : Request) (tenancy : Option Tenancy) (slots : List Slot) (f : Findings)
    (σ : State) : Prop where
  domain : ∀ t, tenancy = some t → σ.get? "$pgc_domain" = some (Tenant.domainOf r.host)
  name : ∀ pattern, tenancy = some (.path pattern) →
    σ.get? "$pgc_tenant" = some ((Tenancy.path pattern).writtenTenant r).namePrefix
  uri : ∀ pattern, tenancy = some (.path pattern) →
    σ.get? "$pgc_uri" = some ((Tenancy.path pattern).tenant r).uri
  device : .tag .device ∈ slots → σ.get? "$pgc_ua" = some f.tags.device
  referrer : .tag .referrer ∈ slots → σ.get? "$pgc_ref" = some f.tags.referrer
  tls : .tls ∈ slots → σ.get? "$pgc_ssl" = some f.tags.tls
  no_tls : .tls ∉ slots → f.tags.tls = []
  encoding : .encoding ∈ slots → σ.get? "$pgc_enc" = some f.tags.encoding
  no_encoding : .encoding ∉ slots → f.tags.encoding = []

variable {tenancy : Option Tenancy} {slots : List Slot} {f : Findings}

/-- The two variables of eligibility are not among those of the findings. -/
theorem Tracks.of_get?_eq {r : Request} (h : Tracks r tenancy slots f σ)
    (hτ : ∀ x : Text, x ≠ "$pgc_rewrite" → x ≠ "$pgc_rewrite2" → τ.get? x = σ.get? x) :
    Tracks r tenancy slots f τ where
  domain t ht := (hτ _ (by decide) (by decide)).trans (h.domain t ht)
  name pattern ht := (hτ _ (by decide) (by decide)).trans (h.name pattern ht)
  uri pattern ht := (hτ _ (by decide) (by decide)).trans (h.uri pattern ht)
  device hm := (hτ _ (by decide) (by decide)).trans (h.device hm)
  referrer hm := (hτ _ (by decide) (by decide)).trans (h.referrer hm)
  tls hm := (hτ _ (by decide) (by decide)).trans (h.tls hm)
  no_tls := h.no_tls
  encoding hm := (hτ _ (by decide) (by decide)).trans (h.encoding hm)
  no_encoding := h.no_encoding

theorem Tracks.of_assigned_eq {r : Request} (h : Tracks r tenancy slots f σ)
    (hτ : τ.assigned = σ.assigned) : Tracks r tenancy slots f τ :=
  h.of_get?_eq fun x _ _ => by rw [State.get?, hτ]

theorem Tracks.detectTag {r : Request} {slot : TagSlot} {tag : Text}
    (h : Tracks r tenancy slots f σ)
    (hx : Extends σ τ [(slotVariable slot, tag)]) :
    Tracks r tenancy (slots ++ [.tag slot]) (f.setTag slot tag) τ where
  domain t ht := by cases slot <;> exact (hx _).trans (h.domain t ht)
  name pattern ht := by cases slot <;> exact (hx _).trans (h.name pattern ht)
  uri pattern ht := by cases slot <;> exact (hx _).trans (h.uri pattern ht)
  device hm := by
    cases slot with
    | device => exact hx _
    | referrer => exact (hx _).trans (h.device (by simpa using hm))
  referrer hm := by
    cases slot with
    | device => exact (hx _).trans (h.referrer (by simpa using hm))
    | referrer => exact hx _
  tls hm := by cases slot <;> exact (hx _).trans (h.tls (by simpa using hm))
  no_tls hm := by cases slot <;> exact h.no_tls (by simpa using hm)
  encoding hm := by cases slot <;> exact (hx _).trans (h.encoding (by simpa using hm))
  no_encoding hm := by cases slot <;> exact h.no_encoding (by simpa using hm)

theorem Tracks.detectTls (h : Tracks ctx.request tenancy slots f σ) (hnew : .tls ∉ slots)
    (hx : Extends σ τ [("$pgc_ssl", if ctx.request.isTls then VariantTags.tlsTag else [])]) :
    Tracks ctx.request tenancy (slots ++ [.tls])
      (if ctx.request.isTls then f.setTls else f) τ := by
  rw [Findings.setTls_if (h.no_tls hnew)]
  exact
    { domain := fun t ht => (hx _).trans (h.domain t ht)
      name := fun pattern ht => (hx _).trans (h.name pattern ht)
      uri := fun pattern ht => (hx _).trans (h.uri pattern ht)
      device := fun hm => (hx _).trans (h.device (by simpa using hm))
      referrer := fun hm => (hx _).trans (h.referrer (by simpa using hm))
      tls := fun _ => hx _
      no_tls := fun hm => absurd (by simp) hm
      encoding := fun hm => (hx _).trans (h.encoding (by simpa using hm))
      no_encoding := fun hm => h.no_encoding (by simpa using hm) }

theorem Tracks.detectEncoding (h : Tracks ctx.request tenancy slots f σ) (hnew : .encoding ∉ slots)
    (hx : Extends σ τ
      [("$pgc_enc", if ctx.request.acceptsGzip then VariantTags.gzipSuffix else [])]) :
    Tracks ctx.request tenancy (slots ++ [.encoding])
      (if ctx.request.acceptsGzip then f.setGzip else f) τ := by
  rw [Findings.setGzip_if (h.no_encoding hnew)]
  exact
    { domain := fun t ht => (hx _).trans (h.domain t ht)
      name := fun pattern ht => (hx _).trans (h.name pattern ht)
      uri := fun pattern ht => (hx _).trans (h.uri pattern ht)
      device := fun hm => (hx _).trans (h.device (by simpa using hm))
      referrer := fun hm => (hx _).trans (h.referrer (by simpa using hm))
      tls := fun hm => (hx _).trans (h.tls (by simpa using hm))
      no_tls := fun hm => h.no_tls (by simpa using hm)
      encoding := fun _ => hx _
      no_encoding := fun hm => absurd (by simp) hm }

/-- Only the variables of the tenant change with the tenancy. -/
theorem Tracks.detectTenant (h : Tracks ctx.request tenancy slots f σ) {t : Tenancy}
    {l : List (Text × Text)} {tenant : Tenant} (hx : Extends σ τ l)
    (hl : ∀ v ∈ l, v.1 ∈ ([("$pgc_domain" : Text), "$pgc_tenant", "$pgc_uri"] : List Text))
    (hdomain : l.lookup ("$pgc_domain" : Text) = some (Tenant.domainOf ctx.request.host))
    (hpath : ∀ pattern, t = .path pattern →
      l.lookup ("$pgc_tenant" : Text) =
          some ((Tenancy.path pattern).writtenTenant ctx.request).namePrefix ∧
        l.lookup ("$pgc_uri" : Text) = some ((Tenancy.path pattern).tenant ctx.request).uri) :
    Tracks ctx.request (some t) (slots ++ [.tenant]) { f with tenant := some tenant } τ := by
  have hsame : ∀ x, x ∉ ([("$pgc_domain" : Text), "$pgc_tenant", "$pgc_uri"] : List Text) →
      τ.get? x = σ.get? x := fun x hn => by
    have hnone : l.lookup x = none := List.lookup_eq_none_iff.2 fun v hv => by
      simp only [bne_iff_ne]
      rintro rfl
      exact hn (hl v hv)
    rw [hx, hnone]
    rfl
  exact
    { domain := fun u hu => by rw [hx, hdomain]; rfl
      name := fun pattern hu => by rw [hx, (hpath pattern (Option.some.inj hu)).1]; rfl
      uri := fun pattern hu => by rw [hx, (hpath pattern (Option.some.inj hu)).2]; rfl
      device := fun hm => (hsame _ (by decide)).trans (h.device (by simpa using hm))
      referrer := fun hm => (hsame _ (by decide)).trans (h.referrer (by simpa using hm))
      tls := fun hm => (hsame _ (by decide)).trans (h.tls (by simpa using hm))
      no_tls := fun hm => h.no_tls (by simpa using hm)
      encoding := fun hm => (hsame _ (by decide)).trans (h.encoding (by simpa using hm))
      no_encoding := fun hm => h.no_encoding (by simpa using hm) }

theorem step_selfTest (huri : '\n' ∉ ctx.request.uri) (encoding : Text) (t : Option Tenancy) :
    (ctx.request.isSelfTest = true → ∃ target,
      (stepDirectives t encoding .selfTest).foldlM (Directive.run ctx) σ =
        .error (.rewritten Program.selfTestPattern target .last)) ∧
    (ctx.request.isSelfTest = false →
      (stepDirectives t encoding .selfTest).foldlM (Directive.run ctx) σ = .ok σ) := by
  have hword : ∀ τ : State, word ctx τ (.bare ("$1?" ++ Program.selfTestToken ++ "=1")) =
      .ok ([] ++ [(τ.groups.lookup 1).getD [] ++ ("?" ++ Program.selfTestToken ++ "=1")].flatten) :=
    fun τ => rfl
  rw [stepDirectives, foldlM_run_singleton, Directive.run, Action.run, Pattern.found_selfTest huri,
    hword]
  constructor
  · intro h
    rw [h]
    exact ⟨_, rfl⟩
  · intro h
    rw [h]
    rfl

theorem step_redirect (encoding : Text) (t : Option Tenancy) (subject : Subject)
    (pattern target : Text) :
    (Pattern.found true pattern (subject.value ctx.request) = true →
      (stepDirectives t encoding (.redirect subject pattern target)).foldlM (Directive.run ctx) σ =
        .error (.rewritten ".*" target .redirect)) ∧
    (Pattern.found true pattern (subject.value ctx.request) = false →
      ∃ τ : State, τ.assigned = σ.assigned ∧
        (stepDirectives t encoding (.redirect subject pattern target)).foldlM (Directive.run ctx) σ =
          .ok τ) := by
  rw [stepDirectives, foldlM_run_singleton, Directive.run,
    test?_insensitive _ (expand_subject subject)]
  constructor
  · intro h
    rw [Word.inQuotes, h]
    have hrun : ∀ τ : State, Action.run ctx τ (.rewrite ".*" (.given target) .redirect) =
        .error (.rewritten ".*" target .redirect) := fun τ => by
      rw [Action.run, Pattern.found_anything, word_of_plain (.inl rfl)]
      rfl
    have hbody : ∀ τ : State, [Action.rewrite ".*" (.given target) .redirect].foldlM
        (Action.run ctx) τ = .error (.rewritten ".*" target .redirect) := fun τ => by
      rw [← hrun τ, List.foldlM_cons, hrun]
      rfl
    exact hbody _
  · intro h
    rw [Word.inQuotes, h]
    exact ⟨σ.bind true pattern (subject.value ctx.request), rfl, rfl⟩

theorem Tracks.start (r : Request) : Tracks r (Step.tenancyOf []) (Step.slots []) {} {} where
  domain t ht := by cases ht
  name pattern ht := by cases ht
  uri pattern ht := by cases ht
  device hm := by cases hm
  referrer hm := by cases hm
  tls hm := by cases hm
  no_tls _ := rfl
  encoding hm := by cases hm
  no_encoding _ := rfl

theorem step_detectTenant {encoding : Text} {tenancy' : Option Tenancy} (t : Tenancy)
    (h : Tracks ctx.request tenancy slots f σ) :
    ∃ τ, (stepDirectives tenancy' encoding (.detectTenant t)).foldlM (Directive.run ctx) σ = .ok τ ∧
      Tracks ctx.request (some t) (slots ++ [.tenant])
        { f with tenant := some (t.tenant ctx.request) } τ := by
  cases t with
  | domain =>
    obtain ⟨τ, hτ, hx⟩ := @assigns_domain ctx σ
    exact ⟨τ, hτ, h.detectTenant hx (by simp) rfl fun pattern hp => by cases hp⟩
  | path pattern =>
    obtain ⟨τ, hτ, hx⟩ := (@assigns_domain ctx σ).append
      fun τ _ => assigns_path pattern
    refine ⟨τ, hτ, h.detectTenant hx (by simp) rfl fun pattern' hp => ?_⟩
    cases hp
    exact ⟨rfl, rfl⟩

theorem Tracks.concat {past : List Step} {s : Step} {r : Request}
    (h : Tracks r (s.tenancyAfter (Step.tenancyOf past)) (Step.slots past ++ s.slot?.toList) f σ) :
    Tracks r (Step.tenancyOf (past ++ [s])) (Step.slots (past ++ [s])) f σ := by
  rwa [Step.tenancyOf_concat, Step.slots_concat]

/-- A step in front ends the run where the program does, or goes on with what it finds out. -/
theorem step_front (documentRoot : Text) (huri : '\n' ∉ ctx.request.uri) (encoding : Text)
    (past : List Step) (s : Step) (f : Findings) (σ : State) (hs : s.isFront = true)
    (hfresh : ∀ slot, s.slot? = some slot → slot ∉ Step.slots past)
    (h : Tracks ctx.request (Step.tenancyOf past) (Step.slots past) f σ) :
    match s.halt? ctx.request with
    | some d => ∃ o, (stepDirectives (Step.tenancyOf past) encoding s).foldlM
        (Directive.run ctx) σ = .error o ∧ Agrees documentRoot o d
    | none => ∃ τ, (stepDirectives (Step.tenancyOf past) encoding s).foldlM
        (Directive.run ctx) σ = .ok τ ∧
          Tracks ctx.request (Step.tenancyOf (past ++ [s])) (Step.slots (past ++ [s]))
            (s.find ctx.request f) τ := by
  cases s with
  | selfTest =>
    obtain ⟨hhalt, hpass⟩ := step_selfTest (σ := σ) huri encoding (Step.tenancyOf past)
    rw [Step.halt?]
    cases hr : ctx.request.isSelfTest with
    | true =>
      obtain ⟨target, ht⟩ := hhalt hr
      exact ⟨_, ht, .selfTest target⟩
    | false => exact ⟨σ, hpass hr, .concat (by simpa [Step.slot?, Step.tenancyAfter, Step.find] using h)⟩
  | redirect subject pattern target =>
    obtain ⟨hhalt, hpass⟩ :=
      step_redirect (σ := σ) encoding (Step.tenancyOf past) subject pattern target
    rw [Step.halt?]
    cases hr : Pattern.found true pattern (subject.value ctx.request) with
    | true => exact ⟨_, hhalt hr, .redirect target⟩
    | false =>
      obtain ⟨τ, hσ, hτ⟩ := hpass hr
      refine ⟨τ, hτ, .concat ?_⟩
      simpa [Step.slot?, Step.tenancyAfter, Step.find] using h.of_assigned_eq hσ
  | detectTenant t =>
    obtain ⟨τ, hτ, htracks⟩ := step_detectTenant t h
    exact ⟨τ, hτ, .concat htracks⟩
  | classify slot candidates =>
    obtain ⟨τ, hτ, hx⟩ := @assigns_classify ctx σ slot candidates
    exact ⟨τ, hτ, .concat (h.detectTag hx)⟩
  | detectTls =>
    obtain ⟨τ, hτ, hx⟩ := @assigns_tls ctx σ
    exact ⟨τ, hτ, .concat (h.detectTls (hfresh _ rfl) hx)⟩
  | detectEncoding =>
    obtain ⟨τ, hτ, hx⟩ := @assigns_encoding ctx σ
    exact ⟨τ, hτ, .concat (h.detectEncoding (hfresh _ rfl) hx)⟩
  | eligibility ds => cases hs
  | serve target => cases hs

end PageCache.Nginx
