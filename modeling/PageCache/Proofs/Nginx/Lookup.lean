import PageCache.Proofs.Nginx.Front

/-! The directives of the lookup. Eligibility is marked in a variable; the page is served from the
file that the variables of the findings spell out. -/
namespace PageCache.Nginx

attribute [local irreducible] Pattern.captures? Pattern.found

variable {ctx : Context} {σ τ : State}

/-- The directives mark the request as ineligible in the given case, and no variable changes apart
from the two of eligibility. -/
def Marks (ctx : Context) (σ : State) (ds : List Directive) (b : Bool) : Prop :=
  ∃ τ, ds.foldlM (Directive.run ctx) σ = .ok τ ∧
    τ.get? "$pgc_rewrite" = (if b then some ("0" : Text) else σ.get? "$pgc_rewrite") ∧
    ∀ x : Text, x ≠ "$pgc_rewrite" → x ≠ "$pgc_rewrite2" → τ.get? x = σ.get? x

theorem Marks.append {ds ds' : List Directive} {b b' : Bool} (h : Marks ctx σ ds b)
    (h' : ∀ τ, ds.foldlM (Directive.run ctx) σ = .ok τ → Marks ctx τ ds' b') :
    Marks ctx σ (ds ++ ds') (b || b') := by
  obtain ⟨τ, hτ, hmark, hother⟩ := h
  obtain ⟨υ, hυ, hmark', hother'⟩ := h' τ hτ
  refine ⟨υ, ?_, ?_, fun x hx hx' => (hother' x hx hx').trans (hother x hx hx')⟩
  · rw [List.foldlM_append, hτ]
    exact hυ
  · rw [hmark', hmark]
    cases b <;> cases b' <;> rfl

theorem marks_ineligibleIf {c : Condition} {b : Bool} (hc : c.test? ctx σ = .ok (b, τ))
    (hτ : τ.assigned = σ.assigned) : Marks ctx σ [ineligibleIf c] b := by
  obtain ⟨υ, hυ, hx⟩ := assigns_block_set (x := "$pgc_rewrite") hc hτ
    fun _ => word_of_plain (w := .bare "0") (.inr (by decide))
  refine ⟨υ, hυ, ?_, fun x hne _ => ?_⟩
  · rw [hx]
    cases b <;> rfl
  · rw [hx]
    cases b with
    | false => rfl
    | true =>
      rw [if_pos rfl, List.lookup_cons, beq_false_of_ne hne]
      rfl

theorem marks_of_assigns {ds : List Directive} {v : Text}
    (h : Assigns ctx σ ds [("$pgc_rewrite2", v)]) : Marks ctx σ ds false := by
  obtain ⟨τ, hτ, hx⟩ := h
  refine ⟨τ, hτ, hx _, fun x _ hne => ?_⟩
  rw [hx, List.lookup_cons, beq_false_of_ne hne]
  rfl

theorem assigns_exception (pattern accepted : Text) : Assigns ctx σ
    [.set "$pgc_rewrite2" (.bare "1"),
      .block (.test "$request_uri" .insensitive (.inQuotes pattern))
        [.set "$pgc_rewrite2" (.bare "0")],
      .block (.test "$request_uri" .insensitive (.inQuotes accepted))
        [.set "$pgc_rewrite2" (.bare "1")]]
    [("$pgc_rewrite2", if Pattern.found true pattern ctx.request.uri &&
      !Pattern.found true accepted ctx.request.uri then "0" else "1")] := by
  have hplain : ∀ (τ : State) (d : Text), '$' ∉ d → word ctx τ (.bare d) = .ok d :=
    fun τ d hd => word_of_plain (.inr hd)
  have hstart : Assigns ctx σ
      [.set "$pgc_rewrite2" (.bare "1"),
        .block (.test "$request_uri" .insensitive (.inQuotes pattern))
          [.set "$pgc_rewrite2" (.bare "0")]]
      [("$pgc_rewrite2", if Pattern.found true pattern ctx.request.uri then "0" else "1")] :=
    assigns_set_block (hplain σ "1" (by decide)) fun τ _ =>
      ⟨_, test?_insensitive (.inQuotes pattern) expand_requestUri, rfl,
        fun _ => hplain _ "0" (by decide)⟩
  have h := hstart.append fun τ _ => assigns_block_set (x := "$pgc_rewrite2")
    (test?_insensitive (.inQuotes accepted) expand_requestUri) rfl fun _ => hplain _ "1" (by decide)
  refine h.congr fun x => ?_
  rw [Word.inQuotes]
  cases Pattern.found true pattern ctx.request.uri <;>
    cases Pattern.found true accepted ctx.request.uri <;>
    simp only [if_true, Bool.false_eq_true, if_false, Bool.and_true, Bool.and_false, Bool.not_true,
      Bool.not_false, List.nil_append, List.cons_append, List.lookup_cons] <;>
    cases x == "$pgc_rewrite2".toList <;> rfl

theorem marks_rejectedUri_some (pattern accepted : Text) :
    Marks ctx σ (disqualifierDirectives (.rejectedUri pattern (some accepted)))
      (Disqualifier.applies (.rejectedUri pattern (some accepted)) ctx.request) := by
  have hmarks : Marks ctx σ
      ([.set "$pgc_rewrite2" (.bare "1"),
        .block (.test "$request_uri" .insensitive (.inQuotes pattern))
          [.set "$pgc_rewrite2" (.bare "0")],
        .block (.test "$request_uri" .insensitive (.inQuotes accepted))
          [.set "$pgc_rewrite2" (.bare "1")]] ++
        [ineligibleIf (.notEqual "$pgc_rewrite2" (.bare "1"))])
      (false || (Pattern.found true pattern ctx.request.uri &&
        !Pattern.found true accepted ctx.request.uri)) := by
    have h := @assigns_exception ctx σ pattern accepted
    refine (marks_of_assigns h).append fun τ hτ => ?_
    obtain ⟨υ, hυ, hx⟩ := h
    obtain rfl : υ = τ := Except.ok.inj (hυ.symm.trans hτ)
    refine marks_ineligibleIf ((test?_notEqual
      (expand_variable (x := "$pgc_rewrite2") (by decide) (lookup_assigned rfl (hx _)))
      (word_of_plain (w := .bare "1") (.inr (by decide)))).trans ?_) rfl
    cases Pattern.found true pattern ctx.request.uri &&
      !Pattern.found true accepted ctx.request.uri <;> rfl
  exact hmarks

/-- The request is marked where the condition of the disqualifier holds. -/
theorem marks_disqualifier
    (hmethod : ctx.request.method.eqIgnoreCase "POST" = true → ctx.request.method = "POST")
    (d : Disqualifier) : Marks ctx σ (disqualifierDirectives d) (d.applies ctx.request) := by
  cases d with
  | unsafeMethod =>
    have hc : (Condition.equal "$request_method" (.bare "POST")).test? ctx σ =
        .ok (ctx.request.method.eqIgnoreCase "POST", σ) := by
      rw [test?_equal (expand_variable (by decide) (lookup_builtin rfl))
        (word_of_plain (.inr (by decide))), Word.bare, Request.beq_post hmethod]
    exact marks_ineligibleIf hc rfl
  | queryString =>
    have hc : (Condition.notEqual "$query_string" (.inQuotes [])).test? ctx σ =
        .ok (!ctx.request.query.isEmpty, σ) := by
      rw [test?_notEqual (expand_variable (by decide) (lookup_builtin rfl))
        (word_of_plain (.inr (by simp [Word.inQuotes]))), Word.inQuotes]
      cases ctx.request.query <;> rfl
    exact marks_ineligibleIf hc rfl
  | trailingSlash expected =>
    cases expected with
    | true =>
      have hc := test?_negated (.bare "\\/$") (@expand_requestUri ctx σ)
      rw [Word.bare, Pattern.found_slashAtEnd] at hc
      exact marks_ineligibleIf hc rfl
    | false =>
      have hc := test?_negated (.bare "[^\\/]$") (@expand_requestUri ctx σ)
      rw [Word.bare, Pattern.found_otherAtEnd, Bool.not_not] at hc
      exact marks_ineligibleIf hc rfl
  | rejectedUri pattern accepted =>
    cases accepted with
    | none =>
      have hc := test?_insensitive (.inQuotes pattern) (@expand_requestUri ctx σ)
      have ha : Disqualifier.applies (.rejectedUri pattern none) ctx.request =
          Pattern.found true pattern ctx.request.uri := Bool.and_true _
      rw [ha]
      exact marks_ineligibleIf hc rfl
    | some accepted => exact marks_rejectedUri_some pattern accepted
  | rejectedCookie pattern =>
    exact marks_ineligibleIf
      (test?_insensitive (.inQuotes pattern) (expand_subject .referrerCookie)) rfl
  | rejectedUserAgent pattern =>
    exact marks_ineligibleIf
      (test?_insensitive (.inQuotes pattern) (expand_subject .userAgent)) rfl

theorem marks_disqualifiers
    (hmethod : ctx.request.method.eqIgnoreCase "POST" = true → ctx.request.method = "POST")
    (ds : List Disqualifier) :
    Marks ctx σ (ds.flatMap disqualifierDirectives) (ds.any (·.applies ctx.request)) := by
  induction ds generalizing σ with
  | nil => exact ⟨σ, rfl, rfl, fun _ _ _ => rfl⟩
  | cons d ds ih =>
    rw [List.flatMap_cons, List.any_cons]
    exact (marks_disqualifier hmethod d).append fun τ _ => ih

/-- Eligibility starts at 1 and ends at 0 where a disqualifier applies. -/
theorem step_eligibility (encoding : Text) (tenancy : Option Tenancy)
    (hmethod : ctx.request.method.eqIgnoreCase "POST" = true → ctx.request.method = "POST")
    (ds : List Disqualifier) :
    ∃ τ, (stepDirectives tenancy encoding (.eligibility ds)).foldlM (Directive.run ctx) σ = .ok τ ∧
      τ.get? "$pgc_rewrite" = some (if ds.any (·.applies ctx.request) then "0" else "1") ∧
      ∀ x : Text, x ≠ "$pgc_rewrite" → x ≠ "$pgc_rewrite2" → τ.get? x = σ.get? x := by
  have hstart : Assigns ctx σ [.set "$pgc_rewrite" (.bare "1")] [("$pgc_rewrite", "1")] :=
    assigns_set (word_of_plain (.inr (by decide)))
  obtain ⟨τ, hτ, hx⟩ := hstart
  obtain ⟨υ, hυ, hmark, hother⟩ := marks_disqualifiers (σ := τ) hmethod ds
  refine ⟨υ, ?_, ?_, fun x hne hne' => (hother x hne hne').trans ?_⟩
  · rw [stepDirectives, ← List.singleton_append, List.foldlM_append, hτ]
    exact hυ
  · rw [hmark, hx]
    cases ds.any (·.applies ctx.request) <;> rfl
  · rw [hx, List.lookup_cons, beq_false_of_ne hne]
    rfl

def segment : Tenancy → Text
  | .domain => TenantSegment.stem ++ "$pgc_domain"
  | .path _ => TenantSegment.stem ++ "$pgc_tenant$pgc_domain"

theorem segment_ne_nil (t : Tenancy) : segment t ≠ [] := by
  cases t <;> exact List.cons_ne_nil _ _

theorem getLast?_segment_ne (t : Tenancy) : (segment t).getLast? ≠ some '/' := by
  have hlast : (segment t).getLast? = some 'n' := by cases t <;> rfl
  rw [hlast]
  decide

def uriVariable : Option Tenancy → Text
  | some (.path _) => "$pgc_uri"
  | _ => "$request_uri"

def encodingVariable (slots : List Slot) : Text := if .encoding ∈ slots then "$pgc_enc" else []

def fileNameWith (encoding : Text) : Text :=
  VariantTags.indexStem ++ "$pgc_ua$pgc_ref$pgc_ssl" ++ VariantTags.htmlExtension ++ encoding

theorem cacheFile_none (target : CacheTarget) (encoding : Text) :
    cacheFile target none encoding =
      target.cachePath ++ ("/" ++ (uriVariable none ++ ("/" ++ fileNameWith encoding))) := by
  rw [show uriVariable none = ("$request_uri" : Text) from rfl]
  simp only [cacheFile, fileNameWith, List.append_assoc]

theorem cacheFile_some {target : CacheTarget} {t : Tenancy} (ht : target.tenancy = some t)
    (encoding : Text) (frame : TenantSegment.Frame target.cachePath) :
    cacheFile target (some t) encoding =
      (frame.before ++ '/' :: segment t ++ frame.after) ++
        ("/" ++ (uriVariable (some t) ++ ("/" ++ fileNameWith encoding))) := by
  have hreplace : ∀ body : Text, body ≠ [] → body.getLast? ≠ some '/' →
      target.templatedPath ('/' :: body ++ ['/']) = frame.before ++ '/' :: body ++ frame.after :=
    fun body hne hlast => by
      rw [CacheTarget.templatedPath, ht]
      exact frame.replace_eq body hne hlast
  rw [← hreplace (segment t) (segment_ne_nil t) (getLast?_segment_ne t)]
  cases t <;> simp only [cacheFile, fileNameWith, List.append_assoc] <;> rfl

variable {tenancy : Option Tenancy} {slots : List Slot} {f : Findings} {v : Text}

theorem expands_assigned {x : Text} (hx : isVariable x = true)
    (hbuiltin : (builtins ctx).lookup x = none) (hv : σ.get? x = some v) : Expands ctx σ x v :=
  expands_variable hx (lookup_assigned hbuiltin hv)

theorem expands_fileName (h : Tracks ctx.request tenancy slots f σ)
    (hdevice : .tag .device ∈ slots) (hreferrer : .tag .referrer ∈ slots) (htls : .tls ∈ slots) :
    Expands ctx σ (fileNameWith (encodingVariable slots)) f.tags.fileName := by
  have hencoding : Expands ctx σ (encodingVariable slots) f.tags.encoding := by
    unfold encodingVariable
    split
    · next hm => exact expands_assigned (by decide) rfl (h.encoding hm)
    · next hm =>
      rw [h.no_encoding hm]
      exact .literal (by simp)
  have htags : Expands ctx σ "$pgc_ua$pgc_ref$pgc_ssl"
      (f.tags.device ++ (f.tags.referrer ++ f.tags.tls)) :=
    (expands_assigned (x := "$pgc_ua") (by decide) rfl (h.device hdevice)).append
      ((expands_assigned (x := "$pgc_ref") (by decide) rfl (h.referrer hreferrer)).append
        (expands_assigned (x := "$pgc_ssl") (by decide) rfl (h.tls htls)) rfl) rfl
  have hend : Expands ctx σ (VariantTags.htmlExtension ++ (encodingVariable slots))
      (VariantTags.htmlExtension ++ f.tags.encoding) := hencoding.literal_append (by decide)
  have hall := (htags.append hend rfl).literal_append (t := VariantTags.indexStem) (by decide)
  rw [fileNameWith, VariantTags.fileName]
  simpa only [List.append_assoc] using hall

theorem expands_segment {t : Tenancy} (h : Tracks ctx.request (some t) slots f σ) :
    Expands ctx σ (segment t) (t.writtenTenant ctx.request).directory := by
  have hdomain : Expands ctx σ "$pgc_domain" (Tenant.domainOf ctx.request.host) :=
    expands_assigned (by decide) rfl (h.domain t rfl)
  cases t with
  | domain =>
    rw [Tenancy.writtenTenant, Tenancy.tenant_domain]
    exact hdomain.literal_append (by decide)
  | path pattern =>
    have hname := @expands_assigned ctx σ _ _ (by decide) rfl (h.name pattern rfl)
    have hd : ((Tenancy.path pattern).writtenTenant ctx.request).domain =
        Tenant.domainOf ctx.request.host := by
      rw [Tenancy.writtenTenant_domain, Tenancy.tenant_path]
    rw [Tenant.directory_eq, hd]
    exact (hname.append hdomain rfl).literal_append (by decide)

theorem expands_uri (h : Tracks ctx.request tenancy slots f σ) :
    Expands ctx σ (uriVariable tenancy)
      (((tenancy.map (·.tenant ctx.request)).map (·.uri)).getD ctx.request.uri) := by
  have hrequest : Expands ctx σ "$request_uri" ctx.request.uri :=
    expands_variable (by decide) (lookup_builtin rfl)
  match tenancy, h with
  | none, _ => exact hrequest
  | some .domain, _ =>
    rw [Option.map_some, Tenancy.tenant_domain]
    exact hrequest
  | some (.path pattern), h => 
    exact expands_assigned (x := "$pgc_uri") (by decide) rfl (h.uri pattern rfl)

/-- In the path of the cached file the variables have their values. Its directory is the one of the
tenant as rules write it, up to repeated slashes. -/
theorem exists_expands_cacheFile (target : CacheTarget) (r : Request)
    (ht : target.tenancy = tenancy) (hcache : Path.Rooted target.cachePath)
    (hdollar : '$' ∉ target.cachePath) (hdevice : .tag .device ∈ slots)
    (hreferrer : .tag .referrer ∈ slots) (htls : .tls ∈ slots) :
    ∃ dir, Path.Rooted dir ∧
      Path.Alike (dir ++ ['/'])
        (target.directory (tenancy.map (·.writtenTenant r)) ++ ['/']) ∧
      ∀ (ctx : Context) (σ : State) (f : Findings), ctx.request = r → Tracks r tenancy slots f σ →
        Expands ctx σ (cacheFile target tenancy (encodingVariable slots))
          (dir ++ "/" ++ ((tenancy.map (·.tenant r)).map (·.uri)).getD r.uri ++ "/" ++
            f.tags.fileName) := by
  have hfile : ∀ (ctx : Context) (σ : State) (f : Findings), ctx.request = r →
      Tracks r tenancy slots f σ →
      Expands ctx σ ("/" ++ (uriVariable tenancy ++ ("/" ++ fileNameWith (encodingVariable slots))))
        ("/" ++ (((tenancy.map (·.tenant r)).map (·.uri)).getD r.uri ++
          ("/" ++ f.tags.fileName))) := by
    rintro ctx σ f rfl h
    have hname := (expands_fileName h hdevice hreferrer htls).literal_append (t := "/") (by decide)
    exact ((expands_uri h).append hname rfl).literal_append (by decide)
  cases tenancy with
  | none =>
    refine ⟨target.cachePath, hcache, rfl, fun ctx σ f hr h => ?_⟩
    rw [cacheFile_none]
    simpa only [List.append_assoc] using (hfile ctx σ f hr h).literal_append hdollar
  | some t =>
    obtain ⟨frame⟩ := TenantSegment.nonempty_frame target.cachePath
    refine ⟨frame.before ++ '/' :: (t.writtenTenant r).directory ++ frame.after,
      frame.rooted hcache _, (frame.alike_replace _).symm, fun ctx σ f hr h => ?_⟩
    subst hr
    have hbefore : '$' ∉ frame.before := fun hm => hdollar (frame.mem_dir _ (.inl hm))
    have hafter : '$' ∉ frame.after := fun hm => hdollar (frame.mem_dir _ (.inr hm))
    have hend := (hfile ctx σ f rfl h).literal_append hafter
    have hnext : goesOn (frame.after ++ ("/" ++ (uriVariable (some t) ++
        ("/" ++ fileNameWith (encodingVariable slots))))) = false := by
      rcases frame.rooted_after with ha | ha
      · rw [ha]
        rfl
      · obtain ⟨a, ha⟩ := List.head?_eq_some_iff.1 ha
        rw [ha]
        rfl
    have hslash : '$' ∉ frame.before ++ ['/'] := by simp [hbefore]
    rw [cacheFile_some ht _ frame]
    simpa only [List.append_assoc, List.cons_append, List.nil_append] using
      ((expands_segment h).append hend hnext).literal_append hslash

theorem goesOn_cacheFile {target : CacheTarget} (ht : target.tenancy = tenancy)
    (hcache : Path.Rooted target.cachePath) (encoding : Text) :
    goesOn (cacheFile target tenancy encoding) = false := by
  have hrooted : ∀ dir rest : Text, Path.Rooted dir → goesOn (dir ++ ("/" ++ rest)) = false := by
    rintro dir rest (rfl | h)
    · rfl
    · obtain ⟨dir, rfl⟩ := List.head?_eq_some_iff.1 h
      rfl
  cases tenancy with
  | none =>
    rw [cacheFile_none]
    exact hrooted _ _ hcache
  | some t =>
    obtain ⟨frame⟩ := TenantSegment.nonempty_frame target.cachePath
    rw [cacheFile_some ht _ frame]
    exact hrooted _ _ (frame.rooted hcache _)

/-- A page is served if the request is eligible and the file exists. -/
theorem step_serve {file : Text} {b : Bool}
    (hmark : σ.get? "$pgc_rewrite" = some (if b then "0" else "1")) (hfile : goesOn file = false)
    (hv : ∀ τ : State, (∀ x : Text, x ≠ "$pgc_rewrite" → x ≠ "$pgc_rewrite2" →
      τ.get? x = σ.get? x) → Expands ctx τ file v) :
    ∃ τ, (serveDirectives file).foldlM (Directive.run ctx) σ =
      if !b && ctx.fileExists (ctx.documentRoot ++ v) then .error (.rewritten ".*" v .last)
      else .ok τ := by
  have hpath : expand ctx σ ("$document_root" ++ file) = .ok (ctx.documentRoot ++ v) :=
    ((expands_variable (by decide) (lookup_builtin rfl)).append (hv σ fun _ _ _ => rfl)
      hfile).expand_eq
  have hmissing : (Condition.noFile ("$document_root" ++ file)).test? ctx σ =
      .ok (!ctx.fileExists (ctx.documentRoot ++ v), σ) := by
    rw [Condition.test?, hpath]
    rfl
  obtain ⟨τ, hτ, hmark', hother⟩ := marks_ineligibleIf hmissing rfl
  have heq : (Condition.equal "$pgc_rewrite" (.bare "1")).test? ctx τ =
      .ok (!b && ctx.fileExists (ctx.documentRoot ++ v), τ) := by
    have hvalue : τ.get? "$pgc_rewrite" =
        some (if !b && ctx.fileExists (ctx.documentRoot ++ v) then "1" else "0") := by
      rw [hmark', hmark]
      cases b <;> cases ctx.fileExists (ctx.documentRoot ++ v) <;> rfl
    rw [test?_equal (expand_variable (by decide) (lookup_assigned rfl hvalue))
      (word_of_plain (.inr (by decide)))]
    cases !b && ctx.fileExists (ctx.documentRoot ++ v) <;> rfl
  have hrewrite : Action.run ctx τ (.rewrite ".*" (.inQuotes file) .last) =
      .error (.rewritten ".*" v .last) := by
    have hw : word ctx (τ.bind false ".*" ctx.request.uri) (.inQuotes file) = .ok v :=
      (hv (τ.bind false ".*" ctx.request.uri) hother).expand_eq
    rw [Action.run, Pattern.found_anything, hw]
    rfl
  refine ⟨τ, ?_⟩
  have hblock : Directive.run ctx τ (.block (.equal "$pgc_rewrite" (.bare "1"))
      [.rewrite ".*" (.inQuotes file) .last]) =
      if !b && ctx.fileExists (ctx.documentRoot ++ v) then .error (.rewritten ".*" v .last)
      else .ok τ := by
    rw [Directive.run, heq]
    cases !b && ctx.fileExists (ctx.documentRoot ++ v) with
    | false => rfl
    | true =>
      have hbody : [Action.rewrite ".*" (.inQuotes file) .last].foldlM (Action.run ctx) τ =
          .error (.rewritten ".*" v .last) := by
        rw [List.foldlM_cons, hrewrite]
        rfl
      exact hbody
  have hfirst : [ineligibleIf (.noFile ("$document_root" ++ file))].foldlM (Directive.run ctx) σ =
      .ok τ := hτ
  rw [serveDirectives, ← List.singleton_append, List.foldlM_append, hfirst, ← hblock]
  exact foldlM_run_singleton _

end PageCache.Nginx
