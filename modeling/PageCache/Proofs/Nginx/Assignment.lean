import PageCache.Proofs.Nginx.Run
import PageCache.Proofs.Pattern.Fixed
import PageCache.Proofs.Pattern.Threads

/-! Directives that assign variables. Each detection of a program is one of them, whatever the
variables were before. -/
namespace PageCache.Nginx

attribute [local irreducible] Pattern.captures? Pattern.found

variable {ctx : Context} {σ τ : State}

def State.assign (σ : State) (x v : Text) : State := { σ with assigned := (x, v) :: σ.assigned }

abbrev State.get? (σ : State) (x : Text) : Option Text := σ.assigned.lookup x

theorem State.get?_assign (σ : State) (x v y : Text) :
    (σ.assign x v).get? y = if y == x then some v else σ.get? y := by
  rw [State.get?, State.assign, List.lookup_cons]
  cases y == x <;> rfl

/-- The second state differs from the first one in the values given, of which the first one counts
where a variable has several. -/
def Extends (σ τ : State) (l : List (Text × Text)) : Prop :=
  ∀ x, τ.get? x = (l.lookup x).or (σ.get? x)

/-- The directives are run to the end and set variables to the values given. -/
def Assigns (ctx : Context) (σ : State) (ds : List Directive) (l : List (Text × Text)) : Prop :=
  ∃ τ, ds.foldlM (Directive.run ctx) σ = .ok τ ∧ Extends σ τ l

theorem Assigns.congr {ds : List Directive} {l l' : List (Text × Text)} (h : Assigns ctx σ ds l)
    (hl : ∀ x, l.lookup x = l'.lookup x) : Assigns ctx σ ds l' := by
  obtain ⟨τ, hτ, hx⟩ := h
  exact ⟨τ, hτ, fun x => by rw [hx, hl]⟩

theorem Assigns.nil : Assigns ctx σ [] [] := ⟨σ, rfl, fun _ => rfl⟩

theorem Assigns.append {ds ds' : List Directive} {l l' : List (Text × Text)}
    (h : Assigns ctx σ ds l)
    (h' : ∀ τ, Extends σ τ l → Assigns ctx τ ds' l') :
    Assigns ctx σ (ds ++ ds') (l' ++ l) := by
  obtain ⟨τ, hτ, hx⟩ := h
  obtain ⟨υ, hυ, hy⟩ := h' τ hx
  refine ⟨υ, ?_, fun x => ?_⟩
  · rw [List.foldlM_append, hτ]
    exact hυ
  · rw [hy, hx, List.lookup_append, Option.or_assoc]

theorem foldlM_run_singleton (d : Directive) :
    [d].foldlM (Directive.run ctx) σ = d.run ctx σ := by simp

theorem assigns_set {x v : Text} {w : Word} (hw : word ctx σ w = .ok v) :
    Assigns ctx σ [.set x w] [(x, v)] := by
  refine ⟨σ.assign x v, ?_, fun y => ?_⟩
  · rw [foldlM_run_singleton, Directive.set, Directive.run, Action.run, hw]
    rfl
  · rw [State.get?_assign, List.lookup_cons]
    cases y == x <;> rfl

/-- The second of two words does not depend on the variable that the first one is assigned to. -/
theorem assigns_set_set {x y u v : Text} {w w' : Word} (hw : word ctx σ w = .ok u)
    (hw' : word ctx (σ.assign x u) w' = .ok v) :
    Assigns ctx σ [.set x w, .set y w'] [(y, v), (x, u)] := by
  refine ⟨(σ.assign x u).assign y v, ?_, fun z => ?_⟩
  · have hfirst : Directive.run ctx σ (.set x w) = .ok (σ.assign x u) := by
      rw [Directive.set, Directive.run, Action.run, hw]
      rfl
    have hsecond : Directive.run ctx (σ.assign x u) (.set y w') = .ok ((σ.assign x u).assign y v) := by
      rw [Directive.set, Directive.run, Action.run, hw']
      rfl
    rw [List.foldlM_cons, hfirst]
    exact (foldlM_run_singleton _).trans hsecond
  · simp only [State.get?_assign, List.lookup_cons, List.lookup_nil]
    cases z == y <;> cases z == x <;> rfl

/-- A block that assigns variables does so where its condition holds. -/
theorem assigns_block {c : Condition} {b : Bool} {body : List Action} {l : List (Text × Text)}
    (hc : c.test? ctx σ = .ok (b, τ)) (hτ : τ.assigned = σ.assigned)
    (hbody : b = true → Assigns ctx τ (body.map .act) l) :
    Assigns ctx σ [.block c body] (if b then l else []) := by
  cases b with
  | false =>
    refine ⟨τ, ?_, fun x => by rw [State.get?, hτ]; rfl⟩
    rw [foldlM_run_singleton, Directive.run, hc]
    rfl
  | true =>
    obtain ⟨υ, hυ, hx⟩ := hbody rfl
    refine ⟨υ, ?_, fun x => by rw [hx, State.get?, hτ]; rfl⟩
    have hmap : (body.map Directive.act).foldlM (Directive.run ctx) τ =
        body.foldlM (Action.run ctx) τ := by
      rw [List.foldlM_map]
      rfl
    rw [foldlM_run_singleton, Directive.run, hc, ← hυ, hmap]
    rfl

theorem assigns_block_set {c : Condition} {b : Bool} {x v : Text} {w : Word}
    (hc : c.test? ctx σ = .ok (b, τ)) (hτ : τ.assigned = σ.assigned)
    (hw : b = true → word ctx τ w = .ok v) :
    Assigns ctx σ [.block c [.set x w]] (if b then [(x, v)] else []) :=
  assigns_block hc hτ fun hb => assigns_set (hw hb)

/-- A variable starts with one value and gets another one where the condition of a block holds. -/
theorem assigns_set_block {x u v : Text} {w w' : Word} {c : Condition} {b : Bool}
    (hw : word ctx σ w = .ok u)
    (hc : ∀ τ, Extends σ τ [(x, u)] → ∃ υ,
      c.test? ctx τ = .ok (b, υ) ∧ υ.assigned = τ.assigned ∧ (b = true → word ctx υ w' = .ok v)) :
    Assigns ctx σ [.set x w, .block c [.set x w']] [(x, if b then v else u)] := by
  have h : Assigns ctx σ ([.set x w] ++ [.block c [.set x w']])
      ((if b then [(x, v)] else []) ++ [(x, u)]) := (assigns_set hw).append fun τ hτ => by
    obtain ⟨υ, hυ, hassigned, hw'⟩ := hc τ hτ
    exact assigns_block_set hυ hassigned hw'
  refine h.congr fun y => ?_
  cases b with
  | false => rfl
  | true =>
    simp only [if_true, List.cons_append, List.nil_append, List.lookup_cons]
    cases y == x <;> rfl

theorem expand_variable {x v : Text} (hx : isVariable x = true)
    (hv : (builtins ctx ++ σ.assigned).lookup x = some v) : expand ctx σ x = .ok v :=
  (expands_variable hx hv).expand_eq

theorem lookup_builtin {x v : Text} (h : (builtins ctx).lookup x = some v) :
    (builtins ctx ++ σ.assigned).lookup x = some v := by
  rw [List.lookup_append, h]
  rfl

theorem lookup_assigned {x v : Text} (hx : (builtins ctx).lookup x = none)
    (hv : σ.assigned.lookup x = some v) : (builtins ctx ++ σ.assigned).lookup x = some v := by
  rw [List.lookup_append, hx, hv]
  rfl

theorem test?_sensitive {subject v : Text} (pattern : Word) (hv : expand ctx σ subject = .ok v) :
    (Condition.test subject .sensitive pattern).test? ctx σ =
      .ok (Pattern.found false pattern.text v, σ.bind false pattern.text v) := by
  rw [Condition.test?, hv]
  rfl

theorem test?_insensitive {subject v : Text} (pattern : Word) (hv : expand ctx σ subject = .ok v) :
    (Condition.test subject .insensitive pattern).test? ctx σ =
      .ok (Pattern.found true pattern.text v, σ.bind true pattern.text v) := by
  rw [Condition.test?, hv]
  rfl

theorem test?_negated {subject v : Text} (pattern : Word) (hv : expand ctx σ subject = .ok v) :
    (Condition.test subject .negated pattern).test? ctx σ =
      .ok (!Pattern.found false pattern.text v, σ) := by
  rw [Condition.test?, hv]
  rfl

theorem test?_equal {subject u v : Text} {w : Word} (hu : expand ctx σ subject = .ok u)
    (hv : word ctx σ w = .ok v) :
    (Condition.equal subject w).test? ctx σ = .ok (u == v, σ) := by
  rw [Condition.test?, hu, hv]
  rfl

theorem test?_notEqual {subject u v : Text} {w : Word} (hu : expand ctx σ subject = .ok u)
    (hv : word ctx σ w = .ok v) :
    (Condition.notEqual subject w).test? ctx σ = .ok (u != v, σ) := by
  rw [Condition.test?, hu, hv]
  rfl

theorem expand_subject (s : Subject) :
    expand ctx σ (subjectVariable s) = .ok (s.value ctx.request) := by
  cases s <;> exact expand_variable (by decide) (lookup_builtin rfl)

theorem expand_requestUri : expand ctx σ "$request_uri" = .ok ctx.request.uri :=
  expand_variable (by decide) (lookup_builtin rfl)

theorem assigns_candidates (slot : TagSlot) (candidates : List TagCandidate) :
    Assigns ctx σ
      (candidates.reverse.map fun c =>
        .block (.test (subjectVariable slot.subject) .insensitive (.inQuotes c.pattern))
          [.set (slotVariable slot) (.given c.tag)])
      ((candidates.find? fun c =>
        Pattern.found true c.pattern (slot.subject.value ctx.request)).map fun c =>
          (slotVariable slot, c.tag)).toList := by
  induction candidates with
  | nil => exact Assigns.nil
  | cons c candidates ih =>
    rw [List.reverse_cons, List.map_append]
    refine (ih.append fun τ _ => assigns_block_set (test?_insensitive _ (expand_subject _)) rfl
      fun _ => word_of_plain (.inl rfl)).congr fun x => ?_
    rw [List.find?_cons, Word.inQuotes]
    cases Pattern.found true c.pattern (slot.subject.value ctx.request) with
    | false => rfl
    | true =>
      simp only [if_true, List.cons_append, List.nil_append, List.lookup_cons, Option.map_some,
        Option.toList_some]
      cases hx : x == slotVariable slot with
      | true => rfl
      | false =>
        cases candidates.find? fun c =>
          Pattern.found true c.pattern (slot.subject.value ctx.request) with
        | none => rfl
        | some d => simp [hx]

theorem assigns_classify (slot : TagSlot) (candidates : List TagCandidate) :
    Assigns ctx σ (classifyDirectives slot candidates)
      [(slotVariable slot, TagCandidate.select candidates (slot.subject.value ctx.request))] := by
  have h : Assigns ctx σ ([.set (slotVariable slot) (.inQuotes [])] ++ _) _ :=
    (assigns_set (word_of_plain (.inr (by simp [Word.inQuotes])))).append fun τ _ =>
      assigns_candidates slot candidates
  refine h.congr fun x => ?_
  rw [TagCandidate.select]
  cases candidates.find? fun c => Pattern.found true c.pattern (slot.subject.value ctx.request) with
  | none => rfl
  | some c =>
    simp only [Option.map_some, Option.toList_some, List.cons_append, List.nil_append,
      List.lookup_cons, Option.getD_some]
    cases x == slotVariable slot <;> rfl

theorem beq_scheme (r : Request) :
    ((if r.https then ("https" : Text) else "http") == ("https" : Text)) = r.https := by
  cases r.https <;> rfl

theorem assigns_tls : Assigns ctx σ tlsDirectives
    [("$pgc_ssl", if ctx.request.isTls then VariantTags.tlsTag else [])] := by
  have hscheme : ∀ τ : State, (Condition.equal "$scheme" (.bare "https")).test? ctx τ =
      .ok (ctx.request.https, τ) := fun τ => by
    rw [test?_equal (expand_variable (by decide) (lookup_builtin rfl))
      (word_of_plain (.inr (by decide))), Word.bare, beq_scheme]
  have hport : ∀ τ : State, (Condition.equal "$server_port" (.bare "443")).test? ctx τ =
      .ok (ctx.request.port == Request.tlsPort, τ) := fun τ => by
    rw [test?_equal (expand_variable (by decide) (lookup_builtin rfl))
      (word_of_plain (.inr (by decide))), Word.bare, Request.beq_tlsPort]
  have hmark : ∀ τ : State, word ctx τ (.bare VariantTags.tlsTag) = .ok VariantTags.tlsTag :=
    fun τ => word_of_plain (.inr (by decide))
  have h : Assigns ctx σ ([.set "$pgc_ssl" (.inQuotes []),
      .block (.equal "$scheme" (.bare "https")) [.set "$pgc_ssl" (.bare VariantTags.tlsTag)]] ++
      [.block (.equal "$server_port" (.bare "443")) [.set "$pgc_ssl" (.bare VariantTags.tlsTag)]]) _ :=
    (assigns_set_block (word_of_plain (.inr (by simp [Word.inQuotes]))) fun τ _ =>
      ⟨τ, hscheme τ, rfl, fun _ => hmark τ⟩).append fun τ _ =>
        assigns_block_set (hport τ) rfl fun _ => hmark τ
  refine h.congr fun x => ?_
  rw [Request.isTls]
  cases ctx.request.https <;> cases ctx.request.port == Request.tlsPort <;>
    simp only [List.lookup_cons, Bool.or_false, Bool.or_true, if_true, Bool.false_eq_true, if_false,
      List.nil_append, List.cons_append, Word.inQuotes] <;>
    cases x == "$pgc_ssl".toList <;> rfl

theorem assigns_encoding : Assigns ctx σ encodingDirectives
    [("$pgc_enc", if ctx.request.acceptsGzip then VariantTags.gzipSuffix else [])] := by
  refine assigns_set_block (word_of_plain (.inr (by simp [Word.inQuotes]))) fun τ _ =>
    ⟨τ.bind false "gzip" ctx.request.acceptEncoding, ?_, rfl,
      fun _ => word_of_plain (.inr (by decide))⟩
  rw [test?_sensitive _ (expand_variable (by decide) (lookup_builtin rfl)), Word.bare,
    Pattern.found_gzip]
  rfl

theorem word_first : word ctx σ (.bare "$1.") = .ok ((σ.groups.lookup 1).getD [] ++ ['.']) := by
  have h : word ctx σ (.bare "$1.") = .ok ([] ++ [(σ.groups.lookup 1).getD [] ++ ['.']].flatten) :=
    rfl
  rw [h]
  simp

theorem word_second : word ctx σ (.bare "$2") = .ok ((σ.groups.lookup 2).getD []) := by
  have h : word ctx σ (.bare "$2") = .ok ([] ++ [(σ.groups.lookup 2).getD [] ++ []].flatten) := rfl
  rw [h]
  simp

theorem groups_bind {pattern v : Text} {groups : List (ℕ × Text)}
    (h : Pattern.captures? false pattern v = some groups) :
    (σ.bind false pattern v).groups = groups := by
  rw [State.bind, h]
  rfl

theorem assigns_domain : Assigns ctx σ
    [.set "$pgc_domain" (.inQuotes []),
      .block (.test "$http_host" .sensitive (.inQuotes Tenant.hostPattern))
        [.set "$pgc_domain" (.bare "$2")]]
    [("$pgc_domain", Tenant.domainOf ctx.request.host)] := by
  have h : Assigns ctx σ
      [.set "$pgc_domain" (.inQuotes []),
        .block (.test "$http_host" .sensitive (.inQuotes Tenant.hostPattern))
          [.set "$pgc_domain" (.bare "$2")]]
      [("$pgc_domain", if Pattern.found false Tenant.hostPattern ctx.request.host
        then Tenant.domainOf ctx.request.host else [])] :=
    assigns_set_block (word_of_plain (.inr (by simp [Word.inQuotes]))) fun τ _ =>
      ⟨τ.bind false Tenant.hostPattern ctx.request.host,
        test?_sensitive _ (expand_variable (by decide) (lookup_builtin rfl)), rfl, fun hb => by
          obtain ⟨groups, hg⟩ := Pattern.exists_captures? hb
          rw [word_second, groups_bind hg, Tenant.domainOf, hg]
          rfl⟩
  refine h.congr fun x => ?_
  cases hb : Pattern.found false Tenant.hostPattern ctx.request.host with
  | true => rfl
  | false =>
    rw [Tenant.domainOf, Pattern.captures?_eq_none hb]
    rfl

theorem assigns_path (pattern : Text) : Assigns ctx σ
    [.set "$pgc_tenant" (.inQuotes []), .set "$pgc_uri" (.bare "$request_uri"),
      .block (.test "$request_uri" .sensitive (.inQuotes pattern))
        [.set "$pgc_tenant" (.bare "$1."), .set "$pgc_uri" (.bare "$2")]]
    [("$pgc_uri", ((Tenancy.path pattern).tenant ctx.request).uri),
      ("$pgc_tenant", ((Tenancy.path pattern).writtenTenant ctx.request).namePrefix)] := by
  have hstart : Assigns ctx σ
      [.set "$pgc_tenant" (.inQuotes []), .set "$pgc_uri" (.bare "$request_uri")]
      [("$pgc_uri", ctx.request.uri), ("$pgc_tenant", [])] :=
    assigns_set_set (word_of_plain (.inr (by simp [Word.inQuotes]))) expand_requestUri
  have hblock : ∀ τ : State, Assigns ctx τ
      [.block (.test "$request_uri" .sensitive (.inQuotes pattern))
        [.set "$pgc_tenant" (.bare "$1."), .set "$pgc_uri" (.bare "$2")]]
      (if Pattern.found false pattern ctx.request.uri then
        [("$pgc_uri", ((Tenancy.path pattern).tenant ctx.request).uri),
          ("$pgc_tenant", ((Tenancy.path pattern).writtenTenant ctx.request).namePrefix)]
      else []) := by
    refine fun τ => assigns_block (test?_sensitive _ expand_requestUri) rfl fun hb => ?_
    obtain ⟨groups, hg⟩ := Pattern.exists_captures? hb
    have hgroups : (τ.bind false pattern ctx.request.uri).groups = groups := groups_bind hg
    rw [Tenancy.writtenTenant, Tenancy.tenant_path, hg, Tenant.namePrefix, ← hgroups]
    exact assigns_set_set word_first word_second
  refine (hstart.append fun τ _ => hblock τ).congr fun x => ?_
  cases hb : Pattern.found false pattern ctx.request.uri with
  | false =>
    rw [Tenancy.writtenTenant, Tenancy.tenant_path, Pattern.captures?_eq_none hb]
    rfl
  | true =>
    simp only [if_true, List.cons_append, List.nil_append, List.lookup_cons]
    cases hx : x == "$pgc_uri".toList <;> cases hy : x == "$pgc_tenant".toList <;> rfl

end PageCache.Nginx
