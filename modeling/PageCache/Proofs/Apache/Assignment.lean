import PageCache.Proofs.Apache.Run
import PageCache.Proofs.Pattern.Fixed

/-! Rules that assign variables of the environment under a condition. Each detection of a program is
made of them. -/
namespace PageCache.Apache

attribute [local irreducible] Pattern.captures? Pattern.found

variable {ctx : Context} {σ τ : State}

/-- The second state differs from the first one in the values given, of which the first one counts
where a variable has several, and no condition is kept. -/
structure Extends (σ τ : State) (l : List (Text × Text)) : Prop where
  uri : τ.uri = σ.uri
  guards : τ.guards = []
  env : ∀ x, τ.env x = (l.lookup x).getD (σ.env x)

/-- The directives are run to the end and set variables to the values given. -/
def Assigns (ctx : Context) (σ : State) (ds : List Directive) (l : List (Text × Text)) : Prop :=
  ∃ τ, ds.foldlM (Directive.run ctx) σ = .ok τ ∧ Extends σ τ l

theorem Assigns.nil (hσ : σ.guards = []) : Assigns ctx σ [] [] := ⟨σ, rfl, rfl, hσ, fun _ => rfl⟩

theorem Assigns.append {ds ds' : List Directive} {l l' : List (Text × Text)}
    (h : Assigns ctx σ ds l) (h' : ∀ τ, Extends σ τ l → Assigns ctx τ ds' l') :
    Assigns ctx σ (ds ++ ds') (l' ++ l) := by
  obtain ⟨τ, hτ, hx⟩ := h
  obtain ⟨υ, hυ, hy⟩ := h' τ hx
  refine ⟨υ, ?_, hy.uri.trans hx.uri, hy.guards, fun x => ?_⟩
  · rw [List.foldlM_append, hτ]
    exact hυ
  · rw [hy.env, hx.env, List.lookup_append]
    cases l'.lookup x <;> rfl

theorem Assigns.congr {ds : List Directive} {l l' : List (Text × Text)} (h : Assigns ctx σ ds l)
    (hl : ∀ x, (l.lookup x).getD (σ.env x) = (l'.lookup x).getD (σ.env x)) :
    Assigns ctx σ ds l' := by
  obtain ⟨τ, hτ, hx⟩ := h
  exact ⟨τ, hτ, hx.uri, hx.guards, fun x => by rw [hx.env, hl]⟩

theorem exists_captures?_anything (uri : Text) :
    ∃ groups, Pattern.captures? false ".*" uri = some groups :=
  Pattern.exists_captures? (Pattern.found_anything uri)

def assignAll (ctx : Context) (scope : Scope) (values : List (Text × Word)) : Text → Text :=
  assign ctx scope (values.map fun v => .env v.1 v.2)

theorem foldlM_run_singleton (d : Directive) :
    [d].foldlM (Directive.run ctx) σ = d.run ctx σ := by simp

/-- A rule that sets variables, whatever its pattern captures. -/
theorem run_setEnv (ctx : Context) (σ : State) (values : List (Text × Word)) : ∃ rule : Groups,
    (setEnv values).run ctx σ =
      match satisfy ctx false { env := σ.env, rule := rule } σ.guards with
      | none => .ok { σ with guards := [] }
      | some scope => .ok { uri := σ.uri, env := assignAll ctx scope values } := by
  obtain ⟨rule, hrule⟩ := exists_captures?_anything σ.uri
  have hlast : (values.map fun v => RuleFlag.env v.1 v.2).contains .last = false := by
    induction values with
    | nil => rfl
    | cons v values ih => exact ih
  refine ⟨rule, ?_⟩
  rw [setEnv, Directive.run, hrule]
  simp only [applyRule, hlast]
  rfl

theorem assigns_setEnv {values : List (Text × Word)} {l : List (Text × Text)} (hσ : σ.guards = [])
    (hl : ∀ rule x, assignAll ctx { env := σ.env, rule := rule } values x =
      (l.lookup x).getD (σ.env x)) : Assigns ctx σ [setEnv values] l := by
  obtain ⟨rule, hrule⟩ := run_setEnv ctx σ values
  rw [hσ] at hrule
  exact ⟨_, (foldlM_run_singleton _).trans hrule, rfl, rfl, hl rule⟩

/-- Under a condition they are set where it holds. -/
theorem assigns_guarded {subject : Word} {check : Check} {ignoreCase b : Bool}
    {values : List (Text × Word)} {l : List (Text × Text)} (hσ : σ.guards = [])
    (hg : ∀ rule, ∃ condition,
      Guard.test ctx { env := σ.env, rule := rule } ⟨subject, check, ignoreCase, false⟩ =
        (b, { env := σ.env, rule := rule, condition := condition }) ∧
      (b = true → ∀ x, assignAll ctx { env := σ.env, rule := rule, condition := condition } values x =
        (l.lookup x).getD (σ.env x))) :
    Assigns ctx σ [.cond subject check ignoreCase false, setEnv values] (if b then l else []) := by
  have hcond : Directive.run ctx σ (.cond subject check ignoreCase false) =
      .ok { σ with guards := [⟨subject, check, ignoreCase, false⟩] } := by
    rw [Directive.run, hσ]
    rfl
  obtain ⟨rule, hrule⟩ := run_setEnv ctx
    { σ with guards := [⟨subject, check, ignoreCase, false⟩] } values
  obtain ⟨condition, htest, hset⟩ := hg rule
  rw [satisfy, htest] at hrule
  have hrun : [.cond subject check ignoreCase false, setEnv values].foldlM (Directive.run ctx) σ =
      (setEnv values).run ctx { σ with guards := [⟨subject, check, ignoreCase, false⟩] } := by
    rw [List.foldlM_cons, hcond]
    exact foldlM_run_singleton _
  cases b with
  | false => exact ⟨_, hrun.trans hrule, rfl, rfl, fun _ => rfl⟩
  | true => exact ⟨_, hrun.trans hrule, rfl, rfl, hset rfl⟩

theorem assignAll_one {scope : Scope} {x v : Text} {w : Word} (hw : word ctx scope w = v)
    (y : Text) : assignAll ctx scope [(x, w)] y =
      (([(x, v)] : List (Text × Text)).lookup y).getD (scope.env y) := by
  have h : assignAll ctx scope [(x, w)] = Function.update scope.env x (word ctx scope w) := rfl
  rw [h, hw, Function.update_apply, List.lookup_cons]
  by_cases hy : y = x
  · rw [if_pos hy, beq_iff_eq.2 hy]
    rfl
  · rw [if_neg hy, beq_false_of_ne hy]
    rfl

/-- The second of two words does not depend on the variable that the first one is assigned to. -/
theorem assignAll_two {scope : Scope} {x y u v : Text} {w w' : Word} (hw : word ctx scope w = u)
    (hw' : ∀ env, word ctx { scope with env := env } w' = v) (z : Text) :
    assignAll ctx scope [(x, w), (y, w')] z =
      (([(y, v), (x, u)] : List (Text × Text)).lookup z).getD (scope.env z) := by
  have h : assignAll ctx scope [(x, w), (y, w')] =
      Function.update (Function.update scope.env x (word ctx scope w)) y
        (word ctx { scope with env := Function.update scope.env x (word ctx scope w) } w') := rfl
  rw [h, hw, hw', Function.update_apply, Function.update_apply, List.lookup_cons, List.lookup_cons]
  by_cases hy : z = y
  · rw [if_pos hy, beq_iff_eq.2 hy]
    rfl
  · rw [if_neg hy, beq_false_of_ne hy]
    by_cases hx : z = x
    · rw [if_pos hx, beq_iff_eq.2 hx]
      rfl
    · rw [if_neg hx, beq_false_of_ne hx]
      rfl

section
variable {scope : Scope}

theorem expand_subject (s : Subject) : expand ctx scope (subjectVariable s) = s.value ctx.request := by
  cases s with
  | userAgent => exact (@expands_variable ctx scope "HTTP_USER_AGENT" (by decide) (by decide)).expand_eq
  | referrerCookie => exact (@expands_variable ctx scope "HTTP_COOKIE" (by decide) (by decide)).expand_eq

theorem expand_requestUri : expand ctx scope requestUri = ctx.request.uri :=
  (@expands_variable ctx scope "REQUEST_URI" (by decide) (by decide)).expand_eq

theorem test_pattern {subject v : Text} {ignoreCase either : Bool} (p : Text)
    (hv : expand ctx scope subject = v) :
    Guard.test ctx scope ⟨.bare subject, .pattern false p, ignoreCase, either⟩ =
      (Pattern.found ignoreCase p v,
        { scope with condition := (Pattern.captures? ignoreCase p v).getD scope.condition }) := by
  rw [← hv]
  rfl

theorem test_negated {subject v : Text} {ignoreCase either : Bool} (p : Text)
    (hv : expand ctx scope subject = v) :
    Guard.test ctx scope ⟨.bare subject, .pattern true p, ignoreCase, either⟩ =
      (!Pattern.found ignoreCase p v, scope) := by
  rw [← hv]
  rfl

theorem test_equal {subject v u : Text} {w : Word} (hv : expand ctx scope subject = v)
    (hu : word ctx scope w = u) :
    Guard.test ctx scope ⟨.bare subject, .equal w, false, false⟩ = (v == u, scope) := by
  rw [← hv, ← hu]
  rfl

theorem test_notEqual {subject v u : Text} {w : Word} (hv : expand ctx scope subject = v)
    (hu : word ctx scope w = u) :
    Guard.test ctx scope ⟨.bare subject, .notEqual w, false, false⟩ = (v != u, scope) := by
  rw [← hv, ← hu]
  rfl

end

/-- A variable gets a value where a pattern is found. -/
theorem assigns_found {subject v x tag : Text} {ignoreCase : Bool} {w : Word} (p : Text)
    (hσ : σ.guards = []) (hv : ∀ scope, expand ctx scope subject = v)
    (hw : ∀ scope, word ctx scope w = tag) :
    Assigns ctx σ [.cond (.bare subject) (.pattern false p) ignoreCase false, setEnv [(x, w)]]
      (if Pattern.found ignoreCase p v then [(x, tag)] else []) :=
  assigns_guarded hσ fun _ => ⟨_, test_pattern p (hv _), fun _ => assignAll_one (hw _)⟩

theorem assigns_candidates (hσ : σ.guards = []) (slot : TagSlot) (candidates : List TagCandidate) :
    Assigns ctx σ (classifyDirectives slot candidates)
      ((candidates.find? fun c =>
        Pattern.found true c.pattern (slot.subject.value ctx.request)).map fun c =>
          (slotVariable slot, c.tag)).toList := by
  induction candidates with
  | nil => exact Assigns.nil hσ
  | cons c candidates ih =>
    rw [classifyDirectives, List.reverse_cons, List.flatMap_append]
    refine (ih.append fun τ hτ => assigns_found c.pattern hτ.guards
      (fun _ => expand_subject slot.subject) fun _ => word_of_plain (.inl rfl)).congr fun x => ?_
    rw [List.find?_cons]
    cases Pattern.found true c.pattern (slot.subject.value ctx.request) with
    | false => rfl
    | true =>
      simp only [if_true, List.cons_append, List.nil_append, List.lookup_cons, Option.map_some,
        Option.toList_some]
      cases hx : x == slotVariable slot with
      | true => rfl
      | false =>
        cases candidates.find? fun c =>
          Pattern.found true c.pattern (slot.subject.value ctx.request) with
        | none => rfl
        | some d => simp [hx]

/-- A variable that is empty gets the tag of the candidate that takes precedence. -/
theorem assigns_classify (hσ : σ.guards = []) (slot : TagSlot) (hempty : σ.env (slotVariable slot) = [])
    (candidates : List TagCandidate) :
    Assigns ctx σ (classifyDirectives slot candidates)
      [(slotVariable slot, TagCandidate.select candidates (slot.subject.value ctx.request))] := by
  refine (assigns_candidates hσ slot candidates).congr fun x => ?_
  rw [TagCandidate.select]
  cases candidates.find? fun c => Pattern.found true c.pattern (slot.subject.value ctx.request) with
  | some c => rfl
  | none =>
    simp only [Option.map_none, Option.toList_none, List.lookup_nil, List.lookup_cons,
      Option.getD_none]
    cases hx : x == slotVariable slot with
    | false => rfl
    | true =>
      rw [beq_iff_eq.1 hx]
      exact hempty

theorem beq_https (r : Request) :
    ((if r.https then ("on" : Text) else "off") == ("on" : Text)) = r.https := by
  cases r.https <;> rfl

/-- A variable gets a value where another one is equal to a word. -/
theorem assigns_equal {subject v x tag : Text} {u w : Word} {b : Bool} (hσ : σ.guards = [])
    (hv : ∀ scope, expand ctx scope subject = v) (hu : ∀ scope, word ctx scope u = u.text)
    (hb : (v == u.text) = b) (hw : ∀ scope, word ctx scope w = tag) :
    Assigns ctx σ [condition subject (.equal u), setEnv [(x, w)]] (if b then [(x, tag)] else []) :=
  assigns_guarded hσ fun _ =>
    ⟨_, (test_equal (hv _) (hu _)).trans (by rw [hb]), fun _ => assignAll_one (hw _)⟩

theorem assigns_tls (hσ : σ.guards = []) (hempty : σ.env "PGC_SSL" = []) :
    Assigns ctx σ tlsDirectives
      [("PGC_SSL", if ctx.request.isTls then VariantTags.tlsTag else [])] := by
  have hmark : ∀ scope, word ctx scope (.bare VariantTags.tlsTag) = VariantTags.tlsTag :=
    fun scope => word_of_plain (.inr (by decide))
  have hscheme : Assigns ctx σ
      [condition "%\x7bHTTPS\x7d" (.equal (.bare "on")),
        setEnv [("PGC_SSL", .bare VariantTags.tlsTag)]]
      (if ctx.request.https then [("PGC_SSL", VariantTags.tlsTag)] else []) :=
    assigns_equal hσ
      (fun scope => (@expands_variable ctx scope "HTTPS" (by decide) (by decide)).expand_eq)
      (fun scope => word_of_plain (.inr (by decide))) (beq_https ctx.request) hmark
  have hport : ∀ τ : State, τ.guards = [] → Assigns ctx τ
      [condition "%\x7bSERVER_PORT\x7d" (.equal (.bare "443")),
        setEnv [("PGC_SSL", .bare VariantTags.tlsTag)]]
      (if ctx.request.port == Request.tlsPort then [("PGC_SSL", VariantTags.tlsTag)] else []) :=
    fun τ hτ => assigns_equal hτ
      (fun scope => (@expands_variable ctx scope "SERVER_PORT" (by decide) (by decide)).expand_eq)
      (fun scope => word_of_plain (.inr (by decide))) ctx.request.beq_tlsPort hmark
  refine (hscheme.append fun τ hτ => hport τ hτ.guards).congr fun x => ?_
  rw [Request.isTls]
  cases hx : x == "PGC_SSL".toList with
  | true =>
    rw [beq_iff_eq.1 hx, hempty]
    cases ctx.request.https <;> cases ctx.request.port == Request.tlsPort <;> rfl
  | false =>
    cases ctx.request.https <;> cases ctx.request.port == Request.tlsPort <;>
      simp only [if_true, Bool.false_eq_true, if_false, List.nil_append, List.cons_append,
        List.lookup_cons, List.lookup_nil, hx]

theorem assigns_encoding (hσ : σ.guards = []) (hempty : σ.env "PGC_ENC" = []) :
    Assigns ctx σ encodingDirectives
      [("PGC_ENC", if ctx.request.acceptsGzip then VariantTags.gzipSuffix else [])] := by
  have h : Assigns ctx σ encodingDirectives
      (if Pattern.found false "gzip" ctx.request.acceptEncoding then
        [("PGC_ENC", VariantTags.gzipSuffix)] else []) :=
    assigns_found "gzip" hσ
      (fun scope =>
        (@expands_variable ctx scope "HTTP:Accept-Encoding" (by decide) (by decide)).expand_eq)
      fun scope => word_of_plain (.inr (by decide))
  refine h.congr fun x => ?_
  rw [Pattern.found_gzip, Request.acceptsGzip]
  cases ctx.request.acceptEncoding.includes "gzip" with
  | true => rfl
  | false =>
    cases hx : x == "PGC_ENC".toList with
    | false => simp only [Bool.false_eq_true, if_false, List.lookup_cons, List.lookup_nil, hx]
    | true =>
      rw [beq_iff_eq.1 hx, hempty]
      rfl

theorem word_first (scope : Scope) :
    word ctx scope (.bare "%1.") = (scope.condition.lookup 1).getD [] ++ ['.'] := by
  have h : word ctx scope (.bare "%1.") = [] ++ ((scope.condition.lookup 1).getD [] ++ ['.'] ++ []) :=
    rfl
  rw [h]
  simp

theorem word_second (scope : Scope) :
    word ctx scope (.bare "%2") = (scope.condition.lookup 2).getD [] := by
  have h : word ctx scope (.bare "%2") = [] ++ ((scope.condition.lookup 2).getD [] ++ [] ++ []) := rfl
  rw [h]
  simp

theorem assigns_domain (hσ : σ.guards = []) (hempty : σ.env "PGC_DOMAIN" = []) : Assigns ctx σ
    [condition "%\x7bHTTP_HOST\x7d" (.pattern false Tenant.hostPattern),
      setEnv [("PGC_DOMAIN", .bare "%2")]]
    [("PGC_DOMAIN", Tenant.domainOf ctx.request.host)] := by
  have h : Assigns ctx σ
      [condition "%\x7bHTTP_HOST\x7d" (.pattern false Tenant.hostPattern),
        setEnv [("PGC_DOMAIN", .bare "%2")]]
      (if Pattern.found false Tenant.hostPattern ctx.request.host then
        [("PGC_DOMAIN", Tenant.domainOf ctx.request.host)] else []) :=
    assigns_guarded hσ fun rule => ⟨_, test_pattern _
      (@expands_variable ctx _ "HTTP_HOST" (by decide) (by decide)).expand_eq, fun hb => by
        obtain ⟨groups, hg⟩ := Pattern.exists_captures? hb
        refine assignAll_one ?_
        rw [word_second, hg, Tenant.domainOf, hg]
        rfl⟩
  refine h.congr fun x => ?_
  cases hb : Pattern.found false Tenant.hostPattern ctx.request.host with
  | true => rfl
  | false =>
    cases hx : x == "PGC_DOMAIN".toList with
    | false => simp only [Bool.false_eq_true, if_false, List.lookup_cons, List.lookup_nil, hx]
    | true =>
      rw [beq_iff_eq.1 hx, hempty, Tenant.domainOf, Pattern.captures?_eq_none hb]
      rfl

/-- Where the pattern is found, the name and the rest of the path are set, and otherwise the path is
the rest by itself. -/
theorem assigns_path (hσ : σ.guards = []) (hempty : σ.env "PGC_TENANT" = []) (pattern : Text) :
    Assigns ctx σ
      [setEnv [("PGC_URI", .bare requestUri)], condition requestUri (.pattern false pattern),
        setEnv [("PGC_TENANT", .bare "%1."), ("PGC_URI", .bare "%2")]]
      [("PGC_URI", ((Tenancy.path pattern).tenant ctx.request).uri),
        ("PGC_TENANT", ((Tenancy.path pattern).writtenTenant ctx.request).namePrefix)] := by
  have hstart : Assigns ctx σ [setEnv [("PGC_URI", .bare requestUri)]]
      [("PGC_URI", ctx.request.uri)] :=
    assigns_setEnv hσ fun rule => assignAll_one expand_requestUri
  have hblock : ∀ τ : State, τ.guards = [] → Assigns ctx τ
      [condition requestUri (.pattern false pattern),
        setEnv [("PGC_TENANT", .bare "%1."), ("PGC_URI", .bare "%2")]]
      (if Pattern.found false pattern ctx.request.uri then
        [("PGC_URI", ((Tenancy.path pattern).tenant ctx.request).uri),
          ("PGC_TENANT", ((Tenancy.path pattern).writtenTenant ctx.request).namePrefix)]
      else []) := by
    refine fun τ hτ => assigns_guarded hτ fun rule => ⟨_, test_pattern _ expand_requestUri, ?_⟩
    intro hb
    obtain ⟨groups, hg⟩ := Pattern.exists_captures? hb
    rw [Tenancy.writtenTenant, Tenancy.tenant_path, hg]
    exact assignAll_two (word_first _) fun env => word_second _
  refine (hstart.append fun τ hτ => hblock τ hτ.guards).congr fun x => ?_
  cases hb : Pattern.found false pattern ctx.request.uri with
  | true =>
    simp only [if_true, List.cons_append, List.nil_append, List.lookup_cons]
    cases hx : x == "PGC_URI".toList <;> cases hy : x == "PGC_TENANT".toList <;> rfl
  | false =>
    rw [Tenancy.writtenTenant, Tenancy.tenant_path, Pattern.captures?_eq_none hb]
    simp only [Bool.false_eq_true, if_false, List.nil_append, List.lookup_cons, List.lookup_nil]
    cases hx : x == "PGC_URI".toList with
    | true => rfl
    | false =>
      cases hy : x == "PGC_TENANT".toList with
      | false => rfl
      | true =>
        rw [beq_iff_eq.1 hy, hempty]
        rfl

end PageCache.Apache
