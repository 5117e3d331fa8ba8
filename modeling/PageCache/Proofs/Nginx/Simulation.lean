import PageCache.Proofs.Nginx.Lookup
import PageCache.Rules

/-! The directives of a program, as Nginx runs them, decide every request as the program does, if
only the pattern of tenants captures a name wherever it matches. -/
namespace PageCache.Nginx

attribute [local irreducible] Pattern.captures? Pattern.found

theorem encodingVariable_front (p : Policy) (s : Site) :
    encodingVariable (Step.slots (Program.front p s)) =
      if (Program.build p s).detectsEncoding then ("$pgc_enc" : Text) else [] := by
  rw [Program.detectsEncoding_build, Program.slots_front, encodingVariable]
  cases Tenancy.ofPolicy p s <;> cases p.compression <;> rfl

/-- The directives after those of the steps in front look up the written file, unless a disqualifier
applies. -/
theorem run_lookup {p : Policy} {s : Site} {ctx : Context} {σ : State} {f : Findings}
    (hctx : ctx.documentRoot = s.documentRoot.trimEndSlashes)
    (hroot : ∃ c ∈ s.documentRoot, c ≠ '/') (hcache : Path.Rooted s.cachePath)
    (hdollar : '$' ∉ s.cachePath)
    (hmethod : ctx.request.method.eqIgnoreCase "POST" = true → ctx.request.method = "POST")
    (h : Tracks ctx.request (Tenancy.ofPolicy p s) (Step.slots (Program.front p s)) f σ) :
    ∃ file, Path.Alike (ctx.documentRoot ++ file)
        (Findings.candidate
          { f with tenant := (Tenancy.ofPolicy p s).map (·.writtenTenant ctx.request) }
          (CacheTarget.ofSite s (Tenancy.ofPolicy p s)) ctx.request) ∧
      ∃ τ, (stepsDirectives (encodingVariable (Step.slots (Program.front p s)))
          (Tenancy.ofPolicy p s) (Program.lookup p s)).foldlM (Directive.run ctx) σ =
        if !(Disqualifier.ofPolicy p).any (·.applies ctx.request) &&
          ctx.fileExists (ctx.documentRoot ++ file) then .error (.rewritten ".*" file .last)
        else .ok τ := by
  have hslots : ∀ slot ∈ [Slot.tag .device, .tag .referrer, .tls],
      slot ∈ Step.slots (Program.front p s) := fun slot hm => by
    rw [Program.slots_front]
    exact List.mem_append_left _ (List.mem_append_right _ hm)
  obtain ⟨dir, hdir, halike, hexpands⟩ := exists_expands_cacheFile
    (CacheTarget.ofSite s (Tenancy.ofPolicy p s)) ctx.request rfl hcache hdollar
    (hslots _ (by simp)) (hslots _ (by simp)) (hslots _ (by simp))
  have hfile := Program.alike_writtenFile p s ctx.request hroot hdir halike f
  rw [← hctx] at hfile
  refine ⟨_, hfile, ?_⟩
  obtain ⟨τ, hτ, hmark, hother⟩ := step_eligibility (σ := σ)
    (encodingVariable (Step.slots (Program.front p s))) (Tenancy.ofPolicy p s) hmethod
    (Disqualifier.ofPolicy p)
  obtain ⟨υ, hυ⟩ := step_serve hmark (goesOn_cacheFile rfl hcache _) fun υ hυ =>
    hexpands ctx υ f rfl ((h.of_get?_eq hother).of_get?_eq hυ)
  refine ⟨υ, Eq.trans ?_ hυ⟩
  rw [Program.lookup, stepsDirectives, List.foldlM_append, hτ, stepsDirectives, stepsDirectives,
    List.append_nil]
  rfl

theorem followsFront {ctx : Context} (huri : '\n' ∉ ctx.request.uri) (encoding : Text) :
    FollowsFront (Directive.run ctx) (stepDirectives · encoding) (stepsDirectives encoding)
      ctx.request (fun past => Tracks ctx.request (Step.tenancyOf past) (Step.slots past))
      (Agrees ctx.documentRoot) where
  cons _ _ _ := rfl
  step := step_front ctx.documentRoot huri encoding

/-- What the directives do is the answer that is given without a look at the files, or a look at the
written file. -/
theorem run_core {p : Policy} {s : Site} {ctx : Context}
    (hctx : ctx.documentRoot = s.documentRoot.trimEndSlashes)
    (hroot : ∃ c ∈ s.documentRoot, c ≠ '/') (hcache : Path.Rooted s.cachePath)
    (hdollar : '$' ∉ s.cachePath) (huri : '\n' ∉ ctx.request.uri)
    (hmethod : ctx.request.method.eqIgnoreCase "POST" = true → ctx.request.method = "POST") :
    match Program.answer? p s ctx.request with
    | some d => Agrees ctx.documentRoot (run ctx (coreDirectives (Program.build p s))) d
    | none => ∃ file, Path.Alike (ctx.documentRoot ++ file)
          (Program.writtenCandidate p s ctx.request) ∧
        run ctx (coreDirectives (Program.build p s)) =
          if ctx.fileExists (ctx.documentRoot ++ file) then .rewritten ".*" file .last
          else .passed := by
  have hstart : run ctx (coreDirectives (Program.build p s)) =
      outcome ((stepsDirectives (encodingVariable (Step.slots (Program.front p s)))
        (Step.tenancyOf []) (Program.front p s ++ Program.lookup p s)).foldlM (Directive.run ctx)
          {}) := by
    rw [run, coreDirectives, ← encodingVariable_front, Program.build_steps]
    rfl
  rw [hstart]
  refine Program.run_front_lookup (followsFront huri _) (Tracks.start ctx.request) (fun _ => rfl)
    (fun _ => rfl) .bypass fun f σ htracks => ?_
  rw [Program.tenancyOf_front] at htracks
  exact run_lookup hctx hroot hcache hdollar hmethod htracks

/-- Under the directives of the core rules, Nginx decides as the program does and reads no variable
before it is set, for all files, unless the pattern of tenants leaves the name unset for a request that
is looked up. -/
theorem nginx_agrees_iff {p : Policy} {s : Site} {r : Request}
    (hroot : ∃ c ∈ s.documentRoot, c ≠ '/') (hcache : Path.Rooted s.cachePath)
    (hdollar : '$' ∉ s.cachePath) (huri : '\n' ∉ r.uri)
    (hmethod : r.method.eqIgnoreCase "POST" = true → r.method = "POST") :
    Server.nginx.rules? .core p s = some (render (coreDirectives (Program.build p s))) ∧
    ((∀ fileExists, Path.SlashBlind fileExists →
      Agrees s.documentRoot.trimEndSlashes
        (run ⟨s.documentRoot.trimEndSlashes, r, fileExists⟩ (coreDirectives (Program.build p s)))
        ((Program.build p s).evaluate r fileExists)) ↔
      ((Program.build p s).ReachesLookup r → ∀ t, Tenancy.ofPolicy p s = some t → t.Names r)) := by
  have hcore := fun fileExists : Text → Bool => @run_core p s
    ⟨s.documentRoot.trimEndSlashes, r, fileExists⟩ rfl hroot hcache hdollar huri hmethod
  refine ⟨rfl, Program.agrees_iff p s r (.rewritten ".*" · .last) .passed hroot hcache
    (fun file c h => .serve h) (fun file c h => by cases h) (fun c => .miss c)
    (fun d hd fileExists => ?_) fun hnone fileExists => ?_⟩
  · have h := hcore fileExists
    rw [hd] at h
    exact h
  · have h := hcore fileExists
    rw [hnone] at h
    exact h

/-- For a blog whose name always stands in the path they agree. -/
theorem nginx_agrees_blog :
    (∃ c ∈ ({} : Site).documentRoot, c ≠ '/') ∧ Path.Rooted ({} : Site).cachePath ∧
      '$' ∉ ({} : Site).cachePath ∧ '\n' ∉ ("/blogA/post/" : Text) ∧
      (Text.eqIgnoreCase "GET" "POST" = true → ("GET" : Text) = "POST") ∧
      ∀ fileExists, Path.SlashBlind fileExists →
        Agrees "/srv/www"
          (run ⟨"/srv/www", { uri := "/blogA/post/" }, fileExists⟩
            (coreDirectives (Program.build
              { rejectCookies := [], rejectUris := [], multiTenant := true,
                tenantNames := .ofList ["blogA"] } {})))
          ((Program.build
            { rejectCookies := [], rejectUris := [], multiTenant := true,
              tenantNames := .ofList ["blogA"] } {}).evaluate { uri := "/blogA/post/" }
              fileExists) := by
  have hroot : ∃ c ∈ ({} : Site).documentRoot, c ≠ '/' := ⟨'s', by decide, by decide⟩
  have hcache : Path.Rooted ({} : Site).cachePath := .inr rfl
  have hdollar : '$' ∉ ({} : Site).cachePath := by decide
  have huri : '\n' ∉ ("/blogA/post/" : Text) := by decide
  have hmethod : Text.eqIgnoreCase "GET" "POST" = true → ("GET" : Text) = "POST" := by decide
  refine ⟨hroot, hcache, hdollar, huri, hmethod, ?_⟩
  refine (nginx_agrees_iff (r := { uri := "/blogA/post/" }) hroot hcache hdollar huri
    hmethod).2.2 fun _ t ht => ?_
  cases ht
  have hnames : ((Pattern.captures? false (Tenant.pathPattern "/" (.ofList ["blogA"]))
      "/blogA/post/").all fun groups => (groups.lookup 1).isSome) = true := by decide +kernel
  intro groups hg
  have hg' : Pattern.captures? false (Tenant.pathPattern "/" (.ofList ["blogA"])) "/blogA/post/" =
      some groups := hg
  rw [hg'] at hnames
  exact hnames

/-- A base path with a group of its own can leave that group unset: it then stands for the name, and
the page of an unnamed tenant is served from a directory with another dot in its name. -/
theorem not_nginx_agrees : ∃ (p : Policy) (s : Site) (r : Request),
    (∃ c ∈ s.documentRoot, c ≠ '/') ∧ Path.Rooted s.cachePath ∧ '$' ∉ s.cachePath ∧
      '\n' ∉ r.uri ∧ (r.method.eqIgnoreCase "POST" = true → r.method = "POST") ∧
      ¬Agrees s.documentRoot.trimEndSlashes
        (run ⟨s.documentRoot.trimEndSlashes, r, fun _ => true⟩ (coreDirectives (Program.build p s)))
        ((Program.build p s).evaluate r fun _ => true) := by
  refine ⟨
    { rejectCookies := [], rejectUris := [], multiTenant := true,
      tenantNames := .ofList ["blogA"] },
    { basePath := "/(en)?/" }, { uri := "//blogA/post/", host := "www.example.com" },
    ⟨'s', by decide, by decide⟩, .inr rfl, by decide, by decide, by decide, fun h => ?_⟩
  have hrun : run ⟨"/srv/www", { uri := "//blogA/post/", host := "www.example.com" }, fun _ => true⟩
      (coreDirectives (Program.build
        { rejectCookies := [], rejectUris := [], multiTenant := true,
          tenantNames := .ofList ["blogA"] } { basePath := "/(en)?/" })) =
      .rewritten ".*" "/cache/page/pgc-.example.com/blogA/_index.html" .last := by decide +kernel
  have heval : (Program.build
      { rejectCookies := [], rejectUris := [], multiTenant := true,
        tenantNames := .ofList ["blogA"] } { basePath := "/(en)?/" }).evaluate
          { uri := "//blogA/post/", host := "www.example.com" } (fun _ => true) =
      .serve "/srv/www/cache/page/pgc-example.com/blogA/_index.html" := by decide +kernel
  have hpair : Agrees "/srv/www"
      (.rewritten ".*" "/cache/page/pgc-.example.com/blogA/_index.html" .last)
      (.serve "/srv/www/cache/page/pgc-example.com/blogA/_index.html") := by
    rw [← hrun, ← heval]
    exact h
  cases hpair with
  | serve halike => exact absurd halike (by decide)

end PageCache.Nginx
