import PageCache.Proofs.Decision.Front
import PageCache.Proofs.Path.Template
import PageCache.Proofs.Text.Pieces

/-! What the rules for both servers have in common. Rules cannot leave out a name that the pattern of
tenants leaves unset: they write it as an empty one, with the dot after it. Apart from that they look
up the same file as the program, and so they agree with it exactly where a tenant has a name. -/
namespace PageCache

attribute [local irreducible] Pattern.captures? Pattern.found

/-- The file that is looked up, if the lookup is reached. -/
def Decision.file? : Decision → Option Text
  | .miss file | .serve file => some file
  | _ => none

structure Context where
  documentRoot : Text
  request : Request
  fileExists : Text → Bool

theorem Request.beq_tlsPort (r : Request) :
    (Text.ofNat r.port == ("443" : Text)) = (r.port == Request.tlsPort) := by
  rw [Bool.eq_iff_iff, beq_iff_eq, beq_iff_eq, show ("443" : Text) = Text.ofNat 443 from rfl,
    Text.ofNat_inj]
  rfl

theorem Request.beq_post {r : Request} (h : r.method.eqIgnoreCase "POST" = true → r.method = "POST") :
    (r.method == ("POST" : Text)) = r.method.eqIgnoreCase "POST" := by
  rw [Bool.eq_iff_iff, beq_iff_eq]
  refine ⟨fun he => ?_, h⟩
  rw [he]
  exact beq_self_eq_true _

/-- The name of a tenant as it is written in front of its domain. -/
def Tenant.namePrefix (t : Tenant) : Text := (t.name.map (· ++ ['.'])).getD []

theorem Tenant.directory_eq (t : Tenant) :
    t.directory = TenantSegment.stem ++ (t.namePrefix ++ t.domain) := by
  obtain ⟨domain, name, uri⟩ := t
  cases name <;> simp [Tenant.directory, namePrefix]

namespace Tenancy

/-- Where the pattern of tenants matches, it captures a name. -/
def Names (t : Tenancy) (r : Request) : Prop :=
  match t with
  | domain => True
  | path pattern =>
    ∀ groups, Pattern.captures? false pattern r.uri = some groups → (groups.lookup 1).isSome = true

def writtenTenant (t : Tenancy) (r : Request) : Tenant :=
  match t with
  | domain => t.tenant r
  | path pattern =>
    { t.tenant r with
      name := (Pattern.captures? false pattern r.uri).map fun groups =>
        (groups.lookup 1).getD [] }

theorem tenant_domain (r : Request) :
    domain.tenant r = { domain := Tenant.domainOf r.host, name := none, uri := r.uri } := by
  unfold tenant Tenant.ofRequest
  rfl

theorem tenant_path (pattern : Text) (r : Request) :
    (path pattern).tenant r =
      { domain := Tenant.domainOf r.host
        name := (Pattern.captures? false pattern r.uri).bind (·.lookup 1)
        uri := ((Pattern.captures? false pattern r.uri).map fun groups =>
          (groups.lookup 2).getD []).getD r.uri } := by
  unfold tenant Tenant.ofRequest
  rw [Option.bind_some]
  generalize Tenant.domainOf r.host = d
  cases Pattern.captures? false pattern r.uri <;> rfl

theorem writtenTenant_uri (t : Tenancy) (r : Request) :
    (t.writtenTenant r).uri = (t.tenant r).uri := by
  cases t <;> rw [writtenTenant]

theorem writtenTenant_domain (t : Tenancy) (r : Request) :
    (t.writtenTenant r).domain = (t.tenant r).domain := by
  cases t <;> rw [writtenTenant]

theorem writtenTenant_of_names {t : Tenancy} {r : Request} (h : t.Names r) :
    t.writtenTenant r = t.tenant r := by
  cases t with
  | domain => rw [writtenTenant]
  | path pattern =>
    rw [writtenTenant, tenant_path]
    cases hc : Pattern.captures? false pattern r.uri with
    | none => rfl
    | some groups =>
      obtain ⟨name, hn⟩ := Option.isSome_iff_exists.1 (h groups hc)
      simp [hn]

/-- The directory of a tenant as rules write it has another dot where the name is unset. -/
theorem count_directory_writtenTenant {t : Tenancy} {r : Request} (h : ¬t.Names r) :
    (t.writtenTenant r).directory.count '.' = (t.tenant r).directory.count '.' + 1 := by
  cases t with
  | domain => exact absurd trivial h
  | path pattern =>
    simp only [Names, not_forall] at h
    obtain ⟨groups, hc, hn⟩ := h
    have hn : groups.lookup 1 = none := Option.not_isSome_iff_eq_none.1 hn
    simp only [writtenTenant, tenant_path, hc, hn, Tenant.directory, Option.map_some,
      Option.bind_some, Option.getD_none, List.count_append, List.count_nil]
    rw [show List.count '.' "." = 1 from rfl]
    omega

end Tenancy

namespace CacheTarget

/-- Two tenants whose directories differ in the number of dots do not share a candidate. -/
theorem not_alike_candidate {c : CacheTarget} (hroot : c.documentRoot ≠ [])
    (hlast : c.documentRoot.getLast? ≠ some '/') (hcache : Path.Rooted c.cachePath) {a b : Tenant}
    {uri : Text} {tags : VariantTags} (h : a.directory.count '.' ≠ b.directory.count '.') :
    ¬Path.Alike (c.candidate (some a) uri tags) (c.candidate (some b) uri tags) := by
  obtain ⟨frame⟩ := TenantSegment.nonempty_frame c.cachePath
  have hcount : ∀ t : Tenant, (c.candidate (some t) uri tags).count '.' =
      t.directory.count '.' + (c.documentRoot ++ frame.before ++ frame.after ++ uri ++
        tags.fileName).count '.' := by
    intro t
    have hdir : Path.Alike (frame.before ++ '/' :: t.directory ++ frame.after ++ ['/'])
        (c.directory (some t) ++ ['/']) := (frame.alike_replace t.directory).symm
    have hfile := alike_candidate hroot hlast (frame.rooted hcache t.directory) hdir uri tags
    rw [← hfile.count_eq (show '.' ≠ '/' by decide)]
    simp only [List.count_append, List.count_cons_of_ne (show '/' ≠ '.' by decide)]
    rw [show List.count '.' ("/" : Text) = 0 from rfl]
    omega
  intro hab
  have := hab.count_eq (show '.' ≠ '/' by decide)
  rw [hcount, hcount] at this
  omega

end CacheTarget

theorem Site.trimEndSlashes_documentRoot_ne_nil (s : Site) (h : ∃ c ∈ s.documentRoot, c ≠ '/') :
    s.documentRoot.trimEndSlashes ≠ [] := by
  obtain ⟨c, hc, hne⟩ := h
  obtain ⟨rest, hr, hall⟩ := Text.exists_eq_trimEnd_append s.documentRoot (· == '/')
  intro he
  rw [hr, show s.documentRoot.trimEnd (· == '/') = [] from he] at hc
  exact hne (by simpa using hall c hc)

namespace Step

def slots (steps : List Step) : List Slot := steps.filterMap slot?

def tenancyOf (steps : List Step) : Option Tenancy := steps.foldl (fun t s => s.tenancyAfter t) none

theorem slots_concat (past : List Step) (s : Step) : slots (past ++ [s]) = slots past ++ s.slot?.toList := by
  cases h : s.slot? <;> simp [slots, h]

theorem tenancyOf_concat (past : List Step) (s : Step) :
    tenancyOf (past ++ [s]) = s.tenancyAfter (tenancyOf past) := by
  simp [tenancyOf]

end Step

section
variable {δ σ ω : Type} {exec : σ → δ → Except ω σ} {emit : Option Tenancy → Step → List δ}
  {emitAll : Option Tenancy → List Step → List δ} {r : Request}
  {Tracks : List Step → Findings → σ → Prop} {Ends : ω → Decision → Prop}

/-- Rules are emitted step by step, and those of a step in front end the run where the program does,
or keep track of what it finds out, as long as nothing is found out twice. -/
structure FollowsFront (exec : σ → δ → Except ω σ) (emit : Option Tenancy → Step → List δ)
    (emitAll : Option Tenancy → List Step → List δ) (r : Request)
    (Tracks : List Step → Findings → σ → Prop) (Ends : ω → Decision → Prop) : Prop where
  cons : ∀ t s steps, emitAll t (s :: steps) = emit t s ++ emitAll (s.tenancyAfter t) steps
  step : ∀ (past : List Step) (s : Step) (f : Findings) (x : σ), s.isFront = true →
    (∀ slot, s.slot? = some slot → slot ∉ Step.slots past) → Tracks past f x →
      match s.halt? r with
      | some d => ∃ o, (emit (Step.tenancyOf past) s).foldlM exec x = .error o ∧ Ends o d
      | none => ∃ y, (emit (Step.tenancyOf past) s).foldlM exec x = .ok y ∧
          Tracks (past ++ [s]) (s.find r f) y

/-- What holds of each step in front holds of all of them. -/
theorem FollowsFront.run (hfollows : FollowsFront exec emit emitAll r Tracks Ends)
    {steps : List Step} (hfront : ∀ s ∈ steps, s.isFront = true) {past : List Step} {f : Findings}
    {x : σ} (hslots : (Step.slots (past ++ steps)).Nodup) (h : Tracks past f x)
    (rest : List Step) :
    match steps.findSome? (·.halt? r) with
    | some d => ∃ o, (emitAll (Step.tenancyOf past) (steps ++ rest)).foldlM exec x = .error o ∧
        Ends o d
    | none => ∃ y, (emitAll (Step.tenancyOf past) (steps ++ rest)).foldlM exec x =
          (emitAll (Step.tenancyOf (past ++ steps)) rest).foldlM exec y ∧
        Tracks (past ++ steps) (f.after r steps) y := by
  induction steps generalizing past f x with
  | nil => exact ⟨x, by simp, by simpa [Findings.after] using h⟩
  | cons s steps ih =>
    obtain ⟨hs, hfront⟩ := List.forall_mem_cons.1 hfront
    have hassoc : past ++ s :: steps = past ++ [s] ++ steps := by simp
    have hfresh : ∀ slot, s.slot? = some slot → slot ∉ Step.slots past := by
      intro slot hslot hmem
      rw [hassoc, Step.slots, List.filterMap_append, ← Step.slots, Step.slots_concat, hslot] at hslots
      have := (List.nodup_append.1 (List.nodup_append.1 hslots).1).2.2
      exact this slot hmem slot (by simp) rfl
    have hnow := hfollows.step past s f x hs hfresh h
    rw [List.findSome?_cons, List.cons_append, hfollows.cons, List.foldlM_append]
    cases hhalt : s.halt? r with
    | some d =>
      rw [hhalt] at hnow
      obtain ⟨o, ho, hd⟩ := hnow
      exact ⟨o, by rw [ho]; rfl, hd⟩
    | none =>
      rw [hhalt] at hnow
      obtain ⟨y, hy, htracks⟩ := hnow
      have hrest := ih hfront (hassoc ▸ hslots) htracks
      rw [Step.tenancyOf_concat, ← hassoc] at hrest
      rw [hy]
      exact hrest

end

theorem Disqualifier.any_applies (ds : List Disqualifier) (r : Request) :
    ds.any (·.applies r) = (ds.find? (·.applies r)).isSome := by
  rw [Bool.eq_iff_iff, List.any_eq_true, List.find?_isSome]

namespace Findings

def tag (f : Findings) : TagSlot → Text
  | .device => f.tags.device
  | .referrer => f.tags.referrer

theorem setTls_if {f : Findings} (h : f.tags.tls = []) (b : Bool) :
    (if b then f.setTls else f) =
      { f with tags := { f.tags with tls := if b then VariantTags.tlsTag else [] } } := by
  cases b with
  | true => rfl
  | false => simp [← h]

theorem setGzip_if {f : Findings} (h : f.tags.encoding = []) (b : Bool) :
    (if b then f.setGzip else f) =
      { f with tags := { f.tags with encoding := if b then VariantTags.gzipSuffix else [] } } := by
  cases b with
  | true => rfl
  | false => simp [← h]

end Findings

theorem Findings.tenant_after (r : Request) (f : Findings) {t : Option Tenancy}
    (h : f.tenant = t.map (·.tenant r)) (steps : List Step) :
    (f.after r steps).tenant =
      (steps.foldl (fun t s => s.tenancyAfter t) t).map (·.tenant r) := by
  induction steps generalizing f t with
  | nil => exact h
  | cons s steps ih =>
    refine ih (s.find r f) ?_
    cases s with
    | detectTenant tenancy => rfl
    | classify slot candidates => cases slot <;> exact h
    | detectTls =>
      rw [Step.find]
      split <;> exact h
    | detectEncoding =>
      rw [Step.find]
      split <;> exact h
    | _ => exact h

namespace Program

variable (p : Policy) (s : Site) (r : Request)

theorem detectsEncoding_build : (build p s).detectsEncoding = p.compression := by
  have hred : ∀ (groups : List Group) (subject : Subject),
      Step.detectEncoding ∉ redirects groups subject := fun groups subject h => by
    obtain ⟨pattern, target, h⟩ := exists_of_mem_redirects h
    cases h
  have hmem : Step.detectEncoding ∈ (build p s).steps ↔ p.compression = true := by
    simp only [build_steps, front, detection, lookup, classification]
    cases Tenancy.ofPolicy p s <;> cases p.compression <;> simp [hred]
  rw [detectsEncoding, Bool.eq_iff_iff, List.contains_iff_mem, hmem]

theorem slots_redirects (groups : List Group) (subject : Subject) :
    Step.slots (redirects groups subject) = [] := by
  refine List.filterMap_eq_nil_iff.2 fun x hx => ?_
  obtain ⟨pattern, target, rfl⟩ := exists_of_mem_redirects hx
  rfl

theorem slots_front : Step.slots (front p s) =
    ((Tenancy.ofPolicy p s).map fun _ => Slot.tenant).toList ++
      [.tag .device, .tag .referrer, .tls] ++ if p.compression then [.encoding] else [] := by
  have hd : Step.slots (front p s) = Step.slots (detection p s) := by
    rw [front, Step.slots, List.filterMap_cons_none rfl, List.filterMap_append,
      List.filterMap_append, ← Step.slots, slots_redirects, ← Step.slots, slots_redirects]
    rfl
  rw [hd, detection]
  cases Tenancy.ofPolicy p s <;> cases p.compression <;> rfl

theorem nodup_slots_front : (Step.slots (front p s)).Nodup := by
  rw [slots_front]
  cases Tenancy.ofPolicy p s <;> cases p.compression <;> simp

theorem tenancyOf_front : Step.tenancyOf (front p s) = Tenancy.ofPolicy p s := by
  have hr : ∀ (groups : List Group) (subject : Subject) (t : Option Tenancy),
      (redirects groups subject).foldl (fun t s => s.tenancyAfter t) t = t := by
    intro groups subject t
    have hfix : ∀ t, ∀ x ∈ redirects groups subject, x.tenancyAfter t = t := fun t x hx => by
      obtain ⟨pattern, target, rfl⟩ := exists_of_mem_redirects hx
      rfl
    exact (List.foldl_ext _ (fun t _ => t) t hfix).trans (List.foldl_fixed _)
  rw [Step.tenancyOf, front, List.foldl_cons, List.foldl_append, List.foldl_append, hr, hr, detection]
  cases Tenancy.ofPolicy p s <;> cases p.compression <;> rfl

theorem tenant_after_front : (Findings.after r {} (front p s)).tenant =
    (Tenancy.ofPolicy p s).map (·.tenant r) := by
  have hnone : (({} : Findings).tenant) = (none : Option Tenancy).map (·.tenant r) := rfl
  rw [Findings.tenant_after r {} hnone, ← Step.tenancyOf, tenancyOf_front]

/-- The decision that is made without a look at the files. -/
def answer? : Option Decision :=
  ((front p s).findSome? (·.halt? r)).or
    (((Disqualifier.ofPolicy p).find? (·.applies r)).map fun d => .bypass d.label)

def candidate : Text :=
  (Findings.after r {} (front p s)).candidate (CacheTarget.ofSite s (Tenancy.ofPolicy p s)) r

def writtenCandidate : Text :=
  Findings.candidate
    { Findings.after r {} (front p s) with
      tenant := (Tenancy.ofPolicy p s).map (·.writtenTenant r) }
    (CacheTarget.ofSite s (Tenancy.ofPolicy p s)) r

/-- A file that is written with the directory of the written tenant is the one that rules look
up. -/
theorem alike_writtenFile (hroot : ∃ c ∈ s.documentRoot, c ≠ '/') {dir : Text}
    (hdir : Path.Rooted dir)
    (h : Path.Alike (dir ++ ['/'])
      ((CacheTarget.ofSite s (Tenancy.ofPolicy p s)).directory
        ((Tenancy.ofPolicy p s).map (·.writtenTenant r)) ++ ['/'])) (f : Findings) :
    Path.Alike (s.documentRoot.trimEndSlashes ++
        (dir ++ "/" ++ (((Tenancy.ofPolicy p s).map (·.tenant r)).map (·.uri)).getD r.uri ++ "/" ++
          f.tags.fileName))
      (Findings.candidate { f with tenant := (Tenancy.ofPolicy p s).map (·.writtenTenant r) }
        (CacheTarget.ofSite s (Tenancy.ofPolicy p s)) r) := by
  have huri : ((Tenancy.ofPolicy p s).map (·.writtenTenant r)).map (·.uri) =
      ((Tenancy.ofPolicy p s).map (·.tenant r)).map (·.uri) := by
    simp only [Option.map_map, Function.comp_def, Tenancy.writtenTenant_uri]
  rw [Findings.candidate, huri]
  exact CacheTarget.alike_candidate (s.trimEndSlashes_documentRoot_ne_nil hroot)
    (Text.getLast?_trimEndSlashes_ne _) hdir h _ _

/-- If every file existed, one would be served. -/
def ReachesLookup (program : Program) (r : Request) : Prop :=
  ∃ file, program.evaluate r (fun _ => true) = .serve file

theorem evaluate_build_eq (fileExists : Text → Bool) : (build p s).evaluate r fileExists =
    match answer? p s r with
    | some d => d
    | none =>
      if fileExists (candidate p s r) then .serve (candidate p s r)
      else .miss (candidate p s r) := by
  rw [evaluate, build_steps, runSteps_front fun x => isFront_of_mem_front, answer?]
  cases (front p s).findSome? (·.halt? r) with
  | some d => rfl
  | none =>
    rw [Option.none_or, lookup, runSteps, Step.run]
    cases (Disqualifier.ofPolicy p).find? (·.applies r) <;> rfl

/-- Without a look at the files no file is looked up. -/
theorem file?_of_answer? {d : Decision} (h : answer? p s r = some d) : d.file? = none := by
  rcases Option.or_eq_some_iff.1 h with h | ⟨-, h⟩
  · obtain ⟨x, -, hx⟩ := List.exists_of_findSome?_eq_some h
    cases x with
    | selfTest | redirect =>
      obtain ⟨-, hd⟩ := Option.ite_none_right_eq_some.1 hx
      cases hd
      rfl
    | _ => cases hx
  · obtain ⟨x, -, rfl⟩ := Option.map_eq_some_iff.1 h
    rfl

theorem answer?_ne_serve {d : Decision} (h : answer? p s r = some d) (file : Text) :
    d ≠ .serve file := by
  rintro rfl
  cases file?_of_answer? p s r h

theorem reachesLookup_iff : (build p s).ReachesLookup r ↔ answer? p s r = none := by
  constructor
  · rintro ⟨file, h⟩
    cases ha : answer? p s r with
    | none => rfl
    | some d =>
      rw [evaluate_build_eq, ha] at h
      exact absurd h (answer?_ne_serve p s r ha file)
  · intro h
    exact ⟨candidate p s r, by rw [evaluate_build_eq, h]; rfl⟩

theorem candidate_eq_writtenCandidate
    (h : ∀ t, Tenancy.ofPolicy p s = some t → t.Names r) :
    candidate p s r = writtenCandidate p s r := by
  have hmap : (Tenancy.ofPolicy p s).map (·.writtenTenant r) =
      (Tenancy.ofPolicy p s).map (·.tenant r) :=
    Option.map_congr fun t ht => Tenancy.writtenTenant_of_names (h t ht)
  rw [candidate, writtenCandidate, hmap, ← tenant_after_front]

theorem not_alike_writtenCandidate (hroot : ∃ c ∈ s.documentRoot, c ≠ '/')
    (hcache : Path.Rooted s.cachePath) {t : Tenancy} (ht : Tenancy.ofPolicy p s = some t)
    (h : ¬t.Names r) : ¬Path.Alike (candidate p s r) (writtenCandidate p s r) := by
  have hcount := Tenancy.count_directory_writtenTenant h
  rw [candidate, writtenCandidate, Findings.candidate, Findings.candidate, tenant_after_front, ht]
  simp only [Option.map_some, Option.getD_some, Tenancy.writtenTenant_uri]
  exact CacheTarget.not_alike_candidate (s.trimEndSlashes_documentRoot_ne_nil hroot)
    (Text.getLast?_trimEndSlashes_ne _) hcache (by omega)

section
variable {p s r} {δ σ ω : Type} {exec : σ → δ → Except ω σ}
  {emit : Option Tenancy → Step → List δ} {emitAll : Option Tenancy → List Step → List δ}
  {Tracks : List Step → Findings → σ → Prop} {Ends : ω → Decision → Prop}

/-- Rules that follow the steps in front and then look up a file give the answer that is given
without a look at the files, or look at that file. -/
theorem run_front_lookup (hfollows : FollowsFront exec emit emitAll r Tracks Ends) {start : σ}
    (hstart : Tracks [] {} start) {outcome : Except ω σ → ω} {served : Text → ω} {passed : ω}
    (herror : ∀ o, outcome (.error o) = o) (hok : ∀ x, outcome (.ok x) = passed)
    (hbypass : ∀ label, Ends passed (.bypass label)) {root : Text} {fileExists : Text → Bool}
    (hlookup : ∀ f x, Tracks (front p s) f x → ∃ file, Path.Alike (root ++ file)
        (Findings.candidate { f with tenant := (Tenancy.ofPolicy p s).map (·.writtenTenant r) }
          (CacheTarget.ofSite s (Tenancy.ofPolicy p s)) r) ∧
      ∃ y, (emitAll (Tenancy.ofPolicy p s) (lookup p s)).foldlM exec x =
        if !(Disqualifier.ofPolicy p).any (·.applies r) && fileExists (root ++ file) then
          .error (served file)
        else .ok y) :
    match answer? p s r with
    | some d =>
      Ends (outcome ((emitAll (Step.tenancyOf []) (front p s ++ lookup p s)).foldlM exec start)) d
    | none => ∃ file, Path.Alike (root ++ file) (writtenCandidate p s r) ∧
        outcome ((emitAll (Step.tenancyOf []) (front p s ++ lookup p s)).foldlM exec start) =
          if fileExists (root ++ file) then served file else passed := by
  have hslots : (Step.slots ([] ++ front p s)).Nodup := nodup_slots_front p s
  have hfront := hfollows.run (fun x => isFront_of_mem_front) hslots hstart (lookup p s)
  rw [answer?]
  cases hhalt : (front p s).findSome? (·.halt? r) with
  | some d =>
    rw [hhalt] at hfront
    obtain ⟨o, ho, hd⟩ := hfront
    rw [ho, herror]
    exact hd
  | none =>
    rw [hhalt] at hfront
    obtain ⟨x, hx, htracks⟩ := hfront
    rw [List.nil_append, tenancyOf_front] at hx
    obtain ⟨file, hfile, y, hy⟩ := hlookup _ x htracks
    rw [hx, hy, Option.none_or, Disqualifier.any_applies]
    cases (Disqualifier.ofPolicy p).find? (·.applies r) with
    | some d =>
      have hpassed : Ends (outcome (.ok y)) (.bypass d.label) := (hok y).symm ▸ hbypass d.label
      exact hpassed
    | none =>
      refine ⟨file, hfile, ?_⟩
      cases fileExists (root ++ file) with
      | true => exact herror (served file)
      | false => exact hok y

end

/-- Rules that decide as the program does and look up the written file agree with it for all files
exactly where the tenant of a request that is looked up has a name. -/
theorem agrees_iff {ω : Type} {Agrees : ω → Decision → Prop} (served : Text → ω) (passed : ω)
    {rules : (Text → Bool) → ω} (hroot : ∃ c ∈ s.documentRoot, c ≠ '/')
    (hcache : Path.Rooted s.cachePath)
    (hserved : ∀ file c, Path.Alike (s.documentRoot.trimEndSlashes ++ file) c →
      Agrees (served file) (.serve c))
    (hnotMissed : ∀ file c, ¬Agrees (served file) (.miss c))
    (hmissed : ∀ c, Agrees passed (.miss c))
    (hanswer : ∀ d, answer? p s r = some d → ∀ fileExists, Agrees (rules fileExists) d)
    (hlookup : answer? p s r = none → ∀ fileExists, ∃ file,
      Path.Alike (s.documentRoot.trimEndSlashes ++ file) (writtenCandidate p s r) ∧
        rules fileExists =
          if fileExists (s.documentRoot.trimEndSlashes ++ file) then served file else passed) :
    (∀ fileExists, Path.SlashBlind fileExists →
        Agrees (rules fileExists) ((build p s).evaluate r fileExists)) ↔
      ((build p s).ReachesLookup r → ∀ t, Tenancy.ofPolicy p s = some t → t.Names r) := by
  rw [reachesLookup_iff]
  constructor
  · intro h hnone t ht
    by_contra hnames
    have hblind : Path.SlashBlind fun a => decide (Path.Alike a (writtenCandidate p s r)) := by
      intro a b hab
      exact decide_eq_decide.2 ⟨hab.symm.trans, hab.trans⟩
    have hagrees := h _ hblind
    obtain ⟨file, hfile, hrules⟩ := hlookup hnone fun a =>
      decide (Path.Alike a (writtenCandidate p s r))
    rw [hrules, evaluate_build_eq, hnone] at hagrees
    simp only [hfile, not_alike_writtenCandidate p s r hroot hcache ht hnames, decide_true,
      decide_false, if_true, Bool.false_eq_true, if_false] at hagrees
    exact hnotMissed _ _ hagrees
  · intro h fileExists hblind
    rw [evaluate_build_eq]
    cases ha : answer? p s r with
    | some d => exact hanswer d ha fileExists
    | none =>
      obtain ⟨file, hfile, hrules⟩ := hlookup ha fileExists
      rw [← candidate_eq_writtenCandidate p s r (h ha)] at hfile
      rw [hrules, hblind _ _ hfile]
      cases fileExists (candidate p s r) with
      | true => exact hserved file _ hfile
      | false => exact hmissed _

end Program

end PageCache
