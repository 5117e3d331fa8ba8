import PageCache.Config.Load
import PageCache.Proofs.Config.Groups

/-! Which options name the server. A kind comes before a signature, and the command line replaces
either of the two options on its own. So a command line that gives a kind, be it a blank one, decides
the server; with a signature alone it decides only where no other source has a kind. -/
namespace PageCache.Settings

open CommandLine (Overrides)

variable {o : Options} {c : Overrides} {st : Settings}

/-- The server that is named, unknown if it is not supported. -/
def serverNamed (name : Text) : Server :=
  match Server.parse name with
  | .ok server => server
  | .error _ => .unknown

/-- The server of a kind or else of a signature, of which blank ones count as not given. -/
def serverBy (kind signature : Option Text) : Server :=
  (((given kind).map serverNamed).or ((given signature).map Server.detect)).getD .unknown

theorem fst_serverOf (o : ServerOptions) : (serverOf o).1 = serverBy o.kind o.software := by
  unfold serverOf serverBy
  cases given o.kind with
  | some kind => cases hkind : Server.parse kind <;> simp [serverNamed, hkind]
  | none => cases given o.software <;> rfl

theorem serverBy_of_given {kind : Option Text} (h : (given kind).isSome = true)
    (signature signature' : Option Text) : serverBy kind signature = serverBy kind signature' := by
  obtain ⟨name, hname⟩ := Option.isSome_iff_exists.1 h
  rw [serverBy, serverBy, hname]
  rfl

theorem isSome_of_given {value : Option Text} (h : (given value).isSome = true) :
    value.isSome = true := by
  cases value with
  | none => cases h
  | some t => rfl

theorem server_of_ofOptions (h : ofOptions o = .ok st) :
    st.server = serverBy o.server.kind o.server.software := by
  obtain ⟨threshold, -, h⟩ := exists_of_bind_ok h
  obtain ⟨site, -, h⟩ := exists_of_bind_ok h
  obtain ⟨targets, -, h⟩ := exists_of_bind_ok h
  obtain ⟨⟨policy, warnings⟩, -, h⟩ := exists_of_bind_ok h
  dsimp only at h
  split at h
  · cases h
  · obtain rfl := Except.ok.inj h
    exact fst_serverOf o.server

theorem push_ne_nil (base : Text) {name : Text} (h : name ≠ []) : Path.push base name ≠ [] := by
  unfold Path.push
  split
  · exact h
  · split <;> simp [h]

theorem defaultTargets_ne_nil (server : Server) (s : Site) :
    (defaultTargets server s).core ≠ [] ∧ (defaultTargets server s).cache ≠ [] := by
  have hnginx : ("nginx.conf" : Text) ≠ [] := by decide
  have hapache : (".htaccess" : Text) ≠ [] := by decide
  cases server with
  | nginx => exact ⟨push_ne_nil _ hnginx, push_ne_nil _ hnginx⟩
  | apache => exact ⟨push_ne_nil _ hapache, push_ne_nil _ hapache⟩
  | unknown => exact ⟨push_ne_nil _ hapache, push_ne_nil _ hapache⟩

/-- Targets are accepted whatever the files are that are used if none are given. -/
theorem exists_targets? {o : TargetOptions} {default default' t : Targets}
    (h : targets? o default = .ok t) (hcore : default'.core ≠ []) (hcache : default'.cache ≠ []) :
    ∃ t', targets? o default' = .ok t' := by
  have hgiven : ∀ {value : Option Text} {d d' : Text}, d' ≠ [] → value.getD d ≠ [] →
      value.getD d' ≠ [] := by
    intro value d d' hd' hd
    cases value with
    | none => exact hd'
    | some t => exact hd
  dsimp only [targets?] at h ⊢
  split at h
  · cases h
  · next hc =>
    split at h
    · cases h
    · next hd =>
      rw [List.isEmpty_iff] at hc hd
      rw [if_neg (by simpa using hgiven hcore hc), if_neg (by simpa using hgiven hcache hd)]
      exact ⟨_, rfl⟩

theorem bind_ok {ε α β : Type} {x : Except ε α} {f : α → Except ε β} {a : α} {b : β}
    (hx : x = .ok a) (hf : f a = .ok b) : x >>= f = .ok b := by
  rw [hx]
  exact hf

/-- No option about the server keeps settings from loading. -/
theorem exists_ofOptions_server (h : ofOptions o = .ok st) (server : ServerOptions) :
    ∃ st', ofOptions { o with server } = .ok st' := by
  obtain ⟨threshold, hthreshold, h⟩ := exists_of_bind_ok h
  obtain ⟨site, hsite, h⟩ := exists_of_bind_ok h
  obtain ⟨targets, htargets, h⟩ := exists_of_bind_ok h
  obtain ⟨⟨policy, warnings⟩, hpolicy, h⟩ := exists_of_bind_ok h
  dsimp only at h
  split at h
  · cases h
  · next hsegment =>
    have hdefault := defaultTargets_ne_nil (serverOf server).1 site
    obtain ⟨targets', htargets'⟩ := exists_targets? htargets hdefault.1 hdefault.2
    exact ⟨_, bind_ok hthreshold (bind_ok hsite (bind_ok htargets' (bind_ok hpolicy
      (if_neg hsegment))))⟩

/-- All settings that load with the command line have the server that it gives by itself, whatever
the other sources have. -/
def DecidesServer (c : Overrides) : Prop :=
  ∀ (o o' : Options) (st st' : Settings), ofOptions (o.override c) = .ok st →
    ofOptions (o'.override c) = .ok st' →
      st.server = st'.server ∧ st.server = serverBy c.server c.serverSoftware

theorem server_of_override (h : ofOptions (o.override c) = .ok st) :
    st.server =
      serverBy (c.server <|> o.server.kind) (c.serverSoftware <|> o.server.software) :=
  server_of_ofOptions h

/-- A kind on the command line, or a blank one and a signature, leaves nothing to other sources. -/
theorem server_of_isSome (hgiven : (given c.server).isSome ∨ (given c.serverSoftware).isSome)
    (hkind : c.server.isSome = true) (h : ofOptions (o.override c) = .ok st) :
    st.server = serverBy c.server c.serverSoftware := by
  obtain ⟨kind, hkind⟩ := Option.isSome_iff_exists.1 hkind
  rw [server_of_override h, hkind]
  change serverBy (some kind) _ = _
  rcases hgiven with hgiven | hgiven
  · exact serverBy_of_given (hkind ▸ hgiven) _ _
  · obtain ⟨signature, hsignature⟩ := Option.isSome_iff_exists.1 (isSome_of_given hgiven)
    rw [hsignature]
    rfl

theorem server_of_eq_none (hgiven : (given c.server).isSome ∨ (given c.serverSoftware).isSome)
    (hkind : c.server = none) (h : ofOptions (o.override c) = .ok st) :
    st.server = serverBy o.server.kind c.serverSoftware := by
  have hsoftware : (given c.serverSoftware).isSome = true := by
    rw [hkind] at hgiven
    exact hgiven.resolve_left Bool.false_ne_true
  obtain ⟨signature, hsignature⟩ := Option.isSome_iff_exists.1 (isSome_of_given hsoftware)
  rw [server_of_override h, hkind, hsignature]
  rfl

/-- Where the command line has no kind, some other kind gives settings of either server. -/
theorem exists_server_of_eq_none (hkind : c.server = none)
    (h : ofOptions (o.override c) = .ok st) (name : Text) :
    ∃ o' st', ofOptions (Options.override o' c) = .ok st' ∧
      st'.server = serverBy (some name) (c.serverSoftware <|> o'.server.software) := by
  let o' : Options := { o with server := { o.server with kind := some name } }
  obtain ⟨st', hst'⟩ := exists_ofOptions_server h (o'.override c).server
  refine ⟨o', st', hst', ?_⟩
  rw [server_of_override (o := o') hst', hkind]
  rfl

/-- A command line that gives a kind or a signature decides the server exactly if the option for the
kind is on it; without that option the kind of other sources comes before its signature. -/
theorem decidesServer_iff (hgiven : (given c.server).isSome ∨ (given c.serverSoftware).isSome) :
    (DecidesServer c ↔
      c.server.isSome = true ∨ ∀ o st, ofOptions (Options.override o c) ≠ .ok st) ∧
    (c.server = none → ∀ o st, ofOptions (Options.override o c) = .ok st →
      st.server = serverBy o.server.kind c.serverSoftware) := by
  refine ⟨⟨fun hdecides => ?_, fun h o o' st st' hst hst' => ?_⟩,
    fun hkind o st hst => server_of_eq_none hgiven hkind hst⟩
  · by_contra hnot
    rw [not_or, Bool.not_eq_true, Option.isSome_eq_false_iff, Option.isNone_iff_eq_none] at hnot
    obtain ⟨hkind, hloads⟩ := hnot
    simp only [ne_eq, not_forall, not_not] at hloads
    obtain ⟨o, st, hst⟩ := hloads
    -- Whatever loads, loads also with another kind, and that one comes before the signature.
    obtain ⟨oa, sta, hsta, hapache⟩ := exists_server_of_eq_none hkind hst "apache"
    obtain ⟨on, stn, hstn, hnginx⟩ := exists_server_of_eq_none hkind hst "nginx"
    have hsame := (hdecides oa on sta stn hsta hstn).1
    rw [hapache, hnginx] at hsame
    cases hsame
  · rcases h with hkind | hnone
    · have hfirst := server_of_isSome hgiven hkind hst
      have hsecond := server_of_isSome hgiven hkind hst'
      exact ⟨hfirst.trans hsecond.symm, hfirst⟩
    · exact absurd hst (hnone o st)

/-- A blank kind on the command line still keeps the kind of a file from coming before a signature
on it. -/
theorem decidesServer_blank :
    let c : Overrides :=
      { server := some " ", serverSoftware := some "nginx/1.25.3"
        documentRoot := some "/srv/www", cacheDir := some "/srv/www/cache/page" }
    DecidesServer c ∧ serverBy c.server c.serverSoftware = .nginx ∧
      (ofOptions (Options.override { server := { kind := some "apache" } } c)).isOk = true :=
  ⟨(decidesServer_iff (.inr rfl)).1.2 (.inl rfl), by decide +kernel, by decide +kernel⟩

/-- The kind of a file comes before a signature on the command line. -/
theorem not_decidesServer :
    let c : Overrides := { serverSoftware := some "nginx/1.25.3" }
    let o : Options :=
      { server := { kind := some "apache" }
        site := { documentRoot := some "/srv/www", cacheDir := some "/srv/www/cache/page" } }
    (∃ st, ofOptions (o.override c) = .ok st ∧ st.server = .apache) ∧
      serverBy c.server c.serverSoftware = .nginx ∧ ¬ DecidesServer c := by
  intro c o
  have hloaded : (match ofOptions (o.override c) with
      | .ok st => decide (st.server = .apache)
      | .error _ => false) = true := by decide +kernel
  have hnginx : serverBy c.server c.serverSoftware = .nginx := by decide +kernel
  match hst : ofOptions (o.override c) with
  | .ok st =>
    rw [hst] at hloaded
    have hapache : st.server = .apache := of_decide_eq_true hloaded
    refine ⟨⟨st, rfl, hapache⟩, hnginx, fun hdecides => ?_⟩
    have hserver := (hdecides o o st st hst hst).2
    rw [hapache, hnginx] at hserver
    cases hserver
  | .error _ =>
    rw [hst] at hloaded
    cases hloaded

end PageCache.Settings
