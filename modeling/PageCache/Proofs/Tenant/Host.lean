import PageCache.Proofs.Decision.Isolation
import PageCache.Proofs.Pattern.Fixed
import PageCache.Proofs.Tenant.Path

/-! The domain of a host name. The pattern of hosts has a leading `www.` that the domain may also begin
with, and dots at the end of the domain and within it. Main statement: which part of a host is its
domain, for every host. -/
namespace PageCache.Tenant

open Pattern

variable {host pre mid post d tail : Text} {u v : Thread}

def isHostChar (c : Char) : Bool := c.isLower || c.isDigit || c == '-' || c == '.'

/-- A name, a dot and lower case letters. -/
def IsDomain (d : Text) : Prop :=
  ∃ name letters, d = name ++ '.' :: letters ∧ name ≠ [] ∧ (∀ c ∈ name, isHostChar c = true) ∧
    letters ≠ [] ∧ ∀ c ∈ letters, c.isLower = true

/-- What a host has after its domain: a dot or none, and a port or none. -/
def IsTail (tail : Text) : Prop :=
  ∃ dot port, tail = dot ++ port ∧ (dot = [] ∨ dot = ['.']) ∧
    (port = [] ∨ ∃ digits, port = ':' :: digits ∧ digits ≠ [] ∧ ∀ c ∈ digits, c.isDigit = true)

theorem isLower_eq_false_of_isDigit {c : Char} (h : c.isDigit = true) : c.isLower = false := by
  have hdigit := Char.isDigit_iff_toNat.1 h
  have hlt : ('9' : Char).toNat < ('a' : Char).toNat := by decide
  rw [Char.isLower, Bool.and_eq_false_iff, decide_eq_false_iff_not, ge_iff_le,
    UInt32.le_iff_toNat_le]
  left
  change ¬ ('a' : Char).toNat ≤ c.toNat
  omega

theorem IsDomain.forall_isHostChar (h : IsDomain d) : ∀ c ∈ d, isHostChar c = true := by
  obtain ⟨name, letters, rfl, -, hname, -, hletters⟩ := h
  refine List.forall_mem_append.2 ⟨hname, List.forall_mem_cons.2 ⟨rfl, fun c hc => ?_⟩⟩
  simp [isHostChar, hletters c hc]

theorem IsDomain.ne_nil (h : IsDomain d) : d ≠ [] := by
  obtain ⟨name, letters, rfl, -⟩ := h
  simp

theorem IsDomain.exists_last (h : IsDomain d) : ∃ lead c, d = lead ++ [c] ∧ c.isLower = true := by
  obtain ⟨name, letters, rfl, -, -, hne, hletters⟩ := h
  obtain ⟨front, c, rfl⟩ := (List.eq_nil_or_concat' letters).resolve_left hne
  exact ⟨name ++ '.' :: front, c, by simp, hletters c (by simp)⟩

theorem IsTail.isLower_eq_false (h : IsTail tail) : ∀ c ∈ tail, c.isLower = false := by
  obtain ⟨dot, port, rfl, hdot, hport⟩ := h
  refine List.forall_mem_append.2 ⟨?_, ?_⟩
  · rcases hdot with rfl | rfl
    · simp
    · simp [Char.isLower]
  · rcases hport with rfl | ⟨digits, rfl, -, hdigits⟩
    · simp
    · refine List.forall_mem_cons.2 ⟨rfl, fun c hc => ?_⟩
      exact isLower_eq_false_of_isDigit (hdigits c hc)

open Expr in
def domainExpr : Expr :=
  seq (rep (one (.union (.range 'a' 'z') (.union (.range '0' '9')
      (.union (.single '-') (.single '.'))))) 1 none true)
    (seq (ofChar '.') (rep (one (.range 'a' 'z')) 1 none true))

open Expr in
def tailExpr : Expr :=
  seq (rep (ofChar '.') 0 (some 1) true)
    (seq (rep (group 3 (seq (ofChar ':') (rep (one (.range '0' '9')) 1 none true))) 0 (some 1) true)
      (look .textEnd))

/-- What may stand in front of the domain. -/
def www : Text := "www."

def wwwExpr : Expr := (nameItem [www]).expr

theorem parse?_hostPattern : parse? false hostPattern =
    some (.seq (.look .textStart) (.seq (.rep wwwExpr 0 (some 1) true)
      (.seq (.group 2 domainExpr) tailExpr))) := by decide +kernel

theorem matches_domainExpr : domainExpr.Matches pre mid post ↔ IsDomain mid := by
  have hchar : ∀ c, (CharClass.union (.range 'a' 'z') (.union (.range '0' '9')
      (.union (.single '-') (.single '.')))).contains c = isHostChar c := fun c => by
    change (c.isLower || (c.isDigit || (c == '-' || c == '.'))) = isHostChar c
    rw [isHostChar, Bool.or_assoc, Bool.or_assoc]
  simp only [domainExpr, Expr.matches_seq, Expr.matches_ofChar, Expr.matches_some, hchar]
  constructor
  · rintro ⟨name, -, rfl, ⟨hne, hname⟩, -, letters, rfl, rfl, hne', hletters⟩
    exact ⟨name, letters, rfl, hne, hname, hne', hletters⟩
  · rintro ⟨name, letters, rfl, hne, hname, hne', hletters⟩
    exact ⟨name, '.' :: letters, rfl, ⟨hne, hname⟩, ['.'], letters, rfl, rfl, hne', hletters⟩

theorem matches_tailExpr : tailExpr.Matches pre mid post ↔ IsTail mid ∧ post = [] := by
  simp only [tailExpr, Expr.matches_seq, Expr.matches_ofChar, Expr.matches_some,
    Expr.matches_optional, Expr.matches_group, Expr.matches_textEnd]
  constructor
  · rintro ⟨dot, -, rfl, hdot, port, -, rfl, hport, rfl, rfl⟩
    refine ⟨⟨dot, port, by simp, hdot, hport.imp_right ?_⟩, rfl⟩
    rintro ⟨-, digits, rfl, rfl, hne, hdigits⟩
    exact ⟨digits, rfl, hne, hdigits⟩
  · rintro ⟨⟨dot, port, rfl, hdot, hport⟩, rfl⟩
    refine ⟨dot, port, rfl, hdot, port, [], by simp, hport.imp_right ?_, rfl, rfl⟩
    rintro ⟨digits, rfl, hne, hdigits⟩
    exact ⟨[':'], digits, rfl, rfl, hne, hdigits⟩

/-- The threads in front of the domain: behind `www.` if the host begins with it, and at the start. -/
def starts (host : Text) : List Thread := afterNames [www] [] host ++ [⟨.between [] host, []⟩]

theorem starts_append (rest : Text) :
    starts (www ++ rest) = [named [] www rest, ⟨.between [] (www ++ rest), []⟩] := by
  simp [starts, afterNames, Text.stripPrefix?_eq_some_iff.2 rfl]

theorem starts_of_not_www (h : ¬ www <+: host) : starts host = [⟨.between [] host, []⟩] := by
  simp [starts, afterNames, Text.stripPrefix?_eq_none_iff.2 h]

theorem mem_starts (hu : u ∈ starts host) :
    (∃ rest, host = www ++ rest ∧ u = named [] www rest) ∨ u = ⟨.between [] host, []⟩ := by
  by_cases h : www <+: host
  · obtain ⟨rest, rfl⟩ := h
    rw [starts_append, List.mem_pair] at hu
    exact hu.imp_left fun hu => ⟨rest, rfl, hu⟩
  · rw [starts_of_not_www h, List.mem_singleton] at hu
    exact .inr hu

theorem starts_in : ∀ u ∈ starts host, u.cursor.In host := by
  intro u hu
  rcases mem_starts hu with ⟨rest, rfl, rfl⟩ | rfl
  · exact ⟨www, rest, rfl, rfl⟩
  · exact ⟨[], host, rfl, rfl⟩

theorem pos_named (rest : Text) : (named [] www rest).pos = 4 := rfl

theorem nodup_starts (host : Text) : ((starts host).map Thread.pos).Nodup := by
  by_cases h : www <+: host
  · obtain ⟨rest, rfl⟩ := h
    rw [starts_append]
    have hstart : (⟨.between [] (www ++ rest), []⟩ : Thread).pos = 0 := rfl
    simp [pos_named, hstart]
  · rw [starts_of_not_www h]
    exact List.nodup_singleton _

theorem run_starts (host : Text) :
    (Expr.rep wwwExpr 0 (some 1) true).run [⟨.between [] host, []⟩] = starts host := by
  have hwww : wwwExpr.run [⟨.between [] host, []⟩] = afterNames [www] [] host :=
    run_nameItem (by simp) (List.nodup_singleton www) [] host
  have hin : (⟨.between [] host, []⟩ : Thread).cursor.In host := ⟨[], host, rfl, rfl⟩
  have hnodup := nodup_starts host
  rw [starts, ← hwww] at hnodup
  rw [Expr.run_optional hin hnodup, hwww, starts]

def afterDomain (host : Text) : List Thread := (Expr.group 2 domainExpr).run (starts host)

theorem run_hostExpr (host : Text) :
    (Expr.seq (.look .textStart) (.seq (.rep wwwExpr 0 (some 1) true)
      (.seq (.group 2 domainExpr) tailExpr))).run
        ((Cursor.suffixes 0 none host).map fun k => ⟨k, []⟩) = tailExpr.run (afterDomain host) := by
  change tailExpr.run ((Expr.group 2 domainExpr).run ((Expr.rep wwwExpr 0 (some 1) true).run
    ((Expr.look .textStart).run _))) = _
  rw [Expr.run_textStart, run_starts, afterDomain]

theorem afterDomain_in : ∀ u ∈ afterDomain host, u.cursor.In host :=
  ((Expr.group 2 domainExpr).traces_run host).forall_in (Expr.leads_forward _ _) starts_in
    (nodup_starts host)

/-- A thread behind the domain has captured it since the start that it came from. -/
theorem exists_of_mem_run_domain (hu : u.cursor.In host) (h : v ∈ domainExpr.run [u]) :
    ∃ pre d post, host = pre ++ (d ++ post) ∧ u.cursor = .between pre (d ++ post) ∧
      v.cursor = .between (pre ++ d) post ∧ IsDomain d ∧
      texts (u.capture 2 v) = (2, d) :: texts u := by
  obtain ⟨w, hw, pre, d, post, gs, ht, hcursor, hv, hgs, hcaptures⟩ :=
    Expr.exists_passes_of_mem_run (t := host) (by simpa using hu) h
  obtain rfl := List.mem_singleton.1 hw
  have hnone : gs = [] := by
    refine List.eq_nil_iff_forall_not_mem.2 fun g hg => ?_
    obtain ⟨body, hbody, -⟩ := hcaptures.exists_body (List.mem_map_of_mem hg)
    cases hbody
  have htexts : texts v = texts w := by rw [texts, texts, hgs, hnone, List.nil_append]
  refine ⟨pre, d, post, ht, hcursor, hv, matches_domainExpr.1 hcaptures.matches, ?_⟩
  rw [texts_capture_between hcursor hv, htexts]

/-- What follows the domain captures nothing with the number of the domain. -/
theorem exists_of_mem_run_tail (h : v ∈ tailExpr.run (afterDomain host)) :
    ∃ u ∈ afterDomain host, ∃ pre tail, host = pre ++ tail ∧ u.cursor = .between pre tail ∧
      IsTail tail ∧ (texts v).lookup 2 = (texts u).lookup 2 := by
  obtain ⟨u, hu, pre, tail, post, gs, ht, hcursor, -, hgs, hcaptures⟩ :=
    Expr.exists_passes_of_mem_run afterDomain_in h
  obtain ⟨htail, rfl⟩ := matches_tailExpr.1 hcaptures.matches
  rw [List.append_nil] at ht hcursor
  refine ⟨u, hu, pre, tail, ht, hcursor, htail, ?_⟩
  have hnone : (gs.map fun g => (g.1, g.2.text)).lookup 2 = none := by
    refine List.lookup_eq_none_iff.2 fun g hg => ?_
    obtain ⟨i, m⟩ := g
    obtain ⟨body, hbody, -⟩ := hcaptures.exists_body hg
    obtain rfl : 3 = i := by simpa [tailExpr, Expr.bodies, Expr.ofChar] using List.ne_nil_of_mem hbody
    rfl
  rw [texts, hgs, List.map_append, List.lookup_append, hnone, Option.none_or, texts]

/-- A domain that is captured from the start of a host does not begin with `www.` and a domain, since
the other thread comes first. -/
theorem not_isDomain_of_first {us ws : List Thread} {rest : Text}
    (hstarts : starts (www ++ (rest ++ tail)) = us ++ ⟨.between [] (www ++ (rest ++ tail)), []⟩ :: ws)
    (hfirst : ∀ w ∈ us, ∀ y ∈ (domainExpr.run [w]).map fun y => w.capture 2 y,
      y.pos ≠ (www ++ rest).length) : ¬ IsDomain rest := by
  intro hrest
  have hmem : named [] www (rest ++ tail) ∈ us := by
    rw [starts_append] at hstarts
    cases us with
    | nil =>
      have hpos := congrArg Thread.pos (List.cons.inj hstarts).1
      rw [pos_named] at hpos
      cases hpos
    | cons w us =>
      rw [(List.cons.inj hstarts).1]
      exact List.mem_cons_self
  have hin : (named [] www (rest ++ tail)).cursor.In (www ++ (rest ++ tail)) :=
    ⟨www, rest ++ tail, rfl, rfl⟩
  have hleads : domainExpr.Leads (www ++ (rest ++ tail)) (named [] www (rest ++ tail)).cursor
      (.between (www ++ rest) tail) :=
    ⟨www, rest, tail, rfl, rfl, rfl, matches_domainExpr.2 hrest⟩
  obtain ⟨y, hy, hcursor⟩ :=
    List.mem_map.1 (((domainExpr.traces_run _).reaches _ hin _).2 hleads)
  refine hfirst _ hmem _ (List.mem_map_of_mem hy) ?_
  change y.cursor.pos = _
  rw [hcursor]
  rfl

/-- A thread behind the domain comes from one of the starts, the first one from which its place is
reached. -/
theorem exists_of_mem_afterDomain (hu : u ∈ afterDomain (pre ++ tail))
    (hcursor : u.cursor = .between pre tail) :
    ∃ lead d, pre = lead ++ d ∧ IsDomain d ∧ (texts u).lookup 2 = some d ∧
      (lead = www ∨ lead = [] ∧ ∀ rest, d = www ++ rest → ¬ IsDomain rest) := by
  obtain ⟨us, s, ws, hstarts, hmem, hfirst⟩ := Thread.exists_first_of_mem_gatherFrom hu
  obtain ⟨y, hy, rfl⟩ := List.mem_map.1 hmem
  have hs : s ∈ starts (pre ++ tail) := by simp [hstarts]
  obtain ⟨lead, d, post, hhost, hlead, hcursor', hd, htexts⟩ :=
    exists_of_mem_run_domain (starts_in s hs) hy
  have hcursors : Cursor.between pre tail = .between (lead ++ d) post := hcursor.symm.trans hcursor'
  obtain ⟨rfl, rfl⟩ : pre = lead ++ d ∧ tail = post := by
    rw [← List.append_assoc] at hhost
    exact List.append_inj hhost (congrArg Cursor.pos hcursors)
  have hpos : (s.capture 2 y).pos = (lead ++ d).length := congrArg Cursor.pos hcursor
  refine ⟨lead, d, rfl, hd, by rw [htexts]; rfl, ?_⟩
  rcases mem_starts hs with ⟨rest, hrest, rfl⟩ | rfl
  · have hlength : lead.length = www.length := (congrArg Cursor.pos hlead).symm
    rw [List.append_assoc] at hrest
    exact .inl (List.append_inj hrest hlength).1
  · obtain rfl : lead = [] := List.length_eq_zero_iff.1 (congrArg Cursor.pos hlead).symm
    refine .inr ⟨rfl, ?_⟩
    rintro rest rfl
    rw [List.nil_append, List.append_assoc] at hstarts
    refine not_isDomain_of_first hstarts fun w hw y' hy' => ?_
    have hne := hfirst w hw y' hy'
    rw [hpos] at hne
    exact hne

theorem exists_of_captures? {gs : List (ℕ × Text)} (h : captures? false hostPattern host = some gs) :
    ∃ lead d tail, host = lead ++ (d ++ tail) ∧ IsDomain d ∧ IsTail tail ∧ gs.lookup 2 = some d ∧
      (lead = www ∨ lead = [] ∧ ∀ rest, d = www ++ rest → ¬ IsDomain rest) := by
  rw [captures?, parse?_hostPattern, Option.bind_some, Expr.find?, run_hostExpr] at h
  obtain ⟨v, hv, rfl⟩ := Option.map_eq_some_iff.1 h
  obtain ⟨u, hu, pre, tail, rfl, hcursor, htail, hlookup⟩ :=
    exists_of_mem_run_tail (List.mem_of_head? hv)
  obtain ⟨lead, d, rfl, hd, hcaptured, hlead⟩ := exists_of_mem_afterDomain hu hcursor
  exact ⟨lead, d, tail, List.append_assoc lead d tail, hd, htail, hlookup.trans hcaptured, hlead⟩

theorem exists_captures?_of_isDomain {lead : Text} (hlead : lead = www ∨ lead = []) (hd : IsDomain d)
    (htail : IsTail tail) : ∃ gs, captures? false hostPattern (lead ++ (d ++ tail)) = some gs := by
  refine exists_captures? ((found_iff_of_parse? parse?_hostPattern).2
    ⟨[], lead ++ (d ++ tail), [], by simp, [], lead ++ (d ++ tail), rfl,
      Expr.matches_textStart.2 ⟨rfl, rfl⟩, lead, d ++ tail, rfl, ?_, d, tail, rfl,
      matches_domainExpr.2 hd, matches_tailExpr.2 ⟨htail, rfl⟩⟩)
  refine Expr.matches_optional.2 (hlead.symm.imp_right fun h => ?_)
  exact (matches_nameItem_iff (by simp)).2 (by simp [h])

theorem append_cons_inj_of_last {p : Char → Bool} {front front' back back' : Text} {c c' : Char}
    (hc : p c = true) (hc' : p c' = true) (hback : ∀ x ∈ back, p x = false)
    (hback' : ∀ x ∈ back', p x = false) (h : front ++ c :: back = front' ++ c' :: back') :
    front = front' ∧ c = c' ∧ back = back' := by
  rcases List.append_eq_append_iff.1 h with ⟨z, rfl, hz⟩ | ⟨z, rfl, hz⟩
  · cases z with
    | nil => simpa using hz
    | cons x z =>
      have hmem : c' ∈ back := by simp [(List.cons.inj hz).2]
      simp [hback c' hmem] at hc'
  · cases z with
    | nil => simpa [eq_comm] using hz
    | cons x z =>
      have hmem : c ∈ back' := by simp [(List.cons.inj hz).2]
      simp [hback' c hmem] at hc

theorem IsDomain.append_inj {lead lead' d' tail' : Text} (hd : IsDomain d) (htail : IsTail tail)
    (hd' : IsDomain d') (htail' : IsTail tail')
    (h : lead ++ (d ++ tail) = lead' ++ (d' ++ tail')) : lead ++ d = lead' ++ d' := by
  obtain ⟨front, c, rfl, hc⟩ := hd.exists_last
  obtain ⟨front', c', rfl, hc'⟩ := hd'.exists_last
  have hhost : (lead ++ front) ++ c :: tail = (lead' ++ front') ++ c' :: tail' := by simpa using h
  obtain ⟨hfront, rfl, -⟩ := append_cons_inj_of_last hc hc' htail.isLower_eq_false
    htail'.isLower_eq_false hhost
  rw [← List.append_assoc, ← List.append_assoc, hfront]

/-- Where a domain is in a host: behind `www.`, or at the start unless a domain also follows `www.`
there. -/
def Places (host d : Text) : Prop :=
  ∃ lead tail, host = lead ++ (d ++ tail) ∧ IsTail tail ∧
    (lead = www ∨ lead = [] ∧ ∀ rest, d = www ++ rest → ¬ IsDomain rest)

theorem Places.unique {d' : Text} (hd : IsDomain d) (hd' : IsDomain d') (h : Places host d)
    (h' : Places host d') : d = d' := by
  obtain ⟨lead, tail, rfl, htail, hlead⟩ := h
  obtain ⟨lead', tail', hhost, htail', hlead'⟩ := h'
  have heq := hd.append_inj htail hd' htail' hhost
  rcases hlead with rfl | ⟨rfl, hfirst⟩ <;> rcases hlead' with rfl | ⟨rfl, hfirst'⟩
  · exact List.append_cancel_left heq
  · exact absurd hd (hfirst' d heq.symm)
  · exact absurd hd' (hfirst d' heq)
  · exact heq

/-- The domain is the one that has its place in the host, if there is one. -/
theorem domainOf_eq_iff (hd : d ≠ []) : domainOf host = d ↔ IsDomain d ∧ Places host d := by
  cases hc : captures? false hostPattern host with
  | none =>
    have hnil : domainOf host = [] := by simp [domainOf, hc]
    rw [hnil]
    refine iff_of_false hd.symm ?_
    rintro ⟨hdomain, lead, tail, rfl, htail, hlead⟩
    obtain ⟨gs, hgs⟩ := exists_captures?_of_isDomain (hlead.imp_right And.left) hdomain htail
    rw [hc] at hgs
    cases hgs
  | some gs =>
    obtain ⟨lead, d', tail, rfl, hd', htail, hlookup, hlead⟩ := exists_of_captures? hc
    have heq : domainOf (lead ++ (d' ++ tail)) = d' := by simp [domainOf, hc, hlookup]
    have hplaces : Places (lead ++ (d' ++ tail)) d' := ⟨lead, tail, rfl, htail, hlead⟩
    rw [heq]
    constructor
    · rintro rfl
      exact ⟨hd', hplaces⟩
    · rintro ⟨hdomain, h⟩
      exact hplaces.unique hd' hdomain h

/-- A domain that does not begin with `www.` is found in all its hosts, and the domain that is found
in a host is one with such a host. -/
theorem domain_ofRequest_canonical (uri : Text) (pattern : Option Text) :
    (∀ d tail, IsDomain d → ¬ www <+: d → IsTail tail →
      (ofRequest (d ++ tail) uri pattern).domain = d ∧
        (ofRequest (www ++ (d ++ tail)) uri pattern).domain = d) ∧
    ∀ host d, (ofRequest host uri pattern).domain = d →
      d = [] ∨ IsDomain d ∧ (∀ c ∈ d, isHostChar c = true) ∧
        ∃ lead tail, host = lead ++ (d ++ tail) ∧ (lead = www ∨ lead = []) ∧ IsTail tail := by
  simp only [domain_ofRequest]
  constructor
  · intro d tail hd hwww htail
    have hfirst : ∀ rest, d = www ++ rest → ¬ IsDomain rest := fun rest hrest _ =>
      hwww ⟨rest, hrest.symm⟩
    exact ⟨(domainOf_eq_iff hd.ne_nil).2 ⟨hd, [], tail, rfl, htail, .inr ⟨rfl, hfirst⟩⟩,
      (domainOf_eq_iff hd.ne_nil).2 ⟨hd, www, tail, rfl, htail, .inl rfl⟩⟩
  · intro host d h
    by_cases hne : d = []
    · exact .inl hne
    · obtain ⟨hd, lead, tail, hhost, htail, hlead⟩ := (domainOf_eq_iff hne).1 h
      exact .inr ⟨hd, hd.forall_isHostChar, lead, tail, hhost, hlead.imp_right And.left, htail⟩

/-- A host with all that may stand around its domain. -/
theorem domain_ofRequest_around :
    (IsDomain "example.com" ∧ ¬ www <+: ("example.com" : Text) ∧ IsTail ".:8080") ∧
      (ofRequest "example.com.:8080" "/" none).domain = "example.com" ∧
      (ofRequest "www.example.com.:8080" "/" none).domain = "example.com" := by
  have hd : IsDomain "example.com" :=
    ⟨"example", "com", rfl, by decide, List.all_eq_true.1 rfl, by decide, List.all_eq_true.1 rfl⟩
  have hwww : ¬ www <+: ("example.com" : Text) := by decide
  have htail : IsTail ".:8080" :=
    ⟨".", ":8080", rfl, .inr rfl, .inr ⟨"8080", rfl, by decide, List.all_eq_true.1 rfl⟩⟩
  have hhost : ("example.com.:8080" : Text) = "example.com" ++ ".:8080" := rfl
  have hhost' : ("www.example.com.:8080" : Text) = www ++ ("example.com" ++ ".:8080") := rfl
  refine ⟨⟨hd, hwww, htail⟩, ?_⟩
  rw [hhost, hhost']
  exact (domain_ofRequest_canonical "/" none).1 _ _ hd hwww htail

/-- Where nothing that follows it is a domain, `www.` belongs to the domain. -/
example : domainOf "www.example.com" = "example.com" ∧ domainOf "www.com" = "www.com" := by
  decide +kernel

end PageCache.Tenant
