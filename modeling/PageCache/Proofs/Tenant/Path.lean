import PageCache.Proofs.Pattern.Preference
import PageCache.Proofs.Tenant.Reading

/-! Tenants that are addressed by their paths. -/
namespace PageCache.Tenant

open Pattern

variable {base lead pre rest post n r : Text} {names : List Text} {v : Thread}

def IsRest (r : Text) : Prop := r.head? = some '/' ∧ '\n' ∉ r

instance (r : Text) : Decidable (IsRest r) :=
  inferInstanceAs (Decidable (r.head? = some '/' ∧ '\n' ∉ r))

theorem isRest_slash_cons_iff {t : Text} : IsRest ('/' :: t) ↔ '\n' ∉ t := by
  simp [IsRest]

theorem matches_restExpr_iff {mid : Text} : restExpr.Matches pre mid post ↔ IsRest mid := by
  simp only [restExpr, Expr.matches_seq, Expr.matches_ofChar, Expr.matches_many, anyChar,
    CharClass.contains]
  constructor
  · rintro ⟨-, t, rfl, rfl, ht⟩
    exact isRest_slash_cons_iff.2 fun hmem => by simpa using ht _ hmem
  · intro h
    obtain ⟨t, rfl⟩ := List.head?_eq_some_iff.1 h.1
    refine ⟨['/'], t, rfl, rfl, fun c hc => ?_⟩
    have hne : c ≠ '\n' := by
      rintro rfl
      exact isRest_slash_cons_iff.1 h hc
    simpa using hne

/-- The thread behind a name, which it has captured. -/
def named (pre n post : Text) : Thread :=
  (⟨.between pre (n ++ post), []⟩ : Thread).capture 1 ⟨.between (pre ++ n) post, []⟩

/-- The groups of a thread with the texts that they captured. -/
def texts (v : Thread) : List (ℕ × Text) := v.groups.map fun g => (g.1, g.2.text)

theorem texts_capture_between {i : ℕ} {u : Thread} {mid : Text}
    (hu : u.cursor = .between pre (mid ++ post)) (hv : v.cursor = .between (pre ++ mid) post) :
    texts (u.capture i v) = (i, mid) :: texts v := by
  simp [texts, Thread.capture, Pattern.Span.text, Thread.pos, hu, hv, Cursor.between]

theorem texts_named : texts (named pre n post) = [(1, n)] :=
  texts_capture_between rfl rfl

theorem named_in : (named pre n post).cursor.In (pre ++ n ++ post) := ⟨pre ++ n, post, rfl, rfl⟩

theorem exists_mem_run_rest (pre n : Text) (h : IsRest post) :
    ∃ v ∈ restExpr.run [named pre n post], v.cursor = .between (pre ++ n ++ post) [] := by
  have hleads : restExpr.Leads (pre ++ n ++ post) (.between (pre ++ n) post)
      (.between (pre ++ n ++ post) []) :=
    Expr.leads_between.2 ⟨post, [], by simp, rfl, matches_restExpr_iff.2 h⟩
  have hmem := ((restExpr.traces_run (pre ++ n ++ post)).reaches (named pre n post) named_in _).2
    hleads
  obtain ⟨v, hv, hcursor⟩ := List.mem_map.1 hmem
  exact ⟨v, hv, hcursor⟩

/-- What is passed to its end is the rest of a path, and it is captured after the name. -/
theorem of_mem_run_rest (h : v ∈ restExpr.run [named pre n post]) (hend : v.cursor.rest = []) :
    IsRest post ∧ v.cursor = .between (pre ++ n ++ post) [] ∧
      texts ((named pre n post).capture 2 v) = [(2, post), (1, n)] := by
  obtain ⟨u, hu, pre', mid, post', gs, ht, hcursor, hv, hgs, hcaptures⟩ :=
    Expr.exists_passes_of_mem_run (t := pre ++ n ++ post) (by simpa using named_in) h
  obtain rfl := List.mem_singleton.1 hu
  obtain rfl : post' = [] := by rwa [hv] at hend
  rw [List.append_nil] at ht hcursor
  obtain ⟨rfl, rfl⟩ := List.append_inj ht (congrArg Cursor.pos hcursor)
  have hnone : gs = [] := by
    refine List.eq_nil_iff_forall_not_mem.2 fun g hg => ?_
    obtain ⟨body, hbody, -⟩ := hcaptures.exists_body (List.mem_map_of_mem hg)
    cases hbody
  refine ⟨matches_restExpr_iff.1 hcaptures.matches, hv, ?_⟩
  have hcursor' : (named pre n post).cursor = .between (pre ++ n) (post ++ []) := by
    rw [List.append_nil]
    exact hcursor
  have htexts : texts v = texts (named pre n post) := by
    rw [texts, texts, hgs, hnone, List.nil_append]
  rw [texts_capture_between hcursor' hv, htexts, texts_named]

def afterNames (names : List Text) (pre rest : Text) : List Thread :=
  names.filterMap fun n => (rest.stripPrefix? n).map (named pre n)

theorem run_nameItem (hne : names ≠ []) (hn : names.Nodup) (pre rest : Text) :
    (nameItem names).expr.run [⟨.between pre rest, []⟩] = afterNames names pre rest := by
  have hliterals := Expr.run_alternate_literals hne hn pre rest []
  rw [nameItem, Expr.run_group (hliterals ▸ Thread.nodup_behind hn), hliterals, Thread.behind,
    List.map_filterMap, afterNames]
  refine List.filterMap_congr fun n _ => ?_
  cases hstrip : rest.stripPrefix? n with
  | none => rfl
  | some post =>
    obtain rfl := Text.stripPrefix?_eq_some_iff.1 hstrip
    rfl

theorem afterNames_in (hne : names ≠ []) (hn : names.Nodup) (pre rest : Text) :
    (∀ u ∈ afterNames names pre rest, u.cursor.In (pre ++ rest)) ∧
      ((afterNames names pre rest).map Thread.pos).Nodup := by
  have hin : ∀ u ∈ [(⟨.between pre rest, []⟩ : Thread)], u.cursor.In (pre ++ rest) := by
    simpa using ⟨pre, rest, rfl, rfl⟩
  have htraces := (nameItem names).expr.traces_run (pre ++ rest)
  rw [← run_nameItem hne hn]
  exact ⟨htraces.forall_in (Expr.leads_forward _ _) hin (by simp),
    htraces.nodup _ hin (by simp)⟩

theorem exists_mem_run_restItem (hn : names.Nodup) (hmem : n ∈ names) (hrest : IsRest r)
    (pre : Text) :
    ∃ v ∈ restItem.expr.run (afterNames names pre (n ++ r)), v.cursor.rest = [] := by
  obtain ⟨hin, hnodup⟩ := afterNames_in (List.ne_nil_of_mem hmem) hn pre (n ++ r)
  have hnamed : named pre n r ∈ afterNames names pre (n ++ r) := by
    refine List.mem_filterMap.2 ⟨n, hmem, ?_⟩
    rw [Text.stripPrefix?_eq_some_iff.2 rfl, Option.map_some]
  have hleads : restItem.expr.Leads (pre ++ (n ++ r)) (named pre n r).cursor
      (.between (pre ++ (n ++ r)) []) :=
    ⟨pre ++ n, r, [], by simp, by simp [named, Thread.capture], by simp,
      matches_restExpr_iff.2 hrest⟩
  obtain ⟨v, hv, hcursor⟩ := List.mem_map.1 (((restItem.expr.traces_run _).mem _ hin hnodup _).2
    ⟨_, hnamed, hleads⟩)
  exact ⟨v, hv, by rw [hcursor]; rfl⟩

/-- Of the names with a rest, the first one is captured. -/
theorem exists_first_of_mem_run_restItem (h : v ∈ restItem.expr.run (afterNames names pre rest))
    (hend : v.cursor.rest = []) :
    ∃ ns n ns' r, names = ns ++ n :: ns' ∧ rest = n ++ r ∧ IsRest r ∧
      texts v = [(2, r), (1, n)] ∧ ∀ m ∈ ns, ∀ q, rest = m ++ q → ¬ IsRest q := by
  obtain ⟨us, u, ws, hsplit, hv, hfirst⟩ := Thread.exists_first_of_mem_gatherFrom h
  obtain ⟨ns, ns₁, rfl, rfl, hrest⟩ := List.filterMap_eq_append_iff.1 hsplit
  obtain ⟨ns₂, n, ns₃, rfl, hnone, hn, -⟩ := List.filterMap_eq_cons_iff.1 hrest
  obtain ⟨r, hr, rfl⟩ := Option.map_eq_some_iff.1 hn
  obtain rfl := Text.stripPrefix?_eq_some_iff.1 hr
  obtain ⟨x, hx, rfl⟩ := List.mem_map.1 hv
  obtain ⟨hisRest, hcursor, htexts⟩ := of_mem_run_rest hx hend
  refine ⟨ns ++ ns₂, n, ns₃, r, by simp, rfl, hisRest, htexts, fun m hm q hq hrest => ?_⟩
  have hstrip : (n ++ r).stripPrefix? m = some q := Text.stripPrefix?_eq_some_iff.2 hq
  rcases List.mem_append.1 hm with hm | hm
  · obtain ⟨y, hy, hpos⟩ := exists_mem_run_rest pre m hrest
    refine hfirst (named pre m q) (List.mem_filterMap.2 ⟨m, hm, by rw [hstrip, Option.map_some]⟩)
      _ (List.mem_map_of_mem hy) ?_
    have hlength := congrArg List.length hq
    simp only [Thread.pos, Thread.capture, hpos, hcursor, Cursor.between,
      List.length_append] at hlength ⊢
    omega
  · have hmap := hnone m hm
    rw [hstrip] at hmap
    cases hmap

theorem map_expr_pathItems (base : Text) (names : List Text) :
    (pathItems base names).map (·.expr) = .look .textStart :: ((Piece.plain base).exprs ++
      ((Piece.plain "/").exprs ++ [(nameItem names).expr, restItem.expr, .look .textEnd])) := by
  simp [pathItems, Parser.map_expr_itemsOf, Piece.exprs]

theorem run_pathItem (hne : names ≠ []) (hn : names.Nodup) (hlead : (Piece.plain base).Admits lead)
    (rest : Text) :
    (pathItem base names).expr.run
        ((Cursor.suffixes 0 none (lead ++ ("/" ++ rest))).map fun k => ⟨k, []⟩) =
      (restItem.expr.run (afterNames names (lead ++ "/") rest)).filter
        fun v => v.cursor.satisfies .textEnd := by
  have hbase := Expr.runAll_plain hlead [] ("/" ++ rest) []
  have hslash := Expr.runAll_plain (Piece.admits_plain_self "/") lead rest []
  rw [List.nil_append] at hbase
  rw [pathItem, Item.run_concat, List.reverse_reverse, map_expr_pathItems]
  change Expr.runAll _ ((Expr.look .textStart).run _) = _
  rw [Expr.run_textStart, Expr.runAll_append, hbase, Expr.runAll_append, hslash]
  change (Expr.look .textEnd).run (restItem.expr.run ((nameItem names).expr.run _)) = _
  rw [run_nameItem hne hn]
  rfl

theorem matches_nameItem_iff {mid : Text} (hne : names ≠ []) :
    (nameItem names).expr.Matches pre mid post ↔ mid ∈ names := by
  rw [nameItem, Expr.matches_group, Item.matches_alternate (by simpa using hne)]
  simp [Parser.matches_literalItem]

theorem exists_of_matches {mid : Text} (hne : names ≠ [])
    (h : (pathItem base names).expr.Matches pre mid post) :
    pre = [] ∧ post = [] ∧ ∃ lead n r, (Piece.plain base).Admits lead ∧ n ∈ names ∧ IsRest r ∧
      mid = lead ++ ("/" ++ (n ++ r)) := by
  rw [pathItem, Item.matches_concat, List.reverse_reverse, map_expr_pathItems] at h
  obtain ⟨m, mid, rfl, hstart, h⟩ := h
  obtain ⟨rfl, rfl⟩ := Expr.matches_textStart.1 hstart
  obtain ⟨lead, mid, rfl, hlead, h⟩ := sequence_append.1 h
  obtain ⟨slash, mid, rfl, hslash, h⟩ := sequence_append.1 h
  obtain ⟨n, mid, rfl, hname, r, mid, rfl, hrest, m, mid, rfl, hend, rfl⟩ := h
  obtain ⟨rfl, rfl⟩ := Expr.matches_textEnd.1 hend
  obtain rfl := (Piece.admits_plain_iff (by decide)).1 (Piece.sequence_exprs.1 hslash)
  refine ⟨rfl, rfl, lead, n, r, Piece.sequence_exprs.1 hlead, (matches_nameItem_iff hne).1 hname,
    matches_restExpr_iff.1 hrest, by simp⟩

/-- The path leads through the base path and a name to a rest. -/
def Splits (base uri n r : Text) : Prop :=
  ∃ lead, (Piece.plain base).Admits lead ∧ uri = lead ++ ("/" ++ (n ++ r)) ∧ IsRest r

theorem Splits.append_eq {m q : Text} (h : Splits base (lead ++ ("/" ++ rest)) m q)
    (hlead : (Piece.plain base).Admits lead) : rest = m ++ q := by
  obtain ⟨lead', hlead', huri, -⟩ := h
  have hlength : lead.length = lead'.length := hlead.length_eq.symm.trans hlead'.length_eq
  exact List.append_cancel_left (List.append_inj huri hlength).2

/-- The search captures the first of the names to which the path leads. -/
theorem exists_first_of_find? {uri : Text} {gs : List (ℕ × Text)} (hne : names ≠ [])
    (hn : names.Nodup) (h : (pathItem base names).expr.find? uri = some gs) :
    ∃ ns n ns' r, names = ns ++ n :: ns' ∧ Splits base uri n r ∧ gs = [(2, r), (1, n)] ∧
      ∀ m ∈ ns, ∀ q, ¬ Splits base uri m q := by
  obtain ⟨pre, mid, post, huri, hcaptures⟩ := Expr.exists_captures_of_find? h
  obtain ⟨rfl, rfl, lead, n₀, r₀, hlead, -, -, rfl⟩ := exists_of_matches hne hcaptures.matches
  obtain rfl : uri = lead ++ ("/" ++ (n₀ ++ r₀)) := by simpa using huri
  rw [Expr.find?, run_pathItem hne hn hlead] at h
  obtain ⟨v, hv, rfl⟩ := Option.map_eq_some_iff.1 h
  obtain ⟨hrun, hend⟩ := List.mem_filter.1 (List.mem_of_head? hv)
  have hend : v.cursor.rest = [] := by simpa [Cursor.satisfies, Look.holds] using hend
  obtain ⟨ns, n, ns', r, hnames, hrest, hisRest, htexts, hfirst⟩ :=
    exists_first_of_mem_run_restItem hrun hend
  refine ⟨ns, n, ns', r, hnames, ⟨lead, hlead, by rw [hrest], hisRest⟩, htexts, ?_⟩
  intro m hm q hsplits
  obtain ⟨-, -, -, hq⟩ := id hsplits
  exact hfirst m hm q (hsplits.append_eq hlead) hq

theorem isSome_find? {uri : Text} (hn : names.Nodup) (hmem : n ∈ names)
    (h : Splits base uri n r) : ((pathItem base names).expr.find? uri).isSome := by
  obtain ⟨lead, hlead, rfl, hrest⟩ := h
  obtain ⟨v, hv, hend⟩ := exists_mem_run_restItem hn hmem hrest (lead ++ "/")
  have hfilter : v ∈ (restItem.expr.run (afterNames names (lead ++ "/") (n ++ r))).filter
      fun v => v.cursor.satisfies .textEnd :=
    List.mem_filter.2 ⟨hv, by simp [Cursor.satisfies, Look.holds, hend]⟩
  rw [Expr.find?, run_pathItem (List.ne_nil_of_mem hmem) hn hlead, Option.isSome_map,
    List.isSome_head?]
  exact List.ne_nil_of_mem hfilter

end PageCache.Tenant
