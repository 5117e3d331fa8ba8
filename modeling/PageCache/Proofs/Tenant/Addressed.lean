import PageCache.Proofs.Path.Template
import PageCache.Proofs.Tenant.Path
import PageCache.Proofs.Text.Bytes

/-! The tenant of a path. Main statements: below a base path of literal characters the tenant is the
one with the least of the names to which the path leads, whatever the names are, and a base path is
read as a directory exactly if there is no dot in it. -/
namespace PageCache.Tenant

open Pattern

variable {base uri n r : Text} {names : TextSet}

theorem isSmall_pathPattern_iff (hbase : ∀ c ∈ base, isPlain c = true) (hnames : names.toList ≠ []) :
    isSmall (pathPattern base names) = true ↔
      (pathItem base.trimEndSlashes names.toList).expr.weight ≤ weightLimit := by
  rw [pathPattern_eq]
  exact isSmall_patternBelow_iff (fun c hc => hbase c (Text.mem_of_mem_trimEndSlashes hc)) hnames

theorem captures?_pathPattern (hbase : ∀ c ∈ base, isPlain c = true) (hnames : names.toList ≠ [])
    (hsmall : isSmall (pathPattern base names) = true) (uri : Text) :
    captures? false (pathPattern base names) uri =
      (pathItem base.trimEndSlashes names.toList).expr.find? uri := by
  rw [pathPattern_eq] at hsmall ⊢
  rw [captures?, parse?_patternBelow (fun c hc => hbase c (Text.mem_of_mem_trimEndSlashes hc))
    hnames hsmall, Option.bind_some]

/-- The tenant is the first one to which the path leads, if there is one. -/
theorem ofRequest_pathPattern_cases (hbase : ∀ c ∈ base, isPlain c = true)
    (hnames : names.toList ≠ []) (hsmall : isSmall (pathPattern base names) = true)
    (host uri : Text) :
    (∃ ns n ns' r, names.toList = ns ++ n :: ns' ∧ Splits base.trimEndSlashes uri n r ∧
      ofRequest host uri (some (pathPattern base names)) =
        { domain := domainOf host, name := some n, uri := r } ∧
      ∀ m ∈ ns, ∀ q, ¬ Splits base.trimEndSlashes uri m q) ∨
    (∀ n ∈ names.toList, ∀ r, ¬ Splits base.trimEndSlashes uri n r) ∧
      ofRequest host uri (some (pathPattern base names)) =
        { domain := domainOf host, name := none, uri } := by
  have hcaptures := captures?_pathPattern hbase hnames hsmall uri
  cases hfind : (pathItem base.trimEndSlashes names.toList).expr.find? uri with
  | some gs =>
    obtain ⟨ns, n, ns', r, hsplit, hsplits, rfl, hfirst⟩ :=
      exists_first_of_find? hnames names.nodup_toList hfind
    refine .inl ⟨ns, n, ns', r, hsplit, hsplits, ?_, hfirst⟩
    simp [ofRequest, hcaptures, hfind, List.lookup]
  | none =>
    refine .inr ⟨fun n hn r hsplits => ?_, ?_⟩
    · have hsome := isSome_find? names.nodup_toList hn hsplits
      rw [hfind] at hsome
      cases hsome
    · simp [ofRequest, hcaptures, hfind]

/-- The path is the base path, a slash, one of the names and a rest. -/
structure Addresses (base : Text) (names : TextSet) (uri n r : Text) : Prop where
  mem : n ∈ names.toList
  uri_eq : uri = base ++ "/" ++ n ++ r
  rest : IsRest r

theorem addresses_iff (h : '.' ∉ base) :
    Addresses base names uri n r ↔ n ∈ names.toList ∧ Splits base uri n r := by
  have hsplits : Splits base uri n r ↔ uri = base ++ "/" ++ n ++ r ∧ IsRest r := by
    simp [Splits, Piece.admits_plain_iff h]
  rw [hsplits]
  exact ⟨fun h => ⟨h.mem, h.uri_eq, h.rest⟩, fun ⟨hmem, huri, hrest⟩ => ⟨hmem, huri, hrest⟩⟩

/-- The tenant of a path is the one with the least name, by bytes, to which the path leads. -/
theorem ofRequest_pathPattern_iff (hbase : ∀ c ∈ base, isPlain c = true ∧ c ≠ '.')
    (hnames : names.toList ≠ []) (hsmall : isSmall (pathPattern base names) = true)
    (host uri : Text) :
    (∀ n r, ((ofRequest host uri (some (pathPattern base names))).name = some n ∧
        (ofRequest host uri (some (pathPattern base names))).uri = r) ↔
      Addresses base.trimEndSlashes names uri n r ∧
        ∀ m q, Addresses base.trimEndSlashes names uri m q → Utf8.bytes n ≤ Utf8.bytes m) ∧
    ((∀ n r, ¬ Addresses base.trimEndSlashes names uri n r) →
      (ofRequest host uri (some (pathPattern base names))).name = none ∧
        (ofRequest host uri (some (pathPattern base names))).uri = uri) := by
  have hdot : '.' ∉ base.trimEndSlashes := fun h =>
    (hbase _ (Text.mem_of_mem_trimEndSlashes h)).2 rfl
  rcases ofRequest_pathPattern_cases (fun c hc => (hbase c hc).1) hnames hsmall host uri with
    ⟨ns, n, ns', r, hsplit, hsplits, htenant, hfirst⟩ | ⟨hnone, htenant⟩
  · have hn : Addresses base.trimEndSlashes names uri n r :=
      (addresses_iff hdot).2 ⟨by simp [hsplit], hsplits⟩
    have hleast : ∀ m q, Addresses base.trimEndSlashes names uri m q → ¬ m < n := by
      intro m q hm hlt
      exact hfirst m (TextSet.mem_left_of_lt hsplit hm.mem hlt) q ((addresses_iff hdot).1 hm).2
    rw [htenant]
    refine ⟨fun n' r' => ⟨?_, ?_⟩, fun hnone => absurd hn (hnone n r)⟩
    · rintro ⟨hname, rfl⟩
      obtain rfl := Option.some.inj hname
      exact ⟨hn, fun m q hm => Utf8.bytes_le_bytes_iff.2 (hleast m q hm)⟩
    · rintro ⟨hn', hleast'⟩
      have hlt : ¬ n < n' := Utf8.bytes_le_bytes_iff.1 (hleast' n r hn)
      obtain rfl : n = n' :=
        List.le_antisymm (List.not_lt.1 (hleast n' r' hn')) (List.not_lt.1 hlt)
      exact ⟨rfl, List.append_cancel_left (hn.uri_eq.symm.trans hn'.uri_eq)⟩
  · rw [htenant]
    have hnot : ∀ m q, ¬ Addresses base.trimEndSlashes names uri m q := fun m q hm =>
      hnone m hm.mem q ((addresses_iff hdot).1 hm).2
    exact ⟨fun n r => ⟨fun h => by simp at h, fun h => absurd h.1 (hnot n r)⟩, fun _ => ⟨rfl, rfl⟩⟩

/-- Of a name and its extension by a slash and more the shorter one is found. -/
theorem ofRequest_pathPattern_shop :
    let base : Text := "/sites/"
    let names : TextSet := .ofList ["shop/a+b", "shop"]
    (∀ c ∈ base, isPlain c = true ∧ c ≠ '.') ∧ names.toList ≠ [] ∧
      isSmall (pathPattern base names) = true ∧
      ((ofRequest "example.com" "/sites/shop/a+b/" (some (pathPattern base names))).name =
          some "shop" ∧
        (ofRequest "example.com" "/sites/shop/a+b/" (some (pathPattern base names))).uri =
          "/a+b/") := by
  intro base names
  have hbase : ∀ c ∈ base, isPlain c = true ∧ c ≠ '.' := by simp [base, isPlain]
  have hnames : names.toList ≠ [] := by decide +kernel
  have hsmall : isSmall (pathPattern base names) = true :=
    (isSmall_pathPattern_iff (fun c hc => (hbase c hc).1) hnames).2 (by decide +kernel)
  have htenant := (ofRequest_pathPattern_iff hbase hnames hsmall "example.com"
    "/sites/shop/a+b/").1 "shop" "/a+b/"
  refine ⟨hbase, hnames, hsmall, htenant.2 ⟨?_, fun m q hm => ?_⟩⟩
  · exact ⟨by decide +kernel, by decide +kernel, by decide +kernel⟩
  · have hmem : ∀ m ∈ names.toList, Utf8.bytes "shop" ≤ Utf8.bytes m := by decide +kernel
    exact hmem m hm.mem

/-- A name is assigned below an admitted base path only, and to each path below one. -/
theorem name_isSome_iff (hbase : ∀ c ∈ base, isPlain c = true) (hnames : names.toList ≠ [])
    (hsmall : isSmall (pathPattern base names) = true) (hline : '\n' ∉ uri) (host : Text) :
    (ofRequest host uri (some (pathPattern base names))).name.isSome ↔
      ∃ lead n r, (Piece.plain base.trimEndSlashes).Admits lead ∧ n ∈ names.toList ∧
        uri = lead ++ "/" ++ n ++ "/" ++ r := by
  rcases ofRequest_pathPattern_cases hbase hnames hsmall host uri with
    ⟨ns, n, ns', r, hsplit, ⟨lead, hlead, huri, hrest⟩, htenant, -⟩ | ⟨hnone, htenant⟩
  · rw [htenant]
    obtain ⟨r, rfl⟩ := List.head?_eq_some_iff.1 hrest.1
    exact iff_of_true rfl ⟨lead, n, r, hlead, by simp [hsplit], by simp [huri]⟩
  · rw [htenant]
    refine iff_of_false (by simp) ?_
    rintro ⟨lead, n, r, hlead, hn, rfl⟩
    have hrest : IsRest ('/' :: r) :=
      isRest_slash_cons_iff.2 fun hmem => hline (List.mem_append_right _ hmem)
    exact hnone n hn ('/' :: r) ⟨lead, hlead, by simp, hrest⟩

/-- The base path is read as a directory: only what is in it has a name, and so has each path below
a name in it. -/
structure ReadsDirectory (base : Text) (names : TextSet) (host uri : Text) : Prop where
  below : (ofRequest host uri (some (pathPattern base names))).name.isSome →
    base.trimEndSlashes ++ ("/" : Text) <+: uri
  found : ∀ n ∈ names.toList, ∀ r, uri = base.trimEndSlashes ++ "/" ++ n ++ "/" ++ r →
    (ofRequest host uri (some (pathPattern base names))).name.isSome

/-- The path with another character in place of each dot. -/
def undotted (base : Text) : Text := base.map fun c => if c = '.' then 'x' else c

theorem admits_undotted (base : Text) : (Piece.plain base).Admits (undotted base) := by
  simp only [Piece.Admits, undotted]
  refine List.forall₂_map_right_iff.2 (List.forall₂_same.2 fun c _ => ?_)
  split
  · decide
  · rfl

theorem dot_notMem_undotted (base : Text) : '.' ∉ undotted base := by
  intro h
  obtain ⟨c, -, hc⟩ := List.mem_map.1 h
  split at hc
  · cases hc
  · next hne => exact hne hc

theorem newline_mem_of_mem_undotted (h : '\n' ∈ undotted base) : '\n' ∈ base := by
  obtain ⟨c, hc, heq⟩ := List.mem_map.1 h
  split at heq
  · cases heq
  · exact heq ▸ hc

/-- A base path is read as a directory exactly if there is no dot in it, except where no path on one
line leads to any name. -/
theorem readsDirectory_iff (hbase : ∀ c ∈ base, isPlain c = true) (hnames : names.toList ≠ [])
    (hsmall : isSmall (pathPattern base names) = true) :
    (∀ host uri, '\n' ∉ uri → ReadsDirectory base names host uri) ↔
      '.' ∉ base ∨ '\n' ∈ base ∨ ∀ n ∈ names.toList, '\n' ∈ n := by
  constructor
  · intro hreads
    by_contra hcontra
    push Not at hcontra
    obtain ⟨hdot, hline, n, hn, hlinen⟩ := hcontra
    let lead := undotted base.trimEndSlashes
    have hleadline : '\n' ∉ lead := fun h =>
      hline (Text.mem_of_mem_trimEndSlashes (newline_mem_of_mem_undotted h))
    have huri : '\n' ∉ lead ++ ("/" : Text) ++ n ++ ("/" : Text) ++ [] := by
      simp [hleadline, hlinen]
    have hname := (name_isSome_iff hbase hnames hsmall huri []).2
      ⟨lead, n, [], admits_undotted _, hn, rfl⟩
    obtain ⟨rest, hrest⟩ := (hreads [] _ huri).below hname
    have hlead : base.trimEndSlashes = lead := by
      simp only [List.append_assoc] at hrest
      exact (List.append_inj hrest (by simp [lead, undotted])).1
    have hmem := (Text.mem_trimEndSlashes_iff (by decide)).2 hdot
    rw [hlead] at hmem
    exact dot_notMem_undotted _ hmem
  · intro hcases host uri hline
    have hname := name_isSome_iff hbase hnames hsmall hline host
    refine ⟨fun hsome => ?_, fun n hn r huri =>
      hname.2 ⟨_, n, r, Piece.admits_plain_self _, hn, huri⟩⟩
    obtain ⟨lead, n, r, hlead, hn, rfl⟩ := hname.1 hsome
    have hlines : '\n' ∉ lead ∧ '\n' ∉ n := by
      simp only [List.mem_append, not_or] at hline
      exact ⟨hline.1.1.1.1, hline.1.1.2⟩
    rcases hcases with hdot | hmem | hnames
    · rw [Piece.admits_plain_iff fun h => hdot (Text.mem_of_mem_trimEndSlashes h)] at hlead
      subst hlead
      simp only [List.append_assoc, List.prefix_append_right_inj]
      exact List.prefix_append _ _
    · have hmem := (Text.mem_trimEndSlashes_iff (by decide)).2 hmem
      exact absurd (Piece.mem_of_admits_plain hlead hmem (by decide)) hlines.1
    · exact absurd (hnames n hn) hlines.2

theorem readsDirectory_sites :
    let base : Text := "/sites/"
    let names : TextSet := .ofList ["shop"]
    ((∀ c ∈ base, isPlain c = true) ∧ names.toList ≠ [] ∧
      isSmall (pathPattern base names) = true) ∧
      ReadsDirectory base names "example.com" "/sites/shop/post/" := by
  intro base names
  have hbase : ∀ c ∈ base, isPlain c = true := by simp [base, isPlain]
  have hnames : names.toList ≠ [] := by decide +kernel
  have hsmall : isSmall (pathPattern base names) = true :=
    (isSmall_pathPattern_iff hbase hnames).2 (by decide +kernel)
  have hdot : '.' ∉ base := by decide +kernel
  exact ⟨⟨hbase, hnames, hsmall⟩,
    (readsDirectory_iff hbase hnames hsmall).2 (.inl hdot) _ _ (by decide +kernel)⟩

/-- A dot in the base path stands for any other character. -/
theorem not_readsDirectory :
    ¬ ReadsDirectory "/a.b/" (.ofList ["shop"]) "example.com" "/axb/shop/post/" := by
  intro h
  have hbase : ∀ c ∈ ("/a.b/" : Text), isPlain c = true := by simp [isPlain]
  have hnames : (TextSet.ofList ["shop"]).toList ≠ [] := by decide +kernel
  have hsmall := (isSmall_pathPattern_iff hbase hnames).2 (by decide +kernel)
  have hadmits : (Piece.plain "/a.b").Admits "/axb" := admits_undotted "/a.b"
  have hname := (name_isSome_iff hbase hnames hsmall (by decide +kernel) "example.com").2
    ⟨"/axb", "shop", "post/", hadmits, by decide +kernel, rfl⟩
  exact absurd (h.below hname) (by decide +kernel)

end PageCache.Tenant
