import PageCache.Cdn
import PageCache.Proofs.Text.Occurrence

/-! Compressed siblings in a batch of mappings. Each mapping keeps its place in the batch, and a
mapping that is worth compressing is followed by its sibling; the batch can be read back from what
is uploaded, and two uploads have the same remote path only if the batch names a sibling itself. The
URL of a compressed file leads to the sibling exactly if the remote path has no query. -/
namespace PageCache.Cdn

open Text VariantTags

variable {f : FileMapping} {files expanded : List FileMapping} {path url p : Text}

/-- A mapping and, if it is worth compressing, its sibling. -/
def entries (f : FileMapping) : List FileMapping :=
  if mayGzip f.remotePath then [f, sibling f] else [f]

theorem entries_of_mayGzip (h : mayGzip f.remotePath = true) : entries f = [f, sibling f] :=
  if_pos h

theorem entries_of_not_mayGzip (h : mayGzip f.remotePath = false) : entries f = [f] :=
  if_neg (by simp [h])

theorem withSiblings_cons (f : FileMapping) (files : List FileMapping) :
    withSiblings (f :: files) true = entries f ++ withSiblings files true := rfl

theorem withSiblings_append (a b : List FileMapping) :
    withSiblings (a ++ b) true = withSiblings a true ++ withSiblings b true :=
  List.flatMap_append

/-- The place of the mapping with this number among the mappings and their siblings: one further for
each sibling before it. -/
def place (files : List FileMapping) (i : ℕ) : ℕ :=
  i + (files.take i).countP fun f => mayGzip f.remotePath

@[simp] theorem place_zero (files : List FileMapping) : place files 0 = 0 := by simp [place]

theorem place_cons_succ (f : FileMapping) (files : List FileMapping) (i : ℕ) :
    place (f :: files) (i + 1) = (entries f).length + place files i := by
  rw [place, place, List.take_succ_cons, List.countP_cons, entries]
  split
  · rw [List.length_cons, List.length_singleton]
    omega
  · rw [List.length_singleton]
    omega

theorem place_length (files : List FileMapping) :
    place files files.length = files.length + files.countP fun f => mayGzip f.remotePath := by
  rw [place, List.take_length]

/-- The mappings of a batch in order, directly behind each one that is worth compressing its
sibling, and nothing else: there are as many entries as mappings and siblings. -/
structure Interleaved (files expanded : List FileMapping) : Prop where
  length_eq : expanded.length = files.length + files.countP fun f => mayGzip f.remotePath
  mapping : ∀ i : ℕ, expanded[place files i]? = files[i]?
  follows : ∀ (i : ℕ) (f : FileMapping), files[i]? = some f → mayGzip f.remotePath = true →
    expanded[place files i + 1]? = some ⟨f.localPath, f.remotePath ++ ".gzip"⟩

theorem interleaved_nil_iff : Interleaved [] expanded ↔ expanded = [] := by
  constructor
  · exact fun h => List.eq_nil_of_length_eq_zero h.length_eq
  · rintro rfl
    exact ⟨rfl, by simp, by simp⟩

theorem Interleaved.exists_append (h : Interleaved (f :: files) expanded) :
    ∃ rest, expanded = entries f ++ rest := by
  have hfirst := h.mapping 0
  match expanded with
  | [] => simp at hfirst
  | g :: rest =>
    obtain rfl : g = f := by simpa using hfirst
    cases hg : mayGzip g.remotePath with
    | false => exact ⟨rest, by simp [entries_of_not_mayGzip hg]⟩
    | true =>
      have hsecond := h.follows 0 g rfl hg
      match rest with
      | [] => simp at hsecond
      | g' :: rest =>
        obtain rfl : g' = sibling g := by simpa [sibling, gzipSuffix] using hsecond
        exact ⟨rest, by simp [entries_of_mayGzip hg]⟩

/-- What comes behind the entries of the first mapping belongs to the rest of the batch. -/
theorem interleaved_append_iff :
    Interleaved (f :: files) (entries f ++ expanded) ↔ Interleaved files expanded := by
  have hlength : (f :: files).length + (f :: files).countP (fun f => mayGzip f.remotePath) =
      (entries f).length + (files.length + files.countP fun f => mayGzip f.remotePath) := by
    rw [← place_length, ← place_length, List.length_cons, place_cons_succ]
  have hget : ∀ n, (entries f ++ expanded)[(entries f).length + n]? = expanded[n]? := by
    simp [List.getElem?_append_right]
  constructor
  · intro h
    refine ⟨?_, fun i => ?_, fun i g hg hgzip => ?_⟩
    · have := h.length_eq
      rw [hlength, List.length_append] at this
      omega
    · rw [← hget, ← place_cons_succ, h.mapping, List.getElem?_cons_succ]
    · rw [← hget, ← add_assoc, ← place_cons_succ, h.follows (i + 1) g hg hgzip]
  · intro h
    refine ⟨?_, fun i => ?_, fun i g hg hgzip => ?_⟩
    · rw [hlength, List.length_append, h.length_eq]
    · cases i with
      | zero =>
        unfold entries
        split <;> simp
      | succ i => rw [place_cons_succ, hget, h.mapping, List.getElem?_cons_succ]
    · cases i with
      | zero =>
        obtain rfl : f = g := by simpa using hg
        simp [entries_of_mayGzip hgzip, sibling, gzipSuffix]
      | succ i => rw [place_cons_succ, add_assoc, hget, h.follows i g hg hgzip]

theorem interleaved_iff : Interleaved files expanded ↔ expanded = withSiblings files true := by
  induction files generalizing expanded with
  | nil => exact interleaved_nil_iff
  | cons f files ih =>
    rw [withSiblings_cons]
    constructor
    · intro h
      obtain ⟨rest, rfl⟩ := h.exists_append
      rw [ih.1 (interleaved_append_iff.1 h)]
    · rintro rfl
      exact interleaved_append_iff.2 (ih.2 rfl)

/-- Leaves out the entry behind each entry that is worth compressing. -/
def withoutSiblings : List FileMapping → List FileMapping
  | [] => []
  | [f] => [f]
  | f :: g :: rest =>
    if mayGzip f.remotePath then f :: withoutSiblings rest else f :: withoutSiblings (g :: rest)

theorem withoutSiblings_append (f : FileMapping) (rest : List FileMapping) :
    withoutSiblings (entries f ++ rest) = f :: withoutSiblings rest := by
  cases hf : mayGzip f.remotePath with
  | true => simp [entries_of_mayGzip hf, withoutSiblings, hf]
  | false => cases rest <;> simp [entries_of_not_mayGzip hf, withoutSiblings, hf]

theorem withoutSiblings_withSiblings (files : List FileMapping) :
    withoutSiblings (withSiblings files true) = files := by
  induction files with
  | nil => rfl
  | cons f files ih => rw [withSiblings_cons, withoutSiblings_append, ih]

/-- Places apart, the siblings come behind the batch. -/
theorem withSiblings_perm (files : List FileMapping) :
    (withSiblings files true).Perm
      (files ++ (files.filter fun f => mayGzip f.remotePath).map sibling) := by
  induction files with
  | nil => exact .nil
  | cons f files ih =>
    rw [withSiblings_cons, List.filter_cons]
    cases hf : mayGzip f.remotePath with
    | true =>
      rw [entries_of_mayGzip hf]
      exact .cons f ((ih.cons (sibling f)).trans List.perm_middle.symm)
    | false =>
      rw [entries_of_not_mayGzip hf]
      exact .cons f ih

/-- The remote paths of the uploads are distinct if and only if those of the batch are, and none of
them is that of a sibling. -/
theorem nodup_remotePath_withSiblings_iff :
    ((withSiblings files true).map (·.remotePath)).Nodup ↔
      (files.map (·.remotePath)).Nodup ∧
        ∀ f ∈ files, mayGzip f.remotePath = true →
          f.remotePath ++ gzipSuffix ∉ files.map (·.remotePath) := by
  have hsiblings : ((files.filter fun f => mayGzip f.remotePath).map sibling).map (·.remotePath) =
      ((files.filter fun f => mayGzip f.remotePath).map (·.remotePath)).map (· ++ gzipSuffix) := by
    simp only [List.map_map]
    rfl
  rw [((withSiblings_perm files).map _).nodup_iff, List.map_append, hsiblings, List.nodup_append',
    List.nodup_map_iff (List.append_left_injective gzipSuffix)]
  constructor
  · rintro ⟨hfiles, -, hdisjoint⟩
    refine ⟨hfiles, fun f hf hgzip hmem => hdisjoint hmem ?_⟩
    exact List.mem_map_of_mem (List.mem_map_of_mem (List.mem_filter.2 ⟨hf, hgzip⟩))
  · rintro ⟨hfiles, hapart⟩
    refine ⟨hfiles, hfiles.sublist (List.filter_sublist.map _), fun q hq hsibling => ?_⟩
    obtain ⟨_, hpath, rfl⟩ := List.mem_map.1 hsibling
    obtain ⟨f, hf, rfl⟩ := List.mem_map.1 hpath
    obtain ⟨hmem, hgzip⟩ := List.mem_filter.1 hf
    exact hapart f hmem hgzip hq

/-- What is uploaded is the batch in order, with a sibling directly behind each mapping that is
worth compressing and nowhere else; without the siblings it is the batch. If the remote paths of the
batch are distinct and none has the suffix of siblings, no upload overwrites another. -/
theorem withSiblings_lossless (files : List FileMapping) :
    (∀ expanded, withSiblings files true = expanded ↔ Interleaved files expanded) ∧
    withoutSiblings (withSiblings files true) = files ∧
    ((files.map (·.remotePath)).Nodup → (∀ f ∈ files, ¬ (".gzip" : Text) <:+ f.remotePath) →
      ((withSiblings files true).map (·.remotePath)).Nodup) := by
  refine ⟨fun expanded => eq_comm.trans interleaved_iff.symm, withoutSiblings_withSiblings files,
    fun hfiles hgzip => ?_⟩
  refine nodup_remotePath_withSiblings_iff.2 ⟨hfiles, fun f _ _ hmem => ?_⟩
  obtain ⟨g, hg, hpath⟩ := List.mem_map.1 hmem
  exact hgzip g hg ⟨f.remotePath, hpath.symm⟩

theorem withSiblings_lossless_mixed :
    let files : List FileMapping :=
      [⟨"/srv/www/app.css", "app.css"⟩, ⟨"/srv/www/logo.png", "logo.png"⟩,
        ⟨"/srv/www/a.json", "A.JSON?v=3"⟩]
    let expanded : List FileMapping :=
      [⟨"/srv/www/app.css", "app.css"⟩, ⟨"/srv/www/app.css", "app.css.gzip"⟩,
        ⟨"/srv/www/logo.png", "logo.png"⟩, ⟨"/srv/www/a.json", "A.JSON?v=3"⟩,
        ⟨"/srv/www/a.json", "A.JSON?v=3.gzip"⟩]
    (files.map (·.remotePath)).Nodup ∧ (∀ f ∈ files, ¬ (".gzip" : Text) <:+ f.remotePath) ∧
      withSiblings files true = expanded ∧ Interleaved files expanded ∧
      withoutSiblings expanded = files ∧ (expanded.map (·.remotePath)).Nodup := by
  intro files expanded
  have hfiles : (files.map (·.remotePath)).Nodup := by decide
  have hgzip : ∀ f ∈ files, ¬ (".gzip" : Text) <:+ f.remotePath := by decide
  have hexpanded : withSiblings files true = expanded := by decide
  obtain ⟨hplaces, hback, hnodup⟩ := withSiblings_lossless files
  rw [hexpanded] at hback hnodup
  exact ⟨hfiles, hgzip, hexpanded, (hplaces expanded).1 hexpanded, hback, hnodup hfiles hgzip⟩

theorem forall_bne_of_not_mem (h : '?' ∉ path) : ∀ c ∈ path, (c != '?') = true :=
  fun c hc => by simpa using ne_of_mem_of_not_mem hc h

theorem withoutQuery_of_not_mem (h : '?' ∉ path) : withoutQuery path = path :=
  List.takeWhile_eq_self_iff.2 (forall_bne_of_not_mem h)

theorem query_of_not_mem (h : '?' ∉ path) : query path = [] :=
  List.dropWhile_eq_nil_iff.2 (forall_bne_of_not_mem h)

theorem withoutQuery_append_query (hp : '?' ∉ p) (q : Text) :
    withoutQuery (p ++ '?' :: q) = p := by
  simp [withoutQuery, List.takeWhile_append_of_pos (forall_bne_of_not_mem hp)]

theorem query_append_query (hp : '?' ∉ p) (q : Text) : query (p ++ '?' :: q) = '?' :: q := by
  simp [query, List.dropWhile_append_of_pos (forall_bne_of_not_mem hp)]

theorem gzipUrl_of_not_mem (h : '?' ∉ path) : gzipUrl path = path ++ gzipSuffix := by
  rw [gzipUrl, withoutQuery_of_not_mem h, query_of_not_mem h, List.append_nil]

/-- Without its query, the URL of a compressed file ends with the suffix. -/
theorem withoutQuery_gzipUrl (url : Text) :
    withoutQuery (gzipUrl url) = withoutQuery url ++ gzipSuffix := by
  have hsuffix : '?' ∉ gzipSuffix := by decide
  by_cases h : '?' ∈ url
  · obtain ⟨p, q, rfl, hp⟩ := List.eq_append_cons_of_mem h
    have hgzip : '?' ∉ p ++ gzipSuffix := by simp [hp, hsuffix]
    rw [gzipUrl, withoutQuery_append_query hp, query_append_query hp,
      withoutQuery_append_query hgzip]
  · rw [gzipUrl_of_not_mem h, withoutQuery_of_not_mem h]
    exact withoutQuery_of_not_mem (by simp [h, hsuffix])

theorem mayGzip_eq_false_of_gzip (h : withoutQuery path = p ++ gzipSuffix) :
    mayGzip path = false := by
  have hsplit : (p ++ gzipSuffix).splitLast? "." = some (p, ("gzip" : Text)) := by
    refine splitLast?_eq_some_iff.2 ⟨by simp [gzipSuffix], fun x y hxy => ?_⟩
    have hdot : '.' ∉ ("gzip" : Text) := by decide
    cases x with
    | nil => rfl
    | cons c x =>
      have hrest : ("gzip" : Text) = x ++ "." ++ y := (List.cons.inj hxy).2
      have hmem : '.' ∈ x ++ "." ++ y := by simp
      exact absurd (hrest ▸ hmem) hdot
  have hnone : (compressibleExtensions.any fun e => e.eqIgnoreCase "gzip") = false := by decide
  simp only [mayGzip, h, hsplit, hnone]

/-- A path with a query that is worth compressing, followed by the suffix, is no URL of a compressed
file: without its query it would be compressed already. -/
theorem not_mem_of_gzipUrl_eq (h : mayGzip path = true) (hurl : gzipUrl url = path ++ gzipSuffix) :
    '?' ∉ path := by
  intro hquery
  obtain ⟨p, q, rfl, hp⟩ := List.eq_append_cons_of_mem hquery
  have hgzip : p = withoutQuery url ++ gzipSuffix := by
    rw [← withoutQuery_gzipUrl, hurl, List.append_assoc, List.cons_append,
      withoutQuery_append_query hp]
  have hnone := mayGzip_eq_false_of_gzip ((withoutQuery_append_query hp q).trans hgzip)
  simp [hnone] at h

/-- The sibling that a batch gets for a mapping has the remote path to which the URL of the
compressed file leads, if and only if the remote path of the mapping has no query; to the sibling of
a mapping with a query no URL of a compressed file leads. -/
theorem sibling_advertised_iff (h : mayGzip f.remotePath = true) (before after : List FileMapping) :
    ∃ s, withSiblings (before ++ f :: after) true =
        withSiblings before true ++ f :: s :: withSiblings after true ∧
      (s.remotePath = gzipUrl f.remotePath ↔ '?' ∉ f.remotePath) ∧
      ((∃ url, s.remotePath = gzipUrl url) ↔ '?' ∉ f.remotePath) := by
  have hown (hquery : '?' ∉ f.remotePath) : (sibling f).remotePath = gzipUrl f.remotePath :=
    (gzipUrl_of_not_mem hquery).symm
  have hnone {url : Text} (heq : (sibling f).remotePath = gzipUrl url) : '?' ∉ f.remotePath :=
    not_mem_of_gzipUrl_eq h heq.symm
  refine ⟨sibling f, ?_, ⟨hnone, hown⟩, fun ⟨_, heq⟩ => hnone heq, fun hquery => ⟨_, hown hquery⟩⟩
  rw [withSiblings_append, withSiblings_cons, entries_of_mayGzip h, List.cons_append,
    List.cons_append, List.nil_append]

theorem sibling_advertised_iff_nested :
    let logo : FileMapping := ⟨"/srv/www/logo.png", "logo.png"⟩
    let app : FileMapping := ⟨"/srv/www/lib/app.JS", "lib/app.JS"⟩
    mayGzip app.remotePath = true ∧
      ∃ s, withSiblings [logo, app, logo] true = [logo, app, s, logo] ∧
        s.remotePath = gzipUrl app.remotePath ∧
        gzipUrl app.remotePath = ("lib/app.JS.gzip" : Text) := by
  intro logo app
  have hgzip : mayGzip app.remotePath = true := by decide
  have hlogo : withSiblings [logo] true = [logo] := by decide
  obtain ⟨s, hexpanded, hown, -⟩ := sibling_advertised_iff hgzip [logo] [logo]
  rw [hlogo] at hexpanded
  exact ⟨hgzip, s, hexpanded, hown.2 (by decide), by decide⟩

/-- The query stays last in the URL and not in the remote path, so that the URL leads to nothing
that was uploaded. -/
theorem not_sibling_advertised :
    ¬ ∀ f : FileMapping, mayGzip f.remotePath = true →
      ∀ s, withSiblings [f] true = [f, s] → s.remotePath = gzipUrl f.remotePath := by
  intro h
  have happ := h ⟨"/srv/www/app.js", "app.js?v=2"⟩ (by decide)
    ⟨"/srv/www/app.js", "app.js?v=2.gzip"⟩ (by decide)
  exact absurd happ (by decide)

end PageCache.Cdn
