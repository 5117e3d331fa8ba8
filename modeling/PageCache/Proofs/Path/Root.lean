import PageCache.Proofs.Path.Steps

/-! The cache directory as seen from the document root. The root is taken away as a text, so what is
left is a directory below the root where the root is a directory above it by names. Main statement:
below a root that is not `/` the candidates are the pages in the cache directory, and elsewhere the
directory stays as it is unless the root is a beginning of it as a text. -/
namespace PageCache

namespace Text

theorem trimEndSlashes_append {t : Text} (h : t.getLast? ≠ some '/') (u : Text) :
    trimEndSlashes (t ++ u) = t ++ u.trimEndSlashes := by
  induction u using List.reverseRecOn with
  | nil => simpa [trimEndSlashes, trimEnd] using trimEndSlashes_of_getLast?_ne h
  | append_singleton u c ih =>
    rw [← List.append_assoc]
    by_cases hc : c = '/'
    · subst hc
      rw [trimEndSlashes_concat_slash, trimEndSlashes_concat_slash, ih]
    · rw [trimEndSlashes_of_getLast?_ne (by simpa using hc),
        trimEndSlashes_of_getLast?_ne (by simpa using hc), List.append_assoc]

end Text

namespace Path

/-- An absolute path of names with a slash before each, slashes at its end apart. -/
structure IsClean (p : Text) : Prop where
  absolute : isAbsolute p = true
  trimmed : p.trimEndSlashes = (steps p).flatMap ('/' :: ·)

instance (p : Text) : Decidable (IsClean p) :=
  decidable_of_iff (isAbsolute p = true ∧ p.trimEndSlashes = (steps p).flatMap ('/' :: ·))
    ⟨fun ⟨h, h'⟩ => ⟨h, h'⟩, fun ⟨h, h'⟩ => ⟨h, h'⟩⟩

theorem rooted_flatMap (names : List Text) : Rooted (names.flatMap ('/' :: ·)) := by
  cases names with
  | nil => exact .inl rfl
  | cons name names => exact .inr rfl

theorem IsClean.trimEndSlashes_eq_nil_iff {p : Text} (h : IsClean p) :
    p.trimEndSlashes = [] ↔ steps p = [] := by
  rw [h.trimmed]
  cases steps p <;> simp

end Path

namespace Site

variable {s : Site}

theorem trimEndSlashes_cacheDir (h : s.documentRoot.trimEndSlashes <+: s.cacheDir) :
    s.cacheDir.trimEndSlashes = s.documentRoot.trimEndSlashes ++ s.cachePath := by
  obtain ⟨rest, hrest⟩ := h
  rw [cachePath, Text.stripPrefix?_eq_some_iff.2 hrest.symm, Option.getD_some, ← hrest]
  exact Text.trimEndSlashes_append s.documentRoot.getLast?_trimEndSlashes_ne rest

theorem cachePath_eq_iff : s.cachePath = s.cacheDir.trimEndSlashes ↔
    s.documentRoot.trimEndSlashes = [] ∨ ¬ s.documentRoot.trimEndSlashes <+: s.cacheDir := by
  by_cases h : s.documentRoot.trimEndSlashes <+: s.cacheDir
  · rw [trimEndSlashes_cacheDir h]
    simp [h]
  · rw [cachePath, Text.stripPrefix?_eq_none_iff.2 h]
    simp [h]

/-- Where the rest of the directory begins with a slash, the pages in it are found from any root but
`/`. From there the path of a page is not absolute. -/
theorem alike_candidate_iff (h : s.documentRoot.trimEndSlashes <+: s.cacheDir)
    (hrooted : Path.Rooted s.cachePath) (habsolute : Path.isAbsolute s.cacheDir = true)
    (uri : Text) (tags : VariantTags) :
    Path.Alike ((CacheTarget.ofSite s none).candidate none uri tags)
        (s.cacheDir ++ "/" ++ uri ++ "/" ++ tags.fileName) ↔
      s.documentRoot.trimEndSlashes ≠ [] := by
  have hlast := s.documentRoot.getLast?_trimEndSlashes_ne
  constructor
  · intro halike hroot
    have hcandidate := CacheTarget.candidate_eq_ofParts (c := CacheTarget.ofSite s none) hlast none
      uri tags
    have hhead := congrArg List.head? halike
    have hdir : s.cacheDir.head? = some '/' := by simpa [Path.isAbsolute] using habsolute
    rw [Path.head?_squeeze, Path.head?_squeeze, hcandidate] at hhead
    refine Path.head?_ofParts_ne ?_ (hhead.trans (by simp [hdir]))
    simp [CacheTarget.ofSite, hroot, Text.head?_trimSlashes_ne, VariantTags.head?_fileName]
  · intro hroot
    have hsame : Path.Alike (s.cachePath ++ ['/'])
        ((CacheTarget.ofSite s none).directory none ++ ['/']) := .refl _
    have hcandidate := CacheTarget.alike_candidate (c := CacheTarget.ofSite s none) hroot hlast
      hrooted hsame uri tags
    have hdir := Text.alike_trimEndSlashes s.cacheDir
    rw [trimEndSlashes_cacheDir h] at hdir
    have hfile := hdir.append (.refl (uri ++ "/" ++ tags.fileName))
    refine hcandidate.symm.trans ?_
    simpa [CacheTarget.ofSite] using hfile

/-- The document root is taken away from a cache directory at or below it, and the candidates are
the pages there unless the root is `/`. From another cache directory nothing but slashes at its end
is taken away, unless the root is a beginning of it as a text. -/
theorem strips_documentRoot_iff (hroot : Path.IsClean s.documentRoot)
    (hdir : Path.IsClean s.cacheDir) :
    (Path.steps s.documentRoot <+: Path.steps s.cacheDir → ∀ uri tags,
      (Path.Alike ((CacheTarget.ofSite s none).candidate none uri tags)
          (s.cacheDir ++ "/" ++ uri ++ "/" ++ tags.fileName) ↔
        Path.steps s.documentRoot ≠ [])) ∧
    (¬ Path.steps s.documentRoot <+: Path.steps s.cacheDir →
      (s.cachePath = s.cacheDir.trimEndSlashes ↔
        ¬ s.documentRoot.trimEndSlashes <+: s.cacheDir)) := by
  constructor
  · rintro ⟨names, hnames⟩ uri tags
    have htrimmed : s.cacheDir.trimEndSlashes =
        s.documentRoot.trimEndSlashes ++ names.flatMap ('/' :: ·) := by
      rw [hdir.trimmed, hroot.trimmed, ← hnames, List.flatMap_append]
    have hbeginning : s.documentRoot.trimEndSlashes <+: s.cacheDir := by
      obtain ⟨slashes, hslashes, -⟩ := s.cacheDir.exists_eq_trimEnd_append (· == '/')
      have hends : s.cacheDir.trimEndSlashes <+: s.cacheDir := ⟨slashes, hslashes.symm⟩
      have hbegins : s.documentRoot.trimEndSlashes <+: s.cacheDir.trimEndSlashes := by
        rw [htrimmed]
        exact List.prefix_append _ _
      exact hbegins.trans hends
    have hrooted : Path.Rooted s.cachePath := by
      rw [trimEndSlashes_cacheDir hbeginning] at htrimmed
      rw [List.append_cancel_left htrimmed]
      exact Path.rooted_flatMap names
    rw [alike_candidate_iff hbeginning hrooted hdir.absolute, ne_eq,
      hroot.trimEndSlashes_eq_nil_iff]
  · intro hsteps
    have hne : s.documentRoot.trimEndSlashes ≠ [] := by
      rw [ne_eq, hroot.trimEndSlashes_eq_nil_iff]
      rintro h
      exact hsteps (h ▸ List.nil_prefix)
    rw [cachePath_eq_iff, or_iff_right hne]

/-- A directory below the root, with slashes at the ends. -/
theorem strips_documentRoot_below :
    let s : Site := { documentRoot := "/srv/www/", cacheDir := "/srv/www/cache/page//" }
    (Path.IsClean s.documentRoot ∧ Path.IsClean s.cacheDir) ∧
      Path.Alike ((CacheTarget.ofSite s none).candidate none "/post/" {})
        "/srv/www/cache/page/post/_index.html" := by
  intro s
  have hclean : Path.IsClean s.documentRoot ∧ Path.IsClean s.cacheDir := by decide +kernel
  have hbelow : Path.steps s.documentRoot <+: Path.steps s.cacheDir := by decide +kernel
  have hroot : Path.steps s.documentRoot ≠ [] := by decide +kernel
  have halike := ((strips_documentRoot_iff hclean.1 hclean.2).1 hbelow "/post/" {}).2 hroot
  exact ⟨hclean, halike.trans (by decide +kernel)⟩

/-- A directory beside the root whose name begins with the name of the root loses it, and below the
root `/` the candidate is no absolute path. -/
theorem not_strips_documentRoot :
    let s : Site := { documentRoot := "/srv/www", cacheDir := "/srv/wwwcache" }
    let s' : Site := { documentRoot := "/", cacheDir := "/srv/www/cache/page" }
    (Path.IsClean s.documentRoot ∧ Path.IsClean s.cacheDir ∧
      ¬ Path.steps s.documentRoot <+: Path.steps s.cacheDir ∧
      s.cachePath ≠ s.cacheDir.trimEndSlashes) ∧
    Path.IsClean s'.documentRoot ∧ Path.IsClean s'.cacheDir ∧
      Path.steps s'.documentRoot <+: Path.steps s'.cacheDir ∧
      ¬ Path.Alike ((CacheTarget.ofSite s' none).candidate none "/post/" {})
        (s'.cacheDir ++ "/" ++ "/post/" ++ "/" ++ ({} : VariantTags).fileName) := by
  decide +kernel

end Site
end PageCache
