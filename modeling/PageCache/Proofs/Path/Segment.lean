import PageCache.Proofs.Path.Template
import PageCache.Proofs.Text.Pieces

/-! The tenant's segment as a place in a directory, which is read and written. Writing it leaves what
stands before and after, and what was written before is gone. Main statement: the laws of a setter,
for segments whose names have no slash. -/
namespace PageCache

namespace TenantSegment

variable {dir before name after x y body : Text}

/-- The segment of a tenant's directory with both its slashes. -/
def named (name : Text) : Text := '/' :: (stem ++ name) ++ ['/']

/-- Where the first tenant segment is: it goes on to the next slash, or to the end. -/
structure Holds (dir before name after : Text) : Prop where
  eq : dir = before ++ '/' :: (stem ++ name) ++ after
  first : occursIn before = false
  slash_not_mem : '/' ∉ name
  rooted : Path.Rooted after

theorem occursIn_iff : occursIn dir = true ↔ '/' :: stem <:+: dir := Text.includes_iff

theorem occursIn_eq_false_iff : occursIn dir = false ↔ ¬ '/' :: stem <:+: dir := by
  rw [← occursIn_iff, Bool.not_eq_true]

/-- The stem has no slash, so the segment after a directory without one is the first. -/
theorem splitFirst?_of_occursIn_eq_false (h : occursIn before = false) (rest : Text) :
    Text.splitFirst? (before ++ '/' :: (stem ++ rest)) ('/' :: stem) = some (before, rest) := by
  have hfirst : Text.FirstAfter ('/' :: stem) before :=
    (Text.firstAfter_cons_iff (by decide)).2 (occursIn_eq_false_iff.1 h)
  exact Text.splitFirst?_of_firstAfter hfirst rest

theorem slash_not_mem_stem_append (h : '/' ∉ x) : '/' ∉ stem ++ x :=
  List.not_mem_append (by decide) h

theorem exists_name (rest : Text) :
    ∃ name after, rest = name ++ after ∧ '/' ∉ name ∧ Path.Rooted after := by
  refine ⟨rest.takeWhile (· != '/'), rest.dropWhile (· != '/'),
    List.takeWhile_append_dropWhile.symm, fun hmem => ?_, ?_⟩
  · simpa using List.mem_takeWhile_imp hmem
  · cases hafter : rest.dropWhile (· != '/') with
    | nil => exact .inl rfl
    | cons c after =>
      have hc := List.head?_dropWhile_not (· != '/') rest
      rw [hafter] at hc
      exact .inr (by simpa using hc)

theorem exists_holds_iff :
    (∃ before name after, Holds dir before name after) ↔ occursIn dir = true := by
  rw [occursIn_iff]
  constructor
  · rintro ⟨before, name, after, h⟩
    exact ⟨before, name ++ after, by rw [h.eq]; simp⟩
  · intro h
    obtain ⟨before, rest, hdir, hfirst⟩ := Text.exists_firstAfter (List.cons_ne_nil '/' stem) h
    have hbefore : occursIn before = false :=
      occursIn_eq_false_iff.2 ((Text.firstAfter_cons_iff (by decide)).1 hfirst)
    obtain ⟨name, after, rfl, hname, hafter⟩ := exists_name rest
    exact ⟨before, name, after, by simpa using hdir, hbefore, hname, hafter⟩

theorem Holds.replace_eq (h : Holds dir before name after) (hne : body ≠ [])
    (hlast : body.getLast? ≠ some '/') :
    replace dir ('/' :: body ++ ['/']) = before ++ '/' :: body ++ after := by
  have hsplit := splitFirst?_of_occursIn_eq_false h.first (name ++ after)
  have hdir : dir = before ++ '/' :: (stem ++ (name ++ after)) := by
    rw [h.eq]
    simp
  rw [replace, hdir, hsplit]
  rcases h.rooted with rfl | hafter
  · have hnone : Text.splitFirst? name ['/'] = none := by
      rw [Text.splitFirst?_eq_none_iff, List.singleton_infix_iff]
      exact h.slash_not_mem
    simp only [List.append_nil, hnone, trimEndSlashes_body hne hlast]
  · obtain ⟨rest, rfl⟩ := List.head?_eq_some_iff.1 hafter
    simp [Text.splitFirst?_sep h.slash_not_mem]

theorem slash_ne_getLast?_stem_append (h : '/' ∉ x) : (stem ++ x).getLast? ≠ some '/' :=
  fun hlast => slash_not_mem_stem_append h (List.mem_of_getLast? hlast)

theorem Holds.replace_named (h : Holds dir before name after) (hx : '/' ∉ x) :
    replace dir (named x) = before ++ '/' :: (stem ++ x) ++ after :=
  h.replace_eq (by simp [stem]) (slash_ne_getLast?_stem_append hx)

theorem replace_eq_of_occursIn_eq_false (h : occursIn dir = false) (hne : body ≠ [])
    (hlast : body.getLast? ≠ some '/') :
    replace dir ('/' :: body ++ ['/']) = dir.trimEndSlashes ++ '/' :: body := by
  have hnone : dir.splitFirst? ('/' :: stem) = none :=
    Text.splitFirst?_eq_none_iff.2 (occursIn_eq_false_iff.1 h)
  simp only [replace, hnone, trimEndSlashes_body hne hlast]

theorem occursIn_trimEndSlashes (h : occursIn dir = false) :
    occursIn dir.trimEndSlashes = false := by
  rw [occursIn_eq_false_iff] at *
  obtain ⟨slashes, hdir, -⟩ := Text.exists_eq_trimEnd_append dir (· == '/')
  intro hin
  exact h (hin.trans ⟨[], slashes, hdir.symm⟩)

/-- Whatever name is written, it stands in the same place and is the first segment. -/
theorem exists_holds_replace (dir : Text) : ∃ before after, ∀ x, '/' ∉ x →
    Holds (replace dir (named x)) before x after := by
  cases hdir : occursIn dir with
  | true =>
    obtain ⟨before, name, after, h⟩ := exists_holds_iff.2 hdir
    refine ⟨before, after, fun x hx => ⟨?_, h.first, hx, h.rooted⟩⟩
    exact h.replace_named hx
  | false =>
    refine ⟨dir.trimEndSlashes, [], fun x hx =>
      ⟨?_, occursIn_trimEndSlashes hdir, hx, .inl rfl⟩⟩
    rw [List.append_nil]
    exact replace_eq_of_occursIn_eq_false hdir (by simp [stem])
      (slash_ne_getLast?_stem_append hx)

theorem Holds.occursIn_eq_true (h : Holds dir before name after) : occursIn dir = true :=
  exists_holds_iff.1 ⟨before, name, after, h⟩

/-- Writing a segment is lawful: the last one written counts, it is there, no two names give the same
directory, and what stands before and after the segment is kept. -/
theorem replace_lawful (hx : '/' ∉ x) (hy : '/' ∉ y) :
    replace (replace dir (named x)) (named y) = replace dir (named y) ∧
    occursIn (replace dir (named x)) = true ∧
    (replace dir (named x) = replace dir (named y) → x = y) ∧
    (occursIn dir = true → ∃ before name after, Holds dir before name after) ∧
    ∀ before name after, Holds dir before name after →
      Holds (replace dir (named x)) before x after := by
  obtain ⟨before, after, hwritten⟩ := exists_holds_replace dir
  refine ⟨?_, (hwritten x hx).occursIn_eq_true, fun h => ?_, exists_holds_iff.2, ?_⟩
  · rw [(hwritten x hx).replace_named hy, (hwritten y hy).eq]
  · have heq := (hwritten x hx).eq.symm.trans (h.trans (hwritten y hy).eq)
    simpa using heq
  · intro before name after h
    exact ⟨h.replace_named hx, h.first, hx, h.rooted⟩

/-- A segment within a directory, one at its end, and none. -/
theorem replace_lawful_shapes :
    ('/' ∉ "a.org".toList ∧ '/' ∉ "b.org".toList) ∧
    ∀ dir ∈ (["/cache/pgc-x.net/page/", "/cache/pgc-x.net", "/cache/page/"] : List Text),
      replace (replace dir (named "a.org")) (named "b.org") = replace dir (named "b.org") ∧
      replace dir (named "a.org") ≠ replace dir (named "b.org") := by
  have hx : '/' ∉ ("a.org" : Text) := by decide
  have hy : '/' ∉ ("b.org" : Text) := by decide
  refine ⟨⟨hx, hy⟩, fun dir _ => ⟨(replace_lawful hx hy).1, fun h => ?_⟩⟩
  exact absurd ((replace_lawful hx hy).2.2.1 h) (by decide)

end TenantSegment
end PageCache
