import PageCache.Proofs.Region.Located
import PageCache.Rules

/-! The markers in shared files, and where they stand in a block between its markers. -/
namespace PageCache

open Text

namespace Region

def known : List Region :=
  [pageCacheCore, pageCacheCache, browserCacheCache, browserCacheNo404, minifyCore, minifyCache,
    wordPress, superCache]

def edited : List Region := [pageCacheCore, pageCacheCache, superCache]

section
variable {rs : List Region} {r : Region} {a b t m : Text}

theorem Avoids.left (h : Avoids rs (a ++ b)) : Avoids rs a :=
  h.of_isInfix (List.prefix_append a b).isInfix

theorem Avoids.right (h : Avoids rs (a ++ b)) : Avoids rs b :=
  h.of_isInfix (List.suffix_append a b).isInfix

theorem newline_not_mem_marker (hr : r ∈ known) (hm : m ∈ r.markers) : '\n' ∉ m := by
  have h : ∀ r ∈ known, ∀ m ∈ r.markers, '\n' ∉ m := by decide
  exact h r hr m hm

theorem marker_ne_nil (hr : r ∈ known) (hm : m ∈ r.markers) : m ≠ [] := by
  have h : ∀ r ∈ known, ∀ m ∈ r.markers, m ≠ [] := by decide
  exact h r hr m hm

theorem proper_of_mem_known (hr : r ∈ known) : r.Proper where
  opening_ne_nil := marker_ne_nil hr (opening_mem r)
  closing_ne_nil := marker_ne_nil hr (closing_mem r)
  newline_not_mem_opening := newline_not_mem_marker hr (opening_mem r)
  newline_not_mem_closing := newline_not_mem_marker hr (closing_mem r)
  closing_not_infix_opening := by
    have h : ∀ r ∈ known, ¬ r.closing <:+: r.opening := by decide
    exact h r hr

theorem edited_subset : edited ⊆ known := by decide

theorem region_mem_edited (b : Block) : b.region ∈ edited := by
  cases b <;> simp [Block.region, edited]

theorem region_mem_known (b : Block) : b.region ∈ known := edited_subset (region_mem_edited b)

theorem proper_region (b : Block) : b.region.Proper := proper_of_mem_known (region_mem_known b)

theorem avoids_nil : Avoids edited [] := fun _ hr _ hm h =>
  marker_ne_nil (edited_subset hr) hm (List.infix_nil.1 h)

theorem Avoids.append (ha : Avoids edited a) (hb : Avoids edited b) (hl : AtLineStart a) :
    Avoids edited (a ++ b) := fun r hr m hm h => by
  rcases (hl.infix_append_iff (newline_not_mem_marker (edited_subset hr) hm)).1 h with h | h
  · exact ha r hr m hm h
  · exact hb r hr m hm h

theorem Avoids.append_newlines (ha : Avoids edited a) (hb : ∀ c ∈ b, c = '\n') :
    Avoids edited (a ++ b) := fun r hr m hm h =>
  have hknown := edited_subset hr
  ha r hr m hm (infix_of_infix_append_newlines (newline_not_mem_marker hknown hm)
    (marker_ne_nil hknown hm) hb h)

end

section
variable {b : Block} {r : Region} {rules m x y t : Text}

theorem eq_of_infix_marker (hr : r ∈ known) (hm : m ∈ r.markers) (ht : t ∈ b.region.markers)
    (h : m <:+: t) : m = t := by
  have hall : ∀ r ∈ known, ∀ m ∈ r.markers, ∀ t ∈ b.region.markers, m <:+: t → m = t := by
    cases b <;> decide
  exact hall r hr m hm t ht h

/-- In a block whose rules have no markers, a marker is that of its first or its last line. -/
theorem occurrence_wrap (hr : r ∈ known) (hm : m ∈ r.markers) (hrules : Avoids known rules)
    (h : b.region.wrap rules = x ++ m ++ y) :
    (m = b.region.opening ∧ x = []) ∨ (m = b.region.closing ∧ y = ['\n']) := by
  have hn := newline_not_mem_marker hr hm
  rw [wrap_eq] at h
  rcases Text.occurrence_cases hn h with ⟨z, ho, -⟩ | ⟨z, h, -⟩
  · have hmt : m = b.region.opening := eq_of_infix_marker hr hm (opening_mem _) ⟨x, z, ho.symm⟩
    exact .inl ⟨hmt, (eq_nil_of_self_eq (m := m) (by rw [← ho, hmt])).1⟩
  rcases (atLineStart_inner rules).occurrence_cases hn h with ⟨w, hi, -⟩ | ⟨w, h, -⟩
  · have hinner : m <:+: inner rules := ⟨z, w, hi.symm⟩
    exact absurd (infix_of_infix_inner hn (marker_ne_nil hr hm) hinner) (hrules r hr m hm)
  rcases Text.occurrence_cases hn h with ⟨v, hc, rfl⟩ | ⟨v, h, -⟩
  · have hmt : m = b.region.closing := eq_of_infix_marker hr hm (closing_mem _) ⟨w, v, hc.symm⟩
    obtain ⟨-, rfl⟩ := eq_nil_of_self_eq (m := m) (by rw [← hc, hmt])
    exact .inr ⟨hmt, rfl⟩
  · exact absurd (List.infix_nil.1 ⟨v, y, h.symm⟩) (marker_ne_nil hr hm)

end

end Region

end PageCache
