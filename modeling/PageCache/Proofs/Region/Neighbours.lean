import PageCache.Proofs.Region.Idempotent
import PageCache.Proofs.Region.Marks

/-! Blocks at neighbours. Markers of different owners do not overlap in a text, and a block that is
put into it neither gives it a marker of a neighbour nor comes between such a marker and the place
beside it; so the other block finds its place as before. -/
namespace PageCache

open Text Region

namespace Region

def marks : List Text := known.flatMap markers

section
variable {b : Block} {m m' a a' u u' rules z : Text}

theorem newline_not_mem_mark (hm : m ∈ marks) : '\n' ∉ m := by
  obtain ⟨r, hr, hm⟩ := List.mem_flatMap.1 hm
  exact newline_not_mem_marker hr hm

theorem mark_ne_nil (hm : m ∈ marks) : m ≠ [] := by
  obtain ⟨r, hr, hm⟩ := List.mem_flatMap.1 hm
  exact marker_ne_nil hr hm

theorem not_infix_wrap (hm : m ∈ marks) (hb : m ∉ b.region.markers) (hrules : Avoids known rules) :
    ¬ m <:+: b.region.wrap rules := by
  rintro ⟨x, y, hxy⟩
  obtain ⟨r, hr, hm⟩ := List.mem_flatMap.1 hm
  rcases occurrence_wrap hr hm hrules hxy.symm with ⟨rfl, -⟩ | ⟨rfl, -⟩
  · exact hb (opening_mem _)
  · exact hb (closing_mem _)

theorem exists_hash (hm : m ∈ marks) : ∃ m', m = '#' :: m' ∧ '#' ∉ m' := by
  have hall : ∀ m ∈ marks, m = '#' :: m.tail ∧ '#' ∉ m.tail := by decide
  exact ⟨_, hall m hm⟩

theorem not_prefix_mark (hm : m ∈ marks) (hm' : m' ∈ marks) (hne : m ≠ m') : ¬ m <+: m' := by
  have hall : ∀ m ∈ marks, ∀ m' ∈ marks, m <+: m' → m = m' := by decide
  exact fun h => hne (hall m hm m' hm' h)

theorem mark_occurrence_cases (hm : m ∈ marks) (hm' : m' ∈ marks) (hne : m ≠ m')
    (h : a ++ (m ++ u) = a' ++ (m' ++ u')) :
    (∃ z, a' = a ++ (m ++ z) ∧ u = z ++ (m' ++ u')) ∨
      ∃ z, a = a' ++ (m' ++ z) ∧ u' = z ++ (m ++ u) := by
  have hpre := not_prefix_mark hm hm' hne
  have hpre' := not_prefix_mark hm' hm hne.symm
  obtain ⟨x, rfl, hx⟩ := exists_hash hm
  obtain ⟨x', rfl, hx'⟩ := exists_hash hm'
  rcases List.append_eq_append_iff.1 h with ⟨d, rfl, hd⟩ | ⟨d, rfl, hd⟩
  · obtain ⟨z, rfl, hz⟩ := exists_between hx hpre hpre' hd
    exact .inl ⟨z, rfl, hz⟩
  · obtain ⟨z, rfl, hz⟩ := exists_between hx' hpre' hpre hd
    exact .inr ⟨z, rfl, hz⟩

theorem exists_headPart_mark (hm : m ∈ marks) (z : Text) : ∃ z', headPart (m ++ z) = m ++ z' := by
  obtain ⟨x, c, rfl⟩ := (List.eq_nil_or_concat' m).resolve_left (mark_ne_nil hm)
  have hc : c ≠ '\n' := fun hc => newline_not_mem_mark hm (by simp [hc])
  obtain ⟨q', hq'⟩ := exists_headPart_cons hc z
  have hv : visible (c :: z) ≠ [] := visible_append_cons_ne_nil hc [] z
  refine ⟨q', ?_⟩
  rw [List.append_assoc, List.singleton_append, headPart_append hv, hq', List.append_assoc,
    List.singleton_append]

theorem headPart_mark_newlines (hm : m ∈ marks) (a : Text) (n : ℕ) :
    headPart (a ++ (m ++ List.replicate n '\n')) =
      a ++ (m ++ List.replicate (max 1 (min n 2)) '\n') := by
  obtain ⟨x, c, rfl⟩ := (List.eq_nil_or_concat' m).resolve_left (mark_ne_nil hm)
  have hc : c ≠ '\n' := fun hc => newline_not_mem_mark hm (by simp [hc])
  have h := headPart_visible hc (a ++ x) n
  simpa using h

theorem takeNewline_newlines_mark (hm : m ∈ marks) (n : ℕ) (z : Text) :
    takeNewline (List.replicate n '\n' ++ (m ++ z)) =
      (List.replicate (min n 1) '\n', List.replicate (n - 1) '\n' ++ (m ++ z)) := by
  obtain ⟨x, rfl, -⟩ := exists_hash hm
  exact takeNewline_newlines_append (by decide) n (x ++ z)

theorem tailPart_newlines_mark (hm : m ∈ marks) (n : ℕ) (z : Text) :
    tailPart (List.replicate n '\n' ++ (m ++ z)) = List.replicate (min n 1) '\n' ++ (m ++ z) := by
  obtain ⟨x, rfl, -⟩ := exists_hash hm
  exact tailPart_visible (by decide) n (x ++ z)

theorem visible_mark_append (hm : m ∈ marks) (z : Text) : visible (m ++ z) ≠ [] := by
  obtain ⟨x, rfl, -⟩ := exists_hash hm
  exact visible_append_cons_ne_nil (by decide) [] (x ++ z)

theorem tailPart_mark_append (hm : m ∈ marks) (z : Text) : tailPart (m ++ z) = m ++ z := by
  obtain ⟨x, rfl, -⟩ := exists_hash hm
  exact tailPart_eq_self (by decide) (x ++ z)

end

end Region

namespace Block

def neighbours : Block → List Anchor
  | core => [beforeRegion browserCacheNo404, beforeRegion wordPress, afterRegion minifyCore,
      afterRegion browserCacheCache]
  | cache => [beforeRegion browserCacheCache, beforeRegion minifyCore]

variable {b b' : Block} {i j : Anchor} {rules rules' a a' u u' h t z text head tail : Text}
  {place : Text × Text}

theorem marker_mem_marks (hi : i ∈ b.anchors) : i.marker ∈ marks := by
  have hall : ∀ i ∈ b.anchors, i.marker ∈ marks := by cases b <;> decide
  exact hall i hi

theorem marker_not_mem_markers (hi : i ∈ b.neighbours) (b' : Block) :
    i.marker ∉ b'.region.markers := by
  have hall : ∀ i ∈ b.neighbours, i.marker ∉ b'.region.markers := by
    cases b <;> cases b' <;> decide
  exact hall i hi

/-- The block is not in the text, and the anchors before this one are at neighbours that are not in
it either. -/
structure Leads (b : Block) (i : Anchor) (text : Text) : Prop where
  absent : Avoids [b.region] text
  first : ∃ earlier later, b.anchors = earlier ++ i :: later ∧
    ∀ j ∈ earlier, j ∈ b.neighbours ∧ ¬ j.marker <:+: text

theorem exists_leads (habsent : Avoids [b.region] text)
    (h : ∃ i ∈ b.neighbours, i.marker <:+: text) :
    ∃ i ∈ b.neighbours, b.Leads i text ∧ i.marker <:+: text := by
  classical
  obtain ⟨i, hi, hin⟩ := h
  match hfind : b.neighbours.find? fun i => decide (i.marker <:+: text) with
  | none => exact absurd (decide_eq_true hin) (by simpa using List.find?_eq_none.1 hfind i hi)
  | some i =>
    obtain ⟨hin, earlier, later, hlist, hearlier⟩ := List.find?_eq_some_iff_append.1 hfind
    obtain ⟨rest, hrest⟩ : ∃ rest, b.anchors = b.neighbours ++ rest := by
      cases b <;> exact ⟨_, rfl⟩
    refine ⟨i, by simp [hlist], ⟨habsent, earlier, later ++ rest, ?_, fun j hj => ?_⟩,
      by simpa using hin⟩
    · rw [hrest, hlist, List.append_assoc, List.cons_append]
    · exact ⟨by simp [hlist, hj], by simpa using hearlier j hj⟩

theorem Leads.mem (hi : b.Leads i text) : i ∈ b.anchors := by
  obtain ⟨earlier, later, hlist, -⟩ := hi.first
  simp [hlist]

theorem Leads.surroundings (hi : b.Leads i text) (hplace : i.split? text = some place) :
    b.region.surroundings text b.anchors = place := by
  obtain ⟨earlier, later, hlist, hearlier⟩ := hi.first
  have hnone : earlier.findSome? (·.split? text) = none :=
    List.findSome?_eq_none_iff.2 fun j hj => Anchor.split?_eq_none (hearlier j hj).2
  rw [surroundings_of_absent (locate?_eq_none_of_avoids hi.absent), placeOf, hlist]
  simp [List.findSome?_append, hnone, hplace]

theorem Leads.put (hi : b.Leads i (head ++ tail)) (hb : b ≠ b') (hrules : Avoids known rules) :
    b.Leads i (headPart head ++ (b'.region.wrap rules ++ tailPart tail)) where
  absent := by
    intro r hr m hm
    obtain rfl : r = b.region := List.mem_singleton.1 hr
    have hmark : m ∈ marks := List.mem_flatMap.2 ⟨_, region_mem_known b, hm⟩
    have hnot : m ∉ b'.region.markers := by
      have hall : ∀ m ∈ b.region.markers, m ∉ b'.region.markers := by
        cases b <;> cases b' <;> first | exact absurd rfl hb | decide
      exact hall m hm
    exact not_infix_put (newline_not_mem_mark hmark) (mark_ne_nil hmark) (atLineStart_wrap _ _)
      (not_infix_wrap hmark hnot hrules) (hi.absent _ hr m hm)
  first := by
    obtain ⟨earlier, later, hlist, hearlier⟩ := hi.first
    refine ⟨earlier, later, hlist, fun j hj => ?_⟩
    obtain ⟨hmem, hnot⟩ := hearlier j hj
    have hmark : j.marker ∈ marks := marker_mem_marks (b := b) (by simp [hlist, hj])
    exact ⟨hmem, not_infix_put (newline_not_mem_mark hmark) (mark_ne_nil hmark)
      (atLineStart_wrap _ _) (not_infix_wrap hmark (marker_not_mem_markers hmem b') hrules) hnot⟩

/-- A block that is put before the marker of the other one leaves the other one's place. -/
theorem Leads.surroundings_right (hj : b'.Leads j (h ++ (a ++ (j.marker ++ u))))
    (hmem : j ∈ b'.neighbours) (hb : b' ≠ b) (hfirst : FirstAfter j.marker (h ++ a))
    (hrules : Avoids known rules) :
    ∃ m, tailPart (a ++ (j.marker ++ u)) = m ++ (j.cut a u).2 ∧
      b'.region.surroundings (headPart h ++ (b.region.wrap rules ++ (m ++ (j.cut a u).2)))
        b'.anchors = (headPart h ++ (b.region.wrap rules ++ m), (j.cut a u).2) := by
  have hmark := marker_mem_marks hj.mem
  obtain ⟨x, hx, -⟩ := exists_hash hmark
  -- The seam changes newlines before the marker alone, so the place moves with what follows them.
  obtain ⟨s, s', p, rfl, hs', htail⟩ := exists_tailPart_marker (c := '#') (by decide) a (x ++ u)
  rw [← List.cons_append, ← hx] at htail
  have hcut : (j.cut p u).1 ++ (j.cut p u).2 = p ++ (j.marker ++ u) := Anchor.cut_append j p u
  rw [Anchor.cut_append_left]
  refine ⟨s' ++ (j.cut p u).1, by rw [htail, List.append_assoc, hcut], ?_⟩
  have hnext := hj.put hb hrules
  rw [htail] at hnext
  have hfirst' : FirstAfter j.marker (headPart h ++ (b.region.wrap rules ++ (s' ++ p))) :=
    firstAfter_put (newline_not_mem_mark hmark) (mark_ne_nil hmark) (atLineStart_wrap _ _)
      (not_infix_wrap hmark (marker_not_mem_markers hmem b) hrules) hs' hfirst
  have hsplit := Anchor.split?_of_firstAfter (mark_ne_nil hmark) hfirst' u
  have hplace := Anchor.cut_append_left (i := j)
    (headPart h ++ (b.region.wrap rules ++ s')) p u
  simp only [List.append_assoc] at hsplit hplace hnext ⊢
  rw [hplace] at hsplit
  rw [hcut]
  exact hnext.surroundings hsplit

end Block

end PageCache
