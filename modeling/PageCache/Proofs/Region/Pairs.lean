import PageCache.Proofs.Region.Located

/-! Pairs of markers. A region is found if and only if one of its opening markers stands wholly
before one of its closing markers, provided that closing markers do not overlap each other. -/
namespace PageCache

namespace Text

/-- Two occurrences of the needle do not overlap: no end of it is a beginning of it. -/
def Unbordered (needle : Text) : Prop := ∀ p, p <+: needle → p <:+ needle → p = [] ∨ p = needle

variable {needle a b x y : Text}

theorem unbordered_of_forall_mem (h : ∀ p ∈ needle.inits, p <:+ needle → p = [] ∨ p = needle) :
    needle.Unbordered := fun p hp => h p ((List.mem_inits p needle).2 hp)

theorem Unbordered.occurrence_cases (hu : needle.Unbordered)
    (h : a ++ needle ++ b = x ++ needle ++ y) (hle : a.length ≤ x.length) :
    x = a ∨ ∃ z, x = a ++ needle ++ z ∧ b = z ++ needle ++ y := by
  simp only [List.append_assoc] at h
  obtain ⟨d, rfl⟩ : a <+: x :=
    List.prefix_of_prefix_length_le ⟨_, h⟩ (List.prefix_append _ _) hle
  rw [List.append_assoc, List.append_cancel_left_eq] at h
  rcases List.append_eq_append_iff.1 h with ⟨z, rfl, hb⟩ | ⟨p, hp, hb⟩
  · exact .inr ⟨z, by simp, by simp [hb]⟩
  · have hprefix : p <+: needle := by
      refine List.prefix_of_prefix_length_le ⟨b, hb.symm⟩ (List.prefix_append _ y) ?_
      rw [hp]
      simp
    rcases hu p hprefix ⟨d, hp.symm⟩ with rfl | hp'
    · have hd : d = needle := by simpa using hp.symm
      exact .inr ⟨[], by simp [hd], by simpa using hb.symm⟩
    · rw [hp'] at hp
      exact .inl (by simpa using hp)

end Text

namespace Region

open Text

variable {r : Region} {seen rest t a b : Text}

/-- An opening marker stands wholly before a closing marker. -/
def Paired (r : Region) (t : Text) : Prop := ∃ a b c, t = a ++ r.opening ++ b ++ r.closing ++ c

theorem paired_append (ho : r.opening <:+: a) (hc : r.closing <:+: b) : r.Paired (a ++ b) := by
  obtain ⟨x, y, rfl⟩ := ho
  obtain ⟨z, w, rfl⟩ := hc
  exact ⟨x, y ++ z, w, by simp⟩

theorem Paired.right (h : r.Paired b) (a : Text) : r.Paired (a ++ b) := by
  obtain ⟨x, y, z, rfl⟩ := h
  exact ⟨a ++ x, y, z, by simp⟩

theorem Paired.opening_isInfix (h : r.Paired t) : r.opening <:+: t := by
  obtain ⟨a, b, c, rfl⟩ := h
  exact ⟨a, b ++ r.closing ++ c, by simp⟩

theorem paired_append_cases (hr : r.Lined) (hl : AtLineStart a) (h : r.Paired (a ++ b)) :
    r.Paired a ∨ r.Paired b ∨ r.opening <:+: a ∧ r.closing <:+: b := by
  obtain ⟨x, y, z, hxyz⟩ := h
  rcases hl.occurrence_cases hr.newline_not_mem_closing hxyz with ⟨w, hw, -⟩ | ⟨w, hw, hxy⟩
  · exact .inl ⟨x, y, w, hw⟩
  rcases hl.occurrence_cases hr.newline_not_mem_opening hxy.symm with ⟨v, hv, -⟩ | ⟨v, hv, -⟩
  · exact .inr (.inr ⟨⟨x, v, hv.symm⟩, ⟨w, z, hw.symm⟩⟩)
  · exact .inr (.inl ⟨v, y, z, by rw [hw, hv]⟩)

/-- The span of a region with these texts before, between and after its markers. -/
def spanOf (r : Region) (a m b : Text) : Span :=
  ⟨a, r.opening ++ m ++ r.closing ++ b.takeNewline.1, b.takeNewline.2⟩

theorem exists_spanOf_of_locateFrom {s : Span} (h : r.locateFrom seen rest = some s) :
    ∃ a m b, seen ++ rest = a ++ r.opening ++ m ++ r.closing ++ b ∧ s = r.spanOf a m b := by
  fun_induction locateFrom r seen rest with
  | case1 => cases h
  | case2 => cases h
  | case3 seen rest hc a b hfirst before after hlast =>
    cases h
    refine ⟨before, after, b, ?_, rfl⟩
    rw [eq_of_splitFirst? hfirst, ← eq_of_splitLast? hlast]
    simp
  | case4 seen rest hc a b hfirst hlast ih =>
    obtain ⟨x, m, y, hxy, hs⟩ := ih h
    refine ⟨x, m, y, ?_, hs⟩
    rw [← hxy, eq_of_splitFirst? hfirst]
    simp

/-- The region that is found runs from an opening marker through a closing marker. -/
theorem exists_spanOf_of_locate? {s : Span} (h : r.locate? t = some s) :
    ∃ a m b, t = a ++ r.opening ++ m ++ r.closing ++ b ∧ s = r.spanOf a m b := by
  unfold locate? at h
  split at h
  · cases h
  · exact exists_spanOf_of_locateFrom h

theorem paired_of_locate? {s : Span} (h : r.locate? t = some s) : r.Paired t := by
  obtain ⟨a, m, b, ht, -⟩ := exists_spanOf_of_locate? h
  exact ⟨a, m, b, ht⟩

/-- A search does not miss a closing marker with an opening marker before it. -/
theorem locateFrom_ne_none (hc : r.closing ≠ []) (hu : r.closing.Unbordered) {x y : Text}
    (hrest : rest = x ++ r.closing ++ y) (ho : r.opening <:+: seen ++ x) :
    r.locateFrom seen rest ≠ none := by
  fun_induction locateFrom r seen rest generalizing x with
  | case1 seen rest hnil => exact absurd hnil hc
  | case2 seen rest _ hfirst => exact absurd ⟨x, y, hrest.symm⟩ (splitFirst?_eq_none_iff.1 hfirst)
  | case3 => simp
  | case4 seen rest _ a b hfirst hlast ih =>
    have hle : a.length ≤ x.length := length_le_of_splitFirst? hfirst hrest
    rw [eq_of_splitFirst? hfirst] at hrest
    -- The first closing marker has no opening marker before it, so it is not the one of the pair;
    -- and it does not overlap that one, which the next search then meets.
    rcases hu.occurrence_cases hrest hle with rfl | ⟨z, rfl, hb⟩
    · exact absurd ho (splitLast?_eq_none_iff.1 hlast)
    · exact ih hb (by simpa using ho)

theorem locate?_eq_none_iff (hr : r.Marked) (hu : r.closing.Unbordered) :
    r.locate? t = none ↔ ¬ r.Paired t := by
  constructor
  · rintro h ⟨a, b, c, hpair⟩
    rw [locate?_eq_locateFrom hr] at h
    exact locateFrom_ne_none hr.closing_ne_nil hu hpair ⟨a, b, rfl⟩ h
  · intro h
    match hs : r.locate? t with
    | none => rfl
    | some s => exact absurd (paired_of_locate? hs) h

theorem locate?_eq_none_of_opening (h : ¬ r.opening <:+: t) : r.locate? t = none := by
  match hs : r.locate? t with
  | none => rfl
  | some s => exact absurd (paired_of_locate? hs).opening_isInfix h

/-- The opening marker between these texts belongs to the closing marker after them: no marker
closes a region earlier, and no opening marker is nearer. -/
structure Opens (r : Region) (a m : Text) : Prop where
  unpaired : ¬ r.Paired (a ++ r.opening ++ m)
  nearest : ∀ x y, r.opening ++ m = x ++ r.opening ++ y → x = []

/-- A search that starts after a closing marker to which no opening marker belongs finds the first
pair of the whole text. -/
theorem exists_opens_of_locateFrom {s : Span} (hu : r.closing.Unbordered)
    (hseen : seen = [] ∨ ∃ d, seen = d ++ r.closing ∧ ¬ r.opening <:+: d)
    (h : r.locateFrom seen rest = some s) :
    ∃ a m b, seen ++ rest = a ++ r.opening ++ m ++ r.closing ++ b ∧ r.Opens a m ∧
      s = r.spanOf a m b := by
  fun_induction locateFrom r seen rest with
  | case1 => cases h
  | case2 => cases h
  | case3 seen rest hc a b hfirst before after hlast =>
    cases h
    have hsplit := eq_of_splitFirst? hfirst
    obtain ⟨hbefore, hnearest⟩ := splitLast?_eq_some_iff.1 hlast
    refine ⟨before, after, b, ?_, ⟨?_, hnearest⟩, rfl⟩
    · rw [hsplit, ← List.append_assoc, ← List.append_assoc, hbefore]
    -- A closing marker in what was searched is not before the one in `seen`, to which no opening
    -- marker belongs, and not after it, where the first one is yet to come.
    rw [← hbefore]
    rintro ⟨x, y, z, hpair⟩
    have hopening : r.opening <:+: x ++ r.opening ++ y := ⟨x, y, rfl⟩
    have hnot : ∀ w, a ≠ w ++ r.closing ++ z := fun w hw => by
      have hle := length_le_of_splitFirst? (x := w) (y := z ++ r.closing ++ b) hfirst
        (by rw [hsplit, hw]; simp)
      have hlen := congrArg List.length hw
      have hpos := List.length_pos_iff.2 hc
      simp only [List.length_append] at hlen
      omega
    rcases hseen with rfl | ⟨d, rfl, hd⟩
    · exact hnot (x ++ r.opening ++ y) (by simpa using hpair)
    rcases le_total d.length (x ++ r.opening ++ y).length with hle | hle
    · rcases hu.occurrence_cases hpair hle with hx | ⟨w, -, hw⟩
      · exact hd (hx ▸ hopening)
      · exact hnot w hw
    · rw [List.append_assoc d, List.append_assoc _ r.closing] at hpair
      have hprefix := List.prefix_of_prefix_length_le ⟨_, hpair.symm⟩ (List.prefix_append d _) hle
      exact hd (hopening.trans hprefix.isInfix)
  | case4 seen rest hc a b hfirst hlast ih =>
    obtain ⟨x, m, y, hxy, hopens, hs⟩ := ih (.inr ⟨_, rfl, splitLast?_eq_none_iff.1 hlast⟩) h
    refine ⟨x, m, y, ?_, hopens, hs⟩
    rw [← hxy, eq_of_splitFirst? hfirst]
    simp

theorem Opens.eq_of_append {a' m m' b' : Text} (h : r.Opens a m) (hu : r.closing.Unbordered)
    (heq : a' ++ r.opening ++ m' ++ r.closing ++ b' = a ++ r.opening ++ m ++ r.closing ++ b)
    (hle : (a' ++ r.opening ++ m').length ≤ (a ++ r.opening ++ m).length) :
    a ++ r.opening ++ m = a' ++ r.opening ++ m' := by
  refine (hu.occurrence_cases heq hle).resolve_right ?_
  rintro ⟨z, hz, -⟩
  exact h.unpaired ⟨a', m', z, hz⟩

theorem Opens.splitLast?_opening {m : Text} (h : r.Opens a m) :
    (a ++ r.opening ++ m).splitLast? r.opening = some (a, m) :=
  splitLast?_eq_some_iff.2 ⟨rfl, h.nearest⟩

/-- A region is found between a closing marker and the nearest opening marker before it, if no
other closing marker has an opening marker before it earlier. -/
theorem locate?_eq_some_iff {s : Span} (hr : r.Marked) (hu : r.closing.Unbordered) :
    r.locate? t = some s ↔
      ∃ a m b, t = a ++ r.opening ++ m ++ r.closing ++ b ∧ r.Opens a m ∧ s = r.spanOf a m b := by
  have hfound : ∀ s, r.locate? t = some s → ∃ a m b,
      t = a ++ r.opening ++ m ++ r.closing ++ b ∧ r.Opens a m ∧ s = r.spanOf a m b :=
    fun s hs => by
      rw [locate?_eq_locateFrom hr] at hs
      exact exists_opens_of_locateFrom hu (.inl rfl) hs
  refine ⟨hfound s, ?_⟩
  rintro ⟨a, m, b, ht, hopens, rfl⟩
  match hs : r.locate? t with
  | none => exact absurd ⟨a, m, b, ht⟩ ((locate?_eq_none_iff hr hu).1 hs)
  | some s =>
    obtain ⟨a', m', b', ht', hopens', rfl⟩ := hfound s hs
    have heq := ht.symm.trans ht'
    have hsame : a' ++ r.opening ++ m' = a ++ r.opening ++ m := by
      rcases le_total (a ++ r.opening ++ m).length (a' ++ r.opening ++ m').length with hle | hle
      · exact hopens'.eq_of_append hu heq hle
      · exact (hopens.eq_of_append hu heq.symm hle).symm
    have hlast : some (a, m) = some (a', m') := by
      rw [← hopens.splitLast?_opening, ← hopens'.splitLast?_opening, hsame]
    obtain ⟨rfl, rfl⟩ : a = a' ∧ m = m' := by simpa using hlast
    rw [List.append_cancel_left heq]

end Region

end PageCache
