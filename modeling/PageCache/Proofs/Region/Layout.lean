import PageCache.Proofs.Region.Idempotent
import PageCache.Proofs.Region.Marks

/-! Texts with blocks in them. A layout lists the blocks in order, each on lines of its own, and the
visible characters around them; the edits of a text are edits of its layout. -/
namespace PageCache

open Text Region

/-- The text consists of the blocks, with these rules and in this order, and of other text that has
these visible characters. -/
inductive Layout : List (Block × Text) → Text → Text → Prop where
  | rest {t : Text} (ht : Avoids edited t) : Layout [] (visible t) t
  | block {p t o rules : Text} {b : Block} {blocks : List (Block × Text)} (hp : Avoids edited p)
      (hl : AtLineStart p) (hrules : Avoids known rules) (ht : Layout blocks o t) :
      Layout ((b, rules) :: blocks) (visible p ++ o) (p ++ (b.region.wrap rules ++ t))

namespace Layout

variable {b : Block} {rules a c h t text o o' : Text} {blocks blocks' : List (Block × Text)}

theorem nil : Layout [] [] [] := .rest avoids_nil

theorem newlines {s : Text} (hs : ∀ c ∈ s, c = '\n') : Layout [] [] s := by
  have h : Avoids edited s := by simpa using avoids_nil.append_newlines hs
  simpa [visible_newlines hs] using rest h

theorem wrap_append (hrules : Avoids known rules) (ht : Layout blocks o t) :
    Layout ((b, rules) :: blocks) o (b.region.wrap rules ++ t) :=
  .block avoids_nil atLineStart_nil hrules ht

theorem append (ha : Layout blocks o a) (hl : AtLineStart a) (hc : Layout blocks' o' c) :
    Layout (blocks ++ blocks') (o ++ o') (a ++ c) := by
  -- The text after the last block of the one layout and before the first block of the other become
  -- one; the line start keeps a marker from arising where they meet.
  induction ha with
  | @rest t ht =>
    cases hc with
    | rest hc => simpa [visible_append] using rest (ht.append hc hl)
    | @block p c o rules b blocks hp hlp hrules hc =>
      have h := block (b := b) (ht.append hp hl) (hl.append hlp) hrules hc
      simpa [visible_append] using h
  | @block p t o rules b blocks hp hlp hrules ht ih =>
    rw [← List.append_assoc] at hl
    simpa using block hp hlp hrules (ih hl.right)

theorem newline_cons (ht : Layout blocks o t) : Layout blocks o ('\n' :: t) := by
  have hn : Layout [] [] ['\n'] := newlines (by simp)
  exact hn.append (atLineStart_append_newline []) ht

theorem append_newline (ht : Layout blocks o t) (hl : AtLineStart t) :
    Layout blocks o (t ++ ['\n']) := by
  have hn : Layout [] [] ['\n'] := newlines (by simp)
  simpa using ht.append hl hn

theorem trimEnd_wrap_append {r : Region} (hr : r.Proper) (rules head : Text) :
    (head ++ r.wrap rules).trimEnd isNewline ++ ['\n'] = head ++ r.wrap rules := by
  have hclosing := trimEnd_eq_self hr.newline_not_mem_closing
  have hwrap : head ++ r.wrap rules =
      head ++ (r.opening ++ '\n' :: inner rules) ++ r.closing ++ List.replicate 1 '\n' := by
    simp [wrap_eq]
  rw [hwrap, trimEnd_append_newlines,
    trimEnd_append_of_ne_nil (by rw [hclosing]; exact hr.closing_ne_nil), hclosing]
  rfl

theorem trimStart_append_wrap {r : Region} (hr : r.Proper) (rules head tail : Text) :
    (head ++ (r.wrap rules ++ tail)).trimStart isNewline =
      head.trimStart isNewline ++ (r.wrap rules ++ tail) := by
  have hopening := trimStart_eq_self hr.newline_not_mem_opening
  have hwrap : (r.wrap rules ++ tail).trimStart isNewline = r.wrap rules ++ tail := by
    rw [wrap_eq, List.append_assoc,
      trimStart_append_of_ne_nil (by rw [hopening]; exact hr.opening_ne_nil), hopening]
  by_cases hhead : head.trimStart isNewline = []
  · rw [trimStart_append_of_eq_nil hhead, hwrap, hhead, List.nil_append]
  · rw [trimStart_append_of_ne_nil hhead]

theorem eq_nil_of_newlines (ht : Layout blocks o t) (hn : ∀ c ∈ t, c = '\n') :
    blocks = [] ∧ o = [] := by
  cases ht with
  | rest ht => exact ⟨rfl, visible_newlines hn⟩
  | @block p t o rules b blocks =>
    have hb := region_mem_known b
    obtain ⟨c, hc⟩ := List.exists_mem_of_ne_nil _ (marker_ne_nil hb (opening_mem _))
    have hnewline : c = '\n' := hn c (by simp [wrap_eq, hc])
    exact absurd (hnewline ▸ hc) (newline_not_mem_marker hb (opening_mem _))

theorem eq_nil_of_trimEnd (ht : Layout blocks o t) (hn : t.trimEnd isNewline = []) :
    blocks = [] ∧ o = [] := by
  obtain ⟨s, hs, hall⟩ := exists_trimEnd_isNewline t
  rw [hn, List.nil_append] at hs
  exact ht.eq_nil_of_newlines (hs ▸ hall)

theorem eq_nil_of_trimStart (ht : Layout blocks o t) (hn : t.trimStart isNewline = []) :
    blocks = [] ∧ o = [] := by
  obtain ⟨s, hs, hall⟩ := exists_trimStart_isNewline t
  rw [hn, List.append_nil] at hs
  exact ht.eq_nil_of_newlines (hs ▸ hall)

theorem trimEnd_append_newline (ht : Layout blocks o t) :
    Layout blocks o (t.trimEnd isNewline ++ ['\n']) := by
  induction ht with
  | @rest t ht =>
    obtain ⟨s, hs, -⟩ := exists_trimEnd_isNewline t
    have htrim : Avoids edited (t.trimEnd isNewline) := Avoids.left (hs ▸ ht)
    have h := rest (htrim.append_newlines (b := ['\n']) (by simp))
    have hv : visible (t.trimEnd isNewline ++ ['\n']) = visible t := by
      rw [visible_append, visible_trimEnd, visible_newlines (s := ['\n']) (by simp),
        List.append_nil]
    rwa [hv] at h
  | @block p t o rules b blocks hp hl hrules ht ih =>
    by_cases hn : t.trimEnd isNewline = []
    · obtain ⟨rfl, rfl⟩ := ht.eq_nil_of_trimEnd hn
      rw [← List.append_assoc, trimEnd_append_of_eq_nil hn, trimEnd_wrap_append (proper_region b)]
      simpa using block hp hl hrules nil
    · rw [← List.append_assoc, trimEnd_append_of_ne_nil hn, List.append_assoc, List.append_assoc]
      exact block hp hl hrules ih

theorem trimStart (ht : Layout blocks o t) : Layout blocks o (t.trimStart isNewline) := by
  cases ht with
  | rest ht =>
    obtain ⟨s, hs, -⟩ := exists_trimStart_isNewline t
    have h := rest (Avoids.right (hs ▸ ht))
    rwa [visible_trimStart] at h
  | @block p t o rules b blocks hp hl hrules ht =>
    obtain ⟨s, hs, -⟩ := exists_trimStart_isNewline p
    have hlp : AtLineStart (p.trimStart isNewline) := AtLineStart.right (hs ▸ hl)
    have h := block (b := b) (Avoids.right (hs ▸ hp)) hlp hrules ht
    rwa [trimStart_append_wrap (proper_region b), ← visible_trimStart p]

theorem closed (hh : Layout blocks o h) (blank : Bool) :
    Layout blocks o (Region.closed (h.trimEnd isNewline) blank) := by
  have hone := hh.trimEnd_append_newline
  by_cases hn : h.trimEnd isNewline = []
  · obtain ⟨rfl, rfl⟩ := hh.eq_nil_of_trimEnd hn
    simpa [Region.closed, hn] using nil
  · cases blank with
    | false => simpa [Region.closed, hn] using hone
    | true => simpa [Region.closed, hn] using hone.append_newline (atLineStart_append_newline _)

theorem headPart (hh : Layout blocks o h) : Layout blocks o (Region.headPart h) := hh.closed _

theorem tailPart (ht : Layout blocks o t) : Layout blocks o (Region.tailPart t) := by
  unfold Region.tailPart
  split
  · exact ht.trimStart.newline_cons
  · exact ht.trimStart

theorem put (hh : Layout blocks o h) (ht : Layout blocks' o' t) (hrules : Avoids known rules) :
    Layout (blocks ++ (b, rules) :: blocks') (o ++ o')
      (Region.headPart h ++ (b.region.wrap rules ++ Region.tailPart t)) :=
  hh.headPart.append (atLineStart_headPart h) (wrap_append hrules ht.tailPart)

theorem closeGap (hh : Layout blocks o h) (ht : Layout blocks' o' t) :
    Layout (blocks ++ blocks') (o ++ o') (Region.closeGap h t) := by
  by_cases hhead : h.trimEnd isNewline = []
  · obtain ⟨rfl, rfl⟩ := hh.eq_nil_of_trimEnd hhead
    simpa [Region.closeGap, hhead] using ht.trimStart
  by_cases htail : t.trimStart isNewline = []
  · obtain ⟨rfl, rfl⟩ := ht.eq_nil_of_trimStart htail
    simpa [Region.closeGap, hhead, htail] using hh.trimEnd_append_newline
  · have hseam := (hh.closed (h.endsWith ['\n', '\n'] || t.startsWith ['\n'])).append
      (atLineStart_closed _ _) ht.trimStart
    simpa [Region.closeGap, Region.closed, hhead, htail, apply_ite String.toList] using hseam

end Layout

end PageCache
