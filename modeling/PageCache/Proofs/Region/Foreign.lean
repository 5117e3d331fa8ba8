import PageCache.Proofs.Region.Rejoined
import PageCache.Proofs.RuleFile.Shared

/-! Regions of other owners. A region that is found outside the span of an edit is found after it
with the same bytes, whatever stray markers stand around and wherever in a line a block goes. -/
namespace PageCache

open Text

/-- A needle whose first place is its last one occurs nowhere else. -/
theorem Text.occursAtMostOnce_of_eq {t needle : Text}
    (h : (t.splitFirst? needle).map Prod.fst = (t.splitLast? needle).map Prod.fst) :
    needle.OccursAtMostOnce t := by
  rcases hfirst : t.splitFirst? needle with _ | ⟨a, b⟩
  · exact fun x y _ _ hxy _ => absurd ⟨x, y, hxy.symm⟩ (splitFirst?_eq_none_iff.1 hfirst)
  obtain ⟨⟨a', b'⟩, hlast, hsame⟩ := Option.map_eq_some_iff.1 (h.symm.trans (by rw [hfirst]; rfl))
  have hat : ∀ x y, t = x ++ needle ++ y → x = a := fun x y hxy => by
    have hle := length_le_of_splitFirst? hfirst hxy
    have hge := length_le_of_splitLast? hlast hxy
    have heq := hxy.symm.trans (eq_of_splitFirst? hfirst)
    simp only [List.append_assoc] at heq
    rw [show a' = a from hsame] at hge
    exact (List.append_inj heq (by omega)).1
  intro x y x' y' hxy hxy'
  rw [hat x y hxy, hat x' y' hxy']

/-- The place after this text is not between the first and the last byte of the region. -/
def Span.Outside (s : Span) (head : Text) : Prop :=
  head <+: s.before ∨ s.before ++ s.inside.trimEnd isNewline <+: head

namespace Region

/-- Each marker stands within a line and begins with its only number sign. -/
def Hashed (r : Region) : Prop := ∀ m ∈ r.markers, ∃ x, m = '#' :: x ∧ '#' ∉ x ∧ '\n' ∉ m

variable {r f : Region} {text body : Text} {anchors : List Anchor} {s own : Span}

theorem unbordered_hash {x : Text} (hx : '#' ∉ x) : Text.Unbordered ('#' :: x) := by
  rintro p hp ⟨d, hd⟩
  cases d with
  | nil => exact .inr hd
  | cons c d =>
    cases p with
    | nil => exact .inl rfl
    | cons e p =>
      obtain ⟨rfl, -⟩ := List.cons_prefix_cons.1 hp
      obtain ⟨-, rfl⟩ := List.cons.inj hd
      simp at hx

theorem Hashed.lined (hr : r.Hashed) : r.Lined := by
  obtain ⟨x, hx, -, hn⟩ := hr _ (opening_mem r)
  obtain ⟨y, hy, -, hn'⟩ := hr _ (closing_mem r)
  exact ⟨by simp [hx], by simp [hy], hn, hn'⟩

theorem Hashed.unbordered_closing (hr : r.Hashed) : r.closing.Unbordered := by
  obtain ⟨x, hx, hmem, -⟩ := hr _ (closing_mem r)
  rw [hx]
  exact unbordered_hash hmem

/-- The block of the one region goes to a place on one side of the other region. -/
theorem exists_replaced_apart (hapart : ∀ own, r.locate? text = some own → s.Apart own)
    (hplace : r.locate? text = none → s.Outside (r.surroundings text anchors).1) :
    ∃ middle, text = (r.surroundings text anchors).1 ++
        (middle ++ (r.surroundings text anchors).2) ∧
      (s.before ++ s.inside.trimEnd isNewline <+: (r.surroundings text anchors).1 ∨
        (r.surroundings text anchors).1 ++ middle <+: s.before) := by
  match h : r.locate? text with
  | some own =>
    rw [surroundings_of_located h]
    refine ⟨own.inside, eq_append_of_locate? h, ?_⟩
    refine (hapart own h).imp_left fun hbefore => ?_
    obtain ⟨u, hu, -⟩ := exists_trimEnd_isNewline s.inside
    exact ((List.prefix_append_right_inj _).2 ⟨u, hu.symm⟩).trans hbefore
  | none =>
    have hout := hplace h
    rw [surroundings_of_absent h] at hout ⊢
    refine ⟨[], by rw [List.nil_append, placeOf_append], ?_⟩
    rw [List.append_nil]
    exact hout.symm

theorem block?_upsert (hf : f.Hashed) (hs : f.locate? text = some s)
    (hapart : ∀ own, r.locate? text = some own → s.Apart own)
    (hplace : r.locate? text = none → s.Outside (r.surroundings text anchors).1)
    (hbody : Avoids [f] (r.wrap body)) :
    f.block? (r.upsert text body anchors) = some (s.inside.trimEnd isNewline) := by
  obtain ⟨middle, htext, hout⟩ := exists_replaced_apart hapart hplace
  obtain ⟨a, m, b, hparts, hopens, rfl⟩ :=
    (locate?_eq_some_iff hf.lined.marked hf.unbordered_closing).1 hs
  rw [trimEnd_spanOf hf.lined] at hout ⊢
  rw [upsert_eq]
  refine block?_rejoined hf.lined hf.unbordered_closing hopens (eqBeforeNewlines_headPart _)
    (eqAfterNewlines_tailPart _) (atLineStart_headPart _) (atLineStart_wrap _ _) hbody
    (htext.symm.trans hparts) ?_
  simpa [spanOf, List.append_assoc] using hout

/-- Without a second opening marker, nothing is left to find after one removal. -/
theorem locate?_closeGap (hr : r.Hashed) (honce : r.opening.OccursAtMostOnce text)
    (h : r.locate? text = some own) : r.locate? (closeGap own.before own.after) = none := by
  obtain ⟨a, m, b, rfl, -, rfl⟩ := (locate?_eq_some_iff hr.lined.marked hr.unbordered_closing).1 h
  have hpos := List.length_pos_iff.2 hr.lined.opening_ne_nil
  apply locate?_eq_none_of_opening
  intro hin
  obtain ⟨head, tail, hgap, hl, hhead, htail⟩ :=
    exists_closeGap_eq (r.spanOf a m b).before (r.spanOf a m b).after
  rw [hgap] at hin
  rcases opening_infix_rejoined hr.lined hhead htail hl hin with ⟨x, y, hxy⟩ | ⟨x, y, hxy⟩
  · have ha : a = x ++ r.opening ++ y := hxy.symm
    have heq : x = a := by
      refine honce x (y ++ r.opening ++ m ++ r.closing ++ b) a (m ++ r.closing ++ b) ?_ ?_
      · conv_lhs => rw [ha]
        simp
      · simp
    have hlen := congrArg List.length ha
    rw [heq] at hlen
    simp only [List.length_append] at hlen
    omega
  · have hb : b = b.takeNewline.1 ++ (x ++ r.opening ++ y) := by
      have hafter : x ++ r.opening ++ y = b.takeNewline.2 := hxy
      rw [hafter, takeNewline_append]
    have heq : a = a ++ r.opening ++ m ++ r.closing ++ b.takeNewline.1 ++ x := by
      refine honce a (m ++ r.closing ++ b) _ y ?_ ?_
      · simp
      · conv_lhs => rw [hb]
        simp
    have hlen := congrArg List.length heq
    simp only [List.length_append] at hlen
    omega

theorem block?_erase (hr : r.Hashed) (hf : f.Hashed) (hs : f.locate? text = some s)
    (hapart : ∀ own, r.locate? text = some own → s.Apart own)
    (honce : r.opening.OccursAtMostOnce text) :
    f.block? (r.erase text) = some (s.inside.trimEnd isNewline) := by
  match h : r.locate? text with
  | none => rw [erase_eq_self h, block?, hs, Option.map_some]
  | some own =>
    rw [erase_of_located h, erase_eq_self (locate?_closeGap hr honce h)]
    have hplace : r.locate? text = none → s.Outside (r.surroundings text []).1 := by simp [h]
    obtain ⟨middle, htext, hout⟩ := exists_replaced_apart hapart hplace
    rw [surroundings_of_located h] at htext hout
    obtain ⟨a, m, b, hparts, hopens, rfl⟩ :=
      (locate?_eq_some_iff hf.lined.marked hf.unbordered_closing).1 hs
    rw [trimEnd_spanOf hf.lined] at hout ⊢
    obtain ⟨head, tail, hgap, hl, hhead, htail⟩ := exists_closeGap_eq own.before own.after
    rw [hgap, ← List.nil_append tail]
    refine block?_rejoined hf.lined hf.unbordered_closing hopens hhead htail hl atLineStart_nil
      (avoids_singleton_nil hf.lined) (htext.symm.trans hparts) ?_
    simpa [spanOf, List.append_assoc] using hout

/-- A region of another owner that is found apart from the place of an edit keeps its bytes: when a
block without its markers is put into the text, and when a block that is there once is removed. -/
theorem block?_of_edit_apart (hr : r.Hashed) (hf : f.Hashed) (hs : f.locate? text = some s)
    (hapart : ∀ own, r.locate? text = some own → s.Apart own) :
    (∀ body anchors, Avoids [f] (r.wrap body) →
      (r.locate? text = none → s.Outside (r.surroundings text anchors).1) →
        f.block? (r.upsert text body anchors) = some (s.inside.trimEnd isNewline)) ∧
    (r.opening.OccursAtMostOnce text →
      f.block? (r.erase text) = some (s.inside.trimEnd isNewline)) :=
  ⟨fun _ _ hbody hplace => block?_upsert hf hs hapart hplace hbody,
    fun honce => block?_erase hr hf hs hapart honce⟩

/-- A closing marker before the other region and an opening marker after it belong to no pair. -/
theorem block?_of_edit_apart_stray :
    let mine : Region := ⟨"# BEGIN Mine", "# END Mine"⟩
    let other : Region := ⟨"# BEGIN Other", "# END Other"⟩
    let text : Text := "# END Other\n# BEGIN Mine\nold\n# END Mine\nx\n" ++
      "# BEGIN Other\nkeep\n# END Other\n# BEGIN Other"
    other.block? (mine.upsert text "new" []) = some "# BEGIN Other\nkeep\n# END Other".toList ∧
      other.block? (mine.erase text) = some "# BEGIN Other\nkeep\n# END Other".toList := by
  intro mine other text
  have hmine : mine.Hashed := by
    simp only [Hashed, markers, List.forall_mem_cons]
    exact ⟨⟨_, rfl, by decide, by decide⟩, ⟨_, rfl, by decide, by decide⟩, by simp⟩
  have hother : other.Hashed := by
    simp only [Hashed, markers, List.forall_mem_cons]
    exact ⟨⟨_, rfl, by decide, by decide⟩, ⟨_, rfl, by decide, by decide⟩, by simp⟩
  have hproper : mine.Proper := ⟨by decide, by decide, by decide, by decide, by decide⟩
  have hproper' : other.Proper := ⟨by decide, by decide, by decide, by decide, by decide⟩
  have hfirst : mine.locate? "# END Other\n" = none :=
    locate?_eq_none_of_opening (by decide +kernel)
  have hsecond : other.locate? ("# END Other\n" ++ (mine.wrap "old" ++ "x\n")) = none :=
    locate?_eq_none_of_opening (by decide +kernel)
  have hold : Avoids [mine] "old" := by decide +kernel
  have hkeep : Avoids [other] "keep" := by decide +kernel
  have hown := locate?_wrap hproper hold
    (atLineStart_append_newline "# END Other") hfirst
    ("x\n" ++ (other.wrap "keep" ++ "# BEGIN Other"))
  have hs := locate?_wrap hproper' hkeep
    (.inr ⟨"# END Other\n" ++ (mine.wrap "old" ++ "x"), by decide +kernel⟩) hsecond "# BEGIN Other"
  have honce : mine.opening.OccursAtMostOnce text :=
    occursAtMostOnce_of_eq (by decide +kernel)
  have hother' : other.locate? text = some _ := hs
  have hkept := block?_of_edit_apart hmine hother hother' (fun own h => by
    obtain rfl := Option.some.inj (hown.symm.trans h)
    exact .inr (by decide +kernel))
  have hlocated : mine.locate? text ≠ none := fun h => Option.some_ne_none _ (hown.symm.trans h)
  exact ⟨hkept.1 "new" [] (by decide +kernel) fun h => absurd h hlocated, hkept.2 honce⟩

end Region

end PageCache
