import PageCache.Proofs.Region.Layout
import PageCache.RuleFile

/-! Edits of a layout. A block is found where the layout has it and nowhere else, a place next to a
marker of another owner is never within a block, and installing or removing one block keeps the
other blocks and the visible characters around them. -/
namespace PageCache

open Text Region

section
variable {b : Block} {r : Region} {rules h t m x y head tail text : Text}

theorem region_eq_of_marker (hr : r ∈ known) (hm : m ∈ r.markers) (hb : m ∈ b.region.markers) :
    r = b.region := by
  have hall : ∀ r ∈ known, ∀ m ∈ b.region.markers, m ∈ r.markers → r = b.region := by
    cases b <;> decide
  exact hall r hr m hb hm

/-- The place between the texts is not within a block. -/
def Between (h t : Text) : Prop :=
  ∀ (b : Block) (rules x y : Text), AtLineStart x → Avoids known rules →
    h ++ t = x ++ (b.region.wrap rules ++ y) → h <+: x ∨ x ++ b.region.wrap rules <+: h

theorem Between.of_append (hb : Between (x ++ h) t) (hx : AtLineStart x) : Between h t := by
  intro b rules u v hu hrules huv
  have heq : x ++ h ++ t = x ++ u ++ (b.region.wrap rules ++ v) := by
    rw [List.append_assoc, huv, List.append_assoc]
  rcases hb b rules (x ++ u) v (hx.append hu) hrules heq with hp | hp
  · exact .inl ((List.prefix_append_right_inj x).1 hp)
  · rw [List.append_assoc] at hp
    exact .inr ((List.prefix_append_right_inj x).1 hp)

/-- The place before a marker that ends no block. -/
theorem between_before (hr : r ∈ known) (hm : m ∈ r.markers)
    (hne : ∀ b : Block, m ≠ b.region.closing) (x y : Text) : Between x (m ++ y) := by
  intro b rules u v hu hrules huv
  have hn := newline_not_mem_marker hr hm
  rw [← List.append_assoc] at huv
  rcases hu.occurrence_cases hn huv.symm with ⟨z, rfl, -⟩ | ⟨z, hz, rfl⟩
  · exact .inl ⟨m ++ z, by simp⟩
  rcases (atLineStart_wrap _ rules).occurrence_cases hn hz with ⟨w, hw, -⟩ | ⟨w, -, rfl⟩
  · rcases occurrence_wrap hr hm hrules hw with ⟨-, rfl⟩ | ⟨hclosing, -⟩
    · exact .inl (by simp)
    · exact absurd hclosing (hne b)
  · exact .inr ⟨w, by simp⟩

theorem takeNewline_cons_isPrefix (c : Char) (y : Text) : (takeNewline (c :: y)).1 <+: [c] := by
  unfold takeNewline
  split
  · next h =>
    obtain ⟨rfl, -⟩ := List.cons.inj h
    exact List.prefix_rfl
  · exact List.nil_prefix

/-- The place after the line of a marker that begins no block. -/
theorem between_after (hr : r ∈ known) (hm : m ∈ r.markers)
    (hne : ∀ b : Block, m ≠ b.region.opening) (x y : Text) :
    Between (x ++ m ++ y.takeNewline.1) y.takeNewline.2 := by
  intro b rules u v hu hrules huv
  have hn := newline_not_mem_marker hr hm
  rw [List.append_assoc, takeNewline_append] at huv
  rcases hu.occurrence_cases hn huv.symm with ⟨z, hz, rfl⟩ | ⟨z, hz, rfl⟩
  · obtain ⟨c, z, rfl⟩ :=
      List.exists_cons_of_ne_nil (hu.ne_nil_of_occurrence hn (marker_ne_nil hr hm) hz)
    refine .inl ?_
    rw [hz, List.prefix_append_right_inj]
    exact (takeNewline_cons_isPrefix c _).trans (List.prefix_append [c] z)
  rcases (atLineStart_wrap _ rules).occurrence_cases hn hz with ⟨w, hw, rfl⟩ | ⟨w, -, rfl⟩
  · rcases occurrence_wrap hr hm hrules hw with ⟨hopening, -⟩ | ⟨-, rfl⟩
    · exact absurd hopening (hne b)
    · exact .inr (by simp [hw, takeNewline])
  · exact .inr ⟨w ++ (m ++ y.takeNewline.1), by simp⟩

theorem exists_of_mem_anchors {i : Anchor} (hi : i ∈ b.anchors) :
    ∃ r ∈ known, i = beforeRegion r ∨ i = afterRegion r := by
  have hall : ∀ i ∈ b.anchors, ∃ r ∈ known, i = beforeRegion r ∨ i = afterRegion r := by
    cases b <;> decide
  exact hall i hi

theorem opening_ne_closing (hr : r ∈ known) (b : Block) :
    r.opening ≠ b.region.closing ∧ r.closing ≠ b.region.opening := by
  have hall : ∀ r ∈ known, r.opening ≠ b.region.closing ∧ r.closing ≠ b.region.opening := by
    cases b <;> decide
  exact hall r hr

/-- The place of an anchor is never within a block. -/
theorem between_of_split? {i : Anchor} (hi : i ∈ b.anchors)
    (hs : i.split? text = some (head, tail)) : Between head tail := by
  obtain ⟨x, y, -, -, hcut⟩ := Anchor.exists_of_split? hs
  obtain ⟨r, hr, rfl | rfl⟩ := exists_of_mem_anchors hi
  · obtain ⟨rfl, rfl⟩ : head = x ∧ tail = r.opening ++ y := by
      simpa [beforeRegion, Anchor.cut] using hcut
    exact between_before hr (opening_mem r) (fun b => (opening_ne_closing hr b).1) head y
  · obtain ⟨rfl, rfl⟩ : head = x ++ r.closing ++ y.takeNewline.1 ∧ tail = y.takeNewline.2 := by
      simpa [afterRegion, Anchor.cut] using hcut
    exact between_after hr (closing_mem r) (fun b => (opening_ne_closing hr b).2) x y

end

namespace Layout

variable {b : Block} {r : Region} {rules h t m o text : Text}
  {blocks blocks₁ blocks₂ : List (Block × Text)}

theorem cut (ht : Layout blocks o text) (htext : text = h ++ t) (hb : Between h t) :
    ∃ blocks₁ blocks₂ o₁ o₂, blocks = blocks₁ ++ blocks₂ ∧ o = o₁ ++ o₂ ∧ Layout blocks₁ o₁ h ∧
      Layout blocks₂ o₂ t := by
  induction ht generalizing h with
  | rest ht =>
    subst htext
    exact ⟨[], [], visible h, visible t, rfl, visible_append h t, rest ht.left, rest ht.right⟩
  | @block p t' o rules b blocks hp hl hrules ht ih =>
    rcases hb b rules p t' hl hrules htext.symm with ⟨q, rfl⟩ | ⟨q, rfl⟩
    · have hq : AtLineStart q := hl.right
      obtain rfl : q ++ (b.region.wrap rules ++ t') = t := by simpa using htext
      exact ⟨[], (b, rules) :: blocks, visible h, visible q ++ o, rfl, by simp [visible_append],
        rest hp.left, block hp.right hq hrules ht⟩
    · have hlp : AtLineStart (p ++ b.region.wrap rules) := hl.append (atLineStart_wrap _ rules)
      obtain rfl : t' = q ++ t := by simpa using htext
      obtain ⟨blocks₁, blocks₂, o₁, o₂, rfl, rfl, h₁, h₂⟩ := ih rfl (hb.of_append hlp)
      refine ⟨(b, rules) :: blocks₁, blocks₂, visible p ++ o₁, o₂, rfl, by simp, ?_, h₂⟩
      rw [List.append_assoc]
      exact block hp hl hrules h₁

theorem exists_around (ht : Layout (blocks₁ ++ (b, rules) :: blocks₂) o text) :
    ∃ h t o₁ o₂, text = h ++ (b.region.wrap rules ++ t) ∧ o = o₁ ++ o₂ ∧ AtLineStart h ∧
      Avoids known rules ∧ Layout blocks₁ o₁ h ∧ Layout blocks₂ o₂ t := by
  induction blocks₁ generalizing o text with
  | nil =>
    cases ht with
    | @block p t o₂ _ _ _ hp hl hrules ht =>
      exact ⟨p, t, visible p, o₂, rfl, rfl, hl, hrules, rest hp, ht⟩
  | cons first blocks₁ ih =>
    cases ht with
    | @block p _ _ rules' b' _ hp hl hrules' ht =>
      obtain ⟨h, t, o₁, o₂, rfl, rfl, hlh, hrules, h₁, h₂⟩ := ih ht
      refine ⟨p ++ (b'.region.wrap rules' ++ h), t, visible p ++ o₁, o₂, by simp, by simp, ?_,
        hrules, block hp hl hrules' h₁, h₂⟩
      exact hl.append ((atLineStart_wrap _ rules').append hlh)

/-- A marker that is not one of the blocks' does not occur. -/
theorem avoids (ht : Layout blocks o text) (hr : r ∈ edited)
    (hne : ∀ p ∈ blocks, r ≠ p.1.region) : Avoids [r] text := by
  intro s hs m hm hin
  obtain rfl : s = r := List.mem_singleton.1 hs
  have hknown := edited_subset hr
  have hn := newline_not_mem_marker hknown hm
  induction ht with
  | rest ht => exact ht s hr m hm hin
  | @block p t o rules b blocks hp hl hrules ht ih =>
    have hb : s ≠ b.region := hne (b, rules) List.mem_cons_self
    rcases (hl.infix_append_iff hn).1 hin with hin | hin
    · exact hp s hr m hm hin
    rcases ((atLineStart_wrap _ rules).infix_append_iff hn).1 hin with ⟨x, y, hxy⟩ | hin
    · rcases occurrence_wrap hknown hm hrules hxy.symm with ⟨rfl, -⟩ | ⟨rfl, -⟩
      · exact hb (region_eq_of_marker hknown hm (opening_mem _))
      · exact hb (region_eq_of_marker hknown hm (closing_mem _))
    · exact ih hin fun p hp => hne p (List.mem_cons_of_mem _ hp)

theorem region_injective : Function.Injective Block.region := by
  intro a b h
  cases a <;> cases b <;> first | rfl | exact absurd h (by decide)

theorem avoids_block (ht : Layout blocks o text) (hb : b ∉ blocks.map Prod.fst) :
    Avoids [b.region] text :=
  ht.avoids (region_mem_edited b) fun p hp he =>
    hb (List.mem_map.2 ⟨p, hp, (region_injective he).symm⟩)

theorem locate?_eq_none (ht : Layout blocks o text) (hb : b ∉ blocks.map Prod.fst) :
    b.region.locate? text = none := locate?_eq_none_of_avoids (ht.avoids_block hb)

theorem exists_located (ht : Layout (blocks₁ ++ (b, rules) :: blocks₂) o text)
    (hb : b ∉ blocks₁.map Prod.fst) :
    ∃ s o₁ o₂, b.region.locate? text = some s ∧ s.inside = b.region.wrap rules ∧
      o = o₁ ++ o₂ ∧ AtLineStart s.before ∧ Avoids known rules ∧ Layout blocks₁ o₁ s.before ∧
      Layout blocks₂ o₂ s.after := by
  obtain ⟨h, t, o₁, o₂, rfl, ho, hl, hrules, h₁, h₂⟩ := ht.exists_around
  have hown : Avoids [b.region] rules := hrules.of_mem (region_mem_known b)
  exact ⟨⟨h, b.region.wrap rules, t⟩, o₁, o₂,
    locate?_wrap (proper_region b) hown hl (h₁.locate?_eq_none hb) t, rfl, ho, hl, hrules, h₁, h₂⟩

theorem prefix_of_located {b' : Block} {rules' : Text} {blocks₃ : List (Block × Text)} {s s' : Span}
    (ht : Layout ((blocks₁ ++ (b, rules) :: blocks₂) ++ (b', rules') :: blocks₃) o text)
    (hb : b ∉ blocks₁.map Prod.fst) (hb' : b' ∉ (blocks₁ ++ (b, rules) :: blocks₂).map Prod.fst)
    (hs : b.region.locate? text = some s) (hs' : b'.region.locate? text = some s') :
    s.before ++ s.inside <+: s'.before := by
  obtain ⟨u', o₁, o₂, hu', -, -, -, -, hbefore, -⟩ := ht.exists_located hb'
  obtain rfl : u' = s' := Option.some.inj (hu'.symm.trans hs')
  obtain ⟨u, -, -, hu, hinside, -⟩ := hbefore.exists_located hb
  -- The search depends on the text up to its region, so it finds the left block at the same place
  -- in the text before the right block and in the whole text.
  obtain ⟨i, t, hit⟩ := locate?_append hu (u'.inside ++ u'.after)
  rw [List.append_assoc, List.cons_append] at ht
  obtain ⟨v, -, -, hv, hvinside, -⟩ := ht.exists_located hb
  obtain rfl : v = s := Option.some.inj (hv.symm.trans hs)
  rw [← eq_append_of_locate? hs', hs] at hit
  have hsame : v.before = u.before := by rw [Option.some.inj hit]
  rw [hsame, hvinside, ← hinside]
  exact ⟨u.after, text_of_locate? hu⟩

theorem of_nil (ht : Layout [] o text) : o = visible text := by
  cases ht
  rfl

/-- The place of a block that is not there cuts the layout between its blocks. -/
theorem cut_placeOf (ht : Layout blocks o text) (b : Block) :
    ∃ blocks₁ blocks₂ o₁ o₂, blocks = blocks₁ ++ blocks₂ ∧ o = o₁ ++ o₂ ∧
      Layout blocks₁ o₁ (placeOf b.anchors text).1 ∧
      Layout blocks₂ o₂ (placeOf b.anchors text).2 := by
  match hplace : b.anchors.findSome? (·.split? text) with
  | none =>
    rw [placeOf, hplace]
    exact ⟨blocks, [], o, [], by simp, by simp, ht, nil⟩
  | some (head, tail) =>
    rw [placeOf, hplace]
    obtain ⟨i, hi, hsplit⟩ := List.exists_of_findSome?_eq_some hplace
    exact ht.cut (Anchor.append_of_split? hsplit).symm (between_of_split? hi hsplit)

theorem nodup_middle_iff : ((blocks₁ ++ (b, rules) :: blocks₂).map Prod.fst).Nodup ↔
    (b ∉ blocks₁.map Prod.fst ∧ b ∉ blocks₂.map Prod.fst) ∧
      ((blocks₁ ++ blocks₂).map Prod.fst).Nodup := by
  rw [List.map_append, List.map_cons, List.nodup_middle, List.nodup_cons, List.mem_append, not_or,
    List.map_append]

theorem exists_surroundings (ht : Layout blocks o text) (hd : (blocks.map Prod.fst).Nodup)
    (b : Block) :
    ∃ blocks₁ blocks₂ o₁ o₂, o = o₁ ++ o₂ ∧
      Layout blocks₁ o₁ (b.region.surroundings text b.anchors).1 ∧
      Layout blocks₂ o₂ (b.region.surroundings text b.anchors).2 ∧
      ((blocks₁ ++ blocks₂).map Prod.fst).Nodup ∧
      ∀ p, p ∈ blocks₁ ++ blocks₂ ↔ p ∈ blocks ∧ p.1 ≠ b := by
  by_cases hb : b ∈ blocks.map Prod.fst
  · obtain ⟨⟨b, rules⟩, hmem, rfl⟩ := List.mem_map.1 hb
    obtain ⟨blocks₁, blocks₂, rfl⟩ := List.append_of_mem hmem
    obtain ⟨⟨hfirst, hlast⟩, hd⟩ := nodup_middle_iff.1 hd
    obtain ⟨s, o₁, o₂, hs, -, ho, -, -, h₁, h₂⟩ := ht.exists_located hfirst
    rw [surroundings_of_located hs]
    refine ⟨blocks₁, blocks₂, o₁, o₂, ho, h₁, h₂, hd, fun p => ⟨fun hp => ?_, ?_⟩⟩
    · rcases List.mem_append.1 hp with hp | hp
      · exact ⟨by simp [hp], fun he => hfirst (List.mem_map.2 ⟨p, hp, he⟩)⟩
      · exact ⟨by simp [hp], fun he => hlast (List.mem_map.2 ⟨p, hp, he⟩)⟩
    · rintro ⟨hp, hne⟩
      have hpair : p ≠ (b, rules) := fun he => hne (congrArg Prod.fst he)
      simpa [hpair] using hp
  · rw [surroundings_of_absent (ht.locate?_eq_none hb)]
    obtain ⟨blocks₁, blocks₂, o₁, o₂, rfl, ho, h₁, h₂⟩ := ht.cut_placeOf b
    refine ⟨blocks₁, blocks₂, o₁, o₂, ho, h₁, h₂, hd, fun p => ?_⟩
    exact ⟨fun hp => ⟨hp, fun he => hb (he ▸ List.mem_map_of_mem hp)⟩, And.left⟩

end Layout

end PageCache
