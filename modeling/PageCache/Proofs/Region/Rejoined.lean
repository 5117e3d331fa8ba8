import PageCache.Proofs.Region.Idempotent
import PageCache.Proofs.Region.Pairs

/-! Texts that are put together again. An edit keeps the texts on both sides of its place up to
newlines and has them on lines of their own, so it makes no pair of markers of a region that it
does not know; and a pair on one side of the place is the one that is found before and after. -/
namespace PageCache.Region

open Text

variable {r : Region} {a b m t t' head head' block middle tail tail' : Text}

theorem Paired.left (h : r.Paired a) (b : Text) : r.Paired (a ++ b) := by
  obtain ⟨x, y, z, rfl⟩ := h
  exact ⟨x, y, z ++ b, by simp⟩

theorem not_infix_newlines {s : Text} (hn : '\n' ∉ m) (hne : m ≠ []) (hs : ∀ c ∈ s, c = '\n') :
    ¬ m <:+: s := fun h =>
  hne (List.infix_nil.1 (infix_of_infix_append_newlines (a := []) hn hne hs h))

theorem EqBeforeNewlines.paired (hr : r.Lined) (h : EqBeforeNewlines t t') (hp : r.Paired t') :
    r.Paired t := by
  obtain ⟨p, s, s', rfl, rfl, -, hs'⟩ := h
  suffices hpair : r.Paired p from hpair.left s
  cases s' with
  | nil => rwa [List.append_nil] at hp
  | cons c s' =>
    obtain ⟨x, y, z, hxyz⟩ := hp
    rw [hs' c List.mem_cons_self] at hxyz
    rcases Text.occurrence_cases hr.newline_not_mem_closing hxyz with ⟨w, hw, -⟩ | ⟨w, hw, -⟩
    · exact ⟨x, y, w, hw⟩
    · have hnewlines : ∀ d ∈ s', d = '\n' := fun d hd => hs' d (List.mem_cons_of_mem c hd)
      exact absurd ⟨w, z, hw.symm⟩
        (not_infix_newlines hr.newline_not_mem_closing hr.closing_ne_nil hnewlines)

theorem EqAfterNewlines.paired (hr : r.Lined) (h : EqAfterNewlines t t') (hp : r.Paired t') :
    r.Paired t := by
  obtain ⟨s, s', p, rfl, rfl, -, hs'⟩ := h
  have hl : AtLineStart s' := by
    rw [eq_replicate_newline hs']
    cases s'.length with
    | zero => exact atLineStart_nil
    | succ n => exact .inr ⟨_, List.replicate_succ'⟩
  have hopening : ¬ r.opening <:+: s' :=
    not_infix_newlines hr.newline_not_mem_opening hr.opening_ne_nil hs'
  rcases paired_append_cases hr hl hp with hpair | hpair | ⟨ho, -⟩
  · exact absurd hpair.opening_isInfix hopening
  · exact hpair.right s
  · exact absurd ho hopening

/-- A block without markers of the region on lines of its own makes no pair of them. -/
theorem not_paired_rejoined (hr : r.Lined) (hhead : EqBeforeNewlines head head')
    (htail : EqAfterNewlines tail tail') (hl : AtLineStart head') (hlb : AtLineStart block)
    (hblock : Avoids [r] block) (h : ¬ r.Paired (head ++ (middle ++ tail))) :
    ¬ r.Paired (head' ++ (block ++ tail')) := by
  have hopening := hblock r List.mem_cons_self _ (opening_mem r)
  have hclosing := hblock r List.mem_cons_self _ (closing_mem r)
  intro hpair
  rcases paired_append_cases hr hl hpair with hp | hp | ⟨ho, hc⟩
  · exact h ((hhead.paired hr hp).left _)
  · rcases paired_append_cases hr hlb hp with hw | ht | ⟨ho, -⟩
    · exact hopening hw.opening_isInfix
    · exact h (((htail.paired hr ht).right middle).right head)
    · exact hopening ho
  · have htail' : r.closing <:+: tail' :=
      ((hlb.infix_append_iff hr.newline_not_mem_closing).1 hc).resolve_left hclosing
    have ho' := hhead.isInfix hr.newline_not_mem_opening hr.opening_ne_nil ho
    have hc' := htail.isInfix hr.newline_not_mem_closing hr.closing_ne_nil htail'
    exact h (paired_append ho' (hc'.trans (List.suffix_append middle tail).isInfix))

theorem avoids_singleton_nil (hr : r.Lined) : Avoids [r] [] := by
  intro r' hr' m hm hin
  obtain rfl := List.mem_singleton.1 hr'
  have hnil := List.infix_nil.1 hin
  rcases List.mem_pair.1 hm with rfl | rfl
  · exact hr.opening_ne_nil hnil
  · exact hr.closing_ne_nil hnil

/-- An opening marker in texts that are joined at a line start stands in one of them. -/
theorem opening_infix_rejoined (hr : r.Lined) (hhead : EqBeforeNewlines head head')
    (htail : EqAfterNewlines tail tail') (hl : AtLineStart head')
    (h : r.opening <:+: head' ++ tail') : r.opening <:+: head ∨ r.opening <:+: tail := by
  have hn := hr.newline_not_mem_opening
  rcases (hl.infix_append_iff hn).1 h with h | h
  · exact .inl (hhead.isInfix hn hr.opening_ne_nil h)
  · exact .inr (htail.isInfix hn hr.opening_ne_nil h)

/-- What stands from the opening through the closing marker of the region that is found. -/
def block? (r : Region) (text : Text) : Option Text :=
  (r.locate? text).map fun s => s.inside.trimEnd isNewline

theorem trimEnd_spanOf (hr : r.Lined) (a m b : Text) :
    (r.spanOf a m b).inside.trimEnd isNewline = r.opening ++ m ++ r.closing := by
  have hclosing := trimEnd_eq_self hr.newline_not_mem_closing
  have hnewline : b.takeNewline.1.trimEnd isNewline = [] := by
    unfold takeNewline
    split <;> simp [trimEnd, isNewline]
  rw [spanOf, trimEnd_append_of_eq_nil hnewline,
    trimEnd_append_of_ne_nil (by rw [hclosing]; exact hr.closing_ne_nil), hclosing]

theorem block?_of_opens (hr : r.Lined) (hu : r.closing.Unbordered) (h : r.Opens a m) (b : Text) :
    r.block? (a ++ r.opening ++ m ++ r.closing ++ b) =
      some (r.opening ++ m ++ r.closing) := by
  have hfound := (locate?_eq_some_iff hr.marked hu).2 ⟨a, m, b, rfl, h, rfl⟩
  rw [block?, hfound, Option.map_some, trimEnd_spanOf hr]

/-- What ends with a character that is no newline stays before the newlines that change. -/
theorem EqBeforeNewlines.exists_append (h : EqBeforeNewlines (a ++ b) t') (hn : '\n' ∉ m)
    (hne : m ≠ []) (ha : a = t ++ m) : ∃ b', t' = a ++ b' ∧ EqBeforeNewlines b b' := by
  obtain ⟨p, s, s', hp, rfl, hs, hs'⟩ := h
  obtain ⟨x, c, rfl⟩ := (List.eq_nil_or_concat' m).resolve_left hne
  rcases List.append_eq_append_iff.1 hp with ⟨z, rfl, hb⟩ | ⟨z, hz, hsz⟩
  · exact ⟨z ++ s', by simp, z, s, s', hb, rfl, hs, hs'⟩
  · rcases List.eq_nil_or_concat' z with rfl | ⟨w, d, rfl⟩
    · exact ⟨s', by simpa using hz.symm, [], s, s', by simpa using hsz.symm, rfl, hs, hs'⟩
    · have hd : d = '\n' := hs d (by simp [hsz])
      have hcd : c = d := by simpa using congrArg List.getLast? (ha.symm.trans hz)
      exact absurd (hcd.trans hd) fun hc => hn (by simp [hc])

/-- What begins with a character that is no newline stays after the newlines that change. -/
theorem EqAfterNewlines.exists_append (h : EqAfterNewlines (a ++ b) t') (hn : '\n' ∉ m)
    (hne : m ≠ []) (hb : b = m ++ t) :
    ∃ a', t' = a' ++ b ∧ ∀ c : Text, EqAfterNewlines (a ++ c) (a' ++ c) := by
  obtain ⟨s, s', p, hp, rfl, hs, hs'⟩ := h
  obtain ⟨c, x, rfl⟩ := List.exists_cons_of_ne_nil hne
  rcases List.append_eq_append_iff.1 hp with ⟨z, hz, hbz⟩ | ⟨z, rfl, hbz⟩
  · cases z with
    | nil =>
      rw [List.append_nil] at hz
      rw [List.nil_append] at hbz
      exact ⟨s', by rw [hbz], fun u => ⟨s, s', u, by rw [hz], rfl, hs, hs'⟩⟩
    | cons d z =>
      have hd : d = '\n' := hs d (by simp [hz])
      have hcd : c = d := by simpa [hbz] using congrArg List.head? hb.symm
      exact absurd (hcd.trans hd) fun hc => hn (by simp [hc])
  · exact ⟨s' ++ z, by simp [hbz], fun u => ⟨s, s', z ++ u, by simp, by simp, hs, hs'⟩⟩

/-- A region on one side of the place of an edit is found again with the same bytes. -/
theorem block?_rejoined (hr : r.Lined) (hu : r.closing.Unbordered) (h : r.Opens a m)
    (hhead : EqBeforeNewlines head head') (htail : EqAfterNewlines tail tail')
    (hl : AtLineStart head') (hlb : AtLineStart block) (hblock : Avoids [r] block)
    (htext : head ++ (middle ++ tail) = a ++ r.opening ++ m ++ r.closing ++ b)
    (hout : a ++ r.opening ++ m ++ r.closing <+: head ∨ head ++ middle <+: a) :
    r.block? (head' ++ (block ++ tail')) = some (r.opening ++ m ++ r.closing) := by
  rcases hout with ⟨w, rfl⟩ | ⟨w, rfl⟩
  · obtain ⟨w', rfl, -⟩ :=
      hhead.exists_append hr.newline_not_mem_closing hr.closing_ne_nil rfl
    rw [List.append_assoc]
    exact block?_of_opens hr hu h _
  · have hrest : tail = w ++ (r.opening ++ (m ++ r.closing ++ b)) := by
      simpa [List.append_assoc] using htext
    rw [hrest] at htail
    obtain ⟨w', rfl, hw⟩ :=
      htail.exists_append hr.newline_not_mem_opening hr.opening_ne_nil rfl
    have hopens : r.Opens (head' ++ (block ++ w')) m := by
      refine ⟨?_, h.nearest⟩
      have hunpaired := h.unpaired
      simp only [List.append_assoc] at hunpaired ⊢
      exact not_paired_rejoined hr hhead (hw (r.opening ++ m)) hl hlb hblock hunpaired
    have hfound := block?_of_opens hr hu hopens b
    simpa [List.append_assoc] using hfound

end PageCache.Region
