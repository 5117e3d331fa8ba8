import PageCache.Proofs.Region.Pairs
import PageCache.Proofs.Text.Offsets

/-! The region that is found, by its byte offsets. The search finds a region if and only if an
opening marker ends before a closing marker begins; it then takes the earliest closing marker that
has an opening marker before it, and the nearest one of these. -/
namespace PageCache

namespace Span

def start (s : Span) : ℕ := s.before.utf8Length

def stop (s : Span) : ℕ := (s.before ++ s.inside).utf8Length

theorem eq_of_offsets {s s' : Span} (htext : s.text = s'.text) (hstart : s.start = s'.start)
    (hstop : s.stop = s'.stop) : s = s' := by
  obtain ⟨a, m, b⟩ := s
  obtain ⟨a', m', b'⟩ := s'
  simp only [Span.text] at htext
  obtain rfl : a = a' := by
    have ha : a <+: a ++ m ++ b := ⟨m ++ b, by simp⟩
    have ha' : a' <+: a ++ m ++ b := ⟨m' ++ b', by simp [htext]⟩
    exact Text.eq_of_utf8Length_eq ha ha' hstart
  obtain rfl : m = m' := by
    have ham : a ++ m <+: a ++ m ++ b := List.prefix_append _ b
    have ham' : a ++ m' <+: a ++ m ++ b := ⟨b', htext.symm⟩
    exact List.append_cancel_left (Text.eq_of_utf8Length_eq ham ham' hstop)
  rw [List.append_cancel_left htext]

end Span

namespace Region

open Text

variable {r : Region} {t a m b : Text} {s s' : Span} {i j close close' : ℕ}

/-- An opening marker from the one byte on ends before a closing marker from the other byte on
begins. -/
def PairedAt (r : Region) (t : Text) (i j : ℕ) : Prop :=
  t.OccursAt r.opening i ∧ t.OccursAt r.closing j ∧ i + r.opening.utf8Length ≤ j

theorem prefix_of_pair (h : t = a ++ r.opening ++ m ++ r.closing ++ b) :
    a ++ r.opening ++ m <+: t :=
  ⟨r.closing ++ b, by rw [h, List.append_assoc _ r.closing]⟩

theorem pairedAt_iff : r.PairedAt t i j ↔ ∃ a m b, t = a ++ r.opening ++ m ++ r.closing ++ b ∧
    a.utf8Length = i ∧ (a ++ r.opening ++ m).utf8Length = j := by
  constructor
  · rintro ⟨⟨a, y, hopening, rfl⟩, ⟨x, b, hclosing, rfl⟩, hle⟩
    obtain ⟨m, rfl⟩ : a ++ r.opening <+: x := by
      have hao : a ++ r.opening <+: t := ⟨y, hopening.symm⟩
      have hx : x <+: t := ⟨r.closing ++ b, by rw [hclosing, List.append_assoc]⟩
      refine List.prefix_of_prefix_length_le hao hx ((utf8Length_le_iff hao hx).1 ?_)
      rwa [utf8Length_append]
    exact ⟨a, m, b, hclosing, rfl, rfl⟩
  · rintro ⟨a, m, b, rfl, rfl, rfl⟩
    refine ⟨⟨a, m ++ r.closing ++ b, by simp, rfl⟩, ⟨a ++ r.opening ++ m, b, rfl, rfl⟩, ?_⟩
    simp only [utf8Length_append]
    omega

theorem exists_pairedAt_iff : (∃ i j, r.PairedAt t i j) ↔ r.Paired t := by
  simp only [pairedAt_iff, Paired]
  constructor
  · rintro ⟨_, _, a, m, b, ht, -, -⟩
    exact ⟨a, m, b, ht⟩
  · rintro ⟨a, m, b, ht⟩
    exact ⟨_, _, a, m, b, ht, rfl, rfl⟩

/-- The span of a text from the nearest opening marker before the earliest closing marker that has
one before it, through that closing marker, which begins at the given byte, and through one newline,
if one follows. -/
structure Spans (r : Region) (t : Text) (s : Span) (close : ℕ) : Prop where
  text_eq : s.text = t
  paired : r.PairedAt t s.start close
  earliest : ∀ i j, r.PairedAt t i j → close ≤ j
  nearest : ∀ i, r.PairedAt t i close → i ≤ s.start
  stop_eq : t.OccursAt "\n" (close + r.closing.utf8Length) ∧
      s.stop = close + r.closing.utf8Length + 1 ∨
    ¬ t.OccursAt "\n" (close + r.closing.utf8Length) ∧ s.stop = close + r.closing.utf8Length

theorem stop_spanOf (r : Region) (a m b : Text) : (r.spanOf a m b).stop =
    (a ++ r.opening ++ m).utf8Length + r.closing.utf8Length + b.takeNewline.1.utf8Length := by
  simp only [Span.stop, spanOf, utf8Length_append]
  omega

theorem spans_of_opens (hu : r.closing.Unbordered) (h : r.Opens a m) (b : Text) :
    r.Spans (a ++ r.opening ++ m ++ r.closing ++ b) (r.spanOf a m b)
      (a ++ r.opening ++ m).utf8Length where
  text_eq := by simp [spanOf, Span.text, takeNewline_append]
  paired := pairedAt_iff.2 ⟨a, m, b, rfl, rfl, rfl⟩
  earliest i j hpair := by
    obtain ⟨a', m', b', heq, rfl, rfl⟩ := pairedAt_iff.1 hpair
    rw [utf8Length_le_iff (prefix_of_pair rfl) (prefix_of_pair heq)]
    by_contra hlt
    rw [h.eq_of_append hu heq.symm (by omega)] at hlt
    omega
  nearest i hpair := by
    obtain ⟨a', m', b', heq, rfl, hclose⟩ := pairedAt_iff.1 hpair
    have hsame : a' ++ r.opening ++ m' = a ++ r.opening ++ m :=
      eq_of_utf8Length_eq (prefix_of_pair heq) (prefix_of_pair rfl) hclose
    have ha : a <+: a ++ r.opening ++ m := ⟨r.opening ++ m, by simp⟩
    have ha' : a' <+: a ++ r.opening ++ m := ⟨r.opening ++ m', by simp [← hsame]⟩
    exact (utf8Length_le_iff ha' ha).2 (length_le_of_splitLast? h.splitLast?_opening hsame.symm)
  stop_eq := by
    rw [← utf8Length_append, occursAt_append_iff, stop_spanOf, ← utf8Length_append]
    by_cases hb : ("\n" : Text) <+: b
    · obtain ⟨u, rfl⟩ := hb
      exact .inl ⟨List.prefix_append _ u, rfl⟩
    · have hfirst : b.takeNewline.1 = [] := by
        unfold takeNewline
        split
        · exact absurd (List.prefix_append ['\n'] _) hb
        · rfl
      exact .inr ⟨hb, by rw [hfirst]; rfl⟩

namespace Spans

theorem start_lt_stop (h : r.Spans t s close) (hr : r.Marked) : s.start < s.stop := by
  have hopening := utf8Length_pos hr.opening_ne_nil
  have hle := h.paired.2.2
  rcases h.stop_eq with ⟨-, hstop⟩ | ⟨-, hstop⟩ <;> omega

theorem stop_le (h : r.Spans t s close) : s.stop ≤ t.utf8Length := by
  rw [← h.text_eq, Span.text, Span.stop, utf8Length_append _ s.after]
  omega

/-- Between the markers of the span no closing marker begins. -/
theorem close_le (h : r.Spans t s close) (hj : t.OccursAt r.closing j)
    (hle : s.start + r.opening.utf8Length ≤ j) : close ≤ j :=
  h.earliest _ j ⟨h.paired.1, hj, hle⟩

theorem unique (h : r.Spans t s close) (h' : r.Spans t s' close') : s = s' := by
  obtain rfl : close = close' :=
    le_antisymm (h.earliest _ _ h'.paired) (h'.earliest _ _ h.paired)
  have hstart : s.start = s'.start := le_antisymm (h'.nearest _ h.paired) (h.nearest _ h'.paired)
  refine Span.eq_of_offsets (h.text_eq.trans h'.text_eq.symm) hstart ?_
  rcases h.stop_eq with ⟨hn, hs⟩ | ⟨hn, hs⟩ <;> rcases h'.stop_eq with ⟨hn', hs'⟩ | ⟨hn', hs'⟩
  · rw [hs, hs']
  · exact absurd hn hn'
  · exact absurd hn' hn
  · rw [hs, hs']

end Spans

/-- A region is found if and only if an opening marker ends before a closing marker begins, and then
it is the one of the first pair: it ends with the earliest closing marker that has an opening marker
before it, and the newline behind that, and begins with the nearest such opening marker. No other
closing marker begins between the two. -/
theorem locate?_spans_first_pair (hr : r.Marked) (hu : r.closing.Unbordered) (t : Text) :
    (r.locate? t ≠ none ↔ ∃ i j, r.PairedAt t i j) ∧
    (∀ s, r.locate? t = some s ↔ ∃ close, r.Spans t s close) ∧
    ∀ s close, r.Spans t s close →
      (∀ j, t.OccursAt r.closing j → s.start + r.opening.utf8Length ≤ j → close ≤ j) ∧
      s.start < s.stop ∧ s.stop ≤ t.utf8Length := by
  have hfound : ∀ s, r.locate? t = some s → ∃ close, r.Spans t s close := fun s hs => by
    obtain ⟨a, m, b, rfl, hopens, rfl⟩ := (locate?_eq_some_iff hr hu).1 hs
    exact ⟨_, spans_of_opens hu hopens b⟩
  have hpaired : r.locate? t ≠ none ↔ ∃ i j, r.PairedAt t i j := by
    rw [ne_eq, locate?_eq_none_iff hr hu, not_not, exists_pairedAt_iff]
  refine ⟨hpaired, fun s => ⟨hfound s, ?_⟩, fun s close h =>
    ⟨fun j => h.close_le, h.start_lt_stop hr, h.stop_le⟩⟩
  rintro ⟨close, h⟩
  obtain ⟨s', hs'⟩ := Option.ne_none_iff_exists'.1 (hpaired.2 ⟨_, _, h.paired⟩)
  obtain ⟨close', h'⟩ := hfound s' hs'
  rw [hs', h'.unique h]

/-- The region lies behind a closing and an opening marker that stand alone. -/
theorem locate?_spans_first_pair_stray :
    let mine : Region := ⟨"# BEGIN Mine", "# END Mine"⟩
    let text : Text := "é# END Mine\n# BEGIN Mine\n# BEGIN Mine\nx\n# END Mine\ny# END Mine\n"
    mine.Marked ∧ mine.closing.Unbordered ∧ ∃ s close, mine.locate? text = some s ∧
      mine.Spans text s close ∧ s.start = 26 ∧ s.stop = 52 ∧ 52 ≤ text.utf8Length := by
  intro mine text
  have hmine : mine.Marked := ⟨by decide, by decide⟩
  have hu : mine.closing.Unbordered := unbordered_of_forall_mem (by decide)
  obtain ⟨-, hfound, hbounds⟩ := locate?_spans_first_pair hmine hu text
  let s : Span := ⟨"é# END Mine\n# BEGIN Mine\n", "# BEGIN Mine\nx\n# END Mine\n",
    "y# END Mine\n"⟩
  have hs : mine.locate? text = some s := by decide +kernel
  obtain ⟨close, hspans⟩ := (hfound s).1 hs
  have hstop : s.stop = 52 := by decide
  exact ⟨hmine, hu, s, close, hs, hspans, by decide, hstop, hstop ▸ (hbounds s close hspans).2.2⟩

/-- A closing marker that overlaps the one before it is passed over. -/
example : let r : Region := ⟨"a", "aa"⟩; r.locate? "aaa" = none ∧ r.Paired "aaa" :=
  ⟨by decide +kernel, [], [], [], rfl⟩

end Region

end PageCache
