import PageCache.Proofs.Text.Lines

/-! Where a region is found. The search depends on the text up to the region alone, so a block that
is put on lines of its own after a text without the region is found there, whatever comes after it
and whatever single markers stand elsewhere. -/
namespace PageCache.Region

open Text

variable {r : Region} {body head tail seen rest a b t x y : Text} {s : Span}

def markers (r : Region) : List Text := [r.opening, r.closing]

theorem opening_mem (r : Region) : r.opening ∈ r.markers := List.mem_cons_self

theorem closing_mem (r : Region) : r.closing ∈ r.markers :=
  List.mem_cons_of_mem _ List.mem_cons_self

/-- No marker of the regions occurs. -/
def Avoids (rs : List Region) (t : Text) : Prop := ∀ r ∈ rs, ∀ m ∈ r.markers, ¬ m <:+: t

instance (rs : List Region) (t : Text) : Decidable (Avoids rs t) :=
  inferInstanceAs (Decidable (∀ r ∈ rs, ∀ m ∈ r.markers, ¬ m <:+: t))

theorem Avoids.of_isInfix {rs : List Region} (h : Avoids rs t) (ha : a <:+: t) : Avoids rs a :=
  fun r hr m hm hma => h r hr m hm (hma.trans ha)

theorem Avoids.of_mem {rs : List Region} (h : Avoids rs t) (hr : r ∈ rs) : Avoids [r] t :=
  fun _ hr' => h _ (List.mem_singleton.1 hr' ▸ hr)

def inner (body : Text) : Text :=
  if (body.trimEnd isNewline).isEmpty then [] else body.trimEnd isNewline ++ ['\n']

theorem wrap_eq (r : Region) (body : Text) :
    r.wrap body = r.opening ++ '\n' :: (inner body ++ (r.closing ++ ['\n'])) := by
  simp only [wrap, inner]
  split <;> simp

theorem atLineStart_inner (body : Text) : AtLineStart (inner body) := by
  unfold inner
  split
  · exact atLineStart_nil
  · exact atLineStart_append_newline _

theorem atLineStart_wrap (r : Region) (body : Text) : AtLineStart (r.wrap body) :=
  .inr ⟨r.opening ++ '\n' :: (inner body ++ r.closing), by simp [wrap_eq]⟩

theorem infix_of_infix_inner {m : Text} (hn : '\n' ∉ m) (hne : m ≠ []) (h : m <:+: inner body) :
    m <:+: body := by
  have hbody : body.trimEnd isNewline <:+: body := by
    obtain ⟨s, hs, -⟩ := exists_trimEnd_isNewline body
    exact ⟨[], s, hs.symm⟩
  unfold inner at h
  split at h
  · exact absurd (List.infix_nil.1 h) hne
  · rcases (infix_append_newline_iff hn).1 h with h | h
    · exact h.trans hbody
    · exact absurd (List.infix_nil.1 h) hne

/-- Neither marker is empty. -/
structure Marked (r : Region) : Prop where
  opening_ne_nil : r.opening ≠ []
  closing_ne_nil : r.closing ≠ []

/-- Each marker is part of a line. -/
structure Lined (r : Region) : Prop where
  opening_ne_nil : r.opening ≠ []
  closing_ne_nil : r.closing ≠ []
  newline_not_mem_opening : '\n' ∉ r.opening
  newline_not_mem_closing : '\n' ∉ r.closing

theorem Lined.marked (hr : r.Lined) : r.Marked := ⟨hr.opening_ne_nil, hr.closing_ne_nil⟩

/-- Each marker is part of a line, and an opening marker does not close a region. -/
structure Proper (r : Region) : Prop where
  opening_ne_nil : r.opening ≠ []
  closing_ne_nil : r.closing ≠ []
  newline_not_mem_opening : '\n' ∉ r.opening
  newline_not_mem_closing : '\n' ∉ r.closing
  closing_not_infix_opening : ¬ r.closing <:+: r.opening

theorem Proper.lined (hr : r.Proper) : r.Lined :=
  ⟨hr.opening_ne_nil, hr.closing_ne_nil, hr.newline_not_mem_opening, hr.newline_not_mem_closing⟩

theorem eq_nil_of_self_eq {m : Text} (h : m = x ++ m ++ y) : x = [] ∧ y = [] := by
  have hlen := congrArg List.length h
  simp only [List.length_append] at hlen
  exact ⟨List.length_eq_zero_iff.1 (by omega), List.length_eq_zero_iff.1 (by omega)⟩

theorem avoids_wrap {rs : List Region} (hrs : ∀ r ∈ rs, r.Proper) (ho : Avoids rs r.opening)
    (hc : Avoids rs r.closing) (hbody : Avoids rs body) : Avoids rs (r.wrap body) := by
  intro r' hr' m hm hin
  obtain ⟨hn, hne⟩ : '\n' ∉ m ∧ m ≠ [] := by
    have hproper := hrs r' hr'
    rcases List.mem_pair.1 hm with rfl | rfl
    · exact ⟨hproper.newline_not_mem_opening, hproper.opening_ne_nil⟩
    · exact ⟨hproper.newline_not_mem_closing, hproper.closing_ne_nil⟩
  rw [wrap_eq, infix_append_newline_iff hn, (atLineStart_inner body).infix_append_iff hn] at hin
  rcases hin with hin | hin | hin
  · exact ho r' hr' m hm hin
  · exact hbody r' hr' m hm (infix_of_infix_inner hn hne hin)
  · exact hc r' hr' m hm (infix_of_infix_append_newlines hn hne (by simp) hin)

namespace Proper

/-- The closing marker stands on the last line of a block only. -/
theorem eq_of_closing_wrap (hr : r.Proper) (hbody : Avoids [r] body)
    (h : r.wrap body = x ++ r.closing ++ y) : x = r.opening ++ '\n' :: inner body := by
  have hn := hr.newline_not_mem_closing
  rw [wrap_eq] at h
  rcases Text.occurrence_cases hn h with ⟨z, hz, -⟩ | ⟨z, hz, rfl⟩
  · exact absurd ⟨x, z, hz.symm⟩ hr.closing_not_infix_opening
  rcases (atLineStart_inner body).occurrence_cases hn hz with ⟨w, hw, -⟩ | ⟨w, hw, rfl⟩
  · have hinner := infix_of_infix_inner hn hr.closing_ne_nil ⟨z, w, hw.symm⟩
    exact absurd hinner (hbody r List.mem_cons_self _ (closing_mem r))
  rcases Text.occurrence_cases hn hw with ⟨v, hv, -⟩ | ⟨v, hv, -⟩
  · rw [(eq_nil_of_self_eq hv).1, List.append_nil]
  · exact absurd (List.infix_nil.1 ⟨v, y, hv.symm⟩) hr.closing_ne_nil

/-- The opening marker stands on the first line of a block only. -/
theorem eq_nil_of_opening_inner (hr : r.Proper) (hbody : Avoids [r] body)
    (h : r.opening ++ '\n' :: inner body = x ++ r.opening ++ y) : x = [] := by
  have hn := hr.newline_not_mem_opening
  rcases Text.occurrence_cases hn h with ⟨z, hz, -⟩ | ⟨z, hz, -⟩
  · exact (eq_nil_of_self_eq hz).1
  · have hinner := infix_of_infix_inner hn hr.opening_ne_nil ⟨z, y, hz.symm⟩
    exact absurd hinner (hbody r List.mem_cons_self _ (opening_mem r))

end Proper

theorem locateFrom_of_none (h : rest.splitFirst? r.closing = none) :
    r.locateFrom seen rest = none := by
  rw [locateFrom]
  split
  · rfl
  · split
    · rfl
    · next hs => simp [h] at hs

theorem locateFrom_of_opened {before after : Text} (hc : r.closing ≠ [])
    (hfirst : rest.splitFirst? r.closing = some (a, b))
    (hlast : (seen ++ a).splitLast? r.opening = some (before, after)) :
    r.locateFrom seen rest =
      some ⟨before, r.opening ++ after ++ r.closing ++ b.takeNewline.1, b.takeNewline.2⟩ := by
  rw [locateFrom, dif_neg hc]
  split
  · next hs => simp [hfirst] at hs
  · next a' b' hs =>
    obtain ⟨rfl, rfl⟩ : a' = a ∧ b' = b := by simpa [hfirst, eq_comm] using hs
    simp [hlast]

theorem locateFrom_of_unopened (hc : r.closing ≠ [])
    (hfirst : rest.splitFirst? r.closing = some (a, b))
    (hlast : (seen ++ a).splitLast? r.opening = none) :
    r.locateFrom seen rest = r.locateFrom (seen ++ a ++ r.closing) b := by
  rw [locateFrom, dif_neg hc]
  split
  · next hs => simp [hfirst] at hs
  · next a' b' hs =>
    obtain ⟨rfl, rfl⟩ : a' = a ∧ b' = b := by simpa [hfirst, eq_comm] using hs
    simp [hlast]

/-- A closing marker that does not occur ends no region. -/
theorem locate?_eq_none (h : ¬ r.closing <:+: t) : r.locate? t = none := by
  unfold locate?
  split
  · rfl
  · exact locateFrom_of_none (splitFirst?_eq_none_iff.2 h)

theorem locate?_eq_none_of_avoids (h : Avoids [r] t) : r.locate? t = none :=
  locate?_eq_none (h r List.mem_cons_self _ (closing_mem r))

theorem locate?_nil (r : Region) : r.locate? [] = none := by
  match h : r.locate? [] with
  | none => rfl
  | some s =>
    have hlen := congrArg List.length (text_of_locate? h)
    have htwo := two_le_of_locate? h
    simp only [Span.text, List.length_append, List.length_nil] at hlen
    omega

/-- A region that is found stays the one that is found when the text goes on. -/
theorem locateFrom_append (h : r.locateFrom seen rest = some s) (u : Text) :
    ∃ i t, r.locateFrom seen (rest ++ u) = some ⟨s.before, i, t⟩ := by
  fun_induction locateFrom r seen rest with
  | case1 => cases h
  | case2 => cases h
  | case3 seen rest hc a b hfirst before after hlast =>
    cases h
    exact ⟨_, _, locateFrom_of_opened hc (splitFirst?_append hfirst u) hlast⟩
  | case4 seen rest hc a b hfirst hlast ih =>
    obtain ⟨i, t, hit⟩ := ih h
    exact ⟨i, t, by rw [locateFrom_of_unopened hc (splitFirst?_append hfirst u) hlast, hit]⟩

theorem locate?_append (h : r.locate? a = some s) (u : Text) :
    ∃ i t, r.locate? (a ++ u) = some ⟨s.before, i, t⟩ := by
  unfold locate? at h ⊢
  split at h
  · cases h
  · next hne =>
    rw [if_neg hne]
    exact locateFrom_append h u

theorem locate?_left (h : r.locate? (a ++ b) = none) : r.locate? a = none := by
  match hs : r.locate? a with
  | none => rfl
  | some s =>
    obtain ⟨i, t, hit⟩ := locate?_append hs b
    simp [h] at hit

theorem eq_append_of_locate? (h : r.locate? t = some s) :
    t = s.before ++ (s.inside ++ s.after) := by
  rw [← text_of_locate? h, Span.text, List.append_assoc]

/-- No region is found before the first one. -/
theorem locate?_before (h : r.locate? t = some s) : r.locate? s.before = none := by
  match hs : r.locate? s.before with
  | none => rfl
  | some s' =>
    obtain ⟨i, u, hiu⟩ := locate?_append hs (s.inside ++ s.after)
    rw [← eq_append_of_locate? h, h] at hiu
    have hbefore : s.before = s'.before := by rw [Option.some.inj hiu]
    have hlen := congrArg List.length (text_of_locate? hs)
    have htwo := two_le_of_locate? hs
    simp only [Span.text, List.length_append, hbefore] at hlen
    omega

/-- A search that fails has passed all closing markers but those that the rest may complete. -/
theorem exists_scanned (hc : r.closing ≠ []) (h : r.locateFrom seen rest = none) :
    ∃ p q, rest = p ++ q ∧ ¬ r.closing <:+: q ∧
      ∀ u, r.locateFrom seen (rest ++ u) = r.locateFrom (seen ++ p) (q ++ u) := by
  fun_induction locateFrom r seen rest with
  | case1 seen rest hnil => exact absurd hnil hc
  | case2 seen rest _ hfirst =>
    exact ⟨[], rest, rfl, splitFirst?_eq_none_iff.1 hfirst, by simp⟩
  | case3 => cases h
  | case4 seen rest _ a b hfirst hlast ih =>
    obtain ⟨p, q, rfl, hq, hscan⟩ := ih h
    refine ⟨a ++ r.closing ++ p, q, by simp [eq_of_splitFirst? hfirst], hq, fun u => ?_⟩
    rw [locateFrom_of_unopened hc (splitFirst?_append hfirst u) hlast, hscan u]
    simp

theorem locate?_eq_locateFrom (hr : r.Marked) (t : Text) : r.locate? t = r.locateFrom [] t := by
  rw [locate?, if_neg (by simp [hr.opening_ne_nil, hr.closing_ne_nil])]

theorem locate?_append_newlines (hr : r.Proper) (ha : r.locate? a = none)
    (hb : ∀ c ∈ b, c = '\n') : r.locate? (a ++ b) = none := by
  rw [locate?_eq_locateFrom hr.lined.marked] at ha ⊢
  obtain ⟨p, q, rfl, hq, hscan⟩ := exists_scanned hr.closing_ne_nil ha
  rw [hscan, locateFrom_of_none]
  rw [splitFirst?_eq_none_iff]
  exact mt (infix_of_infix_append_newlines hr.newline_not_mem_closing hr.closing_ne_nil hb) hq

theorem splitFirst?_closing (hr : r.Proper) (hbody : Avoids [r] body) (hl : AtLineStart head)
    (hhead : ¬ r.closing <:+: head) (tail : Text) :
    (head ++ (r.wrap body ++ tail)).splitFirst? r.closing =
      some (head ++ (r.opening ++ '\n' :: inner body), '\n' :: tail) := by
  have hn := hr.newline_not_mem_closing
  have htext : head ++ (r.wrap body ++ tail) =
      head ++ (r.opening ++ '\n' :: inner body) ++ r.closing ++ '\n' :: tail := by
    simp [wrap_eq]
  rw [htext]
  refine splitFirst?_eq_some fun x y h => ?_
  rw [← htext] at h
  rcases hl.occurrence_cases hn h with ⟨z, hz, -⟩ | ⟨z, hz, rfl⟩
  · exact absurd ⟨x, z, hz.symm⟩ hhead
  rcases (atLineStart_wrap r body).occurrence_cases hn hz with ⟨w, hw, -⟩ | ⟨w, -, rfl⟩
  · rw [hr.eq_of_closing_wrap hbody hw]
  · simp only [wrap_eq, List.length_append, List.length_cons]
    omega

theorem splitLast?_opening (hr : r.Proper) (hbody : Avoids [r] body) (hl : AtLineStart head) :
    (head ++ (r.opening ++ '\n' :: inner body)).splitLast? r.opening =
      some (head, '\n' :: inner body) := by
  rw [← List.append_assoc]
  refine splitLast?_eq_some fun x y h => ?_
  rw [List.append_assoc] at h
  rcases hl.occurrence_cases hr.newline_not_mem_opening h with ⟨z, rfl, -⟩ | ⟨z, hz, rfl⟩
  · simp
  · simp [hr.eq_nil_of_opening_inner hbody hz]

/-- A block is found after a text without its region. -/
theorem locate?_wrap (hr : r.Proper) (hbody : Avoids [r] body) (hl : AtLineStart head)
    (hhead : r.locate? head = none) (tail : Text) :
    r.locate? (head ++ (r.wrap body ++ tail)) = some ⟨head, r.wrap body, tail⟩ := by
  rw [locate?_eq_locateFrom hr.lined.marked] at hhead ⊢
  obtain ⟨p, q, rfl, hq, hscan⟩ := exists_scanned hr.closing_ne_nil hhead
  have hlast := splitLast?_opening hr hbody hl
  have hfirst := splitFirst?_closing hr hbody hl.right hq tail
  rw [List.append_assoc] at hlast
  rw [hscan, List.nil_append, locateFrom_of_opened hr.closing_ne_nil hfirst hlast]
  simp [takeNewline, wrap_eq]

/-- Erasing leaves a text without the region as it is. -/
theorem erase_eq_self (h : r.locate? t = none) : r.erase t = t := by
  unfold erase
  split
  · rfl
  · next hs => simp [h] at hs

theorem erase_of_located (h : r.locate? t = some s) :
    r.erase t = r.erase (closeGap s.before s.after) := by
  rw [erase]
  split
  · next hs => simp [h] at hs
  · next s' hs =>
    obtain rfl : s' = s := by simpa [h] using hs.symm
    rfl

theorem locate?_erase (r : Region) (t : Text) : r.locate? (r.erase t) = none := by
  fun_induction erase r t with
  | case1 t h => exact h
  | case2 t s h ih => exact ih

end PageCache.Region
