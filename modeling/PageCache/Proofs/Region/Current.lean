import PageCache.Proofs.Region.Rejoined
import PageCache.Proofs.Text.Normal

/-! Texts that carry a block, up to indentation and empty lines. A text does wherever the block is
put into it; and a text that does has an opening marker before a closing marker, as long as the
markers have no blanks around them. -/
namespace PageCache.Region

open Text

variable {r : Region} {body m t : Text}

/-- A text with a block spliced in carries the block, whatever stands around it. -/
theorem isCurrent_splice (r : Region) (head body tail : Text) :
    r.isCurrent (splice head (r.wrap body) tail) body = true := by
  rw [isCurrent, includes_iff, splice_eq]
  exact normalize_isInfix (atLineStart_headPart _) (atLineStart_wrap r body)

/-- A text with the block put into it carries the block. -/
theorem isCurrent_upsert (r : Region) (text body : Text) (anchors : List Anchor) :
    r.isCurrent (r.upsert text body anchors) body = true := isCurrent_splice r _ body _

/-- Each marker is part of a line and neither begins nor ends with a blank. -/
structure Trimmed (r : Region) : Prop extends Lined r where
  trim_opening : r.opening.trim = r.opening
  trim_closing : r.closing.trim = r.closing

namespace Trimmed

theorem solid_opening (hr : r.Trimmed) : Solid r.opening :=
  solid_of_trim_eq hr.opening_ne_nil hr.trim_opening

theorem solid_closing (hr : r.Trimmed) : Solid r.closing :=
  solid_of_trim_eq hr.closing_ne_nil hr.trim_closing

theorem normalize_opening (hr : r.Trimmed) : normalize r.opening = r.opening :=
  normalize_eq_self hr.newline_not_mem_opening hr.trim_opening

theorem normalize_closing (hr : r.Trimmed) : normalize r.closing = r.closing :=
  normalize_eq_self hr.newline_not_mem_closing hr.trim_closing

end Trimmed

theorem normalize_wrap (r : Region) (body : Text) :
    normalize (r.wrap body) = normalize (r.opening ++ '\n' :: inner body ++ r.closing) := by
  rw [← normalize_concat_newline (r.opening ++ '\n' :: inner body ++ r.closing), wrap_eq]
  simp

theorem normalize_inside_spanOf (r : Region) (a m b : Text) :
    normalize (r.spanOf a m b).inside = normalize (r.opening ++ m ++ r.closing) := by
  rw [spanOf]
  unfold takeNewline
  split
  · exact normalize_concat_newline _
  · rw [List.append_nil]

/-- The normal form of a block begins with the opening marker and ends with the closing marker. -/
theorem exists_normalize_bracket (hr : r.Trimmed) (m : Text) :
    (∃ u, normalize (r.opening ++ m ++ r.closing) = r.opening ++ u) ∧
      ∃ v, normalize (r.opening ++ m ++ r.closing) = v ++ r.closing := by
  have ho := normalize_append_append hr.solid_opening [] (m ++ r.closing)
  have hc := normalize_append_append hr.solid_closing (r.opening ++ m) []
  rw [hr.normalize_opening, headForm_nil, List.nil_append, ← List.append_assoc] at ho
  rw [hr.normalize_closing, tailForm_nil, List.append_nil, List.append_nil] at hc
  exact ⟨⟨_, ho⟩, ⟨_, hc⟩⟩

theorem Paired.of_isInfix {a b : Text} (h : r.Paired a) (hab : a <:+: b) : r.Paired b := by
  obtain ⟨x, y, rfl⟩ := hab
  exact (h.right x).left y

theorem paired_normalize_wrap (hr : r.Trimmed) (body : Text) :
    r.Paired (normalize (r.wrap body)) := by
  have hclosing : r.closing <:+: normalize (inner body ++ (r.closing ++ ['\n'])) := by
    have hline := normalize_isInfix (c := []) (atLineStart_inner body)
      (atLineStart_append_newline r.closing)
    rwa [normalize_concat_newline, hr.normalize_closing, List.append_nil] at hline
  have hne : normalize (inner body ++ (r.closing ++ ['\n'])) ≠ [] := fun hnil =>
    hr.closing_ne_nil (List.infix_nil.1 (hnil ▸ hclosing))
  rw [wrap_eq, normalize_append_newline, hr.normalize_opening, glue_of_ne_nil hr.opening_ne_nil hne]
  exact paired_append List.infix_rfl (hclosing.trans (List.suffix_cons _ _).isInfix)

/-- An opening marker before a closing marker in the normal form stands before it in the text. -/
theorem Paired.of_normalize (hr : r.Lined) (h : r.Paired (normalize t)) : r.Paired t := by
  induction t using lines_induction with
  | line l hl =>
    rw [normalize_of_line hl] at h
    exact h.of_isInfix (trim_isInfix l)
  | append l t hl ih =>
    have hline : r.Paired l.trim → r.Paired (l ++ '\n' :: t) := fun h =>
      (h.of_isInfix (trim_isInfix l)).left _
    have hrest : r.Paired (normalize t) → r.Paired (l ++ '\n' :: t) := fun h => by
      simpa using (ih h).right (l ++ ['\n'])
    rw [normalize_append_newline, normalize_of_line hl] at h
    by_cases hblank : l.trim = []
    · rw [hblank, glue_nil_left] at h
      exact hrest h
    by_cases hend : normalize t = []
    · rw [hend, glue_nil_right] at h
      exact hline h
    rw [glue_of_ne_nil hblank hend, List.append_cons] at h
    rcases paired_append_cases hr (atLineStart_append_newline l.trim) h with h | h | ⟨ho, hc⟩
    · exact hline (EqBeforeNewlines.paired hr ⟨l.trim, [], ['\n'], by simp⟩ h)
    · exact hrest h
    · have ho' := infix_of_infix_append_newlines hr.newline_not_mem_opening hr.opening_ne_nil
        (by simp) ho
      have hc' := infix_of_infix_normalize hr.newline_not_mem_closing hr.closing_ne_nil hc
      exact paired_append (ho'.trans (trim_isInfix l)) (hc'.trans ⟨['\n'], [], by simp⟩)

theorem paired_of_isCurrent (hr : r.Trimmed) (h : r.isCurrent t body = true) : r.Paired t := by
  rw [isCurrent, includes_iff] at h
  exact ((paired_normalize_wrap hr body).of_isInfix h).of_normalize hr.toLined

theorem locate?_ne_none_of_isCurrent (hr : r.Trimmed) (hu : r.closing.Unbordered)
    (h : r.isCurrent t body = true) : r.locate? t ≠ none := fun hnone =>
  (locate?_eq_none_iff hr.toLined.marked hu).1 hnone (paired_of_isCurrent hr h)

end PageCache.Region
