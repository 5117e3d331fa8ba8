import PageCache.Proofs.Text.Occurrence
import PageCache.Proofs.Text.Pieces
import PageCache.Region

/-! Texts made of lines. What stands after whole lines is read on its own: an occurrence of a needle
within one line does not run across the seam, and the lines on both sides are those of the whole. -/
namespace PageCache

namespace Text

/-- What comes after the text stands at the start of a line. -/
def AtLineStart (t : Text) : Prop := t = [] ∨ ∃ q : Text, t = q ++ ['\n']

theorem atLineStart_nil : AtLineStart [] := .inl rfl

theorem atLineStart_append_newline (t : Text) : AtLineStart (t ++ ['\n']) := .inr ⟨t, rfl⟩

theorem AtLineStart.append {a b : Text} (ha : AtLineStart a) (hb : AtLineStart b) :
    AtLineStart (a ++ b) := by
  rcases hb with rfl | ⟨q, rfl⟩
  · rwa [List.append_nil]
  · exact .inr ⟨a ++ q, by simp⟩

theorem AtLineStart.of_append {a b : Text} (h : AtLineStart (a ++ b)) (hb : b ≠ []) :
    AtLineStart b := by
  obtain ⟨b, c, rfl⟩ := (List.eq_nil_or_concat' b).resolve_left hb
  rcases h with h | ⟨q, h⟩
  · simp at h
  · have hc : c = '\n' := by simpa using congrArg List.getLast? h
    exact .inr ⟨b, by rw [hc]⟩

/-- A rest of whole lines stands at the start of a line, also if it is empty. -/
theorem AtLineStart.right {a b : Text} (h : AtLineStart (a ++ b)) : AtLineStart b := by
  by_cases hb : b = []
  · exact hb ▸ atLineStart_nil
  · exact h.of_append hb

variable {needle a b x y : Text}

theorem AtLineStart.occurrence_cases (ha : AtLineStart a) (hn : '\n' ∉ needle)
    (h : a ++ b = x ++ needle ++ y) :
    (∃ z, a = x ++ needle ++ z ∧ y = z ++ b) ∨ ∃ z, b = z ++ needle ++ y ∧ x = a ++ z := by
  rcases ha with rfl | ⟨q, rfl⟩
  · exact .inr ⟨x, h, rfl⟩
  · rw [List.append_assoc, List.singleton_append] at h
    rcases Text.occurrence_cases hn h with ⟨z, rfl, rfl⟩ | ⟨z, rfl, rfl⟩
    · exact .inl ⟨z ++ ['\n'], by simp, by simp⟩
    · exact .inr ⟨z, rfl, by simp⟩

theorem AtLineStart.infix_append_iff (ha : AtLineStart a) (hn : '\n' ∉ needle) :
    needle <:+: a ++ b ↔ needle <:+: a ∨ needle <:+: b := by
  constructor
  · rintro ⟨x, y, h⟩
    rcases ha.occurrence_cases hn h.symm with ⟨z, h, -⟩ | ⟨z, h, -⟩
    · exact .inl ⟨x, z, h.symm⟩
    · exact .inr ⟨z, y, h.symm⟩
  · rintro (h | h)
    · exact h.trans (List.prefix_append a b).isInfix
    · exact h.trans (List.suffix_append a b).isInfix

/-- A needle that does not occur in whole lines does not begin in them. -/
theorem AtLineStart.firstAfter (ha : AtLineStart a) (hn : '\n' ∉ needle) (hne : needle ≠ [])
    (h : ¬ needle <:+: a) : FirstAfter needle a := by
  intro hin
  rcases (ha.infix_append_iff hn).1 hin with hin | hin
  · exact h hin
  · have hlen := hin.length_le
    have hpos := List.length_pos_iff.2 hne
    rw [List.length_dropLast] at hlen
    omega

theorem AtLineStart.ne_nil_of_occurrence (ha : AtLineStart a) (hn : '\n' ∉ needle)
    (hne : needle ≠ []) (h : a = x ++ needle ++ y) : y ≠ [] := by
  rintro rfl
  rw [List.append_nil] at h
  have hneedle : AtLineStart needle := AtLineStart.of_append (h ▸ ha) hne
  rcases hneedle with rfl | ⟨q, rfl⟩
  · exact hne rfl
  · simp at hn

/-- Newlines at the end of a text do not complete a needle within a line. -/
theorem infix_of_infix_append_newlines {s : Text} (hn : '\n' ∉ needle) (hne : needle ≠ [])
    (hs : ∀ c ∈ s, c = '\n') (h : needle <:+: a ++ s) : needle <:+: a := by
  cases s with
  | nil => rwa [List.append_nil] at h
  | cons c s =>
    rw [hs c List.mem_cons_self, infix_append_newline_iff hn] at h
    refine h.resolve_right fun hin => ?_
    obtain ⟨d, hd⟩ := List.exists_mem_of_ne_nil _ hne
    have hnewline : d = '\n' := hs d (List.mem_cons_of_mem c (hin.subset hd))
    exact hn (hnewline ▸ hd)

theorem infix_of_infix_newlines_append {s : Text} (hn : '\n' ∉ needle) (hne : needle ≠ [])
    (hs : ∀ c ∈ s, c = '\n') (h : needle <:+: s ++ a) : needle <:+: a := by
  rw [← List.reverse_infix] at h ⊢
  rw [List.reverse_append] at h
  exact infix_of_infix_append_newlines (by simpa using hn) (by simpa using hne)
    (by simpa using hs) h

theorem exists_trimEnd_isNewline (t : Text) :
    ∃ s, t = t.trimEnd isNewline ++ s ∧ ∀ c ∈ s, c = '\n' := by
  refine ⟨(t.reverse.takeWhile isNewline).reverse, ?_, fun c hc => ?_⟩
  · rw [trimEnd, ← List.reverse_append, List.takeWhile_append_dropWhile, List.reverse_reverse]
  · simpa [isNewline] using List.mem_takeWhile_imp (List.mem_reverse.1 hc)

theorem exists_trimStart_isNewline (t : Text) :
    ∃ s, t = s ++ t.trimStart isNewline ∧ ∀ c ∈ s, c = '\n' :=
  ⟨t.takeWhile isNewline, List.takeWhile_append_dropWhile.symm, fun c hc => by
    simpa [isNewline] using List.mem_takeWhile_imp hc⟩

theorem eq_replicate_newline {s : Text} (h : ∀ c ∈ s, c = '\n') :
    s = List.replicate s.length '\n' := List.eq_replicate_iff.2 ⟨rfl, h⟩

/-- A text is made of newlines or has a last character that is none. -/
theorem newlines_or_last_visible (t : Text) :
    (∃ n, t = List.replicate n '\n') ∨
      ∃ q c n, c ≠ '\n' ∧ t = q ++ c :: List.replicate n '\n' := by
  obtain ⟨s, hs, hall⟩ := exists_trimEnd_isNewline t
  match hd : t.reverse.dropWhile isNewline with
  | [] =>
    rw [trimEnd, hd, List.reverse_nil, List.nil_append] at hs
    exact .inl ⟨s.length, hs.trans (eq_replicate_newline hall)⟩
  | c :: q =>
    have hc := List.head?_dropWhile_not isNewline t.reverse
    rw [hd] at hc
    refine .inr ⟨q.reverse, c, s.length, by simpa [isNewline] using hc, ?_⟩
    rw [← eq_replicate_newline hall]
    simpa [trimEnd, hd] using hs

/-- A text is made of newlines or has a first character that is none. -/
theorem newlines_or_first_visible (t : Text) :
    (∃ n, t = List.replicate n '\n') ∨
      ∃ n c q, c ≠ '\n' ∧ t = List.replicate n '\n' ++ c :: q := by
  obtain ⟨s, hs, hall⟩ := exists_trimStart_isNewline t
  match hd : t.dropWhile isNewline with
  | [] =>
    rw [trimStart, hd, List.append_nil] at hs
    exact .inl ⟨s.length, hs.trans (eq_replicate_newline hall)⟩
  | c :: q =>
    have hc := List.head?_dropWhile_not isNewline t
    rw [hd] at hc
    refine .inr ⟨s.length, c, q, by simpa [isNewline] using hc, ?_⟩
    rw [← eq_replicate_newline hall]
    simpa [trimStart, hd] using hs

theorem trimEnd_append_of_ne_nil {p : Char → Bool} (h : b.trimEnd p ≠ []) :
    (a ++ b).trimEnd p = a ++ b.trimEnd p := by
  have hne : b.reverse.dropWhile p ≠ [] := by simpa [trimEnd] using h
  rw [trimEnd, List.reverse_append, List.dropWhile_append]
  simp [trimEnd, hne]

theorem trimEnd_append_of_eq_nil {p : Char → Bool} (h : b.trimEnd p = []) :
    (a ++ b).trimEnd p = a.trimEnd p := by
  have hnil : b.reverse.dropWhile p = [] := by simpa [trimEnd] using h
  rw [trimEnd, List.reverse_append, List.dropWhile_append]
  simp [trimEnd, hnil]

theorem trimStart_append_of_ne_nil {p : Char → Bool} (h : a.trimStart p ≠ []) :
    (a ++ b).trimStart p = a.trimStart p ++ b := by
  rw [trimStart, List.dropWhile_append]
  simp [trimStart, show a.dropWhile p ≠ [] from h]

theorem trimStart_append_of_eq_nil {p : Char → Bool} (h : a.trimStart p = []) :
    (a ++ b).trimStart p = b.trimStart p := by
  rw [trimStart, List.dropWhile_append]
  simp [trimStart, show a.dropWhile p = [] from h]

theorem trimEnd_eq_self (h : '\n' ∉ a) : a.trimEnd isNewline = a := by
  obtain ⟨s, hs, hall⟩ := exists_trimEnd_isNewline a
  have hnil : s = [] := List.eq_nil_iff_forall_not_mem.2 fun c hc => by
    rw [hs, ← hall c hc] at h
    simp [hc] at h
  rw [hnil, List.append_nil] at hs
  exact hs.symm

theorem trimStart_eq_self (h : '\n' ∉ a) : a.trimStart isNewline = a := by
  obtain ⟨s, hs, hall⟩ := exists_trimStart_isNewline a
  have hnil : s = [] := List.eq_nil_iff_forall_not_mem.2 fun c hc => by
    rw [hs, ← hall c hc] at h
    simp [hc] at h
  rw [hnil, List.nil_append] at hs
  exact hs.symm

theorem trimStart_newlines_append (n : ℕ) (t : Text) :
    trimStart (List.replicate n '\n' ++ t) isNewline = t.trimStart isNewline :=
  List.dropWhile_append_of_pos (by simp [isNewline])

theorem trimEnd_append_newlines (t : Text) (n : ℕ) :
    trimEnd (t ++ List.replicate n '\n') isNewline = t.trimEnd isNewline := by
  rw [trimEnd, List.reverse_append, List.reverse_replicate,
    List.dropWhile_append_of_pos (by simp [isNewline]), ← trimEnd]

/-- The text without its newlines. -/
def visible (t : Text) : Text := t.filter (· ≠ '\n')

theorem visible_append (a b : Text) : visible (a ++ b) = visible a ++ visible b := by
  simp [visible]

theorem visible_newlines {s : Text} (h : ∀ c ∈ s, c = '\n') : visible s = [] :=
  List.filter_eq_nil_iff.2 fun c hc => by simp [h c hc]

theorem visible_trimEnd (t : Text) : visible (t.trimEnd isNewline) = visible t := by
  obtain ⟨s, hs, hall⟩ := exists_trimEnd_isNewline t
  conv_rhs => rw [hs, visible_append, visible_newlines hall, List.append_nil]

theorem visible_trimStart (t : Text) : visible (t.trimStart isNewline) = visible t := by
  obtain ⟨s, hs, hall⟩ := exists_trimStart_isNewline t
  conv_rhs => rw [hs, visible_append, visible_newlines hall, List.nil_append]

theorem exists_first_visible (h : visible a ≠ []) :
    ∃ n c q, c ≠ '\n' ∧ a = List.replicate n '\n' ++ c :: q := by
  refine (newlines_or_first_visible a).resolve_left ?_
  rintro ⟨n, rfl⟩
  exact h (visible_newlines (by simp))

theorem exists_last_visible (h : visible a ≠ []) :
    ∃ q c n, c ≠ '\n' ∧ a = q ++ c :: List.replicate n '\n' := by
  refine (newlines_or_last_visible a).resolve_left ?_
  rintro ⟨n, rfl⟩
  exact h (visible_newlines (by simp))

theorem visible_append_cons_ne_nil {c : Char} (hc : c ≠ '\n') (a q : Text) :
    visible (a ++ c :: q) ≠ [] := by
  simp [visible, hc]

theorem takeNewline_of_ne {c : Char} (hc : c ≠ '\n') (t : Text) :
    takeNewline (c :: t) = ([], c :: t) := by
  unfold takeNewline
  split
  · next h => exact absurd (List.cons.inj h).1 hc
  · rfl

theorem takeNewline_append_cons {c : Char} (hc : c ≠ '\n') (z q : Text) :
    (z ++ c :: q).takeNewline = (z.takeNewline.1, z.takeNewline.2 ++ c :: q) := by
  cases z with
  | nil => exact takeNewline_of_ne hc q
  | cons d z =>
    by_cases hd : d = '\n'
    · rw [hd]
      rfl
    · rw [List.cons_append, takeNewline_of_ne hd, takeNewline_of_ne hd]
      rfl

theorem takeNewline_newlines_append {c : Char} (hc : c ≠ '\n') (n : ℕ) (q : Text) :
    takeNewline (List.replicate n '\n' ++ c :: q) =
      (List.replicate (min n 1) '\n', List.replicate (n - 1) '\n' ++ c :: q) := by
  cases n with
  | zero => exact takeNewline_of_ne hc q
  | succ n => simp [List.replicate_succ, takeNewline]

theorem visible_takeNewline (t : Text) : visible t.takeNewline.2 = visible t := by
  conv_rhs => rw [← takeNewline_append t, visible_append]
  unfold takeNewline
  split <;> simp [visible]

theorem splitOn_ne_nil (t : Text) (sep : Char) : splitOn t sep ≠ [] := by
  obtain ⟨piece, pieces, h, -⟩ := exists_splitOn_eq_cons t sep
  rw [h]
  exact List.cons_ne_nil _ _

theorem lines_append (ha : AtLineStart a) : lines (a ++ b) = lines a ++ lines b := by
  rcases ha with rfl | ⟨q, rfl⟩
  · rfl
  · have hb := splitOn_ne_nil b '\n'
    have hq : lines (q ++ ['\n']) = (splitOn q '\n').map dropCarriageReturn := by
      rw [lines, splitOn_append_sep]
      simp [splitOn]
    rw [hq, lines, List.append_assoc, List.singleton_append, splitOn_append_sep,
      List.getLast?_append_of_ne_nil _ hb, List.dropLast_append_of_ne_nil hb, List.map_append,
      List.append_assoc]
    rfl

theorem dropCarriageReturn_isPrefix (t : Text) : dropCarriageReturn t <+: t := by
  unfold dropCarriageReturn
  split
  · exact List.dropLast_prefix t
  · exact List.prefix_rfl

theorem exists_splitOn_isInfix (t : Text) (sep : Char) :
    ∃ piece pieces, splitOn t sep = piece :: pieces ∧ piece <+: t ∧ ∀ p ∈ pieces, p <:+: t := by
  induction t with
  | nil => exact ⟨[], [], rfl, List.prefix_rfl, by simp⟩
  | cons c t ih =>
    obtain ⟨piece, pieces, h, hp, hps⟩ := ih
    have hcons : t <:+: c :: t := (List.suffix_cons c t).isInfix
    by_cases hc : c = sep
    · subst hc
      refine ⟨[], splitOn t c, splitOn_sep_cons c t, List.nil_prefix, fun p hmem => ?_⟩
      rw [h] at hmem
      rcases List.mem_cons.1 hmem with rfl | hmem
      · exact hp.isInfix.trans hcons
      · exact (hps p hmem).trans hcons
    · exact ⟨c :: piece, pieces, splitOn_cons_of_ne hc h, (List.prefix_cons_inj c).2 hp,
        fun p hmem => (hps p hmem).trans hcons⟩

theorem infix_of_mem_splitOn {t piece : Text} {sep : Char} (h : piece ∈ splitOn t sep) :
    piece <:+: t := by
  obtain ⟨first, rest, hs, hp, hps⟩ := exists_splitOn_isInfix t sep
  rw [hs] at h
  rcases List.mem_cons.1 h with rfl | h
  · exact hp.isInfix
  · exact hps piece h

theorem infix_of_mem_lines {t line : Text} (h : line ∈ lines t) : line <:+: t := by
  rcases List.mem_append.1 h with h | h
  · obtain ⟨piece, hmem, rfl⟩ := List.mem_map.1 h
    have hpiece : piece <:+: t := infix_of_mem_splitOn (List.dropLast_subset _ hmem)
    exact (dropCarriageReturn_isPrefix piece).isInfix.trans hpiece
  · obtain ⟨last, hlast⟩ : ∃ last, (splitOn t '\n').getLast? = some last :=
      Option.isSome_iff_exists.1 (by simpa using splitOn_ne_nil t '\n')
    rw [hlast, Option.getD_some] at h
    have hline : line = last := by
      split at h
      · simp at h
      · simpa using h
    rw [hline]
    exact infix_of_mem_splitOn (List.mem_of_getLast? hlast)

theorem trim_isInfix (t : Text) : t.trim <:+: t := by
  have hstart : t.trimStart isSpace <:+: t := (List.dropWhile_suffix _).isInfix
  have hend : t.trim <:+: t.trimStart isSpace := by
    have h := List.dropWhile_suffix isSpace (l := (t.trimStart isSpace).reverse)
    simpa [trim, trimEnd] using (List.reverse_prefix.2 h).isInfix
  exact hend.trans hstart

theorem infix_of_infix_join {pieces : List Text} (hn : '\n' ∉ needle) (hne : needle ≠ [])
    (h : needle <:+: join pieces "\n") : ∃ piece ∈ pieces, needle <:+: piece := by
  induction pieces with
  | nil => exact absurd (List.infix_nil.1 h) hne
  | cons piece pieces ih =>
    match pieces with
    | [] => exact ⟨piece, by simp, by simpa [join] using h⟩
    | next :: rest =>
      have hjoin :
          join (piece :: next :: rest) "\n" = piece ++ '\n' :: join (next :: rest) "\n" := by
        simp [join, List.intercalate_cons_cons]
      rw [hjoin, infix_append_newline_iff hn] at h
      rcases h with h | h
      · exact ⟨piece, by simp, h⟩
      · obtain ⟨p, hmem, hp⟩ := ih h
        exact ⟨p, List.mem_cons_of_mem _ hmem, hp⟩

theorem join_prefix_append (ps qs : List Text) (sep : Text) :
    join ps sep <+: join (ps ++ qs) sep := by
  by_cases hps : ps = []
  · rw [hps]
    exact List.nil_prefix
  by_cases hqs : qs = []
  · rw [hqs, List.append_nil]
  · rw [join_append hps hqs]
    exact List.prefix_append _ _

theorem join_suffix_append (ps qs : List Text) (sep : Text) :
    join qs sep <:+ join (ps ++ qs) sep := by
  by_cases hqs : qs = []
  · rw [hqs]
    exact List.nil_suffix
  by_cases hps : ps = []
  · rw [hps, List.nil_append]
  · rw [join_append hps hqs, ← List.append_assoc]
    exact List.suffix_append _ _

theorem join_infix_append (ps qs rs : List Text) (sep : Text) :
    join qs sep <:+: join (ps ++ qs ++ rs) sep :=
  (join_suffix_append ps qs sep).isInfix.trans (join_prefix_append (ps ++ qs) rs sep).isInfix

end Text

namespace Region

open Text

theorem normalize_isInfix {a b c : Text} (ha : AtLineStart a) (hb : AtLineStart b) :
    normalize b <:+: normalize (a ++ (b ++ c)) := by
  have hlines : lines (a ++ (b ++ c)) = lines a ++ lines b ++ lines c := by
    rw [lines_append ha, lines_append hb, List.append_assoc]
  simp only [normalize, hlines, List.map_append, List.filter_append]
  exact join_infix_append _ _ _ _

theorem infix_of_infix_normalize {needle t : Text} (hn : '\n' ∉ needle) (hne : needle ≠ [])
    (h : needle <:+: normalize t) : needle <:+: t := by
  obtain ⟨piece, hmem, hpiece⟩ := infix_of_infix_join hn hne h
  obtain ⟨line, hline, rfl⟩ := List.mem_map.1 (List.mem_filter.1 hmem).1
  exact (hpiece.trans (trim_isInfix line)).trans (infix_of_mem_lines hline)

end Region

end PageCache
