import PageCache.Proofs.Text.Lines

/-! Normal forms of texts: trimmed lines without the blank ones, joined by newlines. The normal form
of a text is put together from those of its lines, and that of a text between two others depends on
that text alone where it begins and ends with visible characters. What occurs within a line of the
normal form occurs in the text, and two places in the normal form are two places in the text. -/
namespace PageCache

namespace Text

variable {a b l m q s t x y : Text} {c : Char} {p : Char → Bool}

theorem trimStart_reverse (t : Text) (p : Char → Bool) :
    trimStart t.reverse p = (t.trimEnd p).reverse := by
  simp [trimStart, trimEnd]

theorem trimEnd_reverse (t : Text) (p : Char → Bool) :
    trimEnd t.reverse p = (t.trimStart p).reverse := by
  simp [trimStart, trimEnd]

theorem trimStart_append_cons (hc : p c = false) (a q : Text) :
    (a ++ c :: q).trimStart p = a.trimStart p ++ c :: q := by
  by_cases ha : a.trimStart p = []
  · rw [trimStart_append_of_eq_nil ha, ha]
    simp [trimStart, hc]
  · rw [trimStart_append_of_ne_nil ha]

theorem trimEnd_append_cons (hc : p c = false) (a q : Text) :
    (a ++ c :: q).trimEnd p = a ++ c :: q.trimEnd p := by
  have hrev := trimStart_append_cons hc q.reverse a.reverse
  rw [trimStart_reverse] at hrev
  have hsum : q.reverse ++ c :: a.reverse = (a ++ c :: q).reverse := by simp
  rw [hsum, trimStart_reverse] at hrev
  simpa using congrArg List.reverse hrev

theorem trim_append_cons (hc : isSpace c = false) (a q : Text) :
    (a ++ c :: q).trim = a.trimStart isSpace ++ c :: q.trimEnd isSpace := by
  rw [trim, trimStart_append_cons hc, trimEnd_append_cons hc]

theorem trim_cons (hc : isSpace c = false) (q : Text) :
    trim (c :: q) = c :: q.trimEnd isSpace := trim_append_cons hc [] q

theorem trim_eq_nil_or_visible (t : Text) :
    (∀ c ∈ t, isSpace c = true) ∧ t.trim = [] ∨
      ∃ a c q, isSpace c = false ∧ t = a ++ c :: q := by
  by_cases h : ∀ c ∈ t, isSpace c = true
  · refine .inl ⟨h, ?_⟩
    have hstart : t.trimStart isSpace = [] := List.dropWhile_eq_nil_iff.2 h
    rw [trim, hstart]
    rfl
  · obtain ⟨c, hmem, hc⟩ : ∃ c ∈ t, isSpace c = false := by simpa using h
    obtain ⟨a, q, rfl⟩ := List.append_of_mem hmem
    exact .inr ⟨a, c, q, hc, rfl⟩

theorem trim_reverse (t : Text) : trim t.reverse = t.trim.reverse := by
  rcases trim_eq_nil_or_visible t with ⟨hall, hnil⟩ | ⟨a, c, q, hc, rfl⟩
  · have hstart : trimStart t.reverse isSpace = [] :=
      List.dropWhile_eq_nil_iff.2 fun c hc => hall c (List.mem_reverse.1 hc)
    rw [hnil, trim, hstart]
    rfl
  · have hrev : (a ++ c :: q).reverse = q.reverse ++ c :: a.reverse := by simp
    rw [hrev, trim_append_cons hc, trim_append_cons hc, trimStart_reverse, trimEnd_reverse]
    simp

theorem not_isSpace_of_trim_cons (h : trim (c :: q) = c :: q) : isSpace c = false := by
  by_contra hc
  have htrim : trim (c :: q) = trim q := by
    simp [trim, trimStart, Bool.not_eq_false _ ▸ hc]
  have hle := (trim_isInfix q).length_le
  rw [← htrim, h, List.length_cons] at hle
  omega

structure Solid (t : Text) : Prop where
  begins : ∃ c q, isSpace c = false ∧ t = c :: q
  ends : ∃ q c, isSpace c = false ∧ t = q ++ [c]

theorem solid_of_trim_eq (hne : t ≠ []) (h : t.trim = t) : Solid t := by
  constructor
  · obtain ⟨c, q, rfl⟩ := List.exists_cons_of_ne_nil hne
    exact ⟨c, q, not_isSpace_of_trim_cons h, rfl⟩
  · obtain ⟨q, c, rfl⟩ := (List.eq_nil_or_concat' t).resolve_left hne
    have hrev := trim_reverse (q ++ [c])
    rw [h, List.reverse_append] at hrev
    exact ⟨q, c, not_isSpace_of_trim_cons hrev, rfl⟩

theorem Solid.append_append (hs : Solid s) (ht : Solid t) (m : Text) : Solid (s ++ m ++ t) := by
  obtain ⟨c, q, hc, rfl⟩ := hs.begins
  obtain ⟨q', d, hd, rfl⟩ := ht.ends
  exact ⟨⟨c, q ++ m ++ (q' ++ [d]), hc, by simp⟩, ⟨c :: q ++ m ++ q', d, hd, by simp⟩⟩

/-- An occurrence in a trimmed text is one in the text, behind the same characters but for blanks at
the beginning. -/
theorem exists_of_trim_eq (h : l.trim = x ++ m ++ y) :
    ∃ a b, l = a ++ m ++ b ∧ a.trimStart isSpace = x := by
  have hstart : l = l.takeWhile isSpace ++ l.trimStart isSpace :=
    List.takeWhile_append_dropWhile.symm
  obtain ⟨v, hv⟩ : ∃ v, l.trimStart isSpace = l.trim ++ v := by
    have hend := List.dropWhile_suffix isSpace (l := (l.trimStart isSpace).reverse)
    obtain ⟨v, hv⟩ := List.reverse_prefix.2 hend
    exact ⟨v, by simpa [trim, trimEnd] using hv.symm⟩
  refine ⟨l.takeWhile isSpace ++ x, y ++ v, ?_, ?_⟩
  · conv_lhs => rw [hstart, hv, h]
    simp
  · have hx : x.trimStart isSpace = x := by
      cases x with
      | nil => rfl
      | cons d x =>
        have hd := List.head?_dropWhile_not isSpace l
        rw [← trimStart, hv, h] at hd
        have hvisible : isSpace d = false := by simpa using hd
        simp [trimStart, hvisible]
    rw [trimStart, List.dropWhile_append_of_pos fun c hc => List.mem_takeWhile_imp hc]
    exact hx

theorem lines_induction {motive : Text → Prop} (line : ∀ l, '\n' ∉ l → motive l)
    (append : ∀ l t, '\n' ∉ l → motive t → motive (l ++ '\n' :: t)) (t : Text) : motive t := by
  induction hn : t.length using Nat.strong_induction_on generalizing t with
  | _ n ih =>
    by_cases h : '\n' ∈ t
    · obtain ⟨l, t, rfl, hl⟩ := List.eq_append_cons_of_mem h
      refine append l t hl (ih t.length ?_ t rfl)
      rw [← hn, List.length_append, List.length_cons]
      omega
    · exact line t h

/-- The lines that are not blank, without the blanks around them. -/
def trimmedLines (t : Text) : List Text := (t.lines.map trim).filter (!·.isEmpty)

theorem trim_dropCarriageReturn (l : Text) : (dropCarriageReturn l).trim = l.trim := by
  unfold dropCarriageReturn
  split
  · next h =>
    obtain ⟨q, rfl⟩ := List.getLast?_eq_some_iff.1 h
    have hreturn : isSpace '\r' = true := by decide
    rw [List.dropLast_concat]
    rcases trim_eq_nil_or_visible q with ⟨hall, hnil⟩ | ⟨a, c, q, hc, rfl⟩
    · have hstart : trimStart (q ++ ['\r']) isSpace = [] :=
        List.dropWhile_eq_nil_iff.2 (by simpa [or_imp, forall_and, hreturn] using hall)
      rw [hnil, trim, hstart]
      rfl
    · rw [List.append_assoc, List.cons_append, trim_append_cons hc, trim_append_cons hc,
        trimEnd_append_of_eq_nil (by simp [trimEnd, hreturn])]
  · rfl

theorem trimmedLines_eq (t : Text) :
    trimmedLines t = ((splitOn t '\n').map trim).filter (!·.isEmpty) := by
  obtain ⟨pieces, last, h⟩ :=
    (List.eq_nil_or_concat' (splitOn t '\n')).resolve_left (splitOn_ne_nil t '\n')
  have hpieces : (pieces.map dropCarriageReturn).map trim = pieces.map trim := by
    simp [trim_dropCarriageReturn]
  rw [trimmedLines, lines, h, List.getLast?_concat, List.dropLast_concat, List.map_append,
    List.map_append, hpieces, List.filter_append, List.filter_append]
  by_cases hlast : last = []
  · subst hlast
    rfl
  · simp [hlast]

theorem trimmedLines_append_newline (a b : Text) :
    trimmedLines (a ++ '\n' :: b) = trimmedLines a ++ trimmedLines b := by
  simp only [trimmedLines_eq, splitOn_append_sep, List.map_append, List.filter_append]

theorem trimmedLines_of_line (hl : '\n' ∉ l) :
    trimmedLines l = if l.trim = [] then [] else [l.trim] := by
  rw [trimmedLines_eq, splitOn_of_not_mem hl]
  by_cases h : l.trim = [] <;> simp [h]

theorem of_mem_trimmedLines (h : l ∈ trimmedLines t) : l ≠ [] ∧ '\n' ∉ l := by
  have hline : ∀ {k : Text}, '\n' ∉ k → l ∈ trimmedLines k → l ≠ [] ∧ '\n' ∉ l := by
    intro k hk h
    rw [trimmedLines_of_line hk] at h
    split at h
    · cases h
    · next hne =>
      obtain rfl := List.mem_singleton.1 h
      exact ⟨hne, fun hin => hk ((trim_isInfix k).subset hin)⟩
  induction t using lines_induction with
  | line t ht => exact hline ht h
  | append k t hk ih =>
    rw [trimmedLines_append_newline, List.mem_append] at h
    exact h.elim (hline hk) ih

theorem join_cons_eq (l : Text) (ls : List Text) :
    join (l :: ls) ['\n'] = l ++ ls.flatMap ('\n' :: ·) := by
  induction ls generalizing l with
  | nil => simp [join]
  | cons next ls ih =>
    rw [List.flatMap_cons, List.cons_append, ← ih next]
    simp [join, List.intercalate_cons_cons]

end Text

namespace Region

open Text

variable {a b l m q s t x y : Text} {c : Char}

/-- Normal forms are joined by a newline unless one of them is empty. -/
def glue (a b : Text) : Text := if a = [] then b else if b = [] then a else a ++ '\n' :: b

@[simp] theorem glue_nil_left (b : Text) : glue [] b = b := if_pos rfl

@[simp] theorem glue_nil_right (a : Text) : glue a [] = a := by
  unfold glue
  split
  · next h => exact h.symm
  · exact if_pos rfl

theorem glue_of_ne_nil (ha : a ≠ []) (hb : b ≠ []) : glue a b = a ++ '\n' :: b := by
  rw [glue, if_neg ha, if_neg hb]

theorem glue_eq_nil_iff : glue a b = [] ↔ a = [] ∧ b = [] := by
  unfold glue
  split
  · next h => simp [h]
  · next h => split <;> simp [h]

theorem glue_append (hb : b ≠ []) (a x : Text) : glue (a ++ b) x = a ++ glue b x := by
  by_cases hx : x = []
  · rw [hx, glue_nil_right, glue_nil_right]
  · rw [glue_of_ne_nil (by simp [hb]) hx, glue_of_ne_nil hb hx, List.append_assoc]

theorem reverse_glue (a b : Text) : (glue a b).reverse = glue b.reverse a.reverse := by
  by_cases ha : a = []
  · rw [ha, glue_nil_left, List.reverse_nil, glue_nil_right]
  by_cases hb : b = []
  · rw [hb, glue_nil_right, List.reverse_nil, glue_nil_left]
  · rw [glue_of_ne_nil ha hb, glue_of_ne_nil (by simpa using hb) (by simpa using ha)]
    simp

theorem normalize_eq_nil_iff : normalize t = [] ↔ trimmedLines t = [] := by
  change join (trimmedLines t) ['\n'] = [] ↔ _
  match h : trimmedLines t with
  | [] => simp [join]
  | l :: ls =>
    have hl : l ≠ [] := (of_mem_trimmedLines (h ▸ List.mem_cons_self)).1
    rw [join_cons_eq]
    simp [hl]

theorem normalize_append_newline (a b : Text) :
    normalize (a ++ '\n' :: b) = glue (normalize a) (normalize b) := by
  have happ : normalize (a ++ '\n' :: b) = join (trimmedLines a ++ trimmedLines b) ['\n'] :=
    congrArg (join · ['\n']) (trimmedLines_append_newline a b)
  rw [happ]
  by_cases ha : trimmedLines a = []
  · rw [normalize_eq_nil_iff.2 ha, ha, glue_nil_left]
    rfl
  by_cases hb : trimmedLines b = []
  · rw [normalize_eq_nil_iff.2 hb, hb, glue_nil_right, List.append_nil]
    rfl
  · rw [glue_of_ne_nil (mt normalize_eq_nil_iff.1 ha) (mt normalize_eq_nil_iff.1 hb),
      join_append ha hb]
    rfl

theorem normalize_of_line (hl : '\n' ∉ l) : normalize l = l.trim := by
  change join (trimmedLines l) ['\n'] = _
  rw [trimmedLines_of_line hl]
  split
  · next h => rw [h]; rfl
  · simp [join]

theorem normalize_concat_newline (t : Text) : normalize (t ++ ['\n']) = normalize t := by
  have hnil : normalize [] = [] := rfl
  rw [normalize_append_newline, hnil, glue_nil_right]

theorem normalize_reverse (t : Text) : normalize t.reverse = (normalize t).reverse := by
  induction t using lines_induction with
  | line l hl =>
    have hl' : '\n' ∉ l.reverse := by simpa using hl
    rw [normalize_of_line hl, normalize_of_line hl', trim_reverse]
  | append l t hl ih =>
    have hl' : '\n' ∉ l.reverse := by simpa using hl
    have hrev : (l ++ '\n' :: t).reverse = t.reverse ++ '\n' :: l.reverse := by simp
    rw [hrev, normalize_append_newline, normalize_append_newline, ih, normalize_of_line hl,
      normalize_of_line hl', trim_reverse, reverse_glue]

/-- Texts have the same normal form exactly if they have the same lines, blanks apart. -/
theorem normalize_eq_normalize_iff :
    normalize a = normalize b ↔ trimmedLines a = trimmedLines b := by
  refine ⟨fun h => ?_, congrArg (join · ['\n'])⟩
  have hnil : trimmedLines a = [] ↔ trimmedLines b = [] := by
    rw [← normalize_eq_nil_iff, ← normalize_eq_nil_iff, h]
  match ha : trimmedLines a, hb : trimmedLines b with
  | [], [] => rfl
  | [], l :: ls => simp [ha, hb] at hnil
  | l :: ls, [] => simp [ha, hb] at hnil
  | l :: ls, k :: ks =>
    change join (trimmedLines a) ['\n'] = join (trimmedLines b) ['\n'] at h
    rw [ha, hb, join_cons_eq, join_cons_eq] at h
    have hls : ∀ piece ∈ l :: ls, '\n' ∉ piece := fun piece hp => (of_mem_trimmedLines (ha ▸ hp)).2
    have hks : ∀ piece ∈ k :: ks, '\n' ∉ piece := fun piece hp => (of_mem_trimmedLines (hb ▸ hp)).2
    refine flatMap_sep_injective hls hks ?_
    rw [List.flatMap_cons, List.flatMap_cons, List.cons_append, List.cons_append, h]

theorem normalize_ne_nil (hc : isSpace c = false) (h : c ∈ t) : normalize t ≠ [] := by
  induction t using lines_induction with
  | line l hl =>
    obtain ⟨a, q, rfl⟩ := List.append_of_mem h
    rw [normalize_of_line hl, trim_append_cons hc]
    simp
  | append l t hl ih =>
    rw [normalize_append_newline, ne_eq, glue_eq_nil_iff]
    rintro ⟨hnil, hnil'⟩
    rcases List.mem_append.1 h with h | h
    · obtain ⟨a, q, rfl⟩ := List.append_of_mem h
      rw [normalize_of_line hl, trim_append_cons hc] at hnil
      simp at hnil
    · rcases List.mem_cons.1 h with rfl | h
      · exact absurd hc (by decide)
      · exact ih h hnil'

theorem normalize_line_append (hl : '\n' ∉ l) (hc : isSpace c = false) (q : Text) :
    normalize (l ++ c :: q) = l.trimStart isSpace ++ normalize (c :: q) := by
  have hcn : c ≠ '\n' := fun h => absurd (h ▸ hc) (by decide)
  by_cases hq : '\n' ∈ q
  · obtain ⟨f, s, rfl, hf⟩ := List.eq_append_cons_of_mem hq
    have hline : '\n' ∉ l ++ c :: f := by simp [hl, hf, hcn.symm]
    have hline' : '\n' ∉ c :: f := by simp [hf, hcn.symm]
    rw [← List.cons_append, ← List.append_assoc, normalize_append_newline,
      normalize_append_newline, normalize_of_line hline, normalize_of_line hline',
      trim_append_cons hc, trim_cons hc, glue_append (by simp)]
  · have hline : '\n' ∉ l ++ c :: q := by simp [hl, hq, hcn.symm]
    have hline' : '\n' ∉ c :: q := by simp [hq, hcn.symm]
    rw [normalize_of_line hline, normalize_of_line hline', trim_append_cons hc, trim_cons hc]

theorem normalize_dot : normalize ['.'] = ['.'] := normalize_of_line (by decide)

/-- What the normal form of a longer text has of this one, if a visible character follows it. -/
def headForm (a : Text) : Text := (normalize (a ++ ['.'])).dropLast

/-- What the normal form of a longer text has of this one, if it follows a visible character. -/
def tailForm (b : Text) : Text := (headForm b.reverse).reverse

theorem headForm_of_line (hl : '\n' ∉ l) : headForm l = l.trimStart isSpace := by
  rw [headForm, normalize_line_append hl (by decide), normalize_dot, List.dropLast_concat]

theorem headForm_append_newline (hl : '\n' ∉ l)
    (ha : ∀ c q, isSpace c = false → normalize (a ++ c :: q) = headForm a ++ normalize (c :: q)) :
    headForm (l ++ '\n' :: a) =
      if l.trim = [] then headForm a else l.trim ++ '\n' :: headForm a := by
  rw [headForm, List.append_assoc, List.cons_append, normalize_append_newline,
    normalize_of_line hl, ha _ _ (by decide), normalize_dot]
  split
  · next h => rw [h, glue_nil_left, List.dropLast_concat]
  · next h =>
    rw [glue_of_ne_nil h (by simp), ← List.cons_append, ← List.append_assoc, List.dropLast_concat]

theorem normalize_append_cons (hc : isSpace c = false) (a q : Text) :
    normalize (a ++ c :: q) = headForm a ++ normalize (c :: q) := by
  induction a using lines_induction generalizing c q with
  | line l hl => rw [headForm_of_line hl, normalize_line_append hl hc]
  | append l a hl ih =>
    have hne : normalize (c :: q) ≠ [] := normalize_ne_nil hc List.mem_cons_self
    rw [headForm_append_newline hl fun c q hc => ih hc q, List.append_assoc, List.cons_append,
      normalize_append_newline, normalize_of_line hl, ih hc]
    split
    · next h => rw [h, glue_nil_left]
    · next h =>
      rw [glue_of_ne_nil h (by simp [hne]), List.append_assoc, List.cons_append]

theorem normalize_append_of_concat (hc : isSpace c = false) (q b : Text) :
    normalize (q ++ [c] ++ b) = normalize (q ++ [c]) ++ tailForm b := by
  have hrev : (q ++ [c] ++ b).reverse = b.reverse ++ c :: q.reverse := by simp
  have hrev' : (q ++ [c]).reverse = c :: q.reverse := by simp
  have h := normalize_append_cons hc b.reverse q.reverse
  rw [← hrev, ← hrev', normalize_reverse, normalize_reverse] at h
  simpa [tailForm] using congrArg List.reverse h

theorem normalize_append_append (hs : Solid s) (a b : Text) :
    normalize (a ++ s ++ b) = headForm a ++ normalize s ++ tailForm b := by
  obtain ⟨q', d, hd, hends⟩ := hs.ends
  obtain ⟨c, q, hc, hbegins⟩ := hs.begins
  have hhead : normalize (a ++ (s ++ b)) = headForm a ++ normalize (s ++ b) := by
    rw [hbegins]
    exact normalize_append_cons hc a (q ++ b)
  have htail : normalize (s ++ b) = normalize s ++ tailForm b := by
    rw [hends]
    exact normalize_append_of_concat hd q' b
  rw [List.append_assoc, hhead, htail, List.append_assoc]

theorem normalize_eq_self (hn : '\n' ∉ t) (h : t.trim = t) : normalize t = t :=
  (normalize_of_line hn).trans h

@[simp] theorem headForm_nil : headForm [] = [] := headForm_of_line (by simp)

@[simp] theorem tailForm_nil : tailForm [] = [] := congrArg List.reverse headForm_nil

/-- An occurrence within a line of the normal form is one in the text, and the text before it has
the normal form before it. -/
theorem exists_of_normalize_eq (hn : '\n' ∉ m) (h : normalize t = x ++ m ++ y) :
    ∃ a b, t = a ++ m ++ b ∧ headForm a = x := by
  have hline : ∀ {l x y : Text}, '\n' ∉ l → l.trim = x ++ m ++ y →
      ∃ a b, l = a ++ m ++ b ∧ headForm a = x := fun {l x y} hl htrim => by
    obtain ⟨a, b, rfl, ha⟩ := exists_of_trim_eq htrim
    exact ⟨a, b, rfl, (headForm_of_line fun hin => hl (by simp [hin])).trans ha⟩
  induction t using lines_induction generalizing x with
  | line l hl => exact hline hl (normalize_of_line hl ▸ h)
  | append l t hl ih =>
    rw [normalize_append_newline, normalize_of_line hl] at h
    have hform := fun a => headForm_append_newline (a := a) hl fun c q hc =>
      normalize_append_cons hc a q
    by_cases hblank : l.trim = []
    · rw [hblank, glue_nil_left] at h
      obtain ⟨a, b, rfl, rfl⟩ := ih h
      exact ⟨l ++ '\n' :: a, b, by simp, by rw [hform, if_pos hblank]⟩
    by_cases hrest : normalize t = []
    · rw [hrest, glue_nil_right] at h
      obtain ⟨a, b, rfl, ha⟩ := hline hl h
      exact ⟨a, b ++ '\n' :: t, by simp, ha⟩
    rw [glue_of_ne_nil hblank hrest] at h
    rcases Text.occurrence_cases hn h with ⟨z, hz, -⟩ | ⟨z, hz, rfl⟩
    · obtain ⟨a, b, rfl, ha⟩ := hline hl hz
      exact ⟨a, b ++ '\n' :: t, by simp, ha⟩
    · obtain ⟨a, b, rfl, rfl⟩ := ih hz
      exact ⟨l ++ '\n' :: a, b, by simp, by rw [hform, if_neg hblank]⟩

end Region

end PageCache
