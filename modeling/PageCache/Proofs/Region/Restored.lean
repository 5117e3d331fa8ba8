import PageCache.Proofs.Region.Rejoined

/-! Removing a block that was put into a text. The text comes back but for the newlines at the place
of the block, of which as many are left as the seam of a removed block has; and where the place is
tidy, the text comes back as it was. -/
namespace PageCache.Region

open Text

variable {r : Region} {text body head tail h t : Text} {m n : ℕ}

/-- The place between the texts is within a run of newlines, so many of them before it and so many
after it. -/
structure WithinRun (head tail h t : Text) (m n : ℕ) : Prop where
  head_eq : head = h ++ List.replicate m '\n'
  tail_eq : tail = List.replicate n '\n' ++ t
  last_ne : h.getLast? ≠ some '\n'
  first_ne : t.head? ≠ some '\n'

theorem exists_withinRun (head tail : Text) : ∃ h t m n, WithinRun head tail h t m n := by
  obtain ⟨h, m, hhead, hlast⟩ : ∃ h m, head = h ++ List.replicate m '\n' ∧
      h.getLast? ≠ some '\n' := by
    rcases newlines_or_last_visible head with ⟨m, rfl⟩ | ⟨q, c, m, hc, rfl⟩
    · exact ⟨[], m, rfl, by simp⟩
    · exact ⟨q ++ [c], m, by simp, by simpa using hc⟩
  obtain ⟨n, t, htail, hfirst⟩ : ∃ n t, tail = List.replicate n '\n' ++ t ∧
      t.head? ≠ some '\n' := by
    rcases newlines_or_first_visible tail with ⟨n, rfl⟩ | ⟨n, c, q, hc, rfl⟩
    · exact ⟨n, [], by simp, by simp⟩
    · exact ⟨n, c :: q, rfl, by simpa using hc⟩
  exact ⟨h, t, m, n, hhead, htail, hlast, hfirst⟩

/-- How many newlines are left in a run after a block within it is put there and removed. -/
def keptNewlines (h t : Text) (m n : ℕ) : ℕ :=
  if h = [] then 0 else if t = [] then 1 else if 2 ≤ m ∨ 1 ≤ n then 2 else 1

theorem closeGap_visible {c d : Char} (hc : c ≠ '\n') (hd : d ≠ '\n') (q w : Text) (m n : ℕ) :
    closeGap (q ++ c :: List.replicate m '\n') (List.replicate n '\n' ++ d :: w) =
      q ++ c :: (List.replicate (if 2 ≤ m ∨ 1 ≤ n then 2 else 1) '\n' ++ d :: w) := by
  have hends : (q ++ c :: List.replicate m '\n').endsWith ("\n\n" : String).toList =
      decide (2 ≤ m) := endsWith_visible hc q m
  have hstarts : startsWith (List.replicate n '\n' ++ d :: w) ("\n" : String).toList =
      decide (1 ≤ n) := startsWith_visible hd n w
  simp only [closeGap, trimEnd_visible hc, trimStart_visible hd, hends, hstarts]
  by_cases hblank : 2 ≤ m ∨ 1 ≤ n
  · simp [hblank]
  · simp [hblank]

theorem WithinRun.closeGap_eq (hrun : WithinRun head tail h t m n) :
    closeGap (headPart head) (tailPart tail) =
      h ++ (List.replicate (keptNewlines h t m n) '\n' ++ t) := by
  obtain ⟨rfl, rfl, hlast, hfirst⟩ := hrun
  rcases List.eq_nil_or_concat' h with rfl | ⟨q, c, rfl⟩
  · rw [List.nil_append, headPart_newlines]
    cases t with
    | nil => simp [closeGap, keptNewlines, trimEnd, trimStart]
    | cons d w =>
      have hd : d ≠ '\n' := by simpa using hfirst
      rw [tailPart_visible hd]
      simp [closeGap, keptNewlines, trimEnd, trimStart_visible hd]
  have hc : c ≠ '\n' := by simpa using hlast
  rw [List.append_assoc, List.singleton_append, headPart_visible hc]
  cases t with
  | nil =>
    rw [List.append_nil, tailPart_newlines]
    simp [closeGap, keptNewlines, trimEnd_visible hc, trimStart]
  | cons d w =>
    have hd : d ≠ '\n' := by simpa using hfirst
    rw [tailPart_visible hd, closeGap_visible hc hd]
    simp [keptNewlines]

/-- The number of empty lines right before a place at a line start. -/
def emptyLinesBefore (head : Text) : ℕ :=
  ((head.splitOn '\n').reverse.tail.takeWhile List.isEmpty).length

/-- The number of empty lines right after a place at a line start. -/
def emptyLinesAfter (tail : Text) : ℕ :=
  ((tail.splitOn '\n').dropLast.takeWhile List.isEmpty).length

theorem splitOn_newlines (n : ℕ) :
    splitOn (List.replicate n '\n') '\n' = List.replicate (n + 1) [] := by
  induction n with
  | zero => rfl
  | succ n ih => rw [List.replicate_succ, splitOn_sep_cons, ih, ← List.replicate_succ]

theorem splitOn_newlines_append (n : ℕ) (t : Text) :
    splitOn (List.replicate n '\n' ++ t) '\n' = List.replicate n [] ++ splitOn t '\n' := by
  induction n with
  | zero => rfl
  | succ n ih =>
    rw [List.replicate_succ, List.cons_append, splitOn_sep_cons, ih, List.replicate_succ,
      List.cons_append]

/-- The last piece of a text that ends with something else than the separator is not empty. -/
theorem exists_splitOn_concat {c : Char} (hc : c ≠ '\n') (q : Text) :
    ∃ pieces piece, splitOn (q ++ [c]) '\n' = pieces ++ [piece] ∧ piece ≠ [] := by
  induction q with
  | nil => exact ⟨[], [c], by simp [splitOn, hc], by simp⟩
  | cons d q ih =>
    obtain ⟨pieces, piece, heq, hne⟩ := ih
    by_cases hd : d = '\n'
    · exact ⟨[] :: pieces, piece, by rw [hd, List.cons_append, splitOn_sep_cons, heq]; rfl, hne⟩
    · cases pieces with
      | nil =>
        exact ⟨[], d :: piece, by rw [List.cons_append, splitOn_cons_of_ne hd heq]; rfl, by simp⟩
      | cons first pieces =>
        exact ⟨(d :: first) :: pieces, piece,
          by rw [List.cons_append, splitOn_cons_of_ne hd heq]; rfl, hne⟩

theorem emptyLinesBefore_visible {c : Char} (hc : c ≠ '\n') (q : Text) (n : ℕ) :
    emptyLinesBefore (q ++ c :: List.replicate (n + 1) '\n') = n := by
  obtain ⟨pieces, piece, heq, hne⟩ := exists_splitOn_concat hc q
  have hsplit : splitOn (q ++ c :: List.replicate (n + 1) '\n') '\n' =
      pieces ++ [piece] ++ List.replicate (n + 1) [] := by
    rw [List.append_cons, List.replicate_succ, splitOn_append_sep, heq, splitOn_newlines]
  rw [emptyLinesBefore, hsplit, List.reverse_append, List.reverse_replicate, List.replicate_succ,
    List.cons_append, List.tail_cons, List.takeWhile_append_of_pos (by simp)]
  simp [hne]

theorem emptyLinesAfter_visible {d : Char} (hd : d ≠ '\n') (n : ℕ) (w : Text) :
    emptyLinesAfter (List.replicate n '\n' ++ d :: w) = n := by
  obtain ⟨piece, pieces, heq, -⟩ := exists_splitOn_eq_cons w '\n'
  rw [emptyLinesAfter, splitOn_newlines_append, splitOn_cons_of_ne hd heq,
    List.dropLast_append_of_ne_nil (by simp), List.takeWhile_append_of_pos (by simp)]
  cases pieces with
  | nil => simp
  | cons next pieces => simp

/-- The text ends with one newline and begins with none, and the place in it is at a line start, or
at its end, and has one empty line next to it at most. -/
structure Tidy (head tail : Text) : Prop where
  ends_once : ∃ x c, c ≠ '\n' ∧ head ++ tail = x ++ [c, '\n']
  first_ne : (head ++ tail).head? ≠ some '\n'
  line_start : AtLineStart head ∨ tail = []
  one_empty_line : emptyLinesBefore head + emptyLinesAfter tail ≤ 1

/-- A text that does not begin with a newline has none before its first visible character. -/
theorem WithinRun.add_eq_zero (hrun : WithinRun head tail [] t m n)
    (hfirst : (head ++ tail).head? ≠ some '\n') : m + n = 0 := by
  by_contra hpos
  obtain ⟨k, hk⟩ := Nat.exists_eq_succ_of_ne_zero hpos
  have htext : head ++ tail = '\n' :: (List.replicate k '\n' ++ t) := by
    rw [hrun.head_eq, hrun.tail_eq, List.nil_append, ← List.append_assoc,
      List.replicate_append_replicate, hk, List.replicate_succ, List.cons_append]
  exact hfirst (by rw [htext]; rfl)

/-- A text that ends with one newline has one after its last visible character. -/
theorem WithinRun.add_eq_one (hrun : WithinRun head tail h [] m n) (hne : h ≠ [])
    (hends : ∃ x c, c ≠ '\n' ∧ head ++ tail = x ++ [c, '\n']) : m + n = 1 := by
  obtain ⟨x, d, hd, hend⟩ := hends
  obtain ⟨q, c, rfl⟩ := (List.eq_nil_or_concat' h).resolve_left hne
  have hc : c ≠ '\n' := by simpa using hrun.last_ne
  have htext : q ++ c :: List.replicate (m + n) '\n' = x ++ d :: List.replicate 1 '\n' := by
    rw [hrun.head_eq, hrun.tail_eq] at hend
    simpa [← List.replicate_append_replicate] using hend
  have htrim := congrArg (trimEnd · isNewline) htext
  simp only [trimEnd_visible hc, trimEnd_visible hd] at htrim
  have hlen := congrArg List.length htext
  have hlen' := congrArg List.length htrim
  simp only [List.length_append, List.length_cons, List.length_replicate, List.length_nil]
    at hlen hlen'
  omega

/-- Between two lines with one empty line at most, the empty line is kept. -/
theorem WithinRun.add_eq_of_emptyLines (hrun : WithinRun head tail h t m n) (hh : h ≠ [])
    (ht : t ≠ []) (hl : AtLineStart head)
    (hempty : emptyLinesBefore head + emptyLinesAfter tail ≤ 1) :
    m + n = if 2 ≤ m ∨ 1 ≤ n then 2 else 1 := by
  obtain ⟨rfl, rfl, hlast, hfirst⟩ := hrun
  obtain ⟨q, c, rfl⟩ := (List.eq_nil_or_concat' h).resolve_left hh
  obtain ⟨d, w, rfl⟩ := List.exists_cons_of_ne_nil ht
  have hc : c ≠ '\n' := by simpa using hlast
  have hd : d ≠ '\n' := by simpa using hfirst
  cases m with
  | zero =>
    rcases hl with hnil | ⟨y, hy⟩
    · simp at hnil
    · exact absurd (by simpa using congrArg List.getLast? hy) hc
  | succ m =>
    rw [List.append_assoc, List.singleton_append, emptyLinesBefore_visible hc,
      emptyLinesAfter_visible hd] at hempty
    split <;> omega

theorem WithinRun.keptNewlines_of_tidy (hrun : WithinRun head tail h t m n)
    (htidy : Tidy head tail) : keptNewlines h t m n = m + n := by
  unfold keptNewlines
  by_cases hh : h = []
  · subst hh
    rw [if_pos rfl, hrun.add_eq_zero htidy.first_ne]
  by_cases ht : t = []
  · subst ht
    rw [if_neg hh, if_pos rfl, hrun.add_eq_one hh htidy.ends_once]
  · have htail : tail ≠ [] := by
      rw [hrun.tail_eq]
      simp [ht]
    rw [if_neg hh, if_neg ht, hrun.add_eq_of_emptyLines hh ht
      (htidy.line_start.resolve_right htail) htidy.one_empty_line]

theorem surroundings_append (habsent : r.locate? text = none) (anchors : List Anchor) :
    (r.surroundings text anchors).1 ++ (r.surroundings text anchors).2 = text := by
  rw [surroundings_of_absent habsent, placeOf_append]

/-- Of a text without the opening marker, the removal leaves what the block was put between. -/
theorem erase_upsert_eq (hr : r.Proper) (hbody : Avoids [r] body) (htext : ¬ r.opening <:+: text)
    (anchors : List Anchor) :
    r.erase (r.upsert text body anchors) =
      closeGap (headPart (r.surroundings text anchors).1)
        (tailPart (r.surroundings text anchors).2) := by
  have hparts := surroundings_append (locate?_eq_none_of_opening htext) anchors
  rw [upsert_eq, erase_of_located (locate?_put hr hbody (locate?_surroundings r text anchors) _)]
  apply erase_eq_self
  apply locate?_eq_none_of_opening
  intro hin
  obtain ⟨h, t, hgap, hl, hhead, htail⟩ := exists_closeGap_eq
    (headPart (r.surroundings text anchors).1) (tailPart (r.surroundings text anchors).2)
  rw [hgap] at hin
  have hn := hr.newline_not_mem_opening
  rcases opening_infix_rejoined hr.lined hhead htail hl hin with hin | hin
  · have hin' := infix_of_infix_headPart hn hr.opening_ne_nil hin
    exact htext (hparts ▸ hin'.trans (List.prefix_append _ _).isInfix)
  · have hin' := infix_of_infix_tailPart hn hr.opening_ne_nil hin
    exact htext (hparts ▸ hin'.trans (List.suffix_append _ _).isInfix)

/-- A block that is put into a text and removed leaves the text but for the run of newlines at its
place, and leaves it as it was if the text is empty or the place is tidy. -/
theorem erase_upsert (hr : r.Proper) (hbody : Avoids [r] body) (htext : ¬ r.opening <:+: text)
    (anchors : List Anchor) :
    (∃ h t m n, WithinRun (r.surroundings text anchors).1 (r.surroundings text anchors).2 h t m n ∧
      text = h ++ (List.replicate (m + n) '\n' ++ t) ∧
      r.erase (r.upsert text body anchors) =
        h ++ (List.replicate (keptNewlines h t m n) '\n' ++ t)) ∧
    (text = [] ∨ Tidy (r.surroundings text anchors).1 (r.surroundings text anchors).2 →
      r.erase (r.upsert text body anchors) = text) := by
  have hparts := surroundings_append (locate?_eq_none_of_opening htext) anchors
  obtain ⟨h, t, m, n, hrun⟩ :=
    exists_withinRun (r.surroundings text anchors).1 (r.surroundings text anchors).2
  have hwhole : text = h ++ (List.replicate (m + n) '\n' ++ t) := by
    conv_lhs => rw [← hparts, hrun.head_eq, hrun.tail_eq]
    simp [← List.replicate_append_replicate]
  have herase : r.erase (r.upsert text body anchors) =
      h ++ (List.replicate (keptNewlines h t m n) '\n' ++ t) := by
    rw [erase_upsert_eq hr hbody htext, hrun.closeGap_eq]
  refine ⟨⟨h, t, m, n, hrun, hwhole, herase⟩, ?_⟩
  rintro (hnil | htidy)
  · obtain ⟨rfl, hrest⟩ := List.append_eq_nil_iff.1 (hwhole.symm.trans hnil)
    obtain ⟨-, rfl⟩ := List.append_eq_nil_iff.1 hrest
    rw [herase, hnil]
    rfl
  · rw [herase, hrun.keptNewlines_of_tidy htidy, ← hwhole]

/-- A closing marker of its own before the place does not make the removal take more. -/
theorem erase_upsert_stray :
    let mine : Region := ⟨"# BEGIN Mine", "# END Mine"⟩
    let text : Text := "a\n# END Mine\n\nb\n"
    mine.upsert text "rule" [⟨"b\n", .before⟩] =
        ("a\n# END Mine\n\n# BEGIN Mine\nrule\n# END Mine\nb\n" : Text) ∧
      mine.erase (mine.upsert text "rule" [⟨"b\n", .before⟩]) = text := by
  intro mine text
  have hmine : mine.Proper := ⟨by decide, by decide, by decide, by decide, by decide⟩
  have habsent : ¬ mine.opening <:+: text := by decide +kernel
  have hplace : mine.surroundings text [⟨"b\n", .before⟩] =
      (("a\n# END Mine\n\n" : Text), ("b\n" : Text)) := by
    rw [surroundings_of_absent (locate?_eq_none_of_opening habsent)]
    decide +kernel
  have htidy : Tidy (mine.surroundings text [⟨"b\n", .before⟩]).1
      (mine.surroundings text [⟨"b\n", .before⟩]).2 := by
    rw [hplace]
    exact ⟨⟨"a\n# END Mine\n\n", 'b', by decide, by decide +kernel⟩, by decide +kernel,
      .inl (.inr ⟨"a\n# END Mine\n", by decide +kernel⟩), by decide +kernel⟩
  refine ⟨?_, (erase_upsert hmine (by decide +kernel) habsent _).2 (.inr htidy)⟩
  rw [upsert_eq, hplace]
  decide +kernel

end PageCache.Region
