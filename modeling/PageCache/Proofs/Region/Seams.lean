import PageCache.Proofs.Region.Located

/-! The newlines around a block. A text is put next to a block with its newlines made one or two
before the block and at most one after it; closing a seam twice changes nothing, and closing it
neither makes a marker nor moves the first one. -/
namespace PageCache.Region

open Text

variable {r : Region} {m body head tail block : Text}

/-- A text with newlines after it, unless it is empty. -/
def closed (t : Text) (blank : Bool) : Text :=
  t ++ if t.isEmpty then [] else if blank then ['\n', '\n'] else ['\n']

/-- The text before a block, up to the block. -/
def headPart (head : Text) : Text :=
  closed (head.trimEnd isNewline) (head.endsWith ['\n', '\n'])

/-- The text after a block, from the block on. -/
def tailPart (tail : Text) : Text :=
  (if !(tail.trimStart isNewline).isEmpty && tail.startsWith ['\n'] then ['\n'] else []) ++
    tail.trimStart isNewline

theorem splice_eq (head block tail : Text) :
    splice head block tail = headPart head ++ (block ++ tailPart tail) := by
  simp [splice, headPart, closed, tailPart]

theorem atLineStart_closed (t : Text) (blank : Bool) : AtLineStart (closed t blank) := by
  by_cases ht : t = []
  · exact .inl (by simp [closed, ht])
  · cases blank with
    | false => exact .inr ⟨t, by simp [closed, ht]⟩
    | true => exact .inr ⟨t ++ ['\n'], by simp [closed, ht]⟩

theorem atLineStart_headPart (head : Text) : AtLineStart (headPart head) := atLineStart_closed _ _

@[simp] theorem headPart_newlines (n : ℕ) : headPart (List.replicate n '\n') = [] := by
  simp [headPart, closed, trimEnd, isNewline]

theorem trimEnd_visible {c : Char} (hc : c ≠ '\n') (q : Text) (n : ℕ) :
    (q ++ c :: List.replicate n '\n').trimEnd isNewline = q ++ [c] := by
  rw [List.append_cons, trimEnd_append_newlines]
  simp [trimEnd, isNewline, hc]

theorem endsWith_visible {c : Char} (hc : c ≠ '\n') (q : Text) (n : ℕ) :
    (q ++ c :: List.replicate n '\n').endsWith ['\n', '\n'] = decide (2 ≤ n) := by
  rcases n with _ | _ | n
  · simp [endsWith, List.isSuffixOf, List.isPrefixOf, Ne.symm hc]
  · simp [endsWith, List.isSuffixOf, List.isPrefixOf, Ne.symm hc]
  · simp [endsWith, List.isSuffixOf, List.replicate_succ']

theorem trimStart_visible {c : Char} (hc : c ≠ '\n') (n : ℕ) (q : Text) :
    trimStart (List.replicate n '\n' ++ c :: q) isNewline = c :: q := by
  rw [trimStart_newlines_append]
  simp [trimStart, isNewline, hc]

theorem startsWith_visible {c : Char} (hc : c ≠ '\n') (n : ℕ) (q : Text) :
    startsWith (List.replicate n '\n' ++ c :: q) ['\n'] = decide (1 ≤ n) := by
  cases n with
  | zero => simp [startsWith, List.isPrefixOf, Ne.symm hc]
  | succ n => simp [startsWith, List.replicate_succ]

theorem headPart_visible {c : Char} (hc : c ≠ '\n') (q : Text) (n : ℕ) :
    headPart (q ++ c :: List.replicate n '\n') =
      q ++ c :: List.replicate (max 1 (min n 2)) '\n' := by
  rw [headPart, closed, trimEnd_visible hc, endsWith_visible hc]
  rcases n with _ | _ | n <;> simp

@[simp] theorem tailPart_newlines (n : ℕ) : tailPart (List.replicate n '\n') = [] := by
  simp [tailPart, trimStart, isNewline]

theorem tailPart_visible {c : Char} (hc : c ≠ '\n') (n : ℕ) (q : Text) :
    tailPart (List.replicate n '\n' ++ c :: q) = List.replicate (min n 1) '\n' ++ c :: q := by
  rw [tailPart, trimStart_visible hc, startsWith_visible hc]
  rcases n with _ | n <;> simp

theorem headPart_headPart (head : Text) : headPart (headPart head) = headPart head := by
  rcases newlines_or_last_visible head with ⟨n, rfl⟩ | ⟨q, c, n, hc, rfl⟩
  · simpa using headPart_newlines 0
  · rw [headPart_visible hc, headPart_visible hc]
    congr 3
    omega

theorem tailPart_tailPart (tail : Text) : tailPart (tailPart tail) = tailPart tail := by
  rcases newlines_or_first_visible tail with ⟨n, rfl⟩ | ⟨n, c, q, hc, rfl⟩
  · simpa using tailPart_newlines 0
  · rw [tailPart_visible hc, tailPart_visible hc]
    congr 2
    omega

/-- The texts differ in newlines at their ends only. -/
def EqBeforeNewlines (t t' : Text) : Prop :=
  ∃ p s s', t = p ++ s ∧ t' = p ++ s' ∧ (∀ c ∈ s, c = '\n') ∧ ∀ c ∈ s', c = '\n'

/-- The texts differ in newlines at their beginnings only. -/
def EqAfterNewlines (t t' : Text) : Prop :=
  ∃ s s' p, t = s ++ p ∧ t' = s' ++ p ∧ (∀ c ∈ s, c = '\n') ∧ ∀ c ∈ s', c = '\n'

theorem EqBeforeNewlines.symm {t t' : Text} (h : EqBeforeNewlines t t') :
    EqBeforeNewlines t' t := by
  obtain ⟨p, s, s', ht, ht', hs, hs'⟩ := h
  exact ⟨p, s', s, ht', ht, hs', hs⟩

theorem EqAfterNewlines.symm {t t' : Text} (h : EqAfterNewlines t t') : EqAfterNewlines t' t := by
  obtain ⟨s, s', p, ht, ht', hs, hs'⟩ := h
  exact ⟨s', s, p, ht', ht, hs', hs⟩

theorem EqBeforeNewlines.isInfix {t t' : Text} (h : EqBeforeNewlines t t') (hn : '\n' ∉ m)
    (hne : m ≠ []) (hin : m <:+: t') : m <:+: t := by
  obtain ⟨p, s, s', rfl, rfl, -, hs'⟩ := h
  exact (infix_of_infix_append_newlines hn hne hs' hin).trans (List.prefix_append p s).isInfix

theorem EqAfterNewlines.isInfix {t t' : Text} (h : EqAfterNewlines t t') (hn : '\n' ∉ m)
    (hne : m ≠ []) (hin : m <:+: t') : m <:+: t := by
  obtain ⟨s, s', p, rfl, rfl, -, hs'⟩ := h
  exact (infix_of_infix_newlines_append hn hne hs' hin).trans (List.suffix_append s p).isInfix

theorem eqBeforeNewlines_closed (head : Text) (blank : Bool) :
    EqBeforeNewlines head (closed (head.trimEnd isNewline) blank) := by
  obtain ⟨s, hs, hall⟩ := exists_trimEnd_isNewline head
  refine ⟨head.trimEnd isNewline, s, _, hs, rfl, hall, ?_⟩
  split
  · simp
  · split <;> simp

theorem eqBeforeNewlines_headPart (head : Text) : EqBeforeNewlines head (headPart head) :=
  eqBeforeNewlines_closed head _

theorem eqAfterNewlines_trimStart (tail : Text) :
    EqAfterNewlines tail (tail.trimStart isNewline) := by
  obtain ⟨s, hs, hall⟩ := exists_trimStart_isNewline tail
  exact ⟨s, [], _, hs, rfl, hall, by simp⟩

theorem eqAfterNewlines_tailPart (tail : Text) : EqAfterNewlines tail (tailPart tail) := by
  obtain ⟨s, hs, hall⟩ := exists_trimStart_isNewline tail
  refine ⟨s, _, _, hs, rfl, hall, ?_⟩
  split <;> simp

theorem exists_closeGap_eq (head tail : Text) :
    ∃ h t, closeGap head tail = h ++ t ∧ AtLineStart h ∧ EqBeforeNewlines head h ∧
      EqAfterNewlines tail t := by
  obtain ⟨blank, hblank⟩ : ∃ blank, closeGap head tail =
      closed (head.trimEnd isNewline) blank ++ tail.trimStart isNewline := by
    by_cases hhead : head.trimEnd isNewline = []
    · exact ⟨false, by simp [closeGap, closed, hhead]⟩
    by_cases htail : tail.trimStart isNewline = []
    · exact ⟨false, by simp [closeGap, closed, hhead, htail]⟩
    · refine ⟨head.endsWith ['\n', '\n'] || tail.startsWith ['\n'], ?_⟩
      simp [closeGap, closed, hhead, htail, apply_ite String.toList]
  exact ⟨_, _, hblank, atLineStart_closed _ blank, eqBeforeNewlines_closed head blank,
    eqAfterNewlines_trimStart tail⟩

theorem infix_of_infix_headPart (hn : '\n' ∉ m) (hne : m ≠ [])
    (h : m <:+: headPart head) : m <:+: head :=
  (eqBeforeNewlines_headPart head).isInfix hn hne h

theorem infix_of_infix_tailPart (hn : '\n' ∉ m) (hne : m ≠ [])
    (h : m <:+: tailPart tail) : m <:+: tail :=
  (eqAfterNewlines_tailPart tail).isInfix hn hne h

theorem headPart_append (hm : visible m ≠ []) (a : Text) :
    headPart (a ++ m) = a ++ headPart m := by
  obtain ⟨q, c, n, hc, rfl⟩ := exists_last_visible hm
  rw [← List.append_assoc, headPart_visible hc, headPart_visible hc, List.append_assoc]

theorem tailPart_append (hm : visible m ≠ []) (a : Text) :
    tailPart (m ++ a) = tailPart m ++ a := by
  obtain ⟨n, c, q, hc, rfl⟩ := exists_first_visible hm
  rw [List.append_assoc, List.cons_append, tailPart_visible hc, tailPart_visible hc,
    List.append_assoc, List.cons_append]

theorem tailPart_eq_self {c : Char} (hc : c ≠ '\n') (q : Text) : tailPart (c :: q) = c :: q :=
  tailPart_visible hc 0 q

theorem exists_headPart_cons {c : Char} (hc : c ≠ '\n') (q : Text) :
    ∃ q', headPart (c :: q) = c :: q' := by
  rcases newlines_or_last_visible q with ⟨n, rfl⟩ | ⟨q, d, n, hd, rfl⟩
  · exact ⟨_, headPart_visible hc [] n⟩
  · exact ⟨_, headPart_visible hd (c :: q) n⟩

/-- The seams of a text on both sides do not touch each other. -/
theorem headPart_tailPart (hm : visible m ≠ []) :
    headPart (tailPart m) = tailPart (headPart m) := by
  obtain ⟨n, c, q, hc, rfl⟩ := exists_first_visible hm
  have hv : visible (c :: q) ≠ [] := visible_append_cons_ne_nil hc [] q
  obtain ⟨q', hq'⟩ := exists_headPart_cons hc q
  rw [tailPart_visible hc, headPart_append hv, headPart_append hv, hq', tailPart_visible hc]

theorem visible_headPart (head : Text) : visible (headPart head) = visible head := by
  rcases newlines_or_last_visible head with ⟨n, rfl⟩ | ⟨q, c, n, hc, rfl⟩
  · rw [headPart_newlines, visible_newlines (s := List.replicate n '\n') (by simp)]
    rfl
  · rw [headPart_visible hc]
    simp [visible, List.filter_cons]

theorem visible_tailPart (tail : Text) : visible (tailPart tail) = visible tail := by
  rcases newlines_or_first_visible tail with ⟨n, rfl⟩ | ⟨n, c, q, hc, rfl⟩
  · rw [tailPart_newlines, visible_newlines (s := List.replicate n '\n') (by simp)]
    rfl
  · rw [tailPart_visible hc]
    simp [visible]

theorem headPart_append_wrap_newlines (hr : r.Proper) (head body : Text) (n : ℕ) :
    headPart (head ++ (r.wrap body ++ List.replicate n '\n')) =
      head ++ (r.wrap body ++ List.replicate (min n 1) '\n') := by
  obtain ⟨e, c, he⟩ := (List.eq_nil_or_concat' r.closing).resolve_left hr.closing_ne_nil
  have hc : c ≠ '\n' := fun hc => hr.newline_not_mem_closing (by simp [he, hc])
  have htext : ∀ k, head ++ (r.wrap body ++ List.replicate k '\n') =
      head ++ (r.opening ++ '\n' :: (inner body ++ e)) ++ c :: List.replicate (k + 1) '\n' := by
    simp [wrap_eq, he, List.replicate_succ]
  have hcount : max 1 (min (n + 1) 2) = min n 1 + 1 := by omega
  rw [htext, htext, headPart_visible hc, hcount]

theorem headPart_append_wrap (hr : r.Proper) (head body : Text) :
    headPart (head ++ r.wrap body) = head ++ r.wrap body := by
  simpa using headPart_append_wrap_newlines hr head body 0

theorem tailPart_wrap_append (hr : r.Proper) (body tail : Text) :
    tailPart (r.wrap body ++ tail) = r.wrap body ++ tail := by
  obtain ⟨c, o, ho⟩ := List.exists_cons_of_ne_nil hr.opening_ne_nil
  have hc : c ≠ '\n' := fun hc => hr.newline_not_mem_opening (by simp [ho, hc])
  rw [wrap_eq, ho, List.cons_append, List.cons_append, tailPart_eq_self hc]

theorem not_infix_put (hn : '\n' ∉ m) (hne : m ≠ []) (hl : AtLineStart block)
    (hblock : ¬ m <:+: block) (h : ¬ m <:+: head ++ tail) :
    ¬ m <:+: headPart head ++ (block ++ tailPart tail) := by
  intro hin
  rcases ((atLineStart_headPart head).infix_append_iff hn).1 hin with hin | hin
  · exact h ((infix_of_infix_headPart hn hne hin).trans (List.prefix_append head tail).isInfix)
  rcases (hl.infix_append_iff hn).1 hin with hin | hin
  · exact hblock hin
  · exact h ((infix_of_infix_tailPart hn hne hin).trans (List.suffix_append head tail).isInfix)

/-- What stands between the place of a block and a marker, up to newlines. -/
theorem exists_tailPart_marker {c : Char} (hc : c ≠ '\n') (a q : Text) :
    ∃ s s' p, a = s ++ p ∧ (∀ d ∈ s', d = '\n') ∧
      tailPart (a ++ c :: q) = s' ++ (p ++ c :: q) := by
  rcases newlines_or_first_visible a with ⟨n, rfl⟩ | ⟨n, d, p, hd, rfl⟩
  · exact ⟨List.replicate n '\n', List.replicate (min n 1) '\n', [], by simp, by simp,
      tailPart_visible hc n q⟩
  · refine ⟨List.replicate n '\n', List.replicate (min n 1) '\n', d :: p, rfl, by simp, ?_⟩
    rw [List.append_assoc, List.cons_append]
    exact tailPart_visible hd n _

theorem firstAfter_put {s s' p : Text} (hn : '\n' ∉ m) (hne : m ≠ []) (hl : AtLineStart block)
    (hblock : ¬ m <:+: block) (hs' : ∀ c ∈ s', c = '\n') (h : FirstAfter m (head ++ (s ++ p))) :
    FirstAfter m (headPart head ++ (block ++ (s' ++ p))) := by
  intro hin
  simp only [List.append_assoc] at hin
  rcases ((atLineStart_headPart head).infix_append_iff hn).1 hin with hin | hin
  · have hm := infix_of_infix_headPart hn hne hin
    exact h (hm.trans ⟨[], s ++ p ++ m.dropLast, by simp⟩)
  rcases (hl.infix_append_iff hn).1 hin with hin | hin
  · exact hblock hin
  · have hm := infix_of_infix_newlines_append hn hne hs' hin
    exact h (hm.trans ⟨head ++ s, [], by simp⟩)

/-- The seam before a block does not touch a newline at the beginning. -/
theorem takeNewline_headPart {z : Text} (hz : visible z.takeNewline.2 ≠ []) (w : Text) :
    takeNewline (z.takeNewline.1 ++ (headPart z.takeNewline.2 ++ w)) =
      (z.takeNewline.1, headPart z.takeNewline.2 ++ w) := by
  cases z with
  | nil => exact absurd rfl hz
  | cons c z =>
    by_cases hc : c = '\n'
    · rw [hc]
      rfl
    · obtain ⟨z', hz'⟩ := exists_headPart_cons hc z
      rw [takeNewline_of_ne hc, hz']
      exact takeNewline_of_ne hc _

end PageCache.Region
