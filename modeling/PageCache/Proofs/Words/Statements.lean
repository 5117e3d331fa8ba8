import PageCache.Proofs.Words.Tokens

/-! Directives among the words of rules. A text in a directive is its argument only if it is read as
one word, and then the place where the reading stands behind it is known. -/
namespace PageCache

/-- A directive, by its name and its arguments, and the mark that ends it. -/
structure Statement where
  words : List Text
  ending : Char
  deriving DecidableEq, Repr

/-- The directives of tokens after words that have been read. Words that no mark ends are none. -/
def statements : List Text → List Token → List Statement
  | _, [] => []
  | ws, .word t :: ts => statements (ws ++ [t]) ts
  | ws, .mark c :: ts => ⟨ws, c⟩ :: statements [] ts

theorem statements_words (ws xs : List Text) (ts : List Token) :
    statements ws (xs.map .word ++ ts) = statements (ws ++ xs) ts := by
  induction xs generalizing ws with
  | nil => simp
  | cons x xs ih => simp [statements, ih]

theorem statements_cases (ws : List Text) (ts : List Token) :
    statements ws ts = [] ∨ ∃ args c us, ts = args.map .word ++ .mark c :: us ∧
      statements ws ts = ⟨ws ++ args, c⟩ :: statements [] us := by
  induction ts generalizing ws with
  | nil => exact .inl rfl
  | cons t ts ih =>
    cases t with
    | word x =>
      refine (ih (ws ++ [x])).imp id fun h => ?_
      obtain ⟨args, c, us, rfl, hs⟩ := h
      exact ⟨x :: args, c, us, rfl, by rw [statements, hs, List.append_assoc, List.singleton_append]⟩
    | mark c => exact .inr ⟨[], c, ts, rfl, by rw [statements, List.append_nil]⟩

namespace Lexicon

variable {L : Lexicon} {x y e w rest : Text} {ts us : List Token} {ss ss' : List Statement}
  {c q : Char}

/-- What a character adds to the tokens, and the place behind it. -/
def step (L : Lexicon) : Place → Char → List Token × Place
  | .gap, c =>
    if L.cuts false c then (L.cutTokens c, .gap)
    else if isQuote c then ([], .quoted c [] false)
    else if L.opensComment c then ([], .comment)
    else ([], .bare [c] (L.escapes false c))
  | .comment, c => if Text.isNewline c then (L.cutTokens c, .gap) else ([], .comment)
  | .bare read escaped, c =>
    if L.cuts escaped c then (.word read :: L.cutTokens c, .gap)
    else ([], .bare (read ++ [c]) (L.escapes escaped c))
  | .quoted quote read escaped, c =>
    if L.hard c then ([.word read, .mark c], .gap)
    else if L.closes quote escaped c then ([.word read], .gap)
    else ([], .quoted quote (read ++ [c]) (L.escapes escaped c))

/-- The tokens of a beginning of a text, and the place behind it. -/
def run (L : Lexicon) : Place → Text → List Token × Place
  | p, [] => ([], p)
  | p, c :: t => ((L.step p c).1 ++ (run L (L.step p c).2 t).1, (run L (L.step p c).2 t).2)

theorem tokens_cons (p : Place) (c : Char) (t : Text) :
    L.tokens p (c :: t) = (L.step p c).1 ++ L.tokens (L.step p c).2 t := by
  cases p <;> simp only [tokens, step] <;> split_ifs <;> simp

theorem tokens_append (p : Place) (t u : Text) :
    L.tokens p (t ++ u) = (L.run p t).1 ++ L.tokens (L.run p t).2 u := by
  induction t generalizing p with
  | nil => rfl
  | cons c t ih => rw [List.cons_append, tokens_cons, ih, run, List.append_assoc]

theorem run_append (p : Place) (t u : Text) :
    L.run p (t ++ u) =
      ((L.run p t).1 ++ (L.run (L.run p t).2 u).1, (L.run (L.run p t).2 u).2) := by
  induction t generalizing p with
  | nil => rfl
  | cons c t ih => simp [run, ih]

theorem run_ne_comment (hL : L.comments = false) {p : Place} (hp : p ≠ .comment) (t : Text) :
    (L.run p t).2 ≠ .comment := by
  induction t generalizing p with
  | nil => exact hp
  | cons c t ih =>
    refine ih ?_
    cases p with
    | comment => exact absurd rfl hp
    | gap =>
      rw [step]
      split_ifs with hcut hquote hcomment
      · simp
      · simp
      · simp [opensComment, hL] at hcomment
      · simp
    | bare read escaped =>
      rw [step]
      split_ifs <;> simp
    | quoted q read escaped =>
      rw [step]
      split_ifs <;> simp

/-- A text before a mark is no word if nothing of it is left of the reading. -/
theorem run_ne_of_word (hcut : L.cuts false c = true) (hmark : L.cutTokens c = [.mark c])
    (h : L.tokens .gap (x ++ c :: rest) = .word w :: ts) : L.run .gap x ≠ ([], .gap) := by
  intro hrun
  rw [tokens_append, hrun, tokens_cons, step, if_pos hcut, hmark] at h
  cases h

/-- Nor is it a comment if a word follows that starts no comment. -/
theorem run_ne_comment_of_word {v : Text} {p : Place} (hv : L.run .comment v = ([.word y], p))
    (hy : L.run .gap y ≠ ([], .comment)) (h : L.tokens .gap (x ++ (v ++ rest)) = .word x :: ts) :
    L.run .gap x ≠ ([], .comment) := by
  intro hrun
  rw [tokens_append, hrun, List.nil_append, tokens_append, hv, List.singleton_append,
    List.cons.injEq, Token.word.injEq] at h
  obtain rfl := h.1
  exact hy hrun

theorem Exactly.of_run (h : L.run .gap x = (ts, .gap)) : L.Exactly x ts True :=
  ⟨fun _ rest => by rw [tokens_append, h], fun hfalse => absurd trivial hfalse⟩

def directives (L : Lexicon) (t : Text) : List Statement := statements [] (L.tokens .gap t)

/-- The directive that starts with fixed words has what follows them as its arguments, if it ends. -/
theorem directives_cases {ws : List Text} (hfront : L.run .gap x = (ws.map .word, .gap)) (y : Text) :
    L.directives (x ++ y) = [] ∨ ∃ args e us, L.tokens .gap y = args.map .word ++ .mark e :: us ∧
      L.directives (x ++ y) = ⟨ws ++ args, e⟩ :: statements [] us := by
  have hdirectives : L.directives (x ++ y) = statements ws (L.tokens .gap y) := by
    rw [directives, tokens_append, hfront, statements_words, List.nil_append]
  rw [hdirectives]
  exact statements_cases ws _

/-- A beginning of a text that is read as whole directives whatever follows it. -/
def Says (L : Lexicon) (x : Text) (ss : List Statement) : Prop :=
  ∀ rest, L.directives (x ++ rest) = ss ++ L.directives rest

namespace Says

theorem nil : L.Says [] [] := fun _ => rfl

theorem append (hx : L.Says x ss) (hy : L.Says y ss') : L.Says (x ++ y) (ss ++ ss') := by
  intro rest
  rw [List.append_assoc, hx, hy, List.append_assoc]

theorem directives_eq (h : L.Says x ss) : L.directives x = ss := by
  have hx := h []
  rwa [List.append_nil, show L.directives [] = [] from rfl, List.append_nil] at hx

theorem of_run (ts : List Token) (h : L.run .gap x = (ts, .gap))
    (hts : ∀ us, statements [] (ts ++ us) = ss ++ statements [] us) : L.Says x ss := by
  intro rest
  rw [directives, tokens_append, h, hts]
  rfl

/-- A text that is read as one directive, words and mark. -/
theorem fixed (ws : List Text) (h : L.run .gap x = (ws.map .word ++ [.mark c], .gap)) :
    L.Says x [⟨ws, c⟩] :=
  of_run _ h fun us => by
    rw [List.append_assoc, statements_words]
    rfl

/-- The fixed words of a directive, its last argument and the mark that ends it. -/
theorem line {front : Text} {ws : List Text} {v : Word} (hL : L.Usual)
    (hfront : L.run .gap front = (ws.map .word, .gap)) (hv : v.reads L = true)
    (hne : v.quoted = true ∨ v.text ≠ []) (hcut : L.cuts false c = true)
    (hmark : L.cutTokens c = [.mark c]) :
    L.Says (front ++ (v.render ++ [c])) [⟨ws ++ [v.text], c⟩] := by
  intro rest
  rw [directives, List.append_assoc, tokens_append, hfront, Reads.word hL hv hne hcut, hmark,
    statements_words]
  rfl

end Says

theorem run_bare_cases (read : Text) (escaped : Bool) (e : Text) :
    L.run (.bare read escaped) e = ([], .bare (read ++ e) (L.escapedAfter escaped e)) ∧
        L.uncut escaped e = true ∨
      ∃ u us, (L.run (.bare read escaped) e).1 = .word (read ++ u) :: us ∧ u.length < e.length := by
  induction e generalizing read escaped with
  | nil => exact .inl ⟨by rw [run, List.append_nil]; rfl, rfl⟩
  | cons c e ih =>
    by_cases hcut : L.cuts escaped c = true
    · refine .inr ⟨[], L.cutTokens c ++ (L.run .gap e).1, ?_, by simp⟩
      rw [run, step, if_pos hcut, List.append_nil]
      rfl
    · have hstep : L.step (.bare read escaped) c =
          ([], .bare (read ++ [c]) (L.escapes escaped c)) := by rw [step, if_neg hcut]
      rw [run, hstep]
      rcases ih (read ++ [c]) (L.escapes escaped c) with ⟨hrun, huncut⟩ | ⟨u, us, hrun, hlen⟩
      · exact .inl ⟨by simp [hrun, escapedAfter], by simpa [hcut] using huncut⟩
      · exact .inr ⟨c :: u, us, by simp [hrun], by simpa using hlen⟩

theorem run_quoted_cases (q : Char) (read : Text) (escaped : Bool) (e : Text) :
    (∃ escaped', L.run (.quoted q read escaped) e = ([], .quoted q (read ++ e) escaped')) ∨
      ∃ u us, (L.run (.quoted q read escaped) e).1 = .word (read ++ u) :: us ∧
        u.length < e.length := by
  induction e generalizing read escaped with
  | nil => exact .inl ⟨escaped, by rw [run, List.append_nil]⟩
  | cons c e ih =>
    rw [run, step]
    split_ifs
    · exact .inr ⟨[], .mark c :: (L.run .gap e).1, by simp, by simp⟩
    · exact .inr ⟨[], (L.run .gap e).1, by simp, by simp⟩
    · rcases ih (read ++ [c]) (L.escapes escaped c) with ⟨escaped', hrun⟩ | ⟨u, us, hrun, hlen⟩
      · exact .inl ⟨escaped', by simp [hrun]⟩
      · exact .inr ⟨c :: u, us, by simp [hrun], by simpa using hlen⟩

theorem unclosed_of_tokens_quoted {read : Text} {escaped : Bool} {t : Text}
    (h : L.tokens (.quoted q read escaped) t = .word x :: ts) :
    ∃ u rest, x = read ++ u ∧ t = u ++ rest ∧ L.unclosed q escaped u = true ∧
      ∀ c ∈ rest.head?, L.hard c = true ∨ L.closes q (L.escapedAfter escaped u) c = true := by
  induction t generalizing read escaped with
  | nil =>
    cases h
    exact ⟨[], [], by simp, rfl, rfl, by simp⟩
  | cons c t ih =>
    rw [tokens] at h
    split_ifs at h with hhard hcloses
    · cases h
      exact ⟨[], c :: t, by simp, rfl, rfl, by simp [hhard]⟩
    · cases h
      exact ⟨[], c :: t, by simp, rfl, rfl, by simpa [escapedAfter] using .inr hcloses⟩
    · obtain ⟨u, rest, rfl, rfl, hunclosed, hend⟩ := ih h
      refine ⟨c :: u, rest, by simp, rfl, ?_, hend⟩
      simpa [hhard, hcloses] using hunclosed

/-- How far a beginning of a text is read: nothing in it starts a word, its last part is in a word
that has no end in it, or it has a first token. -/
inductive Begun (L : Lexicon) (p : Place) (e : Text) : Prop
  | skipped (h : L.run p e = ([], .gap) ∨ L.run p e = ([], .comment))
  | bare (b : Text) (c : Char) (r : Text) (he : e = b ++ c :: r) (hb : L.run p b = ([], .gap))
      (hstep : L.step .gap c = ([], .bare [c] (L.escapes false c)))
      (huncut : L.uncut (L.escapes false c) r = true)
  | quoted (b : Text) (q : Char) (r : Text) (he : e = b ++ q :: r) (hb : L.run p b = ([], .gap))
      (hstep : L.step .gap q = ([], .quoted q [] false))
  | ended (t : Token) (us : List Token) (h : (L.run p e).1 = t :: us)
      (hlen : ∀ x, t = .word x → x.length < e.length)

theorem Begun.cons {p p' : Place} (hstep : L.step p c = ([], p')) (h : L.Begun p' e) :
    L.Begun p (c :: e) := by
  have hrun : ∀ t, L.run p (c :: t) = L.run p' t := fun t => by simp [run, hstep]
  cases h with
  | skipped h => exact .skipped (by rwa [hrun])
  | bare b d r he hb hd huncut => exact .bare (c :: b) d r (by simp [he]) (by rwa [hrun]) hd huncut
  | quoted b q r he hb hq => exact .quoted (c :: b) q r (by simp [he]) (by rwa [hrun]) hq
  | ended t us h hlen =>
    exact .ended t us (by rwa [hrun]) fun x hx => (hlen x hx).trans (by simp)

theorem begun (L : Lexicon) (e : Text) : L.Begun .gap e ∧ L.Begun .comment e := by
  induction e with
  | nil => exact ⟨.skipped (.inl rfl), .skipped (.inr rfl)⟩
  | cons c e ih =>
    have hcut : ∀ {p}, L.step p c = (L.cutTokens c, .gap) → L.Begun p (c :: e) := fun {p} hstep => by
      by_cases hmark : (L.hard c || L.mark c) = true
      · have htokens : L.cutTokens c = [.mark c] := by rw [cutTokens, if_pos hmark]
        exact .ended (.mark c) (L.run .gap e).1 (by simp [run, hstep, htokens]) fun x hx => by cases hx
      · exact .cons (by rw [hstep, cutTokens, if_neg hmark]) ih.1
    constructor
    · by_cases hc : L.cuts false c = true
      · exact hcut (by rw [step, if_pos hc])
      by_cases hquote : isQuote c = true
      · have hstep : L.step .gap c = ([], .quoted c [] false) := by
          rw [step, if_neg hc, if_pos hquote]
        rcases L.run_quoted_cases c [] false e with ⟨_, _⟩ | ⟨u, us, hrun, hlen⟩
        · exact .quoted [] c e rfl rfl hstep
        · refine .ended (.word u) us (by simp [run, hstep, hrun]) fun x hx => ?_
          cases hx
          exact hlen.trans (by simp)
      by_cases hcomment : L.opensComment c = true
      · exact .cons (by rw [step, if_neg hc, if_neg hquote, if_pos hcomment]) ih.2
      · have hstep : L.step .gap c = ([], .bare [c] (L.escapes false c)) := by
          rw [step, if_neg hc, if_neg hquote, if_neg hcomment]
        rcases L.run_bare_cases [c] (L.escapes false c) e with ⟨_, huncut⟩ | ⟨u, us, hrun, hlen⟩
        · exact .bare [] c e rfl rfl hstep huncut
        · refine .ended (.word (c :: u)) us (by simp [run, hstep, hrun]) fun x hx => ?_
          cases hx
          simpa using hlen
    · by_cases hnewline : Text.isNewline c = true
      · exact hcut (by rw [step, if_pos hnewline])
      · exact .cons (by rw [step, if_neg hnewline]) ih.2

/-- What does not cut is read as part of a word or of a comment. -/
theorem run_concat_ne_gap (hcut : ∀ escaped, L.cuts escaped c = false)
    (hnewline : Text.isNewline c = false) (x : Text) : L.run .gap (x ++ [c]) ≠ ([], .gap) := by
  intro h
  rw [run_append, Prod.mk.injEq, List.append_eq_nil_iff] at h
  obtain ⟨⟨-, htokens⟩, hplace⟩ := h
  simp only [run, List.append_nil] at htokens hplace
  cases hp : (L.run .gap x).2 with
  | gap =>
    rw [hp, step, if_neg (by simp [hcut])] at hplace
    split_ifs at hplace
  | comment =>
    rw [hp, step, if_neg (by simp [hnewline])] at hplace
    cases hplace
  | bare read escaped =>
    rw [hp, step, if_neg (by simp [hcut])] at hplace
    cases hplace
  | quoted q read escaped =>
    rw [hp, step] at htokens hplace
    split_ifs at htokens hplace

/-- Nothing is protected where no word has started. -/
theorem escapedAfter_of_run (hL : ∀ escaped, L.cuts escaped '\\' = false) {b : Text}
    (h : L.run .gap b = ([], .gap)) : L.escapedAfter false b = false := by
  by_cases hne : b = []
  · rw [hne]
    rfl
  · refine escapedAfter_of_getLast?_ne hne fun hlast => ?_
    obtain ⟨b, rfl⟩ := List.getLast?_eq_some_iff.1 hlast
    exact run_concat_ne_gap hL (by decide) b h

/-- A beginning of the first word of a text is skipped, or the word starts with it at once: no quotes
stand before it. -/
theorem begun_of_word (hL : ∀ escaped, L.cuts escaped '\\' = false) (hbegins : e <+: x)
    (h : L.tokens .gap (e ++ w) = .word x :: ts) :
    (L.run .gap e = ([], .gap) ∨ L.run .gap e = ([], .comment)) ∨
      ∃ c r, e = c :: r ∧ L.step .gap c = ([], .bare [c] (L.escapes false c)) ∧
        L.uncut (L.escapes false c) r = true := by
  cases (L.begun e).1 with
  | skipped h => exact .inl h
  | bare b c r he hb hstep huncut =>
    refine .inr ⟨c, r, ?_, hstep, huncut⟩
    cases b with
    | nil => exact he
    | cons d b =>
      -- The word starts with the character of the gap, which is no start of a word.
      exfalso
      have hrest : L.tokens .gap (e ++ w) = L.tokens (.bare [c] (L.escapes false c)) (r ++ w) := by
        rw [he, List.append_assoc, tokens_append, hb, List.cons_append, tokens_cons, hstep]
        rfl
      obtain ⟨y, us, hy⟩ := L.exists_word_bare [c] (L.escapes false c) (r ++ w)
      rw [hrest, hy] at h
      cases h
      rw [he] at hbegins
      obtain rfl : d = c := (List.cons_prefix_cons.1 hbegins).1
      rw [run, hstep] at hb
      rcases L.run_bare_cases [d] (L.escapes false d) b with ⟨hrun, -⟩ | ⟨u, us, hrun, -⟩
      · simp [hrun] at hb
      · simp [hrun] at hb
  | quoted b q r he hb hstep =>
    exfalso
    have hrest : L.tokens .gap (e ++ w) = L.tokens (.quoted q [] false) (r ++ w) := by
      rw [he, List.append_assoc, tokens_append, hb, List.cons_append, tokens_cons, hstep]
      rfl
    rw [hrest] at h
    obtain ⟨u, rest, rfl, -, hunclosed, -⟩ := unclosed_of_tokens_quoted h
    obtain ⟨z, hz⟩ := hbegins
    rw [← hz, he, List.append_assoc, List.cons_append, unclosed_append,
      escapedAfter_of_run hL hb, unclosed] at hunclosed
    simp [closes] at hunclosed
  | ended t us ht hlen =>
    rw [tokens_append, ht, List.cons_append, List.cons.injEq] at h
    exact absurd (hlen x h.1) (by simpa using hbegins.length_le)

theorem tokens_of_step {r : Text} (hstep : L.step .gap c = ([], .bare [c] (L.escapes false c)))
    (huncut : L.uncut (L.escapes false c) r = true) (w : Text) :
    L.tokens .gap (c :: r ++ w) = L.tokens (.bare (c :: r) (L.escapedAfter false (c :: r))) w := by
  rw [List.cons_append, tokens_cons, hstep, List.nil_append, tokens_bare_of_uncut huncut]
  rfl

/-- A text before a character that cuts is read back if it is the first word. -/
theorem reads_of_word (hL : ∀ escaped, L.cuts escaped '\\' = false)
    (hend : L.escapesCut = false ∨ L.hard c = false)
    (hgap : L.run .gap x ≠ ([], .gap)) (hcomment : L.run .gap x ≠ ([], .comment))
    (h : L.tokens .gap (x ++ c :: rest) = .word x :: ts) : (Word.bare x).reads L = true := by
  obtain ⟨d, r, rfl, hstep, huncut⟩ := (begun_of_word hL List.prefix_rfl h).resolve_left
    fun hskip => hskip.elim hgap hcomment
  have hrest := tokens_of_step hstep huncut (c :: rest)
  have hescaped : (L.escapesCut && L.escapedAfter false (d :: r)) = false := by
    by_contra hne
    rw [Bool.not_eq_false] at hne
    have hcuts : L.cuts (L.escapedAfter false (d :: r)) c = false := by
      have hhard := hend.resolve_left fun hnone => by simp [hnone] at hne
      rw [cuts, hhard, hne]
      rfl
    rw [hrest, tokens, if_neg (by simp [hcuts])] at h
    obtain ⟨y, us, hy⟩ := L.exists_word_bare (d :: r ++ [c])
      (L.escapes (L.escapedAfter false (d :: r)) c) rest
    rw [hy] at h
    simp at h
  have hhead : L.cuts false d = false ∧ isQuote d = false ∧ L.opensComment d = false := by
    rw [step] at hstep
    split_ifs at hstep with hcut hquote hcomment
    · simp at hstep
    · simp at hstep
    · simp at hstep
    · exact ⟨by simpa using hcut, by simpa using hquote, by simpa using hcomment⟩
  simp [Word.reads, Word.bare, opens, hhead, huncut, hescaped]

/-- A text between quotes is read back if it is the first word. -/
theorem reads_of_quoted_word (hhard : L.hard '"' = false)
    (h : L.tokens (.quoted '"' [] false) (x ++ '"' :: rest) = .word x :: ts) :
    (Word.inQuotes x).reads L = true := by
  obtain ⟨u, rest', rfl, hrest, hunclosed, hend⟩ := unclosed_of_tokens_quoted h
  obtain rfl : '"' :: rest = rest' := List.append_cancel_left hrest
  have hcloses := (hend '"' rfl).resolve_left (by simp [hhard])
  simpa [Word.reads, Word.inQuotes, closes, hunclosed] using hcloses

theorem not_hard_of_uncut {escaped : Bool} (h : L.uncut escaped x = true) :
    ∀ c ∈ x, L.hard c = false := by
  induction x generalizing escaped with
  | nil => simp
  | cons c x ih =>
    simp only [uncut, cuts, Bool.and_eq_true, Bool.not_eq_true', Bool.or_eq_false_iff] at h
    exact List.forall_mem_cons.2 ⟨h.1.1, ih h.2⟩

theorem not_hard_of_unclosed {escaped : Bool} (h : L.unclosed q escaped x = true) :
    ∀ c ∈ x, L.hard c = false := by
  induction x generalizing escaped with
  | nil => simp
  | cons c x ih =>
    simp only [unclosed, Bool.and_eq_true, Bool.not_eq_true', Bool.or_eq_false_iff] at h
    exact List.forall_mem_cons.2 ⟨h.1.1, ih h.2⟩

def Place.read : Place → Text
  | .bare read _ | .quoted _ read _ => read
  | _ => []

theorem step_cases (p : Place) (c : Char) :
    (∀ x, .word x ∈ (L.step p c).1 → x = p.read) ∧
      ((L.step p c).2.read = [] ∨ (L.step p c).2.read = p.read ++ [c] ∧ L.hard c = false) := by
  have hcut : ∀ x, .word x ∉ L.cutTokens c := fun x => by
    rw [cutTokens]
    split_ifs <;> simp
  have hhard : ∀ escaped, ¬L.cuts escaped c = true → L.hard c = false := fun escaped h => by
    simp only [cuts, Bool.or_eq_true, not_or, Bool.not_eq_true] at h
    exact h.1
  cases p with
  | gap =>
    rw [step]
    split_ifs with h
    · exact ⟨fun x hx => absurd hx (hcut x), .inl rfl⟩
    · exact ⟨by simp, .inl rfl⟩
    · exact ⟨by simp, .inl rfl⟩
    · exact ⟨by simp, .inr ⟨rfl, hhard _ h⟩⟩
  | comment =>
    rw [step]
    split_ifs <;> simp [Place.read, hcut]
  | bare read escaped =>
    rw [step]
    split_ifs with h
    · refine ⟨fun x hx => ?_, .inl rfl⟩
      rcases List.mem_cons.1 hx with hx | hx
      · exact Token.word.inj hx
      · exact absurd hx (hcut x)
    · exact ⟨by simp, .inr ⟨rfl, hhard _ h⟩⟩
  | quoted q read escaped =>
    rw [step]
    split_ifs with h <;> simp_all [Place.read]

theorem not_hard_of_mem_tokens {p : Place} {t : Text} (hp : ∀ c ∈ p.read, L.hard c = false)
    (hx : .word x ∈ L.tokens p t) : ∀ c ∈ x, L.hard c = false := by
  induction t generalizing p with
  | nil =>
    cases p with
    | gap => cases hx
    | comment => cases hx
    | bare read escaped =>
      cases List.mem_singleton.1 hx
      exact hp
    | quoted q read escaped =>
      cases List.mem_singleton.1 hx
      exact hp
  | cons d t ih =>
    obtain ⟨htokens, hread⟩ := L.step_cases p d
    rw [tokens_cons, List.mem_append] at hx
    rcases hx with hx | hx
    · rwa [htokens x hx]
    · refine ih ?_ hx
      rcases hread with hread | ⟨hread, hd⟩
      · simp [hread]
      · simpa [hread, or_imp, forall_and] using ⟨hp, hd⟩

end Lexicon
end PageCache
