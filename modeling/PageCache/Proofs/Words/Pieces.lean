import PageCache.Proofs.Path.Template
import PageCache.Proofs.Text.Pieces
import PageCache.Proofs.Words.Tokens
import PageCache.Tenant
import PageCache.Variant

/-! Words that texts of a configuration go into as they are. A property of words that looks at these
texts one by one holds of a pattern, an alternation or a path exactly if it holds of its pieces. -/
namespace PageCache

namespace Lexicon

variable (L : Lexicon)

/-- The character is nothing special to a server. -/
def isPlain (c : Char) : Bool := !L.cuts false c && !isQuote c && c != '\\' && c != '#'

/-- The punctuation between the pieces of patterns and paths. -/
def isBreak (c : Char) : Bool := c == '(' || c == ')' || c == '|' || c == '/'

/-- The characters of what surrounds the pieces of a pattern. -/
def glue : Text := "!(|)/^.*$pgc_referrer="

/-- The characters that some server reads in a special way. -/
def special : List Char :=
  [' ', '\t', '\x0b', '\x0c', '\r', '\n', ';', '\x7b', '\x7d', '"', '\'', '\\', '#']

/-- The text is one piece after plain characters and before a break. -/
inductive Frames : Text → Text → Prop
  | intro (lead u : Text) (c : Char) (rest : Text) (hne : lead ≠ [])
      (hlead : ∀ d ∈ lead, L.isPlain d = true) (hc : isBreak c = true)
      (hrest : ∀ d ∈ c :: rest, L.isPlain d = true) : Frames (lead ++ (u ++ c :: rest)) u

/-- The property looks at the pieces between breaks one by one. -/
structure Splits (S : Text → Prop) : Prop where
  plain : ∀ {t}, (∀ c ∈ t, L.isPlain c = true) → S t
  split : ∀ {a b c}, isBreak c = true → L.isPlain c = true → (S (a ++ c :: b) ↔ S a ∧ S b)

end Lexicon

/-- The word is the same whatever the configuration is: a server reads it as it is, and no comment
starts in it. -/
structure Word.Fixed (L : Lexicon) (w : Word) : Prop where
  reads : w.reads L = true
  starts : w.Starts L
  no_comment : '#' ∉ w.text

instance (L : Lexicon) (w : Word) : Decidable (w.Fixed L) :=
  decidable_of_iff (w.reads L = true ∧ w.Starts L ∧ '#' ∉ w.text)
    ⟨fun h => ⟨h.1, h.2.1, h.2.2⟩, fun h => ⟨h.1, h.2, h.3⟩⟩

namespace Lexicon

/-- What stands around the pieces of patterns, and what names are made of, is plain. -/
structure Spares (L : Lexicon) : Prop where
  glue : glue.all L.isPlain = true
  name : ∀ c, c.isAlphanum = true ∨ c = '_' ∨ c = '-' → L.isPlain c = true

/-- A property of words comes down to properties of the pieces of patterns and paths. `mk` makes a
word of a pattern. -/
structure Criterion (L : Lexicon) (mk : Text → Word) (R : Word → Prop) (S T : Text → Prop) :
    Prop where
  fixed : ∀ {w : Word}, w.Fixed L → R w
  pattern : ∀ {t u}, L.Frames t u → (R (mk t) ↔ S u)
  path : ∀ (lead : Text) {u rest : Text}, (∀ c ∈ lead, L.isPlain c = true) →
    (∀ c ∈ '/' :: rest, L.isPlain c = true) → (R (.inQuotes (lead ++ (u ++ '/' :: rest))) ↔ T u)
  inPattern : L.Splits S
  inPath : L.Splits T

variable {L : Lexicon} {mk : Text → Word} {R : Word → Prop} {S T : Text → Prop} {t u : Text}
  {c q : Char} {escaped : Bool}

theorem Criterion.forall_of_fixed (hR : L.Criterion mk R S T) {ws : List Word}
    (h : ∀ w ∈ ws, w.Fixed L) : ∀ w ∈ ws, R w := fun w hw => hR.fixed (h w hw)

theorem Criterion.forall_words_of_fixed (hR : L.Criterion mk R S T) {α : Type} {xs : List α}
    {words : α → List Word} (h : ∀ x ∈ xs, ∀ w ∈ words x, w.Fixed L) :
    ∀ x ∈ xs, ∀ w ∈ words x, R w := fun x hx => hR.forall_of_fixed (h x hx)

theorem Spares.of_special (hglue : Lexicon.glue.all L.isPlain = true)
    (h : ∀ c, L.isPlain c = false → special.contains c = true) : L.Spares where
  glue := hglue
  name c hc := by
    by_contra hplain
    have hnone : special.all (fun c => !(c.isAlphanum || c == '_' || c == '-')) = true := by decide
    have hname := List.all_eq_true.1 hnone c
      (List.contains_iff_mem.1 (h c (Bool.eq_false_iff.2 hplain)))
    simp only [Bool.not_eq_true', Bool.or_eq_false_iff, beq_eq_false_iff_ne] at hname
    rcases hc with hc | hc | hc
    · simp [hc] at hname
    · exact hname.1.2 hc
    · exact hname.2 hc

theorem Spares.isPlain (hL : L.Spares) (h : t.all (Lexicon.glue.contains ·) = true) :
    ∀ d ∈ t, L.isPlain d = true := fun d hd =>
  List.all_eq_true.1 hL.glue d (List.contains_iff_mem.1 (List.all_eq_true.1 h d hd))

theorem Spares.isPlain_break (hL : L.Spares) (h : isBreak c = true) : L.isPlain c = true := by
  have hc : c = '(' ∨ c = ')' ∨ c = '|' ∨ c = '/' := by simpa [isBreak, or_assoc] using h
  refine List.all_eq_true.1 hL.glue c ?_
  rcases hc with rfl | rfl | rfl | rfl <;> decide

theorem not_cuts_of_isPlain (h : L.isPlain c = true) (escaped : Bool) :
    L.cuts escaped c = false := by
  cases escaped <;> simp_all [isPlain, cuts]

theorem not_isQuote_of_isPlain (h : L.isPlain c = true) : isQuote c = false := by
  simp_all [isPlain]

theorem not_escapes_of_isPlain (h : L.isPlain c = true) (escaped : Bool) :
    L.escapes escaped c = false := by
  simp_all [isPlain, escapes]

theorem not_opens_of_isPlain (h : L.isPlain c = true) : L.opens c = false := by
  simp_all [isPlain, opens, opensComment]

theorem starts_of_isPlain (h : L.isPlain c = true) : (Word.bare (c :: t)).Starts L := by
  have hcuts := not_cuts_of_isPlain h false
  have hopens := not_opens_of_isPlain h
  simp only [cuts, opens, Bool.or_eq_false_iff] at hcuts hopens
  refine .inr ?_
  simp_all [Word.bare]

theorem ne_hash_of_isPlain (h : L.isPlain c = true) : c ≠ '#' := by
  simp_all [isPlain]

theorem not_closes_of_isPlain (h : L.isPlain c = true) (escaped : Bool) :
    (L.hard c || L.closes '"' escaped c) = false := by
  have hquote := not_isQuote_of_isPlain h
  have hhard : L.hard c = false := by simp_all [isPlain, cuts]
  simp_all [isQuote, closes]

theorem uncut_of_forall_isPlain (h : ∀ c ∈ t, L.isPlain c = true) (escaped : Bool) :
    L.uncut escaped t = true := by
  induction t generalizing escaped with
  | nil => rfl
  | cons c t ih =>
    obtain ⟨hc, ht⟩ := List.forall_mem_cons.1 h
    simp [not_cuts_of_isPlain hc, ih ht]

theorem unclosed_of_forall_isPlain (h : ∀ c ∈ t, L.isPlain c = true) (escaped : Bool) :
    L.unclosed '"' escaped t = true := by
  induction t generalizing escaped with
  | nil => rfl
  | cons c t ih =>
    obtain ⟨hc, ht⟩ := List.forall_mem_cons.1 h
    rw [unclosed, not_closes_of_isPlain hc, ih ht]
    rfl

theorem not_escapedAfter_of_forall_isPlain (h : ∀ c ∈ t, L.isPlain c = true) (hne : t ≠ []) :
    L.escapedAfter escaped t = false := by
  refine escapedAfter_of_getLast?_ne hne fun hlast => ?_
  have hplain := h _ (List.mem_of_getLast? hlast)
  simp [isPlain] at hplain

theorem not_escapedAfter_false_of_forall_isPlain (h : ∀ c ∈ t, L.isPlain c = true) :
    L.escapedAfter false t = false := by
  by_cases hne : t = []
  · rw [hne]
    rfl
  · exact not_escapedAfter_of_forall_isPlain h hne

theorem splits_uncut (L : Lexicon) : L.Splits (L.uncut false · = true) where
  plain h := uncut_of_forall_isPlain h false
  split _ h := by
    simp [uncut_append, not_cuts_of_isPlain h, not_escapes_of_isPlain h]

theorem splits_unclosed (L : Lexicon) : L.Splits (L.unclosed '"' false · = true) where
  plain h := unclosed_of_forall_isPlain h false
  split _ h := by
    simp [unclosed_append, not_closes_of_isPlain h, not_escapes_of_isPlain h]

theorem splits_true (L : Lexicon) : L.Splits fun _ => True where
  plain _ := trivial
  split _ _ := by simp

/-- A text that is not quoted is read back if its piece has nothing that cuts it. -/
theorem Frames.reads_bare_iff (h : L.Frames t u) :
    (Word.bare t).reads L = true ↔ L.uncut false u = true := by
  obtain ⟨lead, u, c, rest, hne, hlead, hc, hrest⟩ := h
  obtain ⟨d, lead, rfl⟩ := List.exists_cons_of_ne_nil hne
  have hopens : L.opens d = false := not_opens_of_isPlain (hlead d List.mem_cons_self)
  have hlast : L.escapedAfter false ((d :: lead) ++ (u ++ c :: rest)) = false := by
    rw [← List.append_assoc, escapedAfter_append]
    exact not_escapedAfter_of_forall_isPlain hrest (by simp)
  have huncut : L.uncut false ((d :: lead) ++ (u ++ c :: rest)) = L.uncut false u := by
    rw [uncut_append, uncut_of_forall_isPlain hlead,
      not_escapedAfter_false_of_forall_isPlain hlead, uncut_append, uncut_of_forall_isPlain hrest,
      Bool.true_and, Bool.and_true]
  simp only [Word.reads, Word.bare, hlast, huncut]
  simp [hopens]

/-- A text between quotes is read back if its piece has nothing that closes it. -/
theorem reads_inQuotes_iff (lead : Text) {u rest : Text} (hlead : ∀ d ∈ lead, L.isPlain d = true)
    (hrest : ∀ d ∈ c :: rest, L.isPlain d = true) :
    (Word.inQuotes (lead ++ (u ++ c :: rest))).reads L = true ↔ L.unclosed '"' false u = true := by
  have hlast : L.escapedAfter false (lead ++ (u ++ c :: rest)) = false := by
    rw [← List.append_assoc, escapedAfter_append]
    exact not_escapedAfter_of_forall_isPlain hrest (by simp)
  have hunclosed : L.unclosed '"' false (lead ++ (u ++ c :: rest)) = L.unclosed '"' false u := by
    rw [unclosed_append, unclosed_of_forall_isPlain hlead,
      not_escapedAfter_false_of_forall_isPlain hlead, unclosed_append,
      unclosed_of_forall_isPlain hrest, Bool.true_and, Bool.and_true]
  simp [Word.reads, Word.inQuotes, hlast, hunclosed]

/-- Quotes are read at the start of a word only, and only its last backslash protects what follows. -/
theorem reads_bare_iff (hhead : t.head?.any L.opens = false) (hlast : t.getLast? ≠ some '\\') :
    (Word.bare t).reads L = true ↔ L.uncut false t = true := by
  have hescaped : L.escapedAfter false t = false := by
    by_cases hne : t = []
    · rw [hne]
      rfl
    · exact escapedAfter_of_getLast?_ne hne hlast
  simp [Word.reads, Word.bare, hhead, hescaped]

theorem Frames.starts_bare (h : L.Frames t u) : (Word.bare t).Starts L := by
  obtain ⟨lead, u, c, rest, hne, hlead, hc, hrest⟩ := h
  obtain ⟨d, lead, rfl⟩ := List.exists_cons_of_ne_nil hne
  exact starts_of_isPlain (hlead d List.mem_cons_self)

theorem Frames.negated (hL : L.Spares) (h : L.Frames t u) : L.Frames ('!' :: t) u := by
  obtain ⟨lead, u, c, rest, hne, hlead, hc, hrest⟩ := h
  exact .intro ('!' :: lead) u c rest (by simp)
    (List.forall_mem_cons.2 ⟨hL.isPlain (t := ['!']) (by decide) _ List.mem_cons_self, hlead⟩) hc hrest

/-- A piece between quotes in the text of a word that has no quotes of its own. -/
theorem Frames.reads_inQuotes_iff (h : L.Frames t u) :
    (Word.inQuotes t).reads L = true ↔ L.unclosed '"' false u = true := by
  obtain ⟨lead, u, c, rest, hne, hlead, hc, hrest⟩ := h
  exact Lexicon.reads_inQuotes_iff lead hlead hrest

theorem fixed_of_forall_isPlain (hne : t ≠ []) (h : ∀ c ∈ t, L.isPlain c = true) :
    (Word.bare t).Fixed L where
  reads := by
    obtain ⟨d, t, rfl⟩ := List.exists_cons_of_ne_nil hne
    have hopens := not_opens_of_isPlain (h d List.mem_cons_self)
    simp only [Word.reads, Word.bare, uncut_of_forall_isPlain h,
      not_escapedAfter_of_forall_isPlain h hne]
    simp [hopens]
  starts := by
    obtain ⟨d, t, rfl⟩ := List.exists_cons_of_ne_nil hne
    exact starts_of_isPlain (h d List.mem_cons_self)
  no_comment hmem := ne_hash_of_isPlain (h _ hmem) rfl

theorem criterion_reads_bare (L : Lexicon) : L.Criterion .bare (·.reads L = true)
    (L.uncut false · = true) (L.unclosed '"' false · = true) where
  fixed h := h.reads
  pattern h := h.reads_bare_iff
  path lead _ _ := reads_inQuotes_iff lead
  inPattern := splits_uncut L
  inPath := splits_unclosed L

theorem criterion_reads_inQuotes (L : Lexicon) : L.Criterion .inQuotes (·.reads L = true)
    (L.unclosed '"' false · = true) (L.unclosed '"' false · = true) where
  fixed h := h.reads
  pattern h := h.reads_inQuotes_iff
  path lead _ _ := reads_inQuotes_iff lead
  inPattern := splits_unclosed L
  inPath := splits_unclosed L

theorem starts_inQuotes (L : Lexicon) (t : Text) : (Word.inQuotes t).Starts L := .inl rfl

theorem criterion_starts_bare (L : Lexicon) :
    L.Criterion .bare (·.Starts L) (fun _ => True) fun _ => True where
  fixed h := h.starts
  pattern h := iff_of_true h.starts_bare trivial
  path _ _ _ _ _ := iff_of_true (starts_inQuotes L _) trivial
  inPattern := splits_true L
  inPath := splits_true L

theorem criterion_starts_inQuotes (L : Lexicon) :
    L.Criterion .inQuotes (·.Starts L) (fun _ => True) fun _ => True where
  fixed h := h.starts
  pattern _ := iff_of_true (starts_inQuotes L _) trivial
  path _ _ _ _ _ := iff_of_true (starts_inQuotes L _) trivial
  inPattern := splits_true L
  inPath := splits_true L

namespace Splits

theorem nil (h : L.Splits S) : S [] := h.plain (by simp)

theorem join (h : L.Splits S) (hbar : L.isPlain '|' = true) (ps : List Text) :
    S (Text.join ps "|") ↔ ∀ p ∈ ps, S p := by
  induction ps with
  | nil => simpa [Text.join] using h.nil
  | cons p ps ih =>
    by_cases hps : ps = []
    · simp [hps, Text.join]
    · have hjoin : Text.join (p :: ps) "|" = p ++ '|' :: Text.join ps "|" := by
        have happ := Text.join_append (List.cons_ne_nil p []) hps "|"
        simpa [Text.join] using happ
      rw [hjoin, h.split (by decide) hbar, ih, List.forall_mem_cons]

theorem append_plain (h : L.Splits S) {v : Text} (hv : ∀ c ∈ v, L.isPlain c = true)
    (hhead : Path.Rooted v) (a : Text) : S (a ++ v) ↔ S a := by
  rcases hhead with rfl | hhead
  · rw [List.append_nil]
  · obtain ⟨v, rfl⟩ := List.head?_eq_some_iff.1 hhead
    obtain ⟨hslash, hrest⟩ := List.forall_mem_cons.1 hv
    rw [h.split (by decide) hslash, and_iff_left (h.plain hrest)]

/-- What is put in the place of a tenant's segment does not matter if it is plain. -/
theorem replace (h : L.Splits S) (hslash : L.isPlain '/' = true) {x : Text}
    (hx : ∀ c ∈ x, L.isPlain c = true) (dir : Text) :
    S (TenantSegment.replace dir ("/" ++ x ++ "/")) ↔ S (TenantSegment.replace dir "/") := by
  have hall : ∀ c ∈ ("/" ++ x ++ "/" : Text), L.isPlain c = true := by
    simp only [List.mem_append]
    rintro c ((hc | hc) | hc)
    · exact (List.mem_singleton.1 hc) ▸ hslash
    · exact hx c hc
    · exact (List.mem_singleton.1 hc) ▸ hslash
  have hend : ∀ before : Text, S (before ++ Text.trimEndSlashes ("/" ++ x ++ "/")) ↔
      S (before ++ Text.trimEndSlashes "/") := fun before => by
    rw [h.append_plain (fun c hc => hall c (Text.mem_of_mem_trimEndSlashes hc))
      (Text.head?_trimEndSlashes (.inr rfl)), show Text.trimEndSlashes "/" = [] from rfl,
      List.append_nil]
  unfold TenantSegment.replace
  split
  · exact hend _
  · split
    · next before _ _ _ _ rest _ =>
      have hbreak : isBreak '/' = true := by decide
      have hfull : before ++ ("/" ++ x ++ "/") ++ rest = before ++ '/' :: (x ++ '/' :: rest) := by
        simp
      have hshort : before ++ "/" ++ rest = before ++ '/' :: rest := by simp
      rw [hfull, hshort, h.split hbreak hslash, h.split hbreak hslash, h.split hbreak hslash,
        and_iff_right (h.plain hx)]
    · exact hend _

end Splits

section
variable (hL : L.Spares)
include hL

theorem frames_pattern (subject : Subject) (ps : List Text) :
    L.Frames (subject.pattern ps) (Text.join ps "|") := by
  have hclose : ∀ d ∈ [')'], L.isPlain d = true := hL.isPlain (by decide)
  cases subject with
  | userAgent =>
    exact .intro "(" _ ')' [] (by decide) (hL.isPlain (by decide)) rfl hclose
  | referrerCookie =>
    have hlead : ∀ d ∈ (Subject.referrerCookieName ++ "=.*(" : Text), L.isPlain d = true :=
      hL.isPlain (by decide)
    have hframes := Frames.intro _ (Text.join ps "|") ')' [] (by decide) hlead rfl hclose
    simpa [Subject.pattern, Pattern.alternation] using hframes

theorem frames_pathPattern (base : Text) (names : TextSet) :
    L.Frames (Tenant.pathPattern base names)
      (base.trimEndSlashes ++ '/' :: ([] ++ '(' ::
        Text.join (names.toList.map Pattern.quote) "|")) := by
  have hframes : L.Frames ("^" ++ (base.trimEndSlashes ++ '/' :: ([] ++ '(' ::
      Text.join (names.toList.map Pattern.quote) "|") ++ ')' :: "(/.*)$")) _ :=
    .intro "^" _ ')' "(/.*)$" (by decide) (hL.isPlain (by decide)) rfl (hL.isPlain (by decide))
  simpa [Tenant.pathPattern] using hframes

variable (hR : L.Criterion mk R S T)
include hR

theorem Criterion.pattern_iff (subject : Subject) (ps : List Text) :
    R (mk (subject.pattern ps)) ↔ ∀ p ∈ ps, S p := by
  rw [hR.pattern (frames_pattern hL subject ps), hR.inPattern.join (hL.isPlain_break rfl)]

theorem Criterion.pathPattern_iff (base : Text) (names : TextSet) :
    R (mk (Tenant.pathPattern base names)) ↔
      S base.trimEndSlashes ∧ ∀ name ∈ names.toList, S (Pattern.quote name) := by
  rw [hR.pattern (frames_pathPattern hL base names),
    hR.inPattern.split (by decide) (hL.isPlain_break rfl),
    hR.inPattern.split (by decide) (hL.isPlain_break rfl), and_iff_right hR.inPattern.nil,
    hR.inPattern.join (hL.isPlain_break rfl), List.forall_mem_map]

end

end Lexicon
end PageCache
