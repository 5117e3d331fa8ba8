import Mathlib
import PageCache.Text

/-! How servers cut their rules into words: at blanks and marks that are neither between quotes nor
behind a backslash. A word is read back if nothing in it ends it early and what follows it does. -/
namespace PageCache

inductive Token where
  | word (t : Text)
  | mark (c : Char)
  deriving DecidableEq, Repr

structure Lexicon where
  blank : Char → Bool
  /-- Marks are tokens of their own. -/
  mark : Char → Bool
  /-- A hard mark ends a word in every place. -/
  hard : Char → Bool
  /-- A backslash protects a backslash behind it. -/
  escapesBackslash : Bool
  /-- A backslash protects the quote that would end a word. -/
  escapesQuote : Bool
  /-- A backslash protects the blank or the mark that would end a word. -/
  escapesCut : Bool := true
  /-- A hash between words starts a comment up to the end of the line. -/
  comments : Bool := false

namespace Lexicon

def isQuote (c : Char) : Bool := c == '"' || c == '\''

/-- Where a text is read: between words, in a comment, or in a word of which a part has been read. A
backslash protects what comes next. -/
inductive Place where
  | gap
  | comment
  | bare (read : Text) (escaped : Bool)
  | quoted (quote : Char) (read : Text) (escaped : Bool)
  deriving DecidableEq, Repr

variable (L : Lexicon)

def opensComment (c : Char) : Bool := L.comments && c == '#'

/-- Quotes or a comment open here if the character stands between words. -/
def opens (c : Char) : Bool := isQuote c || L.opensComment c

/-- Whether a backslash protects what comes after a character. -/
def escapes (escaped : Bool) (c : Char) : Bool := c == '\\' && !(L.escapesBackslash && escaped)

/-- The character ends a word that is not between quotes. -/
def cuts (escaped : Bool) (c : Char) : Bool :=
  L.hard c || !(L.escapesCut && escaped) && (L.mark c || L.blank c)

def closes (quote : Char) (escaped : Bool) (c : Char) : Bool :=
  c == quote && !(L.escapesQuote && escaped)

def cutTokens (c : Char) : List Token := if L.hard c || L.mark c then [.mark c] else []

/-- The tokens of a text from a place on. Quotes open at the start of a word only. -/
@[simp]
def tokens : Place → Text → List Token
  | .gap, [] => []
  | .comment, [] => []
  | .bare read _, [] => [.word read]
  | .quoted _ read _, [] => [.word read]
  | .gap, c :: t =>
    if L.cuts false c then L.cutTokens c ++ tokens .gap t
    else if isQuote c then tokens (.quoted c [] false) t
    else if L.opensComment c then tokens .comment t
    else tokens (.bare [c] (L.escapes false c)) t
  | .comment, c :: t =>
    if Text.isNewline c then L.cutTokens c ++ tokens .gap t else tokens .comment t
  | .bare read escaped, c :: t =>
    if L.cuts escaped c then .word read :: (L.cutTokens c ++ tokens .gap t)
    else tokens (.bare (read ++ [c]) (L.escapes escaped c)) t
  | .quoted quote read escaped, c :: t =>
    if L.hard c then .word read :: .mark c :: tokens .gap t
    else if L.closes quote escaped c then .word read :: tokens .gap t
    else tokens (.quoted quote (read ++ [c]) (L.escapes escaped c)) t

/-- Whether a backslash at the end of a text protects what comes next. -/
def escapedAfter (escaped : Bool) (t : Text) : Bool := t.foldl L.escapes escaped

/-- Nothing in the text ends a word without quotes. -/
@[simp]
def uncut : Bool → Text → Bool
  | _, [] => true
  | escaped, c :: t => !L.cuts escaped c && uncut (L.escapes escaped c) t

/-- Nothing in the text ends a word between quotes. -/
@[simp]
def unclosed (quote : Char) : Bool → Text → Bool
  | _, [] => true
  | escaped, c :: t =>
    !(L.hard c || L.closes quote escaped c) && unclosed quote (L.escapes escaped c) t

end Lexicon

@[simp]
theorem Word.render_bare (t : Text) : (Word.bare t).render = t := by
  simp [Word.render, Word.bare]

/-- The word is read back as it is. -/
def Word.reads (L : Lexicon) (w : Word) : Bool :=
  if w.quoted then
    L.unclosed '"' false w.text && !(L.escapesQuote && L.escapedAfter false w.text)
  else
    !w.text.head?.any L.opens && L.uncut false w.text &&
      !(L.escapesCut && L.escapedAfter false w.text)

namespace Lexicon

variable {L : Lexicon} {read t u rest : Text} {escaped : Bool} {q c : Char} {ts us : List Token}

theorem escapedAfter_append (L : Lexicon) (escaped : Bool) (t u : Text) :
    L.escapedAfter escaped (t ++ u) = L.escapedAfter (L.escapedAfter escaped t) u :=
  List.foldl_append

theorem escapedAfter_of_getLast?_ne (h : t ≠ []) (hlast : t.getLast? ≠ some '\\') :
    L.escapedAfter escaped t = false := by
  obtain ⟨u, c, rfl⟩ := (List.eq_nil_or_concat' t).resolve_left h
  have hc : c ≠ '\\' := by simpa using hlast
  rw [escapedAfter_append]
  simp [escapedAfter, escapes, hc]

theorem uncut_append (L : Lexicon) (escaped : Bool) (t u : Text) :
    L.uncut escaped (t ++ u) = (L.uncut escaped t && L.uncut (L.escapedAfter escaped t) u) := by
  induction t generalizing escaped with
  | nil => rfl
  | cons c t ih => simp [ih, escapedAfter, Bool.and_assoc]

theorem unclosed_append (L : Lexicon) (q : Char) (escaped : Bool) (t u : Text) :
    L.unclosed q escaped (t ++ u) =
      (L.unclosed q escaped t && L.unclosed q (L.escapedAfter escaped t) u) := by
  induction t generalizing escaped with
  | nil => rfl
  | cons c t ih => simp [ih, escapedAfter, Bool.and_assoc]

/-- The first token of a word that is being read goes on from what has been read. -/
theorem exists_word_bare (L : Lexicon) (read : Text) (escaped : Bool) (t : Text) :
    ∃ x ts, L.tokens (.bare read escaped) t = .word (read ++ x) :: ts := by
  induction t generalizing read escaped with
  | nil => exact ⟨[], [], by simp⟩
  | cons c t ih =>
    rw [tokens]
    split
    · exact ⟨[], _, by rw [List.append_nil]⟩
    · obtain ⟨x, ts, h⟩ := ih (read ++ [c]) (L.escapes escaped c)
      exact ⟨c :: x, ts, by simp [h]⟩

theorem tokens_bare_of_uncut (h : L.uncut escaped t = true) :
    L.tokens (.bare read escaped) (t ++ u) =
      L.tokens (.bare (read ++ t) (L.escapedAfter escaped t)) u := by
  induction t generalizing read escaped with
  | nil => simp [escapedAfter]
  | cons c t ih =>
    simp only [uncut, Bool.and_eq_true, Bool.not_eq_true'] at h
    rw [List.cons_append, tokens, if_neg (by simp [h.1]), ih h.2]
    simp [escapedAfter]

/-- A word that something in it cuts is not read whole. -/
theorem exists_word_ne_of_cut (h : L.uncut escaped t = false) :
    ∃ x ts, L.tokens (.bare read escaped) (t ++ u) = .word x :: ts ∧ x ≠ read ++ t := by
  induction t generalizing read escaped with
  | nil => simp at h
  | cons c t ih =>
    rw [List.cons_append, tokens]
    split
    · exact ⟨read, _, rfl, by simp⟩
    · next hcut =>
      have htail : L.uncut (L.escapes escaped c) t = false := by
        simpa [hcut] using h
      obtain ⟨x, ts, hx, hne⟩ := ih htail
      exact ⟨x, ts, hx, by simpa using hne⟩

/-- A word that is not read back is not the first token, also if it only takes in what follows. -/
theorem exists_word_ne_of_bare (hhard : L.hard c = false)
    (h : (L.uncut escaped t && !(L.escapesCut && L.escapedAfter escaped t)) = false) :
    ∃ x ts, L.tokens (.bare read escaped) (t ++ c :: rest) = .word x :: ts ∧ x ≠ read ++ t := by
  cases huncut : L.uncut escaped t with
  | false => exact exists_word_ne_of_cut huncut
  | true =>
    have hescaped : (L.escapesCut && L.escapedAfter escaped t) = true := by simpa [huncut] using h
    rw [tokens_bare_of_uncut huncut, tokens, if_neg (by simp [cuts, hhard, hescaped])]
    obtain ⟨x, ts, hx⟩ := L.exists_word_bare (read ++ t ++ [c]) _ rest
    exact ⟨_, ts, hx, by simp⟩

theorem exists_word_quoted (L : Lexicon) (q : Char) (read : Text) (escaped : Bool) (t : Text) :
    ∃ x ts, L.tokens (.quoted q read escaped) t = .word (read ++ x) :: ts := by
  induction t generalizing read escaped with
  | nil => exact ⟨[], [], by simp⟩
  | cons c t ih =>
    rw [tokens]
    split
    · exact ⟨[], _, by rw [List.append_nil]⟩
    · split
      · exact ⟨[], _, by rw [List.append_nil]⟩
      · obtain ⟨x, ts, h⟩ := ih (read ++ [c]) (L.escapes escaped c)
        exact ⟨c :: x, ts, by simp [h]⟩

theorem tokens_quoted_of_unclosed (h : L.unclosed q escaped t = true) :
    L.tokens (.quoted q read escaped) (t ++ u) =
      L.tokens (.quoted q (read ++ t) (L.escapedAfter escaped t)) u := by
  induction t generalizing read escaped with
  | nil => simp [escapedAfter]
  | cons c t ih =>
    simp only [unclosed, Bool.and_eq_true, Bool.not_eq_true', Bool.or_eq_false_iff] at h
    rw [List.cons_append, tokens, if_neg (by simp [h.1.1]), if_neg (by simp [h.1.2]), ih h.2]
    simp [escapedAfter]

/-- A word that something in it closes is not read whole. -/
theorem exists_word_ne_of_closed (h : L.unclosed q escaped t = false) :
    ∃ x ts, L.tokens (.quoted q read escaped) (t ++ u) = .word x :: ts ∧ x ≠ read ++ t := by
  induction t generalizing read escaped with
  | nil => simp at h
  | cons c t ih =>
    rw [List.cons_append, tokens]
    split
    · exact ⟨read, _, rfl, by simp⟩
    · next hhard =>
      split
      · exact ⟨read, _, rfl, by simp⟩
      · next hcloses =>
        have htail : L.unclosed q (L.escapes escaped c) t = false := by
          simpa [hhard, hcloses] using h
        obtain ⟨x, ts, hx, hne⟩ := ih htail
        exact ⟨x, ts, hx, by simpa using hne⟩

theorem exists_word_ne_of_quoted (hhard : L.hard q = false)
    (h : (L.unclosed q escaped t && !(L.escapesQuote && L.escapedAfter escaped t)) = false) :
    ∃ x ts, L.tokens (.quoted q read escaped) (t ++ q :: rest) = .word x :: ts ∧ x ≠ read ++ t := by
  cases hunclosed : L.unclosed q escaped t with
  | false => exact exists_word_ne_of_closed hunclosed
  | true =>
    have hescaped : (L.escapesQuote && L.escapedAfter escaped t) = true := by
      simpa [hunclosed] using h
    rw [tokens_quoted_of_unclosed hunclosed, tokens, if_neg (by simp [hhard]),
      if_neg (by simp [closes, hescaped])]
    obtain ⟨x, ts, hx⟩ := L.exists_word_quoted q (read ++ t ++ [q]) _ rest
    exact ⟨_, ts, hx, by simp⟩

/-- A word between quotes does not start with its quote. -/
theorem head?_ne_of_tokens_quoted {x : Text} (h : L.tokens (.quoted q [] false) t = .word x :: ts) :
    x.head? ≠ some q := by
  cases t with
  | nil =>
    rw [tokens] at h
    cases h
    simp
  | cons c t =>
    rw [tokens] at h
    split at h
    · cases h
      simp
    · split at h
      · cases h
        simp
      · next hcloses =>
        obtain ⟨y, us, hy⟩ := L.exists_word_quoted q ([] ++ [c]) (L.escapes false c) t
        rw [h] at hy
        cases hy
        simpa [closes] using hcloses

/-- Between words, the text is read as the tokens whatever follows it. -/
def Reads (L : Lexicon) (x : Text) (ts : List Token) : Prop :=
  ∀ rest, L.tokens .gap (x ++ rest) = ts ++ L.tokens .gap rest

namespace Reads

variable {x y : Text}

theorem append (hx : L.Reads x ts) (hy : L.Reads y us) : L.Reads (x ++ y) (ts ++ us) := by
  intro rest
  rw [List.append_assoc, hx, hy, List.append_assoc]

theorem cut (h : L.cuts false c = true) : L.Reads [c] (L.cutTokens c) := by
  intro rest
  rw [List.singleton_append, tokens, if_pos h]

theorem bare (hne : t ≠ []) (h : (Word.bare t).reads L = true) (hcut : L.cuts false c = true) :
    L.Reads (t ++ [c]) (.word t :: L.cutTokens c) := by
  obtain ⟨d, t, rfl⟩ := List.exists_cons_of_ne_nil hne
  simp only [Word.reads, Word.bare, List.head?_cons, Option.any_some, opens, uncut, Bool.and_eq_true,
    Bool.not_eq_true', Bool.or_eq_false_iff, Bool.false_eq_true, if_false] at h
  obtain ⟨⟨⟨hquote, hcomment⟩, hd, ht⟩, hend⟩ := h
  have hescaped : L.escapedAfter (L.escapes false d) t = L.escapedAfter false (d :: t) := rfl
  have hcuts : L.cuts (L.escapedAfter false (d :: t)) c = true := by
    have hfalse : L.cuts false c = (L.hard c || (L.mark c || L.blank c)) := by simp [cuts]
    rwa [cuts, hend, Bool.not_false, Bool.true_and, ← hfalse]
  intro rest
  have htext : d :: t ++ [c] ++ rest = d :: (t ++ c :: rest) := by simp
  rw [htext, tokens, if_neg (by simp [hd]), if_neg (by simp [hquote]), if_neg (by simp [hcomment]),
    tokens_bare_of_uncut ht, hescaped, tokens, if_pos hcuts]
  simp

theorem quoted (hcut : L.cuts false '"' = false) (h : (Word.inQuotes t).reads L = true) :
    L.Reads ('"' :: (t ++ ['"'])) [.word t] := by
  have hhard : L.hard '"' = false := by
    simp only [cuts, Bool.or_eq_false_iff] at hcut
    exact hcut.1
  simp only [Word.reads, Word.inQuotes, if_true, Bool.and_eq_true, Bool.not_eq_true'] at h
  intro rest
  have htext : '"' :: (t ++ ['"']) ++ rest = '"' :: (t ++ '"' :: rest) := by simp
  rw [htext, tokens, if_neg (by simp [hcut]), if_pos (by decide), tokens_quoted_of_unclosed h.1,
    tokens, if_neg (by simp [hhard]), if_pos (by simp [closes, h.2])]
  simp

end Reads

/-- Between words, the text is read as the tokens if the condition holds, and never if it does
not. -/
structure Exactly (L : Lexicon) (x : Text) (ts : List Token) (P : Prop) : Prop where
  read : P → L.Reads x ts
  unread : ¬P → ∀ rest us, L.tokens .gap (x ++ rest) ≠ ts ++ us

namespace Exactly

variable {x y : Text} {P Q : Prop}

theorem nil : L.Exactly [] [] True := ⟨fun _ _ => rfl, fun h => absurd trivial h⟩

theorem append (hx : L.Exactly x ts P) (hy : L.Exactly y us Q) :
    L.Exactly (x ++ y) (ts ++ us) (P ∧ Q) where
  read h := (hx.read h.1).append (hy.read h.2)
  unread h rest vs := by
    rw [List.append_assoc, List.append_assoc]
    by_cases hP : P
    · rw [hx.read hP, ne_eq, List.append_cancel_left_eq]
      exact hy.unread (fun hQ => h ⟨hP, hQ⟩) rest vs
    · exact hx.unread hP _ _

theorem congr (hx : L.Exactly x ts P) (h : P ↔ Q) : L.Exactly x ts Q := by
  rwa [← propext h]

theorem cut (h : L.cuts false c = true) : L.Exactly [c] (L.cutTokens c) True :=
  ⟨fun _ => .cut h, fun h => absurd trivial h⟩

theorem flatMap {α : Type} {as : List α} {text : α → Text} {toks : α → List Token} {P : α → Prop}
    (h : ∀ a ∈ as, L.Exactly (text a) (toks a) (P a)) :
    L.Exactly (as.flatMap text) (as.flatMap toks) (∀ a ∈ as, P a) := by
  induction as with
  | nil => exact nil.congr (by simp)
  | cons a as ih =>
    obtain ⟨ha, has⟩ := List.forall_mem_cons.1 h
    simpa only [List.flatMap_cons, List.forall_mem_cons] using ha.append (ih has)

/-- At the end of the text, the reading is the tokens exactly if the condition holds. -/
theorem tokens_eq_iff (hx : L.Exactly x ts P) : L.tokens .gap x = ts ↔ P := by
  constructor
  · intro h
    by_contra hP
    have hne := hx.unread hP [] []
    rw [List.append_nil, List.append_nil] at hne
    exact hne h
  · intro hP
    have hread := hx.read hP []
    rwa [List.append_nil, tokens, List.append_nil] at hread

theorem bare (hne : t ≠ [])
    (hstart : ∀ d, t.head? = some d → L.blank d = false ∧ L.opensComment d = false)
    (hcut : L.cuts false c = true) (hend : L.hard c = false ∨ t.getLast? ≠ some '\\') :
    L.Exactly (t ++ [c]) (.word t :: L.cutTokens c) ((Word.bare t).reads L = true) := by
  refine ⟨fun h => .bare hne h hcut, fun h rest us heq => ?_⟩
  obtain ⟨d, t, rfl⟩ := List.exists_cons_of_ne_nil hne
  obtain ⟨hblank, hcomment⟩ := hstart d rfl
  have htext : d :: t ++ [c] ++ rest = d :: (t ++ c :: rest) := by simp
  rw [htext, tokens] at heq
  by_cases hd : L.cuts false d = true
  · -- The first character is a mark.
    have hmark : (L.hard d || L.mark d) = true := by simpa [cuts, hblank] using hd
    rw [if_pos hd, cutTokens, if_pos hmark] at heq
    simp at heq
  · by_cases hquote : isQuote d = true
    · rw [if_neg hd, if_pos hquote] at heq
      exact head?_ne_of_tokens_quoted heq rfl
    · have hreads : (Word.bare (d :: t)).reads L =
          (L.uncut (L.escapes false d) t &&
            !(L.escapesCut && L.escapedAfter (L.escapes false d) t)) := by
        simp [Word.reads, Word.bare, opens, escapedAfter, hd, hquote, hcomment]
      rw [Bool.not_eq_true, hreads] at h
      rw [if_neg hd, if_neg hquote, if_neg (by simp [hcomment])] at heq
      have hword : ∃ x ts, L.tokens (.bare [d] (L.escapes false d)) (t ++ c :: rest) =
          .word x :: ts ∧ x ≠ [d] ++ t := by
        rcases hend with hhard | hlast
        · exact exists_word_ne_of_bare hhard h
        · have hescaped : L.escapedAfter false (d :: t) = false :=
            escapedAfter_of_getLast?_ne hne hlast
          rw [escapedAfter, List.foldl_cons, ← escapedAfter] at hescaped
          exact exists_word_ne_of_cut (by simpa [hescaped] using h)
      obtain ⟨x, ts, hx, hxne⟩ := hword
      rw [hx] at heq
      cases heq
      exact hxne rfl

theorem quoted (hcut : L.cuts false '"' = false) :
    L.Exactly ('"' :: (t ++ ['"'])) [.word t] ((Word.inQuotes t).reads L = true) := by
  have hhard : L.hard '"' = false := by
    simp only [cuts, Bool.or_eq_false_iff] at hcut
    exact hcut.1
  refine ⟨fun h => .quoted hcut h, fun h rest us heq => ?_⟩
  have htext : '"' :: (t ++ ['"']) ++ rest = '"' :: (t ++ '"' :: rest) := by simp
  have hreads : (Word.inQuotes t).reads L =
      (L.unclosed '"' false t && !(L.escapesQuote && L.escapedAfter false t)) := rfl
  rw [Bool.not_eq_true, hreads] at h
  have hword : ∃ x ts, L.tokens (.quoted '"' [] false) (t ++ '"' :: rest) = .word x :: ts ∧
      x ≠ [] ++ t := exists_word_ne_of_quoted hhard h
  obtain ⟨x, ts, hx, hxne⟩ := hword
  rw [htext, tokens, if_neg (by simp [hcut]), if_pos (by decide), hx] at heq
  cases heq
  exact hxne rfl

end Exactly

/-- Words are cut by a blank, and quotes are no marks. -/
structure Usual (L : Lexicon) : Prop where
  blank : L.blank ' ' = true
  mark_blank : L.mark ' ' = false
  hard_blank : L.hard ' ' = false
  quote : L.cuts false '"' = false

end Lexicon

namespace Word

/-- The text of the word starts neither with a blank nor with a comment, unless it stands between
quotes. -/
def Starts (L : Lexicon) (w : Word) : Prop :=
  w.quoted = true ∨ w.text.head?.any (fun c => !L.blank c && !L.opensComment c) = true

instance (L : Lexicon) (w : Word) : Decidable (w.Starts L) :=
  inferInstanceAs (Decidable (_ ∨ _))

/-- The word does not end with a backslash, unless it stands between quotes. -/
def Ends (w : Word) : Prop := w.quoted = true ∨ w.text.getLast? ≠ some '\\'

instance (w : Word) : Decidable w.Ends :=
  inferInstanceAs (Decidable (w.quoted = true ∨ w.text.getLast? ≠ some '\\'))

def token (w : Word) : Token := .word w.text

end Word

namespace Lexicon

variable {L : Lexicon} {c : Char} {w : Word}

theorem Usual.cuts_blank (hL : L.Usual) : L.cuts false ' ' = true := by
  simp [cuts, hL.blank]

theorem Usual.cutTokens_blank (hL : L.Usual) : L.cutTokens ' ' = [] := by
  simp [cutTokens, hL.mark_blank, hL.hard_blank]

theorem Reads.word (hL : L.Usual) (hw : w.reads L = true) (hne : w.quoted = true ∨ w.text ≠ [])
    (hcut : L.cuts false c = true) : L.Reads (w.render ++ [c]) (w.token :: L.cutTokens c) := by
  obtain ⟨t, isQuoted, isVerbatim⟩ := w
  cases isQuoted with
  | true =>
    have hrender : (⟨t, true, isVerbatim⟩ : Word).render = '"' :: (t ++ ['"']) := by
      simp [Word.render]
    rw [hrender]
    exact (quoted hL.quote hw).append (cut hcut)
  | false => exact bare (hne.resolve_left (by simp)) hw hcut

namespace Exactly

theorem word (hL : L.Usual) (hstart : w.Starts L) (hcut : L.cuts false c = true) (hend : L.hard c = false ∨ w.Ends) :
    L.Exactly (w.render ++ [c]) (w.token :: L.cutTokens c) (w.reads L = true) := by
  obtain ⟨t, isQuoted, isVerbatim⟩ := w
  cases isQuoted with
  | true =>
    have h := (quoted (t := t) hL.quote).append (cut hcut)
    have hrender : (⟨t, true, isVerbatim⟩ : Word).render = '"' :: (t ++ ['"']) := by
      simp [Word.render]
    rw [hrender]
    exact h.congr (and_iff_left trivial)
  | false =>
    obtain ⟨d, hd, hfirst⟩ := (Option.any_eq_true _ _).1 (hstart.resolve_left (by simp))
    have hne : t ≠ [] := by
      rintro rfl
      cases hd
    refine bare hne (fun e he => ?_) hcut (hend.imp_right fun h => h.resolve_left (by simp))
    obtain rfl : d = e := Option.some.inj (hd.symm.trans he)
    simpa using hfirst

/-- Words are read back exactly if each of them is. -/
theorem words (hL : L.Usual) (ws : List Word) (hne : ws ≠ [])
    (hstart : ∀ w ∈ ws, w.Starts L) (hcut : L.cuts false c = true)
    (hend : L.hard c = false ∨ ∀ w ∈ ws.getLast?, w.Ends) :
    L.Exactly (Text.join (ws.map Word.render) " " ++ [c]) (ws.map Word.token ++ L.cutTokens c)
      (∀ w ∈ ws, w.reads L = true) := by
  induction ws with
  | nil => exact absurd rfl hne
  | cons w ws ih =>
    obtain ⟨hw, hws⟩ := List.forall_mem_cons.1 hstart
    cases ws with
    | nil =>
      have h := word hL hw hcut (hend.imp_right fun h => h w (by simp))
      simpa [Text.join] using h
    | cons v ws =>
      have hfirst := word hL hw hL.cuts_blank (.inl hL.hard_blank)
      rw [hL.cutTokens_blank] at hfirst
      have hrest := ih (by simp) hws (by simpa using hend)
      have h := hfirst.append hrest
      have htext : Text.join ((w :: v :: ws).map Word.render) " " ++ [c] =
          w.render ++ [' '] ++ (Text.join ((v :: ws).map Word.render) " " ++ [c]) := by
        simp [Text.join, List.intercalate]
      rw [htext]
      simpa only [List.map_cons, List.cons_append, List.nil_append, List.forall_mem_cons] using h

end Exactly

end Lexicon
end PageCache
