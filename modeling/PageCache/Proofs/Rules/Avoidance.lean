import PageCache.Proofs.Headers.Declared
import PageCache.Proofs.Region.Marks

/-! Rules without the markers of their block. A text that is put together has a marker only if one of
its parts has it, unless the marker runs across a seam, and the punctuation of rules keeps it from
that. -/
namespace PageCache

theorem Text.not_mem_join {c : Char} {sep : Text} (hsep : c ∉ sep) {ts : List Text}
    (h : ∀ t ∈ ts, c ∉ t) : c ∉ Text.join ts sep := by
  induction ts with
  | nil => simp [Text.join]
  | cons t ts ih =>
    obtain ⟨ht, hts⟩ := List.forall_mem_cons.1 h
    by_cases hne : ts = []
    · simpa [hne, Text.join] using ht
    · have hjoin : Text.join (t :: ts) sep = t ++ sep ++ Text.join ts sep := by
        simpa [Text.join] using Text.join_append (List.cons_ne_nil t []) hne sep
      rw [hjoin]
      exact List.not_mem_append (List.not_mem_append ht hsep) (ih hts)

theorem Word.no_hash_render {w : Word} (h : '#' ∉ w.text) : '#' ∉ w.render := by
  unfold render
  split
  · exact List.not_mem_append (List.not_mem_append (by decide) h) (by decide)
  · exact h

namespace Block

open Region

/-- The character stands in no marker of the block. -/
def spares (b : Block) (c : Char) : Bool := b.region.markers.all fun m => !m.contains c

/-- The character does not come after a blank in a marker of the block. -/
def sparesBlank (b : Block) (c : Char) : Bool :=
  b.region.markers.all fun m => decide (¬ [' ', c] <:+: m)

/-- No marker of the block runs across the seam of two texts. -/
def Apart (b : Block) (a t : Text) : Prop :=
  ∀ m ∈ b.region.markers, ∀ u v, u ≠ [] → v ≠ [] → m = u ++ v → u <:+ a → ¬ v <+: t

variable {b : Block} {m a t : Text} {c : Char}

theorem marker_head? (hm : m ∈ b.region.markers) : m.head? = some '#' := by
  have h : ∀ m ∈ b.region.markers, m.head? = some '#' := by cases b <;> decide
  exact h m hm

theorem marker_getLast?_ne (hm : m ∈ b.region.markers) : m.getLast? ≠ some ' ' := by
  have h : ∀ m ∈ b.region.markers, m.getLast? ≠ some ' ' := by cases b <;> decide
  exact h m hm

theorem not_mem_of_spares (h : b.spares c = true) (hm : m ∈ b.region.markers) : c ∉ m := by
  have hm' := List.all_eq_true.1 h m hm
  simpa using hm'

theorem Apart.avoids_append_iff (h : b.Apart a t) :
    Avoids [b.region] (a ++ t) ↔ Avoids [b.region] a ∧ Avoids [b.region] t := by
  refine ⟨fun h => ⟨h.left, h.right⟩, fun ⟨ha, ht⟩ r hr m hm hin => ?_⟩
  obtain rfl := List.mem_singleton.1 hr
  rcases Text.infix_append_cases hin with hin | hin | ⟨u, v, hu, hv, hmuv, hua, hvt⟩
  · exact ha _ hr m hm hin
  · exact ht _ hr m hm hin
  · exact h m hm u v hu hv hmuv hua hvt

theorem apart_of_no_hash (h : '#' ∉ a) (t : Text) : b.Apart a t := by
  intro m hm u v hu _ hmuv hua _
  obtain ⟨d, u, rfl⟩ := List.exists_cons_of_ne_nil hu
  have hd : d = '#' := by
    have hhead := marker_head? hm
    rw [hmuv] at hhead
    simpa using hhead
  exact h (hd ▸ hua.subset List.mem_cons_self)

theorem apart_of_getLast? (hc : b.spares c = true) (h : a.getLast? = some c) (t : Text) :
    b.Apart a t := by
  intro m hm u v hu _ hmuv hua _
  have hlast : u.getLast? = some c := by
    obtain ⟨x, rfl⟩ := hua
    rwa [List.getLast?_append_of_ne_nil _ hu] at h
  exact not_mem_of_spares hc hm (hmuv ▸ List.mem_append_left v (List.mem_of_getLast? hlast))

theorem apart_of_head? (hc : b.spares c = true) (h : t.head? = some c) (a : Text) :
    b.Apart a t := by
  intro m hm u v _ hv hmuv _ hvt
  obtain ⟨d, v, rfl⟩ := List.exists_cons_of_ne_nil hv
  obtain ⟨y, rfl⟩ := hvt
  obtain rfl : d = c := by simpa using h
  exact not_mem_of_spares hc hm (hmuv ▸ List.mem_append_right u List.mem_cons_self)

theorem apart_of_blank (hc : b.sparesBlank c = true) (h : t.head? = some c) (a : Text) :
    b.Apart a (' ' :: t) := by
  intro m hm u v _ hv hmuv _ hvt
  obtain ⟨d, v, rfl⟩ := List.exists_cons_of_ne_nil hv
  obtain ⟨y, hy⟩ := hvt
  obtain ⟨rfl, hvy⟩ : d = ' ' ∧ v ++ y = t := by simpa using hy
  cases v with
  | nil => exact marker_getLast?_ne hm (by rw [hmuv, List.getLast?_concat])
  | cons e v =>
    obtain rfl : e = c := by simpa [← hvy] using h
    have hsub : [' ', e] <:+: m := ⟨u, v, by rw [hmuv]; simp⟩
    have hspares := List.all_eq_true.1 hc m hm
    exact (of_decide_eq_true hspares) hsub

theorem avoids_of_no_hash (h : '#' ∉ t) : Avoids [b.region] t := by
  intro r hr m hm hin
  obtain rfl := List.mem_singleton.1 hr
  obtain ⟨m, rfl⟩ := List.head?_eq_some_iff.1 (marker_head? hm)
  exact h (hin.subset List.mem_cons_self)

theorem avoids_append_of_no_hash (h : '#' ∉ a) :
    Avoids [b.region] (a ++ t) ↔ Avoids [b.region] t := by
  rw [(apart_of_no_hash h t).avoids_append_iff, and_iff_right (avoids_of_no_hash h)]

theorem avoids_append_cons_iff (hc : b.spares c = true) :
    Avoids [b.region] (a ++ c :: t) ↔ Avoids [b.region] a ∧ Avoids [b.region] t := by
  have hhash : '#' ∉ [c] := fun h => by
    have hmarker := marker_head? (b := b) (opening_mem b.region)
    obtain ⟨m, hm⟩ := List.head?_eq_some_iff.1 hmarker
    refine not_mem_of_spares hc (opening_mem b.region) ?_
    rw [hm, ← List.mem_singleton.1 h]
    exact List.mem_cons_self
  have ht : Avoids [b.region] (c :: t) ↔ Avoids [b.region] t := avoids_append_of_no_hash (a := [c]) hhash
  rw [(apart_of_head? hc rfl a).avoids_append_iff, ht]

/-- The end of a text does not matter if a marker can neither reach it nor start in it. -/
theorem avoids_append_of_rest (hc : b.spares c = true) (ht : '#' ∉ t) :
    Avoids [b.region] (a ++ c :: t) ↔ Avoids [b.region] a := by
  rw [avoids_append_cons_iff hc, and_iff_left (avoids_of_no_hash ht)]

theorem spares_break (h : Lexicon.isBreak c = true) : b.spares c = true := by
  have hc : c = '(' ∨ c = ')' ∨ c = '|' ∨ c = '/' := by
    simpa [Lexicon.isBreak, or_assoc] using h
  rcases hc with rfl | rfl | rfl | rfl <;> cases b <;> decide

theorem spares_quote : b.spares '"' = true := by cases b <;> decide

theorem spares_newline : b.spares '\n' = true := by cases b <;> decide

/-- Pieces that end their last lines have a marker only if one of them has it. -/
theorem avoids_flatMap {α : Type} {f : α → Text} {xs : List α} (h : ∀ x ∈ xs, ∃ u, f x = u ++ ['\n']) :
    Avoids [b.region] (xs.flatMap f) ↔ ∀ x ∈ xs, Avoids [b.region] (f x) := by
  induction xs with
  | nil => exact iff_of_true (avoids_of_no_hash List.not_mem_nil) (by simp)
  | cons x xs ih =>
    obtain ⟨⟨u, hu⟩, hxs⟩ := List.forall_mem_cons.1 h
    have htext : (x :: xs).flatMap f = u ++ '\n' :: xs.flatMap f := by simp [hu]
    rw [htext, avoids_append_cons_iff spares_newline, ih hxs, List.forall_mem_cons, hu,
      avoids_append_of_rest spares_newline List.not_mem_nil]

/-- Lines have a marker only if one of them has it. -/
theorem avoids_lines (ls : List Text) :
    Avoids [b.region] (ls.flatMap Apache.indented) ↔ ∀ l ∈ ls, Avoids [b.region] l := by
  have hline : ∀ l : Text, Avoids [b.region] (Apache.indented l) ↔ Avoids [b.region] l := fun l => by
    rw [Apache.indented, List.append_assoc, avoids_append_of_no_hash (by decide)]
    exact avoids_append_of_rest spares_newline List.not_mem_nil
  exact (avoids_flatMap fun l _ => ⟨"    " ++ l, rfl⟩).trans (forall₂_congr fun l _ => hline l)

theorem avoids_enclosed (t : Option Text) {before after : Text} {c : Char} (hbefore : '#' ∉ before)
    (hc : b.spares c = true) (hafter : '#' ∉ after) :
    (∀ l ∈ Text.enclosed? t before (c :: after), Avoids [b.region] l) ↔
      ∀ u ∈ t, Avoids [b.region] u := by
  cases t with
  | none => simp [Text.enclosed?]
  | some t =>
    have htext : Text.enclosed? (some t) before (c :: after) = [before ++ (t ++ c :: after)] := by
      simp [Text.enclosed?]
    rw [htext, List.forall_mem_singleton, avoids_append_of_no_hash hbefore,
      avoids_append_of_rest hc hafter]
    simp

theorem avoids_enclosed_of_no_hash {t : Option Text} {before after : Text} (hbefore : '#' ∉ before)
    (ht : ∀ u ∈ t, '#' ∉ u) (hafter : '#' ∉ after) :
    ∀ l ∈ Text.enclosed? t before after, Avoids [b.region] l := by
  cases t with
  | none => simp [Text.enclosed?]
  | some t =>
    have hhash := List.not_mem_append (List.not_mem_append hbefore (ht t rfl)) hafter
    exact List.forall_mem_singleton.2 (avoids_of_no_hash hhash)

variable {L : Lexicon} {w : Word}

theorem avoids_render_iff : Avoids [b.region] w.render ↔ Avoids [b.region] w.text := by
  unfold Word.render
  split
  · have htext : "\"" ++ w.text ++ "\"" = ("\"" : Text) ++ (w.text ++ '"' :: []) := by simp
    rw [htext, avoids_append_of_no_hash (by decide), avoids_append_of_rest spares_quote (by simp)]
  · exact Iff.rfl

/-- No marker runs across the blank between two words. -/
def Joined (b : Block) (v w : Word) : Prop :=
  '#' ∉ v.text ∨ v.quoted = true ∨ ∃ c, w.render.head? = some c ∧ b.sparesBlank c = true

theorem Joined.apart {v : Word} (h : b.Joined v w) {t : Text}
    (ht : ∀ c, w.render.head? = some c → t.head? = some c) : b.Apart v.render (' ' :: t) := by
  rcases h with hhash | hquoted | ⟨c, hw, hc⟩
  · exact apart_of_no_hash (Word.no_hash_render hhash) _
  · refine apart_of_getLast? spares_quote ?_ _
    rw [Word.render, if_pos hquoted]
    exact List.getLast?_concat
  · exact apart_of_blank hc (ht c hw) _

theorem avoids_join {ws : List Word} (h : ws.IsChain b.Joined) :
    Avoids [b.region] (Text.join (ws.map Word.render) " ") ↔ ∀ w ∈ ws, Avoids [b.region] w.text := by
  induction ws with
  | nil => exact iff_of_true (avoids_of_no_hash (by simp [Text.join])) (by simp)
  | cons v ws ih =>
    cases ws with
    | nil =>
      have hjoin : Text.join ([v].map Word.render) " " = v.render := by simp [Text.join]
      rw [hjoin, avoids_render_iff, List.forall_mem_singleton]
    | cons w ws =>
      obtain ⟨hvw, hws⟩ := List.isChain_cons_cons.1 h
      have hjoin : Text.join ((v :: w :: ws).map Word.render) " " =
          v.render ++ ' ' :: Text.join ((w :: ws).map Word.render) " " := by
        simp [Text.join, List.intercalate]
      -- At the seam only the first character of the next word counts, not the words behind it.
      have hhead : ∀ c, w.render.head? = some c →
          (Text.join ((w :: ws).map Word.render) " ").head? = some c := by
        intro c hc
        obtain ⟨t, ht⟩ := List.head?_eq_some_iff.1 hc
        cases ws <;> simp [Text.join, List.intercalate, ht]
      have hblank : Avoids [b.region] (' ' :: Text.join ((w :: ws).map Word.render) " ") ↔
          Avoids [b.region] (Text.join ((w :: ws).map Word.render) " ") :=
        avoids_append_of_no_hash (a := [' ']) (by decide)
      have hwords : (∀ x ∈ v :: w :: ws, Avoids [b.region] x.text) ↔
          Avoids [b.region] v.text ∧ ∀ x ∈ w :: ws, Avoids [b.region] x.text :=
        List.forall_mem_cons
      rw [hjoin, (hvw.apart hhead).avoids_append_iff, hblank, ih hws, avoids_render_iff, hwords]

theorem no_hash_of_isPlain (h : ∀ d ∈ t, L.isPlain d = true) : '#' ∉ t := fun hmem =>
  Lexicon.ne_hash_of_isPlain (h _ hmem) rfl

theorem splits_avoids (b : Block) (L : Lexicon) : L.Splits (Avoids [b.region]) where
  plain h := avoids_of_no_hash (no_hash_of_isPlain h)
  split hc _ := avoids_append_cons_iff (spares_break hc)

/-- Whether a word has a marker is decided by the texts in it. -/
theorem criterion_avoids (b : Block) (L : Lexicon) {mk : Text → Word} (hmk : ∀ t, (mk t).text = t) :
    L.Criterion mk (fun w => Avoids [b.region] w.text) (Avoids [b.region]) (Avoids [b.region]) where
  fixed h := avoids_of_no_hash h.no_comment
  pattern h := by
    obtain ⟨lead, u, c, rest, -, hlead, hc, hrest⟩ := h
    rw [hmk, avoids_append_of_no_hash (no_hash_of_isPlain hlead),
      avoids_append_of_rest (spares_break hc) (no_hash_of_isPlain (List.forall_mem_cons.1 hrest).2)]
  path lead u rest hlead hrest := by
    have htext : (Word.inQuotes (lead ++ (u ++ '/' :: rest))).text = lead ++ (u ++ '/' :: rest) := rfl
    rw [htext, avoids_append_of_no_hash (no_hash_of_isPlain hlead),
      avoids_append_of_rest (spares_break rfl) (no_hash_of_isPlain (List.forall_mem_cons.1 hrest).2)]
  inPattern := splits_avoids b L
  inPath := splits_avoids b L

end Block

theorem Text.no_hash_ofNat (n : ℕ) : '#' ∉ Text.ofNat n := fun h =>
  absurd (Text.isAlphanum_of_mem_ofNat h) (by decide)

namespace HeaderPlan

/-- The values of headers that do not come from the configuration as they are. -/
structure NoHash (plan : HeaderPlan) : Prop where
  poweredBy : ∀ t ∈ plan.poweredBy, '#' ∉ t
  vary : '#' ∉ plan.vary
  cacheControl : ∀ h ∈ plan.cacheControl, '#' ∉ h.pragma ∧ '#' ∉ h.value

theorem noHash_build (p : Policy) (s : Site) : (build p s).NoHash := by
  have hhash : isOwn '#' = false := by decide
  have hown : ∀ t ∈ (build p s).ownTexts, '#' ∉ t := fun t ht hmem =>
    Bool.false_ne_true (hhash.symm.trans
      (List.all_eq_true.1 (isOwn_of_mem_ownTexts_build p s t ht) _ hmem))
  exact
    { poweredBy := fun t ht => hown t (poweredBy_mem_ownTexts ht)
      vary := hown _ (vary_mem_ownTexts _)
      cacheControl := fun h hh => (cacheControl_mem_ownTexts hh).imp (hown _) (hown _) }

end HeaderPlan

end PageCache
