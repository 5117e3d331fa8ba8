import PageCache.Proofs.Region.Rejoined

/-! Removing every region. A pass takes out the region that is found and joins the texts around it,
and the passes end with a text in which no region is found. Newlines apart, all of them together cut
stretches out of the first text, each from an opening through a closing marker: a pass may bring
stray markers together, but no marker runs across the seam that it leaves. -/
namespace PageCache.Region

open Text

variable {r : Region} {seen rest t t' u p m head head' tail tail' : Text} {s : Span}

/-- What one pass leaves, if there is a region to take out. -/
def pass? (r : Region) (t : Text) : Option Text :=
  (r.locate? t).map fun s => closeGap s.before s.after

theorem length_lt_of_pass? (h : r.pass? t = some u) : u.length < t.length := by
  obtain ⟨s, hs, rfl⟩ := Option.map_eq_some_iff.1 h
  exact length_closeGap_lt hs

/-- Finitely many passes, each with a shorter text, lead from a text to what the removal leaves. -/
theorem exists_passes (r : Region) (t : Text) :
    ∃ texts : List Text,
      (t :: texts).IsChain (fun a b => r.pass? a = some b ∧ b.length < a.length) ∧
      (t :: texts).getLast? = some (r.erase t) := by
  fun_induction erase r t with
  | case1 t h => exact ⟨[], .singleton t, rfl⟩
  | case2 t s h ih =>
    obtain ⟨texts, hchain, hlast⟩ := ih
    have hpass : r.pass? t = some (closeGap s.before s.after) := by rw [pass?, h, Option.map_some]
    exact ⟨closeGap s.before s.after :: texts,
      .cons_cons ⟨hpass, length_lt_of_pass? hpass⟩ hchain, by rwa [List.getLast?_cons_cons]⟩

/-- Stretches that are cut out of a text. Each one has an opening marker, a text and a closing
marker, and is listed by that text, behind the text that is kept before it. -/
structure Excision where
  cuts : List (Text × Text)
  /-- What is kept after the last stretch. -/
  rest : Text

namespace Excision

/-- The text with its stretches. -/
def whole (r : Region) (e : Excision) : Text :=
  e.cuts.flatMap (fun c => c.1 ++ (r.opening ++ c.2 ++ r.closing)) ++ e.rest

/-- The text without its stretches. -/
def kept (e : Excision) : Text := e.cuts.flatMap Prod.fst ++ e.rest

@[simp] theorem whole_nil (r : Region) (t : Text) : whole r ⟨[], t⟩ = t := rfl

@[simp] theorem kept_nil (t : Text) : kept ⟨[], t⟩ = t := rfl

@[simp] theorem whole_cons (r : Region) (p m : Text) (cuts : List (Text × Text)) (t : Text) :
    whole r ⟨(p, m) :: cuts, t⟩ = p ++ r.opening ++ m ++ r.closing ++ whole r ⟨cuts, t⟩ := by
  simp [whole]

@[simp] theorem kept_cons (p m : Text) (cuts : List (Text × Text)) (t : Text) :
    kept ⟨(p, m) :: cuts, t⟩ = p ++ kept ⟨cuts, t⟩ := by
  simp [kept]

end Excision

theorem EqBeforeNewlines.visible_eq (h : EqBeforeNewlines t t') : visible t = visible t' := by
  obtain ⟨p, s, s', rfl, rfl, hs, hs'⟩ := h
  rw [visible_append, visible_append, visible_newlines hs, visible_newlines hs']

theorem EqAfterNewlines.visible_eq (h : EqAfterNewlines t t') : visible t = visible t' := by
  obtain ⟨s, s', p, rfl, rfl, hs, hs'⟩ := h
  rw [visible_append, visible_append, visible_newlines hs, visible_newlines hs']

theorem EqAfterNewlines.of_takeNewline (h : EqAfterNewlines t.takeNewline.2 t') :
    EqAfterNewlines t t' := by
  obtain ⟨s, s', p, htake, rfl, hs, hs'⟩ := h
  refine ⟨t.takeNewline.1 ++ s, s', p, ?_, rfl, ?_, hs'⟩
  · rw [List.append_assoc, ← htake, takeNewline_append]
  · have hfirst : ∀ c ∈ t.takeNewline.1, c = '\n' := by
      unfold takeNewline
      split <;> simp
    exact fun c hc => (List.mem_append.1 hc).elim (hfirst c) (hs c)

/-- Stretches of joined texts are stretches of the text that a stretch was cut out of, and with that
one they leave the same, newlines apart. -/
theorem exists_excision_of_joined (hr : r.Lined) (hl : AtLineStart head')
    (hhead : EqBeforeNewlines head head') (htail : EqAfterNewlines tail tail') (m : Text)
    {e : Excision} (he : e.whole r = head' ++ tail') :
    ∃ e' : Excision, e'.whole r = head ++ r.opening ++ m ++ r.closing ++ tail ∧
      visible e'.kept = visible e.kept := by
  obtain ⟨cuts, rest⟩ := e
  induction cuts generalizing head head' with
  | nil =>
    rw [Excision.whole_nil] at he
    refine ⟨⟨[(head, m)], tail⟩, by simp, ?_⟩
    rw [Excision.kept_cons, Excision.kept_nil, Excision.kept_nil, he, visible_append,
      visible_append, hhead.visible_eq, htail.visible_eq]
  | cons cut cuts ih =>
    obtain ⟨p, n⟩ := cut
    rw [Excision.whole_cons] at he
    rw [Excision.kept_cons]
    rcases hl.occurrence_cases hr.newline_not_mem_closing he.symm with
      ⟨z, rfl, hrest⟩ | ⟨z, rfl, hz⟩
    -- The first stretch ends before the seam, which is a seam of the text after it.
    · obtain ⟨z', rfl, hseam⟩ :=
        hhead.symm.exists_append hr.newline_not_mem_closing hr.closing_ne_nil rfl
      obtain ⟨⟨cuts', rest'⟩, hwhole, hkept⟩ := ih hl.right hseam.symm hrest
      refine ⟨⟨(p, n) :: cuts', rest'⟩, ?_, ?_⟩
      · rw [Excision.whole_cons, hwhole]
        simp
      · rw [Excision.kept_cons, visible_append, visible_append, hkept]
    rcases hl.occurrence_cases hr.newline_not_mem_opening hz.symm with
      ⟨y, rfl, rfl⟩ | ⟨y, rfl, rfl⟩
    -- The first stretch runs across the seam and takes up the one that was cut out there.
    · obtain ⟨y', rfl, -⟩ :=
        hhead.symm.exists_append hr.newline_not_mem_opening hr.opening_ne_nil rfl
      have htail' : EqAfterNewlines (z ++ (r.closing ++ Excision.whole r ⟨cuts, rest⟩)) tail := by
        simpa using htail.symm
      obtain ⟨z', rfl, -⟩ :=
        htail'.exists_append hr.newline_not_mem_closing hr.closing_ne_nil rfl
      refine ⟨⟨(p, y' ++ (r.opening ++ m ++ r.closing) ++ z') :: cuts, rest⟩, by simp, ?_⟩
      rw [Excision.kept_cons]
    -- The first stretch begins after the seam and comes second.
    · have htail' : EqAfterNewlines
          (y ++ (r.opening ++ (n ++ r.closing ++ Excision.whole r ⟨cuts, rest⟩))) tail := by
        simpa using htail.symm
      obtain ⟨y', rfl, hseam⟩ :=
        htail'.exists_append hr.newline_not_mem_opening hr.opening_ne_nil rfl
      have hy : visible y = visible y' := by simpa using (hseam []).visible_eq
      refine ⟨⟨(head, m) :: (y', n) :: cuts, rest⟩, by simp, ?_⟩
      simp only [Excision.kept_cons, visible_append, hhead.visible_eq, hy, List.append_assoc]

/-- What a removal leaves of a text is, newlines apart, the text without stretches. -/
theorem exists_excision (hr : r.Lined) (t : Text) :
    ∃ e : Excision, e.whole r = t ∧ visible e.kept = visible (r.erase t) := by
  fun_induction erase r t with
  | case1 t h => exact ⟨⟨[], t⟩, rfl, rfl⟩
  | case2 t s h ih =>
    obtain ⟨e, hwhole, hkept⟩ := ih
    obtain ⟨a, m, b, ht, rfl⟩ := exists_spanOf_of_locate? h
    obtain ⟨head', tail', hgap, hl, hhead, htail⟩ := exists_closeGap_eq a b.takeNewline.2
    obtain ⟨e', hwhole', hkept'⟩ :=
      exists_excision_of_joined hr hl hhead htail.of_takeNewline m (hwhole.trans hgap)
    exact ⟨e', hwhole'.trans ht.symm, hkept'.trans hkept⟩

/-- A removal ends after finitely many passes, each of which shortens the text, and leaves nothing
to remove. A text without the region stays as it is; of any other text the visible characters stay,
in order, but for stretches from an opening through a closing marker. -/
theorem erase_ends_excised (hr : r.Lined) (t : Text) :
    (∃ texts : List Text,
      (t :: texts).IsChain (fun a b => r.pass? a = some b ∧ b.length < a.length) ∧
      (t :: texts).getLast? = some (r.erase t)) ∧
    r.locate? (r.erase t) = none ∧ r.erase (r.erase t) = r.erase t ∧
    (r.locate? t = none → r.erase t = t) ∧
    ∃ e : Excision, e.whole r = t ∧ visible e.kept = visible (r.erase t) :=
  ⟨exists_passes r t, locate?_erase r t, erase_eq_self (locate?_erase r t), erase_eq_self,
    exists_excision hr t⟩

/-- The second pass pairs markers that the first one left, and puts a newline in their place. -/
theorem erase_ends_excised_nested :
    let mine : Region := ⟨"# BEGIN Mine", "# END Mine"⟩
    let text : Text := "x# BEGIN Mine# BEGIN Mine# END Mine y# END Minez"
    mine.Lined ∧ mine.erase text = ("x\nz" : Text) ∧ mine.locate? (mine.erase text) = none ∧
      mine.erase (mine.erase text) = mine.erase text ∧
      ∃ e : Excision, e.whole mine = text ∧ visible e.kept = visible (mine.erase text) := by
  intro mine text
  have hmine : mine.Lined := ⟨by decide, by decide, by decide, by decide⟩
  obtain ⟨-, hgone, hagain, -, hexcision⟩ := erase_ends_excised hmine text
  exact ⟨hmine, by decide +kernel, hgone, hagain, hexcision⟩

end PageCache.Region
