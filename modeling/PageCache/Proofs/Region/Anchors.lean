import PageCache.Proofs.Text.Lines

/-! Where a new block goes: the first anchor whose marker occurs cuts the text before that marker or
after its line, and without such an anchor the block goes to the end. -/
namespace PageCache

open Text

namespace Anchor

variable {i : Anchor} {a u text : Text} {place : Text × Text}

/-- The place of the anchor in a text with these texts around its marker. -/
def cut (i : Anchor) (a u : Text) : Text × Text :=
  match i.place with
  | .before => (a, i.marker ++ u)
  | .after => (a ++ (i.marker ++ u.takeNewline.1), u.takeNewline.2)

theorem split?_eq_cut (hne : i.marker ≠ []) (h : text.splitFirst? i.marker = some (a, u)) :
    i.split? text = some (i.cut a u) := by
  rw [split?, if_neg (by simpa using hne), h, Option.map_some, cut]
  cases i.place with
  | before => rfl
  | after => simp

theorem split?_of_firstAfter (hne : i.marker ≠ []) (h : FirstAfter i.marker a) (u : Text) :
    i.split? (a ++ (i.marker ++ u)) = some (i.cut a u) :=
  split?_eq_cut hne (splitFirst?_of_firstAfter h u)

theorem exists_of_split? (h : i.split? text = some place) :
    ∃ a u, text = a ++ (i.marker ++ u) ∧ FirstAfter i.marker a ∧ place = i.cut a u := by
  by_cases hne : i.marker = []
  · rw [split?, if_pos (by simpa using hne)] at h
    cases h
  rcases hfirst : text.splitFirst? i.marker with _ | ⟨a, u⟩
  · rw [split?, hfirst] at h
    simp at h
  · have hcut := split?_eq_cut hne hfirst
    refine ⟨a, u, by simpa using eq_of_splitFirst? hfirst, firstAfter_of_splitFirst? hne hfirst, ?_⟩
    exact Option.some.inj (h.symm.trans hcut)

theorem split?_eq_none (h : ¬ i.marker <:+: text) : i.split? text = none := by
  rw [split?, splitFirst?_eq_none_iff.2 h]
  simp

theorem cut_append_left (x a u : Text) :
    i.cut (x ++ a) u = (x ++ (i.cut a u).1, (i.cut a u).2) := by
  unfold cut
  cases i.place <;> simp

theorem cut_append (i : Anchor) (a u : Text) :
    (i.cut a u).1 ++ (i.cut a u).2 = a ++ (i.marker ++ u) := by
  unfold cut
  cases i.place with
  | before => rfl
  | after => simp [takeNewline_append]

theorem append_of_split? (h : i.split? text = some place) : place.1 ++ place.2 = text := by
  obtain ⟨a, u, rfl, -, rfl⟩ := exists_of_split? h
  exact cut_append i a u

end Anchor

namespace Region

variable {text : Text}

/-- Where a new block goes: at the first anchor that occurs, else at the end. -/
def placeOf (anchors : List Anchor) (text : Text) : Text × Text :=
  (anchors.findSome? (·.split? text)).getD (text, [])

theorem placeOf_append (anchors : List Anchor) (text : Text) :
    (placeOf anchors text).1 ++ (placeOf anchors text).2 = text := by
  match h : anchors.findSome? (·.split? text) with
  | none => simp [placeOf, h]
  | some place =>
    obtain ⟨i, -, hi⟩ := List.exists_of_findSome?_eq_some h
    rw [placeOf, h, Option.getD_some, Anchor.append_of_split? hi]

end Region

end PageCache
