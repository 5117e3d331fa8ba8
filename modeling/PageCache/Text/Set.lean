import PageCache.Text

/-! Finite sets of texts, kept as the list of their members in ascending order, which is the order
of their code points. Main statement: a set is made anew from its members. -/
namespace PageCache

structure TextSet where
  toList : List Text
  ascending : toList.Pairwise (· < ·)
  deriving DecidableEq, Repr

namespace TextSet

/-- Inserts into an ascending list, unless the text is in it. -/
def insertIn (x : Text) : List Text → List Text
  | [] => [x]
  | y :: ys => if x = y then y :: ys else if x < y then x :: y :: ys else y :: insertIn x ys

theorem mem_insertIn {x y : Text} {ys : List Text} : x ∈ insertIn y ys ↔ x = y ∨ x ∈ ys := by
  induction ys with
  | nil => simp [insertIn]
  | cons z zs ih => grind [insertIn]

theorem pairwise_insertIn (x : Text) {ys : List Text} (h : ys.Pairwise (· < ·)) :
    (insertIn x ys).Pairwise (· < ·) := by
  induction ys with
  | nil => simp [insertIn]
  | cons y ys ih =>
    obtain ⟨hy, hys⟩ := List.pairwise_cons.1 h
    unfold insertIn
    split
    · exact h
    · next hne =>
      split
      · next hlt =>
        refine List.pairwise_cons.2 ⟨fun z hz => ?_, h⟩
        rcases List.mem_cons.1 hz with rfl | hz
        · exact hlt
        · exact List.lt_trans hlt (hy z hz)
      · next hge =>
        refine List.pairwise_cons.2 ⟨fun z hz => ?_, ih hys⟩
        rcases mem_insertIn.1 hz with rfl | hz
        · exact Decidable.by_contra fun hle =>
            hne (List.le_antisymm (List.not_lt.1 hle) (List.not_lt.1 hge))
        · exact hy z hz

theorem insertIn_of_forall_lt {x : Text} {ys : List Text} (h : ∀ y ∈ ys, x < y) :
    insertIn x ys = x :: ys := by
  cases ys with
  | nil => rfl
  | cons y ys =>
    have hlt := h y List.mem_cons_self
    have hne : x ≠ y := fun e => List.lt_irrefl y (e ▸ hlt)
    simp [insertIn, hne, hlt]

def empty : TextSet := ⟨[], .nil⟩

instance : EmptyCollection TextSet := ⟨empty⟩

def insert (x : Text) (s : TextSet) : TextSet :=
  ⟨insertIn x s.toList, pairwise_insertIn x s.ascending⟩

def ofList (ts : List Text) : TextSet := ts.foldr insert empty

def isEmpty (s : TextSet) : Bool := s.toList.isEmpty

theorem mem_toList_ofList {x : Text} {ts : List Text} : x ∈ (ofList ts).toList ↔ x ∈ ts := by
  induction ts with
  | nil => simp [ofList, empty]
  | cons t ts ih =>
    rw [List.mem_cons, ← ih]
    exact mem_insertIn

theorem nodup_toList (s : TextSet) : s.toList.Nodup := by
  refine s.ascending.imp ?_
  rintro x _ hlt rfl
  exact List.lt_irrefl x hlt

theorem mem_left_of_lt {s : TextSet} {xs ys : List Text} {x y : Text}
    (h : s.toList = xs ++ x :: ys) (hy : y ∈ s.toList) (hlt : y < x) : y ∈ xs := by
  have hascending := s.ascending
  rw [h, List.pairwise_append, List.pairwise_cons] at hascending
  rw [h] at hy
  rcases List.mem_append.1 hy with hy | hy
  · exact hy
  · rcases List.mem_cons.1 hy with rfl | hy
    · exact absurd hlt (List.lt_irrefl y)
    · exact absurd hlt (List.lt_asymm (hascending.2.1.1 y hy))

theorem ofList_toList (s : TextSet) : ofList s.toList = s := by
  obtain ⟨ts, h⟩ := s
  induction ts with
  | nil => rfl
  | cons t ts ih =>
    obtain ⟨ht, hts⟩ := List.pairwise_cons.1 h
    have := congrArg toList (ih hts)
    simp only [ofList, List.foldr_cons, insert, mk.injEq] at this ⊢
    rw [this, insertIn_of_forall_lt ht]

end TextSet
end PageCache
