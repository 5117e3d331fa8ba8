import PageCache.Proofs.Text.Bytes

/-! Byte offsets in texts. The length of a text in bytes is additive, and among the beginnings of one
text it grows with the length in characters, so that an offset stands for at most one of them. -/
namespace PageCache

namespace Utf8

theorem length_bytes (t : Text) : (bytes t).length = t.utf8Length := by
  have hfold : ∀ n, t.foldl (fun n c => n + c.utf8Size) n = n + (bytes t).length := by
    rw [bytes_eq]
    induction t with
    | nil => simp
    | cons c t ih =>
      intro n
      rw [List.foldl_cons, ih, List.flatMap_cons, List.length_append, String.length_utf8EncodeChar,
        Nat.add_assoc]
  rw [Text.utf8Length, hfold, Nat.zero_add]

end Utf8

namespace Text

variable {t needle a b : Text}

@[simp] theorem utf8Length_append (a b : Text) :
    (a ++ b).utf8Length = a.utf8Length + b.utf8Length := by
  simp only [← Utf8.length_bytes, Utf8.bytes_eq, List.flatMap_append, List.length_append]

theorem utf8Length_pos (h : t ≠ []) : 0 < t.utf8Length := by
  obtain ⟨c, t, rfl⟩ := List.exists_cons_of_ne_nil h
  rw [← Utf8.length_bytes, Utf8.bytes_eq, List.flatMap_cons, List.length_append,
    String.length_utf8EncodeChar]
  have := c.utf8Size_pos
  omega

/-- Of two beginnings of a text, the one with fewer characters has fewer bytes. -/
theorem utf8Length_le_iff (ha : a <+: t) (hb : b <+: t) :
    a.utf8Length ≤ b.utf8Length ↔ a.length ≤ b.length := by
  constructor
  · intro h
    by_contra hlt
    obtain ⟨u, rfl⟩ := List.prefix_of_prefix_length_le hb ha (by omega)
    rw [utf8Length_append] at h
    rw [List.length_append] at hlt
    have := utf8Length_pos (t := u) (by rintro rfl; simp at hlt)
    omega
  · intro h
    obtain ⟨u, rfl⟩ := List.prefix_of_prefix_length_le ha hb h
    rw [utf8Length_append]
    omega

theorem eq_of_utf8Length_eq (ha : a <+: t) (hb : b <+: t) (h : a.utf8Length = b.utf8Length) :
    a = b := by
  have hab := (utf8Length_le_iff ha hb).1 h.le
  have hba := (utf8Length_le_iff hb ha).1 h.ge
  exact (List.prefix_of_prefix_length_le ha hb hab).eq_of_length (le_antisymm hab hba)

/-- The needle occurs in the text from this byte on. -/
def OccursAt (t needle : Text) (i : ℕ) : Prop := ∃ x y, t = x ++ needle ++ y ∧ x.utf8Length = i

theorem occursAt_append_iff : (a ++ b).OccursAt needle a.utf8Length ↔ needle <+: b := by
  constructor
  · rintro ⟨x, y, hxy, hx⟩
    rw [List.append_assoc] at hxy
    have hax : x = a := eq_of_utf8Length_eq ⟨_, hxy.symm⟩ (List.prefix_append a b) hx
    rw [hax] at hxy
    exact ⟨y, (List.append_cancel_left hxy).symm⟩
  · rintro ⟨y, rfl⟩
    exact ⟨a, y, by simp, rfl⟩

end Text

end PageCache
