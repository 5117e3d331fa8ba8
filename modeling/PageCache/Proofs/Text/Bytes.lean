import Mathlib
import PageCache.Utf8

/-! The order of texts. Texts that are ordered by their characters are ordered by their bytes: two
characters differ in a byte, and the greater character has the greater one. -/
namespace PageCache.Utf8

def bytes (t : Text) : List UInt8 := (encode t).data.toList

theorem bytes_eq (t : Text) : bytes t = t.flatMap String.utf8EncodeChar :=
  List.toList_data_toByteArray

/-- The bytes of a greater character are greater, whatever follows. -/
theorem utf8EncodeChar_append_lt {c d : Char} (h : c < d) (x y : List UInt8) :
    String.utf8EncodeChar c ++ x < String.utf8EncodeChar d ++ y := by
  have hlt : c.val.toNat < d.val.toNat := h
  have hd : d.val.toNat < 0x110000 := by
    have := d.valid
    simp only [UInt32.isValidChar, Nat.isValidChar] at this
    omega
  unfold String.utf8EncodeChar
  generalize c.val.toNat = v at hlt ⊢
  generalize d.val.toNat = w at hlt hd ⊢
  have hdigits : ∀ n, n / 4096 = n / 64 / 64 ∧ n / 262144 = n / 64 / 64 / 64 := by omega
  simp only [hdigits]
  split_ifs <;>
    simp only [List.cons_append, List.nil_append, List.cons_lt_cons_iff, UInt8.lt_iff_toNat_lt,
      ← UInt8.toNat_inj, UInt8.toNat_ofNat'] <;>
    simp (disch := omega) only [Nat.mod_eq_of_lt] <;> omega

theorem bytes_lt_bytes {t u : Text} (h : t < u) : bytes t < bytes u := by
  rw [bytes_eq, bytes_eq]
  induction t generalizing u with
  | nil =>
    match u, h with
    | d :: u, _ =>
      obtain ⟨b, bs, hbytes⟩ := List.exists_cons_of_ne_nil (String.utf8EncodeChar_ne_nil (c := d))
      rw [List.flatMap_nil, List.flatMap_cons, hbytes]
      exact List.nil_lt_cons _ _
  | cons c t ih =>
    match u, h with
    | d :: u, h =>
      rw [List.flatMap_cons, List.flatMap_cons]
      rcases List.cons_lt_cons_iff.1 h with hlt | ⟨rfl, hlt⟩
      · exact utf8EncodeChar_append_lt hlt _ _
      · exact List.append_left_lt (ih hlt)

theorem bytes_le_bytes_iff {t u : Text} : bytes t ≤ bytes u ↔ ¬ u < t := by
  constructor
  · exact fun hle hlt => List.not_lt.2 hle (bytes_lt_bytes hlt)
  · intro hlt
    rcases List.le_iff_lt_or_eq.1 (List.not_lt.1 hlt) with hlt | rfl
    · exact List.le_of_lt (bytes_lt_bytes hlt)
    · exact List.le_refl _

end PageCache.Utf8
