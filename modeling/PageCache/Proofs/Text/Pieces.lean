import Mathlib
import PageCache.Text

/-! Splitting texts that are made of parts, at a character that stands in none of them or begins
one; and texts of numbers. -/
namespace PageCache.Text

variable {sep : Char} {a b t piece : Text} {pieces : List Text}

theorem splitOn_sep_cons (sep : Char) (t : Text) :
    splitOn (sep :: t) sep = [] :: splitOn t sep := by
  rw [splitOn, if_pos rfl]

theorem splitOn_cons_of_ne {c : Char} (hc : c ≠ sep) (h : splitOn t sep = piece :: pieces) :
    splitOn (c :: t) sep = (c :: piece) :: pieces := by
  rw [splitOn, if_neg hc, h]

/-- There is a first piece, which begins as the text does unless it is empty. -/
theorem exists_splitOn_eq_cons (t : Text) (sep : Char) :
    ∃ piece pieces, splitOn t sep = piece :: pieces ∧
      ∀ c, piece.head? = some c → t.head? = some c := by
  induction t with
  | nil => exact ⟨[], [], rfl, by simp⟩
  | cons c t ih =>
    by_cases hc : c = sep
    · subst hc
      exact ⟨[], splitOn t c, splitOn_sep_cons c t, by simp⟩
    · obtain ⟨piece, pieces, h, -⟩ := ih
      exact ⟨c :: piece, pieces, splitOn_cons_of_ne hc h, by simp⟩

theorem splitOn_append (ha : sep ∉ a) (h : splitOn b sep = piece :: pieces) :
    splitOn (a ++ b) sep = (a ++ piece) :: pieces := by
  induction a with
  | nil => exact h
  | cons c a ih =>
    have hc : c ≠ sep := fun hc => ha (by simp [hc])
    exact splitOn_cons_of_ne hc (ih fun hs => ha (List.mem_cons_of_mem c hs))

theorem splitOn_of_not_mem (ha : sep ∉ a) : splitOn a sep = [a] := by
  have h : splitOn ([] : Text) sep = [[]] := rfl
  simpa using splitOn_append ha h

theorem splitOn_append_sep (a b : Text) (sep : Char) :
    splitOn (a ++ sep :: b) sep = splitOn a sep ++ splitOn b sep := by
  induction a with
  | nil => exact splitOn_sep_cons sep b
  | cons c a ih =>
    by_cases hc : c = sep
    · rw [hc, List.cons_append, splitOn_sep_cons, splitOn_sep_cons, ih, List.cons_append]
    · obtain ⟨piece, pieces, h, -⟩ := exists_splitOn_eq_cons a sep
      have hab : splitOn (a ++ sep :: b) sep = piece :: (pieces ++ splitOn b sep) := by
        rw [ih, h, List.cons_append]
      rw [List.cons_append, splitOn_cons_of_ne hc hab, splitOn_cons_of_ne hc h, List.cons_append]

/-- Pieces that each follow a separator are the pieces after the first. -/
theorem splitOn_flatMap (h : ∀ piece ∈ pieces, sep ∉ piece) :
    splitOn (pieces.flatMap (sep :: ·)) sep = [] :: pieces := by
  induction pieces with
  | nil => rfl
  | cons piece pieces ih =>
    obtain ⟨hpiece, hpieces⟩ := List.forall_mem_cons.1 h
    rw [List.flatMap_cons, List.cons_append, splitOn_sep_cons, splitOn_append hpiece (ih hpieces),
      List.append_nil]

theorem flatMap_sep_injective {others : List Text} (h : ∀ piece ∈ pieces, sep ∉ piece)
    (hothers : ∀ piece ∈ others, sep ∉ piece)
    (heq : pieces.flatMap (sep :: ·) = others.flatMap (sep :: ·)) : pieces = others := by
  have hsplit := congrArg (splitOn · sep) heq
  simpa [splitOn_flatMap h, splitOn_flatMap hothers] using hsplit

theorem splitFirst?_sep (ha : sep ∉ a) (b : Text) :
    splitFirst? (a ++ sep :: b) [sep] = some (a, b) := by
  induction a with
  | nil => simp [splitFirst?, stripPrefix?]
  | cons c a ih =>
    have hc : c ≠ sep := fun hc => ha (by simp [hc])
    have hnone : stripPrefix? (c :: (a ++ sep :: b)) [sep] = none := by
      rw [stripPrefix?, if_neg hc]
    rw [List.cons_append, splitFirst?, hnone, ih fun hs => ha (List.mem_cons_of_mem c hs)]
    rfl

theorem ofNat_inj {m n : ℕ} : ofNat m = ofNat n ↔ m = n := by
  refine ⟨fun h => ?_, congrArg ofNat⟩
  rw [← Nat.ofDigitChars_ten_toDigits (n := m), ← Nat.ofDigitChars_ten_toDigits (n := n)]
  exact congrArg (Nat.ofDigitChars 10 · 0) h

theorem join_append {ps qs : List Text} (hps : ps ≠ []) (hqs : qs ≠ []) (sep : Text) :
    join (ps ++ qs) sep = join ps sep ++ (sep ++ join qs sep) := by
  induction ps with
  | nil => exact absurd rfl hps
  | cons p ps ih =>
    by_cases hnil : ps = []
    · subst hnil
      simp [join, List.intercalate_cons_of_ne_nil hqs]
    · have happ : ps ++ qs ≠ [] := by simp [hnil]
      have hrest : join (ps ++ qs) sep = join ps sep ++ (sep ++ join qs sep) := ih hnil
      rw [List.cons_append, join, List.intercalate_cons_of_ne_nil happ, join,
        List.intercalate_cons_of_ne_nil hnil]
      simpa [join] using hrest

end PageCache.Text
