import Mathlib
import PageCache.Decision.Program

/-! Paths up to repeated slashes. The candidate of a cache target is its parts, each without the
slashes around it, with one slash between neighbours; up to repeated slashes it is what comes of
writing a slash between all the parts as they are. -/
namespace PageCache

namespace Path

/-- The path with one slash in place of each run of slashes. -/
def squeeze : Text → Text
  | [] => []
  | c :: t => if c = '/' ∧ t.head? = some '/' then squeeze t else c :: squeeze t

/-- The paths differ in repeated slashes at most. -/
def Alike (a b : Text) : Prop := squeeze a = squeeze b

/-- Whether there is a file does not depend on repeated slashes in its path. -/
def SlashBlind (fileExists : Text → Bool) : Prop :=
  ∀ a b, Alike a b → fileExists a = fileExists b

instance (a b : Text) : Decidable (Alike a b) := inferInstanceAs (Decidable (squeeze a = squeeze b))

theorem head?_squeeze (t : Text) : (squeeze t).head? = t.head? := by
  induction t with
  | nil => rfl
  | cons c t ih =>
    unfold squeeze
    split
    · next h => rw [ih, h.2, h.1, List.head?_cons]
    · rfl

theorem squeeze_squeeze (t : Text) : squeeze (squeeze t) = squeeze t := by
  induction t with
  | nil => rfl
  | cons c t ih =>
    rw [squeeze]
    split
    · exact ih
    · next h => rw [squeeze, head?_squeeze, if_neg h, ih]

theorem squeeze_squeeze_append (a b : Text) : squeeze (squeeze a ++ b) = squeeze (a ++ b) := by
  induction a with
  | nil => rfl
  | cons c a ih =>
    have hh : (squeeze a ++ b).head? = (a ++ b).head? := by
      simp only [List.head?_append, head?_squeeze]
    by_cases h : c = '/' ∧ a.head? = some '/'
    · have h' : c = '/' ∧ (a ++ b).head? = some '/' := by simp [h]
      rw [squeeze, if_pos h, ih, List.cons_append, squeeze, if_pos h']
    · rw [squeeze, if_neg h, List.cons_append, List.cons_append, squeeze, squeeze, hh, ih]

theorem squeeze_append_squeeze (a b : Text) : squeeze (a ++ squeeze b) = squeeze (a ++ b) := by
  induction a with
  | nil => exact squeeze_squeeze b
  | cons c a ih =>
    have hh : (a ++ squeeze b).head? = (a ++ b).head? := by
      simp only [List.head?_append, head?_squeeze]
    rw [List.cons_append, List.cons_append, squeeze, squeeze, hh, ih]

namespace Alike

theorem refl (a : Text) : Alike a a := rfl

theorem symm {a b : Text} (h : Alike a b) : Alike b a := Eq.symm h

theorem trans {a b c : Text} (h : Alike a b) (h' : Alike b c) : Alike a c := Eq.trans h h'

theorem append {a b c d : Text} (h : Alike a b) (h' : Alike c d) : Alike (a ++ c) (b ++ d) := by
  unfold Alike at *
  rw [← squeeze_squeeze_append, ← squeeze_append_squeeze, h, h', squeeze_append_squeeze,
    squeeze_squeeze_append]

end Alike

theorem count_squeeze {c : Char} (hc : c ≠ '/') (t : Text) : (squeeze t).count c = t.count c := by
  induction t with
  | nil => rfl
  | cons d t ih =>
    unfold squeeze
    split
    · next h => rw [ih, h.1, List.count_cons_of_ne hc.symm]
    · simp [List.count_cons, ih]

theorem Alike.count_eq {a b : Text} (h : Alike a b) {c : Char} (hc : c ≠ '/') :
    a.count c = b.count c := by
  rw [← count_squeeze hc a, ← count_squeeze hc b, h]

theorem alike_slash_slashes {s : Text} (h : ∀ c ∈ s, c = '/') : Alike ('/' :: s) "/" := by
  induction s with
  | nil => rfl
  | cons c s ih =>
    obtain rfl := h c (by simp)
    have := ih fun c hc => h c (by simp [hc])
    simpa [Alike, squeeze] using this

theorem alike_slashes_slash {s : Text} (h : ∀ c ∈ s, c = '/') : Alike (s ++ ['/']) "/" := by
  have hs : s ++ ['/'] = '/' :: s := by
    rw [List.eq_replicate_iff.2 ⟨rfl, h⟩, ← List.replicate_succ', List.replicate_succ]
  rw [hs]
  exact alike_slash_slashes h

end Path

namespace Text

theorem exists_eq_trimEnd_append (t : Text) (p : Char → Bool) :
    ∃ s, t = t.trimEnd p ++ s ∧ ∀ c ∈ s, p c = true := by
  refine ⟨(t.reverse.takeWhile p).reverse, ?_, fun c hc => ?_⟩
  · rw [trimEnd, ← List.reverse_append, List.takeWhile_append_dropWhile, List.reverse_reverse]
  · exact List.mem_takeWhile_imp (List.mem_reverse.1 hc)

theorem getLast?_trimEnd (t : Text) (p : Char → Bool) (c : Char)
    (h : (t.trimEnd p).getLast? = some c) : p c = false := by
  rw [trimEnd, List.getLast?_reverse] at h
  have := List.head?_dropWhile_not p t.reverse
  rw [h] at this
  simpa using this

theorem head?_trimStart (t : Text) (p : Char → Bool) (c : Char)
    (h : (t.trimStart p).head? = some c) : p c = false := by
  have := List.head?_dropWhile_not p t
  rw [trimStart] at h
  rw [h] at this
  simpa using this

theorem exists_eq_trimSlashes (t : Text) :
    ∃ l r, t = l ++ t.trimSlashes ++ r ∧ (∀ c ∈ l, c = '/') ∧ ∀ c ∈ r, c = '/' := by
  obtain ⟨r, hr, hrs⟩ := exists_eq_trimEnd_append (t.trimStart (· == '/')) (· == '/')
  refine ⟨t.takeWhile (· == '/'), r, ?_, fun c hc => ?_, fun c hc => by simpa using hrs c hc⟩
  · rw [trimSlashes, List.append_assoc, ← hr, trimStart, List.takeWhile_append_dropWhile]
  · simpa using List.mem_takeWhile_imp hc

theorem head?_trimSlashes_ne (t : Text) : t.trimSlashes.head? ≠ some '/' := by
  intro h
  obtain ⟨s, hs, -⟩ := exists_eq_trimEnd_append (t.trimStart (· == '/')) (· == '/')
  have h' : (t.trimStart (· == '/')).head? = some '/' := by
    rw [hs, List.head?_append, show (t.trimStart (· == '/')).trimEnd (· == '/') = t.trimSlashes
      from rfl, h]
    rfl
  simpa using head?_trimStart t _ '/' h'

theorem getLast?_trimSlashes_ne (t : Text) : t.trimSlashes.getLast? ≠ some '/' := fun h => by
  simpa using getLast?_trimEnd _ _ '/' h

theorem getLast?_trimEndSlashes_ne (t : Text) : t.trimEndSlashes.getLast? ≠ some '/' :=
  fun h => by simpa using getLast?_trimEnd t _ '/' h

/-- Between slashes it does not matter whether the slashes around a text are left out. -/
theorem alike_trimSlashes (t : Text) :
    Path.Alike ('/' :: t.trimSlashes ++ ['/']) ('/' :: t ++ ['/']) := by
  obtain ⟨l, r, ht, hl, hr⟩ := exists_eq_trimSlashes t
  have h := ((Path.alike_slash_slashes hl).append (.refl t.trimSlashes)).append
    (Path.alike_slashes_slash hr)
  have hs : '/' :: l ++ t.trimSlashes ++ (r ++ ['/']) = '/' :: t ++ ['/'] := by
    conv_rhs => rw [ht]
    simp
  rw [hs] at h
  exact h.symm

end Text
end PageCache
