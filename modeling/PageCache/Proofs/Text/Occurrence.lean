import Mathlib
import PageCache.Text

/-! Where a needle occurs in a text: the searches for its first and its last occurrence, and how an
occurrence lies in a text made of lines. -/
namespace PageCache.Text

theorem stripPrefix?_eq_some_iff {t p r : Text} : stripPrefix? t p = some r ↔ t = p ++ r := by
  refine ⟨eq_of_stripPrefix?, ?_⟩
  rintro rfl
  induction p with
  | nil => simp [stripPrefix?]
  | cons c p ih => simpa [stripPrefix?] using ih

theorem stripPrefix?_eq_none_iff {t p : Text} : stripPrefix? t p = none ↔ ¬ p <+: t := by
  rw [Option.eq_none_iff_forall_ne_some]
  constructor
  · rintro h ⟨r, rfl⟩
    exact h r (stripPrefix?_eq_some_iff.2 rfl)
  · intro h r hr
    exact h ⟨r, (stripPrefix?_eq_some_iff.1 hr).symm⟩

theorem stripSuffix?_eq_some_iff {t ending a : Text} :
    stripSuffix? t ending = some a ↔ t = a ++ ending := by
  simp only [stripSuffix?, Option.map_eq_some_iff, stripPrefix?_eq_some_iff]
  constructor
  · rintro ⟨b, hb, rfl⟩
    simpa using congrArg List.reverse hb
  · rintro rfl
    exact ⟨a.reverse, by simp, by simp⟩

theorem endsWith_iff {t s : Text} : t.endsWith s = true ↔ s <:+ t := List.isSuffixOf_iff_suffix

/-- A search that fails has passed no occurrence. -/
theorem splitFirst?_eq_none_iff {t needle : Text} :
    splitFirst? t needle = none ↔ ¬ needle <:+: t := by
  induction t with
  | nil =>
    rw [splitFirst?, Option.map_eq_none_iff, stripPrefix?_eq_none_iff]
    simp
  | cons c t ih =>
    rw [List.infix_cons_iff, splitFirst?]
    split
    · next r hr =>
      have := stripPrefix?_eq_some_iff.1 hr
      simp [this]
    · next hr => simp [ih, stripPrefix?_eq_none_iff.1 hr]

theorem splitLast?_eq_none_iff {t needle : Text} :
    splitLast? t needle = none ↔ ¬ needle <:+: t := by
  induction t with
  | nil =>
    rw [splitLast?, Option.map_eq_none_iff, stripPrefix?_eq_none_iff]
    simp
  | cons c t ih =>
    rw [List.infix_cons_iff, splitLast?]
    split
    · next s hs =>
      have h : ¬ ¬ needle <:+: t := fun h => by simp [ih.2 h] at hs
      simp [not_not.1 h]
    · next hs => simp [ih.1 hs, Option.map_eq_none_iff, stripPrefix?_eq_none_iff]

theorem includes_iff {t needle : Text} : t.includes needle = true ↔ needle <:+: t := by
  rw [includes, Option.isSome_iff_ne_none, ne_eq, splitFirst?_eq_none_iff, not_not]

theorem length_le_of_splitFirst? {t needle a b x y : Text}
    (h : splitFirst? t needle = some (a, b)) (ht : t = x ++ needle ++ y) :
    a.length ≤ x.length := by
  induction t generalizing a x with
  | nil =>
    obtain ⟨r, -, he⟩ := Option.map_eq_some_iff.1 h
    cases he
    simp
  | cons c t ih =>
    unfold splitFirst? at h
    split at h
    · cases h
      simp
    · next hr =>
      obtain ⟨⟨a', b'⟩, hs, he⟩ := Option.map_eq_some_iff.1 h
      cases he
      cases x with
      | nil => exact absurd ⟨y, by simpa using ht.symm⟩ (stripPrefix?_eq_none_iff.1 hr)
      | cons d x =>
        obtain ⟨rfl, rfl⟩ := List.cons.inj (by simpa using ht)
        simpa using @ih _ x hs (by simp)

theorem length_le_of_splitLast? {t needle a b x y : Text}
    (h : splitLast? t needle = some (a, b)) (ht : t = x ++ needle ++ y) :
    x.length ≤ a.length := by
  induction t generalizing a x with
  | nil =>
    have := congrArg List.length ht
    simp only [List.length_append, List.length_nil] at this
    omega
  | cons c t ih =>
    unfold splitLast? at h
    split at h
    · next s hs =>
      cases h
      cases x with
      | nil => simp
      | cons d x =>
        obtain ⟨rfl, rfl⟩ := List.cons.inj (by simpa using ht)
        simpa using @ih _ x hs (by simp)
    · next hs =>
      cases x with
      | nil => simp
      | cons d x =>
        obtain ⟨rfl, rfl⟩ := List.cons.inj (by simpa using ht)
        exact absurd ⟨x, y, by simp⟩ (splitLast?_eq_none_iff.1 hs)

/-- An occurrence before which none begins is the first one. -/
theorem splitFirst?_eq_some {a needle b : Text}
    (h : ∀ x y, a ++ needle ++ b = x ++ needle ++ y → a.length ≤ x.length) :
    splitFirst? (a ++ needle ++ b) needle = some (a, b) := by
  match hs : splitFirst? (a ++ needle ++ b) needle with
  | none => exact absurd ⟨a, b, rfl⟩ (splitFirst?_eq_none_iff.1 hs)
  | some (x, y) =>
    have he := eq_of_splitFirst? hs
    have hl : a.length = x.length :=
      le_antisymm (h x y he) (length_le_of_splitFirst? hs rfl)
    simp only [List.append_assoc] at he
    obtain ⟨rfl, hb⟩ := List.append_inj he hl
    rw [List.append_cancel_left hb]

/-- An occurrence after which none begins is the last one. -/
theorem splitLast?_eq_some {a needle b : Text}
    (h : ∀ x y, a ++ needle ++ b = x ++ needle ++ y → x.length ≤ a.length) :
    splitLast? (a ++ needle ++ b) needle = some (a, b) := by
  match hs : splitLast? (a ++ needle ++ b) needle with
  | none => exact absurd ⟨a, b, rfl⟩ (splitLast?_eq_none_iff.1 hs)
  | some (x, y) =>
    have he := eq_of_splitLast? hs
    have hl : a.length = x.length :=
      le_antisymm (length_le_of_splitLast? hs rfl) (h x y he)
    simp only [List.append_assoc] at he
    obtain ⟨rfl, hb⟩ := List.append_inj he hl
    rw [List.append_cancel_left hb]

/-- The last occurrence is the one with no other one from its beginning on. -/
theorem splitLast?_eq_some_iff {t needle a b : Text} :
    splitLast? t needle = some (a, b) ↔
      t = a ++ needle ++ b ∧ ∀ x y, needle ++ b = x ++ needle ++ y → x = [] := by
  constructor
  · intro h
    refine ⟨eq_of_splitLast? h, fun x y hxy => ?_⟩
    have ht : t = (a ++ x) ++ needle ++ y := by
      rw [eq_of_splitLast? h, List.append_assoc, hxy]
      simp
    have hle := length_le_of_splitLast? h ht
    rw [List.length_append] at hle
    exact List.length_eq_zero_iff.1 (by omega)
  · rintro ⟨rfl, hnear⟩
    refine splitLast?_eq_some fun x y hxy => ?_
    by_contra hlt
    have hlen : a.length ≤ x.length := by omega
    rw [List.append_assoc, List.append_assoc] at hxy
    obtain ⟨d, rfl⟩ := List.prefix_of_prefix_length_le ⟨_, hxy⟩ (List.prefix_append x _) hlen
    rw [List.append_assoc, List.append_cancel_left_eq, ← List.append_assoc] at hxy
    rw [hnear d y hxy] at hlt
    simp at hlt

/-- What comes after a text does not change its first occurrence. -/
theorem splitFirst?_append {t needle a b : Text} (h : splitFirst? t needle = some (a, b))
    (u : Text) : splitFirst? (t ++ u) needle = some (a, b ++ u) := by
  have ht := eq_of_splitFirst? h
  have htu : t ++ u = a ++ needle ++ (b ++ u) := by rw [ht, List.append_assoc]
  rw [htu]
  refine splitFirst?_eq_some fun x y hxy => ?_
  by_contra hlt
  have hlen : (x ++ needle).length ≤ t.length := by
    rw [ht]
    simp only [List.length_append]
    omega
  have hprefix : x ++ needle <+: t ++ u := ⟨y, by rw [htu, hxy]⟩
  obtain ⟨z, hz⟩ := List.prefix_of_prefix_length_le hprefix (List.prefix_append t u) hlen
  exact hlt (length_le_of_splitFirst? h hz.symm)

/-- No occurrence of a needle that stands after the text begins within the text. -/
def FirstAfter (needle a : Text) : Prop := ¬ needle <:+: a ++ needle.dropLast

theorem splitFirst?_of_firstAfter {needle a : Text} (h : FirstAfter needle a) (b : Text) :
    splitFirst? (a ++ (needle ++ b)) needle = some (a, b) := by
  rw [← List.append_assoc]
  refine splitFirst?_eq_some fun x y hxy => ?_
  by_contra hlt
  have hlen : (x ++ needle).length ≤ (a ++ needle.dropLast).length := by
    simp only [List.length_append, List.length_dropLast]
    omega
  have hshort : a ++ needle.dropLast <+: a ++ needle ++ b :=
    ((List.prefix_append_right_inj a).2 (List.dropLast_prefix needle)).trans
      (List.prefix_append _ b)
  have hprefix : x ++ needle <+: a ++ needle.dropLast :=
    List.prefix_of_prefix_length_le ⟨y, hxy.symm⟩ hshort hlen
  exact h ((List.suffix_append x needle).isInfix.trans hprefix.isInfix)

theorem firstAfter_of_splitFirst? {t needle a b : Text} (hne : needle ≠ [])
    (h : splitFirst? t needle = some (a, b)) : FirstAfter needle a := by
  rintro ⟨x, y, hxy⟩
  have ht : t = x ++ needle ++ (y ++ ([needle.getLast hne] ++ b)) := by
    conv_lhs => rw [eq_of_splitFirst? h, ← List.dropLast_append_getLast hne]
    rw [← List.append_assoc a, ← hxy]
    simp
  have hle := length_le_of_splitFirst? h ht
  have hlen := congrArg List.length hxy
  have hpos := List.length_pos_iff.2 hne
  simp only [List.length_append, List.length_dropLast] at hlen
  omega

theorem infix_append_cases {m a t : Text} (h : m <:+: a ++ t) :
    m <:+: a ∨ m <:+: t ∨ ∃ u v, u ≠ [] ∧ v ≠ [] ∧ m = u ++ v ∧ u <:+ a ∧ v <+: t := by
  obtain ⟨x, y, hxy⟩ := h
  rw [List.append_assoc] at hxy
  rcases List.append_eq_append_iff.1 hxy with ⟨z, ha, hz⟩ | ⟨z, hx, hz⟩
  · rcases List.append_eq_append_iff.1 hz with ⟨w, hw, -⟩ | ⟨w, hm, ht⟩
    · exact .inl ⟨x, w, by rw [ha, hw, List.append_assoc]⟩
    · by_cases hz' : z = []
      · exact .inr (.inl ⟨[], y, by rw [ht, hm, hz']; simp⟩)
      · by_cases hw : w = []
        · exact .inl ⟨x, [], by rw [ha, hm, hw]; simp⟩
        · exact .inr (.inr ⟨z, w, hz', hw, hm, ⟨x, ha.symm⟩, ⟨y, ht.symm⟩⟩)
  · exact .inr (.inl ⟨z, y, by rw [hz, List.append_assoc]⟩)

/-- A needle whose first character is its own lies after a text unless it lies within it. -/
theorem firstAfter_cons_iff {c : Char} {m a : Text} (hc : c ∉ m) :
    FirstAfter (c :: m) a ↔ ¬ c :: m <:+: a := by
  refine not_congr ⟨fun h => ?_, fun h => h.trans (List.prefix_append a _).isInfix⟩
  rcases infix_append_cases h with h | h | ⟨u, v, hu, hv, hneedle, -, hv'⟩
  · exact h
  · have hlen := h.length_le
    simp at hlen
  · -- the part beyond the text begins with the first character, which the needle has only once
    obtain ⟨d, u, rfl⟩ := List.exists_cons_of_ne_nil hu
    obtain ⟨rfl, rfl⟩ := List.cons.inj hneedle
    obtain ⟨e, v, rfl⟩ := List.exists_cons_of_ne_nil hv
    obtain ⟨rest, hrest⟩ := hv'.trans (List.dropLast_prefix _)
    obtain ⟨rfl, -⟩ := List.cons.inj hrest
    simp at hc

theorem exists_firstAfter {t needle : Text} (hne : needle ≠ []) (h : needle <:+: t) :
    ∃ a b, t = a ++ (needle ++ b) ∧ FirstAfter needle a := by
  match hs : splitFirst? t needle with
  | none => exact absurd h (splitFirst?_eq_none_iff.1 hs)
  | some (a, b) =>
    exact ⟨a, b, by simpa using eq_of_splitFirst? hs, firstAfter_of_splitFirst? hne hs⟩

/-- A needle within one line lies on one side of each newline. -/
theorem occurrence_cases {needle a b x y : Text} (hn : '\n' ∉ needle)
    (h : a ++ '\n' :: b = x ++ needle ++ y) :
    (∃ z, a = x ++ needle ++ z ∧ y = z ++ '\n' :: b) ∨
      ∃ z, b = z ++ needle ++ y ∧ x = a ++ '\n' :: z := by
  rw [List.append_assoc] at h
  rcases List.append_eq_append_iff.1 h with ⟨z, rfl, hz⟩ | ⟨z, rfl, hz⟩
  · cases z with
    | nil =>
      cases needle with
      | nil => exact .inl ⟨[], by simp, by simpa using hz.symm⟩
      | cons c needle =>
        obtain ⟨rfl, -⟩ := List.cons.inj hz
        simp at hn
    | cons c z =>
      obtain ⟨rfl, rfl⟩ := List.cons.inj hz
      exact .inr ⟨z, by simp, rfl⟩
  · rcases List.append_eq_append_iff.1 hz with ⟨w, rfl, rfl⟩ | ⟨w, rfl, hw⟩
    · exact .inl ⟨w, by simp, rfl⟩
    · cases w with
      | nil => exact .inl ⟨[], by simp, by simpa using hw.symm⟩
      | cons c w =>
        obtain ⟨rfl, -⟩ := List.cons.inj hw
        simp at hn

/-- A needle that begins with a character of its own ends before another one begins. -/
theorem exists_between {c : Char} {m m' d u u' : Text} (hm : c ∉ m)
    (hpre : ¬ c :: m <+: c :: m') (hpre' : ¬ c :: m' <+: c :: m)
    (h : c :: m ++ u = d ++ (c :: m' ++ u')) :
    ∃ z, d = c :: m ++ z ∧ u = z ++ (c :: m' ++ u') := by
  cases d with
  | nil =>
    have h₁ : c :: m <+: c :: m' ++ u' := ⟨u, h⟩
    rcases List.prefix_or_prefix_of_prefix h₁ (List.prefix_append _ u') with h | h
    · exact absurd h hpre
    · exact absurd h hpre'
  | cons x d =>
    obtain ⟨rfl, hrest⟩ : c = x ∧ m ++ u = d ++ (c :: m' ++ u') := by simpa using h
    rcases List.append_eq_append_iff.1 hrest with ⟨z, rfl, hz⟩ | ⟨z, rfl, hz⟩
    · exact ⟨z, rfl, hz⟩
    · cases z with
      | nil => exact ⟨[], by simp, by simpa using hz.symm⟩
      | cons y z =>
        obtain ⟨rfl, -⟩ := List.cons.inj hz
        simp at hm

theorem infix_append_newline_iff {needle a b : Text} (hn : '\n' ∉ needle) :
    needle <:+: a ++ '\n' :: b ↔ needle <:+: a ∨ needle <:+: b := by
  constructor
  · rintro ⟨x, y, h⟩
    rcases occurrence_cases hn h.symm with ⟨z, rfl, -⟩ | ⟨z, rfl, -⟩
    · exact .inl ⟨x, z, rfl⟩
    · exact .inr ⟨z, y, rfl⟩
  · rintro (h | h)
    · exact h.trans (List.prefix_append a _).isInfix
    · exact h.trans ⟨a ++ ['\n'], [], by simp⟩

end PageCache.Text
