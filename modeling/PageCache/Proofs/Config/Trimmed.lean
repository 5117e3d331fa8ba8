import PageCache.Proofs.Path.Slashes
import PageCache.Settings

/-! Texts without blanks around them: what is left of an option after its blanks are cut off. -/
namespace PageCache

namespace Text

variable {t : Text} {p : Char → Bool}

/-- The text is not blank, and there are no blanks around it. -/
structure Trimmed (t : Text) : Prop where
  not_blank : t.isBlank = false
  trim_eq : t.trim = t

instance (t : Text) : Decidable t.Trimmed :=
  decidable_of_iff (t.isBlank = false ∧ t.trim = t) ⟨fun h => ⟨h.1, h.2⟩, fun h => ⟨h.1, h.2⟩⟩

theorem Trimmed.ne_nil (h : t.Trimmed) : t ≠ [] := by
  rintro rfl
  exact absurd h.not_blank (by decide)

theorem trimStart_of_head? (h : ∀ c, t.head? = some c → p c = false) : t.trimStart p = t := by
  cases t with
  | nil => rfl
  | cons c t =>
    have hc : ¬ p c = true := by simp [h c rfl]
    exact List.dropWhile_cons_of_neg hc

theorem trimEnd_of_getLast? (h : ∀ c, t.getLast? = some c → p c = false) : t.trimEnd p = t := by
  have hrev : trimStart t.reverse p = t.reverse := trimStart_of_head? (by simpa using h)
  rw [trimEnd, ← trimStart, hrev, List.reverse_reverse]

theorem head?_trim {c : Char} (h : t.trim.head? = some c) : isSpace c = false := by
  obtain ⟨s, hs, -⟩ := exists_eq_trimEnd_append (t.trimStart isSpace) isSpace
  have hstart : (t.trimStart isSpace).head? = some c := by
    rw [hs, List.head?_append, show (t.trimStart isSpace).trimEnd isSpace = t.trim from rfl, h]
    rfl
  exact head?_trimStart t isSpace c hstart

theorem getLast?_trim {c : Char} (h : t.trim.getLast? = some c) : isSpace c = false :=
  getLast?_trimEnd _ _ c h

theorem trim_trim (t : Text) : t.trim.trim = t.trim := by
  rw [trim.eq_1 t.trim, trimStart_of_head? fun c => head?_trim,
    trimEnd_of_getLast? fun c => getLast?_trim]

theorem Trimmed.head? (h : t.Trimmed) : ∃ c, t.head? = some c ∧ isSpace c = false := by
  obtain ⟨c, u, hcu⟩ := List.exists_cons_of_ne_nil h.ne_nil
  have hhead : t.head? = some c := by rw [hcu, List.head?_cons]
  exact ⟨c, hhead, head?_trim (by rwa [h.trim_eq])⟩

theorem trimmed_trim (h : t.trim ≠ []) : t.trim.Trimmed where
  not_blank := by rw [isBlank, trim_trim, List.isEmpty_eq_false_iff]; exact h
  trim_eq := trim_trim t

end Text

namespace Settings

open Text

theorem trimmed_of_given {t : Text} {value : Option Text} (h : given value = some t) :
    t.Trimmed := by
  obtain ⟨hvalue, hne⟩ := Option.filter_eq_some_iff.1 h
  obtain ⟨u, -, rfl⟩ := Option.map_eq_some_iff.1 hvalue
  exact trimmed_trim (by simpa using hne)

theorem trimmed_getD_given {default : Text} {value : Option Text} (h : default.Trimmed) :
    ((given value).getD default).Trimmed := by
  cases hvalue : given value with
  | none => exact h
  | some t => exact trimmed_of_given hvalue

theorem trimmed_of_mem_filter {t : Text} {values : List Text}
    (h : t ∈ (values.map Text.trim).filter (!·.isEmpty)) : t.Trimmed := by
  obtain ⟨hmem, hne⟩ := List.mem_filter.1 h
  obtain ⟨u, -, rfl⟩ := List.mem_map.1 hmem
  exact trimmed_trim (by simpa using hne)

theorem trimmed_of_mem_patternsOf {t : Text} {values : Option (List Text)}
    (h : t ∈ patternsOf values) : t.Trimmed := trimmed_of_mem_filter h

theorem trimmed_of_mem_tenantNamesOf {t : Text} {o : PolicyOptions}
    (h : t ∈ (tenantNamesOf o).toList) : t.Trimmed :=
  trimmed_of_mem_filter (TextSet.mem_toList_ofList.1 h)

end Settings
end PageCache
