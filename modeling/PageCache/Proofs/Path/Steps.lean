import PageCache.Proofs.Path.Template
import PageCache.Proofs.Text.Pieces

/-! The steps of a path, in which repeated slashes and single dots do not count. A path made of parts
has the steps of its parts; so the directory of a tenant is one step of the tenant's candidates, and
it stands at the same place in all of them. -/
namespace PageCache

namespace Path

theorem steps_append_slash (a b : Text) : steps (a ++ '/' :: b) = steps a ++ steps b := by
  simp only [steps, Text.splitOn_append_sep, List.filter_append]

theorem steps_nil : steps [] = [] := rfl

theorem isIdle_eq_false {p : Text} {c : Char} (h : p.head? = some c) (hc : c ≠ '.') :
    isIdle p = false := by
  cases p with
  | nil => cases h
  | cons d p =>
    obtain rfl : d = c := by simpa using h
    simp [isIdle, hc]

theorem steps_of_not_mem {p : Text} (hp : '/' ∉ p) (hidle : isIdle p = false) : steps p = [p] := by
  simp [steps, Text.splitOn_of_not_mem hp, hidle]

theorem steps_slashes_append {s : Text} (h : ∀ c ∈ s, c = '/') (t : Text) :
    steps (s ++ t) = steps t := by
  induction s with
  | nil => rfl
  | cons c s ih =>
    obtain rfl := h c (by simp)
    have hs := ih fun c hc => h c (by simp [hc])
    have hc : steps ('/' :: (s ++ t)) = steps (s ++ t) := steps_append_slash [] (s ++ t)
    rw [List.cons_append, hc, hs]

theorem steps_append_slashes (t : Text) {s : Text} (h : ∀ c ∈ s, c = '/') :
    steps (t ++ s) = steps t := by
  cases s with
  | nil => rw [List.append_nil]
  | cons c s =>
    obtain rfl := h c (by simp)
    have hs : ∀ c ∈ s, c = '/' := fun c hc => h c (List.mem_cons_of_mem _ hc)
    have hnil : steps s = [] := by simpa [steps_nil] using steps_slashes_append hs []
    rw [steps_append_slash, hnil, List.append_nil]

theorem steps_trimSlashes (t : Text) : steps t.trimSlashes = steps t := by
  obtain ⟨l, r, ht, hl, hr⟩ := t.exists_eq_trimSlashes
  conv_rhs => rw [ht, steps_append_slashes _ hr, steps_slashes_append hl]

theorem steps_ofParts (parts : List Text) : steps (ofParts parts) = parts.flatMap steps := by
  induction parts with
  | nil => rfl
  | cons p parts ih =>
    rw [List.flatMap_cons, ← ih]
    by_cases hp : p = []
    · rw [hp, ofParts_empty_cons, steps_nil, List.nil_append]
    · rw [ofParts_cons hp]
      split
      · next h => rw [h, steps_nil, List.append_nil]
      · rw [List.append_assoc]
        exact steps_append_slash p (ofParts parts)

end Path

namespace TenantSegment

/-- The segment of a tenant is one step of the directory, whatever its name. -/
theorem exists_steps_replace (dir : Text) : ∃ before after, ∀ name : Text, '/' ∉ name →
    Path.isIdle name = false →
    Path.steps (replace dir ("/" ++ name ++ "/")) = before ++ name :: after := by
  obtain ⟨frame⟩ := nonempty_frame dir
  refine ⟨Path.steps frame.before, Path.steps frame.after, fun name hname hidle => ?_⟩
  have hne : name ≠ [] := by
    rintro rfl
    simp [Path.isIdle] at hidle
  have hlast : name.getLast? ≠ some '/' := fun h => hname (List.mem_of_getLast? h)
  have hreplace : replace dir ("/" ++ name ++ "/") = frame.before ++ '/' :: name ++ frame.after :=
    frame.replace_eq name hne hlast
  have hstep : Path.steps name = [name] := Path.steps_of_not_mem hname hidle
  rw [hreplace]
  rcases frame.rooted_after with h | h
  · rw [h, List.append_nil, Path.steps_append_slash, hstep, Path.steps_nil]
  · obtain ⟨after, h⟩ := List.head?_eq_some_iff.1 h
    have hafter : Path.steps ('/' :: after) = Path.steps after := Path.steps_append_slash [] after
    rw [h, Path.steps_append_slash, Path.steps_append_slash, hstep, hafter, List.append_assoc,
      List.singleton_append]

end TenantSegment

/-- The steps to a cached page: those of the directory and of the path, and the name of the file. -/
theorem CacheTarget.steps_candidate {c : CacheTarget} (hroot : c.documentRoot.getLast? ≠ some '/')
    (tenant : Option Tenant) (uri : Text) (tags : VariantTags) :
    Path.steps (c.candidate tenant uri tags) =
      Path.steps c.documentRoot ++ Path.steps (c.directory tenant) ++ Path.steps uri ++
        Path.steps tags.fileName := by
  rw [candidate_eq_ofParts hroot, Path.steps_ofParts]
  simp only [List.flatMap_cons, List.flatMap_nil, Path.steps_trimSlashes, List.append_nil,
    List.append_assoc]

end PageCache
