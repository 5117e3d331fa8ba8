import PageCache.Proofs.Path.Slashes

/-! The candidate of a cache target, as a path made of parts. -/
namespace PageCache

namespace Path

/-- The parts of a path that are not empty, with a slash between neighbours. -/
def ofParts (parts : List Text) : Text := Text.join (parts.filter (!·.isEmpty)) "/"

/-- A part that stands between slashes of its own. -/
def Bare (p : Text) : Prop := p ≠ [] ∧ p.head? ≠ some '/' ∧ p.getLast? ≠ some '/'

theorem push_eq_ofParts {base p : Text} (hb : base.getLast? ≠ some '/') (hne : p ≠ [])
    (hp : p.head? ≠ some '/') : push base p = ofParts [base, p] := by
  have habs : isAbsolute p = false := by
    simpa [isAbsolute] using hp
  have hlast : (base.getLast? == some '/') = false := by simpa using hb
  cases base with
  | nil => simp [push, habs, ofParts, hne, Text.join]
  | cons c base => simp [push, habs, hlast, ofParts, hne, Text.join]

theorem ofParts_empty_cons (parts : List Text) : ofParts ([] :: parts) = ofParts parts := rfl

theorem ofParts_cons {p : Text} (hp : p ≠ []) (parts : List Text) :
    ofParts (p :: parts) =
      if ofParts parts = [] then p else p ++ "/" ++ ofParts parts := by
  cases h : parts.filter (!·.isEmpty) with
  | nil => simp [ofParts, Text.join, h, hp]
  | cons q qs =>
    have hq : q ≠ [] := by
      have := (List.mem_filter.1 (h ▸ List.mem_cons_self : q ∈ parts.filter (!·.isEmpty))).2
      simpa using this
    cases qs <;> simp [ofParts, Text.join, h, hp, hq]

/-- A path whose parts begin with other characters does not begin with a slash. -/
theorem head?_ofParts_ne {parts : List Text} (h : ∀ p ∈ parts, p.head? ≠ some '/') :
    (ofParts parts).head? ≠ some '/' := by
  induction parts with
  | nil => simp [ofParts, Text.join]
  | cons p parts ih =>
    obtain ⟨hp, hparts⟩ := List.forall_mem_cons.1 h
    cases p with
    | nil => exact ih hparts
    | cons c p =>
      rw [ofParts_cons (List.cons_ne_nil c p)]
      split
      · exact hp
      · simpa using hp

theorem ofParts_filter_nonempty (p : Text) (parts : List Text) :
    ofParts (p :: parts.filter (!·.isEmpty)) = ofParts (p :: parts) := by
  simp [ofParts, List.filter_cons]

theorem exists_ofParts_concat (parts : List Text) :
    ∃ lead, ∀ name ≠ [], ofParts (parts ++ [name]) = lead ++ name := by
  induction parts with
  | nil => exact ⟨[], fun name hne => by simp [ofParts, Text.join, hne]⟩
  | cons p parts ih =>
    obtain ⟨lead, hlead⟩ := ih
    by_cases hp : p = []
    · exact ⟨lead, fun name hne => by rw [hp, List.cons_append, ofParts_empty_cons, hlead name hne]⟩
    · refine ⟨p ++ "/" ++ lead, fun name hne => ?_⟩
      have hrest : ofParts (parts ++ [name]) ≠ [] := by simp [hlead name hne, hne]
      rw [List.cons_append, ofParts_cons hp, if_neg hrest, hlead name hne, ← List.append_assoc]

theorem ofParts_ofParts_cons (ps qs : List Text) :
    ofParts (ofParts ps :: qs) = ofParts (ps ++ qs) := by
  induction ps with
  | nil => rfl
  | cons p ps ih =>
    by_cases hp : p = []
    · subst hp
      exact ih
    · rw [List.cons_append, ofParts_cons hp, ofParts_cons hp (ps ++ qs), ← ih]
      by_cases hps : ofParts ps = []
      · rw [if_pos hps, hps, ofParts_empty_cons, ofParts_cons hp]
      · rw [if_neg hps, ofParts_cons (by simp [hp]), ofParts_cons hps]
        by_cases hqs : ofParts qs = [] <;> simp [hqs, hps]

theorem getLast?_ofParts_pair_ne {base p : Text} (hp : Bare p) :
    (ofParts [base, p]).getLast? ≠ some '/' := by
  have h : (ofParts [base, p]).getLast? = p.getLast? := by
    have hne := hp.1
    cases base with
    | nil => simp [ofParts, Text.join, hne]
    | cons c base =>
      have hj : ofParts [c :: base, p] = (c :: base ++ "/") ++ p := by
        simp [ofParts, Text.join, hne]
      rw [hj, List.getLast?_append_of_ne_nil _ hne]
  rw [h]
  exact hp.2.2

/-- Pushing bare parts one after the other joins them. -/
theorem foldl_push {base : Text} (hb : base.getLast? ≠ some '/') {parts : List Text}
    (hp : ∀ p ∈ parts, Bare p) :
    parts.foldl push base = ofParts (base :: parts) ∧
      (parts.foldl push base).getLast? ≠ some '/' := by
  induction parts generalizing base with
  | nil =>
    refine ⟨?_, hb⟩
    cases base <;> simp [ofParts, Text.join]
  | cons p parts ih =>
    have hp' := hp p (by simp)
    have hlast : (ofParts [base, p]).getLast? ≠ some '/' := getLast?_ofParts_pair_ne hp'
    have h := ih hlast fun q hq => hp q (by simp [hq])
    rw [ofParts_ofParts_cons] at h
    rwa [List.foldl_cons, push_eq_ofParts hb hp'.1 hp'.2.1]

/-- Up to repeated slashes, two parts may as well be joined by a slash, empty or not. -/
theorem alike_ofParts {root : Text} (hr : root ≠ []) (a b name : Text) (hn : name ≠ []) :
    Alike (ofParts [root, a, b, name]) (root ++ "/" ++ a ++ "/" ++ b ++ "/" ++ name) := by
  have hslash : Alike ("/" ++ "/" : Text) "/" := rfl
  cases a with
  | nil =>
    cases b with
    | nil =>
      have h := ((Alike.refl root).append
        (((hslash.append (.refl "/")).trans hslash).append (.refl name))).symm
      simpa [ofParts, Text.join, hr, hn] using h
    | cons d b =>
      have h := ((Alike.refl root).append (hslash.append (.refl (d :: b ++ "/" ++ name)))).symm
      simpa [ofParts, Text.join, hr, hn] using h
  | cons c a =>
    cases b with
    | nil =>
      have h := ((Alike.refl (root ++ "/" ++ (c :: a))).append (hslash.append (.refl name))).symm
      simpa [ofParts, Text.join, hr, hn] using h
    | cons d b => simpa [ofParts, Text.join, hr, hn] using Alike.refl _

end Path

theorem VariantTags.head?_fileName (v : VariantTags) : v.fileName.head? = some '_' := by
  have hstem : indexStem.head? = some '_' := by decide
  simp [fileName, hstem]

theorem VariantTags.fileName_ne_nil (v : VariantTags) : v.fileName ≠ [] := by
  intro h
  have hhead := v.head?_fileName
  rw [h] at hhead
  cases hhead

namespace CacheTarget

/-- The candidate is the document root, the directory, the path and the file name, where they are
not empty, with one slash between neighbours. -/
theorem candidate_eq_ofParts {c : CacheTarget} (hroot : c.documentRoot.getLast? ≠ some '/')
    (tenant : Option Tenant) (uri : Text) (tags : VariantTags) :
    c.candidate tenant uri tags = Path.ofParts
      [c.documentRoot, (c.directory tenant).trimSlashes, uri.trimSlashes, tags.fileName] := by
  have hbare : ∀ p ∈ ([c.directory tenant, uri].map Text.trimSlashes).filter (!·.isEmpty),
      Path.Bare p := by
    intro p hp
    obtain ⟨hp, hne⟩ := List.mem_filter.1 hp
    obtain ⟨t, -, rfl⟩ := List.mem_map.1 hp
    exact ⟨by simpa using hne, t.head?_trimSlashes_ne, t.getLast?_trimSlashes_ne⟩
  obtain ⟨hfold, hlast⟩ := Path.foldl_push hroot hbare
  have hpush := Path.push_eq_ofParts hlast tags.fileName_ne_nil (by simp [tags.head?_fileName])
  rw [candidate, hpush, hfold, Path.ofParts_filter_nonempty, Path.ofParts_ofParts_cons]
  rfl

end CacheTarget
end PageCache
