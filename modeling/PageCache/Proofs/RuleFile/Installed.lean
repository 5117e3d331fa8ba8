import PageCache.Proofs.Region.Current
import PageCache.Proofs.Region.Marks
import PageCache.RuleFile

/-! Texts with a block installed. Whatever the text was before, it carries the block, installing the
block again leaves it as it is, and the rules of a competing page cache are gone from it. A text in
which the region of a block is not found does not carry the block, whatever its rules are. -/
namespace PageCache

open Text Region

namespace Region

variable {r r' : Region} {head tail body text : Text}

theorem exists_replaced (r : Region) (text : Text) (anchors : List Anchor) :
    ∃ middle, text =
      (r.surroundings text anchors).1 ++ (middle ++ (r.surroundings text anchors).2) := by
  match h : r.locate? text with
  | some s =>
    refine ⟨s.inside, ?_⟩
    rw [surroundings_of_located h]
    exact eq_append_of_locate? h
  | none =>
    refine ⟨[], ?_⟩
    rw [surroundings_of_absent h, List.nil_append, placeOf_append]

theorem unbordered_superCache : superCache.closing.Unbordered :=
  unbordered_of_forall_mem (by decide)

theorem proper_superCache : superCache.Proper := proper_of_mem_known (by decide)

end Region

theorem unbordered_closing (b : Block) : b.region.closing.Unbordered := by
  cases b <;> exact unbordered_of_forall_mem (by decide)

theorem trimmed_region (b : Block) : b.region.Trimmed where
  toLined := (proper_region b).lined
  trim_opening := by cases b <;> decide
  trim_closing := by cases b <;> decide

namespace RuleFile

variable {b : Block} {rules current text : Text}

/-- The rules that a competing page cache has left are gone after the core rules are installed. -/
theorem not_paired_install_core (hrules : Avoids [superCache] rules) (current : Text) :
    ¬ superCache.Paired (install .core rules current) := by
  have herased : ¬ superCache.Paired (superCache.erase current) :=
    (locate?_eq_none_iff proper_superCache.lined.marked unbordered_superCache).1 (locate?_erase _ _)
  obtain ⟨middle, hmiddle⟩ :=
    exists_replaced pageCacheCore (superCache.erase current) coreAnchors
  rw [hmiddle] at herased
  have hblock : Avoids [superCache] (pageCacheCore.wrap rules) :=
    avoids_wrap (by simpa using proper_superCache) (by decide) (by decide) hrules
  change ¬ superCache.Paired (pageCacheCore.upsert (superCache.erase current) rules coreAnchors)
  rw [upsert_eq]
  exact not_paired_rejoined proper_superCache.lined (eqBeforeNewlines_headPart _)
    (eqAfterNewlines_tailPart _) (atLineStart_headPart _) (atLineStart_wrap _ _) hblock herased

theorem install_install (hown : Avoids [b.region] rules)
    (hother : b = .core → Avoids [superCache] rules) (current : Text) :
    install b rules (install b rules current) = install b rules current := by
  have hstay : ∀ text, b.region.upsert (b.region.upsert text rules b.anchors) rules b.anchors =
      b.region.upsert text rules b.anchors := fun text => by
    rw [upsert_eq b.region text]
    exact upsert_put (proper_region b) hown (locate?_surroundings _ _ _) _ _
  cases b with
  | cache => exact hstay current
  | core =>
    have hgone : superCache.locate? (install .core rules current) = none :=
      (locate?_eq_none_iff proper_superCache.lined.marked unbordered_superCache).2
        (not_paired_install_core (hother rfl) current)
    rw [install, erase_eq_self hgone]
    exact hstay (superCache.erase current)

theorem statusOf_install (b : Block) (rules current : Text) :
    statusOf b rules (install b rules current) = .inSync := by
  have hcurrent : b.region.isCurrent (install b rules current) rules = true :=
    isCurrent_splice _ _ _ _
  rw [statusOf, if_pos hcurrent]

theorem statusOf_of_absent (h : b.region.locate? text = none) (rules : Text) :
    statusOf b rules text = .missing .noRegion := by
  have hcurrent : ¬ b.region.isCurrent text rules = true := fun hcurrent =>
    locate?_ne_none_of_isCurrent (trimmed_region b) (unbordered_closing b) hcurrent h
  rw [statusOf, if_neg hcurrent, h]
  rfl

theorem statusOf_of_located {s : Span} (h : b.region.locate? text = some s) (rules : Text) :
    statusOf b rules text = .inSync ∨ statusOf b rules text = .drifted := by
  by_cases hcurrent : b.region.isCurrent text rules = true
  · exact .inl (if_pos hcurrent)
  · right
    rw [statusOf, if_neg hcurrent, h]
    rfl

theorem install_ne_nil (b : Block) (rules current : Text) : install b rules current ≠ [] := by
  simp [install, upsert_eq, wrap_eq]

end RuleFile

end PageCache
