import PageCache.Proofs.Region.Edits
import PageCache.Proofs.RuleFile.Installed

/-! One text for both blocks. A text carries rules when it is laid out with their blocks, each once;
installing and removing a block keep that and the visible characters around the blocks. -/
namespace PageCache

open Text Region

/-- The first place where a needle occurs is the only one. -/
def Text.OccursAtMostOnce (needle t : Text) : Prop :=
  ∀ x y x' y', t = x ++ needle ++ y → t = x' ++ needle ++ y' → x = x'

def Span.Apart (s s' : Span) : Prop :=
  s.before ++ s.inside <+: s'.before ∨ s'.before ++ s'.inside <+: s.before

/-- The text without the region that is found in it. -/
def Region.cutOut (r : Region) (text : Text) : Text :=
  match r.locate? text with
  | some s => s.before ++ s.after
  | none => text

/-- The text outside the two blocks. -/
def Region.outside (text : Text) : Text := pageCacheCore.cutOut (pageCacheCache.cutOut text)

/-- The text has the blocks with these rules, each once, and these visible characters around
them. -/
def Carries (installed : Block → Option Text) (o text : Text) : Prop :=
  ∃ blocks, Layout blocks o text ∧ (blocks.map Prod.fst).Nodup ∧
    ∀ b rules, (b, rules) ∈ blocks ↔ installed b = some rules

namespace Carries

variable {installed : Block → Option Text} {b b' : Block} {o text rules rules' m : Text}
  {blocks blocks' : List (Block × Text)}

theorem of_avoids (h : Avoids edited text) : Carries (fun _ => none) (visible text) text :=
  ⟨[], .rest h, by simp, by simp⟩

theorem not_mem_of_forall_ne (h : ∀ p ∈ blocks, p.1 ≠ b) : b ∉ blocks.map Prod.fst := by
  intro hin
  obtain ⟨p, hp, he⟩ := List.mem_map.1 hin
  exact h p hp he

theorem exists_located (h : Carries installed o text) (hb : installed b = some rules) :
    ∃ s, b.region.locate? text = some s ∧ s.inside = b.region.wrap rules ∧
      AtLineStart s.before ∧ Avoids [b.region] s.before ∧ Avoids [b.region] s.after ∧
      Avoids known rules := by
  obtain ⟨blocks, ht, hd, hmem⟩ := h
  obtain ⟨blocks₁, blocks₂, rfl⟩ := List.append_of_mem ((hmem b rules).2 hb)
  obtain ⟨⟨hfirst, hlast⟩, -⟩ := Layout.nodup_middle_iff.1 hd
  obtain ⟨s, o₁, o₂, hs, hinside, -, hl, hrules, h₁, h₂⟩ := ht.exists_located hfirst
  exact ⟨s, hs, hinside, hl, h₁.avoids_block hfirst, h₂.avoids_block hlast, hrules⟩

theorem avoids_of_none (h : Carries installed o text) (hb : installed b = none) :
    Avoids [b.region] text := by
  obtain ⟨blocks, ht, -, hmem⟩ := h
  refine ht.avoids_block (not_mem_of_forall_ne fun p hp he => ?_)
  have hsome := (hmem p.1 p.2).1 hp
  rw [he, hb] at hsome
  cases hsome

theorem installed_of_located (h : Carries installed o text) {s : Span}
    (hs : b.region.locate? text = some s) : ∃ rules, installed b = some rules := by
  match hb : installed b with
  | none => simp [locate?_eq_none_of_avoids (h.avoids_of_none hb)] at hs
  | some rules => exact ⟨rules, rfl⟩

theorem atLineStart_before (h : Carries installed o text) {s : Span}
    (hs : b.region.locate? text = some s) : AtLineStart s.before := by
  obtain ⟨rules, hb⟩ := h.installed_of_located hs
  obtain ⟨s', hs', -, hl, -⟩ := h.exists_located hb
  obtain rfl : s' = s := Option.some.inj (hs'.symm.trans hs)
  exact hl

theorem upsert (h : Carries installed o text) (hrules : Avoids known rules) (b : Block) :
    Carries (Function.update installed b (some rules)) o
      (b.region.upsert text rules b.anchors) := by
  obtain ⟨blocks, ht, hd, hmem⟩ := h
  obtain ⟨blocks₁, blocks₂, o₁, o₂, rfl, h₁, h₂, hd', hother⟩ := ht.exists_surroundings hd b
  refine ⟨blocks₁ ++ (b, rules) :: blocks₂, ?_, ?_, fun b' rules' => ?_⟩
  · rw [upsert_eq]
    exact h₁.put h₂ hrules
  · have hne : b ∉ (blocks₁ ++ blocks₂).map Prod.fst :=
      not_mem_of_forall_ne fun p hp => ((hother p).1 hp).2
    rw [List.map_append, List.mem_append, not_or] at hne
    exact Layout.nodup_middle_iff.2 ⟨hne, hd'⟩
  · have hmiddle : (b', rules') ∈ blocks₁ ++ (b, rules) :: blocks₂ ↔
        (b' = b ∧ rules' = rules) ∨ (b', rules') ∈ blocks₁ ++ blocks₂ := by
      simp only [List.mem_append, List.mem_cons, Prod.mk.injEq]
      tauto
    rw [hmiddle, hother, hmem, Function.update_apply]
    by_cases hb : b' = b
    · simp [hb, eq_comm]
    · simp [hb]

/-- The rules of a competing page cache are not in a text that carries blocks. -/
theorem erase_superCache (h : Carries installed o text) : superCache.erase text = text := by
  obtain ⟨blocks, ht, -, -⟩ := h
  have hne : ∀ b : Block, superCache ≠ b.region := fun b => by cases b <;> decide
  exact erase_eq_self
    (locate?_eq_none_of_avoids (ht.avoids (by decide) fun p _ => hne p.1))

theorem install (h : Carries installed o text) (hrules : Avoids known rules) (b : Block) :
    Carries (Function.update installed b (some rules)) o (RuleFile.install b rules text) := by
  cases b with
  | core =>
    have hcore := h.upsert hrules .core
    rwa [← h.erase_superCache] at hcore
  | cache => exact h.upsert hrules .cache

theorem join (h : Carries installed o text) {s : Span} (hs : b.region.locate? text = some s)
    {joined : Text}
    (hjoin : ∀ {blocks₁ blocks₂ o₁ o₂}, Layout blocks₁ o₁ s.before → Layout blocks₂ o₂ s.after →
      Layout (blocks₁ ++ blocks₂) (o₁ ++ o₂) joined) :
    Carries (Function.update installed b none) o joined := by
  obtain ⟨blocks, ht, hd, hmem⟩ := h
  obtain ⟨blocks₁, blocks₂, o₁, o₂, rfl, h₁, h₂, hd', hother⟩ := ht.exists_surroundings hd b
  rw [surroundings_of_located hs] at h₁ h₂
  refine ⟨blocks₁ ++ blocks₂, hjoin h₁ h₂, hd', fun b' rules => ?_⟩
  rw [hother, hmem, Function.update_apply]
  by_cases hb : b' = b <;> simp [hb]

/-- A block that is not found is not installed. -/
theorem update_of_not_located (h : Carries installed o text) (hs : b.region.locate? text = none) :
    Function.update installed b none = installed := by
  match hb : installed b with
  | none => rw [← hb, Function.update_eq_self]
  | some rules =>
    obtain ⟨s, hsome, -⟩ := h.exists_located hb
    simp [hs] at hsome

theorem erase (h : Carries installed o text) (b : Block) :
    Carries (Function.update installed b none) o (b.region.erase text) := by
  match hs : b.region.locate? text with
  | none =>
    rw [erase_eq_self hs, h.update_of_not_located hs]
    exact h
  | some s =>
    have hgap : Carries (Function.update installed b none) o (closeGap s.before s.after) :=
      h.join hs fun h₁ h₂ => h₁.closeGap h₂
    have hgone := hgap.avoids_of_none (Function.update_self b none installed)
    rwa [erase_of_located hs, erase_eq_self (locate?_eq_none_of_avoids hgone)]

theorem cutOut (h : Carries installed o text) (b : Block) :
    Carries (Function.update installed b none) o (b.region.cutOut text) := by
  match hs : b.region.locate? text with
  | none =>
    rw [Region.cutOut, hs, h.update_of_not_located hs]
    exact h
  | some s =>
    rw [Region.cutOut, hs]
    exact h.join hs fun h₁ h₂ => h₁.append (h.atLineStart_before hs) h₂

/-- A marker of a block stands at one place: at the start or at the end of the block. -/
theorem eq_of_occurrence {before after x y : Text} (hl : AtLineStart before)
    (hbefore : Avoids [b.region] before) (hafter : Avoids [b.region] after)
    (hrules : Avoids known rules) (hm : m ∈ b.region.markers)
    (heq : before ++ (b.region.wrap rules ++ after) = x ++ m ++ y) :
    x = if m = b.region.opening then before
      else before ++ b.region.opening ++ '\n' :: inner rules := by
  have hn := newline_not_mem_marker (region_mem_known b) hm
  -- Without a newline, a marker lies wholly before, within or after the block.
  rcases hl.occurrence_cases hn heq with ⟨z, hz, -⟩ | ⟨z, hz, rfl⟩
  · exact absurd ⟨x, z, hz.symm⟩ (hbefore _ List.mem_cons_self m hm)
  rcases (atLineStart_wrap _ rules).occurrence_cases hn hz with ⟨w, hw, -⟩ | ⟨w, hw, rfl⟩
  · rcases occurrence_wrap (region_mem_known b) hm hrules hw with ⟨rfl, rfl⟩ | ⟨rfl, rfl⟩
    · rw [if_pos rfl, List.append_nil]
    · have hwhole : b.region.opening ++ '\n' :: inner rules ++ (b.region.closing ++ ['\n']) =
          z ++ (b.region.closing ++ ['\n']) := by
        rw [← List.append_assoc z, ← hw, wrap_eq]
        simp
      rw [if_neg (opening_ne_closing (region_mem_known b) b).2, List.append_assoc,
        List.append_cancel_right hwhole]
  · exact absurd ⟨w, y, hw.symm⟩ (hafter _ List.mem_cons_self m hm)

theorem occursAtMostOnce (h : Carries installed o text) (hm : m ∈ b.region.markers) :
    OccursAtMostOnce m text := by
  intro x y x' y' hxy hxy'
  match hb : installed b with
  | none => exact absurd ⟨x, y, hxy.symm⟩ (h.avoids_of_none hb _ List.mem_cons_self m hm)
  | some rules =>
    obtain ⟨s, hs, hinside, hl, hbefore, hafter, hrules⟩ := h.exists_located hb
    have htext := eq_append_of_locate? hs
    rw [hinside] at htext
    rw [htext] at hxy hxy'
    rw [eq_of_occurrence hl hbefore hafter hrules hm hxy,
      eq_of_occurrence hl hbefore hafter hrules hm hxy']

theorem apart (h : Carries installed o text) {s s' : Span}
    (hs : pageCacheCore.locate? text = some s) (hs' : pageCacheCache.locate? text = some s') :
    s.Apart s' := by
  change Block.core.region.locate? text = some s at hs
  change Block.cache.region.locate? text = some s' at hs'
  obtain ⟨rules, hcore⟩ := h.installed_of_located hs
  obtain ⟨rules', hcache⟩ := h.installed_of_located hs'
  obtain ⟨blocks, ht, hd, hmem⟩ := h
  obtain ⟨blocks₁, blocks₂, rfl⟩ := List.append_of_mem ((hmem .core rules).2 hcore)
  have hin : (Block.cache, rules') ∈ blocks₁ ∨ (Block.cache, rules') ∈ blocks₂ := by
    simpa using (hmem .cache rules').2 hcache
  have hd₁ := (Layout.nodup_middle_iff.1 hd).1.1
  rcases hin with hin | hin
  · obtain ⟨a, c, rfl⟩ := List.append_of_mem hin
    rw [List.append_assoc, List.cons_append] at hd
    have hd₂ := (Layout.nodup_middle_iff.1 hd).1.1
    exact .inr (ht.prefix_of_located hd₂ hd₁ hs' hs)
  · obtain ⟨a, c, rfl⟩ := List.append_of_mem hin
    rw [← List.cons_append, ← List.append_assoc] at ht hd
    have hd₂ := (Layout.nodup_middle_iff.1 hd).1.1
    exact .inl (ht.prefix_of_located hd₁ hd₂ hs hs')

theorem visible_outside (h : Carries installed o text) : visible (outside text) = o := by
  obtain ⟨blocks, ht, -, hmem⟩ := (h.cutOut .cache).cutOut .core
  have hnil : blocks = [] := by
    refine List.eq_nil_iff_forall_not_mem.2 fun p hp => ?_
    have hsome := (hmem p.1 p.2).1 hp
    match hb : p.1 with
    | .core => simp [hb] at hsome
    | .cache => simp [hb] at hsome
  rw [hnil] at ht
  exact ht.of_nil.symm

theorem statusOf_of_some (h : Carries installed o text) (hb : installed b = some rules) :
    RuleFile.statusOf b rules text = .inSync := by
  obtain ⟨s, hs, hinside, hl, -⟩ := h.exists_located hb
  have hcurrent : b.region.isCurrent text rules = true := by
    rw [isCurrent, includes_iff, eq_append_of_locate? hs, hinside]
    exact normalize_isInfix hl (atLineStart_wrap _ rules)
  rw [RuleFile.statusOf, if_pos hcurrent]

theorem statusOf_of_none (h : Carries installed o text) (hb : installed b = none) (rules : Text) :
    RuleFile.statusOf b rules text = .missing .noRegion :=
  RuleFile.statusOf_of_absent (locate?_eq_none_of_avoids (h.avoids_of_none hb)) rules

end Carries

end PageCache
