import PageCache.Proofs.Config.Trimmed

/-! The groups of settings. A section of groups that is accepted has names that are made of letters,
digits, underscores and hyphens, each for one group only. -/
namespace PageCache

structure Group.WellFormedList (groups : List Group) : Prop where
  nodup_names : (groups.map (·.name)).Nodup
  name_ne_nil : ∀ g ∈ groups, g.name ≠ []
  name_char : ∀ g ∈ groups, ∀ c ∈ g.name, c.isAlphanum = true ∨ c = '_' ∨ c = '-'
  matcher : ∀ g ∈ groups, ∀ m ∈ g.matchers, Text.Trimmed m
  redirect : ∀ g ∈ groups, ∀ target ∈ g.redirect, Text.Trimmed target

namespace Settings

theorem exists_of_bind_ok {ε α β : Type} {x : Except ε α} {f : α → Except ε β} {b : β}
    (h : x >>= f = .ok b) : ∃ a, x = .ok a ∧ f a = .ok b := by
  cases x with
  | error e => cases h
  | ok a => exact ⟨a, rfl, h⟩

variable {key : Text} {seen : List Text} {groups : List Group}

/-- A name that is accepted is given, is made of the permitted characters and is a new one. -/
theorem of_groupName? {value : Option Text} {name : Text}
    (h : groupName? key seen value = .ok name) :
    given value = some name ∧ name.all isNameChar = true ∧ name ∉ seen := by
  unfold groupName? at h
  split at h
  · cases h
  · next given? hgiven =>
    split at h
    · cases h
    · next hall =>
      split at h
      · cases h
      · next hnew =>
        obtain rfl := Except.ok.inj h
        exact ⟨hgiven, by simpa using hall, hnew⟩

theorem isNameChar_iff {c : Char} :
    isNameChar c = true ↔ c.isAlphanum = true ∨ c = '_' ∨ c = '-' := by
  simp only [isNameChar, Bool.or_eq_true, beq_iff_eq, or_assoc]

theorem wellFormedList_nil : Group.WellFormedList [] where
  nodup_names := List.nodup_nil
  name_ne_nil := by simp
  name_char := by simp
  matcher := by simp
  redirect := by simp

/-- The groups are well formed, and none has a name that was seen before. -/
theorem wellFormedList_of_groupsFrom? {os : List GroupOptions}
    (h : groupsFrom? key seen os = .ok groups) :
    Group.WellFormedList groups ∧ ∀ g ∈ groups, g.name ∉ seen := by
  induction os generalizing seen groups with
  | nil =>
    obtain rfl := Except.ok.inj h
    exact ⟨wellFormedList_nil, by simp⟩
  | cons o os ih =>
    rw [groupsFrom?] at h
    obtain ⟨name, hname, h⟩ := exists_of_bind_ok h
    obtain ⟨others, hothers, h⟩ := exists_of_bind_ok h
    obtain rfl := Except.ok.inj h
    obtain ⟨hgiven, hall, hnew⟩ := of_groupName? hname
    obtain ⟨hwell, hunseen⟩ := ih hothers
    have hothername : ∀ g ∈ others, g.name ≠ name := fun g hg heq =>
      hunseen g hg (heq ▸ List.mem_cons_self)
    refine ⟨?_, List.forall_mem_cons.2 ⟨hnew, fun g hg hmem => ?_⟩⟩
    · exact
        { nodup_names := List.nodup_cons.2 ⟨by simpa using hothername, hwell.nodup_names⟩
          name_ne_nil :=
            List.forall_mem_cons.2 ⟨(trimmed_of_given hgiven).ne_nil, hwell.name_ne_nil⟩
          name_char := List.forall_mem_cons.2
            ⟨fun c hc => isNameChar_iff.1 (List.all_eq_true.1 hall c hc), hwell.name_char⟩
          matcher :=
            List.forall_mem_cons.2 ⟨fun _ => trimmed_of_mem_patternsOf, hwell.matcher⟩
          redirect := List.forall_mem_cons.2 ⟨fun _ => trimmed_of_given, hwell.redirect⟩ }
    · exact hunseen g hg (List.mem_cons_of_mem name hmem)

theorem wellFormedList_of_groups? {o : GroupsOptions} (h : groups? key o = .ok groups) :
    Group.WellFormedList groups := by
  unfold groups? at h
  split at h
  · exact (wellFormedList_of_groupsFrom? h).1
  · obtain rfl := Except.ok.inj h
    exact wellFormedList_nil

end Settings
end PageCache
