import Mathlib.Data.List.Forall2
import PageCache.Json.Decode

/-! Records that are read from objects whose members stand, and are visited, in any order. Readers
are composed like the values that they read, and each composition gives back what was written. -/
namespace PageCache.Json

/-- The same value, but the members of objects may come in another order, at every depth. -/
inductive Rearranged : Json → Json → Prop
  | refl (v : Json) : Rearranged v v
  | arr {vs ws : List Json} (h : List.Forall₂ Rearranged vs ws) : Rearranged (.arr vs) (.arr ws)
  | obj {ms ns os : List (Text × Json)} (hkeys : ms.map (·.1) = ns.map (·.1))
      (hvalues : List.Forall₂ Rearranged (ms.map (·.2)) (ns.map (·.2))) (hperm : ns.Perm os) :
      Rearranged (.obj ms) (.obj os)

/-- The reader gives back what was written, also from rearranged values. -/
def Undoes {α : Type} (read : Json → Except DecodeError α) (write : α → Json) : Prop :=
  ∀ a v, Rearranged (write a) v → read v = .ok a

section
variable {ms ns : List (Text × Json)} {key : Text} {v : Json}

theorem lookup_eq_some_iff_mem (hms : (ms.map (·.1)).Nodup) :
    ms.lookup key = some v ↔ (key, v) ∈ ms := by
  induction ms with
  | nil => simp
  | cons m ms ih =>
    obtain ⟨k, w⟩ := m
    obtain ⟨hk, hms⟩ := List.nodup_cons.1 hms
    rw [List.lookup_cons, List.mem_cons, Prod.mk.injEq]
    by_cases hkey : key = k
    · subst hkey
      have hnot : (key, v) ∉ ms := fun h => hk (List.mem_map.2 ⟨_, h, rfl⟩)
      simp [hnot, eq_comm]
    · rw [beq_false_of_ne hkey]
      simp [hkey, ih hms]

theorem lookup_perm (hms : (ms.map (·.1)).Nodup) (h : ms.Perm ns) (key : Text) :
    ms.lookup key = ns.lookup key := by
  have hns := (h.map (·.1)).nodup_iff.1 hms
  ext v
  rw [lookup_eq_some_iff_mem hms, lookup_eq_some_iff_mem hns, h.mem_iff]

/-- The members of a record that is written, and those from which it is read. -/
structure Matches (ms fields : List (Text × Json)) : Prop where
  nodup : (fields.map (·.1)).Nodup
  given : ∀ key v, ms.lookup key = some v → ∃ w, fields.lookup key = some w ∧ Rearranged v w
  absent : ∀ key, ms.lookup key = none → fields.lookup key = none

theorem matches_of_forall₂ (hms : (ms.map (·.1)).Nodup) (hkeys : ms.map (·.1) = ns.map (·.1))
    (hvalues : List.Forall₂ Rearranged (ms.map (·.2)) (ns.map (·.2))) : Matches ms ns := by
  induction ms generalizing ns with
  | nil =>
    obtain rfl : ns = [] := List.map_eq_nil_iff.1 hkeys.symm
    exact { nodup := .nil, given := fun _ _ h => (nomatch h), absent := fun _ h => h }
  | cons m ms ih =>
    cases ns with
    | nil => cases hkeys
    | cons n ns =>
      obtain ⟨k, v⟩ := m
      obtain ⟨k', w⟩ := n
      obtain ⟨rfl, hkeys'⟩ := List.cons.inj hkeys
      obtain ⟨hvw, hvalues⟩ := List.forall₂_cons.1 hvalues
      have hrest := ih (List.nodup_cons.1 hms).2 hkeys' hvalues
      refine { nodup := hkeys ▸ hms, given := fun key u hu => ?_, absent := fun key hkey => ?_ }
      · rw [List.lookup_cons] at hu ⊢
        cases hk : key == k with
        | true =>
          rw [hk] at hu
          obtain rfl := Option.some.inj hu
          exact ⟨w, rfl, hvw⟩
        | false =>
          rw [hk] at hu
          exact hrest.given key u hu
      · rw [List.lookup_cons] at hkey ⊢
        cases hk : key == k with
        | true =>
          rw [hk] at hkey
          cases hkey
        | false =>
          rw [hk] at hkey
          exact hrest.absent key hkey

theorem Matches.perm (h : Matches ms ns) {fields : List (Text × Json)} (hperm : ns.Perm fields) :
    Matches ms fields where
  nodup := (hperm.map _).nodup_iff.1 h.nodup
  given key v hv := by
    rw [← lookup_perm h.nodup hperm]
    exact h.given key v hv
  absent key hkey := by
    rw [← lookup_perm h.nodup hperm]
    exact h.absent key hkey

theorem Rearranged.exists_fields (h : Rearranged (.obj ms) v) (hms : (ms.map (·.1)).Nodup) :
    ∃ fields, v = .obj fields ∧ Matches ms fields := by
  cases h with
  | refl => exact ⟨ms, rfl, hms, fun _ v hv => ⟨v, hv, .refl v⟩, fun _ h => h⟩
  | obj hkeys hvalues hperm =>
    exact ⟨_, rfl, (matches_of_forall₂ hms hkeys hvalues).perm hperm⟩

end

theorem undoes_text : Undoes Decode.text .str := by
  intro t v h
  cases h
  rfl

theorem undoes_flag : Undoes Decode.flag .bool := by
  intro b v h
  cases h
  rfl

theorem undoes_natural : Undoes Decode.natural fun n => .int n.toNat := by
  intro n v h
  cases h
  have hrange : (0 : Int) ≤ n.toNat ∧ (n.toNat : Int) < UInt64.size :=
    ⟨Int.natCast_nonneg _, Int.ofNat_lt.2 n.toNat_lt_size⟩
  rw [Decode.natural, if_pos hrange, Int.toNat_natCast, UInt64.ofNat_toNat]

variable {α : Type} {read : Json → Except DecodeError α} {write : α → Json}

theorem mapM_eq_ok {vs : List Json} {as : List α}
    (h : List.Forall₂ (fun a v => read v = .ok a) as vs) : vs.mapM read = .ok as := by
  induction h with
  | nil => rfl
  | cons hv _ ih =>
    rw [List.mapM_cons, hv, ih]
    rfl

theorem Undoes.listOf (h : Undoes read write) :
    Undoes (Decode.listOf read) fun as => .arr (as.map write) := by
  intro as v hv
  have hitems : ∃ ws, v = .arr ws ∧ List.Forall₂ Rearranged (as.map write) ws := by
    cases hv with
    | refl => exact ⟨_, rfl, List.forall₂_same.2 fun _ _ => .refl _⟩
    | arr hws => exact ⟨_, rfl, hws⟩
  obtain ⟨ws, rfl, hws⟩ := hitems
  exact mapM_eq_ok ((List.forall₂_map_left_iff.1 hws).imp fun a w => h a w)

variable {fields : Fields} {ms : List (Text × Json)} {name : Text} {a : α} {a? : Option α}

def Fields.Has (fields : Fields) (name : Text) (read : Json → Except DecodeError α) (a : α) : Prop :=
  ∃ v, fields.lookup name = some v ∧ read v = .ok a

/-- The field is absent, or it has the value and is not null. -/
def Fields.Has? (fields : Fields) (name : Text) (read : Json → Except DecodeError α) :
    Option α → Prop
  | some a => ∃ v, fields.lookup name = some v ∧ v ≠ .null ∧ read v = .ok a
  | none => fields.lookup name = none

theorem Rearranged.ne_null {v w : Json} (h : Rearranged v w) (hv : v ≠ .null) : w ≠ .null := by
  rintro rfl
  cases h
  exact hv rfl

theorem Decode.optional_of_ne_null {v : Json} (hv : v ≠ .null) :
    Decode.optional read v = (read v).map some := by
  unfold Decode.optional
  split
  · exact absurd rfl hv
  · rfl

structure FieldRule.Admits (rule : FieldRule) (fields : Fields) : Prop where
  check : ∀ v ∈ fields.lookup rule.name, rule.check v = .ok ()
  given : rule.optional = false → (fields.lookup rule.name).isSome = true

theorem Matches.has (h : Matches ms fields) (name : Text) (hread : Undoes read write)
    (hname : ms.lookup name = some (write a)) : fields.Has name read a := by
  obtain ⟨w, hw, hrearranged⟩ := h.given name _ hname
  exact ⟨w, hw, hread a w hrearranged⟩

theorem Matches.has? (h : Matches ms fields) (name : Text) (a? : Option α)
    (hread : Undoes read write) (hwrite : ∀ a, write a ≠ .null)
    (hname : ms.lookup name = a?.map write) :
    fields.Has? name read a? := by
  cases a? with
  | none => exact h.absent name hname
  | some a =>
    obtain ⟨w, hw, hrearranged⟩ := h.given name _ hname
    exact ⟨w, hw, hrearranged.ne_null (hwrite a), hread a w hrearranged⟩

theorem Fields.Has.get (h : fields.Has name read a) : fields.get name read = .ok a := by
  obtain ⟨v, hv, hread⟩ := h
  rw [Fields.get, hv]
  exact hread

theorem Fields.Has.admits (h : fields.Has name read a) :
    (FieldRule.required name read).Admits fields := by
  obtain ⟨v, hv, hread⟩ := h
  refine ⟨fun w hw => ?_, fun _ => by rw [FieldRule.required, hv]; rfl⟩
  obtain rfl := Option.some.inj (hv.symm.trans hw)
  change (read v).map (fun _ => ()) = _
  rw [hread]
  rfl

theorem Fields.Has?.get? (h : fields.Has? name read a?) : fields.get? name read = .ok a? := by
  rw [Fields.get?]
  cases a? with
  | none =>
    rw [show fields.lookup name = none from h]
  | some a =>
    obtain ⟨v, hv, hnull, hread⟩ := h
    rw [hv]
    change Decode.optional read v = _
    rw [Decode.optional_of_ne_null hnull, hread]
    rfl

theorem Fields.Has?.admits (h : fields.Has? name read a?) :
    (FieldRule.maybe name (Decode.optional read)).Admits fields := by
  refine ⟨fun w hw => ?_, fun hoptional => (nomatch hoptional)⟩
  have hget := h.get?
  rw [Fields.get?, show fields.lookup name = some w from hw] at hget
  change (Decode.optional read w).map (fun _ => ()) = _
  rw [show Decode.optional read w = .ok a? from hget]
  rfl

theorem checkMembers_eq_ok {rules : List FieldRule} {members : List (Text × Json)}
    (h : ∀ rule ∈ rules, ∀ v, (rule.name, v) ∈ members → rule.check v = .ok ()) :
    checkMembers rules members = .ok () := by
  induction members with
  | nil => rfl
  | cons m members ih =>
    obtain ⟨key, v⟩ := m
    have hrest := ih fun rule hrule v hv => h rule hrule v (List.mem_cons_of_mem _ hv)
    rw [checkMembers]
    split
    · exact hrest
    · next rule hfind =>
      have hkey := List.find?_some hfind
      obtain rfl : rule.name = key := beq_iff_eq.1 hkey
      rw [h rule (List.mem_of_find?_eq_some hfind) v List.mem_cons_self]
      exact hrest

/-- Fields that satisfy the rules of a record are accepted, whatever the order is in which they are
visited. -/
theorem readFields_obj {rules : List FieldRule} (visit : Visit) (name : Text)
    (hnodup : (fields.map (·.1)).Nodup) (h : ∀ rule ∈ rules, rule.Admits fields) :
    readFields visit name rules (.obj fields) = .ok fields := by
  -- No key comes twice, so the member that is visited is the one that its key leads to.
  have hcheck : checkMembers rules (visit.order fields) = .ok () :=
    checkMembers_eq_ok fun rule hrule v hv => (h rule hrule).check v
      ((lookup_eq_some_iff_mem hnodup).2 ((visit.perm fields).mem_iff.1 hv))
  have hgiven : rules.find? (fun r => !r.optional && (fields.lookup r.name).isNone) = none := by
    refine List.find?_eq_none.2 fun rule hrule hmissing => ?_
    obtain ⟨hoptional, hnone⟩ := Bool.and_eq_true_iff.1 hmissing
    have hsome := (h rule hrule).given (Bool.not_eq_true' _ ▸ hoptional)
    rw [Option.isNone_iff_eq_none.1 hnone] at hsome
    cases hsome
  simp only [readFields, bind, Except.bind, hcheck, hgiven]

end PageCache.Json
