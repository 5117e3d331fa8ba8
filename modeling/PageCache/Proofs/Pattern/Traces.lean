import PageCache.Proofs.Pattern.Rounds
import PageCache.Proofs.Pattern.Search

/-! Functions on threads that lead to the same positions as a relation on cursors. A thread that is
dropped because its position has been seen loses groups, never a position; and threads at different
positions of a text are few, which bounds the work of a repetition. -/
namespace PageCache.Pattern

namespace Positions

/-- The number of positions below a bound that do not belong to a set. -/
def missing (n : ℕ) (s : Positions) : ℕ := ((Finset.range n).filter fun p => s.has p = false).card

theorem missing_zero (n : ℕ) : missing n 0 = n := by simp [missing]

theorem missing_add {n : ℕ} {s : Positions} {p : ℕ} (hp : p < n) (hs : s.has p = false) :
    missing n (s.add p) + 1 = missing n s := by
  have h : ((Finset.range n).filter fun q => (s.add p).has q = false) =
      ((Finset.range n).filter fun q => s.has q = false).erase p := by
    ext q
    simp only [has_add, Bool.or_eq_false_iff, beq_eq_false_iff_ne, Finset.mem_filter,
      Finset.mem_range, Finset.mem_erase]
    constructor
    · rintro ⟨hq, hs, hpq⟩
      exact ⟨Ne.symm hpq, hq, hs⟩
    · rintro ⟨hpq, hq, hs⟩
      exact ⟨hq, hs, Ne.symm hpq⟩
  rw [missing, missing, h, Finset.card_erase_add_one (by simp [hp, hs])]

theorem has_add_of_has {s : Positions} {p q : ℕ} (h : s.has q = true) :
    (s.add p).has q = true := by simp [h]

theorem has_add_self (s : Positions) (p : ℕ) : (s.add p).has p = true := by simp

theorem eq_of_has_add {s : Positions} {p q : ℕ} (h : (s.add p).has q = true)
    (hs : s.has q = false) : p = q := by simpa [hs] using h

end Positions

namespace Cursor

theorem has_of_mem_unseen {seen : Positions} {ks : List Cursor} {k : Cursor}
    (h : k ∈ (unseen seen ks).1) : seen.has k.pos = false := by
  induction ks generalizing seen with
  | nil => simp [unseen] at h
  | cons j ks ih =>
    unfold unseen at h
    split at h
    · exact ih h
    · next hs =>
      rcases List.mem_cons.1 h with rfl | h
      · simpa using hs
      · have := ih h
        rw [Positions.has_add, Bool.or_eq_false_iff] at this
        exact this.1

theorem mem_of_mem_unseen {seen : Positions} {ks : List Cursor} {k : Cursor}
    (h : k ∈ (unseen seen ks).1) : k ∈ ks := by
  induction ks generalizing seen with
  | nil => simp [unseen] at h
  | cons j ks ih =>
    unfold unseen at h
    split at h
    · exact List.mem_cons_of_mem j (ih h)
    · rcases List.mem_cons.1 h with rfl | h
      · exact List.mem_cons_self
      · exact List.mem_cons_of_mem j (ih h)

theorem has_unseen_eq_false {seen : Positions} {ks : List Cursor} {p : ℕ} :
    (unseen seen ks).2.has p = false ↔ seen.has p = false ∧ ¬∃ k ∈ ks, k.pos = p := by
  simp only [Bool.eq_false_iff, ne_eq, has_unseen, not_or]

theorem nodup_unseen (seen : Positions) (ks : List Cursor) :
    ((unseen seen ks).1.map Cursor.pos).Nodup := by
  induction ks generalizing seen with
  | nil => simp [unseen]
  | cons j ks ih =>
    unfold unseen
    split
    · exact ih seen
    · refine List.nodup_cons.2 ⟨fun h => ?_, ih _⟩
      obtain ⟨k, hk, hp⟩ := List.mem_map.1 h
      have := has_of_mem_unseen hk
      simp [Positions.has_add, hp] at this

end Cursor

namespace Thread

theorem map_pos (ts : List Thread) : ts.map pos = (ts.map cursor).map Cursor.pos := by
  simp [pos, Function.comp_def]

theorem unseen_eq (seen : Positions) (ts : List Thread) :
    (unseen seen ts).1.map cursor = (Cursor.unseen seen (ts.map cursor)).1 ∧
      (unseen seen ts).2 = (Cursor.unseen seen (ts.map cursor)).2 := by
  induction ts generalizing seen with
  | nil => exact ⟨rfl, rfl⟩
  | cons u ts ih =>
    rw [List.map_cons]
    unfold unseen Cursor.unseen
    rw [show u.pos = u.cursor.pos from rfl]
    split
    · exact ih seen
    · simp [ih]

theorem nodup_unseen (seen : Positions) (ts : List Thread) :
    ((unseen seen ts).1.map pos).Nodup := by
  rw [map_pos, (unseen_eq seen ts).1]
  exact Cursor.nodup_unseen _ _

theorem mem_map_unseen {t : Text} {ts : List Thread} (hts : ∀ k ∈ ts.map cursor, k.In t)
    {l : Cursor} : l ∈ (unseen 0 ts).1.map cursor ↔ l ∈ ts.map cursor := by
  rw [(unseen_eq 0 ts).1, Cursor.mem_unseen hts]
  simp

end Thread

/-- Threads at different positions of a text are at most one more than its characters. -/
theorem length_le_of_nodup_pos {t : Text} {ts : List Thread} (hts : ∀ u ∈ ts, u.cursor.In t)
    (hn : (ts.map Thread.pos).Nodup) : ts.length ≤ t.length + 1 := by
  have hsub : (ts.map Thread.pos).toFinset ⊆ Finset.range (t.length + 1) := by
    intro p hp
    obtain ⟨u, hu, rfl⟩ := List.mem_map.1 (List.mem_toFinset.1 hp)
    exact Finset.mem_range.2 (Nat.lt_succ_of_le (hts u hu).pos_le)
  have h := Finset.card_le_card hsub
  rwa [List.toFinset_card_of_nodup hn, List.length_map, Finset.card_range] at h

/-- From each thread of the text the function leads wherever the relation does. -/
def Reaches (t : Text) (R : Cursor → Cursor → Prop) (body : Thread → List Thread) : Prop :=
  ∀ u, u.cursor.In t → ∀ l, l ∈ (body u).map Thread.cursor ↔ R u.cursor l

/-- From threads at different positions the function leads wherever the relation does, and it
leads to each position once. -/
structure Traces (t : Text) (R : Cursor → Cursor → Prop) (f : List Thread → List Thread) :
    Prop where
  mem : ∀ ts, (∀ u ∈ ts, u.cursor.In t) → (ts.map Thread.pos).Nodup →
    ∀ l, l ∈ (f ts).map Thread.cursor ↔ ∃ u ∈ ts, R u.cursor l
  nodup : ∀ ts, (∀ u ∈ ts, u.cursor.In t) → (ts.map Thread.pos).Nodup →
    ((f ts).map Thread.pos).Nodup

section
variable {t : Text} {R S : Cursor → Cursor → Prop} {body : Thread → List Thread}
  {f g : List Thread → List Thread}

theorem Reaches.forall_in (hb : Reaches t R body) (hR : Forward t R) {w : Thread}
    (hw : w.cursor.In t) : ∀ u ∈ body w, u.cursor.In t := fun u hu =>
  (hR _ _ hw ((hb w hw u.cursor).1 (List.mem_map_of_mem hu))).1

theorem Reaches.length_le (hb : Reaches t R body) (hR : Forward t R) {w : Thread}
    (hw : w.cursor.In t) (hn : ((body w).map Thread.pos).Nodup) :
    (body w).length ≤ t.length + 1 :=
  length_le_of_nodup_pos (hb.forall_in hR hw) hn

/-- The function leads wherever the relation does from a cursor at the position of the thread. -/
theorem Reaches.exists_of_pos_eq (hb : Reaches t R body) {w : Thread} (hw : w.cursor.In t)
    {k l : Cursor} (hk : k.In t) (hp : w.pos = k.pos) (hkl : R k l) :
    ∃ u ∈ body w, u.cursor = l := by
  obtain rfl := hw.eq_of_pos hk hp
  exact List.mem_map.1 ((hb w hw l).2 hkl)

theorem Reaches.steps_of_after (hb : Reaches t R body) (hR : Forward t R) {n : ℕ} {u v : Thread}
    (hu : u.cursor.In t) (h : After body n u v) : Steps R n u.cursor v.cursor := by
  induction h with
  | none => rfl
  | @round n u v w first _ ih =>
    have huv : R u.cursor v.cursor := (hb u hu v.cursor).1 (List.mem_map_of_mem first)
    exact ⟨v.cursor, huv, ih (hR _ _ hu huv).1⟩

theorem Traces.reaches (hf : Traces t R f) : Reaches t R fun u => f [u] :=
  fun u hu l => by simpa using hf.mem [u] (by simpa using hu) (by simp) l

theorem Traces.nodup_singleton (hf : Traces t R f) {u : Thread} (hu : u.cursor.In t) :
    ((f [u]).map Thread.pos).Nodup :=
  hf.nodup [u] (by simpa using hu) (by simp)

theorem Traces.forall_in (hf : Traces t R f) (hR : Forward t R) {ts : List Thread}
    (hts : ∀ u ∈ ts, u.cursor.In t) (hn : (ts.map Thread.pos).Nodup) :
    ∀ u ∈ f ts, u.cursor.In t := fun u hu => by
  obtain ⟨v, hv, hvu⟩ := (hf.mem ts hts hn u.cursor).1 (List.mem_map_of_mem hu)
  exact (hR v.cursor u.cursor (hts v hv) hvu).1

theorem Traces.comp (hg : Traces t S g) (hf : Traces t R f) (hR : Forward t R) :
    Traces t (fun k l => ∃ j, R k j ∧ S j l) fun ts => g (f ts) where
  mem ts hts hn l := by
    rw [hg.mem _ (hf.forall_in hR hts hn) (hf.nodup ts hts hn)]
    constructor
    · rintro ⟨v, hv, hvl⟩
      obtain ⟨u, hu, huv⟩ := (hf.mem ts hts hn v.cursor).1 (List.mem_map_of_mem hv)
      exact ⟨u, hu, v.cursor, huv, hvl⟩
    · rintro ⟨u, hu, j, huj, hjl⟩
      obtain ⟨v, hv, rfl⟩ := List.mem_map.1 ((hf.mem ts hts hn j).2 ⟨u, hu, huj⟩)
      exact ⟨v, hv, hjl⟩
  nodup ts hts hn := hg.nodup _ (hf.forall_in hR hts hn) (hf.nodup ts hts hn)

theorem Traces.congr (hf : Traces t R f) (h : ∀ k l, k.In t → (R k l ↔ S k l)) :
    Traces t S f where
  mem ts hts hn l := by
    rw [hf.mem ts hts hn]
    exact exists_congr fun u => and_congr_right fun hu => h u.cursor l (hts u hu)
  nodup := hf.nodup

namespace Thread

theorem mem_gatherFrom (hb : Reaches t R body) (hR : Forward t R) {seen : Positions}
    {ts : List Thread} (hts : ∀ u ∈ ts, u.cursor.In t) {l : Cursor} :
    l ∈ (gatherFrom body seen ts).map cursor ↔
      seen.has l.pos = false ∧ ∃ u ∈ ts, R u.cursor l := by
  induction ts generalizing seen with
  | nil => simp [gatherFrom]
  | cons u ts ih =>
    obtain ⟨hu, hts⟩ := List.forall_mem_cons.1 hts
    have hin : ∀ k ∈ (body u).map cursor, k.In t := fun k hk =>
      (hR u.cursor k hu ((hb u hu k).1 hk)).1
    rw [gatherFrom, List.map_append, List.mem_append, (unseen_eq seen (body u)).1,
      (unseen_eq seen (body u)).2, Cursor.mem_unseen hin, hb u hu, ih hts,
      Cursor.has_unseen_eq_false]
    simp only [List.mem_cons, exists_eq_or_imp]
    constructor
    · rintro (⟨hl, hs⟩ | ⟨⟨hs, -⟩, hl⟩)
      · exact ⟨hs, .inl hl⟩
      · exact ⟨hs, .inr hl⟩
    · rintro ⟨hs, hl | ⟨v, hv, hl⟩⟩
      · exact .inl ⟨hl, hs⟩
      · by_cases hk : ∃ k ∈ (body u).map cursor, k.pos = l.pos
        · obtain ⟨k, hk, hp⟩ := hk
          obtain rfl := (hin k hk).eq_of_pos (hR v.cursor l (hts v hv) hl).1 hp
          exact .inl ⟨(hb u hu k).1 hk, hs⟩
        · exact .inr ⟨⟨hs, hk⟩, v, hv, hl⟩

theorem nodup_gatherFrom (seen : Positions) (ts : List Thread) :
    ((gatherFrom body seen ts).map pos).Nodup ∧
      ∀ u ∈ gatherFrom body seen ts, seen.has u.pos = false := by
  induction ts generalizing seen with
  | nil => simp [gatherFrom]
  | cons u ts ih =>
    obtain ⟨hnodup, hnew⟩ := ih (unseen seen (body u)).2
    have hfirst : ∀ v ∈ (unseen seen (body u)).1, seen.has v.pos = false ∧
        (unseen seen (body u)).2.has v.pos = true := by
      intro v hv
      have hv' : v.cursor ∈ (Cursor.unseen seen ((body u).map cursor)).1 :=
        (unseen_eq seen (body u)).1 ▸ List.mem_map_of_mem hv
      refine ⟨Cursor.has_of_mem_unseen hv', ?_⟩
      rw [(unseen_eq seen (body u)).2]
      exact Cursor.has_unseen.2 (.inr ⟨v.cursor, Cursor.mem_of_mem_unseen hv', rfl⟩)
    rw [gatherFrom]
    refine ⟨?_, fun v hv => ?_⟩
    · rw [List.map_append]
      refine List.nodup_append.2 ⟨nodup_unseen _ _, hnodup, fun p hp q hq hpq => ?_⟩
      obtain ⟨v, hv, rfl⟩ := List.mem_map.1 hp
      obtain ⟨w, hw, rfl⟩ := List.mem_map.1 hq
      have := hnew w hw
      rw [← hpq, (hfirst v hv).2] at this
      cases this
    · rcases List.mem_append.1 hv with hv | hv
      · exact (hfirst v hv).1
      · have := hnew v hv
        rw [(unseen_eq seen (body u)).2, Cursor.has_unseen_eq_false] at this
        exact this.1

theorem traces_gather (hb : Reaches t R body) (hR : Forward t R) :
    Traces t R (gather body) where
  mem ts hts _ l := by simp [gather, mem_gatherFrom hb hR hts]
  nodup ts _ _ := (nodup_gatherFrom 0 ts).1

end Thread

theorem done_or_mem_cons {done : Cursor → Prop} {u : Thread} {out : List Thread} {l : Cursor}
    (h : (done l ∨ l = u.cursor) ∨ l ∈ out.map Thread.cursor) :
    done l ∨ l ∈ (u :: out).map Thread.cursor := by
  rw [List.map_cons, List.mem_cons, ← or_assoc]
  exact h

theorem traces_rounds (hb : Reaches t R body) (hR : Forward t R) (n : ℕ) :
    Traces t (Steps R n) (rounds body n) := by
  induction n with
  | zero => exact ⟨fun ts _ _ l => by simp [rounds, Steps], fun ts _ hn => hn⟩
  | succ n ih => exact ih.comp (Thread.traces_gather hb hR) hR

end
end PageCache.Pattern
