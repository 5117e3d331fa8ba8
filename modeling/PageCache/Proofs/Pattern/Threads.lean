import PageCache.Proofs.Pattern.Explored
import PageCache.Proofs.Pattern.Counted

/-! The search for the preferred match goes to the same positions as the search for any match: a
thread that is dropped because its position has been seen loses groups, never a position. Main
statement: groups are captured exactly where a pattern is found. -/
namespace PageCache.Pattern
section
variable {t : Text} {R : Cursor → Cursor → Prop} {body : Thread → List Thread}

theorem rounds_nil (n : ℕ) : rounds body n [] = [] := by
  induction n with
  | zero => rfl
  | succ n ih => exact ih

theorem positions_eq {ts : List Thread} (hts : ∀ u ∈ ts, u.cursor.In t) (hne : ts ≠ []) :
    positions ts = t.length + 1 := by
  cases ts with
  | nil => exact absurd rfl hne
  | cons u ts =>
    obtain ⟨p, q, rfl, hk⟩ := hts u (by simp)
    simp [positions, Thread.pos, hk, Cursor.between]

theorem Reaches.forall_in_rounds (hb : Reaches t R body) (hR : Forward t R) {ts : List Thread}
    (hts : ∀ u ∈ ts, u.cursor.In t) (hn : (ts.map Thread.pos).Nodup) (m : ℕ) :
    ∀ u ∈ rounds body m ts, u.cursor.In t :=
  (traces_rounds hb hR m).forall_in (fun _ _ hk => hR.steps hk) hts hn

/-- What steps lead to after a number of rounds, steps lead to from where the rounds began. -/
theorem Reaches.mem_unseen_rounds (hb : Reaches t R body) (hR : Forward t R) {ts : List Thread}
    (hts : ∀ u ∈ ts, u.cursor.In t) (hn : (ts.map Thread.pos).Nodup) {m : ℕ} {P : ℕ → Prop}
    {out : List Thread}
    (h : ∀ l, l ∈ out.map Thread.cursor ↔
      ∃ u ∈ rounds body m ts, ∃ d, P d ∧ Steps R d u.cursor l) (l : Cursor) :
    l ∈ (Thread.unseen 0 out).1.map Thread.cursor ↔
      ∃ v ∈ ts, ∃ d, P d ∧ Steps R (m + d) v.cursor l := by
  have hrounds := (traces_rounds hb hR m).mem ts hts hn
  have hout : ∀ k ∈ out.map Thread.cursor, k.In t := fun k hk => by
    obtain ⟨u, hu, d, -, hs⟩ := (h k).1 hk
    exact (hR.steps (hb.forall_in_rounds hR hts hn m u hu) hs).1
  rw [Thread.mem_map_unseen hout, h]
  constructor
  · rintro ⟨u, hu, d, hd, hs⟩
    obtain ⟨v, hv, hvu⟩ := (hrounds u.cursor).1 (List.mem_map_of_mem hu)
    exact ⟨v, hv, d, hd, steps_add.2 ⟨u.cursor, hvu, hs⟩⟩
  · rintro ⟨v, hv, d, hd, hs⟩
    obtain ⟨j, hvj, hjl⟩ := steps_add.1 hs
    obtain ⟨u, hu, rfl⟩ := List.mem_map.1 ((hrounds j).2 ⟨v, hv, hvj⟩)
    exact ⟨u, hu, d, hd, hjl⟩

theorem traces_repeated (hb : Reaches t R body) (hR : Forward t R)
    (hn : ∀ u, u.cursor.In t → ((body u).map Thread.pos).Nodup) {min : ℕ} {max : Option ℕ}
    {greedy : Bool} :
    Traces t (fun k l => ∃ n, min ≤ n ∧ (∀ m, max = some m → n ≤ min ⊔ m) ∧ Steps R n k l)
      (repeated body min max greedy) where
  mem ts hts hnodup l := by
    by_cases hne : ts = []
    · subst hne
      cases max <;> simp [repeated, rounds_nil, explore, exploreUpTo, Thread.unseen]
    have hin := hb.forall_in_rounds hR hts hnodup
    unfold repeated
    rw [positions_eq hts hne]
    cases max with
    | none =>
      refine (hb.mem_unseen_rounds hR hts hnodup (fun l =>
        mem_explore hb hR hn (hin (min - 1)) (Nat.lt_succ_self _)) l).trans ?_
      refine exists_congr fun v => and_congr_right fun _ => ?_
      constructor
      · rintro ⟨d, hpos, hs⟩
        have : min ≠ 0 → 0 < d := fun h => hpos (beq_eq_false_iff_ne.2 h)
        exact ⟨min - 1 + d, by omega, by simp, hs⟩
      · rintro ⟨n, hmin, -, hs⟩
        obtain ⟨d, rfl⟩ := Nat.exists_eq_add_of_le ((Nat.sub_le min 1).trans hmin)
        refine ⟨d, fun hpos => ?_, hs⟩
        have : min ≠ 0 := beq_eq_false_iff_ne.1 hpos
        omega
    | some most =>
      refine (hb.mem_unseen_rounds hR hts hnodup (fun l =>
        UpTo.mem_exploreUpTo hb hR hn (hin min) (Nat.lt_succ_self _)) l).trans ?_
      refine exists_congr fun v => and_congr_right fun _ => ?_
      simp only [Option.some.injEq, forall_eq']
      constructor
      · rintro ⟨d, hd, hs⟩
        exact ⟨min + d, Nat.le_add_right _ _, by omega, hs⟩
      · rintro ⟨n, hmin, hmax, hs⟩
        obtain ⟨d, rfl⟩ := Nat.exists_eq_add_of_le hmin
        exact ⟨d, by omega, hs⟩
  nodup ts _ _ := by
    cases max <;> exact Thread.nodup_unseen _ _

end

namespace Expr

/-- Where threads and cursors are treated alike, threads lead where cursors do. -/
theorem mem_of_map_cursor_eq {e : Expr} {t : Text} {ts : List Thread}
    (h : (e.run ts).map Thread.cursor = e.reach t.length (ts.map Thread.cursor))
    (hts : ∀ u ∈ ts, u.cursor.In t) (l : Cursor) :
    l ∈ (e.run ts).map Thread.cursor ↔ ∃ u ∈ ts, e.Leads t u.cursor l := by
  rw [h, e.follows_reach t _ (by simpa using hts)]
  simp

theorem map_cursor_step (cls : CharClass) (ts : List Thread) :
    (Thread.step cls ts).map Thread.cursor = Cursor.step cls (ts.map Thread.cursor) := by
  rw [Thread.step, Cursor.step, List.map_filterMap, List.filterMap_map]
  refine List.filterMap_congr fun u _ => ?_
  simp only [Function.comp_apply]
  split
  · rfl
  · split <;> rfl

theorem nodup_step (cls : CharClass) {ts : List Thread} (hn : (ts.map Thread.pos).Nodup) :
    ((Thread.step cls ts).map Thread.pos).Nodup := by
  have hsub : ((Thread.step cls ts).map Thread.pos).Sublist ((ts.map Thread.pos).map (· + 1)) := by
    induction ts with
    | nil => simp [Thread.step]
    | cons u ts ih =>
      have hrest := ih (List.nodup_cons.1 hn).2
      cases hu : u.cursor.rest with
      | nil => simpa [Thread.step, hu] using hrest.cons (u.pos + 1)
      | cons c r =>
        by_cases hc : cls.contains c = true
        · simpa [Thread.step, hu, hc, Thread.pos, Cursor.next] using hrest
        · simpa [Thread.step, hu, hc] using hrest.cons (u.pos + 1)
  exact (hn.map fun _ _ => Nat.succ.inj).sublist hsub

/-- The threads that an expression leaves behind stand at the ends of its matches. -/
theorem traces_run (e : Expr) (t : Text) : Traces t (e.Leads t) e.run := by
  induction e with
  | empty => exact ⟨fun ts hts _ => mem_of_map_cursor_eq rfl hts, fun ts _ hn => hn⟩
  | one cls =>
    exact ⟨fun ts hts _ => mem_of_map_cursor_eq (map_cursor_step cls ts) hts,
      fun ts _ hn => nodup_step cls hn⟩
  | look a =>
    refine ⟨fun ts hts _ => mem_of_map_cursor_eq ?_ hts, fun ts _ hn => ?_⟩
    · rw [run, reach, List.filter_map]
      rfl
    · exact hn.sublist (List.filter_sublist.map _)
  | seq a b iha ihb =>
    exact (ihb.comp iha (a.leads_forward t)).congr fun k l _ => leads_seq.symm
  | alt a b iha ihb =>
    have hboth : Reaches t ((alt a b).Leads t) fun u => a.run [u] ++ b.run [u] := fun u hu l => by
      rw [List.map_append, List.mem_append, iha.reaches u hu, ihb.reaches u hu, leads_alt]
    exact Thread.traces_gather hboth (leads_forward _ t)
  | group i a ih =>
    have hbody : Reaches t ((group i a).Leads t) fun u => (a.run [u]).map (u.capture i ·) := by
      intro u hu l
      rw [List.map_map]
      exact ih.reaches u hu l
    exact Thread.traces_gather hbody (leads_forward _ t)
  | rep a min max greedy ih =>
    exact (traces_repeated ih.reaches (a.leads_forward t) fun u hu => ih.nodup_singleton hu).congr
      fun k l hk => (leads_rep hk).symm

theorem map_pos_suffixes (p : ℕ) (c : Option Char) (t : Text) :
    (Cursor.suffixes p c t).map Cursor.pos = List.range' p (t.length + 1) := by
  induction t generalizing p c with
  | nil => rfl
  | cons d t ih =>
    rw [Cursor.suffixes, List.map_cons, ih]
    rfl

/-- A preferred match is found where there is a match. -/
theorem isSome_find? (e : Expr) (t : Text) : (e.find? t).isSome = e.isMatch t := by
  have hmap : ((Cursor.suffixes 0 none t).map fun k => (⟨k, []⟩ : Thread)).map Thread.cursor =
      Cursor.suffixes 0 none t := by simp [Function.comp_def]
  have hin : ∀ k ∈ Cursor.suffixes 0 none t, k.In t := fun k => Cursor.mem_suffixes.1
  have hmem := (e.traces_run t).mem ((Cursor.suffixes 0 none t).map fun k => ⟨k, []⟩)
    (by simpa using hin) (by
      rw [Thread.map_pos, hmap, map_pos_suffixes]
      exact List.nodup_range')
  have hne : (e.run ((Cursor.suffixes 0 none t).map fun k => ⟨k, []⟩)).isEmpty =
      (e.reach t.length (Cursor.suffixes 0 none t)).isEmpty := by
    rw [Bool.eq_iff_iff, ← not_iff_not]
    simp only [Bool.not_eq_true, List.isEmpty_eq_false_iff_exists_mem, e.follows_reach t _ hin]
    constructor
    · rintro ⟨u, hu⟩
      obtain ⟨v, hv, h⟩ := (hmem u.cursor).1 (List.mem_map_of_mem hu)
      exact ⟨u.cursor, v.cursor, hmap ▸ List.mem_map_of_mem hv, h⟩
    · rintro ⟨l, k, hk, h⟩
      obtain ⟨u, hu, -⟩ := List.mem_map.1 ((hmem l).2 ⟨⟨k, []⟩, List.mem_map_of_mem hk, h⟩)
      exact ⟨u, hu⟩
  rw [isMatch, ← hne, find?, Option.isSome_map]
  cases e.run ((Cursor.suffixes 0 none t).map fun k => ⟨k, []⟩) <;> rfl

end Expr

/-- Groups are captured where a pattern is found. -/
theorem isSome_captures? (ignoreCase : Bool) (pattern value : Text) :
    (captures? ignoreCase pattern value).isSome = found ignoreCase pattern value := by
  unfold captures? found
  cases parse? ignoreCase pattern with
  | none => rfl
  | some e => exact e.isSome_find? value

theorem exists_captures? {ignoreCase : Bool} {pattern value : Text}
    (h : found ignoreCase pattern value = true) :
    ∃ groups, captures? ignoreCase pattern value = some groups :=
  Option.isSome_iff_exists.1 ((isSome_captures? ignoreCase pattern value).trans h)

theorem captures?_eq_none {ignoreCase : Bool} {pattern value : Text}
    (h : found ignoreCase pattern value = false) : captures? ignoreCase pattern value = none := by
  rw [← Option.isNone_iff_eq_none, ← Option.not_isSome, isSome_captures?, h]
  rfl

end PageCache.Pattern
