import PageCache.Proofs.Pattern.Traces

/-! Repetitions without a bound. The exploration begins a round once at each position and goes on
once from each position where a round ends, so that a bound on the text bounds its work; what it
drops has been accounted for by what is still to be done. Main statement: the threads explored stand
wherever a permitted number of steps leads. -/
namespace PageCache.Pattern

namespace Visit

def thread : Visit → Thread
  | enter u => u
  | again u => u
  | leave u => u

/-- The number of visits that a visit is itself or brings about without a round. -/
def cost : Visit → ℕ
  | enter _ => 2
  | again _ => 1
  | leave _ => 1

/-- Where a visit may lead. -/
def Ends (R : Cursor → Cursor → Prop) (optional : Bool) (l : Cursor) : Visit → Prop
  | enter u => ∃ n, (optional = false → 0 < n) ∧ Steps R n u.cursor l
  | again u => ∃ n, Steps R n u.cursor l
  | leave u => u.cursor = l

/-- What a visit asks of the positions begun in the end and of the cursors left at. -/
def Served (final : Positions) (done : Cursor → Prop) (optional : Bool) : Visit → Prop
  | enter u => final.has u.pos = true ∧ (optional = true → done u.cursor)
  | again _ => True
  | leave u => done u.cursor

theorem Served.mono {final : Positions} {done done' : Cursor → Prop} {optional : Bool}
    {v : Visit} (h : v.Served final done optional) (hd : ∀ l, done l → done' l) :
    v.Served final done' optional := by
  cases v with
  | enter u => exact ⟨h.1, fun ho => hd _ (h.2 ho)⟩
  | again u => trivial
  | leave u => exact hd _ h

end Visit

section
variable {t : Text} {R : Cursor → Cursor → Prop} {body : Thread → List Thread}
  {greedy optional : Bool} {fuel : ℕ} {todo : List Visit} {begun ended : Positions}
  {done : Cursor → Prop}

theorem Reaches.ends_of_mem_explore (hb : Reaches t R body) (hR : Forward t R)
    (hin : ∀ v ∈ todo, v.thread.cursor.In t) {u : Thread}
    (hu : u ∈ explore body greedy optional fuel todo begun ended) :
    ∃ v ∈ todo, v.Ends R optional u.cursor := by
  obtain ⟨v, hv, h⟩ := exists_of_mem_explore hu
  have hvt := hin v hv
  refine ⟨v, hv, ?_⟩
  cases v with
  | enter w =>
    obtain ⟨n, hpos, hn⟩ := h
    exact ⟨n, hpos, hb.steps_of_after hR hvt hn⟩
  | again w =>
    obtain ⟨n, hn⟩ := h
    exact ⟨n, hb.steps_of_after hR hvt hn⟩
  | leave w => exact congrArg Thread.cursor h

/-- A bound on the visits that are still to be made: each position where no round has begun may add
one for every position and one to leave. -/
def work (t : Text) (todo : List Visit) (begun : Positions) : ℕ :=
  (todo.map Visit.cost).sum + begun.missing (t.length + 1) * (t.length + 2)

theorem work_cons (v : Visit) : work t (v :: todo) begun = v.cost + work t todo begun := by
  simp [work, Nat.add_assoc]

theorem work_append (vs : List Visit) :
    work t (vs ++ todo) begun = (vs.map Visit.cost).sum + work t todo begun := by
  simp [work, Nat.add_assoc]

theorem work_add {p : ℕ} (hp : p ≤ t.length) (h : begun.has p = false) :
    work t todo (begun.add p) + (t.length + 2) = work t todo begun := by
  rw [work, work, ← Positions.missing_add (Nat.lt_succ_of_le hp) h, Nat.succ_mul, Nat.add_assoc]

theorem sum_cost_prefer (greedy : Bool) (us : List Thread) (b : List Visit) :
    ((prefer greedy (us.map .again) b).map Visit.cost).sum =
      us.length + (b.map Visit.cost).sum := by
  have h : ((us.map Visit.again).map Visit.cost).sum = us.length := by
    simp [Function.comp_def, Visit.cost]
  cases greedy <;> simp only [prefer, List.map_append, List.sum_append, h, if_true,
    Bool.false_eq_true, if_false]
  omega

/-- A round from a position where none has begun leaves less to be done. -/
theorem Reaches.work_round_lt (hb : Reaches t R body) (hR : Forward t R)
    (hn : ∀ u, u.cursor.In t → ((body u).map Thread.pos).Nodup) {w : Thread} (hw : w.cursor.In t)
    (hbegun : begun.has w.pos = false) (leave : List Visit) :
    work t (prefer greedy ((body w).map .again) leave ++ todo) (begun.add w.pos) <
      work t (leave ++ todo) begun := by
  have hlength := hb.length_le hR hw (hn w hw)
  have hwork : work t todo (begun.add w.pos) + (t.length + 2) = work t todo begun :=
    work_add hw.pos_le hbegun
  rw [work_append, work_append, sum_cost_prefer]
  omega

theorem eq_leave_of_mem {w : Thread} {v : Visit}
    (hv : v ∈ if optional then [Visit.leave w] else []) : v = .leave w := by
  cases optional <;> simp_all

theorem mem_leave {w : Thread} (h : optional = true) :
    Visit.leave w ∈ if optional then [Visit.leave w] else [] := by simp [h]

theorem work_leave_lt_enter (optional : Bool) (w : Thread) :
    work t ((if optional then [Visit.leave w] else []) ++ todo) begun <
      work t (.enter w :: todo) begun := by
  rw [work_append, work_cons]
  cases optional <;> simp [Visit.cost]

/-- What is still to be done accounts for the positions that are closed already: a round that has
begun leads to where a round has ended or will end, and where one has ended the repetition has been
left or will be left. -/
structure Pending (t : Text) (R : Cursor → Cursor → Prop) (done : Cursor → Prop)
    (todo : List Visit) (begun ended : Positions) : Prop where
  begins : ∀ k l, k.In t → begun.has k.pos = true → R k l →
    ended.has l.pos = true ∨ ∃ u, Visit.again u ∈ todo ∧ u.cursor = l
  ends : ∀ l, l.In t → ended.has l.pos = true →
    begun.has l.pos = true ∧ (done l ∨ ∃ u, Visit.leave u ∈ todo ∧ u.cursor = l)

/-- A visit may be replaced by others that take over what it stood for. -/
theorem Pending.replace {done' : Cursor → Prop} {v : Visit} {vs : List Visit}
    {begun' ended' : Positions} (h : Pending t R done (v :: todo) begun ended)
    (hdone : ∀ l, done l → done' l) (hended : ∀ p, ended.has p = true → ended'.has p = true)
    (hbegun : ∀ p, begun.has p = true → begun'.has p = true)
    (hagain : ∀ u, v = .again u → ended'.has u.pos = true)
    (hleave : ∀ u, v = .leave u → done' u.cursor)
    (hbegins : ∀ k l, k.In t → begun'.has k.pos = true → begun.has k.pos = false → R k l →
      ∃ u, Visit.again u ∈ vs ∧ u.cursor = l)
    (hends : ∀ l, l.In t → ended'.has l.pos = true → ended.has l.pos = false →
      begun'.has l.pos = true ∧ (done' l ∨ ∃ u, Visit.leave u ∈ vs ∧ u.cursor = l)) :
    Pending t R done' (vs ++ todo) begun' ended' where
  begins k l hk hkb hkl := by
    cases hb : begun.has k.pos with
    | false =>
      obtain ⟨u, hu, rfl⟩ := hbegins k l hk hkb hb hkl
      exact .inr ⟨u, List.mem_append_left _ hu, rfl⟩
    | true =>
      rcases h.begins k l hk hb hkl with he | ⟨u, hu, rfl⟩
      · exact .inl (hended _ he)
      · rcases List.mem_cons.1 hu with hu | hu
        · exact .inl (hagain u hu.symm)
        · exact .inr ⟨u, List.mem_append_right _ hu, rfl⟩
  ends l hl hle := by
    cases he : ended.has l.pos with
    | false =>
      obtain ⟨hb, hd | ⟨u, hu, rfl⟩⟩ := hends l hl hle he
      · exact ⟨hb, .inl hd⟩
      · exact ⟨hb, .inr ⟨u, List.mem_append_left _ hu, rfl⟩⟩
    | true =>
      obtain ⟨hb, hd | ⟨u, hu, rfl⟩⟩ := h.ends l hl he
      · exact ⟨hbegun _ hb, .inl (hdone l hd)⟩
      · rcases List.mem_cons.1 hu with hu | hu
        · exact ⟨hbegun _ hb, .inl (hleave u hu.symm)⟩
        · exact ⟨hbegun _ hb, .inr ⟨u, List.mem_append_right _ hu, rfl⟩⟩

section
variable {w : Thread} {vs : List Visit}

theorem Pending.leave (h : Pending t R done (.leave w :: todo) begun ended) :
    Pending t R (fun l => done l ∨ l = w.cursor) todo begun ended := by
  have hrest : Pending t R (fun l => done l ∨ l = w.cursor) ([] ++ todo) begun ended := by
    refine h.replace (fun l hl => .inl hl) (fun p hp => hp) (fun p hp => hp) (by simp) ?_
      (fun k l _ h h' => absurd h (Bool.eq_false_iff.1 h'))
      (fun l _ h h' => absurd h (Bool.eq_false_iff.1 h'))
    rintro u ⟨⟩
    exact .inr rfl
  exact hrest

/-- Where a round has begun, entering once more stands for nothing but to leave. -/
theorem Pending.enter_begun (h : Pending t R done (.enter w :: todo) begun ended) :
    Pending t R done (vs ++ todo) begun ended :=
  h.replace (fun l hl => hl) (fun p hp => hp) (fun p hp => hp) (by simp) (by simp)
    (fun k l _ h h' => absurd h (Bool.eq_false_iff.1 h'))
    (fun l _ h h' => absurd h (Bool.eq_false_iff.1 h'))

/-- The visits after a round account for the position where it begins. -/
theorem Reaches.exists_again (hb : Reaches t R body) (hw : w.cursor.In t) {k l : Cursor}
    (hk : k.In t) (h : (begun.add w.pos).has k.pos = true) (h' : begun.has k.pos = false)
    (hkl : R k l) :
    ∃ u, Visit.again u ∈ prefer greedy ((body w).map .again) vs ∧ u.cursor = l := by
  obtain ⟨u, hu, rfl⟩ := hb.exists_of_pos_eq hw hk (Positions.eq_of_has_add h h') hkl
  exact ⟨u, mem_prefer.2 (.inl (List.mem_map_of_mem hu)), rfl⟩

theorem Pending.enter (hb : Reaches t R body) (hw : w.cursor.In t)
    (h : Pending t R done (.enter w :: todo) begun ended) :
    Pending t R done (prefer greedy ((body w).map .again) vs ++ todo) (begun.add w.pos)
      ended :=
  h.replace (fun l hl => hl) (fun p hp => hp) (fun p => Positions.has_add_of_has) (by simp)
    (by simp) (fun k l hk h h' => hb.exists_again hw hk h h')
    (fun l _ h h' => absurd h (Bool.eq_false_iff.1 h'))

theorem Pending.again_ended (hended : ended.has w.pos = true)
    (h : Pending t R done (.again w :: todo) begun ended) :
    Pending t R done todo begun ended := by
  have hrest : Pending t R done ([] ++ todo) begun ended := by
    refine h.replace (fun l hl => hl) (fun p hp => hp) (fun p hp => hp) ?_ (by simp)
      (fun k l _ h h' => absurd h (Bool.eq_false_iff.1 h'))
      (fun l _ h h' => absurd h (Bool.eq_false_iff.1 h'))
    rintro u ⟨⟩
    exact hended
  exact hrest

theorem Pending.again_begun (hw : w.cursor.In t) (hbegun : begun.has w.pos = true)
    (h : Pending t R done (.again w :: todo) begun ended) :
    Pending t R (fun l => done l ∨ l = w.cursor) todo begun (ended.add w.pos) := by
  have hrest : Pending t R (fun l => done l ∨ l = w.cursor) ([] ++ todo) begun
      (ended.add w.pos) := by
    refine h.replace (fun l hl => .inl hl) (fun p => Positions.has_add_of_has) (fun p hp => hp) ?_
      (by simp) (fun k l _ h h' => absurd h (Bool.eq_false_iff.1 h')) (fun l hl h h' => ?_)
    · rintro u ⟨⟩
      exact Positions.has_add_self _ _
    · obtain rfl := hw.eq_of_pos hl (Positions.eq_of_has_add h h')
      exact ⟨hbegun, .inl (.inr rfl)⟩
  exact hrest

theorem Pending.again (hb : Reaches t R body) (hw : w.cursor.In t)
    (h : Pending t R done (.again w :: todo) begun ended) :
    Pending t R done (prefer greedy ((body w).map .again) [.leave w] ++ todo) (begun.add w.pos)
      (ended.add w.pos) := by
  refine h.replace (fun l hl => hl) (fun p => Positions.has_add_of_has)
    (fun p => Positions.has_add_of_has) ?_ (by simp) (fun k l hk h h' => hb.exists_again hw hk h h')
    (fun l hl h h' => ?_)
  · rintro u ⟨⟩
    exact Positions.has_add_self _ _
  · obtain rfl := hw.eq_of_pos hl (Positions.eq_of_has_add h h')
    have hleave : Visit.leave w ∈ prefer greedy ((body w).map .again) [.leave w] :=
      mem_prefer.2 (.inr (List.mem_singleton_self _))
    exact ⟨Positions.has_add_self _ _, .inr ⟨w, hleave, rfl⟩⟩

end

/-- Steps from positions begun lead to such positions, and the repetition is left there. -/
def ClosedUnder (t : Text) (R : Cursor → Cursor → Prop) (final : Positions)
    (done : Cursor → Prop) : Prop :=
  ∀ k l, k.In t → final.has k.pos = true → R k l → final.has l.pos = true ∧ done l

theorem ClosedUnder.mono {final : Positions} {done' : Cursor → Prop}
    (h : ClosedUnder t R final done) (hd : ∀ l, done l → done' l) : ClosedUnder t R final done' :=
  fun k l hk hkf hkl => (h k l hk hkf hkl).imp_right (hd l)

/-- From a position begun, every cursor that at least one step leads to has been left at. -/
theorem ClosedUnder.of_steps {final : Positions} (h : ClosedUnder t R final done)
    (hR : Forward t R) {n : ℕ} {k l : Cursor} (hk : k.In t) (hkf : final.has k.pos = true)
    (hs : Steps R (n + 1) k l) : done l := by
  induction n generalizing k with
  | zero =>
    obtain ⟨j, hkj, rfl⟩ := hs
    exact (h k j hk hkf hkj).2
  | succ n ih =>
    obtain ⟨j, hkj, hjl⟩ := hs
    exact ih (hR k j hk hkj).1 (h k j hk hkf hkj).1 hjl

/-- Positions where a round begins have been closed by leaving the repetition as done before or with
the threads given, and every visit has been served. -/
def Closes (t : Text) (R : Cursor → Cursor → Prop) (optional : Bool) (done : Cursor → Prop)
    (out : List Thread) (todo : List Visit) (begun : Positions) : Prop :=
  ∃ final : Positions, (∀ p, begun.has p = true → final.has p = true) ∧
    ClosedUnder t R final (fun l => done l ∨ l ∈ out.map Thread.cursor) ∧
    ∀ v ∈ todo, v.Served final (fun l => done l ∨ l ∈ out.map Thread.cursor) optional

theorem Pending.closes_nil (hR : Forward t R) (h : Pending t R done [] begun ended) :
    Closes t R optional done [] [] begun := by
  refine ⟨begun, fun p hp => hp, fun k l hk hkb hkl => ?_, by simp⟩
  have he := (h.begins k l hk hkb hkl).resolve_right (by simp)
  obtain ⟨hlb, hd⟩ := h.ends l (hR k l hk hkl).1 he
  exact ⟨hlb, .inl (hd.resolve_right (by simp))⟩

section
variable {done' : Cursor → Prop} {out out' : List Thread} {vs : List Visit} {begun' : Positions}
  {w : Thread}

theorem Closes.replace {v : Visit} (h : Closes t R optional done' out' (vs ++ todo) begun')
    (hbegun : ∀ p, begun.has p = true → begun'.has p = true)
    (hout : ∀ l, done' l ∨ l ∈ out'.map Thread.cursor → done l ∨ l ∈ out.map Thread.cursor)
    (hserved : ∀ final : Positions, (∀ p, begun'.has p = true → final.has p = true) →
      (∀ w ∈ vs, w.Served final (fun l => done l ∨ l ∈ out.map Thread.cursor) optional) →
      v.Served final (fun l => done l ∨ l ∈ out.map Thread.cursor) optional) :
    Closes t R optional done out (v :: todo) begun := by
  obtain ⟨final, hsub, hclosed, hall⟩ := h
  refine ⟨final, fun p hp => hsub p (hbegun p hp), hclosed.mono hout, ?_⟩
  refine List.forall_mem_cons.2 ⟨hserved final hsub fun w hw => ?_, fun w hw => ?_⟩
  · exact (hall w (List.mem_append_left _ hw)).mono hout
  · exact (hall w (List.mem_append_right _ hw)).mono hout

/-- A thread at which the repetition is left serves the visit that it comes from. -/
theorem Closes.cons {v : Visit} (hv : v = .leave w ∨ v = .again w)
    (h : Closes t R optional (fun l => done l ∨ l = w.cursor) out todo begun) :
    Closes t R optional done (w :: out) (v :: todo) begun := by
  have hrest : Closes t R optional (fun l => done l ∨ l = w.cursor) out ([] ++ todo) begun := h
  refine hrest.replace (fun p hp => hp) (fun l => done_or_mem_cons) fun final _ _ => ?_
  obtain rfl | rfl := hv
  · exact .inr List.mem_cons_self
  · trivial

theorem Closes.enter (hbegun : ∀ p, begun.has p = true → begun'.has p = true)
    (hw : begun'.has w.pos = true) (hvs : optional = true → Visit.leave w ∈ vs)
    (h : Closes t R optional done out (vs ++ todo) begun') :
    Closes t R optional done out (.enter w :: todo) begun :=
  h.replace hbegun (fun _ hl => hl) fun _ hsub hall =>
    ⟨hsub _ hw, fun ho => hall _ (hvs ho)⟩

theorem Closes.again (hbegun : ∀ p, begun.has p = true → begun'.has p = true)
    (h : Closes t R optional done out (vs ++ todo) begun') :
    Closes t R optional done out (.again w :: todo) begun :=
  h.replace hbegun (fun _ hl => hl) fun _ _ _ => trivial

end

theorem Reaches.forall_in_prefer (hb : Reaches t R body) (hR : Forward t R) {w : Thread}
    (hw : w.cursor.In t) {leave : List Visit} (hleave : ∀ v ∈ leave, v = .leave w) :
    ∀ v ∈ prefer greedy ((body w).map .again) leave, v.thread.cursor.In t := by
  intro v hv
  rcases mem_prefer.1 hv with hv | hv
  · obtain ⟨u, hu, rfl⟩ := List.mem_map.1 hv
    exact hb.forall_in hR hw u hu
  · obtain rfl := hleave v hv
    exact hw

/-- With enough fuel, the exploration closes all positions where a round begins. -/
theorem Reaches.closes_explore (hb : Reaches t R body) (hR : Forward t R)
    (hn : ∀ u, u.cursor.In t → ((body u).map Thread.pos).Nodup)
    (hin : ∀ v ∈ todo, v.thread.cursor.In t) (hfuel : work t todo begun < fuel)
    (h : Pending t R done todo begun ended) :
    Closes t R optional done (explore body greedy optional fuel todo begun ended) todo begun := by
  fun_induction explore body greedy optional fuel todo begun ended generalizing done with
  | case1 => exact absurd hfuel (Nat.not_lt_zero _)
  | case2 => exact h.closes_nil hR
  | case3 fuel w todo begun ended ih =>
    -- the repetition is left
    obtain ⟨-, hin⟩ := List.forall_mem_cons.1 hin
    rw [work_cons, Visit.cost] at hfuel
    exact (ih hin (by omega) h.leave).cons (.inl rfl)
  | case4 fuel w todo begun ended leave hbegun =>
    -- entered where a round has begun before
    rename_i ih
    obtain ⟨hw, hin⟩ := List.forall_mem_cons.1 hin
    have hleave : ∀ v ∈ leave, v = .leave w := fun v => eq_leave_of_mem
    refine (ih (List.forall_mem_append.2 ⟨fun v hv => hleave v hv ▸ hw, hin⟩)
      ((work_leave_lt_enter optional w).trans_le (Nat.le_of_lt_succ hfuel)) h.enter_begun).enter
      (fun p hp => hp) hbegun mem_leave
  | case5 fuel w todo begun ended leave hbegun =>
    -- entered where no round has begun
    rename_i ih
    obtain ⟨hw, hin⟩ := List.forall_mem_cons.1 hin
    have hleave : ∀ v ∈ leave, v = .leave w := fun v => eq_leave_of_mem
    have hless : work t (prefer greedy ((body w).map .again) leave ++ todo) (begun.add w.pos) <
        work t (.enter w :: todo) begun :=
      (hb.work_round_lt hR hn hw (Bool.eq_false_iff.2 hbegun) leave).trans
        (work_leave_lt_enter optional w)
    refine (ih (List.forall_mem_append.2 ⟨hb.forall_in_prefer hR hw hleave, hin⟩)
      (hless.trans_le (Nat.le_of_lt_succ hfuel)) (h.enter hb hw)).enter
      (fun p => Positions.has_add_of_has) (Positions.has_add_self _ _) fun ho => ?_
    exact mem_prefer.2 (.inr (mem_leave ho))
  | case6 fuel w todo begun ended hended ih =>
    -- a round has ended here before
    obtain ⟨-, hin⟩ := List.forall_mem_cons.1 hin
    rw [work_cons, Visit.cost] at hfuel
    have hrest : Closes t R optional done
        (explore body greedy optional fuel todo begun ended) ([] ++ todo) begun :=
      ih hin (by omega) (h.again_ended hended)
    exact hrest.again fun p hp => hp
  | case7 fuel w todo begun ended _ hbegun ih =>
    -- a round ends where one has begun
    obtain ⟨hw, hin⟩ := List.forall_mem_cons.1 hin
    rw [work_cons, Visit.cost] at hfuel
    exact (ih hin (by omega) (h.again_begun hw hbegun)).cons (.inr rfl)
  | case8 fuel w todo begun ended _ hbegun ih =>
    -- a round ends where none has begun, and the next one begins
    obtain ⟨hw, hin⟩ := List.forall_mem_cons.1 hin
    have hless : work t (prefer greedy ((body w).map .again) [.leave w] ++ todo)
        (begun.add w.pos) < work t (.again w :: todo) begun :=
      hb.work_round_lt hR hn hw (Bool.eq_false_iff.2 hbegun) [.leave w]
    have hleave : ∀ v ∈ [Visit.leave w], v = .leave w := fun _ => List.mem_singleton.1
    exact (ih (List.forall_mem_append.2 ⟨hb.forall_in_prefer hR hw hleave, hin⟩)
      (hless.trans_le (Nat.le_of_lt_succ hfuel)) (h.again hb hw)).again
      fun p => Positions.has_add_of_has

/-- Wherever a permitted number of steps leads from the start, the repetition is left. -/
theorem Closes.done_of_steps {out start : List Thread} (hR : Forward t R)
    (hstart : ∀ u ∈ start, u.cursor.In t)
    (h : Closes t R optional done out (start.map .enter) begun) {u : Thread} (hu : u ∈ start)
    {n : ℕ} {l : Cursor} (hpos : optional = false → 0 < n) (hs : Steps R n u.cursor l) :
    done l ∨ l ∈ out.map Thread.cursor := by
  obtain ⟨final, -, hclosed, hserved⟩ := h
  obtain ⟨huf, hopt⟩ := hserved (.enter u) (List.mem_map_of_mem hu)
  cases n with
  | zero =>
    obtain rfl : u.cursor = l := hs
    cases optional with
    | false => exact absurd (hpos rfl) (Nat.lt_irrefl 0)
    | true => exact hopt rfl
  | succ n => exact hclosed.of_steps hR (hstart u hu) huf hs

theorem work_start (start : List Thread) :
    work t (start.map .enter) 0 = 2 * start.length + (t.length + 1) * (t.length + 2) := by
  rw [work, Positions.missing_zero, List.map_map]
  simp [Function.comp_def, Visit.cost, Nat.mul_comm]

theorem mem_explore (hb : Reaches t R body) (hR : Forward t R)
    (hn : ∀ u, u.cursor.In t → ((body u).map Thread.pos).Nodup) {start : List Thread}
    (hstart : ∀ u ∈ start, u.cursor.In t)
    (hfuel : 2 * start.length + (t.length + 1) * (t.length + 2) < fuel) {l : Cursor} :
    l ∈ (explore body greedy optional fuel (start.map .enter) 0 0).map Thread.cursor ↔
      ∃ u ∈ start, ∃ n, (optional = false → 0 < n) ∧ Steps R n u.cursor l := by
  have hin : ∀ v ∈ start.map Visit.enter, v.thread.cursor.In t := fun v hv => by
    obtain ⟨u, hu, rfl⟩ := List.mem_map.1 hv
    exact hstart u hu
  constructor
  · intro h
    obtain ⟨u, hu, rfl⟩ := List.mem_map.1 h
    obtain ⟨v, hv, hend⟩ := hb.ends_of_mem_explore hR hin hu
    obtain ⟨w, hw, rfl⟩ := List.mem_map.1 hv
    exact ⟨w, hw, hend⟩
  · rintro ⟨u, hu, n, hpos, hs⟩
    have hcloses : Closes t R optional (fun _ => False)
        (explore body greedy optional fuel (start.map .enter) 0 0) (start.map .enter) 0 :=
      hb.closes_explore hR hn hin (by rwa [work_start]) ⟨by simp, by simp⟩
    exact (hcloses.done_of_steps hR hstart hu hpos hs).resolve_left id

end
end PageCache.Pattern
