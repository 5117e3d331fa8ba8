import PageCache.Proofs.Pattern.Traces

/-! Repetitions with a bound. The exploration visits each position once for each number of rounds
left, so that the bound and the text bound its work. Main statement: the threads explored stand
wherever a permitted number of steps leads. -/
namespace PageCache.Pattern.UpTo

variable {t : Text} {R : Cursor → Cursor → Prop} {body : Thread → List Thread} {greedy : Bool}
  {most fuel : ℕ} {todo : List (Option ℕ × Thread)} {seen : Positions} {done : Cursor → Prop}

/-- The number under which a position with rounds left is kept. -/
def key (t : Text) (n : ℕ) (k : Cursor) : ℕ := n * (t.length + 1) + k.pos

theorem key_inj {m n : ℕ} {k l : Cursor} (hk : k.In t) (hl : l.In t) (h : key t m k = key t n l) :
    m = n ∧ k = l := by
  have hkp := hk.pos_le
  have hlp := hl.pos_le
  have hm : ∀ i p, p ≤ t.length → (i * (t.length + 1) + p) / (t.length + 1) = i := by
    intro i p hp
    rw [Nat.mul_comm, Nat.mul_add_div (Nat.succ_pos _), Nat.div_eq_of_lt (by omega), Nat.add_zero]
  have hmn : m = n := by
    rw [← hm m k.pos hkp, ← hm n l.pos hlp]
    exact congrArg (· / (t.length + 1)) h
  subst hmn
  exact ⟨rfl, hk.eq_of_pos hl (Nat.add_left_cancel h)⟩

theorem key_lt {n most : ℕ} {k : Cursor} (hk : k.In t) (hn : n < most) :
    key t n k < most * (t.length + 1) := by
  have h := Nat.mul_le_mul_right (t.length + 1) (Nat.succ_le_of_lt hn)
  rw [Nat.succ_mul] at h
  have := hk.pos_le
  rw [key]
  omega

/-- Where a visit may lead. -/
def Ends (R : Cursor → Cursor → Prop) (l : Cursor) : Option ℕ × Thread → Prop
  | (none, u) => u.cursor = l
  | (some n, u) => ∃ d, d ≤ n ∧ Steps R d u.cursor l

theorem ends_of_mem_exploreUpTo (hb : Reaches t R body) (hR : Forward t R) {width : ℕ}
    (hin : ∀ v ∈ todo, v.2.cursor.In t) {u : Thread}
    (hu : u ∈ exploreUpTo body greedy width fuel todo seen) :
    ∃ v ∈ todo, Ends R u.cursor v := by
  obtain ⟨⟨left, w⟩, hv, d, hd, h⟩ := exists_of_mem_exploreUpTo hu
  have hs := hb.steps_of_after hR (hin _ hv) h
  refine ⟨(left, w), hv, ?_⟩
  cases left with
  | none =>
    obtain rfl : d = 0 := by simpa using hd
    exact hs
  | some n => exact ⟨d, hd, hs⟩

/-- A bound on the visits that are still to be made: each position not seen with a number of rounds
left may add one for every position and one to leave. -/
def work (t : Text) (most : ℕ) (todo : List (Option ℕ × Thread)) (seen : Positions) : ℕ :=
  todo.length + seen.missing (most * (t.length + 1)) * (t.length + 2)

theorem work_cons (v : Option ℕ × Thread) :
    work t most (v :: todo) seen = work t most todo seen + 1 := by
  rw [work, work, List.length_cons, Nat.add_right_comm]

theorem work_round_lt {vs : List (Option ℕ × Thread)} (hvs : vs.length ≤ t.length + 2)
    {n : ℕ} {k : Cursor} (hk : k.In t) (hn : n < most) (hseen : seen.has (key t n k) = false)
    (v : Option ℕ × Thread) :
    work t most (vs ++ todo) (seen.add (key t n k)) < work t most (v :: todo) seen := by
  rw [work, work, ← Positions.missing_add (key_lt hk hn) hseen, Nat.succ_mul, List.length_append,
    List.length_cons]
  omega

theorem length_visits {n : ℕ} {w : Thread} {us : List Thread} :
    (if greedy then us.map (fun u => (some n, u)) ++ [(none, w)]
      else (none, w) :: us.map fun u => (some n, u)).length = us.length + 1 := by
  cases greedy <;> simp

/-- The cursor has been dealt with, given the number of rounds left. -/
def Settled (t : Text) (seen : Positions) (done : Cursor → Prop) : ℕ → Cursor → Prop
  | 0, k => done k
  | n + 1, k => seen.has (key t n k) = true

theorem Settled.mono {seen' : Positions} {done' : Cursor → Prop} {n : ℕ} {k : Cursor}
    (h : Settled t seen done n k) (hs : ∀ p, seen.has p = true → seen'.has p = true)
    (hd : ∀ l, done l → done' l) : Settled t seen' done' n k := by
  cases n with
  | zero => exact hd k h
  | succ n => exact hs _ h

/-- What a visit asks of the positions seen in the end and of the cursors left at. -/
def Served (t : Text) (seen : Positions) (done : Cursor → Prop) : Option ℕ × Thread → Prop
  | (none, u) => done u.cursor
  | (some n, u) => Settled t seen done n u.cursor

theorem Served.mono {done' : Cursor → Prop} {v : Option ℕ × Thread}
    (h : Served t seen done v) (hd : ∀ l, done l → done' l) : Served t seen done' v := by
  obtain ⟨_ | n, u⟩ := v
  · exact hd _ h
  · exact Settled.mono h (fun p hp => hp) hd

/-- What is still to be done accounts for the positions seen. -/
def Pending (t : Text) (R : Cursor → Cursor → Prop) (done : Cursor → Prop)
    (todo : List (Option ℕ × Thread)) (seen : Positions) : Prop :=
  ∀ n k, k.In t → seen.has (key t n k) = true →
    (done k ∨ ∃ u, (none, u) ∈ todo ∧ u.cursor = k) ∧
      ∀ l, R k l → Settled t seen done n l ∨ ∃ u, (some n, u) ∈ todo ∧ u.cursor = l

/-- A visit may be replaced by others that take over what it stood for. -/
theorem Pending.replace {done' : Cursor → Prop} {v : Option ℕ × Thread}
    {vs : List (Option ℕ × Thread)} {seen' : Positions}
    (h : Pending t R done (v :: todo) seen) (hdone : ∀ l, done l → done' l)
    (hseen : ∀ p, seen.has p = true → seen'.has p = true)
    (hleave : ∀ u, v = (none, u) → done' u.cursor)
    (hround : ∀ n u, v = (some n, u) → Settled t seen' done' n u.cursor)
    (hnew : ∀ n k, k.In t → seen'.has (key t n k) = true → seen.has (key t n k) = false →
      (∃ u, (none, u) ∈ vs ∧ u.cursor = k) ∧
        ∀ l, R k l → ∃ u, (some n, u) ∈ vs ∧ u.cursor = l) :
    Pending t R done' (vs ++ todo) seen' := by
  intro n k hk hk'
  cases hs : seen.has (key t n k) with
  | false =>
    obtain ⟨⟨u, hu, hul⟩, hall⟩ := hnew n k hk hk' hs
    refine ⟨.inr ⟨u, List.mem_append_left _ hu, hul⟩, fun l hl => ?_⟩
    obtain ⟨u, hu, hul⟩ := hall l hl
    exact .inr ⟨u, List.mem_append_left _ hu, hul⟩
  | true =>
    obtain ⟨hleft, hall⟩ := h n k hk hs
    refine ⟨?_, fun l hl => ?_⟩
    · rcases hleft with hd | ⟨u, hu, rfl⟩
      · exact .inl (hdone k hd)
      · rcases List.mem_cons.1 hu with hu | hu
        · exact .inl (hleave u hu.symm)
        · exact .inr ⟨u, List.mem_append_right _ hu, rfl⟩
    · rcases hall l hl with hs' | ⟨u, hu, rfl⟩
      · exact .inl (hs'.mono hseen hdone)
      · rcases List.mem_cons.1 hu with hu | hu
        · exact .inl (hround n u hu.symm)
        · exact .inr ⟨u, List.mem_append_right _ hu, rfl⟩

section
variable {n : ℕ} {w : Thread} {vs : List (Option ℕ × Thread)}

theorem Pending.leave {v : Option ℕ × Thread} (hv : v = (none, w) ∨ v = (some 0, w))
    (h : Pending t R done (v :: todo) seen) :
    Pending t R (fun l => done l ∨ l = w.cursor) todo seen := by
  have hrest : Pending t R (fun l => done l ∨ l = w.cursor) ([] ++ todo) seen := by
    refine h.replace (fun _ hl => .inl hl) (fun p hp => hp) (fun u hu => ?_) (fun n u hu => ?_)
      (fun n k _ h h' => absurd h (Bool.eq_false_iff.1 h'))
    · obtain rfl | rfl := hv <;> cases hu
      exact .inr rfl
    · obtain rfl | rfl := hv <;> cases hu
      exact .inr rfl
  exact hrest

theorem Pending.skip (hs : seen.has (key t n w.cursor) = true)
    (h : Pending t R done ((some (n + 1), w) :: todo) seen) : Pending t R done todo seen := by
  have hrest : Pending t R done ([] ++ todo) seen := by
    refine h.replace (fun _ hl => hl) (fun p hp => hp) (by simp) ?_
      (fun n k _ h h' => absurd h (Bool.eq_false_iff.1 h'))
    rintro m u ⟨⟩
    exact hs
  exact hrest

theorem Pending.round (hb : Reaches t R body) (hw : w.cursor.In t)
    (hvs : ∀ x, x ∈ vs ↔ x = (none, w) ∨ ∃ u ∈ body w, (some n, u) = x)
    (h : Pending t R done ((some (n + 1), w) :: todo) seen) :
    Pending t R done (vs ++ todo) (seen.add (key t n w.cursor)) := by
  refine h.replace (fun _ hl => hl) (fun p => Positions.has_add_of_has) (by simp) ?_
    (fun m k hk h h' => ?_)
  · rintro m u ⟨⟩
    exact Positions.has_add_self _ _
  · obtain ⟨rfl, rfl⟩ := key_inj hw hk (Positions.eq_of_has_add h h')
    refine ⟨⟨w, (hvs _).2 (.inl rfl), rfl⟩, fun l hl => ?_⟩
    obtain ⟨u, hu, rfl⟩ := hb.exists_of_pos_eq hw hw rfl hl
    exact ⟨u, (hvs _).2 (.inr ⟨u, hu, rfl⟩), rfl⟩

end

/-- Positions seen have been closed by leaving the repetition as done before or with the threads
given, and every visit has been served. -/
def Closes (t : Text) (R : Cursor → Cursor → Prop) (done : Cursor → Prop) (out : List Thread)
    (todo : List (Option ℕ × Thread)) (seen : Positions) : Prop :=
  ∃ final : Positions, (∀ p, seen.has p = true → final.has p = true) ∧
    (∀ n k, k.In t → final.has (key t n k) = true →
      (done k ∨ k ∈ out.map Thread.cursor) ∧
        ∀ l, R k l → Settled t final (fun l => done l ∨ l ∈ out.map Thread.cursor) n l) ∧
    ∀ v ∈ todo, Served t final (fun l => done l ∨ l ∈ out.map Thread.cursor) v

theorem Pending.closes_nil (h : Pending t R done [] seen) : Closes t R done [] [] seen := by
  refine ⟨seen, fun p hp => hp, fun n k hk hks => ?_, by simp⟩
  obtain ⟨hleft, hall⟩ := h n k hk hks
  refine ⟨.inl (hleft.resolve_right (by simp)), fun l hl => ?_⟩
  exact ((hall l hl).resolve_right (by simp)).mono (fun p hp => hp) fun _ hl => .inl hl

section
variable {done' : Cursor → Prop} {out out' : List Thread} {vs : List (Option ℕ × Thread)}
  {seen' : Positions} {w : Thread}

theorem Closes.replace {v : Option ℕ × Thread} (h : Closes t R done' out' (vs ++ todo) seen')
    (hseen : ∀ p, seen.has p = true → seen'.has p = true)
    (hout : ∀ l, done' l ∨ l ∈ out'.map Thread.cursor → done l ∨ l ∈ out.map Thread.cursor)
    (hserved : ∀ final : Positions, (∀ p, seen'.has p = true → final.has p = true) →
      Served t final (fun l => done l ∨ l ∈ out.map Thread.cursor) v) :
    Closes t R done out (v :: todo) seen := by
  obtain ⟨final, hsub, hclosed, hall⟩ := h
  refine ⟨final, fun p hp => hsub p (hseen p hp), fun n k hk hkf => ?_, ?_⟩
  · obtain ⟨hleft, hrounds⟩ := hclosed n k hk hkf
    exact ⟨hout k hleft, fun l hl => (hrounds l hl).mono (fun p hp => hp) hout⟩
  · exact List.forall_mem_cons.2 ⟨hserved final hsub, fun w hw =>
      (hall w (List.mem_append_right _ hw)).mono hout⟩

theorem Closes.cons {v : Option ℕ × Thread} (hv : v = (none, w) ∨ v = (some 0, w))
    (h : Closes t R (fun l => done l ∨ l = w.cursor) out todo seen) :
    Closes t R done (w :: out) (v :: todo) seen := by
  have hrest : Closes t R (fun l => done l ∨ l = w.cursor) out ([] ++ todo) seen := h
  refine hrest.replace (fun p hp => hp) (fun l => done_or_mem_cons) fun final _ => ?_
  obtain rfl | rfl := hv
  · exact .inr List.mem_cons_self
  · exact .inr List.mem_cons_self

theorem Closes.round {n : ℕ} (hseen : ∀ p, seen.has p = true → seen'.has p = true)
    (hw : seen'.has (key t n w.cursor) = true) (h : Closes t R done out (vs ++ todo) seen') :
    Closes t R done out ((some (n + 1), w) :: todo) seen :=
  h.replace hseen (fun _ hl => hl) fun _ hsub => hsub _ hw

end

/-- Within the rounds left, every cursor that steps lead to has been left at. -/
theorem Settled.of_steps {final : Positions} (hR : Forward t R)
    (hclosed : ∀ n k, k.In t → final.has (key t n k) = true →
      done k ∧ ∀ l, R k l → Settled t final done n l) {n d : ℕ} {k l : Cursor} (hk : k.In t)
    (hd : d ≤ n) (h : Settled t final done n k) (hs : Steps R d k l) : done l := by
  induction n generalizing d k with
  | zero =>
    obtain rfl := Nat.le_zero.1 hd
    obtain rfl : k = l := hs
    exact h
  | succ n ih =>
    obtain ⟨hleft, hrounds⟩ := hclosed n k hk h
    cases d with
    | zero =>
      obtain rfl : k = l := hs
      exact hleft
    | succ d =>
      obtain ⟨j, hkj, hjl⟩ := hs
      exact ih (hR k j hk hkj).1 (Nat.le_of_succ_le_succ hd) (hrounds j hkj) hjl

theorem closes_exploreUpTo (hb : Reaches t R body) (hR : Forward t R)
    (hn : ∀ u, u.cursor.In t → ((body u).map Thread.pos).Nodup)
    (hin : ∀ v ∈ todo, v.2.cursor.In t) (hmost : ∀ v ∈ todo, ∀ n, v.1 = some n → n ≤ most)
    (hfuel : work t most todo seen < fuel) (h : Pending t R done todo seen) :
    Closes t R done (exploreUpTo body greedy (t.length + 1) fuel todo seen) todo seen := by
  fun_induction exploreUpTo body greedy (t.length + 1) fuel todo seen generalizing done with
  | case1 => exact absurd hfuel (Nat.not_lt_zero _)
  | case2 => exact h.closes_nil
  | case3 fuel w todo seen ih =>
    -- the repetition is left
    obtain ⟨-, hin⟩ := List.forall_mem_cons.1 hin
    obtain ⟨-, hmost⟩ := List.forall_mem_cons.1 hmost
    rw [work_cons] at hfuel
    exact (ih hin hmost (by omega) (h.leave (.inl rfl))).cons (.inl rfl)
  | case4 fuel w todo seen ih =>
    -- no rounds are left
    obtain ⟨-, hin⟩ := List.forall_mem_cons.1 hin
    obtain ⟨-, hmost⟩ := List.forall_mem_cons.1 hmost
    rw [work_cons] at hfuel
    exact (ih hin hmost (by omega) (h.leave (.inr rfl))).cons (.inr rfl)
  | case5 fuel n w todo seen key hseen =>
    -- seen before with as many rounds left
    rename_i ih
    obtain ⟨-, hin⟩ := List.forall_mem_cons.1 hin
    obtain ⟨-, hmost⟩ := List.forall_mem_cons.1 hmost
    rw [work_cons] at hfuel
    have hrest : Closes t R done (exploreUpTo body greedy (t.length + 1) fuel todo seen)
        ([] ++ todo) seen := ih hin hmost (by omega) (h.skip hseen)
    exact hrest.round (fun p hp => hp) hseen
  | case6 fuel n w todo seen key hseen rounds visits =>
    -- a round begins
    rename_i ih
    obtain ⟨hw, hin⟩ := List.forall_mem_cons.1 hin
    obtain ⟨hbelow, hmost⟩ := List.forall_mem_cons.1 hmost
    have hvisits : ∀ x, x ∈ visits ↔ x = (none, w) ∨ ∃ u ∈ body w, (some n, u) = x :=
      fun x => mem_visits
    have hlength : visits.length ≤ t.length + 2 :=
      length_visits.trans_le (Nat.succ_le_succ (hb.length_le hR hw (hn w hw)))
    have hless : work t most (visits ++ todo) (seen.add key) <
        work t most ((some (n + 1), w) :: todo) seen :=
      work_round_lt hlength hw (hbelow (n + 1) rfl) (Bool.eq_false_iff.2 hseen) _
    refine (ih (List.forall_mem_append.2 ⟨fun x hx => ?_, hin⟩)
      (List.forall_mem_append.2 ⟨fun x hx m hm => ?_, hmost⟩)
      (hless.trans_le (Nat.le_of_lt_succ hfuel)) (h.round hb hw hvisits)).round
      (fun p => Positions.has_add_of_has) (Positions.has_add_self _ _)
    · rcases (hvisits x).1 hx with rfl | ⟨u, hu, rfl⟩
      · exact hw
      · exact hb.forall_in hR hw u hu
    · rcases (hvisits x).1 hx with rfl | ⟨u, hu, rfl⟩
      · cases hm
      · cases hm
        exact Nat.le_of_succ_le (hbelow (n + 1) rfl)

theorem mem_exploreUpTo (hb : Reaches t R body) (hR : Forward t R)
    (hn : ∀ u, u.cursor.In t → ((body u).map Thread.pos).Nodup) {more : ℕ} {start : List Thread}
    (hstart : ∀ u ∈ start, u.cursor.In t)
    (hfuel : start.length + more * (t.length + 1) * (t.length + 2) < fuel) {l : Cursor} :
    l ∈ (exploreUpTo body greedy (t.length + 1) fuel (start.map fun u => (some more, u)) 0).map
        Thread.cursor ↔
      ∃ u ∈ start, ∃ d, d ≤ more ∧ Steps R d u.cursor l := by
  have hin : ∀ v ∈ start.map fun u => (some more, u), v.2.cursor.In t := fun v hv => by
    obtain ⟨u, hu, rfl⟩ := List.mem_map.1 hv
    exact hstart u hu
  constructor
  · intro h
    obtain ⟨u, hu, rfl⟩ := List.mem_map.1 h
    obtain ⟨v, hv, hend⟩ := ends_of_mem_exploreUpTo hb hR hin hu
    obtain ⟨w, hw, rfl⟩ := List.mem_map.1 hv
    exact ⟨w, hw, hend⟩
  · rintro ⟨u, hu, d, hd, hs⟩
    have hmost : ∀ v ∈ start.map fun u => (some more, u), ∀ n, v.1 = some n → n ≤ more := by
      intro v hv n hvn
      obtain ⟨u, -, rfl⟩ := List.mem_map.1 hv
      cases hvn
      exact le_rfl
    have hwork : work t more (start.map fun u => (some more, u)) 0 < fuel := by
      rwa [work, List.length_map, Positions.missing_zero]
    obtain ⟨final, -, hclosed, hserved⟩ : Closes t R (fun _ => False)
        (exploreUpTo body greedy (t.length + 1) fuel (start.map fun u => (some more, u)) 0)
        (start.map fun u => (some more, u)) 0 :=
      closes_exploreUpTo hb hR hn hin hmost hwork (fun n k _ h => by simp at h)
    have hsettled := hserved (some more, u) (List.mem_map_of_mem hu)
    exact (hsettled.of_steps hR hclosed (hstart u hu) hd hs).resolve_left id

end PageCache.Pattern.UpTo
