import PageCache.Proofs.Pattern.Matches

/-! The search that follows all positions at once finds exactly the matches. A cursor in a given
text is determined by its position, so that leaving out positions seen before loses nothing; and a
repetition that goes on needs no more rounds than the text has characters. -/
namespace PageCache.Pattern

namespace Positions

@[simp] theorem has_zero (p : ℕ) : Positions.has 0 p = false := by simp [has]

@[simp] theorem has_add (s : Positions) (p q : ℕ) : (s.add p).has q = (s.has q || p == q) := by
  simp only [has, add, Nat.testBit_or, Nat.one_shiftLeft, Nat.testBit_two_pow]
  rfl

end Positions

namespace Cursor

def between (pre post : Text) : Cursor := ⟨pre.length, pre.getLast?, post⟩

def In (t : Text) (k : Cursor) : Prop := ∃ pre post, t = pre ++ post ∧ k = between pre post

theorem In.eq_of_pos {t : Text} {k l : Cursor} (hk : k.In t) (hl : l.In t) (h : k.pos = l.pos) :
    k = l := by
  obtain ⟨p, q, rfl, rfl⟩ := hk
  obtain ⟨p', q', he, rfl⟩ := hl
  obtain ⟨rfl, rfl⟩ := List.append_inj he h
  rfl

theorem next_between (pre : Text) (c : Char) (post : Text) :
    (between pre (c :: post)).next c post = between (pre ++ [c]) post := by
  simp [next, between]

theorem mem_suffixes_between {pre t : Text} {k : Cursor} :
    k ∈ suffixes pre.length pre.getLast? t ↔ ∃ a b, t = a ++ b ∧ k = between (pre ++ a) b := by
  induction t generalizing pre with
  | nil =>
    simp only [suffixes, List.mem_singleton, between]
    constructor
    · rintro rfl
      exact ⟨[], [], rfl, by simp⟩
    · rintro ⟨a, b, h, rfl⟩
      obtain ⟨rfl, rfl⟩ := List.nil_eq_append_iff.1 h
      simp
  | cons c t ih =>
    have hn : suffixes (pre.length + 1) (some c) t =
        suffixes (pre ++ [c]).length (pre ++ [c]).getLast? t := by simp
    rw [suffixes, List.mem_cons, hn, ih]
    constructor
    · rintro (rfl | ⟨a, b, rfl, rfl⟩)
      · exact ⟨[], c :: t, rfl, by simp [between]⟩
      · exact ⟨c :: a, b, rfl, by simp⟩
    · rintro ⟨a, b, h, rfl⟩
      rcases List.cons_eq_append_iff.1 h with ⟨rfl, rfl⟩ | ⟨a', rfl, rfl⟩
      · exact .inl (by simp [between])
      · exact .inr ⟨a', b, rfl, by simp⟩

theorem mem_suffixes {t : Text} {k : Cursor} : k ∈ suffixes 0 none t ↔ k.In t := by
  have h : k ∈ suffixes ([] : Text).length ([] : Text).getLast? t ↔ _ := mem_suffixes_between
  simpa [In] using h

/-- The positions seen after a list are those seen before and those of the list. -/
theorem has_unseen {seen : Positions} {ks : List Cursor} {p : ℕ} :
    (unseen seen ks).2.has p = true ↔ seen.has p = true ∨ ∃ k ∈ ks, k.pos = p := by
  induction ks generalizing seen with
  | nil => simp [unseen]
  | cons k ks ih =>
    unfold unseen
    split
    · next h =>
      rw [ih]
      constructor
      · rintro (h' | ⟨l, hl, rfl⟩)
        · exact .inl h'
        · exact .inr ⟨l, by simp [hl], rfl⟩
      · rintro (h' | ⟨l, hl, rfl⟩)
        · exact .inl h'
        · rcases List.mem_cons.1 hl with rfl | hl
          · exact .inl h
          · exact .inr ⟨l, hl, rfl⟩
    · simp only [ih, Positions.has_add, Bool.or_eq_true, beq_iff_eq, List.mem_cons]
      constructor
      · rintro ((h | rfl) | ⟨l, hl, rfl⟩)
        · exact .inl h
        · exact .inr ⟨k, .inl rfl, rfl⟩
        · exact .inr ⟨l, .inr hl, rfl⟩
      · rintro (h | ⟨l, rfl | hl, rfl⟩)
        · exact .inl (.inl h)
        · exact .inl (.inr rfl)
        · exact .inr ⟨l, hl, rfl⟩

/-- In one text the cursors left are those at positions not seen before. -/
theorem mem_unseen {t : Text} {seen : Positions} {ks : List Cursor} (h : ∀ k ∈ ks, k.In t)
    {l : Cursor} : l ∈ (unseen seen ks).1 ↔ l ∈ ks ∧ seen.has l.pos = false := by
  induction ks generalizing seen with
  | nil => simp [unseen]
  | cons k ks ih =>
    have hks : ∀ k ∈ ks, k.In t := fun k hk => h k (by simp [hk])
    unfold unseen
    split
    · next hs =>
      rw [ih hks, List.mem_cons]
      constructor
      · rintro ⟨hl, hn⟩
        exact ⟨.inr hl, hn⟩
      · rintro ⟨rfl | hl, hn⟩
        · simp [hs] at hn
        · exact ⟨hl, hn⟩
    · next hs =>
      simp only [List.mem_cons, ih hks, Positions.has_add, Bool.or_eq_false_iff, beq_eq_false_iff_ne]
      constructor
      · rintro (rfl | ⟨hl, hn, -⟩)
        · exact ⟨.inl rfl, by simpa using hs⟩
        · exact ⟨.inr hl, hn⟩
      · rintro ⟨rfl | hl, hn⟩
        · exact .inl rfl
        · by_cases hp : k.pos = l.pos
          · exact .inl ((h k (by simp)).eq_of_pos (hks l hl) hp).symm
          · exact .inr ⟨hl, hn, hp⟩

/-- In one text a cursor whose position has been seen after a list is left, or it had been seen. -/
theorem seen_or_mem_unseen {t : Text} {seen : Positions} {ks : List Cursor}
    (h : ∀ k ∈ ks, k.In t) {l : Cursor} (hl : l.In t) (hs : (unseen seen ks).2.has l.pos = true) :
    seen.has l.pos = true ∨ l ∈ (unseen seen ks).1 := by
  cases hseen : seen.has l.pos with
  | true => exact .inl rfl
  | false =>
    rcases has_unseen.1 hs with hs | ⟨k, hk, hp⟩
    · rw [hseen] at hs
      cases hs
    · obtain rfl := (h k hk).eq_of_pos hl hp
      exact .inr ((mem_unseen h).2 ⟨hk, hseen⟩)

end Cursor

def Steps (R : Cursor → Cursor → Prop) : ℕ → Cursor → Cursor → Prop
  | 0, k, l => k = l
  | n + 1, k, l => ∃ j, R k j ∧ Steps R n j l

theorem steps_add {R : Cursor → Cursor → Prop} {m n : ℕ} {k l : Cursor} :
    Steps R (m + n) k l ↔ ∃ j, Steps R m k j ∧ Steps R n j l := by
  induction m generalizing k with
  | zero => simp [Steps]
  | succ m ih =>
    rw [Nat.succ_add]
    simp only [Steps, ih]
    constructor
    · rintro ⟨i, hi, j, hj, hl⟩
      exact ⟨j, ⟨i, hi, hj⟩, hl⟩
    · rintro ⟨j, ⟨i, hi, hj⟩, hl⟩
      exact ⟨i, hi, j, hj, hl⟩

/-- A step from a cursor of the text leads to one that does not stand before it. -/
def Forward (t : Text) (R : Cursor → Cursor → Prop) : Prop :=
  ∀ k l, k.In t → R k l → l.In t ∧ k.pos ≤ l.pos

/-- From cursors of the text the function leads wherever the relation does. -/
def Follows (t : Text) (R : Cursor → Cursor → Prop) (body : List Cursor → List Cursor) : Prop :=
  ∀ ks, (∀ k ∈ ks, k.In t) → ∀ l, l ∈ body ks ↔ ∃ k ∈ ks, R k l

section
variable {t : Text} {R : Cursor → Cursor → Prop} {body : List Cursor → List Cursor}

theorem Forward.steps (hR : Forward t R) {n : ℕ} {k l : Cursor} (hk : k.In t)
    (h : Steps R n k l) : l.In t ∧ k.pos ≤ l.pos := by
  induction n generalizing k with
  | zero =>
    obtain rfl : k = l := h
    exact ⟨hk, le_rfl⟩
  | succ n ih =>
    obtain ⟨j, hj, hl⟩ := h
    obtain ⟨hjt, hkj⟩ := hR k j hk hj
    obtain ⟨hlt, hjl⟩ := ih hjt hl
    exact ⟨hlt, hkj.trans hjl⟩

/-- Steps that stay where they are can be left out; each of the others takes a position. -/
theorem Forward.exists_steps_le (hR : Forward t R) {n : ℕ} {k l : Cursor} (hk : k.In t)
    (h : Steps R n k l) : ∃ m, m ≤ n ∧ m + k.pos ≤ l.pos ∧ Steps R m k l := by
  induction n generalizing k with
  | zero =>
    obtain rfl : k = l := h
    exact ⟨0, le_rfl, by omega, rfl⟩
  | succ n ih =>
    obtain ⟨j, hj, hl⟩ := h
    obtain ⟨hjt, hkj⟩ := hR k j hk hj
    obtain ⟨m, hmn, hm, hs⟩ := ih hjt hl
    by_cases he : k.pos = j.pos
    · obtain rfl := hk.eq_of_pos hjt he
      exact ⟨m, by omega, hm, hs⟩
    · exact ⟨m + 1, by omega, by omega, j, hj, hs⟩

theorem Cursor.In.pos_le {k : Cursor} (h : k.In t) : k.pos ≤ t.length := by
  obtain ⟨p, q, rfl, rfl⟩ := h
  simp [Cursor.between]

theorem Follows.forall_in (hb : Follows t R body) (hR : Forward t R) {ks : List Cursor}
    (hks : ∀ k ∈ ks, k.In t) : ∀ k ∈ body ks, k.In t := fun k hk => by
  obtain ⟨j, hj, hjk⟩ := (hb ks hks k).1 hk
  exact (hR j k (hks j hj) hjk).1

theorem Follows.mem_repeat (hb : Follows t R body) (hR : Forward t R) {n : ℕ}
    {ks : List Cursor} (hks : ∀ k ∈ ks, k.In t) {l : Cursor} :
    l ∈ n.repeat body ks ↔ ∃ k ∈ ks, Steps R n k l := by
  induction n generalizing l with
  | zero =>
    change l ∈ ks ↔ _
    simp [Steps]
  | succ n ih =>
    have hin : ∀ k ∈ n.repeat body ks, k.In t := fun k hk => by
      obtain ⟨j, hj, hs⟩ := ih.1 hk
      exact (hR.steps (hks j hj) hs).1
    change l ∈ body (n.repeat body ks) ↔ _
    rw [hb _ hin]
    constructor
    · rintro ⟨j, hj, hjl⟩
      obtain ⟨k, hk, hs⟩ := ih.1 hj
      exact ⟨k, hk, steps_add.2 ⟨j, hs, l, hjl, rfl⟩⟩
    · rintro ⟨k, hk, hs⟩
      obtain ⟨j, hj, i, hji, rfl⟩ := steps_add.1 hs
      exact ⟨j, ih.2 ⟨k, hk, hj⟩, hji⟩

theorem mem_spread_self {seen : Positions} {n : ℕ} {ks : List Cursor} {k : Cursor} (h : k ∈ ks) :
    k ∈ spread body seen n ks := by
  cases n with
  | zero => exact h
  | succ n => simp [spread, List.ne_nil_of_mem h, h]

/-- Where there are cursors to go on from, what is found next is found. -/
theorem mem_spread_succ {seen : Positions} {n : ℕ} {ks : List Cursor} {k l : Cursor} (hk : k ∈ ks)
    (h : l ∈ spread body (Cursor.unseen seen (body ks)).2 n (Cursor.unseen seen (body ks)).1) :
    l ∈ spread body seen (n + 1) ks := by
  simp [spread, List.ne_nil_of_mem hk, h]

theorem Follows.steps_of_mem_spread (hb : Follows t R body) (hR : Forward t R) {n : ℕ}
    {seen : Positions} {ks : List Cursor} (hks : ∀ k ∈ ks, k.In t) {l : Cursor}
    (h : l ∈ spread body seen n ks) : ∃ k ∈ ks, ∃ d, d ≤ n ∧ Steps R d k l := by
  induction n generalizing seen ks with
  | zero => exact ⟨l, h, 0, le_rfl, rfl⟩
  | succ n ih =>
    unfold spread at h
    split at h
    · simp at h
    · have hin := hb.forall_in hR hks
      rcases List.mem_append.1 h with h | h
      · exact ⟨l, h, 0, by omega, rfl⟩
      · obtain ⟨j, hj, d, hd, hs⟩ := ih (fun k hk => hin k ((Cursor.mem_unseen hin).1 hk).1) h
        obtain ⟨k, hk, hkj⟩ := (hb ks hks j).1 ((Cursor.mem_unseen hin).1 hj).1
        exact ⟨k, hk, d + 1, by omega, j, hkj, hs⟩

/-- Whatever follows the positions that are seen but not on the list is seen too. -/
def SeenAfter (t : Text) (R : Cursor → Cursor → Prop) (seen : Positions) (ks : List Cursor) :
    Prop :=
  ∀ k l, k.In t → seen.has k.pos = true → k ∉ ks → R k l → seen.has l.pos = true

theorem Follows.seenAfter_unseen (hb : Follows t R body) (hR : Forward t R) {seen : Positions}
    {ks : List Cursor} (hks : ∀ k ∈ ks, k.In t) (h : SeenAfter t R seen ks) :
    SeenAfter t R (Cursor.unseen seen (body ks)).2 (Cursor.unseen seen (body ks)).1 := by
  intro k l hk hks' hnot hkl
  have hseen : seen.has k.pos = true :=
    (Cursor.seen_or_mem_unseen (hb.forall_in hR hks) hk hks').resolve_right hnot
  refine Cursor.has_unseen.2 ?_
  by_cases hmem : k ∈ ks
  · exact .inr ⟨l, (hb ks hks l).2 ⟨k, hmem, hkl⟩, rfl⟩
  · exact .inl (h k l hk hseen hmem hkl)

/-- All that is reached from a position seen is seen or found, if whatever follows the positions
that are seen but not on the list is seen too. -/
theorem Follows.seen_or_mem_spread (hb : Follows t R body) (hR : Forward t R) {n : ℕ}
    {seen : Positions} {ks : List Cursor} (hks : ∀ k ∈ ks, k.In t)
    (hclosed : SeenAfter t R seen ks) {d : ℕ} (hd : d ≤ n) {k l : Cursor} (hk : k.In t)
    (hseen : seen.has k.pos = true) (h : Steps R d k l) :
    seen.has l.pos = true ∨ l ∈ spread body seen n ks := by
  induction n generalizing seen ks d k with
  | zero =>
    obtain rfl : d = 0 := by omega
    obtain rfl : k = l := h
    exact .inl hseen
  | succ n ih =>
    have hin := hb.forall_in hR hks
    -- the induction is on the way: it stays in what is seen until it leaves the list
    induction d generalizing k with
    | zero =>
      obtain rfl : k = l := h
      exact .inl hseen
    | succ d ihd =>
      obtain ⟨j, hkj, hjl⟩ := h
      have hj := (hR k j hk hkj).1
      by_cases hjs : seen.has j.pos = true
      · exact ihd (by omega) hj hjs hjl
      · have hkm : k ∈ ks := by
          by_contra hn
          exact hjs (hclosed k j hk hseen hn hkj)
        have hjb : j ∈ body ks := (hb ks hks j).2 ⟨k, hkm, hkj⟩
        rcases ih (fun k hk => hin k ((Cursor.mem_unseen hin).1 hk).1)
          (hb.seenAfter_unseen hR hks hclosed) (Nat.le_of_succ_le_succ hd) hj
          (Cursor.has_unseen.2 (.inr ⟨j, hjb, rfl⟩)) hjl with hl | hl
        · rcases Cursor.seen_or_mem_unseen hin (hR.steps hj hjl).1 hl with hl | hl
          · exact .inl hl
          · exact .inr (mem_spread_succ hkm (mem_spread_self hl))
        · exact .inr (mem_spread_succ hkm hl)

theorem Follows.mem_spreadBetween (hb : Follows t R body) (hR : Forward t R) {min : ℕ}
    {max : Option ℕ} {ks : List Cursor} (hks : ∀ k ∈ ks, k.In t) {l : Cursor} :
    l ∈ spreadBetween body t.length min max ks ↔
      ∃ k ∈ ks, ∃ n, min ≤ n ∧ (∀ m, max = some m → n ≤ min ⊔ m) ∧ Steps R n k l := by
  have hrep : ∀ j, j ∈ min.repeat body ks ↔ ∃ k ∈ ks, Steps R min k j := fun j =>
    hb.mem_repeat hR hks
  have hin : ∀ j ∈ min.repeat body ks, j.In t := fun j hj => by
    obtain ⟨k, hk, hs⟩ := (hrep j).1 hj
    exact (hR.steps (hks k hk) hs).1
  have hstart : ∀ j, j ∈ (Cursor.unseen 0 (min.repeat body ks)).1 ↔ j ∈ min.repeat body ks :=
    fun j => by simp [Cursor.mem_unseen hin]
  have hin' : ∀ j ∈ (Cursor.unseen 0 (min.repeat body ks)).1, j.In t := fun j hj =>
    hin j ((hstart j).1 hj)
  have hseen : ∀ j, j.In t → (Cursor.unseen 0 (min.repeat body ks)).2.has j.pos = true →
      j ∈ (Cursor.unseen 0 (min.repeat body ks)).1 := fun j hj h =>
    (Cursor.seen_or_mem_unseen hin hj h).resolve_left (by simp)
  unfold spreadBetween
  constructor
  · intro h
    obtain ⟨j, hj, d, hd, hs⟩ := hb.steps_of_mem_spread hR hin' h
    obtain ⟨k, hk, hkj⟩ := (hrep j).1 ((hstart j).1 hj)
    refine ⟨k, hk, min + d, by omega, fun m hm => ?_, steps_add.2 ⟨j, hkj, hs⟩⟩
    subst hm
    simp only [Option.getD_some] at hd
    omega
  · rintro ⟨k, hk, n, hmin, hmax, hs⟩
    obtain ⟨e, rfl⟩ := Nat.exists_eq_add_of_le hmin
    obtain ⟨j, hkj, hjl⟩ := steps_add.1 hs
    have hj : j ∈ min.repeat body ks := (hrep j).2 ⟨k, hk, hkj⟩
    have hl := (hR.steps (hin j hj) hjl).1
    obtain ⟨d, hde, hdpos, hd⟩ := hR.exists_steps_le (hin j hj) hjl
    have hbound : d ≤ max.getD (min + t.length + 1) - min := by
      have := hl.pos_le
      cases max with
      | none =>
        simp only [Option.getD_none]
        omega
      | some m =>
        have := hmax m rfl
        simp only [Option.getD_some]
        omega
    rcases hb.seen_or_mem_spread hR hin' (fun i m hi his hn _ => absurd (hseen i hi his) hn)
      hbound (hin j hj) (Cursor.has_unseen.2 (.inr ⟨j, hj, rfl⟩)) hd with h | h
    · exact mem_spread_self (hseen l hl h)
    · exact h

end

namespace Expr

def Leads (e : Expr) (t : Text) (k l : Cursor) : Prop :=
  ∃ pre mid post, t = pre ++ (mid ++ post) ∧ k = .between pre (mid ++ post) ∧
    l = .between (pre ++ mid) post ∧ e.Matches pre mid post

theorem leads_between {e : Expr} {pre post : Text} {l : Cursor} :
    e.Leads (pre ++ post) (.between pre post) l ↔
      ∃ mid rest, post = mid ++ rest ∧ l = .between (pre ++ mid) rest ∧ e.Matches pre mid rest := by
  constructor
  · rintro ⟨p, mid, rest, ht, hk, rfl, h⟩
    obtain ⟨rfl, rfl⟩ := List.append_inj ht (congrArg Cursor.pos hk)
    exact ⟨mid, rest, rfl, rfl, h⟩
  · rintro ⟨mid, rest, rfl, rfl, h⟩
    exact ⟨pre, mid, rest, rfl, rfl, rfl, h⟩

theorem leads_forward (e : Expr) (t : Text) : Forward t (e.Leads t) := by
  rintro k l - ⟨pre, mid, post, rfl, rfl, rfl, -⟩
  exact ⟨⟨pre ++ mid, post, by simp, rfl⟩, by simp [Cursor.between]⟩

theorem steps_leads {e : Expr} {n : ℕ} {pre post : Text} {l : Cursor} :
    Steps (e.Leads (pre ++ post)) n (.between pre post) l ↔
      ∃ mid rest, post = mid ++ rest ∧ l = .between (pre ++ mid) rest ∧
        Rounds e.Matches n pre mid rest := by
  induction n generalizing pre post with
  | zero =>
    constructor
    · rintro rfl
      exact ⟨[], post, rfl, by simp, rfl⟩
    · rintro ⟨mid, rest, rfl, rfl, rfl⟩
      simp [Steps]
  | succ n ih =>
    constructor
    · rintro ⟨j, hj, hl⟩
      obtain ⟨m, rest, rfl, rfl, hm⟩ := leads_between.1 hj
      rw [← List.append_assoc] at hl
      obtain ⟨m', rest', rfl, rfl, hm'⟩ := ih.1 hl
      exact ⟨m ++ m', rest', by simp, by simp, m, m', rfl, hm, hm'⟩
    · rintro ⟨mid, rest, rfl, rfl, m, m', rfl, hm, hm'⟩
      refine ⟨.between (pre ++ m) (m' ++ rest), ?_, ?_⟩
      · exact leads_between.2 ⟨m, m' ++ rest, by simp, rfl, hm⟩
      · have h := (@ih (pre ++ m) (m' ++ rest)).2 ⟨m', rest, rfl, by simp, hm'⟩
        rwa [show pre ++ m ++ (m' ++ rest) = pre ++ (m ++ m' ++ rest) by simp] at h

theorem leads_seq {a b : Expr} {t : Text} {k l : Cursor} :
    (seq a b).Leads t k l ↔ ∃ j, a.Leads t k j ∧ b.Leads t j l := by
  constructor
  · rintro ⟨pre, mid, post, rfl, rfl, rfl, m, m', rfl, hm, hm'⟩
    exact ⟨.between (pre ++ m) (m' ++ post), ⟨pre, m, m' ++ post, by simp, by simp, rfl, hm⟩,
      pre ++ m, m', post, by simp, rfl, by simp, hm'⟩
  · rintro ⟨j, ⟨pre, m, post, rfl, rfl, rfl, hm⟩, hjl⟩
    rw [← List.append_assoc] at hjl
    obtain ⟨m', rest, rfl, rfl, hm'⟩ := leads_between.1 hjl
    exact ⟨pre, m ++ m', rest, by simp, by simp, by simp, m, m', rfl, hm, hm'⟩

theorem leads_alt {a b : Expr} {t : Text} {k l : Cursor} :
    (alt a b).Leads t k l ↔ a.Leads t k l ∨ b.Leads t k l := by
  constructor
  · rintro ⟨pre, mid, post, ht, hk, hl, h | h⟩
    · exact .inl ⟨pre, mid, post, ht, hk, hl, h⟩
    · exact .inr ⟨pre, mid, post, ht, hk, hl, h⟩
  · rintro (⟨pre, mid, post, ht, hk, hl, h⟩ | ⟨pre, mid, post, ht, hk, hl, h⟩)
    · exact ⟨pre, mid, post, ht, hk, hl, .inl h⟩
    · exact ⟨pre, mid, post, ht, hk, hl, .inr h⟩

/-- A repetition leads from a cursor of the text wherever a permitted number of steps does. -/
theorem leads_rep {a : Expr} {min : ℕ} {max : Option ℕ} {greedy : Bool} {t : Text} {k l : Cursor}
    (hk : k.In t) : (rep a min max greedy).Leads t k l ↔
      ∃ n, min ≤ n ∧ (∀ m, max = some m → n ≤ min ⊔ m) ∧ Steps (a.Leads t) n k l := by
  obtain ⟨p, q, rfl, rfl⟩ := hk
  simp only [leads_between, steps_leads]
  constructor
  · rintro ⟨mid, rest, rfl, rfl, n, hmin, hmax, h⟩
    exact ⟨n, hmin, hmax, mid, rest, rfl, rfl, h⟩
  · rintro ⟨n, hmin, hmax, mid, rest, rfl, rfl, h⟩
    exact ⟨mid, rest, rfl, rfl, n, hmin, hmax, h⟩

theorem follows_empty (t : Text) : Follows t (empty.Leads t) id := by
  intro ks hks l
  constructor
  · intro hl
    obtain ⟨p, q, rfl, rfl⟩ := hks l hl
    exact ⟨_, hl, leads_between.2 ⟨[], q, rfl, by simp, rfl⟩⟩
  · rintro ⟨k, hk, pre, mid, post, rfl, rfl, rfl, rfl⟩
    simpa using hk

theorem follows_step (cls : CharClass) (t : Text) :
    Follows t ((one cls).Leads t) (Cursor.step cls) := by
  intro ks hks l
  simp only [Cursor.step, List.mem_filterMap]
  refine exists_congr fun k => and_congr_right fun hk => ?_
  obtain ⟨p, q, rfl, rfl⟩ := hks k hk
  rw [leads_between]
  cases q with
  | nil =>
    simp only [Cursor.between, reduceCtorEq, false_iff]
    rintro ⟨mid, rest, h, -, c, rfl, -⟩
    simp at h
  | cons c r =>
    change (if cls.contains c then some ((Cursor.between p (c :: r)).next c r) else none) = some l ↔ _
    rw [Cursor.next_between]
    constructor
    · intro h
      split at h
      · next hc =>
        cases h
        exact ⟨[c], r, rfl, rfl, c, rfl, hc⟩
      · simp at h
    · rintro ⟨mid, rest, h, rfl, d, rfl, hd⟩
      obtain ⟨rfl, rfl⟩ := List.cons.inj h
      simp [hd]

theorem follows_look (a : Look) (t : Text) :
    Follows t ((look a).Leads t) fun ks => ks.filter (·.satisfies a) := by
  intro ks hks l
  simp only [List.mem_filter]
  constructor
  · rintro ⟨hl, hs⟩
    obtain ⟨p, q, rfl, rfl⟩ := hks l hl
    exact ⟨_, hl, leads_between.2 ⟨[], q, rfl, by simp, rfl, hs⟩⟩
  · rintro ⟨k, hk, pre, mid, post, rfl, rfl, rfl, rfl, hs⟩
    simp only [List.append_nil]
    exact ⟨hk, hs⟩

theorem follows_seq {a b : Expr} {t : Text} {f g : List Cursor → List Cursor}
    (ha : Follows t (a.Leads t) f) (hb : Follows t (b.Leads t) g) :
    Follows t ((seq a b).Leads t) fun ks => g (f ks) := by
  intro ks hks l
  simp only [hb _ (ha.forall_in (a.leads_forward t) hks), ha ks hks, leads_seq]
  constructor
  · rintro ⟨j, ⟨k, hk, hkj⟩, hjl⟩
    exact ⟨k, hk, j, hkj, hjl⟩
  · rintro ⟨k, hk, j, hkj, hjl⟩
    exact ⟨j, ⟨k, hk, hkj⟩, hjl⟩

theorem follows_alt {a b : Expr} {t : Text} {f g : List Cursor → List Cursor}
    (ha : Follows t (a.Leads t) f) (hb : Follows t (b.Leads t) g) :
    Follows t ((alt a b).Leads t) fun ks => (Cursor.unseen 0 (f ks ++ g ks)).1 := by
  intro ks hks l
  have hin : ∀ k ∈ f ks ++ g ks, k.In t :=
    List.forall_mem_append.2 ⟨ha.forall_in (a.leads_forward t) hks,
      hb.forall_in (b.leads_forward t) hks⟩
  simp only [Cursor.mem_unseen hin, Positions.has_zero, and_true, List.mem_append,
    ha ks hks, hb ks hks, leads_alt, and_or_left, exists_or]

theorem follows_rep {a : Expr} {min : ℕ} {max : Option ℕ} {greedy : Bool} {t : Text}
    {f : List Cursor → List Cursor} (ha : Follows t (a.Leads t) f) :
    Follows t ((rep a min max greedy).Leads t) (spreadBetween f t.length min max) := by
  intro ks hks l
  rw [ha.mem_spreadBetween (a.leads_forward t) hks]
  exact exists_congr fun k => and_congr_right fun hk => (leads_rep (hks k hk)).symm

theorem follows_reach (e : Expr) (t : Text) : Follows t (e.Leads t) (e.reach t.length) := by
  induction e with
  | empty => exact follows_empty t
  | one cls => exact follows_step cls t
  | look a => exact follows_look a t
  | seq a b iha ihb =>
    have hseq := follows_seq iha ihb
    exact hseq
  | alt a b iha ihb => exact follows_alt iha ihb
  | group i a ih => exact ih
  | rep a min max greedy ih => exact follows_rep ih

/-- The search tells whether the expression matches some part of the text. -/
theorem isMatch_iff {e : Expr} {t : Text} :
    e.isMatch t = true ↔ ∃ pre mid post, t = pre ++ (mid ++ post) ∧ e.Matches pre mid post := by
  have hin : ∀ k ∈ Cursor.suffixes 0 none t, k.In t := fun k => Cursor.mem_suffixes.1
  simp only [isMatch, Bool.not_eq_true', List.isEmpty_eq_false_iff_exists_mem,
    e.follows_reach t _ hin, Cursor.mem_suffixes]
  constructor
  · rintro ⟨l, k, -, pre, mid, post, ht, -, -, h⟩
    exact ⟨pre, mid, post, ht, h⟩
  · rintro ⟨pre, mid, post, ht, h⟩
    exact ⟨_, _, ⟨pre, mid ++ post, ht, rfl⟩, pre, mid, post, ht, rfl, rfl, h⟩

end Expr

/-- A pattern is found where its expression matches some part of the value. -/
theorem found_iff_of_parse? {ignoreCase : Bool} {pattern value : Text} {e : Expr}
    (h : parse? ignoreCase pattern = some e) : found ignoreCase pattern value = true ↔
      ∃ pre mid post, value = pre ++ (mid ++ post) ∧ e.Matches pre mid post := by
  simp [found, h, Expr.isMatch_iff]

end PageCache.Pattern
