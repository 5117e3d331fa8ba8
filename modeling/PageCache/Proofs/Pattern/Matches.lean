import Mathlib
import PageCache.Pattern.Matcher

/-! What a regular expression matches, without an order of preference: the texts between what
stands before them and what stands after them. The rest of the theory of patterns is stated in
these terms. -/
namespace PageCache.Pattern

/-- A text made of the given number of neighbouring texts that a relation admits in their places. -/
def Rounds (R : Text → Text → Text → Prop) : ℕ → Text → Text → Text → Prop
  | 0, _, mid, _ => mid = []
  | n + 1, pre, mid, post =>
    ∃ m rest, mid = m ++ rest ∧ R pre m (rest ++ post) ∧ Rounds R n (pre ++ m) rest post

namespace Expr

/-- The expression matches a text between two others. A repetition makes its least number of
rounds even where its greatest is smaller. -/
def Matches : Expr → Text → Text → Text → Prop
  | empty, _, mid, _ => mid = []
  | one cls, _, mid, _ => ∃ c, mid = [c] ∧ cls.contains c = true
  | look l, pre, mid, post => mid = [] ∧ l.holds pre.getLast? post.head? = true
  | seq a b, pre, mid, post =>
    ∃ m n, mid = m ++ n ∧ a.Matches pre m (n ++ post) ∧ b.Matches (pre ++ m) n post
  | alt a b, pre, mid, post => a.Matches pre mid post ∨ b.Matches pre mid post
  | group _ a, pre, mid, post => a.Matches pre mid post
  | rep a min max _, pre, mid, post =>
    ∃ n, min ≤ n ∧ (∀ m, max = some m → n ≤ min ⊔ m) ∧ Rounds a.Matches n pre mid post

def chars (t : Text) (tail : Expr) : Expr := t.foldr (fun c e => seq (ofChar c) e) tail

theorem matches_one {cls : CharClass} {pre mid post : Text} :
    (one cls).Matches pre mid post ↔ ∃ c, mid = [c] ∧ cls.contains c = true := Iff.rfl

theorem matches_ofChar {c : Char} {pre mid post : Text} :
    (ofChar c).Matches pre mid post ↔ mid = [c] := by
  simp [ofChar, Matches, CharClass.contains]

theorem matches_textStart {pre mid post : Text} :
    (look .textStart).Matches pre mid post ↔ mid = [] ∧ pre = [] := by
  simp [Matches, Look.holds]

theorem matches_textEnd {pre mid post : Text} :
    (look .textEnd).Matches pre mid post ↔ mid = [] ∧ post = [] := by
  simp [Matches, Look.holds]

theorem matches_seq {a b : Expr} {pre mid post : Text} :
    (seq a b).Matches pre mid post ↔
      ∃ m n, mid = m ++ n ∧ a.Matches pre m (n ++ post) ∧ b.Matches (pre ++ m) n post := Iff.rfl

theorem matches_group {i : ℕ} {a : Expr} {pre mid post : Text} :
    (group i a).Matches pre mid post ↔ a.Matches pre mid post := Iff.rfl

theorem matches_chars {t pre mid post : Text} {tail : Expr} :
    (chars t tail).Matches pre mid post ↔
      ∃ n, mid = t ++ n ∧ tail.Matches (pre ++ t) n post := by
  induction t generalizing pre mid with
  | nil => simp [chars]
  | cons c t ih =>
    change (seq (ofChar c) (chars t tail)).Matches pre mid post ↔ _
    simp only [matches_seq, matches_ofChar, ih]
    constructor
    · rintro ⟨m, n, rfl, rfl, n', rfl, h⟩
      exact ⟨n', by simp, by simpa using h⟩
    · rintro ⟨n, rfl, h⟩
      exact ⟨[c], t ++ n, by simp, rfl, n, rfl, by simpa using h⟩

theorem matches_optional {a : Expr} {greedy : Bool} {pre mid post : Text} :
    (rep a 0 (some 1) greedy).Matches pre mid post ↔ mid = [] ∨ a.Matches pre mid post := by
  constructor
  · rintro ⟨n, -, hn, h⟩
    obtain rfl | rfl : n = 0 ∨ n = 1 := by
      have := hn 1 rfl
      simp at this
      omega
    · exact .inl h
    · obtain ⟨m, rest, rfl, hm, rfl⟩ := h
      exact .inr (by simpa using hm)
  · rintro (rfl | h)
    · exact ⟨0, le_rfl, fun m hm => by cases hm; simp, rfl⟩
    · exact ⟨1, by omega, fun m hm => by cases hm; simp, mid, [], by simp, by simpa using h, rfl⟩

theorem matches_many {cls : CharClass} {greedy : Bool} {pre mid post : Text} :
    (rep (one cls) 0 none greedy).Matches pre mid post ↔
      ∀ c ∈ mid, cls.contains c = true := by
  constructor
  · rintro ⟨n, -, -, h⟩
    induction n generalizing pre mid with
    | zero =>
      obtain rfl : mid = [] := h
      simp
    | succ n ih =>
      obtain ⟨m, rest, rfl, ⟨c, rfl, hc⟩, hrest⟩ := h
      simpa [hc] using ih hrest
  · intro h
    refine ⟨mid.length, by omega, by simp, ?_⟩
    induction mid generalizing pre with
    | nil => rfl
    | cons c mid ih =>
      exact ⟨[c], mid, rfl, ⟨c, rfl, h c (by simp)⟩, ih fun d hd => h d (by simp [hd])⟩

theorem matches_some {cls : CharClass} {greedy : Bool} {pre mid post : Text} :
    (rep (one cls) 1 none greedy).Matches pre mid post ↔
      mid ≠ [] ∧ ∀ c ∈ mid, cls.contains c = true := by
  constructor
  · rintro ⟨n, hn, -, h⟩
    obtain ⟨n, rfl⟩ := Nat.exists_eq_add_of_le' hn
    obtain ⟨m, rest, rfl, ⟨c, rfl, hc⟩, hrest⟩ := h
    have hmany : (rep (one cls) 0 none greedy).Matches (pre ++ [c]) rest post :=
      ⟨n, Nat.zero_le n, by simp, hrest⟩
    exact ⟨by simp, by simpa [hc] using matches_many.1 hmany⟩
  · rintro ⟨hne, h⟩
    obtain ⟨c, rest, rfl⟩ := List.exists_cons_of_ne_nil hne
    obtain ⟨hc, hrest⟩ := List.forall_mem_cons.1 h
    have hmany : (rep (one cls) 0 none greedy).Matches (pre ++ [c]) rest post :=
      matches_many.2 hrest
    obtain ⟨n, -, -, hn⟩ := hmany
    exact ⟨n + 1, by omega, by simp, [c], rest, rfl, ⟨c, rfl, hc⟩, hn⟩

/-- Of what stands before a match, only the last character counts. -/
theorem Matches.of_getLast?_eq {e : Expr} {pre pre' mid post : Text}
    (hpre : pre.getLast? = pre'.getLast?) (h : e.Matches pre mid post) : e.Matches pre' mid post := by
  have happend : ∀ {a b m : Text}, a.getLast? = b.getLast? →
      (a ++ m).getLast? = (b ++ m).getLast? := fun h => by
    rw [List.getLast?_append, List.getLast?_append, h]
  induction e generalizing pre pre' mid post with
  | empty => exact h
  | one cls => exact h
  | look l => exact ⟨h.1, hpre ▸ h.2⟩
  | seq a b iha ihb =>
    obtain ⟨m, n, hmid, ha, hb⟩ := h
    exact ⟨m, n, hmid, iha hpre ha, ihb (happend hpre) hb⟩
  | alt a b iha ihb => exact h.imp (iha hpre) (ihb hpre)
  | group i a ih => exact ih hpre h
  | rep a min max greedy ih =>
    obtain ⟨n, hmin, hmax, h⟩ := h
    refine ⟨n, hmin, hmax, ?_⟩
    clear hmin hmax
    induction n generalizing pre pre' mid with
    | zero => exact h
    | succ n ihn =>
      obtain ⟨m, rest, hmid, ha, hrest⟩ := h
      exact ⟨m, rest, hmid, ih hpre ha, ihn (happend hpre) hrest⟩

/-- The classes of the characters that an expression reads. -/
def classes : Expr → List CharClass
  | one cls => [cls]
  | seq a b | alt a b => a.classes ++ b.classes
  | group _ a | rep a _ _ _ => a.classes
  | _ => []

/-- Every character of a match is of a class that the expression reads. -/
theorem Matches.exists_class {e : Expr} {pre mid post : Text} (h : e.Matches pre mid post)
    {c : Char} (hc : c ∈ mid) : ∃ cls ∈ e.classes, cls.contains c = true := by
  induction e generalizing pre mid post with
  | empty =>
    obtain rfl : mid = [] := h
    simp at hc
  | one cls =>
    obtain ⟨d, rfl, hd⟩ := h
    obtain rfl := List.mem_singleton.1 hc
    exact ⟨cls, by simp [classes], hd⟩
  | look l =>
    obtain ⟨rfl, -⟩ := h
    simp at hc
  | seq a b iha ihb =>
    obtain ⟨m, n, rfl, ha, hb⟩ := h
    rcases List.mem_append.1 hc with hc | hc
    · obtain ⟨cls, hcls, hcontains⟩ := iha ha hc
      exact ⟨cls, List.mem_append_left _ hcls, hcontains⟩
    · obtain ⟨cls, hcls, hcontains⟩ := ihb hb hc
      exact ⟨cls, List.mem_append_right _ hcls, hcontains⟩
  | alt a b iha ihb =>
    rcases h with h | h
    · obtain ⟨cls, hcls, hcontains⟩ := iha h hc
      exact ⟨cls, List.mem_append_left _ hcls, hcontains⟩
    · obtain ⟨cls, hcls, hcontains⟩ := ihb h hc
      exact ⟨cls, List.mem_append_right _ hcls, hcontains⟩
  | group i a ih => exact ih h hc
  | rep a min max greedy ih =>
    obtain ⟨n, -, -, h⟩ := h
    induction n generalizing pre mid with
    | zero =>
      obtain rfl : mid = [] := h
      simp at hc
    | succ n ihn =>
      obtain ⟨m, rest, rfl, hm, hrest⟩ := h
      rcases List.mem_append.1 hc with hc | hc
      · exact ih hm hc
      · exact ihn hc hrest

end Expr
end PageCache.Pattern
