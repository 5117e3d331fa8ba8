import PageCache.Proofs.Pattern.Threads

/-! What groups capture. A match is read together with the groups that it captures on the way, the
most recent first. Main statement: the groups that a search returns are those of some match. -/
namespace PageCache.Pattern

/-- What relates a text between two others to the groups captured in it. -/
abbrev Capturing := Text → Text → Text → List (ℕ × Text) → Prop

/-- One part after the other; the groups of the second part are the more recent ones. -/
def Capturing.then (R S : Capturing) : Capturing := fun pre mid post gs =>
  ∃ m n gs₁ gs₂, mid = m ++ n ∧ gs = gs₂ ++ gs₁ ∧ R pre m (n ++ post) gs₁ ∧
    S (pre ++ m) n post gs₂

def Capturing.rounds (R : Capturing) : ℕ → Capturing
  | 0 => fun _ mid _ gs => mid = [] ∧ gs = []
  | n + 1 => R.then (R.rounds n)

namespace Expr

/-- The expression matches a text between two others and captures the groups on the way. -/
def Captures : Expr → Capturing
  | empty, _, mid, _, gs => mid = [] ∧ gs = []
  | one cls, _, mid, _, gs => (∃ c, mid = [c] ∧ cls.contains c = true) ∧ gs = []
  | look l, pre, mid, post, gs => (mid = [] ∧ l.holds pre.getLast? post.head? = true) ∧ gs = []
  | seq a b, pre, mid, post, gs => Capturing.then a.Captures b.Captures pre mid post gs
  | alt a b, pre, mid, post, gs => a.Captures pre mid post gs ∨ b.Captures pre mid post gs
  | group i a, pre, mid, post, gs => ∃ inner, gs = (i, mid) :: inner ∧ a.Captures pre mid post inner
  | rep a min max _, pre, mid, post, gs =>
    ∃ n, min ≤ n ∧ (∀ m, max = some m → n ≤ min ⊔ m) ∧
      Capturing.rounds a.Captures n pre mid post gs

theorem Captures.matches {e : Expr} {pre mid post : Text} {gs : List (ℕ × Text)}
    (h : e.Captures pre mid post gs) : e.Matches pre mid post := by
  induction e generalizing pre mid post gs with
  | empty => exact h.1
  | one cls => exact h.1
  | look l => exact h.1
  | seq a b iha ihb =>
    obtain ⟨m, n, gs₁, gs₂, rfl, rfl, ha, hb⟩ := h
    exact ⟨m, n, rfl, iha ha, ihb hb⟩
  | alt a b iha ihb => exact h.imp iha ihb
  | group i a ih =>
    obtain ⟨inner, -, ha⟩ := h
    exact ih ha
  | rep a min max greedy ih =>
    obtain ⟨n, hmin, hmax, h⟩ := h
    refine ⟨n, hmin, hmax, ?_⟩
    clear hmin hmax
    induction n generalizing pre mid gs with
    | zero => exact h.1
    | succ n ihn =>
      obtain ⟨m, rest, gs₁, gs₂, rfl, rfl, ha, hrest⟩ := h
      exact ⟨m, rest, rfl, ih ha, ihn hrest⟩

theorem Captures.isInfix {e : Expr} {pre mid post : Text} {gs : List (ℕ × Text)}
    (h : e.Captures pre mid post gs) {i : ℕ} {m : Text} (hm : (i, m) ∈ gs) : m <:+: mid := by
  induction e generalizing pre mid post gs with
  | empty =>
    obtain ⟨-, rfl⟩ := h
    cases hm
  | one cls =>
    obtain ⟨-, rfl⟩ := h
    cases hm
  | look l =>
    obtain ⟨-, rfl⟩ := h
    cases hm
  | seq a b iha ihb =>
    obtain ⟨mid₁, mid₂, gs₁, gs₂, rfl, rfl, ha, hb⟩ := h
    rcases List.mem_append.1 hm with hm | hm
    · exact (ihb hb hm).trans (List.suffix_append mid₁ mid₂).isInfix
    · exact (iha ha hm).trans (List.prefix_append mid₁ mid₂).isInfix
  | alt a b iha ihb => exact h.elim (fun h => iha h hm) fun h => ihb h hm
  | group j a ih =>
    obtain ⟨inner, rfl, ha⟩ := h
    rcases List.mem_cons.1 hm with heq | hm
    · obtain ⟨rfl, rfl⟩ := Prod.mk.inj heq
      exact List.infix_rfl
    · exact ih ha hm
  | rep a min max greedy ih =>
    obtain ⟨n, -, -, h⟩ := h
    induction n generalizing pre mid gs with
    | zero =>
      obtain ⟨-, rfl⟩ := h
      cases hm
    | succ n ihn =>
      obtain ⟨mid₁, mid₂, gs₁, gs₂, rfl, rfl, ha, hrest⟩ := h
      rcases List.mem_append.1 hm with hm | hm
      · exact (ihn hm hrest).trans (List.suffix_append mid₁ mid₂).isInfix
      · exact (ih ha hm).trans (List.prefix_append mid₁ mid₂).isInfix

def bodies (i : ℕ) : Expr → List Expr
  | group j a => (if j = i then [a] else []) ++ a.bodies i
  | seq a b | alt a b => a.bodies i ++ b.bodies i
  | rep a _ _ _ => a.bodies i
  | _ => []

theorem Captures.exists_body {e : Expr} {pre mid post : Text} {gs : List (ℕ × Text)}
    (h : e.Captures pre mid post gs) {i : ℕ} {m : Text} (hm : (i, m) ∈ gs) :
    ∃ body ∈ e.bodies i, ∃ before after, body.Matches before m after := by
  induction e generalizing pre mid post gs with
  | empty =>
    obtain ⟨-, rfl⟩ := h
    cases hm
  | one cls =>
    obtain ⟨-, rfl⟩ := h
    cases hm
  | look l =>
    obtain ⟨-, rfl⟩ := h
    cases hm
  | seq a b iha ihb =>
    obtain ⟨mid₁, mid₂, gs₁, gs₂, -, rfl, ha, hb⟩ := h
    rcases List.mem_append.1 hm with hm | hm
    · obtain ⟨body, hbody, hmatch⟩ := ihb hb hm
      exact ⟨body, List.mem_append_right _ hbody, hmatch⟩
    · obtain ⟨body, hbody, hmatch⟩ := iha ha hm
      exact ⟨body, List.mem_append_left _ hbody, hmatch⟩
  | alt a b iha ihb =>
    rcases h with h | h
    · obtain ⟨body, hbody, hmatch⟩ := iha h hm
      exact ⟨body, List.mem_append_left _ hbody, hmatch⟩
    · obtain ⟨body, hbody, hmatch⟩ := ihb h hm
      exact ⟨body, List.mem_append_right _ hbody, hmatch⟩
  | group j a ih =>
    obtain ⟨inner, rfl, ha⟩ := h
    rcases List.mem_cons.1 hm with heq | hm
    · obtain ⟨rfl, rfl⟩ := Prod.mk.inj heq
      exact ⟨a, by simp [bodies], pre, post, ha.matches⟩
    · obtain ⟨body, hbody, hmatch⟩ := ih ha hm
      exact ⟨body, List.mem_append_right _ hbody, hmatch⟩
  | rep a min max greedy ih =>
    obtain ⟨n, -, -, h⟩ := h
    induction n generalizing pre mid gs with
    | zero =>
      obtain ⟨-, rfl⟩ := h
      cases hm
    | succ n ihn =>
      obtain ⟨mid₁, mid₂, gs₁, gs₂, -, rfl, ha, hrest⟩ := h
      rcases List.mem_append.1 hm with hm | hm
      · exact ihn hm hrest
      · exact ih ha hm

end Expr

/-- The text and the groups between two threads are related. -/
def Passes (t : Text) (R : Capturing) (u v : Thread) : Prop :=
  ∃ pre mid post gs, t = pre ++ (mid ++ post) ∧ u.cursor = .between pre (mid ++ post) ∧
    v.cursor = .between (pre ++ mid) post ∧ v.groups = gs ++ u.groups ∧
    R pre mid post (gs.map fun g => (g.1, g.2.text))

section
variable {t : Text} {R S : Capturing} {u v w : Thread}

theorem Passes.in_right (h : Passes t R u v) : v.cursor.In t := by
  obtain ⟨pre, mid, post, gs, rfl, -, hv, -, -⟩ := h
  exact ⟨pre ++ mid, post, by simp, hv⟩

theorem Passes.mono (h : Passes t R u v) (hRS : ∀ pre mid post gs, R pre mid post gs → S pre mid post gs) :
    Passes t S u v := by
  obtain ⟨pre, mid, post, gs, ht, hu, hv, hgs, hr⟩ := h
  exact ⟨pre, mid, post, gs, ht, hu, hv, hgs, hRS _ _ _ _ hr⟩

theorem Passes.then (h : Passes t R u v) (h' : Passes t S v w) : Passes t (R.then S) u w := by
  obtain ⟨pre, m, rest, gs₁, rfl, hu, hv, hgs, hr⟩ := h
  obtain ⟨pre', n, post, gs₂, ht, hv', hw, hgs', hs⟩ := h'
  have hpos : pre.length + m.length = pre'.length := by
    simpa [Cursor.between] using congrArg Cursor.pos (hv.symm.trans hv')
  obtain ⟨rfl, rfl⟩ : pre ++ m = pre' ∧ rest = n ++ post := by
    rw [← List.append_assoc] at ht
    exact List.append_inj ht (by simpa using hpos)
  refine ⟨pre, m ++ n, post, gs₂ ++ gs₁, by simp, by simpa using hu, by simpa using hw,
    by simp [hgs, hgs'], m, n, gs₁.map fun g => (g.1, g.2.text), gs₂.map fun g => (g.1, g.2.text),
    rfl, by simp, ?_, hs⟩
  exact hr

theorem passes_self (hu : u.cursor.In t) (h : ∀ pre post, t = pre ++ post →
    u.cursor = .between pre post → R pre [] post []) : Passes t R u u := by
  obtain ⟨pre, post, ht, hk⟩ := hu
  exact ⟨pre, [], post, [], ht, hk, by simpa using hk, rfl, h pre post ht hk⟩

theorem passes_rounds {body : Thread → List Thread}
    (hbody : ∀ u, u.cursor.In t → ∀ v ∈ body u, Passes t R u v) (hu : u.cursor.In t) {n : ℕ}
    (h : After body n u v) : Passes t (R.rounds n) u v := by
  induction h with
  | none => exact passes_self hu fun _ _ _ _ => ⟨rfl, rfl⟩
  | round first _ ih =>
    have h := hbody _ hu _ first
    exact h.then (ih h.in_right)

theorem passes_step {cls : CharClass} {ts : List Thread} (hts : ∀ u ∈ ts, u.cursor.In t)
    (h : v ∈ Thread.step cls ts) : ∃ u ∈ ts, Passes t (Expr.one cls).Captures u v := by
  obtain ⟨u, hu, hv⟩ := List.mem_filterMap.1 h
  obtain ⟨pre, post, ht, hk⟩ := hts u hu
  refine ⟨u, hu, ?_⟩
  rw [hk] at hv
  cases post with
  | nil => simp [Cursor.between] at hv
  | cons c post =>
    obtain ⟨hc, hv⟩ := Option.ite_none_right_eq_some.1 hv
    obtain rfl := Option.some.inj hv
    exact ⟨pre, [c], post, [], ht, hk, Cursor.next_between pre c post, rfl, ⟨c, rfl, hc⟩, rfl⟩

/-- A thread that captures a group takes with it the text since the group began. -/
theorem passes_capture {a : Expr} {i : ℕ} (h : Passes t a.Captures u v) :
    Passes t (Expr.group i a).Captures u (u.capture i v) := by
  obtain ⟨pre, mid, post, gs, ht, hu, hv, hgs, ha⟩ := h
  refine ⟨pre, mid, post, (i, ⟨u.cursor, v.pos⟩) :: gs, ht, hu, hv, by simp [Thread.capture, hgs],
    gs.map fun g => (g.1, g.2.text), ?_, ha⟩
  have htext : Span.text ⟨u.cursor, v.pos⟩ = mid := by
    simp [Span.text, Thread.pos, hu, hv, Cursor.between]
  rw [List.map_cons, htext]

end

namespace Expr

/-- A thread that an expression leaves behind has captured the groups of a match since it came
in. -/
theorem exists_passes_of_mem_run {e : Expr} {t : Text} {ts : List Thread} {v : Thread}
    (hts : ∀ u ∈ ts, u.cursor.In t) (h : v ∈ e.run ts) : ∃ u ∈ ts, Passes t e.Captures u v := by
  induction e generalizing ts v with
  | empty => exact ⟨v, h, passes_self (hts v h) fun _ _ _ _ => ⟨rfl, rfl⟩⟩
  | one cls => exact passes_step hts h
  | look l =>
    obtain ⟨hv, hl⟩ := List.mem_filter.1 h
    refine ⟨v, hv, passes_self (hts v hv) fun pre post _ hk => ⟨⟨rfl, ?_⟩, rfl⟩⟩
    rwa [hk] at hl
  | seq a b iha ihb =>
    have hin : ∀ w ∈ a.run ts, w.cursor.In t := by
      intro w hw
      obtain ⟨u, -, huw⟩ := iha hts hw
      exact huw.in_right
    obtain ⟨w, hw, hwv⟩ := ihb hin h
    obtain ⟨u, hu, huw⟩ := iha hts hw
    exact ⟨u, hu, huw.then hwv⟩
  | alt a b iha ihb =>
    obtain ⟨u, hu, hv⟩ := Thread.exists_of_mem_gatherFrom h
    have hin : ∀ w ∈ [u], w.cursor.In t := by simpa using hts u hu
    refine ⟨u, hu, ?_⟩
    rcases List.mem_append.1 hv with hv | hv
    · obtain ⟨w, hw, hwv⟩ := iha hin hv
      obtain rfl := List.mem_singleton.1 hw
      exact hwv.mono fun _ _ _ _ h => .inl h
    · obtain ⟨w, hw, hwv⟩ := ihb hin hv
      obtain rfl := List.mem_singleton.1 hw
      exact hwv.mono fun _ _ _ _ h => .inr h
  | group i a ih =>
    obtain ⟨u, hu, hv⟩ := Thread.exists_of_mem_gatherFrom h
    obtain ⟨x, hx, rfl⟩ := List.mem_map.1 hv
    obtain ⟨w, hw, hwx⟩ := ih (by simpa using hts u hu) hx
    obtain rfl := List.mem_singleton.1 hw
    exact ⟨w, hu, passes_capture hwx⟩
  | rep a min max greedy ih =>
    have hbody : ∀ u, u.cursor.In t → ∀ v ∈ a.run [u], Passes t a.Captures u v := by
      intro u hu v hv
      obtain ⟨w, hw, hwv⟩ := ih (by simpa using hu) hv
      obtain rfl := List.mem_singleton.1 hw
      exact hwv
    obtain ⟨u, hu, n, hmin, hmax, hn⟩ := exists_of_mem_repeated h
    have hpasses := passes_rounds hbody (hts u hu) hn
    exact ⟨u, hu, hpasses.mono fun _ _ _ _ h => ⟨n, hmin, hmax, h⟩⟩

theorem exists_captures_of_find? {e : Expr} {t : Text} {gs : List (ℕ × Text)}
    (h : e.find? t = some gs) : ∃ pre mid post, t = pre ++ (mid ++ post) ∧
      e.Captures pre mid post gs := by
  obtain ⟨v, hv, rfl⟩ := Option.map_eq_some_iff.1 h
  have hin : ∀ u ∈ (Cursor.suffixes 0 none t).map fun k => (⟨k, []⟩ : Thread), u.cursor.In t := by
    intro u hu
    obtain ⟨k, hk, rfl⟩ := List.mem_map.1 hu
    exact Cursor.mem_suffixes.1 hk
  obtain ⟨u, hu, pre, mid, post, gs, ht, -, -, hgs, hcaptures⟩ :=
    exists_passes_of_mem_run hin (List.mem_of_head? hv)
  obtain ⟨k, -, rfl⟩ := List.mem_map.1 hu
  refine ⟨pre, mid, post, ht, ?_⟩
  rw [hgs, List.append_nil]
  exact hcaptures

end Expr

theorem exists_captures_of_captures? {ignoreCase : Bool} {pattern value : Text} {e : Expr}
    {gs : List (ℕ × Text)} (hparse : parse? ignoreCase pattern = some e)
    (h : captures? ignoreCase pattern value = some gs) :
    ∃ pre mid post, value = pre ++ (mid ++ post) ∧ e.Captures pre mid post gs := by
  rw [captures?, hparse] at h
  exact Expr.exists_captures_of_find? h

theorem isInfix_of_captures? {ignoreCase : Bool} {pattern value : Text} {gs : List (ℕ × Text)}
    (h : captures? ignoreCase pattern value = some gs) {i : ℕ} {m : Text}
    (hm : gs.lookup i = some m) : m <:+: value := by
  obtain ⟨e, he, -⟩ := Option.bind_eq_some_iff.1 (by rwa [captures?] at h)
  obtain ⟨pre, mid, post, rfl, hcaptures⟩ := exists_captures_of_captures? he h
  obtain ⟨gs₁, gs₂, rfl, -⟩ := List.lookup_eq_some_iff.1 hm
  have hmem : (i, m) ∈ gs₁ ++ (i, m) :: gs₂ := by simp
  exact (hcaptures.isInfix hmem).trans ⟨pre, post, by simp⟩

theorem exists_body_of_captures? {ignoreCase : Bool} {pattern value : Text} {gs : List (ℕ × Text)}
    (h : captures? ignoreCase pattern value = some gs) {i : ℕ} {m : Text}
    (hm : gs.lookup i = some m) :
    ∃ e, parse? ignoreCase pattern = some e ∧ ∃ body ∈ e.bodies i, ∃ before after,
      body.Matches before m after := by
  obtain ⟨e, he, -⟩ := Option.bind_eq_some_iff.1 (by rwa [captures?] at h)
  obtain ⟨pre, mid, post, -, hcaptures⟩ := exists_captures_of_captures? he h
  obtain ⟨gs₁, gs₂, rfl, -⟩ := List.lookup_eq_some_iff.1 hm
  exact ⟨e, he, hcaptures.exists_body (by simp)⟩

end PageCache.Pattern
