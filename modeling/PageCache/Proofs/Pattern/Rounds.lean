import Mathlib
import PageCache.Pattern.Matcher

/-! Where the threads of a repetition come from. Each thread that a repetition leaves behind has gone
through a permitted number of rounds from one of the threads that it began with, whatever is left out
on the way because its position has been seen. -/
namespace PageCache.Pattern

namespace Thread

variable {f : Thread → List Thread} {seen : Positions} {ts : List Thread} {u : Thread}

theorem mem_of_mem_unseen (h : u ∈ (unseen seen ts).1) : u ∈ ts := by
  induction ts generalizing seen with
  | nil => simp [unseen] at h
  | cons v ts ih =>
    unfold unseen at h
    split at h
    · exact List.mem_cons_of_mem v (ih h)
    · rcases List.mem_cons.1 h with rfl | h
      · exact List.mem_cons_self
      · exact List.mem_cons_of_mem v (ih h)

theorem exists_of_mem_gatherFrom (h : u ∈ gatherFrom f seen ts) : ∃ v ∈ ts, u ∈ f v := by
  induction ts generalizing seen with
  | nil => simp [gatherFrom] at h
  | cons w ts ih =>
    rcases List.mem_append.1 h with h | h
    · exact ⟨w, List.mem_cons_self, mem_of_mem_unseen h⟩
    · obtain ⟨v, hv, huv⟩ := ih h
      exact ⟨v, List.mem_cons_of_mem w hv, huv⟩

end Thread

inductive After (body : Thread → List Thread) : ℕ → Thread → Thread → Prop
  | none (u : Thread) : After body 0 u u
  | round {n : ℕ} {u v w : Thread} (first : v ∈ body u) (rest : After body n v w) :
      After body (n + 1) u w

section
variable {body : Thread → List Thread} {greedy optional : Bool} {fuel : ℕ} {u : Thread}

theorem After.trans {m n : ℕ} {v w : Thread} (h : After body m u v) (h' : After body n v w) :
    After body (m + n) u w := by
  induction h with
  | none => simpa using h'
  | round first _ ih =>
    have := After.round first (ih h')
    rwa [Nat.add_right_comm] at this

/-- The threads that a visit may lead to. -/
def Visit.LeadsTo (body : Thread → List Thread) (optional : Bool) (u : Thread) : Visit → Prop
  | enter v => ∃ n, (optional = false → 0 < n) ∧ After body n v u
  | again v => ∃ n, After body n v u
  | leave v => v = u

theorem mem_prefer {a b : List Visit} {v : Visit} : v ∈ prefer greedy a b ↔ v ∈ a ∨ v ∈ b := by
  cases greedy <;> simp [prefer, or_comm]

/-- A visit to what a round leads to takes one round more from where the round began. -/
theorem exists_after_of_round {v : Visit} {w : Thread} (hv : v ∈ (body w).map Visit.again)
    (h : v.LeadsTo body optional u) : ∃ n, After body (n + 1) w u := by
  obtain ⟨x, hx, rfl⟩ := List.mem_map.1 hv
  obtain ⟨n, hn⟩ := h
  exact ⟨n, .round hx hn⟩

/-- What visits lead to that stand for another one is what that one leads to. -/
theorem exists_leadsTo_cons {v : Visit} {vs todo : List Visit}
    (hvs : ∀ w ∈ vs, w.LeadsTo body optional u → v.LeadsTo body optional u)
    (h : ∃ w ∈ vs ++ todo, w.LeadsTo body optional u) :
    ∃ w ∈ v :: todo, w.LeadsTo body optional u := by
  obtain ⟨w, hw, hwu⟩ := h
  rcases List.mem_append.1 hw with hw | hw
  · exact ⟨v, List.mem_cons_self, hvs w hw hwu⟩
  · exact ⟨w, List.mem_cons_of_mem v hw, hwu⟩

theorem leadsTo_enter_of_leave {v : Visit} {w : Thread}
    (hv : v ∈ if optional then [Visit.leave w] else []) (h : v.LeadsTo body optional u) :
    (Visit.enter w).LeadsTo body optional u := by
  cases optional with
  | false => simp at hv
  | true =>
    obtain rfl : v = .leave w := by simpa using hv
    obtain rfl : w = u := h
    exact ⟨0, by simp, .none w⟩

theorem exists_of_mem_explore {todo : List Visit} {begun ended : Positions}
    (hu : u ∈ explore body greedy optional fuel todo begun ended) :
    ∃ v ∈ todo, v.LeadsTo body optional u := by
  fun_induction explore body greedy optional fuel todo begun ended with
  | case1 => cases hu
  | case2 => cases hu
  | case3 fuel w todo begun ended ih =>
    rcases List.mem_cons.1 hu with rfl | hu
    · exact ⟨.leave u, List.mem_cons_self, rfl⟩
    · exact List.exists_mem_cons_of_exists (ih hu)
  | case4 fuel w todo begun ended leave _ =>
    rename_i ih
    exact exists_leadsTo_cons (fun v => leadsTo_enter_of_leave) (ih hu)
  | case5 fuel w todo begun ended leave _ =>
    rename_i ih
    refine exists_leadsTo_cons (fun v hv h => ?_) (ih hu)
    rcases mem_prefer.1 hv with hv | hv
    · obtain ⟨n, hn⟩ := exists_after_of_round hv h
      exact ⟨n + 1, fun _ => Nat.succ_pos n, hn⟩
    · exact leadsTo_enter_of_leave hv h
  | case6 fuel w todo begun ended _ ih => exact List.exists_mem_cons_of_exists (ih hu)
  | case7 fuel w todo begun ended _ _ ih =>
    rcases List.mem_cons.1 hu with rfl | hu
    · exact ⟨.again u, List.mem_cons_self, 0, .none u⟩
    · exact List.exists_mem_cons_of_exists (ih hu)
  | case8 fuel w todo begun ended _ _ ih =>
    refine exists_leadsTo_cons (fun v hv h => ?_) (ih hu)
    rcases mem_prefer.1 hv with hv | hv
    · obtain ⟨n, hn⟩ := exists_after_of_round hv h
      exact ⟨n + 1, hn⟩
    · obtain rfl : v = .leave w := List.mem_singleton.1 hv
      obtain rfl : w = u := h
      exact ⟨0, .none w⟩

theorem mem_visits {n : ℕ} {w : Thread} {us : List Thread} {x : Option ℕ × Thread} :
    (x ∈ if greedy then us.map (fun u => (some n, u)) ++ [(none, w)]
      else (none, w) :: us.map fun u => (some n, u)) ↔
      x = (none, w) ∨ ∃ u ∈ us, (some n, u) = x := by
  cases greedy <;> simp [or_comm]

/-- What is explored within a number of rounds is what some visit leads to. -/
theorem exists_of_mem_exploreUpTo {width : ℕ} {todo : List (Option ℕ × Thread)} {seen : Positions}
    (hu : u ∈ exploreUpTo body greedy width fuel todo seen) :
    ∃ v ∈ todo, ∃ d, d ≤ v.1.getD 0 ∧ After body d v.2 u := by
  fun_induction exploreUpTo body greedy width fuel todo seen with
  | case1 => cases hu
  | case2 => cases hu
  | case3 fuel w todo seen ih | case4 fuel w todo seen ih =>
    rcases List.mem_cons.1 hu with rfl | hu
    · exact ⟨_, List.mem_cons_self, 0, Nat.zero_le _, .none u⟩
    · exact List.exists_mem_cons_of_exists (ih hu)
  | case5 fuel n w todo seen key _ =>
    rename_i ih
    exact List.exists_mem_cons_of_exists (ih hu)
  | case6 fuel n w todo seen key _ rounds visits =>
    rename_i ih
    obtain ⟨x, hx, d, hd, h⟩ := ih hu
    rcases List.mem_append.1 hx with hx | hx
    · refine ⟨_, List.mem_cons_self, ?_⟩
      rcases mem_visits.1 hx with rfl | ⟨v, hv, rfl⟩
      · exact ⟨d, hd.trans (Nat.zero_le _), h⟩
      · exact ⟨d + 1, Nat.succ_le_succ hd, .round hv h⟩
    · exact ⟨x, List.mem_cons_of_mem _ hx, d, hd, h⟩

theorem exists_of_mem_rounds {n : ℕ} {ts : List Thread} (hu : u ∈ rounds body n ts) :
    ∃ v ∈ ts, After body n v u := by
  induction n generalizing ts with
  | zero => exact ⟨u, hu, .none u⟩
  | succ n ih =>
    obtain ⟨w, hw, h⟩ := ih hu
    obtain ⟨v, hv, hvw⟩ := Thread.exists_of_mem_gatherFrom hw
    exact ⟨v, hv, .round hvw h⟩

theorem exists_of_mem_repeated {min : ℕ} {max : Option ℕ} {ts : List Thread}
    (hu : u ∈ repeated body min max greedy ts) :
    ∃ v ∈ ts, ∃ n, min ≤ n ∧ (∀ m, max = some m → n ≤ min ⊔ m) ∧ After body n v u := by
  unfold repeated at hu
  cases max with
  | none =>
    obtain ⟨x, hx, hux⟩ := exists_of_mem_explore (Thread.mem_of_mem_unseen hu)
    obtain ⟨w, hw, rfl⟩ := List.mem_map.1 hx
    obtain ⟨n, hpos, hn⟩ := hux
    obtain ⟨v, hv, hvw⟩ := exists_of_mem_rounds hw
    refine ⟨v, hv, min - 1 + n, ?_, by simp, hvw.trans hn⟩
    cases min with
    | zero => omega
    | succ m =>
      have := hpos rfl
      omega
  | some most =>
    obtain ⟨x, hx, d, hd, hux⟩ := exists_of_mem_exploreUpTo (Thread.mem_of_mem_unseen hu)
    obtain ⟨w, hw, rfl⟩ := List.mem_map.1 hx
    obtain ⟨v, hv, hvw⟩ := exists_of_mem_rounds hw
    simp only [Option.getD_some] at hd
    refine ⟨v, hv, min + d, by omega, fun m hm => ?_, hvw.trans hux⟩
    cases hm
    omega

end
end PageCache.Pattern
