import Mathlib
import PageCache.Pattern.Parser

/-! What readers of a pattern look at. A reader takes its part off the beginning of a text; what it
makes of it depends on the rest only as far as the next bar or closing parenthesis. So a pattern
that is read to its end in one list of alternatives is read alike in another one. -/
namespace PageCache.Pattern.Parser

def EndsBranch (c : Char) : Prop := c = ')' ∨ c = '|'

instance : DecidablePred EndsBranch := fun c => inferInstanceAs (Decidable (c = ')' ∨ c = '|'))

theorem EndsBranch.ne {c d : Char} (h : EndsBranch c) (hd : ¬EndsBranch d) : c ≠ d := by
  rintro rfl
  exact hd h

/-- Two texts are the same up to characters that end a branch. -/
inductive Agree : Text → Text → Prop
  | stop {c c' : Char} (r r' : Text) (hc : EndsBranch c) (hc' : EndsBranch c') :
    Agree (c :: r) (c' :: r')
  | cons (c : Char) {r r' : Text} (h : Agree r r') : Agree (c :: r) (c :: r')

namespace Agree

variable {r r' : Text} {c : Char}

theorem symm (h : Agree r r') : Agree r' r := by
  induction h with
  | stop r r' hc hc' => exact .stop r' r hc' hc
  | cons c _ ih => exact .cons c ih

theorem append (a : Text) (h : Agree r r') : Agree (a ++ r) (a ++ r') := by
  induction a with
  | nil => exact h
  | cons c a ih => exact .cons c ih

theorem not_nil : ¬Agree [] r := by
  intro h
  cases h

/-- After a character that does not end a branch, the other text goes on alike. -/
theorem exists_cons (h : Agree (c :: r) r') (hc : ¬EndsBranch c) : ∃ t, r' = c :: t ∧ Agree r t := by
  cases h with
  | stop _ t hc' => exact absurd hc' hc
  | cons _ h => exact ⟨_, rfl, h⟩

/-- A text without characters that end a branch stands at the beginning of both texts. -/
theorem exists_append {a t : Text} (h : Agree r r') (ha : ∀ c ∈ a, ¬EndsBranch c) (hr : r = a ++ t) :
    ∃ t', r' = a ++ t' := by
  induction a generalizing r r' with
  | nil => exact ⟨r', rfl⟩
  | cons c a ih =>
    subst hr
    obtain ⟨u, rfl, hu⟩ := h.exists_cons (ha c (by simp))
    obtain ⟨t', rfl⟩ := ih hu (fun d hd => ha d (by simp [hd])) rfl
    exact ⟨t', rfl⟩

theorem exists_head (h : Agree (c :: r) r') : ∃ d t, r' = d :: t ∧ (d = c ∨ EndsBranch d) := by
  cases h with
  | stop _ t _ hc' => exact ⟨_, t, rfl, .inr hc'⟩
  | cons _ h => exact ⟨c, _, rfl, .inl rfl⟩

theorem head?_ne (h : Agree r r') (hc : ¬EndsBranch c) (hr : r.head? ≠ some c) :
    r'.head? ≠ some c := by
  cases h with
  | stop _ t _ hc' => simpa using hc'.ne hc
  | cons _ h => exact hr

/-- What holds of the first character and of those that end a branch holds of the first character of
the other text. -/
theorem exists_head_of {P : Char → Prop} (h : Agree (c :: r) r') (hc : P c)
    (hend : ∀ d, EndsBranch d → P d) : ∃ d t, r' = d :: t ∧ P d := by
  obtain ⟨d, t, rfl, rfl | hd⟩ := h.exists_head
  · exact ⟨d, t, rfl, hc⟩
  · exact ⟨d, t, rfl, hend d hd⟩

end Agree

/-- A reader takes a part off a text and leaves the rest, and it does so before any rest that
agrees, with as much fuel as the part is long. -/
def Reads {α : Type} (f : ℕ → Text → Option (α × Text)) (u : Text) (x : α) (r : Text) : Prop :=
  ∃ a, u = a ++ r ∧ ∀ r' n, Agree r r' → a.length < n → f n (a ++ r') = some (x, r')

/-- A character that blanks and comments end before. -/
def IsSolid (c : Char) : Prop := (c == '#') = false ∧ Text.isSpace c = false

instance : DecidablePred IsSolid := fun c =>
  inferInstanceAs (Decidable ((c == '#') = false ∧ Text.isSpace c = false))

theorem EndsBranch.isSolid {c : Char} (h : EndsBranch c) : IsSolid c := by
  rcases h with rfl | rfl <;> exact ⟨by decide, by decide⟩

theorem skip_nil (flags : Flags) : skip flags [] = [] := by simp [skip, skipBlanks]

theorem skipBlanks_of_isSolid {c : Char} (hc : IsSolid c) (cs : Text) :
    skipBlanks false (c :: cs) = c :: cs := by
  simp [skipBlanks, hc.1, hc.2]

theorem skip_of_isSolid {c : Char} (hc : IsSolid c) (flags : Flags) (cs : Text) :
    skip flags (c :: cs) = c :: cs := by
  rw [skip]
  split
  · exact skipBlanks_of_isSolid hc cs
  · rfl

theorem isSolid_of_skipBlanks {comment : Bool} {u rest : Text} {c : Char}
    (h : skipBlanks comment u = c :: rest) : IsSolid c := by
  induction u generalizing comment with
  | nil => cases h
  | cons d u ih =>
    rw [skipBlanks] at h
    split at h
    · exact ih h
    · split at h
      · exact ih h
      · split at h
        · exact ih h
        · next hhash hspace =>
          obtain ⟨rfl, -⟩ := List.cons.inj h
          exact ⟨Bool.eq_false_iff.2 hhash, Bool.eq_false_iff.2 hspace⟩

/-- What is left after blanks does not begin with a blank. -/
theorem skip_cons_of_skip {flags : Flags} {u rest : Text} {c : Char}
    (h : skip flags u = c :: rest) (t : Text) : skip flags (c :: t) = c :: t := by
  cases hv : flags.verbose with
  | false => simp [skip, hv]
  | true =>
    rw [skip, if_pos hv] at h
    exact skip_of_isSolid (isSolid_of_skipBlanks h) flags t

@[simp]
theorem skip_skip (flags : Flags) (u : Text) : skip flags (skip flags u) = skip flags u := by
  match h : skip flags u with
  | [] => simp [skip, skipBlanks]
  | c :: rest => exact skip_cons_of_skip h rest

theorem exists_skipBlanks_eq (comment : Bool) (u : Text) : ∃ b, u = b ++ skipBlanks comment u ∧
    ∀ r', Agree (skipBlanks comment u) r' → skipBlanks comment (b ++ r') = r' := by
  induction u generalizing comment with
  | nil => exact ⟨[], rfl, fun r' h => absurd h Agree.not_nil⟩
  | cons c u ih =>
    cases comment with
    | true =>
      obtain ⟨b, hu, hb⟩ := ih (c != '\n')
      exact ⟨c :: b, congrArg (c :: ·) hu, fun r' h => hb r' h⟩
    | false =>
      by_cases hhash : (c == '#') = true
      · obtain ⟨b, hu, hb⟩ := ih true
        have hskip : ∀ t, skipBlanks false (c :: t) = skipBlanks true t := fun t => by
          simp [skipBlanks, hhash]
        rw [hskip]
        exact ⟨c :: b, congrArg (c :: ·) hu, fun r' h => (hskip _).trans (hb r' h)⟩
      by_cases hspace : Text.isSpace c = true
      · obtain ⟨b, hu, hb⟩ := ih false
        have hskip : ∀ t, skipBlanks false (c :: t) = skipBlanks false t := fun t => by
          simp [skipBlanks, hhash, hspace]
        rw [hskip]
        exact ⟨c :: b, congrArg (c :: ·) hu, fun r' h => (hskip _).trans (hb r' h)⟩
      · have hsolid : IsSolid c := ⟨Bool.eq_false_iff.2 hhash, Bool.eq_false_iff.2 hspace⟩
        rw [skipBlanks_of_isSolid hsolid]
        refine ⟨[], rfl, fun r' h => ?_⟩
        obtain ⟨d, t, rfl, hd⟩ := h.exists_head_of hsolid fun _ => EndsBranch.isSolid
        exact skipBlanks_of_isSolid hd t

theorem exists_of_skip {flags : Flags} {u r : Text} (h : skip flags u = r) :
    ∃ b, u = b ++ r ∧ ∀ r', Agree r r' → skip flags (b ++ r') = r' := by
  subst h
  cases hv : flags.verbose with
  | false =>
    have hskip : ∀ t, skip flags t = t := fun t => by simp [skip, hv]
    exact ⟨[], (hskip u).symm, fun r' _ => hskip r'⟩
  | true =>
    have hskip : ∀ t, skip flags t = skipBlanks false t := fun t => by simp [skip, hv]
    simp only [hskip]
    exact exists_skipBlanks_eq false u

theorem skip_append {flags : Flags} {u a r : Text} (h : skip flags u = a ++ r) :
    ∃ b, u = b ++ (a ++ r) ∧ ∀ r', Agree r r' → skip flags (b ++ (a ++ r')) = a ++ r' := by
  obtain ⟨b, hu, hb⟩ := exists_of_skip h
  exact ⟨b, hu, fun r' hr => hb _ (hr.append a)⟩

theorem readBranches_skip (n : ℕ) (s : State) (B I : List Item) (u : Text) :
    readBranches n s B I u = readBranches n s B I (skip s.flags u) := by
  cases n with
  | zero => rfl
  | succ n => simp only [readBranches, skip_skip]

theorem readBranches_nil {n : ℕ} {s : State} {B I : List Item} :
    readBranches (n + 1) s B I [] = some (Item.alternate (Item.concat I :: B), s, []) := by
  rw [readBranches, skip_nil]

namespace Reads

variable {α β : Type} {f g : ℕ → Text → Option (α × Text)} {flags : Flags} {c : Char}
  {u cs r : Text} {x : α}

theorem of_cons (hf : ∀ n t, f (n + 1) (c :: t) = some (x, t)) : Reads f (c :: cs) x cs := by
  refine ⟨[c], rfl, fun r' n _ hn => ?_⟩
  obtain ⟨n, rfl⟩ := Nat.exists_eq_succ_of_ne_zero (Nat.ne_zero_of_lt hn)
  exact hf n r'

/-- A reader that takes a character and makes something of what another one reads after it. -/
theorem cons_map {g : ℕ → Text → Option (β × Text)} {y : β} (h : Reads g cs y r)
    (hf : ∀ n t r, g n t = some (y, r) → f (n + 1) (c :: t) = some (x, r)) :
    Reads f (c :: cs) x r := by
  obtain ⟨a, rfl, hg⟩ := h
  refine ⟨c :: a, rfl, fun r' n hr hn => ?_⟩
  obtain ⟨n, rfl⟩ := Nat.exists_eq_succ_of_ne_zero (Nat.ne_zero_of_lt hn)
  exact hf n _ r' (hg r' n hr (Nat.lt_of_succ_lt_succ hn))

theorem cons (h : Reads g cs x r) (hf : ∀ n t, f (n + 1) (c :: t) = g n t) :
    Reads f (c :: cs) x r :=
  h.cons_map fun n t _ hg => (hf n t).trans hg

theorem skip (h : Reads g (skip flags u) x r) (hf : ∀ n t, f n t = g n (Parser.skip flags t)) :
    Reads f u x r := by
  obtain ⟨a, ha, hg⟩ := h
  obtain ⟨b, rfl, hb⟩ := skip_append ha
  refine ⟨b ++ a, by simp, fun r' n hr hn => ?_⟩
  rw [List.append_assoc, hf, hb r' hr]
  exact hg r' n hr (lt_of_le_of_lt (by simp) hn)

theorem of_skip (hf : ∀ n t, f n t = some (x, Parser.skip flags t)) :
    Reads f u x (Parser.skip flags u) := by
  have hstay : Reads (fun _ t => some (x, t)) (Parser.skip flags u) x (Parser.skip flags u) :=
    ⟨[], rfl, fun _ _ _ _ => rfl⟩
  exact hstay.skip hf

/-- A reader that does not see the blanks in front. -/
theorem of_skipped (h : Reads f (Parser.skip flags u) x r)
    (hf : ∀ n t, f n t = f n (Parser.skip flags t)) : Reads f u x r := h.skip hf

/-- A reader that makes something of what another one reads, unless the text begins in one of several
ways. -/
theorem head_map {g : ℕ → Text → Option (β × Text)} {y : β} {P : Char → Prop}
    (h : Reads g (c :: cs) y r) (hc : P c) (hend : ∀ d, EndsBranch d → P d)
    (hf : ∀ n d t r, P d → g (n + 1) (d :: t) = some (y, r) → f (n + 1) (d :: t) = some (x, r)) :
    Reads f (c :: cs) x r := by
  obtain ⟨a, ha, hg⟩ := h
  refine ⟨a, ha, fun r' n hr hn => ?_⟩
  have hagree : Agree (c :: cs) (a ++ r') := ha ▸ hr.append a
  obtain ⟨d, t, hd, hP⟩ := hagree.exists_head_of hc hend
  have hg := hg r' n hr hn
  obtain ⟨n, rfl⟩ := Nat.exists_eq_succ_of_ne_zero (Nat.ne_zero_of_lt hn)
  rw [hd] at hg ⊢
  exact hf n d t r' hP hg

theorem of_length (h : Reads f u x r) : Reads (fun _ t => f (t.length + 1) t) u x r := by
  obtain ⟨a, ha, hf⟩ := h
  refine ⟨a, ha, fun r' n hr _ => hf r' _ hr ?_⟩
  rw [List.length_append]
  omega

end Reads

end PageCache.Pattern.Parser
