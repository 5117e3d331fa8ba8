import PageCache.Proofs.Pattern.Search
import PageCache.Proofs.Pattern.Reading.Branch
import PageCache.Proofs.Text.Pieces

/-! Alternations of patterns. All patterns of a list are read as one text, so a pattern that opens what
it does not close changes its neighbours. Where each one is read up to the bar or parenthesis after
it, what the alternation matches is what any of the patterns matches in its place, and a further
pattern takes nothing away. -/
namespace PageCache.Pattern

theorem Item.matches_alternate {branches : List Item} (hbranches : branches ≠ [])
    {pre mid post : Text} : (alternate branches).expr.Matches pre mid post ↔
      ∃ i ∈ branches, i.expr.Matches pre mid post := by
  have hfold : ∀ (is : List Item) (e : Expr),
      (is.foldl (fun e j => .alt j.expr e) e).Matches pre mid post ↔
        e.Matches pre mid post ∨ ∃ i ∈ is, i.expr.Matches pre mid post := by
    intro is
    induction is with
    | nil => simp
    | cons j is ih =>
      intro e
      rw [List.foldl_cons, ih]
      simp only [Expr.Matches, List.mem_cons, exists_eq_or_imp]
      tauto
  cases branches with
  | nil => exact absurd rfl hbranches
  | cons i is =>
    cases is with
    | nil => simp [alternate]
    | cons j is =>
      simp only [alternate, hfold]
      simp

namespace Parser

/-- The state after a pattern that is read up to the parenthesis behind it. -/
def stateAfter? (s : State) (pattern : Text) : Option State :=
  match readBranches (pattern.length + 2) s [] [] (pattern ++ ")") with
  | some (_, t, [')']) => some t
  | _ => none

/-- The state in which the patterns of an alternation are read. -/
def State.inAlternation : State := { flags := { ignoreCase := true }, nextGroup := 2 }

/-- From one state, a text is read as branches up to any end of a branch, with another state there. -/
structure ReadsAs (s : State) (u : Text) (t : State) (branches : List Item) : Prop where
  last : ∀ B n q, u.length ≤ n →
    readBranches (n + 1) s B [] (u ++ ')' :: q) = some (Item.alternate (branches ++ B), t, ')' :: q)
  more : ∀ B n q, u.length < n → ∃ m, n ≤ m + u.length + 1 ∧
    readBranches (n + 1) s B [] (u ++ '|' :: q) = readBranches (m + 1) t (branches ++ B) [] q

variable {s t t' : State} {u v : Text} {D D' : List Item}

theorem exists_readsAs (h : stateAfter? s u = some t) : ∃ D, D ≠ [] ∧ ReadsAs s u t D := by
  unfold stateAfter? at h
  split at h
  · next i t' hread =>
    cases h
    obtain ⟨-, J, C, -, ⟨a, ha, hgo⟩, -⟩ := local_readBranches _ _ _ _ _ _ _ _ hread (by simp)
    obtain rfl : u = a := List.append_cancel_right ha
    refine ⟨Item.concat J :: C, by simp, ?_, ?_⟩
    · intro B n q hn
      obtain ⟨m, -, hm⟩ := hgo B (')' :: q) n (.stop _ _ (by decide) (by decide)) hn
      rw [hm, readBranches_close, List.cons_append]
    · intro B n q hn
      obtain ⟨m, hmn, hm⟩ := hgo B ('|' :: q) n (.stop _ _ (by decide) (by decide)) hn.le
      obtain ⟨m, rfl⟩ : ∃ k, m = k + 1 := ⟨m - 1, by omega⟩
      exact ⟨m, by omega, by rw [hm, readBranches_bar, List.cons_append]⟩
  · cases h

theorem ReadsAs.append (h : ReadsAs s u t D) (h' : ReadsAs t v t' D') :
    ReadsAs s (u ++ '|' :: v) t' (D' ++ D) := by
  have hlen : (u ++ '|' :: v).length = u.length + v.length + 1 := by
    rw [List.length_append, List.length_cons]
    omega
  refine ⟨fun B n q hn => ?_, fun B n q hn => ?_⟩
  · obtain ⟨m, hmn, hm⟩ := h.more B n (v ++ ')' :: q) (by omega)
    rw [List.append_assoc, List.cons_append, hm, h'.last _ _ _ (by omega), List.append_assoc]
  · obtain ⟨m, hmn, hm⟩ := h.more B n (v ++ '|' :: q) (by omega)
    obtain ⟨k, hkm, hk⟩ := h'.more (D ++ B) m q (by omega)
    refine ⟨k, by omega, ?_⟩
    rw [List.append_assoc, List.cons_append, hm, hk, List.append_assoc]

theorem ReadsAs.head?_ne (h : ReadsAs s u t D) : u.head? ≠ some '?' := by
  intro hhead
  obtain ⟨v, rfl⟩ := List.head?_eq_some_iff.1 hhead
  have hread := h.last [] _ [] le_rfl
  rw [List.cons_append, readBranches_again (.inr (.inr rfl))] at hread
  cases hread

theorem exists_readsAs_join {patterns : List Text} (hpatterns : patterns ≠ [])
    (h : patterns.foldlM stateAfter? s = some t) :
    ∃ D, D ≠ [] ∧ ReadsAs s (Text.join patterns "|") t D := by
  induction patterns generalizing s with
  | nil => exact absurd rfl hpatterns
  | cons p ps ih =>
    rw [List.foldlM_cons] at h
    obtain ⟨s', hs', h⟩ := Option.bind_eq_some_iff.1 h
    obtain ⟨D, hD, hread⟩ := exists_readsAs hs'
    match ps with
    | [] =>
      cases h
      exact ⟨D, hD, by simpa [Text.join] using hread⟩
    | q :: qs =>
      obtain ⟨D', hD', hread'⟩ := ih (by simp) h
      exact ⟨D' ++ D, by simp [hD], by simpa [Text.join] using hread.append hread'⟩

def groupItem (D : List Item) : Item where
  expr := .group 1 (Item.alternate D).expr
  depth := (Item.alternate D).depth + 1

theorem readBranches_enclosed (h : ReadsAs .inAlternation u t D) (I : List Item) :
    readBranches (u.length + 3) { flags := { ignoreCase := true } } [] I ('(' :: (u ++ ")")) =
      some (Item.concat (groupItem D :: I), { t with flags := { ignoreCase := true } }, []) := by
  have hopen : readOpening { ignoreCase := true } (u ++ ")") = some (.capture none, u ++ ")") := by
    have hhead : (u ++ ")").head? ≠ some '?' := by
      cases u with
      | nil => decide
      | cons c u => exact h.head?_ne
    exact readOpening_plain hhead
  have hread := h.last [] (u.length + 1) [] (by omega)
  rw [List.append_nil] at hread
  rw [readBranches_capture (by simp) hopen]
  exact (readGroup_of_readBranches hread).trans readBranches_nil

end Parser

def compiles (patterns : List Text) : Bool := (parse? true (alternation patterns)).isSome

/-- The patterns are read one after the other, each up to the bar or parenthesis behind it. -/
def readsInTurn (patterns : List Text) : Bool :=
  (patterns.foldlM Parser.stateAfter? Parser.State.inAlternation).isSome

section
variable {patterns more : List Text} {value : Text}

theorem compiles_of_found (h : found true (alternation patterns) value = true) :
    compiles patterns = true := by
  unfold found at h
  split at h
  · next hparse => rw [compiles, hparse, Option.isSome_some]
  · cases h

/-- What an alternation matches is what any of its branches matches. -/
theorem found_alternation_iff {t : Parser.State} {D : List Item} (hD : D ≠ [])
    (h : Parser.ReadsAs .inAlternation (Text.join patterns "|") t D)
    (hcompiles : compiles patterns = true) : found true (alternation patterns) value = true ↔
      ∃ pre mid post, value = pre ++ (mid ++ post) ∧ ∃ i ∈ D, i.expr.Matches pre mid post := by
  obtain ⟨e, hparse⟩ := Option.isSome_iff_exists.1 hcompiles
  have htext : alternation patterns = '(' :: (Text.join patterns "|" ++ ")") := rfl
  have hlen : (alternation patterns).length + 1 = (Text.join patterns "|").length + 3 := by
    rw [htext, List.length_cons, List.length_append]
    rfl
  have hgroup : e = .group 1 (Item.alternate D).expr := by
    rw [parse?, hlen, htext, Parser.readBranches_enclosed h []] at hparse
    exact (Option.some.inj (Option.ite_none_right_eq_some.1 hparse).2).symm
  rw [found_iff_of_parse? hparse, hgroup]
  simp only [Expr.matches_group, Item.matches_alternate hD]

/-- What is found by an alternation is found with further patterns behind, if all are read in turn and
can be evaluated together. -/
theorem found_alternation_append (hpatterns : patterns ≠ [])
    (hturn : readsInTurn (patterns ++ more) = true) (hcompiles : compiles (patterns ++ more) = true)
    (h : found true (alternation patterns) value = true) :
    found true (alternation (patterns ++ more)) value = true := by
  by_cases hnil : more = []
  · rwa [hnil, List.append_nil]
  obtain ⟨t', ht'⟩ := Option.isSome_iff_exists.1 hturn
  rw [List.foldlM_append] at ht'
  obtain ⟨t, ht, hmore⟩ := Option.bind_eq_some_iff.1 ht'
  obtain ⟨D, hD, hread⟩ := Parser.exists_readsAs_join hpatterns ht
  obtain ⟨D', -, hread'⟩ := Parser.exists_readsAs_join hnil hmore
  have hwhole : Parser.ReadsAs .inAlternation (Text.join (patterns ++ more) "|") t' (D' ++ D) := by
    rw [Text.join_append hpatterns hnil]
    exact hread.append hread'
  rw [found_alternation_iff hD hread (compiles_of_found h)] at h
  rw [found_alternation_iff (by simp [hD]) hwhole hcompiles]
  obtain ⟨pre, mid, post, hvalue, i, hi, hmatches⟩ := h
  exact ⟨pre, mid, post, hvalue, i, List.mem_append_right D' hi, hmatches⟩

end

end PageCache.Pattern
