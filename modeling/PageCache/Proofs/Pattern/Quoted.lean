import PageCache.Proofs.Pattern.Alternation
import PageCache.Proofs.Pattern.Plain

/-! Quoted texts in patterns. A quoted text is read as its characters, whatever they are, and texts
with bars between them are read as the branches of an alternation. -/
namespace PageCache.Pattern

namespace Parser

variable {n : ℕ} {s : State} {B I : List Item} {rest t : Text} {c : Char}

def literalItems (t : Text) : List Item := t.map fun c => { expr := .ofChar c, depth := 0 }

def literalItem (t : Text) : Item := Item.concat (literalItems t).reverse

theorem readEscape_of_isMeta (hc : isMeta c = true) (flags : Flags) :
    readEscape flags (c :: rest) = some (.char c false, rest) := by
  have hmem : c ∈ ("\\.+*?()|[]\x7b\x7d^$#&-~" : Text) := by simpa [isMeta] using hc
  have hmem : c = '\\' ∨ c = '.' ∨ c = '+' ∨ c = '*' ∨ c = '?' ∨ c = '(' ∨ c = ')' ∨ c = '|' ∨
      c = '[' ∨ c = ']' ∨ c = '\x7b' ∨ c = '\x7d' ∨ c = '^' ∨ c = '$' ∨ c = '#' ∨ c = '&' ∨
      c = '-' ∨ c = '~' := by simpa using hmem
  rcases hmem with rfl | rfl | rfl | rfl | rfl | rfl | rfl | rfl | rfl | rfl | rfl | rfl | rfl |
    rfl | rfl | rfl | rfl | rfl <;> rfl

theorem isPlain_of_not_isMeta (hc : ¬ isMeta c = true) : isPlain c = true := by
  have hspecial : ∀ d ∈ (")|(*+?\x7b[\\^$" : Text), isMeta d = true := by simp [isMeta]
  have hmem : c ∉ (")|(*+?\x7b[\\^$" : Text) := fun h => hc (hspecial c h)
  simpa [isPlain] using hmem

theorem length_le_length_quote (t : Text) : t.length ≤ (quote t).length := by
  induction t with
  | nil => exact le_rfl
  | cons c t ih =>
    have hc : 1 ≤ (if isMeta c then ['\\', c] else [c]).length := by split <;> simp
    simp only [quote, List.flatMap_cons, List.length_append, List.length_cons] at ih ⊢
    omega

/-- Each character is read in one step, with or without the backslash before it. -/
theorem readBranches_quote (hs : s.flags = { ignoreCase := false }) (t : Text) :
    readBranches (n + t.length) s B I (quote t ++ rest) =
      readBranches n s B ((literalItems t).reverse ++ I) rest := by
  induction t generalizing I with
  | nil => rfl
  | cons c t ih =>
    have hitems : (literalItems (c :: t)).reverse ++ I =
        (literalItems t).reverse ++ { expr := .ofChar c, depth := 0 } :: I := by
      simp [literalItems]
    rw [hitems, ← ih, List.length_cons, ← Nat.add_assoc]
    by_cases hc : isMeta c = true
    · have hquote : quote (c :: t) ++ rest = '\\' :: c :: (quote t ++ rest) := by
        simp [quote, hc]
      rw [hquote, readBranches_escape, readEscape_of_isMeta hc, hs]
      rfl
    · have hquote : quote (c :: t) ++ rest = c :: (quote t ++ rest) := by
        simp [quote, hc]
      have hplain : isPlain c = true := isPlain_of_not_isMeta hc
      have hdot : c ≠ '.' := by
        rintro rfl
        exact hc (by decide)
      rw [hquote, readBranches_plainChar hs hplain, plainItem, plainExpr, if_neg hdot]

theorem readsAs_quote (hs : s.flags = { ignoreCase := false }) (t : Text) :
    ReadsAs s (quote t) s [literalItem t] := by
  have hlength := length_le_length_quote t
  refine ⟨fun B n q hn => ?_, fun B n q hn => ?_⟩
  · obtain ⟨k, rfl⟩ := Nat.exists_eq_add_of_le (hlength.trans hn)
    have hfuel : t.length + k + 1 = k + 1 + t.length := by omega
    rw [hfuel, readBranches_quote hs, List.append_nil, readBranches_close]
    rfl
  · obtain ⟨k, rfl⟩ := Nat.exists_eq_add_of_lt (hlength.trans_lt hn)
    have hfuel : t.length + k + 1 + 1 = k + 1 + 1 + t.length := by omega
    refine ⟨k, by omega, ?_⟩
    rw [hfuel, readBranches_quote hs, List.append_nil, readBranches_bar]
    rfl

theorem readsAs_join_quote (hs : s.flags = { ignoreCase := false }) {ts : List Text} (hts : ts ≠ []) :
    ReadsAs s (Text.join (ts.map quote) "|") s (ts.map literalItem).reverse := by
  induction ts with
  | nil => exact absurd rfl hts
  | cons t ts ih =>
    match ts with
    | [] => simpa [Text.join] using readsAs_quote hs t
    | t' :: ts => simpa [Text.join] using (readsAs_quote hs t).append (ih (by simp))

theorem matches_literalItem {pre mid post : Text} :
    (literalItem t).expr.Matches pre mid post ↔ mid = t := by
  rw [literalItem, Item.matches_concat, List.reverse_reverse, literalItems, List.map_map]
  induction t generalizing pre mid with
  | nil => rfl
  | cons c t ih =>
    simp only [List.map_cons, Sequence, Function.comp_apply, Expr.matches_ofChar, ih]
    constructor
    · rintro ⟨-, -, rfl, rfl, rfl⟩
      rfl
    · rintro rfl
      exact ⟨[c], t, rfl, rfl, rfl⟩

end Parser
end PageCache.Pattern
