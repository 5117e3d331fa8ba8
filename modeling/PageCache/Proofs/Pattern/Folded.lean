import PageCache.Proofs.Pattern.Alternation
import PageCache.Proofs.Pattern.Plain

/-! Patterns of which the letter case does not count. For most ASCII characters this means the case of
ASCII letters: only `k` and `s` have further equivalents. -/
namespace PageCache

namespace Unicode.CaseFolding

/-- The letters with equivalents outside ASCII. -/
def isWide (c : Char) : Bool := ("ksKS" : Text).contains c

theorem le_of_partner? {run : PairRun} (hrun : run ∈ pairRuns) {n m : ℕ} (hn : 128 ≤ n)
    (h : run.partner? n = some m) : 128 ≤ m := by
  have hruns : ∀ run ∈ pairRuns, run.first < 128 → run.last + run.distance < 128 := by decide +kernel
  have hrun := hruns run hrun
  unfold PairRun.partner? at h
  split at h
  · cases h
    omega
  · split at h
    · cases h
      omega
    · cases h

/-- A class with a code point outside ASCII has at most wide letters in ASCII. -/
theorem of_mem_tableClass {n m : ℕ} (hn : 128 ≤ n) (hm : m ∈ tableClass n) :
    128 ≤ m ∨ isWide (Char.ofNat m) = true := by
  unfold tableClass at hm
  split at hm
  · next cls hcls =>
    have hlarge : ∀ cls ∈ largeClasses, ∀ m ∈ cls, 128 ≤ m ∨ isWide (Char.ofNat m) = true := by
      decide +kernel
    exact hlarge cls (List.mem_of_find?_eq_some hcls) m hm
  · split at hm
    · next k hk =>
      obtain ⟨run, hrun, hpartner⟩ := List.exists_of_findSome?_eq_some hk
      rcases List.mem_pair.1 hm with rfl | rfl
      · exact .inl hn
      · exact .inl (le_of_partner? hrun hn hpartner)
    · obtain rfl := List.mem_singleton.1 hm
      exact .inl hn

/-- An ASCII character whose equivalents differ in the case of ASCII letters only. -/
def isNarrow (c : Char) : Bool := 0 < c.toNat && c.toNat < 128 && !isWide c

theorem isNarrow_iff {c : Char} :
    isNarrow c = true ↔ 0 < c.toNat ∧ c.toNat < 128 ∧ isWide c = false := by
  simp [isNarrow, and_assoc]

/-- A code point from which a character is made, or none. -/
theorem toNat_ofNat_cases (m : ℕ) : (Char.ofNat m).toNat = m ∨ (Char.ofNat m).toNat = 0 := by
  unfold Char.ofNat
  split
  · exact .inl rfl
  · exact .inr rfl

theorem isLower_eq_false_of_le {c : Char} (hc : 128 ≤ c.toNat) : c.isLower = false := by
  have hval : ¬ c.val ≤ ('z' : Char).val := by
    rw [UInt32.le_iff_toNat_le]
    exact Nat.not_le.2 (Nat.lt_of_lt_of_le (by decide) hc)
  exact Bool.and_eq_false_iff.2 (.inr (decide_eq_false hval))

theorem not_isUpper_of_le {c : Char} (hc : 128 ≤ c.toNat) :
    ¬ (c.val ≥ ('A' : Char).val ∧ c.val ≤ ('Z' : Char).val) := by
  rintro ⟨-, h⟩
  rw [UInt32.le_iff_toNat_le] at h
  exact absurd h (Nat.not_le.2 (Nat.lt_of_lt_of_le (by decide) hc))

/-- The equivalents of a character outside ASCII are outside ASCII or wide. -/
theorem not_mem_equivalents_of_le {x c : Char} (hx : isNarrow x = true) (hc : 128 ≤ c.toNat) :
    x ∉ equivalents c := by
  obtain ⟨hpos, hlt, hwide⟩ := isNarrow_iff.1 hx
  have hne : ∀ d : Char, d.toNat < 128 → c ≠ d := by
    rintro d hd rfl
    omega
  have htable : equivalents c = (tableClass c.toNat).map Char.ofNat := by
    have hupper : c.isUpper = false := decide_eq_false (not_isUpper_of_le hc)
    rw [equivalents, if_neg (not_or.2 ⟨hne _ (by decide), hne _ (by decide)⟩),
      if_neg (not_or.2 ⟨hne _ (by decide), hne _ (by decide)⟩), isLower_eq_false_of_le hc, hupper,
      if_neg Bool.false_ne_true, if_neg Bool.false_ne_true, if_neg (by omega)]
  rw [htable, List.mem_map]
  rintro ⟨m, hm, rfl⟩
  rcases of_mem_tableClass hc hm with hle | hwide'
  · rcases toNat_ofNat_cases m with h | h <;> omega
  · rw [hwide'] at hwide
    cases hwide

theorem toLower_of_le {c : Char} (hc : 128 ≤ c.toNat) : c.toLower = c := by
  rw [Char.toLower, dif_neg (not_isUpper_of_le hc)]

theorem forall_ascii {P : Char → Prop} (h : ∀ n < 128, P (Char.ofNat n)) {c : Char}
    (hc : c.toNat < 128) : P c := by
  rw [← Char.ofNat_toNat c]
  exact h c.toNat hc

theorem case_mem_equivalents {x c : Char} (hx : x.toNat < 128) (hc : c.toNat < 128)
    (h : c.toLower = x.toLower) : x ∈ equivalents c := by
  have hcases : x = x.toLower ∨ x = x.toLower.toUpper :=
    forall_ascii (P := fun x => x = x.toLower ∨ x = x.toLower.toUpper) (by decide +kernel) hx
  have hmem : c.toLower ∈ equivalents c ∧ c.toLower.toUpper ∈ equivalents c :=
    forall_ascii (P := fun c => c.toLower ∈ equivalents c ∧ c.toLower.toUpper ∈ equivalents c)
      (by decide +kernel) hc
  rw [h] at hmem
  rcases hcases with hx | hx <;> rw [hx]
  · exact hmem.1
  · exact hmem.2

theorem toLower_eq_of_mem_equivalents {x c : Char} (hx : isNarrow x = true) (hc : c.toNat < 128)
    (h : x ∈ equivalents c) : c.toLower = x.toLower := by
  have hall : ((equivalents c).all fun x => !isNarrow x || c.toLower == x.toLower) = true :=
    forall_ascii
      (P := fun c => ((equivalents c).all fun x => !isNarrow x || c.toLower == x.toLower) = true)
      (by decide +kernel) hc
  have hx' := List.all_eq_true.1 hall x h
  rw [hx] at hx'
  exact beq_iff_eq.1 hx'

theorem mem_equivalents_iff {x c : Char} (hx : isNarrow x = true) :
    x ∈ equivalents c ↔ c.toLower = x.toLower := by
  obtain ⟨-, hlt, -⟩ := isNarrow_iff.1 hx
  by_cases hc : c.toNat < 128
  · exact ⟨toLower_eq_of_mem_equivalents hx hc, case_mem_equivalents hlt hc⟩
  · have hc := Nat.le_of_not_lt hc
    refine iff_of_false (not_mem_equivalents_of_le hx hc) fun h => ?_
    have hlower : x.toLower.toNat < 128 :=
      forall_ascii (P := fun x => x.toLower.toNat < 128) (by decide +kernel) hlt
    rw [← h, toLower_of_le hc] at hlower
    omega

end Unicode.CaseFolding
namespace Pattern

open Unicode.CaseFolding (isNarrow)

variable {key u value : Text} {D : List Item} {t : Parser.State} {patterns : List Text}

theorem contains_fold {x c : Char} (hx : isNarrow x = true) :
    (CharClass.fold (.single x)).contains c = true ↔ c.toLower = x.toLower := by
  rw [← Unicode.CaseFolding.mem_equivalents_iff hx]
  simp [CharClass.contains]

/-- What a character matches where case does not count. -/
def foldedItem (c : Char) : Item := { expr := .one (.fold (.single c)), depth := 0 }

/-- Characters that stand for themselves in any case. -/
def IsKey (key : Text) : Prop := ∀ c ∈ key, isPlain c = true ∧ c ≠ '.' ∧ isNarrow c = true

instance (key : Text) : Decidable (IsKey key) :=
  decidable_of_iff ((key.all fun c => isPlain c && c != '.' && isNarrow c) = true) (by
    simp [IsKey, and_assoc])

theorem sequence_folded (hkey : IsKey key) {pre mid post : Text} :
    Sequence (key.map fun c => (foldedItem c).expr) pre mid post ↔ mid.lower = key.lower := by
  induction key generalizing pre mid with
  | nil => simp [Sequence, Text.lower]
  | cons x key ih =>
    obtain ⟨⟨-, -, hx⟩, hkey⟩ := List.forall_mem_cons.1 hkey
    have hone : ∀ {pre m post : Text}, (foldedItem x).expr.Matches pre m post ↔
        ∃ c, m = [c] ∧ c.toLower = x.toLower := by
      simp [foldedItem, Expr.matches_one, contains_fold hx]
    simp only [List.map_cons, Sequence, ih hkey, hone]
    constructor
    · rintro ⟨-, n, rfl, ⟨c, rfl, hc⟩, hn⟩
      simpa [Text.lower, hc] using hn
    · intro h
      cases mid with
      | nil => simp [Text.lower] at h
      | cons c mid =>
        obtain ⟨hc, hmid⟩ := List.cons.inj h
        exact ⟨[c], mid, rfl, ⟨c, rfl, hc⟩, hmid⟩

namespace Parser

variable {s : State} {n : ℕ} {B I : List Item} {rest : Text}

theorem readBranches_folded (hs : s.flags = { ignoreCase := true }) (hkey : IsKey key) :
    readBranches (n + key.length) s B I (key ++ rest) =
      readBranches n s B ((key.map foldedItem).reverse ++ I) rest := by
  induction key generalizing I with
  | nil => rfl
  | cons c key ih =>
    obtain ⟨⟨hplain, hdot, -⟩, hkey⟩ := List.forall_mem_cons.1 hkey
    have hc : c ∉ (")|(*+?\x7b[\\^$" : Text) := by simpa [isPlain] using hplain
    have hskip : skip s.flags (c :: (key ++ rest)) = c :: (key ++ rest) := by
      rw [hs]
      rfl
    have hsingle : single? s.flags c = some (foldedItem c) := by
      have hcaret : c ≠ '^' := by
        rintro rfl
        exact hc (by decide)
      have hdollar : c ≠ '$' := by
        rintro rfl
        exact hc (by decide)
      rw [single?, if_neg hdot, if_neg hcaret, if_neg hdollar, hs]
      rfl
    rw [List.length_cons, ← Nat.add_assoc, List.cons_append,
      readBranches_single hskip (fun h => hc (by simp at h ⊢; tauto)), hsingle, Option.bind_some,
      ih hkey]
    simp

theorem readBranches_keyed (hkey : IsKey key) (h : ReadsAs .inAlternation u t D) :
    readBranches (u.length + 3 + 2 + key.length) { flags := { ignoreCase := true } } [] []
        (key ++ (".*" ++ '(' :: (u ++ ")"))) =
      some (Item.concat (groupItem D :: (itemsOf (.gap false) ++ (key.map foldedItem).reverse)),
        { t with flags := { ignoreCase := true } }, []) := by
  have hgap : readBranches (u.length + 3 + 2) { flags := { ignoreCase := true } } []
      (key.map foldedItem).reverse ((Piece.gap false).render ++ '(' :: (u ++ ")")) = _ :=
    readBranches_gap rfl (by simp)
  rw [readBranches_folded rfl hkey, List.append_nil]
  exact hgap.trans (readBranches_enclosed h _)

end Parser

/-- The pattern that finds one of the given ones after a key. -/
def keyed (key : Text) (patterns : List Text) : Text := key ++ ".*" ++ alternation patterns

/-- What the pattern matches: the key, a gap on the same line, and what one of the branches matches
behind it. -/
theorem found_keyed_iff (hkey : IsKey key) (hD : D ≠ [])
    (h : Parser.ReadsAs .inAlternation (Text.join patterns "|") t D)
    (hcompiles : (parse? true (keyed key patterns)).isSome = true) :
    found true (keyed key patterns) value = true ↔
      ∃ pre k gap mid post, value = pre ++ (k ++ (gap ++ (mid ++ post))) ∧ k.lower = key.lower ∧
        '\n' ∉ gap ∧ ∃ i ∈ D, i.expr.Matches (pre ++ (k ++ gap)) mid post := by
  obtain ⟨e, hparse⟩ := Option.isSome_iff_exists.1 hcompiles
  have htext : keyed key patterns = key ++ (".*" ++ '(' :: (Text.join patterns "|" ++ ")")) := by
    simp [keyed, alternation]
  have hlength : (keyed key patterns).length + 1 =
      (Text.join patterns "|").length + 3 + 2 + key.length := by
    simp [htext]
    omega
  have hexpr : e = (Item.concat (Parser.groupItem D ::
      (Parser.itemsOf (.gap false) ++ (key.map foldedItem).reverse))).expr := by
    rw [parse?, hlength, htext, Parser.readBranches_keyed hkey h] at hparse
    exact (Option.some.inj (Option.ite_none_right_eq_some.1 hparse).2).symm
  have hexprs : (Parser.groupItem D :: (Parser.itemsOf (.gap false) ++
      (key.map foldedItem).reverse)).reverse.map (·.expr) =
        (key.map fun c => (foldedItem c).expr) ++ ((Piece.gap false).exprs ++
          [.group 1 (Item.alternate D).expr]) := by
    simp [Parser.itemsOf, Piece.exprs, Parser.groupItem, Function.comp_def]
  rw [found_iff_of_parse? hparse, hexpr]
  simp only [Item.matches_concat, hexprs, sequence_append, sequence_folded hkey,
    Piece.sequence_exprs, sequence_singleton, Expr.matches_group, Item.matches_alternate hD]
  constructor
  · rintro ⟨pre, -, post, rfl, k, -, rfl, hk, gap, mid, rfl, hgap, hmid⟩
    exact ⟨pre, k, gap, mid, post, by simp, hk, hgap, by simpa using hmid⟩
  · rintro ⟨pre, k, gap, mid, post, rfl, hk, hgap, hmid⟩
    exact ⟨pre, k ++ (gap ++ mid), post, by simp, k, gap ++ mid, rfl, hk, gap, mid, rfl, hgap,
      by simpa using hmid⟩

end Pattern
end PageCache
