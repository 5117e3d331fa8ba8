import PageCache.Proofs.Pattern.Quoted
import PageCache.Tenant

/-! How the pattern of the paths of tenants is read. Below a base path of plain characters it is what
it looks like, whatever the names are: the base path, a slash, one of the names, and the rest. -/
namespace PageCache.Tenant

open Pattern Pattern.Parser

variable {base : Text} {names : List Text}

def nameItem (names : List Text) : Item where
  expr := .group 1 (Item.alternate (names.map literalItem).reverse).expr
  depth := (Item.alternate (names.map literalItem).reverse).depth + 1

/-- What the group of the rest matches: a slash, and what follows it on the line. -/
def restExpr : Expr := .seq (.ofChar '/') (.rep (.one anyChar) 0 none true)

def restItem : Item := { expr := .group 2 restExpr, depth := 3 }

def pathItems (base : Text) (names : List Text) : List Item :=
  { expr := .look .textStart, depth := 0 } ::
    (itemsOf (.plain (base ++ "/")) ++
      [nameItem names, restItem, { expr := .look .textEnd, depth := 0 }])

def pathItem (base : Text) (names : List Text) : Item := Item.concat (pathItems base names).reverse

/-- The pattern of paths below a base path without slashes at its end. -/
def patternBelow (base : Text) (names : List Text) : Text :=
  '^' :: ((base ++ "/") ++ '(' :: (Text.join (names.map quote) "|" ++ ')' :: '(' ::
    ("/.*" ++ ')' :: "$")))

theorem pathPattern_eq (base : Text) (names : TextSet) :
    pathPattern base names = patternBelow base.trimEndSlashes names.toList := by
  simp [pathPattern, patternBelow]

/-- A parenthesis in front of what a branch may begin with opens a group. -/
theorem readBranches_group {s : State} (hs : s.flags = { ignoreCase := false }) {n : ℕ}
    {I : List Item} {u q : Text} {i : Item} (hhead : (u ++ ')' :: q).head? ≠ some '?')
    (hread : readBranches n { s with nextGroup := s.nextGroup + 1 } [] [] (u ++ ')' :: q) =
      some (i, { s with nextGroup := s.nextGroup + 1 }, ')' :: q)) :
    readBranches (n + 1) s [] I ('(' :: (u ++ ')' :: q)) =
      readBranches n { s with nextGroup := s.nextGroup + 1 } []
        ({ expr := .group s.nextGroup i.expr, depth := i.depth + 1 } :: I) q := by
  have hskip : skip s.flags (u ++ ')' :: q) = u ++ ')' :: q := by
    rw [hs]
    rfl
  have hopen : readOpening s.flags (u ++ ')' :: q) = some (.capture none, u ++ ')' :: q) := by
    rw [readOpening_plain (by rwa [hskip]), hskip]
  rw [readBranches_capture (by simp) hopen]
  exact readGroup_of_readBranches hread

theorem readBranches_rest {s : State} (hs : s.flags = { ignoreCase := false }) {n : ℕ}
    (q : Text) :
    readBranches (n + 4) s [] [] ("/.*" ++ ')' :: q) =
      some ({ expr := restExpr, depth := 2 }, s, ')' :: q) := by
  have htext : ("/.*" : Text) ++ ')' :: q = '/' :: ((Piece.gap false).render ++ ')' :: q) := rfl
  rw [htext, readBranches_plainChar hs (by decide), readBranches_gap hs (by simp),
    readBranches_close]
  rfl

theorem readBranches_patternBelow (hbase : ∀ c ∈ base, isPlain c = true) (hnames : names ≠ []) :
    ∃ s, readBranches ((patternBelow base names).length + 1) { flags := { ignoreCase := false } }
      [] [] (patternBelow base names) = some (pathItem base names, s, []) := by
  let s (n : ℕ) : State := { flags := { ignoreCase := false }, nextGroup := n }
  have hjoin : ReadsAs (s 2) (Text.join (names.map quote) "|") (s 2) (names.map literalItem).reverse :=
    readsAs_join_quote rfl hnames
  have hplain : (Piece.plain (base ++ "/")).IsPlain := by
    have hslash : ∀ c ∈ ("/" : Text), isPlain c = true := by simp [isPlain]
    exact List.forall_mem_append.2 ⟨hbase, hslash⟩
  unfold patternBelow
  generalize Text.join (names.map quote) "|" = join at hjoin
  have hhead : ∀ q, (join ++ ')' :: q).head? ≠ some '?' := by
    intro q
    have hfirst := hjoin.head?_ne
    cases join with
    | nil => simp
    | cons c t => exact hfirst
  have hlength : ('^' :: ((base ++ ("/" : Text)) ++ '(' :: (join ++ ')' :: '(' ::
      (("/.*" : Text) ++ ')' :: ("$" : Text))))).length + 1 =
      join.length + 8 + 1 + (Piece.plain (base ++ "/")).steps + 1 := by
    simp [Piece.steps]
    omega
  have hread := hjoin.last [] (join.length + 7) ('(' :: (("/.*" : Text) ++ ')' :: ("$" : Text)))
    (by omega)
  refine ⟨s 3, ?_⟩
  rw [hlength, readBranches_single rfl (by decide)]
  change readBranches _ (s 1) _ [_] ((Piece.plain (base ++ "/")).render ++ _) = _
  rw [readBranches_piece rfl hplain (by simp), readBranches_group rfl (hhead _) hread]
  have hrest := readBranches_rest (s := s 3) rfl (n := join.length + 3) "$"
  rw [readBranches_group rfl (by simp) hrest]
  change readBranches (join.length + 6 + 1) (s 3) [] _ ['$'] = _
  rw [readBranches_single rfl (by decide)]
  change readBranches (join.length + 5 + 1) (s 3) [] _ [] = _
  rw [readBranches_nil]
  simp [pathItem, pathItems, nameItem, restItem, Item.alternate, s, lineStart, lineEnd]

theorem isSmall_patternBelow_iff (hbase : ∀ c ∈ base, isPlain c = true) (hnames : names ≠ []) :
    isSmall (patternBelow base names) = true ↔
      (pathItem base names).expr.weight ≤ weightLimit := by
  obtain ⟨s, hread⟩ := readBranches_patternBelow hbase hnames
  exact isSmall_iff_of_readBranches hread

theorem depth_literalItem_le (t : Text) : (literalItem t).depth ≤ 1 := by
  refine Item.depth_concat_le (d := 0) fun i hi => ?_
  obtain ⟨c, -, rfl⟩ := List.mem_map.1 (List.mem_reverse.1 hi)
  exact le_rfl

theorem depth_pathItem_le (base : Text) (names : List Text) : (pathItem base names).depth ≤ 4 := by
  refine Item.depth_concat_le (d := 3) fun i hi => ?_
  have hnames : (nameItem names).depth ≤ 3 := by
    refine Nat.succ_le_succ (Item.depth_alternate_le (d := 1) fun i hi => ?_)
    obtain ⟨t, -, rfl⟩ := List.mem_map.1 (List.mem_reverse.1 hi)
    exact depth_literalItem_le t
  have hmem := List.mem_reverse.1 hi
  simp only [pathItems, itemsOf, List.mem_cons, List.mem_append, List.mem_map, List.not_mem_nil,
    or_false] at hmem
  rcases hmem with rfl | ⟨c, -, rfl⟩ | rfl | rfl | rfl
  · exact Nat.zero_le 3
  · exact Nat.zero_le 3
  · exact hnames
  · exact le_rfl
  · exact Nat.zero_le 3

/-- The pattern is a regular expression, unless it is too large. -/
theorem parse?_patternBelow (hbase : ∀ c ∈ base, isPlain c = true) (hnames : names ≠ [])
    (hsmall : isSmall (patternBelow base names) = true) :
    parse? false (patternBelow base names) = some (pathItem base names).expr := by
  obtain ⟨s, hread⟩ := readBranches_patternBelow hbase hnames
  exact parse?_of_readBranches hread ((depth_pathItem_le base names).trans (by decide)) hsmall

end PageCache.Tenant
