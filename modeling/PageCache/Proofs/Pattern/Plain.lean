import PageCache.Proofs.Pattern.Search
import PageCache.Proofs.Pattern.Reading.Branch

/-! Patterns of plain characters with gaps between them, up to the end of the value. Such a pattern is
read as it looks, however long it is: no bound is set to the size of an expression here. -/
namespace PageCache.Pattern

/-- Reads a whole text as a regular expression of any size. -/
def expr? (ignoreCase : Bool) (cs : Text) : Option Expr :=
  match Parser.readBranches (cs.length + 1) { flags := { ignoreCase } } [] [] cs with
  | some (item, _, []) => some item.expr
  | _ => none

/-- The pattern is not too large, unless it is no regular expression at all. -/
def isSmall (pattern : Text) : Bool :=
  (expr? false pattern).all fun e => decide (e.weight ≤ weightLimit)

/-- The pattern matches some part of the value, with regard to case. -/
def Finds (pattern value : Text) : Prop :=
  ∃ e, expr? false pattern = some e ∧
    ∃ pre mid post, value = pre ++ (mid ++ post) ∧ e.Matches pre mid post

theorem expr?_of_parse? {ignoreCase : Bool} {cs : Text} {e : Expr}
    (h : parse? ignoreCase cs = some e) : expr? ignoreCase cs = some e := by
  unfold parse? at h
  split at h
  · next item t hread =>
    split at h
    · rwa [expr?, hread]
    · cases h
  · cases h

/-- A pattern that is not too large is found by the search where it matches. -/
theorem finds_iff_found {pattern value : Text} (h : isValid pattern = true) :
    Finds pattern value ↔ found false pattern value = true := by
  obtain ⟨e, he⟩ := Option.isSome_iff_exists.1 h
  rw [found_iff_of_parse? he, Finds, expr?_of_parse? he]
  simp

section

variable {pattern : Text} {i : Item} {s : Parser.State}

theorem isSmall_iff_of_readBranches
    (hread : Parser.readBranches (pattern.length + 1) { flags := { ignoreCase := false } } [] []
      pattern = some (i, s, [])) : isSmall pattern = true ↔ i.expr.weight ≤ weightLimit := by
  simp [isSmall, expr?, hread]

/-- A pattern that is read to its end can be evaluated if it is small and its parts do not nest too
deeply. -/
theorem parse?_of_readBranches
    (hread : Parser.readBranches (pattern.length + 1) { flags := { ignoreCase := false } } [] []
      pattern = some (i, s, [])) (hdepth : i.depth ≤ nestLimit) (hsmall : isSmall pattern = true) :
    parse? false pattern = some i.expr := by
  simp only [parse?, hread]
  rw [if_pos ⟨hdepth, (isSmall_iff_of_readBranches hread).1 hsmall⟩]

end

namespace Item

variable {items : List Item} {d : ℕ}

theorem foldl_max_depth_le {d' : ℕ} (hd' : d' ≤ d) (h : ∀ i ∈ items, i.depth ≤ d) :
    items.foldl (fun d j => Nat.max d j.depth) d' ≤ d := by
  induction items generalizing d' with
  | nil => exact hd'
  | cons i items ih =>
    obtain ⟨hi, hitems⟩ := List.forall_mem_cons.1 h
    exact ih (Nat.max_le.2 ⟨hd', hi⟩) hitems

theorem depth_concat_le (h : ∀ i ∈ items, i.depth ≤ d) : (concat items).depth ≤ d + 1 := by
  match items with
  | [] => exact Nat.zero_le _
  | [i] => exact (h i (by simp)).trans (Nat.le_succ d)
  | i :: j :: is =>
    obtain ⟨hi, his⟩ := List.forall_mem_cons.1 h
    exact Nat.succ_le_succ (foldl_max_depth_le hi his)

theorem depth_alternate_le (h : ∀ i ∈ items, i.depth ≤ d) : (alternate items).depth ≤ d + 1 := by
  match items with
  | [] => exact Nat.zero_le _
  | [i] => exact (h i (by simp)).trans (Nat.le_succ d)
  | i :: j :: is =>
    obtain ⟨hi, his⟩ := List.forall_mem_cons.1 h
    exact Nat.succ_le_succ (foldl_max_depth_le hi his)

end Item

/-- The expressions match neighbouring texts, one after the other. -/
def Sequence : List Expr → Text → Text → Text → Prop
  | [], _, mid, _ => mid = []
  | e :: es, pre, mid, post =>
    ∃ m n, mid = m ++ n ∧ e.Matches pre m (n ++ post) ∧ Sequence es (pre ++ m) n post

theorem sequence_singleton {e : Expr} {pre mid post : Text} :
    Sequence [e] pre mid post ↔ e.Matches pre mid post := by
  simp [Sequence]

theorem sequence_append {es fs : List Expr} {pre mid post : Text} :
    Sequence (es ++ fs) pre mid post ↔
      ∃ m n, mid = m ++ n ∧ Sequence es pre m (n ++ post) ∧ Sequence fs (pre ++ m) n post := by
  induction es generalizing pre mid with
  | nil => simp [Sequence]
  | cons e es ih =>
    simp only [List.cons_append, Sequence, ih]
    constructor
    · rintro ⟨m, -, rfl, he, m', n, rfl, hes, hfs⟩
      exact ⟨m ++ m', n, by simp, ⟨m, m', rfl, by simpa using he, hes⟩, by simpa using hfs⟩
    · rintro ⟨-, n, rfl, ⟨m, m', rfl, he, hes⟩, hfs⟩
      exact ⟨m, m' ++ n, by simp, by simpa using he, m', n, rfl, hes, by simpa using hfs⟩

theorem Item.matches_concat {items : List Item} {pre mid post : Text} :
    (concat items).expr.Matches pre mid post ↔
      Sequence (items.reverse.map (·.expr)) pre mid post := by
  have hfold : ∀ (is : List Item) (e : Expr) (pre mid post : Text),
      (is.foldl (fun e j => .seq j.expr e) e).Matches pre mid post ↔
        Sequence (is.reverse.map (·.expr) ++ [e]) pre mid post := by
    intro is
    induction is with
    | nil => simp [sequence_singleton]
    | cons j is ih =>
      intro e pre mid post
      rw [List.foldl_cons, ih]
      simp only [List.reverse_cons, List.map_append, List.map_cons, List.map_nil, List.append_assoc,
        sequence_append, List.cons_append, List.nil_append, Sequence,
        Expr.matches_seq]
      simp
  match items with
  | [] => simp [concat, Expr.Matches, Sequence]
  | [i] => simp [concat, sequence_singleton]
  | i :: j :: is =>
    simp only [concat, hfold]
    simp

/-- Characters that stand for themselves or, as the dot, for any but a newline. -/
def isPlain (c : Char) : Bool := !(")|(*+?\x7b[\\^$" : Text).contains c

def anyChar : CharClass := .compl (.single '\n')

def plainExpr (c : Char) : Expr := if c = '.' then .one anyChar else .ofChar c

/-- A part of a pattern: characters, or a gap for a text without newlines. -/
inductive Piece where
  | plain (t : Text)
  | gap (lazily : Bool)

namespace Piece

def render : Piece → Text
  | plain t => t
  | gap lazily => if lazily then ".*?" else ".*"

def exprs : Piece → List Expr
  | plain t => t.map plainExpr
  | gap lazily => [.rep (.one anyChar) 0 none !lazily]

/-- The piece is read as it looks. -/
def IsPlain : Piece → Prop
  | plain t => ∀ c ∈ t, isPlain c = true
  | gap _ => True

/-- What the piece may stand for. -/
def Admits : Piece → Text → Prop
  | plain t, v => List.Forall₂ (fun p c => if p = '.' then c ≠ '\n' else c = p) t v
  | gap _, v => '\n' ∉ v

/-- The steps in which the piece is read. -/
def steps : Piece → ℕ
  | plain t => t.length
  | gap _ => 2

theorem admits_plain_self (t : Text) : (plain t).Admits t := by
  refine List.forall₂_same.2 fun c _ => ?_
  split
  · next h =>
    rw [h]
    decide
  · rfl

theorem admits_plain_iff {t v : Text} (h : '.' ∉ t) : (plain t).Admits v ↔ v = t := by
  have hself : ∀ c ∈ t, c ≠ '.' := fun c hc hdot => h (hdot ▸ hc)
  simp only [Admits]
  induction t generalizing v with
  | nil => simp
  | cons c t ih =>
    obtain ⟨hc, ht⟩ := List.forall_mem_cons.1 hself
    simp [List.forall₂_cons_left_iff, hc, ih (fun hdot => ht _ hdot rfl) ht]

theorem mem_of_admits_plain {t v : Text} {c : Char} (h : (plain t).Admits v) (hc : c ∈ t)
    (hdot : c ≠ '.') : c ∈ v := by
  simp only [Admits] at h
  induction h with
  | nil => exact hc
  | @cons p d t v hd _ ih =>
    rcases List.mem_cons.1 hc with rfl | hc
    · rw [if_neg hdot] at hd
      exact hd ▸ List.mem_cons_self
    · exact List.mem_cons_of_mem d (ih hc)

theorem sequence_exprs {p : Piece} {pre mid post : Text} :
    Sequence p.exprs pre mid post ↔ p.Admits mid := by
  cases p with
  | gap lazily =>
    simp only [exprs, sequence_singleton, Admits, Expr.matches_many, anyChar, CharClass.contains]
    constructor
    · intro h hmem
      simpa using h _ hmem
    · rintro h c hc
      have hne : c ≠ '\n' := by
        rintro rfl
        exact h hc
      simpa using hne
  | plain t =>
    simp only [exprs, Admits]
    induction t generalizing pre mid with
    | nil => simp [Sequence]
    | cons c t ih =>
      have hc : ∀ {pre m post : Text}, (plainExpr c).Matches pre m post ↔
          ∃ d, m = [d] ∧ if c = '.' then d ≠ '\n' else d = c := by
        intro pre m post
        unfold plainExpr
        split
        · simp [Expr.matches_one, anyChar, CharClass.contains]
        · simp [Expr.matches_ofChar]
      simp only [List.map_cons, Sequence, ih, hc, List.forall₂_cons_left_iff]
      constructor
      · rintro ⟨-, n, rfl, ⟨d, rfl, hd⟩, hn⟩
        exact ⟨d, n, hd, hn, rfl⟩
      · rintro ⟨d, n, hd, hn, rfl⟩
        exact ⟨[d], n, rfl, ⟨d, rfl, hd⟩, hn⟩

/-- The text of pieces one after the other. -/
def renderAll (ps : List Piece) : Text := ps.flatMap render

theorem renderAll_cons (p : Piece) (ps : List Piece) :
    renderAll (p :: ps) = p.render ++ renderAll ps := List.flatMap_cons

/-- What the pieces may stand for one after the other. -/
def AdmitAll : List Piece → Text → Prop
  | [], v => v = []
  | p :: ps, v => ∃ a b, v = a ++ b ∧ p.Admits a ∧ AdmitAll ps b

theorem admitAll_append {ps qs : List Piece} {v : Text} :
    AdmitAll (ps ++ qs) v ↔ ∃ a b, v = a ++ b ∧ AdmitAll ps a ∧ AdmitAll qs b := by
  induction ps generalizing v with
  | nil => simp [AdmitAll]
  | cons p ps ih =>
    simp only [List.cons_append, AdmitAll, ih]
    constructor
    · rintro ⟨a, -, rfl, ha, a', b, rfl, ha', hb⟩
      exact ⟨a ++ a', b, by simp, ⟨a, a', rfl, ha, ha'⟩, hb⟩
    · rintro ⟨-, b, rfl, ⟨a, a', rfl, ha, ha'⟩, hb⟩
      exact ⟨a, a' ++ b, by simp, ha, a', b, rfl, ha', hb⟩

theorem sequence_flatMap {ps : List Piece} {es : List Expr} {pre mid post : Text} :
    Sequence (ps.flatMap exprs ++ es) pre mid post ↔
      ∃ v n, mid = v ++ n ∧ AdmitAll ps v ∧ Sequence es (pre ++ v) n post := by
  induction ps generalizing pre mid with
  | nil => simp [AdmitAll]
  | cons p ps ih =>
    simp only [List.flatMap_cons, List.append_assoc, sequence_append, ih,
      sequence_exprs, AdmitAll]
    constructor
    · rintro ⟨a, -, rfl, ha, v, n, rfl, hv, hn⟩
      exact ⟨a ++ v, n, by simp, ⟨a, v, rfl, ha, hv⟩, by simpa using hn⟩
    · rintro ⟨-, n, rfl, ⟨a, v, rfl, ha, hv⟩, hn⟩
      exact ⟨a, v ++ n, by simp, ha, v, n, rfl, hv, by simpa using hn⟩

end Piece

namespace Parser

variable {n : ℕ} {s : State} {B I : List Item} {rest : Text}

def plainItem (c : Char) : Item := { expr := plainExpr c, depth := 0 }

/-- The items of a piece. -/
def itemsOf : Piece → List Item
  | .plain t => t.map plainItem
  | .gap lazily => [{ expr := .rep (.one anyChar) 0 none !lazily, depth := 1 }]

theorem map_expr_itemsOf (p : Piece) : (itemsOf p).map (·.expr) = p.exprs := by
  cases p with
  | plain t => simp [itemsOf, plainItem, Piece.exprs]
  | gap lazily => rfl

theorem readBranches_plainChar (hs : s.flags = { ignoreCase := false }) {c : Char}
    (hc : isPlain c = true) :
    readBranches (n + 1) s B I (c :: rest) = readBranches n s B (plainItem c :: I) rest := by
  have hc : c ∉ (")|(*+?\x7b[\\^$" : Text) := by simpa [isPlain] using hc
  have hskip : skip s.flags (c :: rest) = c :: rest := by
    rw [hs]
    rfl
  rw [readBranches_single hskip (fun h => hc (by simp at h ⊢; tauto)), hs]
  have hcaret : c ≠ '^' := by
    rintro rfl
    exact hc (by decide)
  have hdollar : c ≠ '$' := by
    rintro rfl
    exact hc (by decide)
  by_cases hdot : c = '.'
  · simp [single?, hdot, dot, plainItem, plainExpr, anyChar]
  · simp [single?, hdot, hcaret, hdollar, charItem, caseClosed, plainItem, plainExpr, Expr.ofChar]

theorem readBranches_gap {ignoreCase lazily : Bool} (hs : s.flags = { ignoreCase })
    (hrest : lazily = false → rest.head? ≠ some '?') :
    readBranches (n + 2) s B I ((Piece.gap lazily).render ++ rest) =
      readBranches n s B (itemsOf (.gap lazily) ++ I) rest := by
  have hrender : (Piece.gap lazily).render ++ rest =
      '.' :: '*' :: ((if lazily then ['?'] else []) ++ rest) := by cases lazily <;> rfl
  have hskip : ∀ t, skip s.flags ('.' :: t) = '.' :: t := fun t => by
    rw [hs]
    rfl
  have hdot : single? s.flags '.' = some { expr := .one anyChar, depth := 0 } := by
    rw [hs]
    rfl
  rw [hrender, readBranches_single (hskip _) (by decide), hdot, Option.bind_some,
    readBranches_again (.inl rfl), hs]
  cases lazily with
  | true => rfl
  | false =>
    have hhead : (rest.head? == some '?') = false := by simpa using hrest rfl
    simp [repeatLast, hhead, itemsOf]

theorem readBranches_piece (hs : s.flags = { ignoreCase := false }) {p : Piece} (hp : p.IsPlain)
    (hrest : rest.head? ≠ some '?') :
    readBranches (n + p.steps) s B I (p.render ++ rest) =
      readBranches n s B ((itemsOf p).reverse ++ I) rest := by
  cases p with
  | gap lazily => exact readBranches_gap hs fun _ => hrest
  | plain t =>
    induction t generalizing I with
    | nil => rfl
    | cons c t ih =>
      obtain ⟨hc, ht⟩ := List.forall_mem_cons.1 hp
      have h := ih ht (I := plainItem c :: I)
      rw [Piece.steps, List.length_cons, ← Nat.add_assoc, Piece.render, List.cons_append,
        readBranches_plainChar hs hc]
      simpa [Piece.steps, Piece.render, itemsOf] using h

theorem head?_renderAll {ps : List Piece} (h : ∀ p ∈ ps, p.IsPlain) :
    (Piece.renderAll ps ++ "$").head? ≠ some '?' := by
  induction ps with
  | nil => decide
  | cons p ps ih =>
    obtain ⟨hp, hps⟩ := List.forall_mem_cons.1 h
    rw [Piece.renderAll_cons, List.append_assoc]
    cases p with
    | gap lazily => cases lazily <;> simp [Piece.render]
    | plain t =>
      cases t with
      | nil => exact ih hps
      | cons c t =>
        rintro hhead
        obtain rfl : c = '?' := by simpa [Piece.render] using hhead
        exact absurd (hp '?' (by simp)) (by decide)

theorem readBranches_renderAll {ps : List Piece} (h : ∀ p ∈ ps, p.IsPlain) :
    readBranches (n + (ps.map Piece.steps).sum) { flags := { ignoreCase := false } } B I
        (Piece.renderAll ps ++ "$") =
      readBranches n { flags := { ignoreCase := false } } B ((ps.flatMap itemsOf).reverse ++ I) "$" := by
  induction ps generalizing I with
  | nil => rfl
  | cons p ps ih =>
    obtain ⟨hp, hps⟩ := List.forall_mem_cons.1 h
    have hsum : n + ((p :: ps).map Piece.steps).sum = n + (ps.map Piece.steps).sum + p.steps := by
      simp only [List.map_cons, List.sum_cons]
      omega
    rw [hsum, Piece.renderAll_cons, List.append_assoc,
      readBranches_piece rfl hp (head?_renderAll hps), ih hps]
    simp

end Parser

theorem Piece.sum_steps_le (ps : List Piece) : (ps.map steps).sum ≤ (renderAll ps).length := by
  induction ps with
  | nil => rfl
  | cons p ps ih =>
    have hp : p.steps ≤ p.render.length := by
      cases p with
      | plain t => exact le_rfl
      | gap lazily => cases lazily <;> decide
    simp only [renderAll, List.map_cons, List.sum_cons, List.flatMap_cons, List.length_append] at ih ⊢
    omega

/-- A pattern of pieces is found where the value ends with a text that the pieces stand for. -/
theorem finds_renderAll_iff {ps : List Piece} (h : ∀ p ∈ ps, p.IsPlain) {value : Text} :
    Finds (Piece.renderAll ps ++ "$") value ↔ ∃ lead v, value = lead ++ v ∧ Piece.AdmitAll ps v := by
  obtain ⟨k, hk⟩ := Nat.exists_eq_add_of_le (Piece.sum_steps_le ps)
  have hlength : (Piece.renderAll ps ++ ("$" : Text)).length + 1 =
      (k + 2) + (ps.map Piece.steps).sum := by
    simp only [List.length_append, hk]
    change _ + 1 + 1 = _
    omega
  let last : Item := { expr := .look .textEnd, depth := 0 }
  let e : Expr := (Item.concat (last :: (ps.flatMap Parser.itemsOf).reverse)).expr
  have hread : expr? false (Piece.renderAll ps ++ "$") = some e := by
    rw [expr?, hlength, Parser.readBranches_renderAll h, List.append_nil]
    rfl
  have hmatches : ∀ {pre mid post : Text}, e.Matches pre mid post ↔
      Piece.AdmitAll ps mid ∧ post = [] := by
    intro pre mid post
    have hexprs : (last :: (ps.flatMap Parser.itemsOf).reverse).reverse.map (·.expr) =
        ps.flatMap Piece.exprs ++ [.look .textEnd] := by
      simp [last, List.map_flatMap, Parser.map_expr_itemsOf]
    rw [Item.matches_concat, hexprs, Piece.sequence_flatMap]
    simp only [sequence_singleton, Expr.matches_textEnd]
    constructor
    · rintro ⟨v, n, rfl, hv, rfl, rfl⟩
      exact ⟨by simpa using hv, rfl⟩
    · rintro ⟨hv, rfl⟩
      exact ⟨mid, [], by simp, hv, rfl, rfl⟩
  simp only [Finds, hread, Option.some.injEq, exists_eq_left', hmatches]
  constructor
  · rintro ⟨lead, v, -, rfl, hv, rfl⟩
    exact ⟨lead, v, by simp, hv⟩
  · rintro ⟨lead, v, rfl, hv⟩
    exact ⟨lead, v, [], by simp, hv, rfl⟩

end PageCache.Pattern
