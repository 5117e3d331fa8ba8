import PageCache.Proofs.Pattern.Captures
import PageCache.Proofs.Pattern.Quoted
import PageCache.Proofs.Text.Occurrence

/-! Which match is preferred. A group that several threads enter is left at a position by the thread
of the first one that leads there, and an alternation of texts is left in the order of the texts. So
of the texts after which a pattern goes on to the end, the first one is captured. -/
namespace PageCache.Pattern

namespace Thread

variable {f : Thread → List Thread} {seen : Positions} {ts : List Thread} {u v : Thread}

/-- Threads at different positions that have not been seen are all kept. -/
theorem unseen_eq_self (hn : (ts.map pos).Nodup) (h : ∀ u ∈ ts, seen.has u.pos = false) :
    (unseen seen ts).1 = ts := by
  induction ts generalizing seen with
  | nil => rfl
  | cons u ts ih =>
    obtain ⟨hu, hts⟩ := List.forall_mem_cons.1 h
    obtain ⟨hnew, hn⟩ := List.nodup_cons.1 hn
    have hrest : ∀ w ∈ ts, (seen.add u.pos).has w.pos = false := by
      intro w hw
      have hne : u.pos ≠ w.pos := fun he => hnew (he ▸ List.mem_map_of_mem hw)
      simp [hts w hw, hne]
    simp [unseen, hu, ih hn hrest]

theorem gather_singleton (hn : ((f u).map pos).Nodup) : gather f [u] = f u := by
  simp [gather, gatherFrom, unseen_eq_self hn]

theorem exists_first_of_mem_gatherFrom (h : v ∈ gatherFrom f seen ts) :
    ∃ us u ws, ts = us ++ u :: ws ∧ v ∈ f u ∧ ∀ w ∈ us, ∀ x ∈ f w, x.pos ≠ v.pos := by
  induction ts generalizing seen with
  | nil => simp [gatherFrom] at h
  | cons t ts ih =>
    rcases List.mem_append.1 h with h | h
    · exact ⟨[], t, ts, rfl, mem_of_mem_unseen h, by simp⟩
    · have hseen := (nodup_gatherFrom (unseen seen (f t)).2 ts).2 v h
      rw [(unseen_eq seen (f t)).2, Cursor.has_unseen_eq_false] at hseen
      obtain ⟨us, u, ws, rfl, hv, hus⟩ := ih h
      refine ⟨t :: us, u, ws, rfl, hv, List.forall_mem_cons.2 ⟨fun x hx he => ?_, hus⟩⟩
      exact hseen.2 ⟨x.cursor, List.mem_map_of_mem hx, he⟩

/-- The threads behind the texts that come next, in the order of the texts. -/
def behind (ts : List Text) (pre rest : Text) (gs : List (ℕ × Span)) : List Thread :=
  ts.filterMap fun t => (rest.stripPrefix? t).map fun post => ⟨.between (pre ++ t) post, gs⟩

variable {texts : List Text} {pre rest : Text} {gs : List (ℕ × Span)}

theorem nodup_behind (h : texts.Nodup) : ((behind texts pre rest gs).map pos).Nodup := by
  rw [behind, List.Nodup, List.pairwise_map, List.pairwise_filterMap]
  refine h.imp fun {t t'} hne u hu v hv he => hne ?_
  obtain ⟨post, hpost, rfl⟩ := Option.map_eq_some_iff.1 hu
  obtain ⟨post', hpost', rfl⟩ := Option.map_eq_some_iff.1 hv
  have hlength : t.length = t'.length := by simpa [pos, Cursor.between] using he
  have hrest := (Text.stripPrefix?_eq_some_iff.1 hpost).symm.trans
    (Text.stripPrefix?_eq_some_iff.1 hpost')
  exact (List.append_inj hrest hlength).1

end Thread

/-- Where no more rounds are allowed, all visits leave. -/
theorem exploreUpTo_of_forall {body : Thread → List Thread} {greedy : Bool} {width : ℕ}
    {visits : List (Option ℕ × Thread)} (h : ∀ v ∈ visits, v.1 = none ∨ v.1 = some 0) {fuel : ℕ}
    (hfuel : visits.length ≤ fuel) (seen : Positions) :
    exploreUpTo body greedy width fuel visits seen = visits.map (·.2) := by
  induction visits generalizing fuel with
  | nil => cases fuel <;> rfl
  | cons v visits ih =>
    obtain ⟨hv, hvisits⟩ := List.forall_mem_cons.1 h
    obtain ⟨fuel, rfl⟩ := Nat.exists_eq_add_of_le' (Nat.zero_lt_of_lt hfuel)
    have hrest := ih hvisits (Nat.le_of_succ_le_succ hfuel)
    obtain ⟨rounds, u⟩ := v
    rcases hv with rfl | rfl <;> simp [exploreUpTo, hrest]

theorem exploreUpTo_once (body : Thread → List Thread) {u : Thread} {fuel : ℕ}
    (hfuel : (body u).length + 2 ≤ fuel) (width : ℕ) :
    exploreUpTo body true width fuel [(some 1, u)] 0 = body u ++ [u] := by
  obtain ⟨fuel, rfl⟩ := Nat.exists_eq_add_of_le' (Nat.zero_lt_of_lt hfuel)
  have hvisits : ∀ v ∈ (body u).map (fun v => (some 0, v)) ++ [(none, u)],
      v.1 = none ∨ v.1 = some 0 := by
    simp only [List.mem_append, List.mem_map, List.mem_singleton]
    rintro v (⟨w, -, rfl⟩ | rfl)
    · exact .inr rfl
    · exact .inl rfl
  have hlength : ((body u).map (fun v => (some 0, v)) ++ [(none, u)]).length ≤ fuel := by
    simp only [List.length_append, List.length_map, List.length_singleton]
    omega
  simp only [exploreUpTo, Positions.has_zero, if_true, List.append_nil]
  rw [if_neg (by simp), exploreUpTo_of_forall hvisits hlength]
  simp

namespace Expr

/-- The threads that expressions leave behind one after the other. -/
def runAll (es : List Expr) (ts : List Thread) : List Thread := es.foldl (fun ts e => e.run ts) ts

variable {pre rest : Text} {gs : List (ℕ × Span)}

theorem runAll_append (es fs : List Expr) (ts : List Thread) :
    runAll (es ++ fs) ts = runAll fs (runAll es ts) := List.foldl_append

theorem run_one_cons (cls : CharClass) (c : Char) :
    (one cls).run [⟨.between pre (c :: rest), gs⟩] =
      if cls.contains c then [⟨.between (pre ++ [c]) rest, gs⟩] else [] := by
  rw [← Cursor.next_between]
  simp only [run, Thread.step, Cursor.between, List.filterMap_cons, List.filterMap_nil]
  split <;> simp_all

theorem runAll_plain {t v : Text} (h : (Piece.plain t).Admits v) (pre post : Text)
    (gs : List (ℕ × Span)) :
    runAll (Piece.plain t).exprs [⟨.between pre (v ++ post), gs⟩] =
      [⟨.between (pre ++ v) post, gs⟩] := by
  rw [Piece.exprs]
  induction h generalizing pre with
  | nil => simp [runAll]
  | @cons p c t v hc _ ih =>
    have hstep : (plainExpr p).run [⟨.between pre (c :: (v ++ post)), gs⟩] =
        [⟨.between (pre ++ [c]) (v ++ post), gs⟩] := by
      unfold plainExpr
      split
      · next hdot => simp_all [run_one_cons, anyChar, CharClass.contains]
      · next hdot => simp_all [ofChar, run_one_cons, CharClass.contains]
    have hrest := ih (pre ++ [c])
    simp only [runAll, List.map_cons, List.foldl_cons, List.cons_append, hstep] at hrest ⊢
    rw [hrest, List.append_assoc, List.singleton_append]

theorem runAll_chars_nil (t : Text) : runAll (t.map ofChar) [] = [] := by
  induction t with
  | nil => rfl
  | cons c t ih => exact ih

theorem runAll_chars (t pre rest : Text) (gs : List (ℕ × Span)) :
    runAll (t.map ofChar) [⟨.between pre rest, gs⟩] = Thread.behind [t] pre rest gs := by
  induction t generalizing pre rest with
  | nil => simp [runAll, Thread.behind, Text.stripPrefix?]
  | cons c t ih =>
    change runAll (t.map ofChar) ((ofChar c).run _) = _
    cases rest with
    | nil =>
      have hstep : (ofChar c).run [⟨.between pre [], gs⟩] = [] := rfl
      rw [hstep, runAll_chars_nil]
      simp [Thread.behind, Text.stripPrefix?]
    | cons d rest =>
      rw [ofChar, run_one_cons]
      by_cases hd : d = c
      · subst hd
        simp only [CharClass.contains, beq_self_eq_true, if_true, ih, Thread.behind,
          List.filterMap_cons, List.filterMap_nil, Text.stripPrefix?]
        simp
      · have hcontains : (CharClass.single c).contains d = false := by
          simpa [CharClass.contains] using hd
        rw [hcontains, if_neg (by simp), runAll_chars_nil]
        simp [Thread.behind, Text.stripPrefix?, hd]

end Expr

namespace Item

theorem run_concat (items : List Item) (ts : List Thread) :
    (concat items).expr.run ts = Expr.runAll (items.reverse.map (·.expr)) ts := by
  have hfold : ∀ (is : List Item) (e : Expr) (ts : List Thread),
      (is.foldl (fun e j => .seq j.expr e) e).run ts =
        e.run (Expr.runAll (is.reverse.map (·.expr)) ts) := by
    intro is
    induction is with
    | nil => simp [Expr.runAll]
    | cons j is ih =>
      intro e ts
      rw [List.foldl_cons, ih, List.reverse_cons, List.map_append, Expr.runAll_append]
      rfl
  match items with
  | [] => simp [concat, Expr.run, Expr.runAll]
  | [i] => simp [concat, Expr.runAll]
  | i :: j :: is =>
    have hreverse : (i :: j :: is).reverse = (j :: is).reverse ++ [i] := List.reverse_cons
    simp only [concat, hfold]
    rw [hreverse, List.map_append, Expr.runAll_append]
    rfl

theorem expr_alternate_concat {items : List Item} (h : items ≠ []) (i : Item) :
    (alternate (items ++ [i])).expr = .alt i.expr (alternate items).expr := by
  match items with
  | [j] => rfl
  | j :: k :: is => simp [alternate]

end Item

namespace Expr

variable {texts : List Text}

theorem run_literalItem (t pre rest : Text) (gs : List (ℕ × Span)) :
    (Parser.literalItem t).expr.run [⟨.between pre rest, gs⟩] = Thread.behind [t] pre rest gs := by
  have hexprs : ((Parser.literalItems t).reverse.reverse.map (·.expr)) = t.map ofChar := by
    simp [Parser.literalItems]
  rw [Parser.literalItem, Item.run_concat, hexprs, runAll_chars]

/-- An alternation of texts leaves the texts that come next, in their order. -/
theorem run_alternate_literals (hne : texts ≠ []) (hn : texts.Nodup) (pre rest : Text)
    (gs : List (ℕ × Span)) :
    (Item.alternate (texts.map Parser.literalItem).reverse).expr.run [⟨.between pre rest, gs⟩] =
      Thread.behind texts pre rest gs := by
  induction texts with
  | nil => exact absurd rfl hne
  | cons t texts ih =>
    rcases eq_or_ne texts [] with rfl | htexts
    · exact run_literalItem t pre rest gs
    · have hbehind : Thread.behind [t] pre rest gs ++ Thread.behind texts pre rest gs =
          Thread.behind (t :: texts) pre rest gs := List.filterMap_append.symm
      rw [List.map_cons, List.reverse_cons, Item.expr_alternate_concat (by simpa using htexts), run,
        Thread.gather_singleton] <;>
        rw [run_literalItem, ih htexts (List.nodup_cons.1 hn).2, hbehind]
      exact Thread.nodup_behind hn

theorem run_group {i : ℕ} {a : Expr} {u : Thread} (h : ((a.run [u]).map Thread.pos).Nodup) :
    (group i a).run [u] = (a.run [u]).map fun v => u.capture i v := by
  refine Thread.gather_singleton ?_
  rwa [List.map_map]

theorem run_optional {a : Expr} {t : Text} {u : Thread} (hu : u.cursor.In t)
    (hn : ((a.run [u] ++ [u]).map Thread.pos).Nodup) :
    (rep a 0 (some 1) true).run [u] = a.run [u] ++ [u] := by
  have hin : ∀ v ∈ [u], v.cursor.In t := by simpa using hu
  have hlength : (a.run [u]).length ≤ t.length + 1 := by
    refine length_le_of_nodup_pos (t := t) ?_ ?_
    · exact (a.traces_run t).forall_in (leads_forward a t) hin (by simp)
    · exact (a.traces_run t).nodup _ hin (by simp)
  have hsize : positions [u] = t.length + 1 := positions_eq hin (by simp)
  have hfuel : (a.run [u]).length + 2 ≤ 1 + 1 * (t.length + 1) * (t.length + 1 + 1) + 1 := by
    nlinarith
  have hexplore := exploreUpTo_once (fun v => a.run [v]) hfuel (t.length + 1)
  simp only [run, repeated, hsize, rounds, List.length_singleton, List.map_singleton, Nat.sub_zero,
    hexplore]
  exact Thread.unseen_eq_self hn fun _ _ => Positions.has_zero _

theorem isSome_before_of_mem_suffixes {p : ℕ} {c : Char} {t : Text} {k : Cursor}
    (h : k ∈ Cursor.suffixes p (some c) t) : k.before.isSome := by
  induction t generalizing p c with
  | nil =>
    obtain rfl := List.mem_singleton.1 h
    rfl
  | cons d t ih =>
    rcases List.mem_cons.1 h with rfl | h
    · rfl
    · exact ih h

theorem run_textStart (t : Text) :
    (look .textStart).run ((Cursor.suffixes 0 none t).map fun k => ⟨k, []⟩) =
      [⟨.between [] t, []⟩] := by
  cases t with
  | nil => rfl
  | cons c t =>
    have hrest : ∀ u ∈ (Cursor.suffixes 1 (some c) t).map fun k => (⟨k, []⟩ : Thread),
        ¬ u.cursor.satisfies .textStart = true := by
      intro u hu
      obtain ⟨k, hk, rfl⟩ := List.mem_map.1 hu
      obtain ⟨b, hb⟩ := Option.isSome_iff_exists.1 (isSome_before_of_mem_suffixes hk)
      simp [Cursor.satisfies, Look.holds, hb]
    rw [run, Cursor.suffixes, List.map_cons, List.filter_cons_of_pos (by rfl),
      List.filter_eq_nil_iff.2 hrest]
    rfl

end Expr
end PageCache.Pattern
