import PageCache.Proofs.Pattern.Folded

/-! What a key and a gap make of a value. From the first place of the key on, all of the value is
searched; so a pattern that is meant for what follows the key at once also finds what comes much
later. Main statement: what stands before the first place of the key does not count. -/
namespace PageCache

namespace Text

variable {key a t rest : Text} {sep : Char}

/-- The text from the first place where a key begins in any case, or nothing. -/
def fromFirst (key : Text) : Text → Text
  | [] => []
  | c :: t => if key.lower.isPrefixOf (lower (c :: t)) then c :: t else fromFirst key t

theorem fromFirst_cons_of_begins {c : Char} (h : key.lower <+: lower (c :: t)) :
    fromFirst key (c :: t) = c :: t := if_pos (List.isPrefixOf_iff_prefix.2 h)

theorem fromFirst_cons_of_not_begins {c : Char} (h : ¬ key.lower <+: lower (c :: t)) :
    fromFirst key (c :: t) = fromFirst key t := if_neg (mt List.isPrefixOf_iff_prefix.1 h)

theorem fromFirst_eq_nil (h : ¬ key.lower <:+: lower t) : fromFirst key t = [] := by
  induction t with
  | nil => rfl
  | cons c t ih =>
    have htail : ¬ key.lower <:+: lower t := fun hin => h (hin.trans (List.infix_cons List.infix_rfl))
    exact (fromFirst_cons_of_not_begins (mt List.IsPrefix.isInfix h)).trans (ih htail)

theorem exists_before_fromFirst (key t : Text) : ∃ before, t = before ++ fromFirst key t ∧
    ∀ x k rest, t = x ++ (k ++ rest) → k.lower = key.lower → before <+: x := by
  induction t with
  | nil => exact ⟨[], rfl, fun _ _ _ _ _ => List.nil_prefix⟩
  | cons c t ih =>
    by_cases h : key.lower <+: lower (c :: t)
    · exact ⟨[], by rw [fromFirst_cons_of_begins h]; rfl, fun _ _ _ _ _ => List.nil_prefix⟩
    · obtain ⟨before, ht, hfirst⟩ := ih
      rw [fromFirst_cons_of_not_begins h]
      refine ⟨c :: before, congrArg (c :: ·) ht, fun x k rest hx hk => ?_⟩
      cases x with
      | nil =>
        refine absurd ⟨lower rest, ?_⟩ h
        rw [hx, ← hk]
        simp [lower]
      | cons d x =>
        obtain ⟨rfl, htail⟩ := List.cons.inj hx
        exact List.cons_prefix_cons.2 ⟨rfl, hfirst x k rest htail hk⟩

/-- A beginning without a character ends before it. -/
theorem prefix_of_prefix_append_cons {p u v : Text} {c : Char} (hc : c ∉ p)
    (h : p <+: u ++ c :: v) : p <+: u := by
  rcases List.prefix_or_prefix_of_prefix h (List.prefix_append u (c :: v)) with h' | ⟨w, rfl⟩
  · exact h'
  · cases w with
    | nil => simp
    | cons d w =>
      obtain ⟨rfl, -⟩ := List.cons_prefix_cons.1 ((List.prefix_append_right_inj u).1 h)
      simp at hc

/-- What comes before a separator is left out if the key is not in it. -/
theorem fromFirst_append_sep (hkey : key ≠ []) (hsep : sep.toLower ∉ key.lower)
    (ha : fromFirst key a = []) : fromFirst key (a ++ sep :: rest) = fromFirst key rest := by
  have hcut : ∀ u : Text, key.lower <+: lower (u ++ sep :: rest) → key.lower <+: lower u := by
    intro u h
    refine prefix_of_prefix_append_cons hsep (v := lower rest) ?_
    simpa [lower] using h
  induction a with
  | nil =>
    refine fromFirst_cons_of_not_begins fun h => hkey ?_
    simpa [lower] using hcut [] h
  | cons c a ih =>
    by_cases h : key.lower <+: lower (c :: a)
    · rw [fromFirst_cons_of_begins h] at ha
      cases ha
    · rw [fromFirst_cons_of_not_begins h] at ha
      exact (fromFirst_cons_of_not_begins (mt (hcut (c :: a)) h)).trans (ih ha)

theorem fromFirst_sep_append {sep : Text} (hkey : key ≠ [])
    (hsep : ∀ c ∈ sep, c.toLower ∉ key.lower) :
    fromFirst key (sep ++ rest) = fromFirst key rest := by
  induction sep with
  | nil => rfl
  | cons c sep ih =>
    obtain ⟨hc, hsep⟩ := List.forall_mem_cons.1 hsep
    have hcut : fromFirst key ([] ++ c :: (sep ++ rest)) = fromFirst key (sep ++ rest) :=
      fromFirst_append_sep hkey hc rfl
    exact hcut.trans (ih hsep)

/-- Of texts that are joined, the last one is left if the key is in none of the others. -/
theorem fromFirst_join {sep : Text} (hkey : key ≠ []) (hne : sep ≠ [])
    (hsep : ∀ c ∈ sep, c.toLower ∉ key.lower) {front : List Text}
    (hfront : ∀ a ∈ front, fromFirst key a = []) (last : Text) :
    fromFirst key (join (front ++ [last]) sep) = fromFirst key last := by
  induction front with
  | nil => simp [join]
  | cons a front ih =>
    obtain ⟨ha, hfront⟩ := List.forall_mem_cons.1 hfront
    obtain ⟨c, sep, rfl⟩ := List.exists_cons_of_ne_nil hne
    obtain ⟨hc, hsep'⟩ := List.forall_mem_cons.1 hsep
    have hrest : front ++ [last] ≠ [] := by simp
    have hjoin : join (a :: front ++ [last]) (c :: sep) =
        a ++ c :: (sep ++ join (front ++ [last]) (c :: sep)) := by
      simpa [join] using join_append (List.cons_ne_nil a []) hrest (c :: sep)
    rw [hjoin, fromFirst_append_sep hkey hc ha, fromFirst_sep_append hkey hsep', ih hfront]

end Text

namespace Pattern

variable {key value : Text} {patterns : List Text}

/-- A pattern with a key finds the same in a value and in what is left of it from the first place of
the key on. The other patterns have to be read one after the other. -/
theorem found_keyed_fromFirst (hkey : IsKey key) (hne : key ≠ []) (hpatterns : patterns ≠ [])
    (hturn : readsInTurn patterns = true) :
    found true (keyed key patterns) (Text.fromFirst key value) =
      found true (keyed key patterns) value := by
  cases hcompiles : (parse? true (keyed key patterns)).isSome with
  | false =>
    have hnone : parse? true (keyed key patterns) = none := by
      rwa [← Option.not_isSome_iff_eq_none, Bool.not_eq_true]
    simp [found, hnone]
  | true =>
    obtain ⟨t, ht⟩ := Option.isSome_iff_exists.1 hturn
    obtain ⟨D, hD, hread⟩ := Parser.exists_readsAs_join hpatterns ht
    obtain ⟨before, hvalue, hfirst⟩ := Text.exists_before_fromFirst key value
    have hlast : ∀ {x k gap : Text}, k.lower = key.lower →
        (before ++ (x ++ (k ++ gap))).getLast? = (x ++ (k ++ gap)).getLast? := by
      intro x k gap hk
      refine List.getLast?_append_of_ne_nil before fun hnil => hne ?_
      have hknil : k = [] := (List.append_eq_nil_iff.1 (List.append_eq_nil_iff.1 hnil).2).1
      rw [hknil] at hk
      simpa [Text.lower] using hk.symm
    rw [Bool.eq_iff_iff, found_keyed_iff hkey hD hread hcompiles,
      found_keyed_iff hkey hD hread hcompiles]
    constructor
    · rintro ⟨pre, k, gap, mid, post, hpart, hk, hgap, i, hi, hmatches⟩
      refine ⟨before ++ pre, k, gap, mid, post, ?_, hk, hgap, i, hi,
        hmatches.of_getLast?_eq ?_⟩
      · rw [hpart] at hvalue
        rw [hvalue, List.append_assoc]
      · rw [List.append_assoc, hlast hk]
    · rintro ⟨pre, k, gap, mid, post, rfl, hk, hgap, i, hi, hmatches⟩
      obtain ⟨pre, rfl⟩ := hfirst pre k _ rfl hk
      refine ⟨pre, k, gap, mid, post, ?_, hk, hgap, i, hi, hmatches.of_getLast?_eq ?_⟩
      · refine (List.append_cancel_left ((List.append_assoc before pre _).symm.trans hvalue)).symm
      · rw [List.append_assoc, hlast hk]

end Pattern
end PageCache
