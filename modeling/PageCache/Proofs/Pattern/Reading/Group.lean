import PageCache.Proofs.Pattern.Reading.Local

/-! Reading the bounds of repetitions and the beginnings of groups. -/
namespace PageCache.Pattern.Parser

section
variable {flags : Flags} {u r : Text}

theorem exists_of_dropSpaces (h : u.dropWhile Text.isSpace = r) :
    ∃ b, u = b ++ r ∧ ∀ r', Agree r r' → (b ++ r').dropWhile Text.isSpace = r' := by
  refine ⟨u.takeWhile Text.isSpace, by rw [← h, List.takeWhile_append_dropWhile], fun r' hr => ?_⟩
  cases r with
  | nil => exact absurd hr Agree.not_nil
  | cons c t =>
    have hc : Text.isSpace c = false := by
      simpa [h] using List.head?_dropWhile_not Text.isSpace u
    obtain ⟨d, t', rfl, hd⟩ := hr.exists_head_of hc fun d hd => hd.isSolid.2
    rw [List.dropWhile_append_of_pos fun c hc => List.mem_takeWhile_imp hc]
    simp [hd]

theorem reads_finish {n? : Option ℕ} {n : ℕ} (h : readDecimal.finish flags n? u = some (n, r)) :
    Reads (fun _ => readDecimal.finish flags n?) u n r := by
  obtain ⟨m, rfl, h⟩ := Option.bind_eq_some_iff.1 h
  obtain ⟨hm, h⟩ := Option.ite_none_right_eq_some.1 h
  obtain ⟨rfl, hskip⟩ := Prod.mk.inj (Option.some.inj h)
  obtain ⟨b', hb', he'⟩ := exists_of_skip hskip
  obtain ⟨b, rfl, he⟩ := exists_of_dropSpaces hb'
  refine ⟨b ++ b', by simp, fun r' k hr _ => ?_⟩
  simp only [List.append_assoc, readDecimal.finish, he _ (hr.append b'), he' r' hr]
  exact if_pos hm

theorem reads_digits {k : ℕ} {n? : Option ℕ} {n : ℕ}
    (h : readDecimal.digits flags k n? u = some (n, r)) :
    Reads (fun k => readDecimal.digits flags k n?) u n r := by
  induction k generalizing n? u with
  | zero => cases h
  | succ k ih =>
    cases u with
    | nil =>
      obtain ⟨a, ha, -⟩ := reads_finish (by simpa only [readDecimal.digits] using h)
      obtain ⟨rfl, rfl⟩ := List.append_eq_nil_iff.1 ha.symm
      exact ⟨[], rfl, fun r' _ hr _ => absurd hr Agree.not_nil⟩
    | cons c cs =>
      simp only [readDecimal.digits] at h
      split at h
      · next hc =>
        refine ((ih h).skip fun _ _ => rfl).cons fun _ t => ?_
        simp only [readDecimal.digits, if_pos hc]
      · next hc =>
        refine (reads_finish h).head_map (P := fun d => ¬d.isDigit = true) hc ?_ ?_
        · intro d hd
          rcases hd with rfl | rfl <;> decide
        · intro _ d t r hd ht
          simp only [readDecimal.digits, if_neg hd]
          exact ht

theorem reads_readDecimal {n : ℕ} (h : readDecimal flags u = some (n, r)) :
    ∃ a, u = a ++ r ∧ ∀ r', Agree r r' → readDecimal flags (a ++ r') = some (n, r') := by
  obtain ⟨a, ha, hread⟩ := reads_digits h
  obtain ⟨b, rfl, hb⟩ := exists_of_dropSpaces ha
  refine ⟨b ++ a, by simp, fun r' hr => ?_⟩
  rw [List.append_assoc, readDecimal, hb _ (hr.append a)]
  exact hread r' _ hr (by simp only [List.length_append]; omega)

theorem readBounds_exact {min : ℕ} (h : readDecimal flags (skip flags u) = some (min, '\x7d' :: r)) :
    readBounds flags u = some (min, some min, r) := by
  simp [readBounds, h]

theorem readBounds_from {min : ℕ} {s : Text}
    (h : readDecimal flags (skip flags u) = some (min, ',' :: s)) (hs : skip flags s = '\x7d' :: r) :
    readBounds flags u = some (min, none, r) := by
  simp [readBounds, h, hs]

theorem readBounds_between {min max : ℕ} {s : Text}
    (h : readDecimal flags (skip flags u) = some (min, ',' :: s))
    (hs : (skip flags s).head? ≠ some '\x7d')
    (hmax : readDecimal flags (skip flags s) = some (max, '\x7d' :: r)) (hle : min ≤ max) :
    readBounds flags u = some (min, some max, r) := by
  simp only [readBounds, h, Option.bind_eq_bind, Option.bind_some]
  split
  · next heq => simp [heq] at hs
  · simp [hmax, hle]

/-- A number after what is skipped is a part of the text, whatever agrees with the rest. -/
theorem reads_skip_readDecimal {n : ℕ} (h : readDecimal flags (skip flags u) = some (n, r)) :
    ∃ b a, u = b ++ (a ++ r) ∧ skip flags u = a ++ r ∧
      ∀ r', Agree r r' → readDecimal flags (skip flags (b ++ (a ++ r'))) = some (n, r') := by
  obtain ⟨a, ha, hread⟩ := reads_readDecimal h
  obtain ⟨b, rfl, hb⟩ := skip_append ha
  exact ⟨b, a, rfl, ha, fun r' hr => (congrArg (readDecimal flags) (hb r' hr)).trans (hread r' hr)⟩

/-- The bounds of a repetition are a part of the text, whatever agrees with the rest; what is skipped
in front of them does not reach beyond them. -/
structure BoundsRead (flags : Flags) (u : Text) (min : ℕ) (max : Option ℕ) (r : Text) : Prop where
  reads : ∃ a, u = a ++ r ∧ ∀ r', Agree r r' → readBounds flags (a ++ r') = some (min, max, r')
  skipped : ∃ b, skip flags u = b ++ r

theorem boundsRead_exact {min : ℕ}
    (h : readDecimal flags (skip flags u) = some (min, '\x7d' :: r)) :
    BoundsRead flags u min (some min) r := by
  obtain ⟨b, a, rfl, ha, hread⟩ := reads_skip_readDecimal h
  refine ⟨⟨b ++ (a ++ ['\x7d']), by simp, fun r' hr => ?_⟩, a ++ ['\x7d'], by simpa using ha⟩
  exact readBounds_exact (by simpa using hread _ (.cons _ hr))

theorem boundsRead_from {min : ℕ} {s : Text}
    (h : readDecimal flags (skip flags u) = some (min, ',' :: s)) (hs : skip flags s = '\x7d' :: r) :
    BoundsRead flags u min none r := by
  obtain ⟨b, a, rfl, ha, hread⟩ := reads_skip_readDecimal h
  obtain ⟨e, rfl, he⟩ := exists_of_skip hs
  refine ⟨⟨b ++ (a ++ ',' :: (e ++ ['\x7d'])), by simp, fun r' hr => ?_⟩,
    a ++ ',' :: (e ++ ['\x7d']), by simpa using ha⟩
  have hclose : Agree ('\x7d' :: r) ('\x7d' :: r') := .cons _ hr
  exact readBounds_from (by simpa using hread _ (.cons _ (hclose.append e))) (he _ hclose)

theorem boundsRead_between {min max : ℕ} {s : Text}
    (h : readDecimal flags (skip flags u) = some (min, ',' :: s))
    (hs : (skip flags s).head? ≠ some '\x7d')
    (hmax : readDecimal flags (skip flags s) = some (max, '\x7d' :: r)) (hle : min ≤ max) :
    BoundsRead flags u min (some max) r := by
  obtain ⟨b, a, rfl, ha, hread⟩ := reads_skip_readDecimal h
  obtain ⟨c, hc, hread'⟩ := reads_readDecimal hmax
  obtain ⟨e, rfl, he⟩ := exists_of_skip hc
  refine ⟨⟨b ++ (a ++ ',' :: (e ++ (c ++ ['\x7d']))), by simp, fun r' hr => ?_⟩,
    a ++ ',' :: (e ++ (c ++ ['\x7d'])), by simpa using ha⟩
  have hclose : Agree ('\x7d' :: r) ('\x7d' :: r') := .cons _ hr
  have hnumber : Agree (c ++ '\x7d' :: r) (c ++ '\x7d' :: r') := hclose.append c
  have hskip : skip flags (e ++ (c ++ '\x7d' :: r')) = c ++ '\x7d' :: r' := he _ hnumber
  rw [hc] at hs
  refine readBounds_between (by simpa using hread _ (.cons _ (hnumber.append e))) ?_ ?_ hle
  · rw [hskip]
    exact hnumber.head?_ne (by decide) hs
  · rw [hskip]
    exact hread' _ hclose

theorem boundsRead_of_readBounds {min : ℕ} {max : Option ℕ}
    (h : readBounds flags u = some (min, max, r)) : BoundsRead flags u min max r := by
  obtain ⟨⟨m, rest⟩, hmin, hrest⟩ := Option.bind_eq_some_iff.1 h
  dsimp only at hrest
  split at hrest
  · cases hrest
    exact boundsRead_exact hmin
  · next s =>
    split at hrest
    · next hs =>
      cases hrest
      exact boundsRead_from hmin hs
    · next hs =>
      obtain ⟨⟨n, rest'⟩, hmax, hrest⟩ := Option.bind_eq_some_iff.1 hrest
      dsimp only at hrest
      split at hrest
      · obtain ⟨hle, hrest⟩ := Option.ite_none_right_eq_some.1 hrest
        cases hrest
        refine boundsRead_between hmin (fun hhead => ?_) hmax hle
        obtain ⟨t, ht⟩ := List.head?_eq_some_iff.1 hhead
        exact hs t ht
      · cases hrest
  · cases hrest

theorem reads_repeatLast {items items' : List Item} {min : ℕ} {max : Option ℕ}
    (h : repeatLast flags items min max u = some (items', r)) :
    ∃ a, u = a ++ r ∧ ∀ r', Agree r r' →
      repeatLast flags items min max (a ++ r') = some (items', r') := by
  cases items with
  | nil => cases h
  | cons i is =>
    rw [repeatLast] at h
    obtain ⟨hi, h⟩ := Option.ite_none_right_eq_some.1 h
    by_cases hlazy : u.head? = some '?'
    · obtain ⟨t, rfl⟩ := List.head?_eq_some_iff.1 hlazy
      obtain ⟨rfl, rfl⟩ := Prod.mk.inj (Option.some.inj h)
      exact ⟨['?'], rfl, fun r' _ => by rw [repeatLast, if_pos hi]; rfl⟩
    · have hne : ∀ t : Text, t.head? ≠ some '?' → (t.head? == some '?') = false :=
        fun t => beq_eq_false_iff_ne.2
      rw [hne u hlazy] at h
      obtain ⟨rfl, rfl⟩ := Prod.mk.inj (Option.some.inj h)
      refine ⟨[], rfl, fun r' hr => ?_⟩
      rw [List.nil_append, repeatLast, if_pos hi, hne r' (hr.head?_ne (by decide) hlazy)]
      rfl

end

section
variable {flags : Flags} {u r : Text}

theorem reads_readFlags {seen : Text} {flags' : Flags} {isGroup : Bool}
    (h : readFlags flags seen u = some (flags', isGroup, r)) :
    ∃ a, a ≠ [] ∧ u = a ++ r ∧ ∀ r', readFlags flags seen (a ++ r') = some (flags', isGroup, r') := by
  induction u generalizing flags seen with
  | nil => cases h
  | cons c u ih =>
    by_cases hcolon : c = ':'
    · subst hcolon
      rw [readFlags] at h
      split at h
      · cases h
      · next hseen =>
        cases h
        refine ⟨[':'], by simp, rfl, fun r' => ?_⟩
        rw [List.singleton_append, readFlags, if_neg hseen]
    by_cases hclose : c = ')'
    · subst hclose
      rw [readFlags] at h
      split at h
      · cases h
      · next hseen =>
        cases h
        refine ⟨[')'], by simp, rfl, fun r' => ?_⟩
        rw [List.singleton_append, readFlags, if_neg hseen]
    · rw [readFlags.eq_4 _ _ _ _ hcolon hclose] at h
      have hstep : ∀ t, readFlags flags seen (c :: t) = _ := fun t =>
        readFlags.eq_4 flags seen c t hcolon hclose
      split at h
      · cases h
      · next hseen =>
        split at h
        · next hhyphen =>
          obtain ⟨a, -, rfl, hread⟩ := ih h
          refine ⟨c :: a, by simp, rfl, fun r' => ?_⟩
          rw [List.cons_append, hstep, if_neg hseen, if_pos hhyphen, hread]
        · next hhyphen =>
          split at h
          · next hflag =>
            obtain ⟨a, -, rfl, hread⟩ := ih h
            refine ⟨c :: a, by simp, rfl, fun r' => ?_⟩
            simp only [List.cons_append, hstep, if_neg hseen, if_neg hhyphen, hflag, hread]
          · cases h

theorem readFlags_none {seen : Text} {c : Char} (hc : c ∈ ['=', '!', '<', 'P']) (t : Text) :
    readFlags flags seen (c :: t) = none := by
  simp only [List.mem_cons, List.not_mem_nil, or_false] at hc
  rcases hc with rfl | rfl | rfl | rfl <;> simp [readFlags, setFlag]

theorem readGroupName_eq_some_iff {name : Text} : readGroupName u = some (name, r) ↔
    ∃ c t, name = c :: t ∧ '>' ∉ name ∧ (isNameStart c && t.all isNameRest) = true ∧
      u = name ++ '>' :: r := by
  constructor
  · intro h
    simp only [readGroupName] at h
    split at h
    · next c t rest htake hdrop =>
      obtain ⟨hname, h⟩ := Option.ite_none_right_eq_some.1 h
      cases h
      refine ⟨c, t, htake, fun hclose => ?_, hname, ?_⟩
      · simpa using List.mem_takeWhile_imp hclose
      · rw [← hdrop, List.takeWhile_append_dropWhile]
    · cases h
  · rintro ⟨c, t, rfl, hclose, hname, rfl⟩
    have hall : ∀ d ∈ c :: t, (d != '>') = true := fun d hd =>
      bne_iff_ne.2 fun heq => hclose (heq ▸ hd)
    simp only [readGroupName]
    rw [List.takeWhile_append_of_pos hall, List.dropWhile_append_of_pos hall]
    simpa using hname

theorem reads_readGroupName {name : Text} (h : readGroupName u = some (name, r)) :
    ∃ c a, isNameStart c = true ∧ u = c :: a ++ r ∧
      ∀ r', readGroupName (c :: a ++ r') = some (name, r') := by
  obtain ⟨c, t, rfl, hclose, hname, rfl⟩ := readGroupName_eq_some_iff.1 h
  refine ⟨c, t ++ ['>'], (Bool.and_eq_true_iff.1 hname).1, by simp, fun r' => ?_⟩
  exact readGroupName_eq_some_iff.2 ⟨c, t, rfl, hclose, hname, by simp⟩

theorem readOpening_named {s : Text} {name : Text}
    (hskip : skip flags u = '?' :: 'P' :: '<' :: s ∨ skip flags u = '?' :: '<' :: s)
    (h : readGroupName s = some (name, r)) : readOpening flags u = some (.capture (some name), r) := by
  rcases hskip with hskip | hskip
  · simp [readOpening, hskip, h]
  · obtain ⟨c, a, hc, rfl, -⟩ := reads_readGroupName h
    have hne : c ≠ '=' ∧ c ≠ '!' := by
      constructor <;> rintro rfl <;> revert hc <;> decide
    simp only [readOpening, hskip]
    split
    case h_7 hnamed heq => exact absurd (List.cons.inj heq).2.symm (hnamed _)
    all_goals simp_all

theorem readOpening_flags {s : Text} {flags' : Flags} {isGroup : Bool}
    (hskip : skip flags u = '?' :: s) (h : readFlags flags [] s = some (flags', isGroup, r)) :
    readOpening flags u = some (if isGroup then .plain flags' else .flags flags', r) := by
  have hne : ∀ c ∈ ['=', '!', '<', 'P'], ∀ t, s ≠ c :: t := by
    rintro c hc t rfl
    rw [readFlags_none hc] at h
    cases h
  simp only [readOpening, hskip]
  cases isGroup <;> split <;> simp_all

theorem readOpening_plain (hskip : (skip flags u).head? ≠ some '?') :
    readOpening flags u = some (.capture none, skip flags u) := by
  unfold readOpening
  split <;> simp_all

theorem reads_readOpening_named {front s : Text} {name : Text}
    (hfront : front = ['?', 'P', '<'] ∨ front = ['?', '<']) (hskip : skip flags u = front ++ s)
    (h : readGroupName s = some (name, r)) :
    ∃ a, u = a ++ r ∧
      ∀ r', Agree r r' → readOpening flags (a ++ r') = some (.capture (some name), r') := by
  obtain ⟨c, a, -, rfl, hread⟩ := reads_readGroupName h
  obtain ⟨b, rfl, hb⟩ := skip_append (a := front ++ c :: a) (by simpa using hskip)
  refine ⟨b ++ (front ++ c :: a), by simp, fun r' hr => readOpening_named ?_ (hread r')⟩
  have hskip' := hb r' hr
  rcases hfront with rfl | rfl
  · exact .inl (by simpa using hskip')
  · exact .inr (by simpa using hskip')

theorem reads_readOpening {o : Opening} (h : readOpening flags u = some (o, r)) :
    ∃ a, u = a ++ r ∧ ∀ r', Agree r r' → readOpening flags (a ++ r') = some (o, r') := by
  by_cases hhead : (skip flags u).head? = some '?'
  · unfold readOpening at h
    split at h
    · cases h
    · cases h
    · cases h
    · cases h
    · next s hskip =>
      obtain ⟨⟨name, q⟩, hname, h⟩ := Option.map_eq_some_iff.1 h
      cases h
      exact reads_readOpening_named (.inl rfl) hskip hname
    · next s _ _ hskip =>
      obtain ⟨⟨name, q⟩, hname, h⟩ := Option.map_eq_some_iff.1 h
      cases h
      exact reads_readOpening_named (.inr rfl) hskip hname
    · next s _ _ _ _ hskip =>
      obtain ⟨⟨flags', isGroup, q⟩, hflags, h⟩ := Option.map_eq_some_iff.1 h
      cases h
      obtain ⟨a, -, rfl, hread⟩ := reads_readFlags hflags
      obtain ⟨b, rfl, hb⟩ := skip_append (a := '?' :: a) hskip
      refine ⟨b ++ '?' :: a, by simp, fun r' hr => ?_⟩
      refine readOpening_flags ?_ (hread r')
      simpa using hb r' hr
    · next hquestion =>
      obtain ⟨s, hskip⟩ := List.head?_eq_some_iff.1 hhead
      exact absurd hskip (hquestion s)
  · rw [readOpening_plain hhead] at h
    obtain ⟨rfl, rfl⟩ := Prod.mk.inj (Option.some.inj h)
    obtain ⟨b, hb, hskip⟩ := exists_of_skip (Eq.refl (skip flags u))
    refine ⟨b, hb, fun r' hr => ?_⟩
    have hhead' := hr.head?_ne (by decide) hhead
    rw [← hskip r' hr] at hhead'
    rw [readOpening_plain hhead', hskip r' hr]

end

end PageCache.Pattern.Parser
