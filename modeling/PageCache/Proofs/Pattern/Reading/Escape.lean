import PageCache.Proofs.Pattern.Reading.Local

/-! Reading escapes. Only after a word boundary does the reader look further than the escape: the
name of an edge may follow it in braces. -/
namespace PageCache.Pattern.Parser

section
variable {flags : Flags} {u r : Text}

theorem reads_readHexDigits {n : ℕ} {acc digits : Text}
    (h : readHexDigits flags n acc u = some (digits, r)) :
    Reads (fun _ => readHexDigits flags n acc) u digits r := by
  induction n generalizing acc u with
  | zero =>
    obtain ⟨rfl, rfl⟩ := Prod.mk.inj (Option.some.inj h)
    exact ⟨[], rfl, fun _ _ _ _ => rfl⟩
  | succ n ih =>
    cases u with
    | nil => cases h
    | cons c cs =>
      rw [readHexDigits] at h
      split at h
      · next hc =>
        refine ((ih h).skip fun _ _ => rfl).cons fun _ t => ?_
        rw [readHexDigits, if_pos hc]
      · cases h

theorem reads_readHexBrace {n : ℕ} {acc digits : Text}
    (h : readHexBrace flags n acc u = some (digits, r)) :
    Reads (fun n => readHexBrace flags n acc) u digits r := by
  induction n generalizing acc u with
  | zero => cases h
  | succ n ih =>
    cases u with
    | nil => cases h
    | cons c cs =>
      rw [readHexBrace] at h
      split at h
      · next hc =>
        split at h
        · cases h
        · next hacc =>
          obtain ⟨rfl, rfl⟩ := Prod.mk.inj (Option.some.inj h)
          refine (Reads.of_skip fun _ _ => rfl).cons fun _ t => ?_
          rw [readHexBrace, if_pos hc, if_neg hacc]
      · next hc =>
        split at h
        · next hhex =>
          refine ((ih h).skip fun _ _ => rfl).cons fun _ t => ?_
          rw [readHexBrace, if_neg hc, if_pos hhex]
        · cases h

theorem reads_readName {n : ℕ} {acc name : Text} (h : readName flags n acc u = some (name, r)) :
    Reads (fun n => readName flags n acc) u name r := by
  induction n generalizing acc u with
  | zero => cases h
  | succ n ih =>
    cases u with
    | nil => cases h
    | cons c cs =>
      rw [readName] at h
      split at h
      · next hc =>
        obtain ⟨rfl, rfl⟩ := Prod.mk.inj (Option.some.inj h)
        refine Reads.of_cons fun _ t => ?_
        rw [readName, if_pos hc]
      · next hc =>
        refine ((ih h).skip fun _ _ => rfl).cons fun _ t => ?_
        rw [readName, if_neg hc]

theorem reads_readEdgeName {n : ℕ} {acc name : Text}
    (h : readEdgeName flags n acc u = some (name, r)) :
    Reads (fun n => readEdgeName flags n acc) u name r := by
  induction n generalizing acc u with
  | zero => cases h
  | succ n ih =>
    cases u with
    | nil => cases h
    | cons c cs =>
      simp only [readEdgeName] at h
      split at h
      · next hc =>
        refine ((ih h).skip fun _ _ => rfl).cons fun _ t => ?_
        simp only [readEdgeName, if_pos hc]
      · next hc =>
        split at h
        · next hbrace =>
          obtain ⟨rfl, rfl⟩ := Prod.mk.inj (Option.some.inj h)
          refine Reads.of_cons fun _ t => ?_
          simp only [readEdgeName, if_neg hc, if_pos hbrace]
        · cases h

theorem reads_readHex {count : ℕ} {byteSized : Bool} {e : Escape}
    (h : readHex flags count byteSized u = some (e, r)) :
    Reads (fun _ => readHex flags count byteSized) u e r := by
  suffices hread : Reads (fun _ => readHex flags count byteSized) (skip flags u) e r from
    hread.of_skipped fun _ t => by simp only [readHex, skip_skip]
  unfold readHex at h
  split at h
  · cases h
  · next c rest hskip =>
    have hc := skip_cons_of_skip hskip
    rw [hskip]
    split at h
    · next hbrace =>
      obtain ⟨⟨digits, q⟩, hdigits, h⟩ := Option.bind_eq_some_iff.1 h
      obtain ⟨char, hchar, h⟩ := Option.bind_eq_some_iff.1 h
      obtain ⟨rfl, rfl⟩ := Prod.mk.inj (Option.some.inj h)
      have hread := (Reads.skip (f := fun n t => readHexBrace flags n [] (skip flags t))
        (reads_readHexBrace hdigits) fun _ _ => rfl).of_length
      refine hread.cons_map fun n t r ht => ?_
      simp only [readHex, hc, hbrace, if_true]
      exact Option.bind_eq_some_iff.2 ⟨_, ht, Option.bind_eq_some_iff.2 ⟨_, hchar, rfl⟩⟩
    · next hbrace =>
      obtain ⟨⟨digits, q⟩, hdigits, h⟩ := Option.bind_eq_some_iff.1 h
      obtain ⟨char, hchar, h⟩ := Option.bind_eq_some_iff.1 h
      obtain ⟨rfl, rfl⟩ := Prod.mk.inj (Option.some.inj h)
      refine (reads_readHexDigits hdigits).head_map
        (P := fun d => (∀ t, skip flags (d :: t) = d :: t) ∧ ¬(d == '\x7b') = true)
        ⟨hc, hbrace⟩ ?_ ?_
      · intro d hd
        exact ⟨skip_of_isSolid hd.isSolid flags, by rcases hd with rfl | rfl <;> decide⟩
      · intro n d t r ⟨hd, hbrace⟩ ht
        simp only [readHex, hd, if_neg hbrace]
        exact Option.bind_eq_some_iff.2 ⟨_, ht, Option.bind_eq_some_iff.2 ⟨_, hchar, rfl⟩⟩

theorem reads_readProperty {negated : Bool} {e : Escape}
    (h : readProperty flags negated u = some (e, r)) :
    Reads (fun _ => readProperty flags negated) u e r := by
  suffices hread : Reads (fun _ => readProperty flags negated) (skip flags u) e r from
    hread.of_skipped fun _ t => by simp only [readProperty, skip_skip]
  unfold readProperty at h
  split at h
  · cases h
  · next hunicode =>
    dsimp only at h
    split at h
    · cases h
    · next c rest hskip =>
      have hc := skip_cons_of_skip hskip
      rw [hskip]
      split at h
      · next hbrace =>
        obtain ⟨⟨name, q⟩, hname, h⟩ := Option.bind_eq_some_iff.1 h
        obtain ⟨p, hproperty, h⟩ := Option.bind_eq_some_iff.1 h
        obtain ⟨rfl, rfl⟩ := Prod.mk.inj (Option.some.inj h)
        have hread := (Reads.skip (f := fun n t => readName flags n [] (skip flags t))
          (reads_readName hname) fun _ _ => rfl).of_length
        refine hread.cons_map fun n t r ht => ?_
        simp only [readProperty, hc, hbrace, if_true, if_neg hunicode]
        exact Option.bind_eq_some_iff.2 ⟨_, ht, Option.bind_eq_some_iff.2 ⟨_, hproperty, rfl⟩⟩
      · next hbrace =>
        split at h
        · cases h
        · next hslash =>
          obtain ⟨p, hproperty, h⟩ := Option.bind_eq_some_iff.1 h
          obtain ⟨rfl, rfl⟩ := Prod.mk.inj (Option.some.inj h)
          refine (Reads.of_skip (x := p) fun _ t => rfl).cons_map fun n t r ht => ?_
          simp only [readProperty, hc, if_neg hbrace, if_neg hslash, if_neg hunicode, hproperty]
          obtain ⟨-, rfl⟩ := Prod.mk.inj (Option.some.inj ht)
          rfl

/-- Two texts that agree after a character and the blanks after it. -/
def Peeks (flags : Flags) (c : Char) (r r' : Text) : Prop :=
  ∀ t t', r = c :: t → r' = c :: t' → Agree (skip flags t) (skip flags t')

/-- Where what follows a character and blanks has been read, a look beyond them shows no more. -/
theorem peeks_append {c : Char} {b r' : Text}
    (h : ∀ t, b ++ r = c :: t → ∃ a, skip flags t = a ++ r) (hr : Agree r r') :
    Peeks flags c (b ++ r) (b ++ r') := by
  intro t t' ht ht'
  obtain ⟨a, ha⟩ := h t ht
  obtain ⟨e, rfl, he⟩ := skip_append ha
  have hb : b ++ r = c :: (e ++ a) ++ r := by simpa using ht
  have hb : b = c :: (e ++ a) := List.append_cancel_right hb
  obtain rfl : t' = e ++ (a ++ r') := by
    rw [hb] at ht'
    simpa using ht'.symm
  rw [ha, he r' hr]
  exact hr.append a

def edgeNamed? (name : Text) : Option WordEdge :=
  match String.ofList name with
  | "start" => some .start
  | "end" => some .finish
  | "start-half" => some .startHalf
  | "end-half" => some .finishHalf
  | _ => none

theorem readBoundary_of_skip {t s : Text} {c : Char} (hskip : skip flags t = c :: s)
    (hc : (c.isAlpha || c == '-') = true) : readBoundary flags ('\x7b' :: t) =
      (readEdgeName flags (s.length + 1) [c] (skip flags s)).bind fun x =>
        (edgeNamed? x.1).map fun edge => (.look (.word edge flags.unicode), x.2) := by
  have hname : readEdgeName flags (s.length + 2) [] (c :: s) =
      readEdgeName flags (s.length + 1) [c] (skip flags s) := by
    rw [readEdgeName]
    exact if_pos hc
  simp only [readBoundary, hskip, hname, hc, Bool.not_true, Bool.false_eq_true, if_false]
  refine congrArg _ (funext fun x => ?_)
  dsimp only [edgeNamed?]
  split <;> simp [*]

theorem reads_readBoundary {e : Escape} (h : readBoundary flags u = some (e, r)) :
    (∃ l, e = .look l) ∧ ∃ a, u = a ++ r ∧ ∀ r', Agree r r' → Peeks flags '\x7b' r r' →
      readBoundary flags (a ++ r') = some (e, r') := by
  unfold readBoundary at h
  simp only at h
  split at h
  · next t =>
    split at h
    · cases h
    · next c s hskip =>
      by_cases hc : (c.isAlpha || c == '-') = true
      · have hbound : readBoundary flags ('\x7b' :: t) = some (e, r) := by
          simp only [readBoundary, hskip]
          exact h
        rw [readBoundary_of_skip hskip hc] at hbound
        obtain ⟨⟨name, q⟩, hname, hbound⟩ := Option.bind_eq_some_iff.1 hbound
        obtain ⟨edge, hedge, hbound⟩ := Option.map_eq_some_iff.1 hbound
        obtain ⟨rfl, rfl⟩ := Prod.mk.inj hbound
        obtain ⟨a, rfl, hread⟩ := (Reads.skip (f := fun n t => readEdgeName flags n [c] (skip flags t))
          (reads_readEdgeName hname) fun _ _ => rfl).of_length
        obtain ⟨b, rfl, hb⟩ := skip_append (a := c :: a) hskip
        refine ⟨⟨_, rfl⟩, '\x7b' :: (b ++ (c :: a)), by simp, fun r' hr _ => ?_⟩
        rw [List.cons_append, List.append_assoc, readBoundary_of_skip (hb r' hr) hc]
        have hread := hread r' _ hr (Nat.lt_succ_self _)
        exact Option.bind_eq_some_iff.2 ⟨_, hread, by rw [hedge]; rfl⟩
      · rw [if_pos (by simpa using hc)] at h
        obtain ⟨rfl, rfl⟩ := Prod.mk.inj (Option.some.inj h)
        refine ⟨⟨_, rfl⟩, [], rfl, fun r' hr hpeek => ?_⟩
        obtain ⟨t', rfl, -⟩ := hr.exists_cons (by decide)
        have hagree := hpeek t t' rfl rfl
        rw [hskip] at hagree
        obtain ⟨d, s', hs', hd⟩ := hagree.exists_head_of
          (P := fun d => ¬(d.isAlpha || d == '-') = true) hc
          fun d hd => by rcases hd with rfl | rfl <;> decide
        simp only [List.nil_append, readBoundary, hs']
        exact if_pos (by simpa using hd)
  · next hbrace =>
    obtain ⟨rfl, rfl⟩ := Prod.mk.inj (Option.some.inj h)
    refine ⟨⟨_, rfl⟩, [], rfl, fun r' hr _ => ?_⟩
    cases u with
    | nil => exact absurd hr Agree.not_nil
    | cons c t =>
      obtain ⟨d, t', rfl, hd⟩ := hr.exists_head_of (P := fun d => d ≠ '\x7b')
        (fun hc => hbrace t (hc ▸ rfl)) fun d hd => EndsBranch.ne hd (by decide)
      unfold readBoundary
      split
      · next heq => exact absurd (List.cons.inj heq).1 hd
      · rfl

/-- An escape of one character does not depend on what follows it. -/
theorem readEscape_single {c : Char} (hc : c ∉ ("xuUpPb" : Text)) (t : Text) :
    readEscape flags (c :: t) = (readEscape flags [c]).map fun x => (x.1, t) := by
  have hc : c ≠ 'x' ∧ c ≠ 'u' ∧ c ≠ 'U' ∧ c ≠ 'p' ∧ c ≠ 'P' ∧ c ≠ 'b' := by simpa using hc
  simp only [readEscape]
  split <;> simp_all [Option.map_map, Function.comp_def]

/-- After a boundary, a reader looks whether a name in braces follows. -/
theorem reads_readEscape {e : Escape} (h : readEscape flags u = some (e, r)) :
    ∃ a, a ≠ [] ∧ u = a ++ r ∧ ∀ r', Agree r r' →
      (∀ l, e = .look l → Peeks flags '\x7b' r r') → readEscape flags (a ++ r') = some (e, r') := by
  cases u with
  | nil => cases h
  | cons c cs =>
    have hcons : Reads (fun _ t => readEscape flags (c :: t)) cs e r →
        ∃ a, a ≠ [] ∧ c :: cs = a ++ r ∧ ∀ r', Agree r r' →
          (∀ l, e = .look l → Peeks flags '\x7b' r r') → readEscape flags (a ++ r') = some (e, r') := by
      rintro ⟨a, rfl, hread⟩
      exact ⟨c :: a, by simp, rfl, fun r' hr _ => hread r' _ hr (Nat.lt_succ_self _)⟩
    by_cases hc : c ∈ ("xuUpPb" : Text)
    · have hc : c = 'x' ∨ c = 'u' ∨ c = 'U' ∨ c = 'p' ∨ c = 'P' ∨ c = 'b' := by simpa using hc
      rcases hc with rfl | rfl | rfl | rfl | rfl | rfl
      · exact hcons (reads_readHex h)
      · exact hcons (reads_readHex h)
      · exact hcons (reads_readHex h)
      · exact hcons (reads_readProperty h)
      · exact hcons (reads_readProperty h)
      · obtain ⟨⟨l, rfl⟩, a, rfl, hread⟩ := reads_readBoundary h
        exact ⟨'b' :: a, by simp, rfl, fun r' hr hpeek => hread r' hr (hpeek l rfl)⟩
    · have hsingle : ∀ t, readEscape flags (c :: t) = _ := readEscape_single hc
      rw [hsingle] at h
      obtain ⟨⟨e, q⟩, he, h⟩ := Option.map_eq_some_iff.1 h
      obtain ⟨rfl, rfl⟩ := Prod.mk.inj h
      refine ⟨[c], by simp, rfl, fun r' _ _ => ?_⟩
      rw [List.singleton_append, hsingle, he]
      rfl

end

end PageCache.Pattern.Parser
