import PageCache.Proofs.Pattern.Reading.Bracket
import PageCache.Proofs.Pattern.Reading.Group

/-! Reading branches. What is read of a text that ends before a closing parenthesis is read alike
before another end of a branch, and reading goes on from there. -/
namespace PageCache.Pattern.Parser

section
variable {s t : State} {B : List Item} {I : List Item} {i : Item} {u r rest : Text} {n : ℕ}

theorem readBranches_close :
    readBranches (n + 1) s B I (')' :: rest) =
      some (Item.alternate (Item.concat I :: B), s, ')' :: rest) := by
  rw [readBranches, skip_of_isSolid (by decide)]
  rfl

theorem readBranches_bar :
    readBranches (n + 1) s B I ('|' :: rest) = readBranches n s (Item.concat I :: B) [] rest := by
  rw [readBranches, skip_of_isSolid (by decide)]
  rfl

def flagMarker : Item := { expr := .empty, depth := 0, repeatable := false }

theorem readBranches_flags {flags : Flags} {q : Text}
    (h : readOpening s.flags rest = some (.flags flags, q)) :
    readBranches (n + 1) s B I ('(' :: rest) =
      readBranches n { s with flags := flags } B (flagMarker :: I) q := by
  rw [readBranches, skip_of_isSolid (by decide)]
  change (readOpening s.flags rest).bind _ = _
  rw [h]
  rfl

/-- A group after its beginning, and what follows it: its branches are read from a state of their
own. -/
def readGroup (n : ℕ) (s inner : State) (wrap : Item → Item) (B I : List Item) (q : Text) :
    Option (Item × State × Text) :=
  (readBranches n inner [] [] q).bind fun x => (readBranches.close x.2.2).bind fun q =>
    readBranches n { x.2.1 with flags := s.flags } B (wrap x.1 :: I) q

theorem readGroup_of_readBranches {inner : State} {wrap : Item → Item} {q : Text}
    (h : readBranches n inner [] [] u = some (i, t, ')' :: q)) :
    readGroup n s inner wrap B I u =
      readBranches n { t with flags := s.flags } B (wrap i :: I) q := by
  rw [readGroup, h]
  rfl

theorem readBranches_plain {flags : Flags} {q : Text}
    (h : readOpening s.flags rest = some (.plain flags, q)) :
    readBranches (n + 1) s B I ('(' :: rest) =
      readGroup n s { s with flags := flags } (fun i => { expr := i.expr, depth := i.depth + 1 })
        B I q := by
  rw [readBranches, skip_of_isSolid (by decide)]
  change (readOpening s.flags rest).bind _ = _
  rw [h]
  rfl

theorem readBranches_capture {name : Option Text} {q : Text} (hname : ¬name.any s.names.contains = true)
    (h : readOpening s.flags rest = some (.capture name, q)) :
    readBranches (n + 1) s B I ('(' :: rest) =
      readGroup n s { s with nextGroup := s.nextGroup + 1, names := name.toList ++ s.names }
        (fun i => { expr := .group s.nextGroup i.expr, depth := i.depth + 1 }) B I q := by
  simp (disch := decide) only [readBranches, skip_of_isSolid, h, Option.bind_eq_bind,
    Option.bind_some, if_neg hname]
  rfl

theorem readBranches_taken {name : Option Text} {q : Text} (hname : name.any s.names.contains = true)
    (h : readOpening s.flags rest = some (.capture name, q)) :
    readBranches (n + 1) s B I ('(' :: rest) = none := by
  simp (disch := decide) only [readBranches, skip_of_isSolid, h, Option.bind_eq_bind,
    Option.bind_some, if_pos hname]

theorem readBranches_again {c : Char} {min : ℕ} {max : Option ℕ}
    (hc : (c, min, max) = ('*', 0, none) ∨ (c, min, max) = ('+', 1, none) ∨
      (c, min, max) = ('?', 0, some 1)) :
    readBranches (n + 1) s B I (c :: rest) =
      (repeatLast s.flags I min max rest).bind fun x => readBranches n s B x.1 x.2 := by
  rcases hc with heq | heq | heq <;> cases heq <;>
    simp (disch := decide) only [readBranches, skip_of_isSolid] <;> rfl

theorem readBranches_counted :
    readBranches (n + 1) s B I ('\x7b' :: rest) =
      (readBounds s.flags rest).bind fun x =>
        (repeatLast s.flags I x.1 x.2.1 (skip s.flags x.2.2)).bind fun y =>
          readBranches n s B y.1 y.2 := by
  rw [readBranches, skip_of_isSolid (by decide)]
  rfl

theorem readBranches_class :
    readBranches (n + 1) s B I ('[' :: rest) =
      (readClass s.flags (rest.length + 1) rest).bind fun x =>
        readBranches n s B ({ expr := .one x.1, depth := x.2.1 } :: I) x.2.2 := by
  rw [readBranches, skip_of_isSolid (by decide)]
  rfl

theorem readBranches_escape :
    readBranches (n + 1) s B I ('\\' :: rest) =
      (readEscape s.flags rest).bind fun x => (escapeItem s.flags x.1).bind fun i =>
        readBranches n s B (i :: I) x.2 := by
  rw [readBranches, skip_of_isSolid (by decide)]
  rfl

def single? (flags : Flags) (c : Char) : Option Item :=
  if c = '.' then dot flags
  else if c = '^' then some { expr := .look (lineStart flags), depth := 0 }
  else if c = '$' then some { expr := .look (lineEnd flags), depth := 0 }
  else some (charItem flags c)

theorem readBranches_single {c : Char} (hskip : skip s.flags (c :: rest) = c :: rest)
    (hc : c ∉ (")|(*+?\x7b[\\" : Text)) :
    readBranches (n + 1) s B I (c :: rest) =
      (single? s.flags c).bind fun i => readBranches n s B (i :: I) rest := by
  have hc : c ≠ ')' ∧ c ≠ '|' ∧ c ≠ '(' ∧ c ≠ '*' ∧ c ≠ '+' ∧ c ≠ '?' ∧ c ≠ '\x7b' ∧ c ≠ '[' ∧
      c ≠ '\\' := by simpa using hc
  simp only [readBranches, hskip]
  split <;> simp_all [single?]

/-- A text is read up to a rest: before any rest that agrees, reading comes there with the items of
the last branch and with the branches before it, and goes on. A brace in front is followed by what
is read. -/
structure Continues (s : State) (I : List Item) (u : Text) (t : State) (J B : List Item)
    (r : Text) : Prop where
  reads : ∃ a, u = a ++ r ∧ ∀ C r' n, Agree r r' → a.length ≤ n →
    ∃ m, n ≤ m + a.length ∧
      readBranches (n + 1) s C I (a ++ r') = readBranches (m + 1) t (B ++ C) J r'
  brace : ∀ v, u = '\x7b' :: v → ∃ b, skip s.flags v = b ++ r

variable {s' : State} {I' J C D : List Item}

theorem skip_brace (flags : Flags) (v : Text) : skip flags ('\x7b' :: v) = '\x7b' :: v :=
  skip_of_isSolid (by decide) flags v

theorem Continues.of_close (hskip : skip s.flags u = ')' :: rest) :
    Continues s I u s I [] (')' :: rest) := by
  obtain ⟨b, rfl, hb⟩ := exists_of_skip hskip
  refine ⟨⟨b, rfl, fun C r' n hr hn => ⟨n, by omega, ?_⟩⟩, fun v hv => ?_⟩
  · rw [readBranches_skip, hb r' hr, List.nil_append]
  · rw [hv, skip_brace] at hskip
    exact absurd (List.cons.inj hskip).1 (by decide)

theorem Continues.of_step {a w : Text} (ha : a ≠ []) (hskip : skip s.flags u = a ++ w)
    (h : Continues s' I' w t J C r)
    (hstep : ∀ w' n B, Agree w w' → Peeks s'.flags '\x7b' w w' → a.length ≤ n →
      readBranches (n + 1) s B I (a ++ w') = readBranches n s' (D ++ B) I' w')
    (hbrace : ∀ v, a ++ w = '\x7b' :: v → ∃ b, skip s.flags v = b ++ w) :
    Continues s I u t J (C ++ D) r := by
  obtain ⟨a', rfl, hread⟩ := h.reads
  obtain ⟨b, rfl, hb⟩ := skip_append hskip
  refine ⟨⟨b ++ (a ++ a'), by simp, fun B r' n hr hn => ?_⟩, fun v hv => ?_⟩
  · have hlen := List.length_pos_of_ne_nil ha
    simp only [List.length_append] at hn
    obtain ⟨n, rfl⟩ : ∃ k, n = k + 1 := ⟨n - 1, by omega⟩
    obtain ⟨m, hm, hread⟩ := hread (D ++ B) r' n hr (by omega)
    refine ⟨m, by simp only [List.length_append]; omega, ?_⟩
    have hassoc : b ++ (a ++ a') ++ r' = b ++ (a ++ (a' ++ r')) := by simp
    rw [hassoc, readBranches_skip, hb _ (hr.append a'),
      hstep _ _ _ (hr.append a') (peeks_append h.brace hr) (by omega), hread, List.append_assoc]
  · rw [hv, skip_brace] at hskip
    obtain ⟨c, hc⟩ := hbrace v hskip.symm
    exact ⟨c ++ a', by simpa using hc⟩

/-- Reading has stopped at a closing parenthesis; the branches read are those before and new ones. -/
def ReadsOn (s : State) (B I : List Item) (u : Text) (i : Item) (t : State) (r : Text) : Prop :=
  (∃ q, r = ')' :: q) ∧ ∃ J C, i = Item.alternate (Item.concat J :: (C ++ B)) ∧
    Continues s I u t J C r

/-- What is known of reading with some fuel. -/
def Local (n : ℕ) : Prop :=
  ∀ s B I u i t r, readBranches n s B I u = some (i, t, r) → r ≠ [] → ReadsOn s B I u i t r

theorem Local.group (hlocal : Local n) {i : Item} {q : Text}
    (h : readBranches n s [] [] u = some (i, t, ')' :: q)) :
    ∃ a, u = a ++ ')' :: q ∧ ∀ q' m, Agree q q' → a.length < m →
      readBranches m s [] [] (a ++ ')' :: q') = some (i, t, ')' :: q') := by
  obtain ⟨-, J, C, rfl, ⟨a, rfl, hread⟩, -⟩ := hlocal _ _ _ _ _ _ _ h (by simp)
  refine ⟨a, rfl, fun q' m hq hm => ?_⟩
  obtain ⟨m, rfl⟩ := Nat.exists_eq_succ_of_ne_zero (Nat.ne_zero_of_lt hm)
  obtain ⟨k, -, hk⟩ := hread [] (')' :: q') m (.cons ')' hq) (by omega)
  rw [hk, readBranches_close]

theorem Local.step (hlocal : Local n) {a w : Text} {s' : State} {I' : List Item} (ha : a ≠ [])
    (hskip : skip s.flags u = a ++ w) (h : readBranches n s' B I' w = some (i, t, r)) (hr : r ≠ [])
    (hstep : ∀ w' n B, Agree w w' → Peeks s'.flags '\x7b' w w' → a.length ≤ n →
      readBranches (n + 1) s B I (a ++ w') = readBranches n s' B I' w')
    (hbrace : ∀ v, a ++ w = '\x7b' :: v → ∃ b, skip s.flags v = b ++ w) :
    ReadsOn s B I u i t r := by
  obtain ⟨hq, J, C, hi, hcontinues⟩ := hlocal _ _ _ _ _ _ _ h hr
  refine ⟨hq, J, C, hi, ?_⟩
  simpa using Continues.of_step (D := []) ha hskip hcontinues hstep hbrace

theorem Local.flags (hlocal : Local n) {flags : Flags} {q : Text}
    (hskip : skip s.flags u = '(' :: rest) (hopen : readOpening s.flags rest = some (.flags flags, q))
    (h : readBranches n { s with flags := flags } B (flagMarker :: I) q = some (i, t, r))
    (hr : r ≠ []) : ReadsOn s B I u i t r := by
  obtain ⟨a, rfl, hread⟩ := reads_readOpening hopen
  refine hlocal.step (a := '(' :: a) (by simp) hskip h hr ?_ ?_
  · intro w' n B hw _ _
    exact readBranches_flags (hread w' hw)
  · intro v hv
    exact absurd (List.cons.inj hv).1 (by decide)

theorem exists_of_close {q q' : Text} (h : readBranches.close q = some q') : q = ')' :: q' := by
  unfold readBranches.close at h
  split at h
  · rw [Option.some.inj h]
  · cases h

theorem Local.enclosed (hlocal : Local n) {inner : State} {wrap : Item → Item} {o : Opening} {q : Text}
    (hstep : ∀ n B rest q, readOpening s.flags rest = some (o, q) →
      readBranches (n + 1) s B I ('(' :: rest) = readGroup n s inner wrap B I q)
    (hskip : skip s.flags u = '(' :: rest) (hopen : readOpening s.flags rest = some (o, q))
    (h : readBranches (n + 1) s B I ('(' :: rest) = some (i, t, r)) (hr : r ≠ []) :
    ReadsOn s B I u i t r := by
  rw [hstep n B rest q hopen] at h
  obtain ⟨⟨i', t', q₁⟩, hinner, houter⟩ := Option.bind_eq_some_iff.1 h
  obtain ⟨q₂, hclose, houter⟩ := Option.bind_eq_some_iff.1 houter
  obtain rfl := exists_of_close hclose
  obtain ⟨a, rfl, hread⟩ := reads_readOpening hopen
  obtain ⟨a', rfl, hgroup⟩ := hlocal.group hinner
  refine hlocal.step (a := '(' :: (a ++ (a' ++ [')']))) (by simp) (by simpa using hskip) houter hr
    ?_ ?_
  · intro w' m B hw _ hm
    have hagree : Agree (a' ++ ')' :: q₂) (a' ++ ')' :: w') := (hw.cons ')').append a'
    have hassoc : '(' :: (a ++ (a' ++ [')'])) ++ w' = '(' :: (a ++ (a' ++ ')' :: w')) := by simp
    simp only [List.length_cons, List.length_append] at hm
    rw [hassoc, hstep m B _ _ (hread _ hagree), readGroup_of_readBranches (hgroup w' m hw (by omega))]
  · intro v hv
    exact absurd (List.cons.inj hv).1 (by decide)

theorem Local.again (hlocal : Local n) {c : Char} {min : ℕ} {max : Option ℕ}
    (hc : (c, min, max) = ('*', 0, none) ∨ (c, min, max) = ('+', 1, none) ∨
      (c, min, max) = ('?', 0, some 1)) (hskip : skip s.flags u = c :: rest)
    (h : readBranches (n + 1) s B I (c :: rest) = some (i, t, r)) (hr : r ≠ []) :
    ReadsOn s B I u i t r := by
  rw [readBranches_again hc] at h
  obtain ⟨⟨I', q⟩, hrepeat, hnext⟩ := Option.bind_eq_some_iff.1 h
  obtain ⟨a, rfl, hread⟩ := reads_repeatLast hrepeat
  refine hlocal.step (a := c :: a) (by simp) hskip hnext hr ?_ ?_
  · intro w' m B hw _ _
    rw [List.cons_append, readBranches_again hc, hread w' hw]
    rfl
  · intro v hv
    obtain rfl := (List.cons.inj hv).1
    simp at hc

theorem Local.counted (hlocal : Local n) (hskip : skip s.flags u = '\x7b' :: rest)
    (h : readBranches (n + 1) s B I ('\x7b' :: rest) = some (i, t, r)) (hr : r ≠ []) :
    ReadsOn s B I u i t r := by
  rw [readBranches_counted] at h
  obtain ⟨⟨min, max, q⟩, hbounds, hnext⟩ := Option.bind_eq_some_iff.1 h
  obtain ⟨⟨I', q'⟩, hrepeat, hbranches⟩ := Option.bind_eq_some_iff.1 hnext
  obtain ⟨⟨a, rfl, hread⟩, b, hb⟩ := boundsRead_of_readBounds hbounds
  obtain ⟨a', ha', hread'⟩ := reads_repeatLast hrepeat
  obtain ⟨e, rfl, he⟩ := skip_append ha'
  refine hlocal.step (a := '\x7b' :: (a ++ (e ++ a'))) (by simp) (by simpa using hskip) hbranches hr
    ?_ ?_
  · intro w' m B hw _ _
    have hassoc : '\x7b' :: (a ++ (e ++ a')) ++ w' = '\x7b' :: (a ++ (e ++ (a' ++ w'))) := by simp
    rw [hassoc, readBranches_counted, hread _ ((hw.append a').append e)]
    simp only [Option.bind_some, he w' hw, hread' w' hw]
  · intro v hv
    obtain rfl : v = a ++ (e ++ (a' ++ q')) := by simpa using hv.symm
    exact ⟨b ++ (e ++ a'), by simpa using hb⟩

theorem Local.bracketed (hlocal : Local n) (hskip : skip s.flags u = '[' :: rest)
    (h : readBranches (n + 1) s B I ('[' :: rest) = some (i, t, r)) (hr : r ≠ []) :
    ReadsOn s B I u i t r := by
  rw [readBranches_class] at h
  obtain ⟨⟨cls, depth, q⟩, hclass, hnext⟩ := Option.bind_eq_some_iff.1 h
  obtain ⟨a, rfl, hread⟩ := (reads_class_and_members s.flags _).1 rest (cls, depth) q hclass
  refine hlocal.step (a := '[' :: a) (by simp) hskip hnext hr ?_ ?_
  · intro w' m B hw _ _
    rw [List.cons_append, readBranches_class, hread w' _ hw (by simp)]
    rfl
  · intro v hv
    exact absurd (List.cons.inj hv).1 (by decide)

theorem Local.escaped (hlocal : Local n) (hskip : skip s.flags u = '\\' :: rest)
    (h : readBranches (n + 1) s B I ('\\' :: rest) = some (i, t, r)) (hr : r ≠ []) :
    ReadsOn s B I u i t r := by
  rw [readBranches_escape] at h
  obtain ⟨⟨e, q⟩, hescape, hnext⟩ := Option.bind_eq_some_iff.1 h
  obtain ⟨j, hj, hnext⟩ := Option.bind_eq_some_iff.1 hnext
  obtain ⟨a, -, rfl, hread⟩ := reads_readEscape hescape
  refine hlocal.step (a := '\\' :: a) (by simp) hskip hnext hr ?_ ?_
  · intro w' m B hw hpeek _
    rw [List.cons_append, readBranches_escape, hread w' hw fun _ _ => hpeek]
    simp only [Option.bind_some, hj]
  · intro v hv
    exact absurd (List.cons.inj hv).1 (by decide)

theorem Local.single (hlocal : Local n) {c : Char} (hskip : skip s.flags u = c :: rest)
    (hc : c ∉ (")|(*+?\x7b[\\" : Text))
    (h : readBranches (n + 1) s B I (c :: rest) = some (i, t, r)) (hr : r ≠ []) :
    ReadsOn s B I u i t r := by
  have hsolid := skip_cons_of_skip hskip
  rw [readBranches_single (hsolid rest) hc] at h
  obtain ⟨j, hj, hnext⟩ := Option.bind_eq_some_iff.1 h
  refine hlocal.step (a := [c]) (by simp) hskip hnext hr ?_ ?_
  · intro w' m B _ _ _
    rw [List.singleton_append, readBranches_single (hsolid w') hc, hj]
    rfl
  · intro v hv
    obtain rfl := (List.cons.inj hv).1
    exact absurd (by decide) hc

end

/-- Reading a text up to a closing parenthesis is local, by induction on the fuel: each case of a step
takes one item off the text. -/
theorem local_readBranches (n : ℕ) : Local n := by
  induction n with
  | zero =>
    intro s B I u i t r h
    cases h
  | succ n ih =>
    intro s B I u i t r h hr
    rw [readBranches_skip] at h
    match hskip : skip s.flags u with
    | [] =>
      rw [hskip, readBranches_nil] at h
      cases h
      exact absurd rfl hr
    | c :: rest =>
      rw [hskip] at h
      by_cases hc : c ∈ (")|(*+?\x7b[\\" : Text)
      · have hc : c = ')' ∨ c = '|' ∨ c = '(' ∨ c = '*' ∨ c = '+' ∨ c = '?' ∨ c = '\x7b' ∨ c = '[' ∨
            c = '\\' := by simpa using hc
        rcases hc with rfl | rfl | rfl | rfl | rfl | rfl | rfl | rfl | rfl
        · rw [readBranches_close] at h
          cases h
          exact ⟨⟨rest, rfl⟩, I, [], rfl, .of_close hskip⟩
        · rw [readBranches_bar] at h
          obtain ⟨hq, J, C, hi, hcontinues⟩ := ih _ _ _ _ _ _ _ h hr
          refine ⟨hq, J, C ++ [Item.concat I], by simpa using hi, ?_⟩
          refine hcontinues.of_step (a := ['|']) (by simp) hskip ?_ ?_
          · exact fun w' m B _ _ _ => readBranches_bar
          · intro v hv
            exact absurd (List.cons.inj hv).1 (by decide)
        · match hopen : readOpening s.flags rest with
          | none =>
            have hparen : skip s.flags ('(' :: rest) = '(' :: rest := skip_cons_of_skip hskip rest
            simp only [readBranches, hparen, hopen] at h
            cases h
          | some (.flags flags, q) =>
            rw [readBranches_flags hopen] at h
            exact ih.flags hskip hopen h hr
          | some (.plain flags, q) =>
            exact ih.enclosed (fun _ _ _ _ h => readBranches_plain h) hskip hopen h hr
          | some (.capture name, q) =>
            by_cases hname : name.any s.names.contains = true
            · rw [readBranches_taken hname hopen] at h
              cases h
            · exact ih.enclosed (fun _ _ _ _ h => readBranches_capture hname h) hskip hopen h hr
        · exact ih.again (.inl rfl) hskip h hr
        · exact ih.again (.inr (.inl rfl)) hskip h hr
        · exact ih.again (.inr (.inr rfl)) hskip h hr
        · exact ih.counted hskip h hr
        · exact ih.bracketed hskip h hr
        · exact ih.escaped hskip h hr
      · exact ih.single hskip hc h hr

end PageCache.Pattern.Parser
