import PageCache.Proofs.Pattern.Reading.Escape

/-! Reading bracketed classes. The reader looks further than a member in two places: beyond a hyphen,
which may be the last member, and for the colon that ends the name of an ASCII class, which has no
character in it that ends a branch. -/
namespace PageCache.Pattern.Parser

theorem not_endsBranch_of_asciiClass? {name : Text} {a : CharClass} (h : asciiClass? name = some a) :
    ∀ c ∈ name, ¬EndsBranch c := by
  have hname : ∀ {s : String}, String.ofList name = s → name = s.toList := by
    rintro s rfl
    simp
  simp only [asciiClass?] at h
  split at h
  case h_15 => cases h
  all_goals
    next heq =>
      rw [hname heq]
      simp [EndsBranch]

section
variable {flags : Flags} {u r : Text}

def namedUpToColon (negated : Bool) (t : Text) : Option (CharClass × Bool × Text) :=
  match t.dropWhile (· != ':') with
  | ':' :: ']' :: rest => (asciiClass? (t.takeWhile (· != ':'))).map fun a => (a, negated, rest)
  | _ => none

theorem readAsciiClass_eq (t : Text) : readAsciiClass (':' :: t) =
    if t.head? = some '^' then namedUpToColon true (t.drop 1) else namedUpToColon false t := by
  by_cases ht : t.head? = some '^'
  · rw [if_pos ht]
    simp only [readAsciiClass, ht, beq_self_eq_true, if_true]
    rfl
  · have hne : (t.head? == some '^') = false := beq_eq_false_iff_ne.2 ht
    rw [if_neg ht]
    simp only [readAsciiClass, hne, Bool.false_eq_true, if_false]
    rfl

theorem namedUpToColon_eq_some_iff {negated : Bool} {t : Text} {x : CharClass × Bool × Text} :
    namedUpToColon negated t = some x ↔ ∃ name a r, t = name ++ ':' :: ']' :: r ∧ ':' ∉ name ∧
      asciiClass? name = some a ∧ x = (a, negated, r) := by
  constructor
  · intro h
    unfold namedUpToColon at h
    split at h
    · next rest hdrop =>
      obtain ⟨a, ha, rfl⟩ := Option.map_eq_some_iff.1 h
      refine ⟨_, a, rest, ?_, fun hcolon => ?_, ha, rfl⟩
      · rw [← hdrop, List.takeWhile_append_dropWhile]
      · simpa using List.mem_takeWhile_imp hcolon
    · cases h
  · rintro ⟨name, a, r, rfl, hcolon, ha, rfl⟩
    have hall : ∀ c ∈ name, (c != ':') = true := fun c hc =>
      bne_iff_ne.2 fun heq => hcolon (heq ▸ hc)
    rw [namedUpToColon, List.dropWhile_append_of_pos hall, List.takeWhile_append_of_pos hall]
    simp [ha]

/-- The name of an ASCII class is read without a look at what follows it. -/
theorem readAsciiClass_append {a : CharClass} {negated : Bool}
    (h : readAsciiClass u = some (a, negated, r)) :
    ∃ b, (∀ c ∈ b, ¬EndsBranch c) ∧ u = b ++ r ∧
      ∀ r', readAsciiClass (b ++ r') = some (a, negated, r') := by
  unfold readAsciiClass at h
  split at h
  · next t =>
    change readAsciiClass (':' :: t) = _ at h
    rw [readAsciiClass_eq] at h
    split at h
    · next hcaret =>
      obtain ⟨t, rfl⟩ := List.head?_eq_some_iff.1 hcaret
      obtain ⟨name, a, r, ht, hcolon, hname, heq⟩ := namedUpToColon_eq_some_iff.1 h
      cases heq
      rw [List.drop_one, List.tail_cons] at ht
      subst ht
      refine ⟨':' :: '^' :: (name ++ [':', ']']), ?_, by simp, fun r' => ?_⟩
      · simpa [EndsBranch, or_imp, forall_and] using not_endsBranch_of_asciiClass? hname
      · rw [List.cons_append, List.cons_append, readAsciiClass_eq, if_pos List.head?_cons]
        exact namedUpToColon_eq_some_iff.2 ⟨name, a, r', by simp, hcolon, hname, rfl⟩
    · next hcaret =>
      obtain ⟨name, a, r, rfl, hcolon, hname, heq⟩ := namedUpToColon_eq_some_iff.1 h
      cases heq
      refine ⟨':' :: (name ++ [':', ']']), ?_, by simp, fun r' => ?_⟩
      · simpa [EndsBranch, or_imp, forall_and] using not_endsBranch_of_asciiClass? hname
      · rw [List.cons_append, readAsciiClass_eq, if_neg (by cases name <;> simp_all)]
        exact namedUpToColon_eq_some_iff.2 ⟨name, a, r', by simp, hcolon, hname, rfl⟩
  · cases h

/-- Whether an ASCII class follows does not depend on what comes after the end of a branch. -/
theorem readAsciiClass_eq_none {r' : Text} (hr : Agree r r') (h : readAsciiClass r = none) :
    readAsciiClass r' = none := by
  by_contra hne
  obtain ⟨⟨a, negated, t⟩, hread⟩ := Option.ne_none_iff_exists'.1 hne
  obtain ⟨b, hb, rfl, hall⟩ := readAsciiClass_append hread
  obtain ⟨t', rfl⟩ := hr.symm.exists_append hb rfl
  rw [hall] at h
  cases h

theorem reads_readMember {e : Escape} (h : readMember flags u = some (e, r))
    (he : ∀ l, e ≠ .look l) :
    ∃ a, a ≠ [] ∧ u = a ++ r ∧ ∀ r', Agree r r' → readMember flags (a ++ r') = some (e, r') := by
  unfold readMember at h
  split at h
  · cases h
  · obtain ⟨a, -, rfl, hread⟩ := reads_readEscape h
    exact ⟨'\\' :: a, by simp, rfl, fun r' hr => hread r' hr fun l hl => absurd hl (he l)⟩
  · next c cs hc =>
    obtain ⟨rfl, rfl⟩ := Prod.mk.inj (Option.some.inj h)
    refine ⟨[c], by simp, rfl, fun r' _ => ?_⟩
    unfold readMember
    split
    · next heq => cases heq
    · next heq => exact absurd (List.cons.inj heq).1 hc
    · next heq =>
      cases heq
      rfl

def alone (flags : Flags) (e : Escape) : Option CharClass :=
  match e with
  | .cls a => some (caseClosed flags a)
  | e => (memberChar? flags e).map fun c => caseClosed flags (.single c)

theorem alone_map (e : Escape) (rest : Text) :
    (match e with
      | .cls a => some (caseClosed flags a, rest)
      | e => (memberChar? flags e).map fun c => (caseClosed flags (.single c), rest)) =
      (alone flags e).map (·, rest) := by
  cases e <;> simp [alone, Option.map_map, Function.comp_def]

theorem readRange_eq_alone {e : Escape} {rest : Text} (hmember : readMember flags u = some (e, rest))
    {c : Char} {s : Text} (hskip : skip flags rest = c :: s)
    (hc : c = '-' → ∃ d t, skip flags s = d :: t ∧ (d = ']' ∨ d = '-')) :
    readRange flags u = (alone flags e).map (·, c :: s) := by
  rw [← alone_map]
  simp only [readRange, hmember, hskip, Option.bind_eq_bind, Option.bind_some]
  split
  · next heq => cases heq
  · next heq =>
    obtain ⟨rfl, rfl⟩ := List.cons.inj heq
    obtain ⟨d, t, hs, rfl | rfl⟩ := hc rfl <;> cases e <;> simp only [hs]
  · rfl

theorem readRange_eq_range {e : Escape} {rest : Text} (hmember : readMember flags u = some (e, rest))
    {s t : Text} {d : Char} (hskip : skip flags rest = '-' :: s) (hs : skip flags s = d :: t)
    (hbracket : d ≠ ']') (hhyphen : d ≠ '-') :
    readRange flags u = (readMember flags (d :: t)).bind fun x =>
      (memberChar? flags e).bind fun lo => (memberChar? flags x.1).bind fun hi =>
        if lo ≤ hi then some (caseClosed flags (.range lo hi), x.2) else none := by
  simp only [readRange, hmember, hskip, hs, Option.bind_eq_bind, Option.bind_some]
  split
  · next heq => exact absurd (List.cons.inj heq).1 hbracket
  · next heq => exact absurd (List.cons.inj heq).1 hhyphen
  · next heq => cases heq
  · rfl

theorem not_look_of_alone {e : Escape} {a : CharClass} (h : alone flags e = some a) :
    ∀ l, e ≠ .look l := by
  rintro l rfl
  simp [alone, memberChar?] at h

theorem not_look_of_memberChar? {e : Escape} {c : Char} (h : memberChar? flags e = some c) :
    ∀ l, e ≠ .look l := by
  rintro l rfl
  simp [memberChar?] at h

/-- A member or a range is a part of the text, whatever agrees with the rest and with what a hyphen
in front of the rest is followed by; from its first member on, it ends where the rest begins. -/
structure RangeRead (flags : Flags) (u : Text) (x : CharClass) (r : Text) : Prop where
  reads : ∃ a, a ≠ [] ∧ u = a ++ r ∧ ∀ r', Agree r r' → Peeks flags '-' r r' →
    readRange flags (a ++ r') = some (x, r')
  member : ∀ e rest, readMember flags u = some (e, rest) → ∃ b, skip flags rest = b ++ r

/-- After a member alone, a reader looks whether a hyphen before it makes a range. -/
theorem rangeRead_alone {e : Escape} {rest s : Text} {c : Char} {x : CharClass}
    (hmember : readMember flags u = some (e, rest)) (hskip : skip flags rest = c :: s)
    (hc : c = '-' → ∃ d t, skip flags s = d :: t ∧ (d = ']' ∨ d = '-'))
    (hx : alone flags e = some x) : RangeRead flags u x (c :: s) := by
  obtain ⟨a, hne, rfl, hread⟩ := reads_readMember hmember (not_look_of_alone hx)
  obtain ⟨b, rfl, hb⟩ := exists_of_skip hskip
  refine ⟨⟨a ++ b, by simp [hne], by simp, fun r' hr hpeek => ?_⟩, fun e' rest' he' => ⟨[], ?_⟩⟩
  · have hb := hb r' hr
    obtain ⟨d, s', rfl, hd⟩ := hr.exists_head
    rw [List.append_assoc, readRange_eq_alone (hread _ (hr.append b)) hb, hx]
    · rfl
    · rintro rfl
      obtain rfl : '-' = c := hd.resolve_right (by decide)
      obtain ⟨e, t, hs, he⟩ := hc rfl
      have hagree := hpeek s s' rfl rfl
      rw [hs] at hagree
      obtain ⟨t', hs', -⟩ := hagree.exists_cons (by rcases he with rfl | rfl <;> decide)
      exact ⟨e, t', hs', he⟩
  · cases hmember.symm.trans he'
    exact hskip

theorem rangeRead_range {e e' : Escape} {rest s t q : Text} {d lo hi : Char}
    (hmember : readMember flags u = some (e, rest)) (hskip : skip flags rest = '-' :: s)
    (hs : skip flags s = d :: t) (hd : d ≠ ']' ∧ d ≠ '-')
    (hlast : readMember flags (d :: t) = some (e', q)) (hlo : memberChar? flags e = some lo)
    (hhi : memberChar? flags e' = some hi) (hle : lo ≤ hi) :
    RangeRead flags u (caseClosed flags (.range lo hi)) q := by
  obtain ⟨a, hne, rfl, hread⟩ := reads_readMember hmember (not_look_of_memberChar? hlo)
  obtain ⟨a', -, ha', hread'⟩ := reads_readMember hlast (not_look_of_memberChar? hhi)
  obtain ⟨b, rfl, hskipb⟩ := exists_of_skip hskip
  obtain ⟨b', rfl, hskipb'⟩ := exists_of_skip (hs.trans ha')
  refine ⟨⟨a ++ (b ++ '-' :: (b' ++ a')), by simp, by simp, fun r' hr _ => ?_⟩,
    fun e₀ rest' he₀ => ⟨'-' :: (b' ++ a'), ?_⟩⟩
  · have hlast' : Agree (a' ++ q) (a' ++ r') := hr.append a'
    have hhyphen : Agree ('-' :: (b' ++ (a' ++ q))) ('-' :: (b' ++ (a' ++ r'))) :=
      .cons '-' (hlast'.append b')
    obtain ⟨d', t', ht', hd'⟩ := (ha' ▸ hlast').exists_head_of (P := fun d => d ≠ ']' ∧ d ≠ '-') hd
      fun d hd => by rcases hd with rfl | rfl <;> decide
    have hassoc : a ++ (b ++ '-' :: (b' ++ a')) ++ r' = a ++ (b ++ '-' :: (b' ++ (a' ++ r'))) := by
      simp
    rw [hassoc, readRange_eq_range (hread _ (hhyphen.append b)) (hskipb _ hhyphen)
      ((hskipb' _ hlast').trans ht') hd'.1 hd'.2, ← ht', hread' r' hr]
    simp [hlo, hhi, hle]
  · cases hmember.symm.trans he₀
    rw [hskip, List.cons_append, List.append_assoc]

theorem rangeRead_of_readRange {x : CharClass} (h : readRange flags u = some (x, r)) :
    RangeRead flags u x r := by
  obtain ⟨⟨e, rest⟩, hmember, -⟩ := Option.bind_eq_some_iff.1 h
  match hskip : skip flags rest with
  | [] => simp [readRange, hmember, hskip] at h
  | c :: s =>
    by_cases hc : c = '-' → ∃ d t, skip flags s = d :: t ∧ (d = ']' ∨ d = '-')
    · rw [readRange_eq_alone hmember hskip hc] at h
      obtain ⟨x, hx, heq⟩ := Option.map_eq_some_iff.1 h
      cases heq
      exact rangeRead_alone hmember hskip hc hx
    · obtain ⟨rfl, hnot⟩ := Classical.not_imp.1 hc
      match hs : skip flags s with
      | [] => simp [readRange, hmember, hskip, hs] at h
      | d :: t =>
        have hd : d ≠ ']' ∧ d ≠ '-' :=
          ⟨fun heq => hnot ⟨d, t, hs, .inl heq⟩, fun heq => hnot ⟨d, t, hs, .inr heq⟩⟩
        rw [readRange_eq_range hmember hskip hs hd.1 hd.2] at h
        obtain ⟨⟨e', q⟩, hlast, h⟩ := Option.bind_eq_some_iff.1 h
        obtain ⟨lo, hlo, h⟩ := Option.bind_eq_some_iff.1 h
        obtain ⟨hi, hhi, h⟩ := Option.bind_eq_some_iff.1 h
        obtain ⟨hle, heq⟩ := Option.ite_none_right_eq_some.1 h
        cases heq
        exact rangeRead_range hmember hskip hs hd hlast hlo hhi hle

theorem reads_leadingMembers {n : ℕ} {ms ms' : Operand}
    (h : leadingMembers flags n ms u = some (ms', r)) :
    Reads (fun n => leadingMembers flags n ms) u ms' r := by
  induction n generalizing ms u with
  | zero => cases h
  | succ n ih =>
    cases u with
    | nil => cases h
    | cons c cs =>
      rw [leadingMembers] at h
      split at h
      · next hhyphen =>
        refine ((ih h).skip fun _ _ => rfl).cons fun _ t => ?_
        rw [leadingMembers, if_pos hhyphen]
      · next hhyphen =>
        split at h
        · next hbracket =>
          split at h
          · cases h
          · obtain ⟨rfl, rfl⟩ := Prod.mk.inj (Option.some.inj h)
            obtain ⟨b, hb, hskip⟩ := exists_of_skip (Eq.refl (skip flags cs))
            refine ⟨c :: b, congrArg (c :: ·) hb, fun r' n hr hn => ?_⟩
            obtain ⟨n, rfl⟩ := Nat.exists_eq_succ_of_ne_zero (Nat.ne_zero_of_lt hn)
            simp only [List.cons_append, leadingMembers, if_neg hhyphen, if_pos hbracket, hskip r' hr]
            split
            · exact absurd hr.symm Agree.not_nil
            · rfl
        · next hbracket =>
          obtain ⟨rfl, rfl⟩ := Prod.mk.inj (Option.some.inj h)
          refine ⟨[], rfl, fun r' n hr hn => ?_⟩
          obtain ⟨n, rfl⟩ := Nat.exists_eq_succ_of_ne_zero (Nat.ne_zero_of_lt hn)
          obtain ⟨d, t, rfl, hd⟩ := hr.exists_head_of
            (P := fun d => ¬(d == '-') = true ∧ ¬(d == ']' && ms.isEmpty) = true)
            ⟨hhyphen, hbracket⟩ fun d hd => by rcases hd with rfl | rfl <;> simp
          change leadingMembers flags (n + 1) ms (d :: t) = _
          rw [leadingMembers, if_neg hd.1, if_neg hd.2]

/-- The members of a class up to its closing bracket are a part of the text, whatever agrees with the
rest; a hyphen in front is followed by members or the bracket. -/
structure MembersRead (flags : Flags) (left : Option (CharClass × ℕ × SetOp)) (ms : Operand)
    (u : Text) (x : CharClass × ℕ) (r : Text) : Prop where
  reads : ∃ b, b ≠ [] ∧ u = b ++ r ∧ ∀ r' n, Agree r r' → b.length ≤ n →
    readClass.members? flags n left ms (b ++ r') = some (x, r')
  hyphen : ∀ t, u = '-' :: t → ∃ b, skip flags t = b ++ r

variable {left left' : Option (CharClass × ℕ × SetOp)} {ms ms' : Operand} {x : CharClass × ℕ}

theorem MembersRead.peeks {b r' : Text} (h : MembersRead flags left ms (b ++ r) x r)
    (hr : Agree r r') : Peeks flags '-' (b ++ r) (b ++ r') := peeks_append h.hyphen hr

theorem members?_skip (n : ℕ) (u : Text) :
    readClass.members? flags n left ms u = readClass.members? flags n left ms (skip flags u) := by
  cases n with
  | zero => rfl
  | succ n => simp only [readClass.members?, skip_skip]

theorem skip_hyphen (flags : Flags) (t : Text) : skip flags ('-' :: t) = '-' :: t :=
  skip_of_isSolid (by decide) flags t

theorem MembersRead.of_step {v w : Text} (hv : v ≠ []) (hskip : skip flags u = v ++ w)
    (h : MembersRead flags left' ms' w x r)
    (hstep : ∀ w' n, Agree w w' → Peeks flags '-' w w' → v.length ≤ n →
      readClass.members? flags (n + 1) left ms (v ++ w') = readClass.members? flags n left' ms' w')
    (hhyphen : ∀ t, v ++ w = '-' :: t → ∃ c, skip flags t = c ++ w) :
    MembersRead flags left ms u x r := by
  obtain ⟨b', hb', rfl, hread⟩ := h.reads
  obtain ⟨b, rfl, hb⟩ := skip_append hskip
  refine ⟨⟨b ++ (v ++ b'), by simp [hv], by simp, fun r' n hr hn => ?_⟩, fun t ht => ?_⟩
  · have hlen := List.length_pos_of_ne_nil hv
    have hlen' := List.length_pos_of_ne_nil hb'
    rw [List.length_append, List.length_append] at hn
    obtain ⟨n, rfl⟩ : ∃ m, n = m + 1 := ⟨n - 1, by omega⟩
    have hassoc : b ++ (v ++ b') ++ r' = b ++ (v ++ (b' ++ r')) := by simp
    rw [hassoc, members?_skip, hb _ (hr.append b'), hstep _ n (hr.append b') (h.peeks hr) (by omega)]
    exact hread r' n hr (by omega)
  · rw [ht, skip_hyphen] at hskip
    obtain ⟨c, hc⟩ := hhyphen t hskip.symm
    exact ⟨c ++ b', by simpa using hc⟩

/-! The cases of a step: the closing bracket, an operator, a class in brackets, and a range. -/

theorem members?_bracket {n : ℕ} {s : Text} :
    readClass.members? flags (n + 1) left ms (']' :: s) = some (combine left ms.close, s) := by
  simp (disch := decide) only [readClass.members?, skip_of_isSolid]

theorem members?_operator {c : Char} {op : SetOp} (hc : (c, op) = ('&', SetOp.inter) ∨
    (c, op) = ('-', SetOp.diff) ∨ (c, op) = ('~', SetOp.symmDiff)) (n : ℕ) (s : Text) :
    readClass.members? flags (n + 1) left ms (c :: c :: s) =
      readClass.members? flags n
        (some ((combine left ms.close).1, (combine left ms.close).2, op)) [] s := by
  rcases hc with heq | heq | heq <;> obtain ⟨rfl, rfl⟩ := Prod.mk.inj heq <;>
    simp (disch := decide) only [readClass.members?, skip_of_isSolid]

theorem members?_ascii {n : ℕ} {s rest : Text} {a : CharClass} {negated : Bool}
    (hread : readAsciiClass s = some (a, negated, rest)) :
    readClass.members? flags (n + 1) left ms ('[' :: s) =
      if negated && !flags.unicode then none
      else readClass.members? flags n left
        ((if negated then .compl (caseClosed flags a) else caseClosed flags a, 0) :: ms) rest := by
  simp (disch := decide) only [readClass.members?, skip_of_isSolid, hread]

theorem members?_class {n : ℕ} {s : Text} (hread : readAsciiClass s = none) :
    readClass.members? flags (n + 1) left ms ('[' :: s) =
      (readClass flags n s).bind fun x =>
        readClass.members? flags n left ((x.1, x.2.1) :: ms) x.2.2 := by
  simp (disch := decide) only [readClass.members?, skip_of_isSolid, hread]
  rfl

theorem members?_range {n : ℕ} {c : Char} {s : Text} (hskip : skip flags (c :: s) = c :: s)
    (hc : c ≠ ']' ∧ c ≠ '[') (hop : c ∈ ['&', '-', '~'] → s.head? ≠ some c) :
    readClass.members? flags (n + 1) left ms (c :: s) =
      (readRange flags (c :: s)).bind fun x =>
        readClass.members? flags n left ((x.1, 0) :: ms) x.2 := by
  simp only [readClass.members?, hskip]
  split <;> simp_all

/-- A bracketed class after its opening bracket is a part of the text. -/
def ClassReads (flags : Flags) (u : Text) (x : CharClass × ℕ) (r : Text) : Prop :=
  ∃ b, u = b ++ r ∧ ∀ r' n, Agree r r' → b.length < n →
    readClass flags n (b ++ r') = some (x.1, x.2, r')

section
variable {s : Text}

theorem membersRead_bracket (hskip : skip flags u = ']' :: s) :
    MembersRead flags left ms u (combine left ms.close) s := by
  obtain ⟨b, rfl, hb⟩ := skip_append (a := [']']) hskip
  refine ⟨⟨b ++ [']'], by simp, by simp, fun r' m hr hm => ?_⟩, fun t ht => ?_⟩
  · obtain ⟨m, rfl⟩ : ∃ k, m = k + 1 := ⟨m - 1, by simp at hm; omega⟩
    rw [List.append_assoc, members?_skip, hb r' hr]
    exact members?_bracket
  · rw [ht, skip_hyphen] at hskip
    exact absurd (List.cons.inj hskip).1 (by decide)

theorem MembersRead.ascii {rest : Text} {a : CharClass} {negated : Bool}
    (hskip : skip flags u = '[' :: s) (hascii : readAsciiClass s = some (a, negated, rest))
    (hnegated : ¬(negated && !flags.unicode) = true)
    (h : MembersRead flags left
      ((if negated then .compl (caseClosed flags a) else caseClosed flags a, 0) :: ms) rest x r) :
    MembersRead flags left ms u x r := by
  obtain ⟨b, -, rfl, hall⟩ := readAsciiClass_append hascii
  refine h.of_step (v := '[' :: b) (by simp) hskip ?_ ?_
  · intro w' m _ _ _
    rw [List.cons_append, members?_ascii (hall w'), if_neg hnegated]
  · intro t ht
    exact absurd (List.cons.inj ht).1 (by decide)

theorem MembersRead.nested {rest : Text} {y : CharClass × ℕ} (hskip : skip flags u = '[' :: s)
    (hascii : readAsciiClass s = none) (hclass : ClassReads flags s y rest)
    (h : MembersRead flags left (y :: ms) rest x r) : MembersRead flags left ms u x r := by
  obtain ⟨b, rfl, hread⟩ := hclass
  refine h.of_step (v := '[' :: b) (by simp) hskip ?_ ?_
  · intro w' m hw _ hm
    rw [List.cons_append, members?_class (readAsciiClass_eq_none (hw.append b) hascii),
      hread w' m hw hm]
    rfl
  · intro t ht
    exact absurd (List.cons.inj ht).1 (by decide)

theorem MembersRead.range {rest : Text} {c : Char} {a : CharClass}
    (hskip : skip flags u = c :: s) (hc : c ≠ ']' ∧ c ≠ '[')
    (hop : c ∈ ['&', '-', '~'] → s.head? ≠ some c)
    (hrange : readRange flags (c :: s) = some (a, rest))
    (h : MembersRead flags left ((a, 0) :: ms) rest x r) : MembersRead flags left ms u x r := by
  have hsolid := skip_cons_of_skip hskip
  have hread := rangeRead_of_readRange hrange
  obtain ⟨b, hb, hs, hread'⟩ := hread.reads
  obtain ⟨c, b, rfl⟩ := List.exists_cons_of_ne_nil hb
  obtain ⟨rfl, rfl⟩ := List.cons.inj hs
  refine h.of_step hb hskip ?_ ?_
  · intro w' m hw hpeek _
    have hop' : c ∈ ['&', '-', '~'] → (b ++ w').head? ≠ some c := by
      intro hc
      have hends : ¬EndsBranch c := by
        simp only [List.mem_cons, List.not_mem_nil, or_false] at hc
        rcases hc with rfl | rfl | rfl <;> decide
      exact (hw.append b).head?_ne hends (hop hc)
    rw [List.cons_append, members?_range (hsolid _) hc hop', ← List.cons_append,
      hread' w' hw hpeek]
    rfl
  · rintro t ht
    obtain ⟨rfl, rfl⟩ := List.cons.inj ht
    exact hread.member _ _ rfl

theorem exists_setOp_of_mem {c : Char} (hc : c ∈ ['&', '-', '~']) :
    ∃ op, (c, op) = ('&', SetOp.inter) ∨ (c, op) = ('-', SetOp.diff) ∨
      (c, op) = ('~', SetOp.symmDiff) := by
  simp only [List.mem_cons, List.not_mem_nil, or_false] at hc
  rcases hc with rfl | rfl | rfl
  · exact ⟨.inter, .inl rfl⟩
  · exact ⟨.diff, .inr (.inl rfl)⟩
  · exact ⟨.symmDiff, .inr (.inr rfl)⟩

theorem MembersRead.operator {c : Char} {op : SetOp} (hskip : skip flags u = c :: c :: s)
    (hop : (c, op) = ('&', SetOp.inter) ∨ (c, op) = ('-', SetOp.diff) ∨
      (c, op) = ('~', SetOp.symmDiff))
    (h : MembersRead flags (some ((combine left ms.close).1, (combine left ms.close).2, op)) [] s
      x r) : MembersRead flags left ms u x r := by
  refine h.of_step (v := [c, c]) (by simp) hskip ?_ ?_
  · exact fun w' m _ _ _ => members?_operator hop m w'
  · intro t ht
    obtain ⟨rfl, rfl⟩ := List.cons.inj ht
    exact ⟨['-'], skip_hyphen flags s⟩

end

theorem membersRead_succ {n : ℕ}
    (ihclass : ∀ u x r, readClass flags n u = some (x.1, x.2, r) → ClassReads flags u x r)
    (ih : ∀ left ms u r, readClass.members? flags n left ms u = some (x, r) →
      MembersRead flags left ms u x r)
    (h : readClass.members? flags (n + 1) left ms u = some (x, r)) :
    MembersRead flags left ms u x r := by
  rw [members?_skip] at h
  match hskip : skip flags u with
  | [] =>
    rw [hskip] at h
    simp only [readClass.members?, skip_nil] at h
    cases h
  | c :: s =>
    rw [hskip] at h
    by_cases hend : c = ']'
    · subst hend
      rw [members?_bracket] at h
      cases h
      exact membersRead_bracket hskip
    by_cases hopen : c = '['
    · subst hopen
      match hascii : readAsciiClass s with
      | some (a, negated, rest) =>
        rw [members?_ascii hascii] at h
        obtain ⟨hnegated, h⟩ := Option.ite_none_left_eq_some.1 h
        exact (ih _ _ _ _ h).ascii hskip hascii hnegated
      | none =>
        rw [members?_class hascii] at h
        obtain ⟨⟨a, depth, rest⟩, hclass, hmembers⟩ := Option.bind_eq_some_iff.1 h
        exact (ih _ _ _ _ hmembers).nested hskip hascii (ihclass s (a, depth) rest hclass)
    by_cases hop : c ∈ ['&', '-', '~'] → s.head? ≠ some c
    · rw [members?_range (skip_cons_of_skip hskip s) ⟨hend, hopen⟩ hop] at h
      obtain ⟨⟨a, rest⟩, hrange, hmembers⟩ := Option.bind_eq_some_iff.1 h
      exact (ih _ _ _ _ hmembers).range hskip ⟨hend, hopen⟩ hop hrange
    · obtain ⟨hc, hs⟩ := Classical.not_imp.1 hop
      obtain ⟨s, rfl⟩ := List.head?_eq_some_iff.1 (not_not.1 hs)
      obtain ⟨op, hop⟩ := exists_setOp_of_mem hc
      rw [members?_operator hop] at h
      exact (ih _ _ _ _ h).operator hskip hop

def classBody (flags : Flags) (n : ℕ) (t : Text) : Option ((CharClass × ℕ) × Text) :=
  (leadingMembers flags (t.length + 1) [] t).bind fun x => readClass.members? flags n none x.1 x.2

theorem readClass_negated {n : ℕ} {s : Text} (hskip : skip flags u = '^' :: s) :
    readClass flags (n + 1) u = (classBody flags n (skip flags s)).bind fun x =>
      if flags.unicode then some (.compl x.1.1, x.1.2 + 1, x.2) else none := by
  rw [classBody, Option.bind_assoc]
  simp only [readClass, hskip, List.head?_cons, beq_self_eq_true, if_true, List.drop_one,
    List.tail_cons]
  rfl

theorem readClass_plain {n : ℕ} (hhead : (skip flags u).head? ≠ some '^') :
    readClass flags (n + 1) u = (classBody flags n (skip flags u)).bind fun x =>
      some (x.1.1, x.1.2 + 1, x.2) := by
  have hne : ((skip flags u).head? == some '^') = false := beq_eq_false_iff_ne.2 hhead
  rw [classBody, Option.bind_assoc]
  simp only [readClass, hne, Bool.false_eq_true, if_false]
  rfl

theorem reads_classBody {n : ℕ}
    (ih : ∀ ms u r, readClass.members? flags n none ms u = some (x, r) →
      MembersRead flags none ms u x r) (h : classBody flags n u = some (x, r)) :
    ∃ b, b ≠ [] ∧ u = b ++ r ∧ ∀ r' m, Agree r r' → b.length ≤ m →
      classBody flags m (b ++ r') = some (x, r') := by
  obtain ⟨⟨ms, rest⟩, hleading, hmembers⟩ := Option.bind_eq_some_iff.1 h
  obtain ⟨a, rfl, hread⟩ := (reads_leadingMembers hleading).of_length
  obtain ⟨b, hb, rfl, hread'⟩ := (ih _ _ _ hmembers).reads
  refine ⟨a ++ b, by simp [hb], by simp, fun r' m hr hm => ?_⟩
  rw [List.length_append] at hm
  have hread : leadingMembers flags ((a ++ (b ++ r')).length + 1) [] (a ++ (b ++ r')) =
      some (ms, b ++ r') := hread _ _ (hr.append b) (Nat.lt_succ_self _)
  rw [List.append_assoc, classBody, hread]
  exact hread' r' m hr (by omega)

theorem classReads_succ {n : ℕ}
    (ih : ∀ ms u x r, readClass.members? flags n none ms u = some (x, r) →
      MembersRead flags none ms u x r) (h : readClass flags (n + 1) u = some (x.1, x.2, r)) :
    ClassReads flags u x r := by
  obtain ⟨cls, nesting⟩ := x
  by_cases hhead : (skip flags u).head? = some '^'
  · obtain ⟨s, hskip⟩ := List.head?_eq_some_iff.1 hhead
    rw [readClass_negated hskip] at h
    obtain ⟨⟨⟨a, depth⟩, rest⟩, hbody, hresult⟩ := Option.bind_eq_some_iff.1 h
    obtain ⟨hunicode, hresult⟩ := Option.ite_none_right_eq_some.1 hresult
    obtain ⟨b, -, hs, hread⟩ := reads_classBody (fun ms u r => ih ms u _ r) hbody
    obtain ⟨e, rfl, he⟩ := exists_of_skip hskip
    obtain ⟨e', rfl, he'⟩ := skip_append hs
    cases hresult
    refine ⟨e ++ '^' :: (e' ++ b), by simp, fun r' m hr hm => ?_⟩
    obtain ⟨m, rfl⟩ := Nat.exists_eq_succ_of_ne_zero (Nat.ne_zero_of_lt hm)
    have hassoc : e ++ '^' :: (e' ++ b) ++ r' = e ++ '^' :: (e' ++ (b ++ r')) := by simp
    have hagree : Agree ('^' :: (e' ++ (b ++ rest))) ('^' :: (e' ++ (b ++ r'))) :=
      .cons '^' ((hr.append b).append e')
    simp only [List.length_append, List.length_cons] at hm
    rw [hassoc, readClass_negated (he _ hagree), he' r' hr, hread r' m hr (by omega)]
    exact if_pos hunicode
  · rw [readClass_plain hhead] at h
    obtain ⟨⟨⟨a, depth⟩, rest⟩, hbody, hresult⟩ := Option.bind_eq_some_iff.1 h
    obtain ⟨b, -, hs, hread⟩ := reads_classBody (fun ms u r => ih ms u _ r) hbody
    obtain ⟨e, rfl, he⟩ := skip_append hs
    cases hresult
    refine ⟨e ++ b, by simp, fun r' m hr hm => ?_⟩
    obtain ⟨m, rfl⟩ := Nat.exists_eq_succ_of_ne_zero (Nat.ne_zero_of_lt hm)
    rw [hs] at hhead
    have hhead' : (skip flags (e ++ (b ++ r'))).head? ≠ some '^' := by
      rw [he r' hr]
      exact (hr.append b).head?_ne (by decide) hhead
    rw [List.length_append] at hm
    rw [List.append_assoc, readClass_plain hhead', he r' hr, hread r' m hr (by omega)]
    rfl

theorem reads_class_and_members (flags : Flags) (n : ℕ) :
    (∀ u x r, readClass flags n u = some (x.1, x.2, r) → ClassReads flags u x r) ∧
      ∀ left ms u x r, readClass.members? flags n left ms u = some (x, r) →
        MembersRead flags left ms u x r := by
  induction n with
  | zero =>
    constructor
    · intro u x r h
      cases h
    · intro left ms u x r h
      cases h
  | succ n ih =>
    constructor
    · intro u x r h
      exact classReads_succ (ih.2 none) h
    · intro left ms u x r h
      exact membersRead_succ ih.1 (fun left ms u r => ih.2 left ms u x r) h

end

end PageCache.Pattern.Parser
