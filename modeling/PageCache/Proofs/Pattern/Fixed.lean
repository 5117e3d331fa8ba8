import PageCache.Proofs.Pattern.Search
import PageCache.Proofs.Text.Occurrence
import PageCache.Decision.Evaluate

/-! The patterns that the generated rules contain for every policy, and what they ask of a value
in terms of its text. -/
namespace PageCache.Pattern

open Pattern.Expr

deriving instance DecidableEq for Unicode.CharProperty, CharClass, Expr

theorem parse?_anything :
    parse? false ".*" = some (rep (one (.compl (.single '\n'))) 0 none true) := rfl

theorem parse?_slashAtEnd :
    parse? false "\\/$" = some (seq (ofChar '/') (look .textEnd)) := rfl

theorem parse?_otherAtEnd :
    parse? false "[^\\/]$" = some (seq (one (.compl (.single '/'))) (look .textEnd)) := rfl

theorem parse?_gzip : parse? false "gzip" = some (chars "gzi" (ofChar 'p')) := rfl

theorem parse?_selfTest :
    parse? false Program.selfTestPattern =
      some (seq (look .textStart) (seq
        (rep (group 1 (seq (rep (one (.compl (.single '\n'))) 0 none true) (ofChar '/')))
          0 (some 1) true)
        (chars Program.selfTestToken (look .textEnd)))) := rfl

/-- Anything has a match, if only an empty one. -/
theorem found_anything (value : Text) : found false ".*" value = true := by
  rw [found_iff_of_parse? parse?_anything]
  exact ⟨[], [], value, rfl, matches_many.2 (by simp)⟩

theorem found_slashAtEnd (value : Text) : found false "\\/$" value = value.endsWith "/" := by
  rw [Bool.eq_iff_iff, found_iff_of_parse? parse?_slashAtEnd, Text.endsWith_iff]
  simp only [matches_seq, matches_ofChar, matches_textEnd]
  constructor
  · rintro ⟨pre, mid, post, rfl, m, n, rfl, rfl, rfl, rfl⟩
    exact ⟨pre, by simp⟩
  · rintro ⟨pre, rfl⟩
    exact ⟨pre, ['/'], [], rfl, ['/'], [], rfl, rfl, rfl, rfl⟩

theorem found_otherAtEnd (value : Text) :
    found false "[^\\/]$" value = !(value.isEmpty || value.endsWith "/") := by
  rw [Bool.eq_iff_iff, found_iff_of_parse? parse?_otherAtEnd]
  simp only [matches_seq, matches_one, matches_textEnd, Bool.not_eq_true', Bool.or_eq_false_iff]
  constructor
  · rintro ⟨pre, mid, post, rfl, m, n, rfl, ⟨c, rfl, hc⟩, rfl, rfl⟩
    refine ⟨by simp, ?_⟩
    rw [Bool.eq_false_iff, ne_eq, Text.endsWith_iff]
    rintro ⟨a, ha⟩
    have hl : '/' = c := by simpa using congrArg List.getLast? ha
    simp [CharClass.contains, ← hl] at hc
  · rintro ⟨hne, hend⟩
    obtain ⟨pre, c, rfl⟩ := (List.eq_nil_or_concat' value).resolve_left (by simpa using hne)
    refine ⟨pre, [c], [], by simp, [c], [], rfl, ⟨c, rfl, ?_⟩, rfl, rfl⟩
    simp only [CharClass.contains, Bool.not_eq_true', beq_eq_false_iff_ne]
    rintro rfl
    have : Text.endsWith (pre ++ ['/']) "/" = true := Text.endsWith_iff.2 ⟨pre, rfl⟩
    rw [hend] at this
    cases this

theorem found_gzip (value : Text) : found false "gzip" value = value.includes "gzip" := by
  rw [Bool.eq_iff_iff, found_iff_of_parse? parse?_gzip, Text.includes_iff]
  simp only [matches_chars, matches_ofChar]
  constructor
  · rintro ⟨pre, mid, post, rfl, n, rfl, rfl⟩
    exact ⟨pre, post, by simp⟩
  · rintro ⟨pre, post, rfl⟩
    exact ⟨pre, "gzip", post, by simp, ['p'], rfl, rfl⟩

/-- The servers recognise the test of rewriting where the program does. -/
theorem found_selfTest {r : Request} (h : '\n' ∉ r.uri) :
    found false Program.selfTestPattern r.uri = r.isSelfTest := by
  rw [Bool.eq_iff_iff, found_iff_of_parse? parse?_selfTest]
  simp only [matches_seq, matches_textStart, matches_optional, matches_group, matches_many,
    matches_ofChar, matches_chars, matches_textEnd]
  constructor
  · rintro ⟨pre, mid, post, ht, -, n, rfl, ⟨rfl, rfl⟩, m, n, rfl, hm, n', rfl, rfl, rfl⟩
    have huri : r.uri.stripSuffix? Program.selfTestToken = some m :=
      Text.stripSuffix?_eq_some_iff.2 (by simpa using ht)
    simp only [Request.isSelfTest, huri]
    rcases hm with rfl | ⟨a, b, rfl, -, rfl⟩
    · rfl
    · exact Bool.or_eq_true_iff.2 (.inr (Text.endsWith_iff.2 ⟨a, rfl⟩))
  · intro hs
    unfold Request.isSelfTest at hs
    split at hs
    · next m hm =>
      have ht := Text.stripSuffix?_eq_some_iff.1 hm
      refine ⟨[], r.uri, [], by simp, [], r.uri, rfl, ⟨rfl, rfl⟩, m, Program.selfTestToken, ht, ?_,
        [], by simp, rfl, rfl⟩
      rcases Bool.or_eq_true _ _ ▸ hs with hs | hs
      · exact .inl (List.isEmpty_iff.1 hs)
      · obtain ⟨a, rfl⟩ := Text.endsWith_iff.1 hs
        refine .inr ⟨a, ['/'], rfl, fun c hc => ?_, rfl⟩
        have : c ≠ '\n' := by
          rintro rfl
          exact h (by simp [ht, hc])
        simpa [CharClass.contains] using this
    · simp at hs

end PageCache.Pattern
