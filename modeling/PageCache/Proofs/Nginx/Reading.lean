import PageCache.Proofs.Nginx.Words
import PageCache.Proofs.Words.Statements

/-! How the core rules of Nginx are read: actions up to their semicolons, conditions up to the braces
of their blocks. -/
namespace PageCache.Nginx

theorem exactly_newline : lexicon.Exactly ['\n'] [] True := Lexicon.Exactly.cut (by decide)

theorem exactly_closing : lexicon.Exactly "\x7d\n" [.mark '\x7d'] True := .of_run (by decide)

theorem isSpace_of_blank (c : Char) (h : lexicon.blank c = true) : Text.isSpace c = true := by
  simp only [lexicon, Bool.or_eq_true, beq_iff_eq, or_assoc] at h
  rcases h with rfl | rfl | rfl | rfl <;> decide

namespace Action

def tokens (a : Action) : List Token := a.words.map Word.token ++ [.mark ';']

theorem render_eq (a : Action) : a.render = Text.join (a.words.map Word.render) " " ++ [';'] := by
  rw [render.eq_def]
  cases a <;> simp [words, Text.join, List.intercalate]

theorem words_ne_nil (a : Action) : a.words ≠ [] := by
  cases a <;> simp [words]

theorem exactly {a : Action} (hstart : ∀ w ∈ a.words, w.Starts lexicon) :
    lexicon.Exactly a.render a.tokens (∀ w ∈ a.words, w.reads lexicon = true) := by
  rw [render_eq]
  exact Lexicon.Exactly.words usual_lexicon a.words a.words_ne_nil hstart (by decide) (.inl rfl)

theorem exactly_indented {a : Action} (hstart : ∀ w ∈ a.words, w.Starts lexicon) :
    lexicon.Exactly (indented a.render) a.tokens (∀ w ∈ a.words, w.reads lexicon = true) := by
  have hblank : lexicon.Exactly [' '] [] True := Lexicon.Exactly.cut usual_lexicon.cuts_blank
  have hindent := hblank.append (hblank.append (hblank.append hblank))
  have hline := (hindent.append (exactly hstart)).append exactly_newline
  have htext : indented a.render = [' '] ++ ([' '] ++ ([' '] ++ [' '])) ++ a.render ++ ['\n'] := by
    simp [indented, indent]
  rw [htext]
  have htokens : [] ++ ([] ++ ([] ++ [])) ++ a.tokens ++ [] = a.tokens := by simp
  rw [htokens] at hline
  exact hline.congr (by simp)

end Action

namespace Condition

theorem render_eq (c : Condition) :
    "if (" ++ c.render ++ ")" =
      Text.join ((Word.bare "if" :: c.front).map Word.render) " " ++ " " ++ c.last.render ++ ")" := by
  rw [render.eq_def]
  cases c <;> simp [front, last, Text.join, List.intercalate]

theorem exactly_closed {w : Word} (hstart : ∀ v ∈ closed w, v.Starts lexicon) :
    lexicon.Exactly (w.render ++ ")" ++ [' ']) ((closed w).map Word.token)
      (∀ v ∈ closed w, v.reads lexicon = true) := by
  obtain ⟨t, isQuoted, isVerbatim⟩ := w
  cases isQuoted with
  | true =>
    have hclose := Lexicon.Exactly.words (c := ' ') usual_lexicon [.bare ")"] (by simp) (by decide)
      usual_lexicon.cuts_blank (.inl rfl)
    have hquoted := (Lexicon.Exactly.quoted (t := t) usual_lexicon.quote).append hclose
    have htext : (⟨t, true, isVerbatim⟩ : Word).render ++ ")" ++ [' '] =
        '"' :: (t ++ ['"']) ++ (Text.join ([Word.bare ")"].map Word.render) " " ++ [' ']) := by
      simp [Word.render, Word.bare, Text.join]
    rw [htext]
    have hreads : (∀ v ∈ closed ⟨t, true, isVerbatim⟩, v.reads lexicon = true) ↔
        (Word.inQuotes t).reads lexicon = true ∧ ∀ v ∈ [Word.bare ")"], v.reads lexicon = true :=
      List.forall_mem_cons
    exact hquoted.congr hreads.symm
  | false =>
    have hword := Lexicon.Exactly.words (c := ' ') usual_lexicon [.bare (t ++ ")")] (by simp) hstart
      usual_lexicon.cuts_blank (.inl rfl)
    have htext : (⟨t, false, isVerbatim⟩ : Word).render ++ ")" ++ [' '] =
        Text.join ([Word.bare (t ++ ")")].map Word.render) " " ++ [' '] := by
      simp [Word.render, Word.bare, Text.join]
    rw [htext]
    exact hword

/-- The heading of a block is read as the words of its condition exactly if each of them is read back. -/
theorem exactly {c : Condition} (hstart : ∀ w ∈ c.words, w.Starts lexicon) :
    lexicon.Exactly ("if (" ++ c.render ++ ")" ++ " \x7b\n") (c.words.map Word.token ++ [.mark '\x7b'])
      (∀ w ∈ c.words, w.reads lexicon = true) := by
  obtain ⟨hfront, hclosed⟩ := List.forall_mem_append.1 hstart
  have hopen : lexicon.Exactly "\x7b\n" [.mark '\x7b'] True := .of_run (by decide)
  have hwords := Lexicon.Exactly.words (c := ' ') usual_lexicon (.bare "if" :: c.front) (by simp)
    hfront usual_lexicon.cuts_blank (.inl rfl)
  have hall := hwords.append ((exactly_closed hclosed).append hopen)
  have htext : "if (" ++ c.render ++ ")" ++ " \x7b\n" =
      Text.join ((Word.bare "if" :: c.front).map Word.render) " " ++ [' '] ++
        (c.last.render ++ ")" ++ [' '] ++ "\x7b\n") := by
    rw [render_eq]
    simp
  have htokens : c.words.map Word.token ++ [.mark '\x7b'] =
      (Word.bare "if" :: c.front).map Word.token ++ lexicon.cutTokens ' ' ++
        ((closed c.last).map Word.token ++ [.mark '\x7b']) := by
    simp [words, usual_lexicon.cutTokens_blank]
  have hreads : (∀ w ∈ c.words, w.reads lexicon = true) ↔
      (∀ w ∈ Word.bare "if" :: c.front, w.reads lexicon = true) ∧
        ∀ w ∈ closed c.last, w.reads lexicon = true := List.forall_mem_append
  rw [htext, htokens]
  exact hall.congr (by rw [hreads, and_true])

end Condition

namespace Directive

def tokens : Directive → List Token
  | act a => a.tokens
  | block c body =>
    c.words.map Word.token ++ [.mark '\x7b'] ++ body.flatMap Action.tokens ++ [.mark '\x7d']

/-- A directive is read as its words exactly if each of them is read back. -/
def ReadExactly (d : Directive) : Prop :=
  lexicon.Exactly d.render d.tokens (∀ w ∈ d.words, w.reads lexicon = true)

theorem readExactly {d : Directive} (hstart : ∀ w ∈ d.words, w.Starts lexicon) :
    d.ReadExactly := by
  rw [ReadExactly]
  cases d with
  | act a =>
    have hline := (Action.exactly hstart).append exactly_newline
    rw [List.append_nil] at hline
    exact hline.congr (and_iff_left trivial)
  | block c body =>
    obtain ⟨hcondition, hbody⟩ := List.forall_mem_append.1 hstart
    have hactions := Lexicon.Exactly.flatMap fun a ha => Action.exactly_indented
      (List.forall_mem_flatMap.1 hbody a ha)
    have hall := ((Condition.exactly hcondition).append hactions).append exactly_closing
    have htext : (block c body).render = "if (" ++ c.render ++ ")" ++ " \x7b\n" ++
        body.flatMap (fun a => indented a.render) ++ "\x7d\n" := by
      rw [← List.flatMap_map]
      rfl
    have hreads : (∀ w ∈ (block c body).words, w.reads lexicon = true) ↔
        (∀ w ∈ c.words, w.reads lexicon = true) ∧
          ∀ a ∈ body, ∀ w ∈ a.words, w.reads lexicon = true := by
      rw [words, List.forall_mem_append, List.forall_mem_flatMap]
    rw [htext]
    exact hall.congr (by rw [hreads, and_true])

/-- A target that starts a comment is not read: the next token is the flag if a line of the target
ends the comment, and the end of the block if none does. -/
theorem tokens_comment_ne (t rest : Text) (ts : List Token) :
    lexicon.tokens .gap ('#' :: t ++ (" redirect;\n\x7d\n" ++ rest)) ≠
      .word ('#' :: t) :: .word "redirect" :: .mark ';' :: ts := by
  intro heq
  rcases Lexicon.begun_of_word (by decide) List.prefix_rfl heq with
    (hrun | hrun) | ⟨c, r, htarget, hstep, -⟩
  · have hnext : lexicon.run .gap " redirect;\n\x7d\n" =
        ([.word "redirect", .mark ';', .mark '\x7d'], .gap) := by decide
    rw [Lexicon.tokens_append, hrun, Lexicon.tokens_append, hnext] at heq
    simp at heq
  · have hnext : lexicon.run .comment " redirect;\n\x7d\n" = ([.mark '\x7d'], .gap) := by decide
    rw [Lexicon.tokens_append, hrun, Lexicon.tokens_append, hnext] at heq
    simp at heq
  · obtain ⟨rfl, -⟩ := List.cons.inj htarget
    have hopens : lexicon.step .gap '#' = ([], .comment) := by decide
    rw [hopens] at hstep
    cases hstep

/-- A target at the end of a line and a block is read exactly if it is read back. -/
theorem exactly_target {target : Text} (h : target.Trimmed) :
    lexicon.Exactly (target ++ " redirect;\n\x7d\n")
      [.word target, .word "redirect", .mark ';', .mark '\x7d']
      ((Word.given target).reads lexicon = true) := by
  by_cases hcomment : target.head?.any lexicon.opensComment = true
  · obtain ⟨c, hhead, hc⟩ := (Option.any_eq_true _ _).1 hcomment
    obtain rfl : c = '#' := by simpa [Lexicon.opensComment, lexicon] using hc
    obtain ⟨t, rfl⟩ := List.head?_eq_some_iff.1 hhead
    have hunread : ¬(Word.given ('#' :: t)).reads lexicon = true := by
      simp [Word.reads, Word.given, Lexicon.opens, hc]
    refine ⟨fun hreads => absurd hreads hunread, fun _ rest us => ?_⟩
    rw [List.append_assoc]
    exact tokens_comment_ne t rest _
  · have hstart : (Word.given target).Starts lexicon :=
      Lexicon.starts_of_trimmed isSpace_of_blank h (Bool.not_eq_true _ ▸ hcomment)
    have hwords := Lexicon.Exactly.words (c := ';') usual_lexicon [.given target, .bare "redirect"]
      (by simp) (by simpa using ⟨hstart, by decide⟩) (by decide) (.inl rfl)
    have hclosing : lexicon.Exactly "\n\x7d\n" [.mark '\x7d'] True := .of_run (by decide)
    have hreads : (∀ w ∈ [Word.given target, .bare "redirect"], w.reads lexicon = true) ↔
        (Word.given target).reads lexicon = true :=
      List.forall_mem_cons.trans (and_iff_left (List.forall_mem_singleton.2 (by decide)))
    have htext : target ++ " redirect;\n\x7d\n" =
        Text.join ([Word.given target, .bare "redirect"].map Word.render) " " ++ [';'] ++
          "\n\x7d\n" := by
      simp [Word.render, Word.given, Word.bare, Text.join]
    rw [htext]
    exact (hwords.append hclosing).congr ((and_iff_left trivial).trans hreads)

theorem readExactly_redirect {c : Condition} {target : Text}
    (hcondition : ∀ w ∈ c.words, w.Starts lexicon) (htarget : target.Trimmed) :
    (block c [.rewrite ".*" (.given target) .redirect]).ReadExactly := by
  have hrewrite : lexicon.Exactly "    rewrite .* " [.word "rewrite", .word ".*"] True :=
    .of_run (by decide)
  have hall := (Condition.exactly hcondition).append (hrewrite.append (exactly_target htarget))
  have hbefore : ∀ w ∈ [Word.bare "rewrite", .bare ".*"], w.reads lexicon = true := by decide
  have hafter : ∀ w ∈ [Word.bare "redirect"], w.reads lexicon = true := by decide
  have hreads : (∀ w ∈ (block c [.rewrite ".*" (.given target) .redirect]).words,
      w.reads lexicon = true) ↔
        (∀ w ∈ c.words, w.reads lexicon = true) ∧ (Word.given target).reads lexicon = true := by
    rw [words, List.forall_mem_append]
    exact and_congr_right fun _ => forall_mem_around hbefore hafter
  have hline : indented (Action.rewrite ".*" (.given target) .redirect).render ++ "\x7d\n" =
      "    rewrite .* " ++ (target ++ " redirect;\n\x7d\n") := by
    have hword : (Word.given target).render = target := rfl
    rw [indented, Action.render.eq_def]
    simp only [hword, List.append_assoc]
    rfl
  have htext : (block c [.rewrite ".*" (.given target) .redirect]).render =
      "if (" ++ c.render ++ ")" ++ " \x7b\n" ++
        ("    rewrite .* " ++ (target ++ " redirect;\n\x7d\n")) := by
    rw [render, braced, List.map_singleton, List.flatMap_singleton, List.append_assoc, hline]
  have htokens : (block c [.rewrite ".*" (.given target) .redirect]).tokens =
      c.words.map Word.token ++ [.mark '\x7b'] ++ ([.word "rewrite", .word ".*"] ++
        [.word target, .word "redirect", .mark ';', .mark '\x7d']) := by
    rw [tokens, List.flatMap_singleton, List.append_assoc]
    rfl
  rw [ReadExactly, htext, htokens]
  exact hall.congr (by rw [hreads, true_and])

end Directive

def ruleTokens (ds : List Directive) : List Token := ds.flatMap Directive.tokens

theorem readExactly_step {tenancy : Option Tenancy} {encoding : Text} {x : Step}
    (hencoding : ∀ c ∈ encoding, lexicon.isPlain c = true) (hx : x.Sound lexicon tenancy)
    (htargets : ∀ t ∈ x.targets, t.Trimmed) :
    ∀ d ∈ stepDirectives tenancy encoding x, d.ReadExactly := by
  have hwords := forall_stepWords (Lexicon.criterion_starts_inQuotes lexicon) hencoding x hx
  have hexactly (hnone : x.targets = []) : ∀ d ∈ stepDirectives tenancy encoding x,
      d.ReadExactly := fun d hd => Directive.readExactly fun w hw =>
    hwords.2 ⟨fun _ _ => .inl rfl, by simp [hnone], fun _ _ => trivial⟩
      w (List.mem_flatMap.2 ⟨d, hd, hw⟩)
  cases x with
  | redirect subject pattern target =>
    have hsubject : (Word.bare ("(" ++ subjectVariable subject)).Starts lexicon := by
      cases subject <;> decide
    have hcondition : ∀ w ∈ (Condition.test (subjectVariable subject) .insensitive
        (.inQuotes pattern)).words, w.Starts lexicon :=
      List.forall_mem_cons.2 ⟨by decide, List.forall_mem_cons.2 ⟨hsubject, List.forall_mem_cons.2
        ⟨by decide, List.forall_mem_cons.2 ⟨.inl rfl, by decide⟩⟩⟩⟩
    exact List.forall_mem_singleton.2
      (Directive.readExactly_redirect hcondition (htargets target List.mem_cons_self))
  | _ => exact hexactly rfl

/-- The core rules are read as their directives exactly if no pattern and no cache directory closes
the quotes around it and no target is cut. -/
theorem tokens_coreRules_iff {p : Policy} {s : Site} (hp : p.WellFormed) :
    lexicon.tokens .gap (coreRules (.build p s)) = ruleTokens (coreDirectives (.build p s)) ↔
      (∀ t ∈ p.patternTexts s, lexicon.unclosed '"' false t = true) ∧
        (∀ t ∈ p.targetTexts, (Word.given t).reads lexicon = true) ∧
        lexicon.unclosed '"' false (p.cachePath s) = true := by
  have hexactly : ∀ d ∈ coreDirectives (.build p s), d.ReadExactly := by
    rw [coreDirectives_build]
    refine List.forall_mem_flatMap.2 fun x hx => ?_
    exact readExactly_step (isPlain_encodingOf _) (Program.sound_of_mem_build spares_lexicon hp x hx)
      (Program.forall_targets_build.2 (fun _ ht => hp.trimmed_of_mem_targetTexts ht) x hx)
  have hall := Lexicon.Exactly.flatMap hexactly
  rw [coreRules, render, ruleTokens, hall.tokens_eq_iff,
    forall_words_coreDirectives (Lexicon.criterion_reads_inQuotes lexicon) hp]

end PageCache.Nginx
