import PageCache.Proofs.Apache.Reading
import PageCache.Proofs.Rules.Avoidance

/-! Markers in the rules of Apache. A line has the marker of a block only if one of its words has it,
and no marker runs over the end of a line. -/
namespace PageCache.Apache

open Region

variable {b : Block} {p : Policy} {s : Site}

theorem Directive.Regular.avoids_render_iff {d : Directive} (h : d.Regular) :
    Avoids [b.region] d.render ↔ ∀ w ∈ d.words, Avoids [b.region] w.text := by
  have hbracket : b.sparesBlank '[' = true := by cases b <;> decide
  have hflags : ∀ (v : Word) (flags : List Text), ([v] ++ flagWords flags).IsChain b.Joined := by
    intro v flags
    unfold flagWords
    split
    · simp
    · have hjoined : b.Joined v (.bare ("[" ++ Text.join flags "," ++ "]")) :=
        .inr (.inr ⟨'[', rfl, hbracket⟩)
      simpa using hjoined
  rw [render_eq]
  refine Block.avoids_join ?_
  cases d with
  | engineOn => exact List.isChain_cons_cons.2 ⟨.inl (by decide), List.isChain_singleton _⟩
  | base path => exact List.isChain_cons_cons.2 ⟨.inl (by decide), List.isChain_singleton _⟩
  | cond subject check ignoreCase either =>
    have hsubject : b.Joined subject (.bare check.render) := h.1.elim (.inr ∘ .inl) .inl
    exact List.isChain_cons_cons.2 ⟨.inl (by decide),
      List.isChain_cons_cons.2 ⟨hsubject, hflags _ _⟩⟩
  | rule pattern substitution flags =>
    exact List.isChain_cons_cons.2 ⟨.inl (by decide),
      List.isChain_cons_cons.2 ⟨.inl h.1, hflags _ _⟩⟩

theorem avoids_ifModule {name : Text} (hname : '#' ∉ name) (ls : List Text) :
    Avoids [b.region] (ifModule name ls) ↔ ∀ l ∈ ls, Avoids [b.region] l := by
  have htext : ifModule name ls = (("<IfModule " : Text) ++ name ++ ">\n") ++
      ls.flatMap indented ++ '<' :: "/IfModule>\n" := rfl
  have hopening := List.not_mem_append (List.not_mem_append
    (by decide : '#' ∉ ("<IfModule " : Text)) hname) (by decide : '#' ∉ (">\n" : Text))
  have hmark : b.spares '<' = true := by cases b <;> decide
  rw [htext, Block.avoids_append_of_rest hmark (by decide), Block.avoids_append_of_no_hash hopening,
    Block.avoids_lines]

/-- The core rules have a marker only if a text of the policy or the site brings it along. -/
theorem avoids_coreRules_iff (hp : p.WellFormed) (hs : s.WellFormed) :
    Avoids [b.region] (coreRules (.build p s)) ↔
      Avoids [b.region] (Program.build p s).rewriteBase ∧
        (∀ t ∈ p.patternTexts s, Avoids [b.region] t) ∧
        (∀ t ∈ p.targetTexts, Avoids [b.region] t) ∧ Avoids [b.region] (p.cachePath s) := by
  obtain ⟨-, u, hend, -⟩ := hs.rewriteBase p
  have hlast : (Program.build p s).rewriteBase.getLast? ≠ some '\\' := by
    rw [hend, List.getLast?_concat]
    decide
  have hrules : Avoids [b.region] (coreRules (.build p s)) ↔
      ∀ d ∈ coreDirectives (.build p s), Avoids [b.region] d.render := by
    rw [coreRules, Apache.render, avoids_ifModule (by decide), List.forall_mem_map]
  rw [hrules, forall₂_congr fun d hd =>
    (regular_of_mem_coreDirectives hp hlast d hd).avoids_render_iff]
  exact forall_words_coreDirectives (Block.criterion_avoids b lexicon fun _ => rfl) hp

theorem no_hash_ifModule {name : Text} {ls : List Text} (hname : '#' ∉ name)
    (hls : ∀ l ∈ ls, '#' ∉ l) : '#' ∉ ifModule name ls := by
  have htext : ifModule name ls = ("<IfModule " : Text) ++ name ++ ">\n" ++
      ls.flatMap indented ++ "</IfModule>\n" := rfl
  have hlines : '#' ∉ ls.flatMap indented := by
    intro h
    obtain ⟨l, hl, hmem⟩ := List.mem_flatMap.1 h
    have hline : '#' ∉ indented l :=
      List.not_mem_append (List.not_mem_append (by decide) (hls l hl)) (by decide)
    exact hline hmem
  have hopening := List.not_mem_append (List.not_mem_append
    (by decide : '#' ∉ ("<IfModule " : Text)) hname) (by decide : '#' ∉ (">\n" : Text))
  rw [htext]
  exact List.not_mem_append (List.not_mem_append hopening hlines) (by decide)

theorem avoids_headerLines {plan : HeaderPlan} (h : plan.NoHash) :
    (∀ l ∈ headerLines plan, Avoids [b.region] l) ↔ ∀ url ∈ plan.pingbackUrl, Avoids [b.region] url := by
  have hpowered : ∀ l ∈ Text.enclosed? plan.poweredBy "Header set X-Powered-By \"" "\"",
      Avoids [b.region] l :=
    Block.avoids_enclosed_of_no_hash (by decide) h.poweredBy (by decide)
  have hvary : Avoids [b.region] (("Header set Vary \"" : Text) ++ plan.vary ++ "\"") :=
    Block.avoids_of_no_hash (List.not_mem_append (List.not_mem_append (by decide) h.vary) (by decide))
  have hcontrol : ∀ control ∈ plan.cacheControl,
      Avoids [b.region] (("Header set Pragma \"" : Text) ++ control.pragma ++ "\"") ∧
      Avoids [b.region] (("Header " : Text) ++ modeWord control.mode ++ " Cache-Control \"" ++
        control.value ++ "\"") := by
    intro control hc
    obtain ⟨hpragma, hvalue⟩ := h.cacheControl control hc
    have hmode : '#' ∉ modeWord control.mode := by cases control.mode <;> decide
    have hname := List.not_mem_append (List.not_mem_append (by decide : '#' ∉ ("Header " : Text))
      hmode) (by decide : '#' ∉ (" Cache-Control \"" : Text))
    exact ⟨Block.avoids_of_no_hash
        (List.not_mem_append (List.not_mem_append (by decide) hpragma) (by decide)),
      Block.avoids_of_no_hash (List.not_mem_append (List.not_mem_append hname hvalue) (by decide))⟩
  have hpingback := Block.avoids_enclosed (b := b) plan.pingbackUrl
    (by decide : '#' ∉ ("Header set X-Pingback \"" : Text)) Block.spares_quote
    (List.not_mem_nil (a := '#'))
  unfold headerLines
  rw [List.forall_mem_append, List.forall_mem_append, List.forall_mem_append,
    and_iff_left hpowered, List.forall_mem_singleton, and_iff_left hvary]
  cases hc : plan.cacheControl with
  | none => exact (and_iff_left (by simp)).trans hpingback
  | some control =>
    obtain ⟨hpragma, hvalue⟩ := hcontrol control hc
    have hlines := List.forall_mem_cons.2 ⟨hpragma, List.forall_mem_singleton.2 hvalue⟩
    exact (and_iff_left hlines).trans hpingback

theorem no_hash_compressionRules : '#' ∉ compressionRules := by
  have hmime : ∀ l ∈ ([("AddType text/html " : Text) ++ VariantTags.gzipSuffix,
      ("AddEncoding gzip " : Text) ++ VariantTags.gzipSuffix] : List Text), '#' ∉ l := by decide
  have hdeflate : ∀ l ∈ [("SetEnvIfNoCase Request_URI \\.gzip$ no-gzip" : Text)], '#' ∉ l := by
    decide
  exact List.not_mem_append (no_hash_ifModule (by decide) hmime)
    (no_hash_ifModule (by decide) hdeflate)

theorem avoids_line_append {before t after u : Text} (hbefore : '#' ∉ before)
    (hafter : '#' ∉ after) :
    Avoids [b.region] (before ++ t ++ "\n" ++ after ++ u) ↔
      Avoids [b.region] t ∧ Avoids [b.region] u := by
  have htext : before ++ t ++ "\n" ++ after ++ u = before ++ (t ++ '\n' :: (after ++ u)) := by simp
  rw [htext, Block.avoids_append_of_no_hash hbefore,
    Block.avoids_append_cons_iff Block.spares_newline, Block.avoids_append_of_no_hash hafter]

/-- The header rules have a marker only if the character set or the pingback address does. -/
theorem avoids_cacheRules_iff {plan : HeaderPlan} (h : plan.NoHash) :
    Avoids [b.region] (cacheRules plan) ↔
      Avoids [b.region] plan.charset ∧ ∀ url ∈ plan.pingbackUrl, Avoids [b.region] url := by
  have hetag : '#' ∉ (if plan.etag then "FileETag MTime Size\n" else "" : String).toList := by
    split <;> decide
  have hcompression : '#' ∉ (if plan.compression then compressionRules else []) := by
    split
    · exact no_hash_compressionRules
    · exact List.not_mem_nil
  have hexpires : ∀ lifetime : UInt64, '#' ∉ ifModule "mod_expires.c"
      ["ExpiresActive On", "ExpiresByType text/html M" ++ Text.ofNat lifetime.toNat] := fun lifetime =>
    no_hash_ifModule (by decide) (List.forall_mem_cons.2 ⟨by decide,
      List.forall_mem_singleton.2 (List.not_mem_append (by decide) (Text.no_hash_ofNat _))⟩)
  have hbefore := List.not_mem_append hetag (by decide : '#' ∉ ("AddDefaultCharset " : Text))
  unfold cacheRules
  rw [List.append_assoc (_ ++ ("\n" : Text))]
  refine (avoids_line_append hbefore (List.not_mem_append hcompression ?_)).trans ?_
  · cases plan.expires with
    | none => exact List.not_mem_nil
    | some lifetime => exact hexpires lifetime
  · rw [avoids_ifModule (by decide), avoids_headerLines h]

end PageCache.Apache
