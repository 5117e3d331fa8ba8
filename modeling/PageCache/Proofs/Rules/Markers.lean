import PageCache.Proofs.Apache.Markers
import PageCache.Proofs.Nginx.Markers
import PageCache.Proofs.Region.Idempotent

/-! Markers in generated rules. The rules have none of their own, but texts of the settings go into
them as they are, and each of these texts can bring one along. -/
namespace PageCache

open Region

/-- The texts of a policy and a site that the rules of a block take over as they are. -/
def Server.givenTexts (server : Server) (b : Block) (p : Policy) (s : Site) : List Text :=
  match server, b with
  | apache, .core =>
    (Program.build p s).rewriteBase :: p.cachePath s :: (p.patternTexts s ++ p.targetTexts)
  | apache, .cache => s.charset :: s.pingbackUrl.toList
  | nginx, .core => p.cachePath s :: (p.patternTexts s ++ p.targetTexts)
  | nginx, .cache => p.cachePath s :: s.charset :: s.pingbackUrl.toList
  | unknown, _ => []

theorem Site.WellFormed.charset_build {s : Site} (h : s.WellFormed) (p : Policy) :
    (HeaderPlan.build p s).charset = s.charset := by
  have hcharset : (HeaderPlan.build p s).charset =
      if s.charset.isBlank then HeaderPlan.defaultCharset else s.charset := rfl
  rw [hcharset, h.charset.not_blank]
  rfl

theorem Site.WellFormed.pingbackUrl_build {s : Site} (h : s.WellFormed) (p : Policy) :
    (HeaderPlan.build p s).pingbackUrl = s.pingbackUrl := by
  have hpingback : (HeaderPlan.build p s).pingbackUrl = s.pingbackUrl.filter (!·.isEmpty) := rfl
  rw [hpingback]
  cases hurl : s.pingbackUrl with
  | none => rfl
  | some url => simp [Option.filter, (h.pingbackUrl url hurl).ne_nil]

variable {b : Block} {p : Policy} {s : Site}

/-- The rules of a block have a marker of it exactly if one of these texts has. -/
theorem Server.avoids_iff (hp : p.WellFormed) (hs : s.WellFormed) {server : Server} {rules : Text}
    (h : server.rules? b p s = some rules) :
    Avoids [b.region] rules ↔ ∀ t ∈ server.givenTexts b p s, Avoids [b.region] t := by
  have hplan := HeaderPlan.noHash_build p s
  cases server with
  | apache =>
    cases b with
    | core =>
      obtain rfl := Option.some.inj h
      rw [Apache.avoids_coreRules_iff hp hs]
      simp only [givenTexts, List.forall_mem_cons, List.forall_mem_append]
      tauto
    | cache =>
      obtain rfl := Option.some.inj h
      rw [Apache.avoids_cacheRules_iff hplan, hs.charset_build, hs.pingbackUrl_build]
      simp [givenTexts]
  | nginx =>
    cases b with
    | core =>
      obtain rfl := Option.some.inj h
      rw [Nginx.avoids_coreRules_iff hp]
      simp only [givenTexts, List.forall_mem_cons, List.forall_mem_append]
      tauto
    | cache =>
      obtain rfl := Option.some.inj h
      rw [Nginx.avoids_cacheRules_iff hplan, hs.charset_build, hs.pingbackUrl_build]
      simp [givenTexts, Policy.cachePath, CacheTarget.ofPolicy]
  | unknown => cases b <;> cases h

namespace Settings

variable {o : Options} {st : Settings}

/-- Whether the rules have a marker is up to the settings. Rules without one are replaced as a whole,
so nothing of them stays behind. -/
theorem avoids_rules_iff (h : ofOptions o = .ok st) (b : Block) {server : Server}
    (hserver : server ≠ .unknown) :
    ∃ rules, server.rules? b st.policy st.site = some rules ∧
      (Avoids [b.region] rules ↔
        ∀ t ∈ server.givenTexts b st.policy st.site, Avoids [b.region] t) ∧
      ((∀ t ∈ server.givenTexts b st.policy st.site, Avoids [b.region] t) →
        ∀ (text next : Text) (anchors anchors' : List Anchor),
          b.region.upsert (b.region.upsert text rules anchors) next anchors' =
            b.region.upsert text next anchors) := by
  obtain ⟨rules, hrules⟩ : ∃ rules, server.rules? b st.policy st.site = some rules := by
    cases server with
    | apache => cases b <;> exact ⟨_, rfl⟩
    | nginx => cases b <;> exact ⟨_, rfl⟩
    | unknown => exact absurd rfl hserver
  have havoids := Server.avoids_iff (policy_wellFormed_of_ofOptions h)
    (site_wellFormed_of_ofOptions h) hrules
  exact ⟨rules, hrules, havoids, fun hgiven text next anchors anchors' =>
    upsert_over (proper_region b) (havoids.2 hgiven) text next anchors anchors'⟩

/-- A comment in a pattern is no marker. -/
theorem avoids_rules_iff_comment :
    let o : Options :=
      { site := { documentRoot := some "/srv/www", cacheDir := some "/srv/www/cache/page" }
        policy := { rejectUserAgents := some ["# END Page Cache"] } }
    ∃ st rules, ofOptions o = .ok st ∧
      Server.apache.rules? .core st.policy st.site = some rules ∧
      Avoids [.pageCacheCore] rules ∧
      ∀ (text next : Text) (anchors anchors' : List Anchor),
        Region.pageCacheCore.upsert (Region.pageCacheCore.upsert text rules anchors) next anchors' =
          Region.pageCacheCore.upsert text next anchors := by
  intro o
  have hloaded : (ofOptions o).toOption.any fun st : Settings =>
      decide (∀ t ∈ Server.apache.givenTexts .core st.policy st.site, Avoids [.pageCacheCore] t) := by
    decide +kernel
  cases hst : ofOptions o with
  | error _ => simp [hst, Except.toOption] at hloaded
  | ok st =>
    simp only [hst, Except.toOption, Option.any_some, decide_eq_true_eq] at hloaded
    obtain ⟨rules, hrules, havoids, hover⟩ :=
      avoids_rules_iff hst .core (by decide : Server.apache ≠ .unknown)
    exact ⟨st, rules, rfl, hrules, havoids.2 hloaded, hover hloaded⟩

/-- A pattern that is a closing marker ends the block that it is in, so the next write puts a whole
block in the place of its first half. -/
theorem not_avoids_rules : ∃ (o : Options) (st : Settings) (rules : Text), ofOptions o = .ok st ∧
    Server.apache.rules? .core st.policy st.site = some rules ∧
    ¬ Avoids [Block.core.region] rules ∧
    Block.core.region.upsert (Block.core.region.upsert [] rules Block.core.anchors) rules
        Block.core.anchors ≠
      Block.core.region.upsert [] rules Block.core.anchors := by
  let o : Options :=
    { site := { documentRoot := some "/srv/www", cacheDir := some "/srv/www/cache/page" }
      policy := { rejectUserAgents := some ["# END Page Cache core"] } }
  have hloaded : (ofOptions o).toOption.any fun st =>
      (Server.apache.rules? .core st.policy st.site).any fun rules =>
        decide (¬ Avoids [Block.core.region] rules ∧
          Block.core.region.upsert (Block.core.region.upsert [] rules Block.core.anchors) rules
            Block.core.anchors ≠ Block.core.region.upsert [] rules Block.core.anchors) := by
    decide +kernel
  cases hst : ofOptions o with
  | error _ => simp [hst, Except.toOption] at hloaded
  | ok st =>
    cases hrules : Server.apache.rules? .core st.policy st.site with
    | none => simp [hst, hrules, Except.toOption] at hloaded
    | some rules =>
      simp only [hst, hrules, Except.toOption, Option.any_some, decide_eq_true_eq] at hloaded
      exact ⟨o, st, rules, hst, hrules, hloaded⟩

end Settings
end PageCache
