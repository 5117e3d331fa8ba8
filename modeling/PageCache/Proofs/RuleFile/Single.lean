import PageCache.Proofs.RuleFile.Rewrite
import PageCache.Proofs.RuleFile.Runs

/-! How many regions of its block a write leaves. The write replaces the region that is found and
keeps what stands around it, so a file with two of them still has the second one, which a removal
would take as well; and the check, which looks for the current rules only, finds nothing amiss. -/
namespace PageCache

open Text Region

namespace Region

variable {r : Region} {body text : Text}

/-- The text has the region, and nothing more of it around the region that is found. -/
def Single (r : Region) (text : Text) : Prop :=
  (r.locate? text).isSome ∧ r.locate? (r.cutOut text) = none

/-- The text with a newline for the region that is found in it. -/
def parted (r : Region) (text : Text) : Text :=
  match r.locate? text with
  | some s => s.before ++ '\n' :: s.after
  | none => text

theorem single_put (hr : r.Proper) (hbody : Avoids [r] body) {head : Text}
    (hhead : r.locate? head = none) (tail : Text) :
    r.Single (headPart head ++ (r.wrap body ++ tailPart tail)) ↔
      r.locate? (headPart head ++ tailPart tail) = none := by
  rw [Single, cutOut, locate?_put hr hbody hhead]
  simp

theorem locate?_seams_eq_none_iff (hr : r.Lined) (hu : r.closing.Unbordered) (head tail : Text) :
    r.locate? (headPart head ++ tailPart tail) = none ↔
      r.locate? (head ++ '\n' :: tail) = none := by
  rw [locate?_eq_none_iff hr.marked hu, locate?_eq_none_iff hr.marked hu]
  have hnewline : EqBeforeNewlines (headPart head) (head ++ ['\n']) := by
    obtain ⟨p, s, s', hhead, hpart, hs, hs'⟩ := eqBeforeNewlines_headPart head
    exact ⟨p, s', s ++ ['\n'], hpart, by rw [hhead, List.append_assoc], hs',
      by simpa [or_imp, forall_and] using hs⟩
  have hnil := avoids_singleton_nil hr
  constructor
  · intro h
    have hseams : ¬ r.Paired (headPart head ++ ([] ++ tailPart tail)) := h
    have hparted := not_paired_rejoined hr hnewline (eqAfterNewlines_tailPart tail).symm
      (atLineStart_append_newline head) atLineStart_nil hnil hseams
    simpa using hparted
  · intro h
    have hparted : ¬ r.Paired (head ++ (['\n'] ++ tail)) := h
    have hseams := not_paired_rejoined hr (eqBeforeNewlines_headPart head)
      (eqAfterNewlines_tailPart tail) (atLineStart_headPart head) atLineStart_nil hnil hparted
    simpa using hseams

/-- A block is alone in the text that it is put into exactly if no region is left there once a
newline stands for the one that it replaces. -/
theorem single_upsert_iff (hr : r.Proper) (hu : r.closing.Unbordered) (hbody : Avoids [r] body)
    (text : Text) (anchors : List Anchor) :
    r.Single (r.upsert text body anchors) ↔ r.locate? (r.parted text) = none := by
  rw [upsert_eq, single_put hr hbody (locate?_surroundings r text anchors), parted]
  match h : r.locate? text with
  | some s =>
    rw [surroundings_of_located h]
    exact locate?_seams_eq_none_iff hr.lined hu s.before s.after
  | none =>
    rw [surroundings_of_absent h]
    refine iff_of_true ?_ h
    rw [← placeOf_append anchors text, locate?_eq_none_iff hr.lined.marked hu] at h
    rw [locate?_eq_none_iff hr.lined.marked hu]
    have hparts : ¬ r.Paired ((placeOf anchors text).1 ++ ([] ++ (placeOf anchors text).2)) := h
    have hseams := not_paired_rejoined hr.lined (eqBeforeNewlines_headPart _)
      (eqAfterNewlines_tailPart _) (atLineStart_headPart _) atLineStart_nil
      (avoids_singleton_nil hr.lined) hparts
    simpa using hseams

theorem locate?_wrap_append (hr : r.Proper) (hbody : Avoids [r] body) (tail : Text) :
    r.locate? (r.wrap body ++ tail) = some ⟨[], r.wrap body, tail⟩ :=
  locate?_wrap hr hbody atLineStart_nil (locate?_nil r) tail

theorem locate?_parted_wrap (hr : r.Proper) (hbody : Avoids [r] body) :
    r.locate? (r.parted (r.wrap body)) = none := by
  have hfound := locate?_wrap_append hr hbody []
  rw [List.append_nil] at hfound
  rw [parted, hfound]
  refine locate?_eq_none_of_opening fun hin => ?_
  exact not_infix_newlines hr.newline_not_mem_opening hr.opening_ne_nil (by simp) hin

theorem paired_wrap (r : Region) (body : Text) : r.Paired (r.wrap body) :=
  ⟨[], '\n' :: inner body, ['\n'], by simp [wrap_eq]⟩

/-- A block takes the place of the first one of two. -/
theorem upsert_wrap_append_wrap (hr : r.Proper) {old next : Text} (hold : Avoids [r] old)
    (anchors : List Anchor) :
    r.upsert (r.wrap old ++ r.wrap next) body anchors = r.wrap body ++ r.wrap next := by
  have htail : tailPart (r.wrap next) = r.wrap next := by
    simpa using tailPart_wrap_append hr next []
  rw [upsert_eq, surroundings_of_located (locate?_wrap_append hr hold _), htail]
  exact congrArg (· ++ _) (headPart_newlines 0)

theorem not_single_wrap_append_wrap (hr : r.Proper) (hu : r.closing.Unbordered)
    (hbody : Avoids [r] body) (next : Text) : ¬ r.Single (r.wrap body ++ r.wrap next) := by
  rintro ⟨-, hcut⟩
  rw [cutOut, locate?_wrap_append hr hbody] at hcut
  exact (locate?_eq_none_iff hr.lined.marked hu).1 hcut (paired_wrap r next)

end Region

namespace RuleFile

variable {b : Block} {server : Server} {p : Policy} {s : Site} {path : Text} {t t' : FileTree}
  {o : Outcome}

/-- The text that the block goes into: for the core rules, without those of a competing page
cache. -/
def cleared (b : Block) (current : Text) : Text :=
  match b with
  | .core => superCache.erase current
  | .cache => current

theorem install_eq_upsert (b : Block) (rules current : Text) :
    install b rules current = b.region.upsert (cleared b current) rules b.anchors := by
  cases b <;> rfl

/-- A write leaves one region of its block exactly if it found one at most; the check of the block
succeeds in any case. -/
theorem single_iff_of_write (hserver : server ≠ .unknown)
    (hrules : ∀ rules, server.rules? b p s = some rules → Avoids [b.region] rules)
    (hwrite : (write b (server.rules? b p s) path : StateM FileTree _).run t = (.ok o, t')) :
    ∃ current text, t.text? path = .ok current ∧ t'.text? path = .ok (some text) ∧
      (check b (server.rules? b p s) path : StateM FileTree _).run t' = (.ok .inSync, t') ∧
      (b.region.Single text ↔
        b.region.locate? (b.region.parted (cleared b (current.getD []))) = none) := by
  obtain ⟨rules, hsome⟩ := exists_rules hserver b p s
  have hown := hrules rules hsome
  rw [hsome] at hwrite ⊢
  obtain ⟨current, hcurrent, htext⟩ := text?_of_run_write hwrite
  refine ⟨current, _, hcurrent, htext, ?_, ?_⟩
  · rw [run_check, htext]
    simp only [statusOf_install]
  · rw [install_eq_upsert]
    exact single_upsert_iff (proper_region b) (unbordered_closing b) hown _ _

/-- The rules of an older policy are found once and replaced. -/
theorem single_iff_of_write_over_stale :
    ∃ outcome updated,
      (write .cache (Server.apache.rules? .cache { rejectCookies := [], rejectUris := [] } {})
          "rules.conf" : StateM FileTree _).run
          (Edit.oneFile (pageCacheCache.wrap "FileETag MTime Size")) =
        (.ok outcome, Edit.oneFile updated) ∧
      pageCacheCache.Single updated := by
  let p : Policy := { rejectCookies := [], rejectUris := [] }
  have hapache : Server.apache ≠ .unknown := by decide
  have hrules : ∀ rules ∈ Server.apache.rules? .cache p {}, Avoids [pageCacheCache] rules := by
    decide +kernel
  have hstale : Avoids [pageCacheCache] "FileETag MTime Size" := by decide +kernel
  generalize ("FileETag MTime Size" : Text) = body at hstale ⊢
  obtain ⟨outcome, updated, hrun⟩ := Edit.exists_perform_oneFile (s := {}) hapache
    (.write .cache p) (pageCacheCache.wrap body)
  obtain ⟨current, text, hcurrent, htext, -, hsingle⟩ := single_iff_of_write hapache hrules hrun
  rw [Edit.text?_oneFile] at hcurrent htext
  cases hcurrent
  cases htext
  refine ⟨outcome, updated, hrun, hsingle.2 ?_⟩
  exact locate?_parted_wrap (proper_region .cache) hstale

/-- Of two blocks with the rules of an older policy, the second one stays. -/
theorem not_single_of_write :
    ∃ rules : Text,
      Server.apache.rules? .cache { rejectCookies := [], rejectUris := [] } {} = some rules ∧
      Avoids [pageCacheCache] rules ∧
      let stale : Text := pageCacheCache.wrap "FileETag MTime Size"
      let updated : Text := pageCacheCache.wrap rules ++ stale
      (write .cache (some rules) "rules.conf" : StateM FileTree _).run
          (Edit.oneFile (stale ++ stale)) = (.ok .written, Edit.oneFile updated) ∧
        (check .cache (some rules) "rules.conf" : StateM FileTree _).run (Edit.oneFile updated) =
          (.ok .inSync, Edit.oneFile updated) ∧
        ¬ pageCacheCache.Single updated := by
  let p : Policy := { rejectCookies := [], rejectUris := [] }
  have hapache : Server.apache ≠ .unknown := by decide
  obtain ⟨rules, hsome⟩ := exists_rules hapache .cache p {}
  have hstale : Avoids [pageCacheCache] "FileETag MTime Size" := by decide +kernel
  have hrules : Avoids [pageCacheCache] rules ∧
      pageCacheCache.wrap rules ≠ pageCacheCache.wrap "FileETag MTime Size" := by
    have h : ∀ rules ∈ Server.apache.rules? .cache p {}, Avoids [pageCacheCache] rules ∧
        pageCacheCache.wrap rules ≠ pageCacheCache.wrap "FileETag MTime Size" := by
      decide +kernel
    exact h rules hsome
  generalize ("FileETag MTime Size" : Text) = old at hstale hrules ⊢
  have hr := proper_region .cache
  have hinstall : install .cache rules (pageCacheCache.wrap old ++ pageCacheCache.wrap old) =
      pageCacheCache.wrap rules ++ pageCacheCache.wrap old :=
    upsert_wrap_append_wrap hr hstale cacheAnchors
  refine ⟨rules, hsome, hrules.1, ?_⟩
  dsimp only
  refine ⟨?_, ?_, not_single_wrap_append_wrap hr (unbordered_closing .cache) hrules.1 old⟩
  · rw [← hinstall]
    refine run_write_of_changed (Edit.text?_oneFile _) ?_ rfl rfl
    rw [Option.getD_some, hinstall]
    exact fun h => hrules.2 (List.append_cancel_right h)
  · rw [run_check, Edit.text?_oneFile, ← hinstall]
    simp only [statusOf_install]

end RuleFile

end PageCache
