import PageCache.Proofs.RuleFile.Operations
import PageCache.Proofs.RuleFile.Shared

/-! Edits of one file that holds both blocks. Each edit keeps the text laid out; so after any edits
the file carries exactly the blocks that were written last and not removed, the checks say so, and
what stands around the blocks is what stood in the file at first. -/
namespace PageCache

open Text Region

inductive Edit where
  | write (b : Block) (p : Policy)
  | remove (b : Block)

namespace Edit

/-- The policies whose rules are installed after an edit. -/
def policies (before : Block → Option Policy) : Edit → Block → Option Policy
  | write b p => Function.update before b (some p)
  | remove b => Function.update before b none

/-- The policies that were written last and not removed since. -/
def policiesAfter (edits : List Edit) : Block → Option Policy :=
  edits.foldl policies fun _ => none

/-- The rules that an edit writes have no markers. -/
def Unmarked (server : Server) (s : Site) : Edit → Prop
  | write b p => ∀ rules, server.rules? b p s = some rules → Avoids known rules
  | remove _ => True

section
variable {m : Type → Type} [Monad m] [Files m]

def perform (server : Server) (s : Site) (path : Text) :
    Edit → m (Except FileFailure RuleFile.Outcome)
  | write b p => RuleFile.write b (server.rules? b p s) path
  | remove b => RuleFile.remove b path

def performAll (server : Server) (s : Site) (path : Text) :
    List Edit → m (Except FileFailure Unit)
  | [] => return .ok ()
  | e :: edits => do
    match ← e.perform server s path with
    | .error failure => return .error failure
    | .ok _ => performAll server s path edits

end

/-- A run leaves a text with the property, unless the file system does not permit to write it. -/
def Leaves {α : Type} (path : Text) (P : Text → Prop) : Except FileFailure α × FileTree → Prop
  | (.error failure, _) => ∃ cause, failure = .unwritable path cause
  | (.ok _, t) => ∃ current, t.text? path = .ok current ∧ P (current.getD [])

def rulesOf (server : Server) (s : Site) (policies : Block → Option Policy) (b : Block) :
    Option Text := (policies b).bind fun p => server.rules? b p s

variable {server : Server} {s : Site} {path o initial text : Text} {t : FileTree}
  {current : Option Text} {policies : Block → Option Policy} {edits : List Edit}
  {installed : Block → Option Text}

theorem rulesOf_update (server : Server) (s : Site) (policies : Block → Option Policy) (b : Block)
    (p : Option Policy) :
    rulesOf server s (Function.update policies b p) =
      Function.update (rulesOf server s policies) b (p.bind fun p => server.rules? b p s) := by
  funext b'
  by_cases hb : b' = b
  · subst hb
    simp [rulesOf]
  · simp [rulesOf, Function.update_of_ne hb]

theorem leaves_perform (hserver : server ≠ .unknown) {e : Edit} (he : e.Unmarked server s)
    (htext : t.text? path = .ok current)
    (hc : Carries (rulesOf server s policies) o (current.getD [])) :
    Leaves path (Carries (rulesOf server s (e.policies policies)) o)
      ((e.perform server s path : StateM FileTree _).run t) := by
  cases e with
  | write b p =>
    obtain ⟨rules, hsome⟩ := RuleFile.exists_rules hserver b p s
    rw [perform, hsome]
    rcases RuleFile.run_write_cases b rules htext with ⟨cause, t', hrun⟩ | ⟨o, t', hrun, htext'⟩
    · rw [hrun]
      exact ⟨cause, rfl⟩
    · rw [hrun, Edit.policies, rulesOf_update, Option.bind_some, hsome]
      exact ⟨_, htext', hc.install (he rules hsome) b⟩
  | remove b =>
    have herase : (current.map b.region.erase).getD [] = b.region.erase (current.getD []) := by
      cases current with
      | none => exact (erase_eq_self (locate?_nil b.region)).symm
      | some text => rfl
    rw [perform]
    rcases RuleFile.run_remove_cases b htext with ⟨cause, t', hrun⟩ | ⟨o, t', hrun, htext'⟩
    · rw [hrun]
      exact ⟨cause, rfl⟩
    · rw [hrun, Edit.policies, rulesOf_update, Option.bind_none]
      refine ⟨_, htext', ?_⟩
      rw [herase]
      exact hc.erase b

theorem leaves_performAll (hserver : server ≠ .unknown)
    (hedits : ∀ e ∈ edits, e.Unmarked server s) (htext : t.text? path = .ok current)
    (hc : Carries (rulesOf server s policies) o (current.getD [])) :
    Leaves path (Carries (rulesOf server s (edits.foldl Edit.policies policies)) o)
      ((performAll server s path edits : StateM FileTree _).run t) := by
  -- The invariant holds of any tree whose file carries the rules of the policies so far.
  induction edits generalizing t current policies with
  | nil => exact ⟨current, htext, hc⟩
  | cons e edits ih =>
    obtain ⟨he, hedits⟩ := List.forall_mem_cons.1 hedits
    have hfirst := leaves_perform hserver he htext hc
    match hrun : (e.perform server s path : StateM FileTree _).run t with
    | (.error failure, t₁) =>
      rw [hrun] at hfirst
      rw [performAll, RuleFile.run_bind hrun]
      exact hfirst
    | (.ok outcome, t₁) =>
      rw [hrun] at hfirst
      obtain ⟨current₁, htext₁, hc₁⟩ := hfirst
      rw [performAll, RuleFile.run_bind hrun]
      exact ih hedits htext₁ hc₁

/-- The two blocks share the text: each that is installed stands at one place with its rules, they
do not overlap, and around them stand the visible characters of the text at first. -/
structure Shared (installed : Block → Option Text) (initial text : Text) : Prop where
  inside (b : Block) :
    (b.region.locate? text).map Span.inside = (installed b).map b.region.wrap
  occursAtMostOnce (b : Block) : ∀ m ∈ b.region.markers, OccursAtMostOnce m text
  apart {s s' : Span} : pageCacheCore.locate? text = some s →
    pageCacheCache.locate? text = some s' → s.Apart s'
  visible_outside : visible (outside text) = visible initial

theorem shared_of_carries (h : Carries installed (visible initial) text) :
    Shared installed initial text where
  inside b := by
    match hb : installed b with
    | some rules =>
      obtain ⟨s, hs, hinside, -⟩ := h.exists_located hb
      rw [hs, Option.map_some, Option.map_some, hinside]
    | none => rw [locate?_eq_none_of_avoids (h.avoids_of_none hb), Option.map_none, Option.map_none]
  occursAtMostOnce _ _ hm := h.occursAtMostOnce hm
  apart := h.apart
  visible_outside := h.visible_outside

theorem check_of_some (htext : t.text? path = .ok current)
    (hc : Carries installed o (current.getD [])) {b : Block} {rules : Text}
    (hb : installed b = some rules) :
    (RuleFile.check b (some rules) path : StateM FileTree _).run t = (.ok .inSync, t) := by
  rw [RuleFile.run_check, htext]
  match current with
  | some text =>
    have hstatus : RuleFile.statusOf b rules text = .inSync := hc.statusOf_of_some hb
    simp only [hstatus]
  | none =>
    obtain ⟨s, hs, -⟩ := hc.exists_located hb
    cases (locate?_nil b.region).symm.trans hs

/-- The check of a block that is not installed, whatever its rules are. -/
theorem check_of_none (htext : t.text? path = .ok current)
    (hc : Carries installed o (current.getD [])) {b : Block} (hb : installed b = none)
    (rules : Text) :
    ∃ why, (RuleFile.check b (some rules) path : StateM FileTree _).run t =
      (.ok (.missing why), t) := by
  rw [RuleFile.run_check, htext]
  match current with
  | some text =>
    have hstatus : RuleFile.statusOf b rules text = .missing .noRegion :=
      hc.statusOf_of_none hb rules
    exact ⟨.noRegion, by simp only [hstatus]⟩
  | none => exact ⟨.noFile, rfl⟩

/-- After any edits of a file that had no markers at first, the blocks share the file: a run fails
only where the file cannot be written; and the checks find each block that was written and not
removed since in step with its policy, and each other block missing. -/
theorem shared_after_performAll (hserver : server ≠ .unknown)
    (htext : t.text? path = .ok current) (hinitial : Avoids edited (current.getD []))
    (hedits : ∀ e ∈ edits, e.Unmarked server s) :
    match (performAll server s path edits : StateM FileTree _).run t with
    | (.error failure, _) => ∃ cause, failure = .unwritable path cause
    | (.ok (), t') =>
      (∃ current', t'.text? path = .ok current' ∧
        Shared (rulesOf server s (policiesAfter edits)) (current.getD []) (current'.getD [])) ∧
      ∀ b p,
        (policiesAfter edits b = some p →
          (RuleFile.check b (server.rules? b p s) path : StateM FileTree _).run t' =
            (.ok .inSync, t')) ∧
        (policiesAfter edits b = none → ∃ why,
          (RuleFile.check b (server.rules? b p s) path : StateM FileTree _).run t' =
            (.ok (.missing why), t')) := by
  have hcarries : Carries (rulesOf server s fun _ => none) (visible (current.getD []))
      (current.getD []) := .of_avoids hinitial
  have hrun := leaves_performAll hserver hedits htext hcarries
  match hend : (performAll server s path edits : StateM FileTree _).run t with
  | (.error failure, t') =>
    rw [hend] at hrun
    exact hrun
  | (.ok (), t') =>
    rw [hend] at hrun
    obtain ⟨current', htext', hc⟩ := hrun
    refine ⟨⟨current', htext', shared_of_carries hc⟩, fun b p => ?_⟩
    obtain ⟨rules, hsome⟩ := RuleFile.exists_rules hserver b p s
    rw [hsome]
    constructor
    · intro hb
      have hinstalled : rulesOf server s (policiesAfter edits) b = some rules := by
        rw [rulesOf, hb, Option.bind_some, hsome]
      exact check_of_some htext' hc hinstalled
    · intro hb
      have habsent : rulesOf server s (policiesAfter edits) b = none := by
        rw [rulesOf, hb, Option.bind_none]
      exact check_of_none htext' hc habsent rules

def oneFile (text : Text) : FileTree :=
  { entries := [(["rules.conf"], .file (Utf8.encode text))] }

theorem text?_oneFile (text : Text) : (oneFile text).text? "rules.conf" = .ok (some text) := by
  have hread : (oneFile text).read "rules.conf" = .ok (Utf8.encode text) := rfl
  rw [FileTree.text?, hread]
  simp only [Utf8.decode?_encode]

theorem run_writeText_oneFile (text updated : Text) :
    (RuleFile.writeText "rules.conf" updated : StateM FileTree _).run (oneFile text) =
      (.ok (), oneFile updated) := rfl

theorem exists_perform_oneFile (hserver : server ≠ .unknown) (e : Edit) (text : Text) :
    ∃ outcome updated, (e.perform server s "rules.conf" : StateM FileTree _).run (oneFile text) =
      (.ok outcome, oneFile updated) := by
  cases e with
  | write b p =>
    obtain ⟨rules, hsome⟩ := RuleFile.exists_rules hserver b p s
    rw [perform, hsome, RuleFile.write, RuleFile.run_bind (RuleFile.run_readText? _ _),
      text?_oneFile]
    by_cases hsame : RuleFile.install b rules text = text
    · simp only [Option.getD_some, if_pos hsame]
      exact ⟨_, _, rfl⟩
    · simp only [Option.getD_some, if_neg hsame]
      rw [RuleFile.run_bind (run_writeText_oneFile _ _)]
      exact ⟨_, _, rfl⟩
  | remove b =>
    rw [perform, RuleFile.remove, RuleFile.run_bind (RuleFile.run_readText? _ _), text?_oneFile]
    by_cases habsent : (b.region.locate? text).isNone
    · simp only [if_pos habsent]
      exact ⟨_, _, rfl⟩
    · simp only [if_neg habsent]
      rw [RuleFile.run_bind (run_writeText_oneFile _ _)]
      exact ⟨_, _, rfl⟩

theorem exists_performAll_oneFile (hserver : server ≠ .unknown) (edits : List Edit) (text : Text) :
    ∃ updated, (performAll server s "rules.conf" edits : StateM FileTree _).run (oneFile text) =
      (.ok (), oneFile updated) := by
  induction edits generalizing text with
  | nil => exact ⟨text, rfl⟩
  | cons e edits ih =>
    obtain ⟨outcome, text₁, hfirst⟩ := exists_perform_oneFile hserver (s := s) e text
    rw [performAll, RuleFile.run_bind hfirst]
    exact ih text₁

/-- Both blocks are written after a line with a closing marker of a neighbour, then one is
removed. -/
theorem shared_after_three_edits :
    ∃ updated,
      (performAll .nginx {} "rules.conf"
          [.write .core { rejectCookies := [], rejectUris := [] },
            .write .cache { rejectCookies := [], rejectUris := [] }, .remove .core] :
          StateM FileTree _).run (oneFile "gzip on; # END Minify core") =
        (.ok (), oneFile updated) ∧
      (RuleFile.check .cache
          (Server.nginx.rules? .cache { rejectCookies := [], rejectUris := [] } {})
          "rules.conf" : StateM FileTree _).run (oneFile updated) =
        (.ok .inSync, oneFile updated) ∧
      ∃ why, (RuleFile.check .core
          (Server.nginx.rules? .core { rejectCookies := [], rejectUris := [] } {})
          "rules.conf" : StateM FileTree _).run (oneFile updated) =
        (.ok (.missing why), oneFile updated) := by
  let p : Policy := { rejectCookies := [], rejectUris := [] }
  let edits : List Edit := [.write .core p, .write .cache p, .remove .core]
  have hedits : ∀ e ∈ edits, e.Unmarked .nginx {} := by
    have hrules : ∀ b, ∀ rules ∈ Server.nginx.rules? b p {}, Avoids known rules := by
      intro b
      cases b <;> decide +kernel
    simpa [edits, Unmarked] using ⟨hrules .core, hrules .cache⟩
  have hinitial : Avoids edited "gzip on; # END Minify core" := by decide +kernel
  have hnginx : Server.nginx ≠ .unknown := by decide
  obtain ⟨updated, hrun⟩ := exists_performAll_oneFile hnginx (s := {}) edits
    "gzip on; # END Minify core"
  have hshared := shared_after_performAll hnginx (text?_oneFile "gzip on; # END Minify core")
    hinitial hedits
  rw [hrun] at hshared
  obtain ⟨-, hchecks⟩ := hshared
  exact ⟨updated, hrun, (hchecks .cache p).1 rfl, (hchecks .core p).2 rfl⟩

end Edit

end PageCache
