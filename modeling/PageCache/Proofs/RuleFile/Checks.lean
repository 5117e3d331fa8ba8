import PageCache.Proofs.RuleFile.Runs

/-! What the check of a block says. It says that the block is missing exactly if a removal finds
nothing to remove, and after a removal it does; and where the markers occur once, the block is in
step exactly if its lines from marker to marker are the expected ones, blanks and empty lines
apart. -/
namespace PageCache

open Text Region

namespace Region

variable {r : Region} {m t x y : Text} {s : Span}

/-- A needle occurs once if the first and the last search for it meet. -/
theorem occursAtMostOnce_of_split (hfirst : t.splitFirst? m = some (x, y))
    (hlast : t.splitLast? m = some (x, y)) : OccursAtMostOnce m t := by
  have hplace : ∀ a b, t = a ++ m ++ b → a = x := fun a b hab => by
    have hlen : a.length = x.length :=
      le_antisymm (length_le_of_splitLast? hlast hab) (length_le_of_splitFirst? hfirst hab)
    have heq := hab.symm.trans (eq_of_splitFirst? hfirst)
    rw [List.append_assoc, List.append_assoc] at heq
    exact List.append_inj_left heq hlen
  intro a b a' b' hab hab'
  rw [hplace a b hab, hplace a' b' hab']

/-- A needle within a line that occurs once in the text occurs once in its normal form. -/
theorem occursAtMostOnce_normalize (hn : '\n' ∉ m) (h : OccursAtMostOnce m t) :
    OccursAtMostOnce m (normalize t) := by
  intro x y x' y' hx hx'
  obtain ⟨a, b, ht, rfl⟩ := exists_of_normalize_eq hn hx
  obtain ⟨a', b', ht', rfl⟩ := exists_of_normalize_eq hn hx'
  rw [h a b a' b' ht ht']

/-- A block whose markers occur once is carried exactly if the normal forms agree. -/
theorem isCurrent_iff_of_occursAtMostOnce (hr : r.Trimmed) (ho : OccursAtMostOnce r.opening t)
    (hc : OccursAtMostOnce r.closing t) (hs : r.locate? t = some s) (body : Text) :
    r.isCurrent t body = true ↔ normalize s.inside = normalize (r.wrap body) := by
  obtain ⟨a, m, b, rfl, rfl⟩ := exists_spanOf_of_locate? hs
  have hsolid : Solid (r.opening ++ m ++ r.closing) :=
    hr.solid_opening.append_append hr.solid_closing m
  have htext : a ++ r.opening ++ m ++ r.closing ++ b =
      a ++ (r.opening ++ m ++ r.closing) ++ b := by simp
  have hform := normalize_append_append hsolid a b
  rw [← htext] at hform
  rw [isCurrent, includes_iff, normalize_inside_spanOf]
  constructor
  · rintro ⟨x, y, hxy⟩
    rw [normalize_wrap] at hxy ⊢
    obtain ⟨⟨u, hu⟩, v, hv⟩ := exists_normalize_bracket hr m
    obtain ⟨⟨u', hu'⟩, v', hv'⟩ := exists_normalize_bracket hr ('\n' :: inner body)
    -- The block's opening marker in the normal form is that of the region, and so is its closing
    -- marker; what stands from the one through the other is then the same.
    have hstart : headForm a = x := by
      refine occursAtMostOnce_normalize hr.newline_not_mem_opening ho _ (u ++ tailForm b) _
        (u' ++ y) ?_ ?_
      · rw [hform, hu]
        simp
      · rw [← hxy, hu']
        simp
    have hend : headForm a ++ v = x ++ v' := by
      refine occursAtMostOnce_normalize hr.newline_not_mem_closing hc _ (tailForm b) _ y ?_ ?_
      · rw [hform, hv]
        simp
      · rw [← hxy, hv']
        simp
    rw [hstart, List.append_cancel_left_eq] at hend
    rw [hv, hv', hend]
  · intro h
    rw [← h, hform]
    exact ⟨headForm a, tailForm b, rfl⟩

end Region

namespace RuleFile

variable {b : Block} {server : Server} {p : Policy} {site : Site} {path rules text : Text}
  {t t' : FileTree} {current : Option Text} {why : Absence} {s : Span} {o : Outcome}

theorem statusOf_eq_inSync_iff (b : Block) (rules text : Text) :
    statusOf b rules text = .inSync ↔ b.region.isCurrent text rules = true := by
  unfold statusOf
  split
  · next h => simp [h]
  · next h => split <;> simp [h]

/-- A text in which each marker occurs once carries a block exactly if the normal forms agree; so a
file with one block is in step exactly if the lines of the block are the expected ones. -/
theorem inSync_iff_of_occursAtMostOnce {r : Region} (hr : r.Trimmed)
    (ho : OccursAtMostOnce r.opening text) (hc : OccursAtMostOnce r.closing text)
    (hs : r.locate? text = some s) (body : Text) :
    (r.isCurrent text body = true ↔ normalize s.inside = normalize (r.wrap body)) ∧
    ∀ b path t, b.region = r → t.text? path = .ok (some text) →
      ((check b (some body) path : StateM FileTree _).run t = (.ok .inSync, t) ↔
        trimmedLines s.inside = trimmedLines (r.wrap body)) := by
  have hcurrent := isCurrent_iff_of_occursAtMostOnce hr ho hc hs body
  refine ⟨hcurrent, ?_⟩
  rintro b path t rfl htext
  rw [run_check, htext, ← normalize_eq_normalize_iff, ← hcurrent, ← statusOf_eq_inSync_iff]
  constructor
  · intro h
    exact Except.ok.inj (congrArg Prod.fst h)
  · intro h
    simp only [h]

/-- A block that begins in the middle of a line, in a file with carriage returns. -/
theorem inSync_iff_of_occursAtMostOnce_midLine :
    let text : Text :=
      "gzip on; # BEGIN Page Cache cache\r\n\r\n  charset UTF-8;\r\n# END Page Cache cache # last"
    (check .cache (some "charset UTF-8;") "rules.conf" : StateM FileTree _).run
        (Edit.oneFile text) = (.ok .inSync, Edit.oneFile text) ∧
      (check .cache (some "charset utf-8;") "rules.conf" : StateM FileTree _).run
        (Edit.oneFile text) ≠ (.ok .inSync, Edit.oneFile text) := by
  intro text
  have ho : OccursAtMostOnce pageCacheCache.opening text :=
    occursAtMostOnce_of_split (x := "gzip on; ")
      (y := "\r\n\r\n  charset UTF-8;\r\n# END Page Cache cache # last")
      (by decide +kernel) (by decide +kernel)
  have hc : OccursAtMostOnce pageCacheCache.closing text :=
    occursAtMostOnce_of_split
      (x := "gzip on; # BEGIN Page Cache cache\r\n\r\n  charset UTF-8;\r\n") (y := " # last")
      (by decide +kernel) (by decide +kernel)
  have hs : pageCacheCache.locate? text = some ⟨"gzip on; ",
      "# BEGIN Page Cache cache\r\n\r\n  charset UTF-8;\r\n# END Page Cache cache", " # last"⟩ := by
    decide +kernel
  have hcheck := fun body =>
    (inSync_iff_of_occursAtMostOnce (trimmed_region .cache) ho hc hs body).2 .cache "rules.conf"
      (Edit.oneFile text) rfl (Edit.text?_oneFile text)
  exact ⟨(hcheck "charset UTF-8;").2 (by decide +kernel),
    mt (hcheck "charset utf-8;").1 (by decide +kernel)⟩

/-- Why there is no block in a file with this text, if there is none. -/
def absence? (b : Block) : Option Text → Option Absence
  | none => some .noFile
  | some text => if (b.region.locate? text).isNone then some .noRegion else none

theorem absence?_of_absent (h : b.region.locate? text = none) :
    absence? b (some text) = some .noRegion := by
  rw [absence?, h]
  rfl

theorem absence?_of_located (h : b.region.locate? text = some s) :
    absence? b (some text) = none := by
  rw [absence?, h]
  rfl

theorem absence?_erase (b : Block) (current : Option Text) :
    ∃ why, absence? b (current.map b.region.erase) = some why ∧
      (why = .noFile ↔ current = none) := by
  cases current with
  | none => exact ⟨.noFile, rfl, by simp⟩
  | some text => exact ⟨.noRegion, absence?_of_absent (locate?_erase b.region text), by simp⟩

/-- A removal has found a block: it has removed it, or could not write the file. -/
def Attempted (path : Text) : Except FileFailure Outcome → Prop
  | .ok o => o = .removed
  | .error e => ∃ cause, e = .unwritable path cause

/-- A check says why there is no block, or compares the one that there is. -/
theorem run_check_cases (b : Block) (rules : Text) (htext : t.text? path = .ok current) :
    (∃ why, absence? b current = some why ∧
      (check b (some rules) path : StateM FileTree _).run t = (.ok (.missing why), t)) ∨
    absence? b current = none ∧
      ((check b (some rules) path : StateM FileTree _).run t = (.ok .inSync, t) ∨
        (check b (some rules) path : StateM FileTree _).run t = (.ok .drifted, t)) := by
  rw [run_check, htext]
  match current with
  | none => exact .inl ⟨.noFile, rfl, rfl⟩
  | some text =>
    match h : b.region.locate? text with
    | none =>
      refine .inl ⟨.noRegion, absence?_of_absent h, ?_⟩
      simp only [statusOf_of_absent h]
    | some s =>
      refine .inr ⟨absence?_of_located h, ?_⟩
      rcases statusOf_of_located h rules with hstatus | hstatus
      · exact .inl (by simp only [hstatus])
      · exact .inr (by simp only [hstatus])

/-- A removal says why there is no block, or goes about removing the one that there is. -/
theorem run_remove_absence_cases (b : Block) (htext : t.text? path = .ok current) :
    (∃ why, absence? b current = some why ∧
      (remove b path : StateM FileTree _).run t = (.ok (.absent why), t)) ∨
    absence? b current = none ∧ Attempted path ((remove b path : StateM FileTree _).run t).1 := by
  match current with
  | none => exact .inl ⟨.noFile, rfl, run_remove_of_noFile b htext⟩
  | some text =>
    match h : b.region.locate? text with
    | none => exact .inl ⟨.noRegion, absence?_of_absent h, run_remove_of_noRegion htext h⟩
    | some s =>
      refine .inr ⟨absence?_of_located h, ?_⟩
      rcases run_remove_of_located htext h with ⟨cause, t', hrun⟩ | ⟨t', hrun, -⟩
      · rw [hrun]
        exact ⟨cause, rfl⟩
      · rw [hrun]
        rfl

theorem run_check_eq_missing_iff (htext : t.text? path = .ok current) (rules : Text) :
    (check b (some rules) path : StateM FileTree _).run t = (.ok (.missing why), t) ↔
      absence? b current = some why := by
  rcases run_check_cases b rules htext with ⟨why', hwhy, hrun⟩ | ⟨hnone, hrun | hrun⟩
  · rw [hrun, hwhy]
    constructor <;> rintro ⟨⟩ <;> rfl
  · rw [hrun, hnone]
    exact iff_of_false nofun nofun
  · rw [hrun, hnone]
    exact iff_of_false nofun nofun

theorem run_remove_eq_absent_iff (htext : t.text? path = .ok current) :
    (remove b path : StateM FileTree _).run t = (.ok (.absent why), t) ↔
      absence? b current = some why := by
  rcases run_remove_absence_cases b htext with ⟨why', hwhy, hrun⟩ | ⟨hnone, hattempt⟩
  · rw [hrun, hwhy]
    constructor <;> rintro ⟨⟩ <;> rfl
  · rw [hnone]
    refine iff_of_false (fun hrun => ?_) nofun
    rw [hrun] at hattempt
    cases hattempt

/-- In a file that can be read, the check says that the block is missing exactly if the removal
finds none, for the same reason, and finds the block in step or drifted exactly if the removal goes
about removing it; and after a removal that succeeds, the check says that the block is missing,
whatever the policy is, and a second removal finds none. -/
theorem check_agrees_with_remove (hserver : server ≠ .unknown)
    (htext : t.text? path = .ok current) (b : Block) (p : Policy) (site : Site) :
    (∀ why,
      (check b (server.rules? b p site) path : StateM FileTree _).run t = (.ok (.missing why), t) ↔
        (remove b path : StateM FileTree _).run t = (.ok (.absent why), t)) ∧
    ((check b (server.rules? b p site) path : StateM FileTree _).run t = (.ok .inSync, t) ∨
        (check b (server.rules? b p site) path : StateM FileTree _).run t = (.ok .drifted, t) ↔
      Attempted path ((remove b path : StateM FileTree _).run t).1) ∧
    ∀ o t', (remove b path : StateM FileTree _).run t = (.ok o, t') →
      ∃ why, (why = .noFile ↔ current = none) ∧
        (∀ p', (check b (server.rules? b p' site) path : StateM FileTree _).run t' =
          (.ok (.missing why), t')) ∧
        (remove b path : StateM FileTree _).run t' = (.ok (.absent why), t') := by
  have hrules := fun p => exists_rules hserver b p site
  refine ⟨fun why => ?_, ?_, fun o t' hremove => ?_⟩
  · obtain ⟨rules, hsome⟩ := hrules p
    rw [hsome, run_check_eq_missing_iff htext, run_remove_eq_absent_iff htext]
  · obtain ⟨rules, hsome⟩ := hrules p
    rw [hsome]
    rcases run_check_cases b rules htext with ⟨why, hwhy, hcheck⟩ | ⟨hnone, hcheck⟩
    · rw [hcheck, (run_remove_eq_absent_iff htext).2 hwhy]
      exact iff_of_false nofun nofun
    · refine iff_of_true hcheck ?_
      rcases run_remove_absence_cases b htext with ⟨why, hwhy, -⟩ | ⟨-, hattempt⟩
      · cases hnone.symm.trans hwhy
      · exact hattempt
  · obtain ⟨why, hwhy, hfile⟩ := absence?_erase b current
    have htext' : t'.text? path = .ok (current.map b.region.erase) := by
      rcases run_remove_cases b htext with ⟨cause, t₁, hrun⟩ | ⟨o₁, t₁, hrun, htext₁⟩
      · cases hrun.symm.trans hremove
      · cases hrun.symm.trans hremove
        exact htext₁
    refine ⟨why, hfile, fun p' => ?_, (run_remove_eq_absent_iff htext').2 hwhy⟩
    obtain ⟨rules, hsome⟩ := hrules p'
    rw [hsome, run_check_eq_missing_iff htext', hwhy]

/-- The rules of an older policy are found, behind a closing marker of their own. -/
theorem check_agrees_with_remove_stale :
    let text : Text := "# END Page Cache cache\n# BEGIN Page Cache cache\nFileETag MTime Size\n" ++
      "# END Page Cache cache"
    ∃ t', (remove .cache "rules.conf" : StateM FileTree _).run (Edit.oneFile text) =
        (.ok .removed, t') ∧
      (remove .cache "rules.conf" : StateM FileTree _).run t' = (.ok (.absent .noRegion), t') ∧
      ∀ p,
        (check .cache (Server.nginx.rules? .cache p {}) "rules.conf" : StateM FileTree _).run t' =
          (.ok (.missing .noRegion), t') := by
  intro text
  let p : Policy := { rejectCookies := [], rejectUris := [] }
  have hnginx : Server.nginx ≠ .unknown := by decide
  have htext := Edit.text?_oneFile text
  have hs : pageCacheCache.locate? text = some ⟨"# END Page Cache cache\n",
      "# BEGIN Page Cache cache\nFileETag MTime Size\n# END Page Cache cache", []⟩ := by
    decide +kernel
  obtain ⟨-, hattempt, hafter⟩ := check_agrees_with_remove hnginx htext .cache p {}
  obtain ⟨o, updated, hperform⟩ :=
    Edit.exists_perform_oneFile hnginx (s := {}) (.remove .cache) text
  have hrun : (remove .cache "rules.conf" : StateM FileTree _).run (Edit.oneFile text) =
      (.ok o, Edit.oneFile updated) := hperform
  obtain ⟨rules, hsome⟩ := exists_rules hnginx .cache p {}
  have hfound : absence? .cache (some text) = none := absence?_of_located hs
  obtain ⟨why, hwhy, -⟩ | ⟨-, hcheck⟩ := run_check_cases .cache rules htext
  · cases hfound.symm.trans hwhy
  rw [← hsome] at hcheck
  have hremoved := hattempt.1 hcheck
  rw [hrun] at hremoved
  obtain rfl : o = .removed := hremoved
  obtain ⟨why, hwhy, hmissing, hagain⟩ := hafter _ _ hrun
  obtain rfl : why = .noRegion := by
    cases why with
    | noFile => cases hwhy.1 rfl
    | noRegion => rfl
  exact ⟨_, hrun, hagain, hmissing⟩

end RuleFile

end PageCache
