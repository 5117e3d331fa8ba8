import PageCache.Proofs.RuleFile.Operations

/-! A block that was written passes its check and is not written again, and the core rules leave no
region of a competing page cache in their file. -/
namespace PageCache.RuleFile

open Text Region

variable {b : Block} {server : Server} {p : Policy} {s : Site} {path rules : Text}
  {current : Option Text} {t t₁ t' : FileTree} {o : Outcome}

/-- Writing, checking and writing again agree, whatever the file held before. -/
theorem check_and_rewrite_of_write (hserver : server ≠ .unknown)
    (hrules : ∀ rules, server.rules? b p s = some rules →
      Avoids [b.region] rules ∧ (b = .core → Avoids [superCache] rules))
    (hwrite : (write b (server.rules? b p s) path : StateM FileTree _).run t = (.ok o, t')) :
    (check b (server.rules? b p s) path : StateM FileTree _).run t' = (.ok .inSync, t') ∧
      (write b (server.rules? b p s) path : StateM FileTree _).run t' = (.ok .unchanged, t') ∧
      (b = .core → ∃ text, t'.text? path = .ok (some text) ∧ ¬ superCache.Paired text) := by
  obtain ⟨rules, hsome⟩ := exists_rules hserver b p s
  obtain ⟨hown, hother⟩ := hrules rules hsome
  rw [hsome] at hwrite ⊢
  obtain ⟨current, -, htext⟩ := text?_of_run_write hwrite
  refine ⟨?_, ?_, ?_⟩
  · rw [run_check, htext]
    simp only [statusOf_install]
  · exact run_write_of_installed htext (install_install hown hother _)
  · rintro rfl
    exact ⟨_, htext, not_paired_install_core (hother rfl) _⟩

/-- A text that changes is written, if the file system permits it. -/
theorem run_write_of_changed (htext : t.text? path = .ok current)
    (hne : install b rules (current.getD []) ≠ current.getD [])
    (hparents : (makeParents path : StateM FileTree _).run t = (.ok (), t₁))
    (hwrite : t₁.write path (Utf8.encode (install b rules (current.getD []))) = (.ok (), t')) :
    (write b (some rules) path : StateM FileTree _).run t = (.ok .written, t') := by
  have hrun : (writeText path (install b rules (current.getD [])) : StateM FileTree _).run t =
      (.ok (), t') := by
    rw [writeText, run_bind hparents,
      run_bind (show (Files.write path _ : StateM FileTree _).run t₁ = _ from hwrite)]
    rfl
  rw [write, run_bind (run_readText? path t), htext]
  simp only [if_neg hne]
  rw [run_bind hrun]
  rfl

/-- The core rules of a small policy, written over the rules of a competing page cache. -/
theorem check_and_rewrite_of_write_over_superCache :
    ∃ t' : FileTree,
      (write .core (Server.nginx.rules? .core { rejectCookies := [], rejectUris := [] } {})
          "rules.conf" : StateM FileTree _).run
        { entries := [(["rules.conf"],
          .file (Utf8.encode "# BEGIN WPSuperCache\n# END WPSuperCache\n"))] } =
        (.ok .written, t') ∧
      (check .core (Server.nginx.rules? .core { rejectCookies := [], rejectUris := [] } {})
          "rules.conf" : StateM FileTree _).run t' = (.ok .inSync, t') ∧
      (write .core (Server.nginx.rules? .core { rejectCookies := [], rejectUris := [] } {})
          "rules.conf" : StateM FileTree _).run t' = (.ok .unchanged, t') ∧
      ∃ text, t'.text? "rules.conf" = .ok (some text) ∧ ¬ superCache.Paired text := by
  let p : Policy := { rejectCookies := [], rejectUris := [] }
  let before : Text := "# BEGIN WPSuperCache\n# END WPSuperCache\n"
  let t : FileTree := { entries := [(["rules.conf"], .file (Utf8.encode before))] }
  have hnginx : Server.nginx ≠ .unknown := by decide
  obtain ⟨rules, hsome⟩ := exists_rules hnginx .core p {}
  have hrules : Avoids [pageCacheCore] rules ∧ Avoids [superCache] rules := by
    have h : ∀ rules ∈ Server.nginx.rules? .core p {},
        Avoids [pageCacheCore] rules ∧ Avoids [superCache] rules := by decide +kernel
    exact h rules hsome
  have htext : t.text? "rules.conf" = .ok (some before) := by
    have hread : t.read "rules.conf" = .ok (Utf8.encode before) := rfl
    rw [FileTree.text?, hread]
    simp only [Utf8.decode?_encode]
  have hpaired : superCache.Paired before := ⟨[], ['\n'], ['\n'], by decide⟩
  have hne : install .core rules before ≠ before := fun h =>
    not_paired_install_core hrules.2 before (h.symm ▸ hpaired)
  have hparents : (makeParents "rules.conf" : StateM FileTree _).run t = (.ok (), t) := rfl
  have hput : ∀ content, t.write "rules.conf" content =
      (.ok (), { entries := [(["rules.conf"], .file content)] }) := fun _ => rfl
  have hwrite := run_write_of_changed htext hne hparents (hput _)
  rw [← hsome] at hwrite
  obtain ⟨hcheck, hagain, hgone⟩ := check_and_rewrite_of_write hnginx
    (fun rules' h => by
      obtain rfl : rules = rules' := Option.some.inj (hsome.symm.trans h)
      exact ⟨hrules.1, fun _ => hrules.2⟩) hwrite
  exact ⟨_, hwrite, hcheck, hagain, hgone rfl⟩

end PageCache.RuleFile
