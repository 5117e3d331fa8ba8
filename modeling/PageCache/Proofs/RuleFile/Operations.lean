import PageCache.Proofs.Files.Tree
import PageCache.Proofs.RuleFile.Installed

/-! What the operations on rule files do in a tree of files. On a text that can be read, each one
leaves the text there that it says, unless the file system does not permit to write it. -/
namespace PageCache

/-- The text of a file, or none if the file does not exist. -/
def FileTree.text? (t : FileTree) (path : Text) : Except FileFailure (Option Text) :=
  match t.read path with
  | .ok bytes =>
    match Utf8.decode? bytes with
    | some text => .ok (some text)
    | none => .error (.unreadable path .notUtf8)
  | .error .notFound => .ok none
  | .error cause => .error (.unreadable path cause)

namespace RuleFile

open Text Region

variable {b : Block} {rules text path : Text} {current : Option Text} {t t' : FileTree}
  {o : Outcome}

theorem run_bind {σ α β : Type} {s s' : σ} {x : StateM σ α} {f : α → StateM σ β} {a : α}
    (h : x.run s = (a, s')) : (x >>= f).run s = (f a).run s' := by
  rw [StateT.run_bind, h]
  rfl

theorem run_readText? (path : Text) (t : FileTree) :
    (readText? path : StateM FileTree _).run t = (t.text? path, t) := by
  have hread : (Files.read path : StateM FileTree _).run t = (t.read path, t) := rfl
  rw [readText?, run_bind hread, FileTree.text?]
  match t.read path with
  | .ok bytes =>
    dsimp only
    cases Utf8.decode? bytes <;> rfl
  | .error cause => cases cause <;> rfl

theorem run_filesWrite (path : Text) (content : ByteArray) (t : FileTree) :
    (Files.write path content : StateM FileTree _).run t = t.write path content := rfl

/-- A text is written, unless the file system does not permit it. -/
theorem run_writeText_cases (path text : Text) (t : FileTree) :
    (∃ cause t', (writeText path text : StateM FileTree _).run t =
      (.error (.unwritable path cause), t')) ∨
    ∃ t', (writeText path text : StateM FileTree _).run t = (.ok (), t') ∧
      t'.text? path = .ok (some text) := by
  rcases hparents : (makeParents path : StateM FileTree _).run t with ⟨cause | ⟨⟩, t₁⟩
  · refine .inl ⟨cause, t₁, ?_⟩
    rw [writeText, run_bind hparents]
    rfl
  rcases hwrite : t₁.write path (Utf8.encode text) with ⟨cause | ⟨⟩, t₂⟩
  · refine .inl ⟨cause, t₂, ?_⟩
    rw [writeText, run_bind hparents, run_bind ((run_filesWrite _ _ _).trans hwrite)]
    rfl
  · refine .inr ⟨t₂, ?_, ?_⟩
    · rw [writeText, run_bind hparents, run_bind ((run_filesWrite _ _ _).trans hwrite)]
      rfl
    · rw [FileTree.text?, FileTree.read_of_write hwrite]
      simp only [Utf8.decode?_encode]

theorem exists_rules {server : Server} (h : server ≠ .unknown) (b : Block) (p : Policy) (s : Site) :
    ∃ rules, server.rules? b p s = some rules := by
  cases server <;> cases b <;> first | exact ⟨_, rfl⟩ | exact absurd rfl h

theorem run_check (b : Block) (rules path : Text) (t : FileTree) :
    (check b (some rules) path : StateM FileTree _).run t =
      (match t.text? path with
        | .error e => .error e
        | .ok none => .ok (.missing .noFile)
        | .ok (some text) => .ok (statusOf b rules text), t) := by
  rw [check, run_bind (run_readText? path t)]
  match t.text? path with
  | .error e => rfl
  | .ok none => rfl
  | .ok (some text) => rfl

theorem run_write_of_installed (htext : t.text? path = .ok (some text))
    (h : install b rules text = text) :
    (write b (some rules) path : StateM FileTree _).run t = (.ok .unchanged, t) := by
  rw [write, run_bind (run_readText? path t), htext]
  simp only [Option.getD_some, h, if_true]
  rfl

/-- A write leaves the text with the block installed, unless the file system does not permit it. -/
theorem run_write_cases (b : Block) (rules : Text) (htext : t.text? path = .ok current) :
    (∃ cause t', (write b (some rules) path : StateM FileTree _).run t =
      (.error (.unwritable path cause), t')) ∨
    ∃ o t', (write b (some rules) path : StateM FileTree _).run t = (.ok o, t') ∧
      t'.text? path = .ok (some (install b rules (current.getD []))) := by
  by_cases hsame : install b rules (current.getD []) = current.getD []
  · cases current with
    | none => exact absurd hsame (install_ne_nil b rules [])
    | some text =>
      rw [Option.getD_some] at hsame ⊢
      refine .inr ⟨.unchanged, t, run_write_of_installed htext hsame, ?_⟩
      rw [htext, hsame]
  rcases run_writeText_cases path (install b rules (current.getD [])) t with
    ⟨cause, t', hwrite⟩ | ⟨t', hwrite, htext'⟩
  · refine .inl ⟨cause, t', ?_⟩
    rw [write, run_bind (run_readText? path t), htext]
    simp only [if_neg hsame]
    rw [run_bind hwrite]
    rfl
  · refine .inr ⟨.written, t', ?_, htext'⟩
    rw [write, run_bind (run_readText? path t), htext]
    simp only [if_neg hsame]
    rw [run_bind hwrite]
    rfl

/-- A write that succeeds has read the text and leaves it with the block installed. -/
theorem text?_of_run_write
    (h : (write b (some rules) path : StateM FileTree _).run t = (.ok o, t')) :
    ∃ current, t.text? path = .ok current ∧
      t'.text? path = .ok (some (install b rules (current.getD []))) := by
  cases htext : t.text? path with
  | error e =>
    rw [write, run_bind (run_readText? path t), htext] at h
    cases h
  | ok current =>
    refine ⟨current, rfl, ?_⟩
    rcases run_write_cases b rules htext with ⟨cause, t₁, hrun⟩ | ⟨o₁, t₁, hrun, htext'⟩
    · cases hrun.symm.trans h
    · cases hrun.symm.trans h
      exact htext'

theorem run_remove_of_noFile (b : Block) (htext : t.text? path = .ok none) :
    (remove b path : StateM FileTree _).run t = (.ok (.absent .noFile), t) := by
  rw [remove, run_bind (run_readText? path t), htext]
  rfl

theorem run_remove_of_noRegion (htext : t.text? path = .ok (some text))
    (h : b.region.locate? text = none) :
    (remove b path : StateM FileTree _).run t = (.ok (.absent .noRegion), t) := by
  rw [remove, run_bind (run_readText? path t), htext]
  simp only [h, Option.isNone_none, if_true]
  rfl

/-- A region that is found is removed, unless the file system does not permit it. -/
theorem run_remove_of_located {s : Span} (htext : t.text? path = .ok (some text))
    (h : b.region.locate? text = some s) :
    (∃ cause t', (remove b path : StateM FileTree _).run t =
      (.error (.unwritable path cause), t')) ∨
    ∃ t', (remove b path : StateM FileTree _).run t = (.ok .removed, t') ∧
      t'.text? path = .ok (some (b.region.erase text)) := by
  rcases run_writeText_cases path (b.region.erase text) t with
    ⟨cause, t', hwrite⟩ | ⟨t', hwrite, htext'⟩
  · refine .inl ⟨cause, t', ?_⟩
    rw [remove, run_bind (run_readText? path t), htext]
    simp only [h, Option.isNone_some, Bool.false_eq_true, if_false]
    rw [run_bind hwrite]
    rfl
  · refine .inr ⟨t', ?_, htext'⟩
    rw [remove, run_bind (run_readText? path t), htext]
    simp only [h, Option.isNone_some, Bool.false_eq_true, if_false]
    rw [run_bind hwrite]
    rfl

/-- A removal leaves the text without the region, unless the file system does not permit it. -/
theorem run_remove_cases (b : Block) (htext : t.text? path = .ok current) :
    (∃ cause t', (remove b path : StateM FileTree _).run t =
      (.error (.unwritable path cause), t')) ∨
    ∃ o t', (remove b path : StateM FileTree _).run t = (.ok o, t') ∧
      t'.text? path = .ok (current.map b.region.erase) := by
  match current with
  | none => exact .inr ⟨.absent .noFile, t, run_remove_of_noFile b htext, htext⟩
  | some text =>
    match h : b.region.locate? text with
    | none =>
      refine .inr ⟨.absent .noRegion, t, run_remove_of_noRegion htext h, ?_⟩
      rw [htext, Option.map_some, erase_eq_self h]
    | some s =>
      rcases run_remove_of_located htext h with hfailed | ⟨t', hrun, htext'⟩
      · exact .inl hfailed
      · exact .inr ⟨.removed, t', hrun, htext'⟩

end RuleFile

end PageCache
