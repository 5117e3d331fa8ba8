import PageCache.Proofs.Files.View
import PageCache.Proofs.RuleFile.Runs

/-! The files that an operation on rules touches, in any file system that keeps the laws of one.
Main statement: what an operation does not report as written or removed leaves every file as it is,
and one that does changes the file that its target leads to, after it has read it as text or has
found nothing there. Directories that are made on the way can make a path with steps up lead to a
file for the first time; only then is a file replaced that was not read. -/
namespace PageCache

def Edit.block : Edit → Block
  | write b _ => b
  | remove b => b

namespace RuleFile

def Outcome.isChange : Outcome → Bool
  | written | removed => true
  | unchanged | absent _ | notApplicable => false

inductive Operation where
  | edit (e : Edit)
  | check (b : Block) (p : Policy)

namespace Operation

def block : Operation → Block
  | edit e => e.block
  | check b _ => b

def perform {m : Type → Type} [Monad m] [Files m] (server : Server) (s : Site)
    (targets : Block → Text) : Operation → m (Except FileFailure (Outcome ⊕ Status))
  | edit e => do return (← e.perform server s (targets e.block)).map .inl
  | check b p => do return (← RuleFile.check b (server.rules? b p s) (targets b)).map .inr

end Operation

def reportsChange : Except FileFailure (Outcome ⊕ Status) → Bool
  | .ok (.inl o) => o.isChange
  | .ok (.inr _) | .error _ => false

open FileView

variable {σ : Type} {v : FileView σ} {path text : Text} {changed : Bool} {s s' s₁ : σ}

/-- What a run with this target does to the files, given whether it reports a change. -/
structure Framed [Files (StateM σ)] (v : FileView σ) (path : Text) (changed : Bool) (s s' : σ) :
    Prop where
  sound : v.Sound s'
  kept : changed = false → v.content? s' = v.content? s
  target : changed = true →
    ∃ p, v.place? s' path = some p ∧ ∀ q, q ≠ p → v.content? s' q = v.content? s q
  read : ∀ p, v.content? s' p ≠ v.content? s p →
    (∃ bytes, readIn s path = .ok bytes ∧ v.content? s p = some bytes ∧
      (Utf8.decode? bytes).isSome) ∨
    readIn s path = .error .notFound ∧ (v.content? s p = none ∨ v.GoesUp s path)

section
variable [Files (StateM σ)]

/-- The path was read as text, or nothing was found there. -/
def Legible (s : σ) (path : Text) : Prop :=
  (∃ bytes, readIn s path = .ok bytes ∧ (Utf8.decode? bytes).isSome) ∨
    readIn s path = .error .notFound

theorem Framed.of_content?_eq (hs : v.Sound s') (h : v.content? s' = v.content? s) :
    Framed v path false s s' where
  sound := hs
  kept _ := h
  target := nofun
  read p hp := absurd (congrFun h p) hp

/-- A file that is written after directories were made was read, or it was not there, or the path
goes up. -/
theorem Framed.of_replaces {bytes : ByteArray} {p : v.Place} (hv : v.Lawful)
    (hlegible : Legible s path) (hfirst : v.Extends s s₁) (h : v.Replaces path bytes s₁ s' p) :
    Framed v path true s s' where
  sound := h.sound
  kept := nofun
  target _ := ⟨p, h.leads, fun q hq => by rw [h.others q hq, hfirst.content?]⟩
  read q hq := by
    obtain rfl : q = p := by
      by_contra hne
      exact hq (by rw [h.others q hne, hfirst.content?])
    rcases hlegible with ⟨bytes', hread, hutf8⟩ | hread
    · obtain ⟨p, hplace, hcontent⟩ := hv.of_read_ok s path bytes' hread
      obtain rfl := h.led p (hfirst.place? path p hplace)
      exact .inl ⟨bytes', hread, hcontent, hutf8⟩
    · refine .inr ⟨hread, ?_⟩
      by_contra hnot
      obtain ⟨hcontent, hup⟩ := not_or.1 hnot
      rw [← hfirst.content?] at hcontent
      have hfound := h.found (Option.isSome_iff_ne_none.2 hcontent)
      have hplace := hfirst.of_place? path q hup hfound
      rw [hv.of_read_notFound s path hread] at hplace
      cases hplace

theorem exists_run_readText? (hv : v.Lawful) (s : σ) (path : Text) :
    ∃ r, (readText? path : StateM σ _).run s = (r, s) ∧
      ∀ current, r = .ok current → Legible s path := by
  rw [readText?, run_bind (hv.run_read s path)]
  cases hread : readIn s path with
  | ok bytes =>
    cases hutf8 : Utf8.decode? bytes with
    | some text =>
      exact ⟨.ok (some text), by simp only [hutf8]; rfl,
        fun _ _ => .inl ⟨bytes, hread, by rw [hutf8, Option.isSome_some]⟩⟩
    | none =>
      exact ⟨.error (.unreadable path .notUtf8), by simp only [hutf8]; rfl, fun _ h => by cases h⟩
  | error cause =>
    by_cases hcause : cause = .notFound
    · subst hcause
      exact ⟨.ok none, rfl, fun _ _ => .inr hread⟩
    · exact ⟨.error (.unreadable path cause), by cases cause <;> first | rfl | contradiction,
        fun _ h => by cases h⟩

theorem extends_makeParents (hv : v.Lawful) (hs : v.Sound s) (path : Text) :
    v.Extends s ((makeParents path : StateM σ _).run s).2 := by
  unfold makeParents
  split
  · exact hv.onlyExtends_createDirectories _ s hs
  · exact .refl hs

theorem framed_writeText (hv : v.Lawful) (hs : v.Sound s) (hlegible : Legible s path)
    (text : Text) :
    (∃ e s', (writeText path text : StateM σ _).run s = (.error e, s') ∧
      Framed v path false s s') ∨
    ∃ s', (writeText path text : StateM σ _).run s = (.ok (), s') ∧ Framed v path true s s' := by
  have hfirst := extends_makeParents hv hs path
  match hparents : (makeParents path : StateM σ _).run s with
  | (.error cause, s₁) =>
    rw [hparents] at hfirst
    exact .inl ⟨.unwritable path cause, s₁, by rw [writeText, run_bind hparents]; rfl,
      .of_content?_eq hfirst.sound hfirst.content?⟩
  | (.ok (), s₁) =>
    rw [hparents] at hfirst
    match hwrite : (Files.write path (Utf8.encode text) : StateM σ _).run s₁ with
    | (.error cause, s₂) =>
      obtain ⟨hs₂, hcontent⟩ := hv.write_error _ _ _ _ _ hfirst.sound hwrite
      exact .inl ⟨.unwritable path cause, s₂,
        by rw [writeText, run_bind hparents, run_bind hwrite]; rfl,
        .of_content?_eq hs₂ (hcontent.trans hfirst.content?)⟩
    | (.ok (), s₂) =>
      obtain ⟨p, hp⟩ := hv.write_ok _ _ _ _ hfirst.sound hwrite
      exact .inr ⟨s₂, by rw [writeText, run_bind hparents, run_bind hwrite]; rfl,
        .of_replaces hv hlegible hfirst hp⟩

theorem framed_write (hv : v.Lawful) (hs : v.Sound s) (b : Block) (rules : Option Text)
    (path : Text) :
    ∃ answer s', (write b rules path : StateM σ _).run s = (answer, s') ∧
      Framed v path (reportsChange (answer.map .inl)) s s' := by
  cases rules with
  | none => exact ⟨.ok .notApplicable, s, rfl, .of_content?_eq hs rfl⟩
  | some rules =>
    obtain ⟨current, hread, hlegible⟩ := exists_run_readText? hv s path
    rw [write, run_bind hread]
    cases current with
    | error e => exact ⟨.error e, s, rfl, .of_content?_eq hs rfl⟩
    | ok current =>
      by_cases hsame : install b rules (current.getD []) = current.getD []
      · simp only [hsame, if_true]
        exact ⟨.ok .unchanged, s, rfl, .of_content?_eq hs rfl⟩
      · simp only [if_neg hsame]
        rcases framed_writeText hv hs (hlegible current rfl) (install b rules (current.getD []))
          with ⟨e, s', hwrite, hframed⟩ | ⟨s', hwrite, hframed⟩
        · exact ⟨.error e, s', by rw [run_bind hwrite]; rfl, hframed⟩
        · exact ⟨.ok .written, s', by rw [run_bind hwrite]; rfl, hframed⟩

theorem framed_remove (hv : v.Lawful) (hs : v.Sound s) (b : Block) (path : Text) :
    ∃ answer s', (remove b path : StateM σ _).run s = (answer, s') ∧
      Framed v path (reportsChange (answer.map .inl)) s s' := by
  obtain ⟨current, hread, hlegible⟩ := exists_run_readText? hv s path
  rw [remove, run_bind hread]
  rcases current with e | _ | current
  · exact ⟨.error e, s, rfl, .of_content?_eq hs rfl⟩
  · exact ⟨.ok (.absent .noFile), s, rfl, .of_content?_eq hs rfl⟩
  · by_cases habsent : (b.region.locate? current).isNone
    · simp only [habsent, if_true]
      exact ⟨.ok (.absent .noRegion), s, rfl, .of_content?_eq hs rfl⟩
    · simp only [if_neg habsent]
      rcases framed_writeText hv hs (hlegible (some current) rfl) (b.region.erase current)
        with ⟨e, s', hwrite, hframed⟩ | ⟨s', hwrite, hframed⟩
      · exact ⟨.error e, s', by rw [run_bind hwrite]; rfl, hframed⟩
      · exact ⟨.ok .removed, s', by rw [run_bind hwrite]; rfl, hframed⟩

theorem exists_run_check (hv : v.Lawful) (s : σ) (b : Block) (rules : Option Text) (path : Text) :
    ∃ status, (check b rules path : StateM σ _).run s = (status, s) := by
  cases rules with
  | none => exact ⟨_, rfl⟩
  | some rules =>
    obtain ⟨current, hread, -⟩ := exists_run_readText? hv s path
    rw [check, run_bind hread]
    rcases current with e | _ | current <;> exact ⟨_, rfl⟩

/-- What an operation does not report leaves the files as they are. One that reports a change
changes the file that its target leads to and no other. A file whose bytes are changed was read as
text, unless the target led nowhere before and has steps up. -/
theorem framed_perform (hv : v.Lawful) (hs : v.Sound s) (op : Operation) (server : Server)
    (site : Site) (targets : Block → Text) :
    match (op.perform server site targets : StateM σ _).run s with
    | (answer, s') => Framed v (targets op.block) (reportsChange answer) s s' := by
  match op with
  | .edit (.write b p) =>
    obtain ⟨outcome, s', hrun, hframed⟩ :=
      framed_write hv hs b (server.rules? b p site) (targets b)
    have hedit : ((Edit.write b p).perform server site (targets b) : StateM σ _).run s =
      (outcome, s') := hrun
    rw [Operation.perform, Edit.block, run_bind hedit]
    exact hframed
  | .edit (.remove b) =>
    obtain ⟨outcome, s', hrun, hframed⟩ := framed_remove hv hs b (targets b)
    have hedit : ((Edit.remove b).perform server site (targets b) : StateM σ _).run s =
      (outcome, s') := hrun
    rw [Operation.perform, Edit.block, run_bind hedit]
    exact hframed
  | .check b p =>
    obtain ⟨status, hrun⟩ := exists_run_check hv s b (server.rules? b p site) (targets b)
    rw [Operation.perform, run_bind hrun]
    cases status <;> exact .of_content?_eq hs rfl

end

theorem isRooted_oneFile (text : Text) : (Edit.oneFile text).IsRooted := by
  intro place name h
  cases place with
  | nil => rfl
  | cons first place =>
    have hne : (first :: place ++ [name] == [("rules.conf" : Text)]) = false := by simp
    rw [FileTree.node?, if_neg (by simp), Edit.oneFile, List.lookup_cons, hne] at h
    cases h

/-- The rules are written below a directory that is not there yet, beside another file. -/
theorem framed_perform_below :
    let t := Edit.oneFile "gzip on;"
    let op : Operation := .edit (.write .cache { rejectCookies := [], rejectUris := [] })
    let run := (op.perform .nginx {} fun _ => "conf/rules.conf" : StateM FileTree _).run t
    (FileTree.view.Lawful ∧ FileTree.view.Sound t) ∧ run.1 = .ok (.inl .written) ∧
      Framed FileTree.view "conf/rules.conf" true t run.2 := by
  intro t op run
  have hrooted : FileTree.view.Sound t := isRooted_oneFile _
  have hwritten : run.1 = .ok (.inl .written) := by decide +kernel
  have hframed : Framed FileTree.view "conf/rules.conf" (reportsChange run.1) t run.2 :=
    framed_perform FileTree.lawful_view hrooted op .nginx {} fun _ => "conf/rules.conf"
  rw [hwritten] at hframed
  exact ⟨⟨FileTree.lawful_view, hrooted⟩, hwritten, hframed⟩

/-- The directory that is missing is made, and the path leads to a file that is no text. -/
theorem not_framed_unread :
    let place : List Text := ["rules.conf"]
    let t : FileTree := { entries := [(place, .file ⟨#[255]⟩)] }
    let op : Operation := .edit (.write .cache { rejectCookies := [], rejectUris := [] })
    let run := (op.perform .apache {} fun _ => "a/../rules.conf" : StateM FileTree _).run t
    Utf8.decode? ⟨#[255]⟩ = none ∧ run.1 = .ok (.inl .written) ∧
      run.2.filePlace? "a/../rules.conf" = some place ∧ run.2.fileAt? place ≠ t.fileAt? place := by
  decide +kernel

end RuleFile
end PageCache
