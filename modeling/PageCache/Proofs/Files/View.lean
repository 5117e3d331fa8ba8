import PageCache.Proofs.Files.Tree

/-! What can be relied on in a file system, whatever kind it is: a write that fails leaves the files
as they are, one that succeeds replaces the content of the file that its path leads to, and a new
directory changes no file. Main statement: file trees keep these laws. -/
namespace PageCache

structure FileView (σ : Type) where
  /-- Where regular files are. -/
  Place : Type
  /-- The states that can arise. -/
  Sound : σ → Prop
  /-- The bytes of the regular file at a place. -/
  content? : σ → Place → Option ByteArray
  /-- The place of the regular file that a path leads to. -/
  place? : σ → Text → Option Place
  /-- A step of the path, or of a link that it meets, goes up. -/
  GoesUp : σ → Text → Prop

namespace FileView

variable {σ α β : Type} (v : FileView σ)

/-- At most directories were added. A new directory is empty, so a path gets past it to a file only
if it goes up again. -/
structure Extends (s s' : σ) : Prop where
  sound : v.Sound s'
  content? : v.content? s' = v.content? s
  place? : ∀ path p, v.place? s path = some p → v.place? s' path = some p
  goesUp : ∀ path, v.GoesUp s' path → v.GoesUp s path
  of_place? : ∀ path p, ¬ v.GoesUp s path → v.place? s' path = some p → v.place? s path = some p

/-- The file that a path leads to was given other bytes, or it was made. -/
structure Replaces (path : Text) (bytes : ByteArray) (s s' : σ) (p : v.Place) : Prop where
  sound : v.Sound s'
  leads : v.place? s' path = some p
  led : ∀ q, v.place? s path = some q → q = p
  found : (v.content? s p).isSome → v.place? s path = some p
  written : v.content? s' p = some bytes
  others : ∀ q, q ≠ p → v.content? s' q = v.content? s q

def readIn [Files (StateM σ)] (s : σ) (path : Text) : Except IoError ByteArray :=
  ((Files.read path : StateM σ _).run s).1

/-- The laws of a file system. -/
structure Lawful [Files (StateM σ)] : Prop where
  run_read : ∀ s path, (Files.read path : StateM σ _).run s = (readIn s path, s)
  of_read_ok : ∀ s path bytes, readIn s path = .ok bytes →
    ∃ p, v.place? s path = some p ∧ v.content? s p = some bytes
  of_read_notFound : ∀ s path, readIn s path = .error .notFound → v.place? s path = none
  isDirectory : ∀ s path, ((Files.isDirectory path : StateM σ _).run s).2 = s
  makeDirectory : ∀ s path, v.Sound s →
    v.Extends s ((Files.makeDirectory path : StateM σ _).run s).2
  write_error : ∀ s path bytes e s', v.Sound s →
    (Files.write path bytes : StateM σ _).run s = (.error e, s') →
      v.Sound s' ∧ v.content? s' = v.content? s
  write_ok : ∀ s path bytes s', v.Sound s →
    (Files.write path bytes : StateM σ _).run s = (.ok (), s') → ∃ p, v.Replaces path bytes s s' p

variable {v} {s s' s'' : σ}

theorem Extends.refl (h : v.Sound s) : v.Extends s s where
  sound := h
  content? := rfl
  place? _ _ hp := hp
  goesUp _ hup := hup
  of_place? _ _ _ hp := hp

theorem Extends.trans (h : v.Extends s s') (h' : v.Extends s' s'') : v.Extends s s'' where
  sound := h'.sound
  content? := h'.content?.trans h.content?
  place? path p hp := h'.place? path p (h.place? path p hp)
  goesUp path hup := h.goesUp path (h'.goesUp path hup)
  of_place? path p hup hp :=
    h.of_place? path p hup (h'.of_place? path p (mt (h.goesUp path) hup) hp)

variable (v) in
/-- Whatever state it starts in, the program adds directories at most. -/
def OnlyExtends (x : StateM σ α) : Prop := ∀ s, v.Sound s → v.Extends s (x.run s).2

theorem onlyExtends_pure (a : α) : v.OnlyExtends (pure a) := fun _ hs => .refl hs

theorem OnlyExtends.bind {x : StateM σ α} {f : α → StateM σ β} (hx : v.OnlyExtends x)
    (hf : ∀ a, v.OnlyExtends (f a)) : v.OnlyExtends (x >>= f) := by
  intro s hs
  have hfirst := hx s hs
  exact hfirst.trans (hf _ _ hfirst.sound)

section
variable [Files (StateM σ)] (hv : v.Lawful)
include hv

theorem Lawful.onlyExtends_isDirectory (path : Text) :
    v.OnlyExtends (Files.isDirectory path : StateM σ Bool) := by
  intro s hs
  rw [hv.isDirectory]
  exact .refl hs

theorem Lawful.onlyExtends_orDirectory (path : Text) (made : Except IoError Unit) :
    v.OnlyExtends (Files.orDirectory path made : StateM σ _) := by
  cases made with
  | ok => exact onlyExtends_pure _
  | error e => exact (hv.onlyExtends_isDirectory path).bind fun _ => onlyExtends_pure _

theorem Lawful.onlyExtends_makeDirectory (path : Text) :
    v.OnlyExtends (Files.makeDirectory path : StateM σ _) := fun s => hv.makeDirectory s path

theorem Lawful.onlyExtends_createFrom (fuel : ℕ) (path : Text) :
    v.OnlyExtends (Files.createFrom fuel path : StateM σ _) := by
  induction fuel generalizing path with
  | zero => exact onlyExtends_pure _
  | succ fuel ih =>
    rw [Files.createFrom]
    split
    · exact onlyExtends_pure _
    · refine (hv.onlyExtends_makeDirectory path).bind fun made => ?_
      split
      · split
        · exact onlyExtends_pure _
        · next parent _ =>
          refine (ih parent).bind fun above => ?_
          split
          · exact onlyExtends_pure _
          · exact (hv.onlyExtends_makeDirectory path).bind fun _ =>
              hv.onlyExtends_orDirectory path _
      · exact hv.onlyExtends_orDirectory path _

theorem Lawful.onlyExtends_createDirectories (path : Text) :
    v.OnlyExtends (Files.createDirectories path : StateM σ _) := hv.onlyExtends_createFrom _ path

end

end FileView

namespace FileTree

variable {t t' : FileTree} {place p q start names : List Text} {n : Node} {path name : Text}
  {content bytes : ByteArray}

/-- Whatever is in the tree is in a directory. -/
def IsRooted (t : FileTree) : Prop :=
  ∀ place name, (t.node? (place ++ [name])).isSome → t.node? place = some .directory

def fileAt? (t : FileTree) (place : List Text) : Option ByteArray :=
  match t.node? place with
  | some (.file content) => some content
  | _ => none

/-- The place of the file that a path leads to. -/
def filePlace? (t : FileTree) (path : Text) : Option (List Text) :=
  match t.resolve path with
  | .ok (place, .file _) => some place
  | _ => none

/-- The files of a tree. There are no links. -/
def view : FileView FileTree where
  Place := List Text
  Sound := IsRooted
  content? := fileAt?
  place? := filePlace?
  GoesUp _ path := Path.up ∈ Path.steps path

theorem fileAt?_eq_some_iff : t.fileAt? p = some bytes ↔ t.node? p = some (.file bytes) := by
  unfold fileAt?
  split
  · next h => simp [h]
  · next h =>
    refine iff_of_false nofun fun hnode => h bytes hnode

theorem resolve_eq_ok_file_iff : t.resolve path = .ok (p, .file bytes) ↔
    ∃ r, t.route path = .ok r ∧ t.follow r.start r.names = .ok p ∧ r.directoryOnly = false ∧
      t.node? p = some (.file bytes) := by
  unfold resolve
  cases hroute : t.route path with
  | error e => simp [bind, Except.bind]
  | ok r =>
    cases hfollow : t.follow r.start r.names with
    | error e => simp [bind, Except.bind, hfollow]
    | ok place =>
      simp only [bind, Except.bind, hfollow, Except.ok.injEq, exists_eq_left']
      split
      · next hnode => simpa using by rintro rfl; simp [hnode]
      · next content hnode =>
        cases r.directoryOnly
        · simpa using by rintro rfl; simp [hnode]
        · simp
      · next hnode => simpa using by rintro rfl; simp [hnode]

theorem filePlace?_eq_some_iff :
    t.filePlace? path = some p ↔ ∃ bytes, t.resolve path = .ok (p, .file bytes) := by
  unfold filePlace?
  split
  · next place bytes h => simp [h]
  · next h => exact iff_of_false nofun fun ⟨bytes, hbytes⟩ => h p bytes hbytes

theorem eq_of_step (hup : name ≠ Path.up) (h : t.step p name = .ok q) : q = p ++ [name] := by
  rw [step, node?_of_step h] at h
  simp only [beq_iff_eq, hup, if_false] at h
  split at h
  · cases h
  · split at h
    · exact (Except.ok.inj h).symm
    · cases h

theorem follow_cons_eq_ok_iff : t.follow start (name :: names) = .ok q ↔
    ∃ next, t.step start name = .ok next ∧ t.follow next names = .ok q := by
  rw [follow]
  cases t.step start name <;> simp [bind, Except.bind]

theorem eq_of_follow (hup : Path.up ∉ names) (h : t.follow start names = .ok q) :
    q = start ++ names := by
  induction names generalizing start with
  | nil => simpa [follow] using h.symm
  | cons name names ih =>
    obtain ⟨hname, hup⟩ := not_or.1 (List.mem_cons.not.1 hup)
    obtain ⟨next, hstep, hfollow⟩ := follow_cons_eq_ok_iff.1 h
    rw [ih hup hfollow, eq_of_step (Ne.symm hname) hstep, List.append_assoc, List.singleton_append]

theorem IsRooted.directory (ht : t.IsRooted) (hnames : names ≠ [])
    (h : (t.node? (p ++ names)).isSome) : t.node? p = some .directory := by
  induction names using List.reverseRecOn with
  | nil => exact absurd rfl hnames
  | append_singleton names name ih =>
    rw [← List.append_assoc] at h
    have habove := ht _ _ h
    rcases eq_or_ne names [] with rfl | hne
    · simpa using habove
    · exact ih hne (by rw [habove, Option.isSome_some])

theorem IsRooted.put (ht : t.IsRooted) (hp : t.node? p = some .directory)
    (hplace : t.node? (p ++ [name]) ≠ some .directory) : (t.put (p ++ [name]) n).IsRooted := by
  intro place last h
  have hdir : t.node? place = some .directory := by
    by_cases he : place ++ [last] = p ++ [name]
    · rwa [(List.append_inj' he rfl).1]
    · rw [node?_put_of_ne t n he] at h
      exact ht place last h
  have hne : place ≠ p ++ [name] := fun he => hplace (he ▸ hdir)
  rwa [node?_put_of_ne t n hne]

theorem fileAt?_put_of_ne (t : FileTree) (n : Node) (h : p ≠ place) :
    (t.put place n).fileAt? p = t.fileAt? p := by
  rw [fileAt?, fileAt?, node?_put_of_ne t n h]

theorem fileAt?_put_directory (h : t.node? place = none) :
    (t.put place .directory).fileAt? = t.fileAt? := by
  funext q
  rcases eq_or_ne q place with rfl | hq
  · have hne : q ≠ [] := by
      rintro rfl
      simp [node?] at h
    rw [fileAt?, fileAt?, node?_put_self t _ hne, h]
  · exact fileAt?_put_of_ne t _ hq

/-- A node that is put into a tree opens no way down to what was there before. -/
theorem follow_of_put (ht : t.IsRooted) (hup : Path.up ∉ names) (hq : (t.node? q).isSome)
    (h : (t.put place n).follow start names = .ok q) : t.follow start names = .ok q := by
  induction names generalizing start with
  | nil => exact h
  | cons name names ih =>
    obtain ⟨hname, hup'⟩ := not_or.1 (List.mem_cons.not.1 hup)
    obtain ⟨next, hstep, hfollow⟩ := follow_cons_eq_ok_iff.1 h
    have hlong := not_long_of_step (by simpa using Ne.symm hname) hstep
    obtain rfl := eq_of_step (Ne.symm hname) hstep
    obtain rfl := eq_of_follow hup h
    have hstart := ht.directory (List.cons_ne_nil _ _) hq
    have hnext : (t.node? (start ++ [name])).isSome := by
      rcases eq_or_ne names [] with rfl | hne
      · exact hq
      · rw [ht.directory hne (by simpa using hq), Option.isSome_some]
    refine follow_cons_eq_ok_iff.2 ⟨_, ?_, ih hup' hfollow⟩
    rw [step, hstart]
    simp [Ne.symm hname, hlong, hnext]

theorem names_of_route {r : Route} (h : t.route path = .ok r) : r.names = Path.steps path := by
  unfold route at h
  split at h
  · cases h
  · split at h
    · cases h
    · split at h
      · cases h
      · rw [← Except.ok.inj h, Path.steps]

theorem filePlace?_eq_some_iff_follow : t.filePlace? path = some p ↔
    ∃ r, t.route path = .ok r ∧ t.follow r.start r.names = .ok p ∧ r.directoryOnly = false ∧
      (t.fileAt? p).isSome := by
  simp only [filePlace?_eq_some_iff, resolve_eq_ok_file_iff, Option.isSome_iff_exists,
    fileAt?_eq_some_iff]
  constructor
  · rintro ⟨bytes, r, hroute, hfollow, honly, hnode⟩
    exact ⟨r, hroute, hfollow, honly, bytes, hnode⟩
  · rintro ⟨r, hroute, hfollow, honly, bytes, hnode⟩
    exact ⟨bytes, r, hroute, hfollow, honly, hnode⟩

theorem extends_put_directory (ht : t.IsRooted) (hp : t.node? p = some .directory)
    (hplace : t.node? (p ++ [name]) = none) :
    view.Extends t (t.put (p ++ [name]) .directory) where
  sound := ht.put hp (by simp [hplace])
  content? := fileAt?_put_directory hplace
  place? path q hq := by
    obtain ⟨r, hroute, hfollow, honly, hfile⟩ := filePlace?_eq_some_iff_follow.1 hq
    refine filePlace?_eq_some_iff_follow.2 ⟨r, by rwa [route_put],
      follow_put (by simp [hplace]) hfollow, honly, ?_⟩
    rwa [fileAt?_put_directory hplace]
  of_place? path q hup hq := by
    obtain ⟨r, hroute, hfollow, honly, hfile⟩ := filePlace?_eq_some_iff_follow.1 hq
    rw [route_put] at hroute
    rw [fileAt?_put_directory hplace] at hfile
    obtain ⟨bytes, hbytes⟩ := Option.isSome_iff_exists.1 hfile
    have hnode : (t.node? q).isSome := by rw [fileAt?_eq_some_iff.1 hbytes, Option.isSome_some]
    refine filePlace?_eq_some_iff_follow.2 ⟨r, hroute, ?_, honly, hfile⟩
    exact follow_of_put ht (names_of_route hroute ▸ hup) hnode hfollow
  goesUp _ hup := hup

theorem extends_makeDirectory (ht : t.IsRooted) (path : Text) :
    view.Extends t (t.makeDirectory path).2 := by
  unfold makeDirectory
  split
  · exact .refl ht
  · exact .refl ht
  · next place name h =>
    cases hroute : t.route path with
    | error e => simp [hroute, bind, Except.bind] at h
    | ok r =>
      rw [hroute] at h
      obtain ⟨names, -, -, hp, -, -⟩ := exists_of_lastName h
      split
      · exact .refl ht
      · next hnone => exact extends_put_directory ht hp (by simpa using hnone)

theorem replaces_of_write (ht : t.IsRooted) (h : t.write path bytes = (.ok (), t')) :
    ∃ p, view.Replaces path bytes t t' p := by
  obtain ⟨place, hwritable, rfl, hresolve⟩ := resolve_of_write h
  obtain ⟨r, names, p, name, hroute, hnames, honly, hfollow, hp, hup, hlong, rfl, hnode⟩ :=
    exists_of_writable hwritable
  have hfollow' : t.follow r.start r.names = t.step p name := by
    rw [hnames, follow_append, hfollow]
    rfl
  refine ⟨p ++ [name], ht.put hp hnode, filePlace?_eq_some_iff.2 ⟨bytes, hresolve⟩, ?_, ?_,
    fileAt?_eq_some_iff.2 (node?_put_self t _ (by simp)), fun q hq => fileAt?_put_of_ne t _ hq⟩
  · intro q hq
    obtain ⟨r', hroute', hq, -, -⟩ := filePlace?_eq_some_iff_follow.1 hq
    obtain rfl := Except.ok.inj (hroute.symm.trans hroute')
    exact eq_of_step (by simpa using hup) (hfollow'.symm.trans hq)
  · intro hfile
    obtain ⟨old, hold⟩ := Option.isSome_iff_exists.1 hfile
    refine filePlace?_eq_some_iff_follow.2 ⟨r, hroute, ?_, honly, hfile⟩
    rw [hfollow', step, hp]
    simp [hup, hlong, fileAt?_eq_some_iff.1 hold]

theorem readIn_eq (t : FileTree) (path : Text) : FileView.readIn t path = t.read path := rfl

theorem lawful_view : view.Lawful where
  run_read t path := rfl
  of_read_ok t path bytes h := by
    rw [readIn_eq, read] at h
    split at h
    · cases h
    · cases h
    · next place content hresolve =>
      obtain rfl := Except.ok.inj h
      obtain ⟨r, -, -, -, hnode⟩ := resolve_eq_ok_file_iff.1 hresolve
      exact ⟨place, filePlace?_eq_some_iff.2 ⟨_, hresolve⟩, fileAt?_eq_some_iff.2 hnode⟩
  of_read_notFound t path h := by
    rw [readIn_eq, read] at h
    refine Option.eq_none_iff_forall_ne_some.2 fun p hp => ?_
    obtain ⟨bytes, hresolve⟩ := filePlace?_eq_some_iff.1 hp
    simp [hresolve] at h
  isDirectory t path := rfl
  makeDirectory t path ht := extends_makeDirectory ht path
  write_error t path bytes e t' ht h := by
    change t.write path bytes = _ at h
    unfold write at h
    split at h
    · obtain ⟨-, rfl⟩ := Prod.mk.inj h
      exact ⟨ht, rfl⟩
    · cases h
  write_ok t path bytes t' ht h := replaces_of_write ht h

end FileTree
end PageCache
