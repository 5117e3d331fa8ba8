import Mathlib
import PageCache.Files.Tree

/-! File trees that change. A file that is put into a tree blocks no path that led somewhere before,
so a file that was written is read back with what was written. -/
namespace PageCache.FileTree

variable {t t' : FileTree} {place p q start names : List Text} {n : Node} {path name : Text}
  {content : ByteArray}

@[simp] theorem workingDirectory_put (t : FileTree) (place : List Text) (n : Node) :
    (t.put place n).workingDirectory = t.workingDirectory := by
  unfold put
  split <;> rfl

theorem lookup_replaced (n : Node) {entries : List (List Text × Node)}
    (h : (entries.lookup place).isSome) :
    (entries.map fun e => if e.1 = place then (place, n) else e).lookup place = some n := by
  induction entries with
  | nil => simp at h
  | cons e entries ih =>
    by_cases he : e.1 = place
    · simp [he]
    · have hne : (place == e.1) = false := by simpa using Ne.symm he
      rw [List.lookup_cons, hne] at h
      rw [List.map_cons, if_neg he, List.lookup_cons, hne]
      exact ih h

theorem lookup_replaced_of_ne (n : Node) (entries : List (List Text × Node)) (h : p ≠ place) :
    (entries.map fun e => if e.1 = place then (place, n) else e).lookup p = entries.lookup p := by
  induction entries with
  | nil => rfl
  | cons e entries ih =>
    obtain ⟨k, m⟩ := e
    by_cases hk : k = place
    · have hplace : (p == place) = false := by simpa using h
      rw [List.map_cons, if_pos hk, List.lookup_cons, List.lookup_cons, hk, hplace, ih]
    · rw [List.map_cons, if_neg hk, List.lookup_cons, List.lookup_cons, ih]

theorem node?_put_self (t : FileTree) (n : Node) (h : place ≠ []) :
    (t.put place n).node? place = some n := by
  rw [node?, if_neg (by simpa using h), put]
  split
  · next hs => exact lookup_replaced n hs
  · next hs => simp [List.lookup_append, Option.not_isSome_iff_eq_none.1 hs]

theorem node?_put_of_ne (t : FileTree) (n : Node) (h : p ≠ place) :
    (t.put place n).node? p = t.node? p := by
  rw [node?, node?, put]
  split
  · rfl
  · split
    · exact lookup_replaced_of_ne n t.entries h
    · have hne : (p == place) = false := by simpa using h
      simp [List.lookup_append, List.lookup_cons, hne]

theorem isSome_node?_put (h : (t.node? p).isSome) : ((t.put place n).node? p).isSome := by
  by_cases hp : p = place
  · by_cases hnil : p = []
    · simp [node?, hnil]
    · rw [hp, node?_put_self t n (hp ▸ hnil), Option.isSome_some]
  · rwa [node?_put_of_ne t n hp]

theorem node?_of_step (h : t.step p name = .ok q) : t.node? p = some .directory := by
  unfold step at h
  split at h
  · cases h
  · cases h
  · assumption

theorem not_long_of_step (hup : (name == Path.up) = false) (h : t.step p name = .ok q) :
    ¬ name.utf8Length > nameLimit := by
  intro hlong
  rw [step, node?_of_step h] at h
  simp [hup, hlong] at h

theorem directory_of_step_notFound (hsome : (t.node? p).isSome)
    (h : t.step p name = .error .notFound) :
    t.node? p = some .directory ∧ ¬ name.utf8Length > nameLimit := by
  unfold step at h
  split at h
  · next hnone => simp [hnone] at hsome
  · cases h
  · next hdir =>
    refine ⟨hdir, fun hlong => ?_⟩
    split at h
    · cases h
    · simp at h

/-- A step stays possible when a file is put where there is no directory. -/
theorem step_put (hplace : t.node? place ≠ some .directory) (h : t.step p name = .ok q) :
    (t.put place n).step p name = .ok q := by
  have hp := node?_of_step h
  have hne : p ≠ place := fun he => hplace (he ▸ hp)
  rw [step, hp] at h
  rw [step, node?_put_of_ne t n hne, hp]
  simp only at h ⊢
  split at h
  · next hup => rwa [if_pos hup]
  · next hup =>
    rw [if_neg hup]
    split at h
    · cases h
    · next hlong =>
      rw [if_neg hlong]
      split at h
      · next hs => rwa [if_pos (isSome_node?_put hs)]
      · cases h

theorem follow_put (hplace : t.node? place ≠ some .directory) (h : t.follow start names = .ok q) :
    (t.put place n).follow start names = .ok q := by
  induction names generalizing start with
  | nil => exact h
  | cons name names ih =>
    rw [follow] at h ⊢
    match hs : t.step start name with
    | .error e => simp [hs, bind, Except.bind] at h
    | .ok next =>
      rw [hs] at h
      rw [step_put hplace hs]
      exact ih h

theorem follow_append (t : FileTree) (start : List Text) (names : List Text) (name : Text) :
    t.follow start (names ++ [name]) = t.follow start names >>= (t.step · name) := by
  induction names generalizing start with
  | nil =>
    simp only [List.nil_append, follow, bind, Except.bind]
    cases t.step start name <;> rfl
  | cons first names ih =>
    simp only [List.cons_append, follow, ih, bind_assoc]

theorem route_put (t : FileTree) (place : List Text) (n : Node) (path : Text) :
    (t.put place n).route path = t.route path := by
  simp [route]

theorem exists_of_lastName {r : Route} (h : t.lastName r = .ok (p, some name)) :
    ∃ names, r.names = names ++ [name] ∧ t.follow r.start names = .ok p ∧
      t.node? p = some .directory ∧ (name == Path.up) = false ∧
      ¬ name.utf8Length > nameLimit := by
  unfold lastName at h
  match hlast : r.names.getLast? with
  | none =>
    rw [hlast] at h
    cases hf : t.follow r.start [] <;> simp [hf, bind, Except.bind] at h
  | some last =>
    have hnames : r.names = r.names.dropLast ++ [last] :=
      (List.dropLast_append_getLast? last hlast).symm
    match hf : t.follow r.start r.names.dropLast with
    | .error e => simp [hlast, hf, bind, Except.bind] at h
    | .ok place =>
      simp only [hlast, hf, bind, Except.bind] at h
      split at h
      · cases hs : t.step place last <;> simp [hs] at h
      · next hup =>
        split at h
        · next hs =>
          split at h
          · next hsome =>
            obtain ⟨rfl, hlast'⟩ := Prod.mk.inj (Except.ok.inj h)
            obtain rfl := Option.some.inj hlast'
            obtain ⟨hp, hlong⟩ := directory_of_step_notFound hsome hs
            exact ⟨_, hnames, hf, hp, by simpa using hup, hlong⟩
          · cases h
        · cases h
        · next hs =>
          obtain ⟨rfl, hlast'⟩ := Prod.mk.inj (Except.ok.inj h)
          obtain rfl := Option.some.inj hlast'
          have hup' : (last == Path.up) = false := by simpa using hup
          exact ⟨_, hnames, hf, node?_of_step hs, hup', not_long_of_step hup' hs⟩

/-- Where a file may be written: at the last name of the path, in a directory to which the rest of
the path leads. -/
theorem exists_of_writable (h : t.writable path = .ok place) :
    ∃ r names p name, t.route path = .ok r ∧ r.names = names ++ [name] ∧ r.directoryOnly = false ∧
      t.follow r.start names = .ok p ∧ t.node? p = some .directory ∧ (name == Path.up) = false ∧
      ¬ name.utf8Length > nameLimit ∧ place = p ++ [name] ∧ t.node? place ≠ some .directory := by
  unfold writable at h
  match hroute : t.route path with
  | .error e => simp [hroute, bind, Except.bind] at h
  | .ok r =>
    rw [hroute] at h
    match hlast : t.lastName r with
    | .error e => simp [hlast, bind, Except.bind] at h
    | .ok (p, none) => simp [hlast, bind, Except.bind] at h
    | .ok (p, some name) =>
      obtain ⟨honly, hnode, rfl⟩ : r.directoryOnly = false ∧
          t.node? (p ++ [name]) ≠ some .directory ∧ p ++ [name] = place := by
        simp only [hlast, bind, Except.bind] at h
        split at h
        · cases h
        · next honly =>
          split at h
          · cases h
          · next hnode => exact ⟨by simpa using honly, hnode, Except.ok.inj h⟩
      obtain ⟨names, hnames, hfollow, hp, hup, hlong⟩ := exists_of_lastName hlast
      exact ⟨r, names, p, name, rfl, hnames, honly, hfollow, hp, hup, hlong, rfl, hnode⟩

theorem resolve_of_write (h : t.write path content = (.ok (), t')) :
    ∃ place, t.writable path = .ok place ∧ t' = t.put place (.file content) ∧
      t'.resolve path = .ok (place, .file content) := by
  unfold write at h
  split at h
  · cases h
  · next place hplace =>
    obtain ⟨-, rfl⟩ := Prod.mk.inj h
    refine ⟨place, hplace, rfl, ?_⟩
    obtain ⟨r, names, p, name, hroute, hnames, honly, hfollow, hp, hup, hlong, rfl, hnode⟩ :=
      exists_of_writable hplace
    have hne : p ≠ p ++ [name] := by simp
    have hself : (t.put (p ++ [name]) (.file content)).node? (p ++ [name]) =
        some (.file content) := node?_put_self t (.file content) (by simp)
    have hstep : (t.put (p ++ [name]) (.file content)).step p name = .ok (p ++ [name]) := by
      rw [step, node?_put_of_ne t _ hne, hp]
      simp [hup, hlong, hself]
    rw [resolve, route_put, hroute]
    simp only [bind, Except.bind]
    rw [hnames, follow_append, follow_put hnode hfollow]
    simp [bind, Except.bind, hstep, hself, honly]

theorem read_of_write (h : t.write path content = (.ok (), t')) : t'.read path = .ok content := by
  obtain ⟨place, -, -, hresolve⟩ := resolve_of_write h
  rw [read, hresolve]

end PageCache.FileTree
