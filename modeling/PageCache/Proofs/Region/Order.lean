import PageCache.Proofs.Region.Neighbours

/-! The order in which the two blocks are put into a text. Where their places are apart, neither
block moves the place of the other; where they are the same, each block is found by an anchor of the
other. So both orders give one text, if the regions of neighbours at which a block may go have both
or none of their markers. -/
namespace PageCache

open Text Region

namespace Region

section
variable {r r' : Region} {h m t body body' head tail text : Text} {anchors anchors' : List Anchor}

theorem upsert_of_surroundings (hs : r.surroundings text anchors = (head, tail)) (body : Text) :
    r.upsert text body anchors = headPart head ++ (r.wrap body ++ tailPart tail) := by
  rw [upsert_eq, hs]

/-- Places with a visible character between them do not touch each other's seams. -/
theorem upsert_comm_of_visible (hm : visible m ≠ [])
    (hleft : r.surroundings (h ++ (m ++ t)) anchors = (h, m ++ t))
    (hright : r'.surroundings (h ++ (m ++ t)) anchors' = (h ++ m, t))
    (hnext : r'.surroundings (headPart h ++ (r.wrap body ++ (tailPart m ++ t))) anchors' =
      (headPart h ++ (r.wrap body ++ tailPart m), t))
    (hnext' : r.surroundings (h ++ (headPart m ++ (r'.wrap body' ++ tailPart t))) anchors =
      (h, headPart m ++ (r'.wrap body' ++ tailPart t))) :
    r'.upsert (r.upsert (h ++ (m ++ t)) body anchors) body' anchors' =
      r.upsert (r'.upsert (h ++ (m ++ t)) body' anchors') body anchors := by
  have hhead : visible (headPart m) ≠ [] := by rwa [visible_headPart]
  have htail : visible (tailPart m) ≠ [] := by rwa [visible_tailPart]
  rw [upsert_of_surroundings hleft, upsert_of_surroundings hright, tailPart_append hm,
    headPart_append hm, List.append_assoc h, upsert_of_surroundings hnext,
    upsert_of_surroundings hnext', tailPart_append hhead, ← headPart_tailPart hm,
    ← List.append_assoc (headPart h), headPart_append htail]
  simp only [List.append_assoc]

/-- At one place, the block that the anchors of the other one put last stands first. -/
theorem upsert_comm_of_same_place (hr : r.Proper) (hr' : r'.Proper)
    (hplace : r.surroundings text anchors = (h, t))
    (hplace' : r'.surroundings text anchors' = (h, t))
    (hnext : r'.surroundings (headPart h ++ (r.wrap body ++ tailPart t)) anchors' =
      (headPart h, r.wrap body ++ tailPart t))
    (hnext' : r.surroundings (headPart h ++ (r'.wrap body' ++ tailPart t)) anchors =
      (headPart h ++ r'.wrap body', tailPart t)) :
    r'.upsert (r.upsert text body anchors) body' anchors' =
      r.upsert (r'.upsert text body' anchors') body anchors := by
  rw [upsert_of_surroundings hplace, upsert_of_surroundings hplace',
    upsert_of_surroundings hnext, upsert_of_surroundings hnext', headPart_headPart,
    tailPart_wrap_append hr, headPart_append_wrap hr', tailPart_tailPart, List.append_assoc]

end

end Region

namespace Block

variable {b b' : Block} {i j : Anchor} {rules rules' a u h z : Text}

/-- The right block goes to its anchor after the place of the left one, with a visible character
between the two places. -/
theorem upsert_comm_of_split? {p : Text} (hb : b ≠ b') (hrules : Avoids known rules)
    (hrules' : Avoids known rules') (hi : b.Leads i (h ++ (p ++ (j.marker ++ u))))
    (hj : b'.Leads j (h ++ (p ++ (j.marker ++ u)))) (hmem : j ∈ b'.neighbours)
    (hfirst : FirstAfter j.marker (h ++ p))
    (hm : visible (j.cut p u).1 ≠ [])
    (hsplit : i.split? (h ++ (p ++ (j.marker ++ u))) = some (h, p ++ (j.marker ++ u)))
    (hsplit' : ∀ w, i.split? (h ++ (headPart (j.cut p u).1 ++ w)) =
      some (h, headPart (j.cut p u).1 ++ w)) :
    b'.region.upsert (b.region.upsert (h ++ (p ++ (j.marker ++ u))) rules b.anchors) rules'
        b'.anchors =
      b.region.upsert (b'.region.upsert (h ++ (p ++ (j.marker ++ u))) rules' b'.anchors) rules
        b.anchors := by
  obtain ⟨m, htail, hnext⟩ := hj.surroundings_right hmem hb.symm hfirst hrules
  have hright : b'.region.surroundings (h ++ (p ++ (j.marker ++ u))) b'.anchors =
      (h ++ (j.cut p u).1, (j.cut p u).2) := by
    refine hj.surroundings ?_
    rw [← Anchor.cut_append_left, ← List.append_assoc]
    exact Anchor.split?_of_firstAfter (mark_ne_nil (marker_mem_marks hj.mem)) hfirst u
  have hleft := hi.surroundings hsplit
  rw [← Anchor.cut_append j p u] at hi hleft hright htail ⊢
  obtain rfl : m = tailPart (j.cut p u).1 := by
    rw [tailPart_append hm] at htail
    exact (List.append_cancel_right htail).symm
  have hput := hi
  rw [← List.append_assoc] at hput
  have hnext' := hput.put hb hrules'
  rw [headPart_append hm, List.append_assoc] at hnext'
  exact upsert_comm_of_visible hm hleft hright hnext (hnext'.surroundings (hsplit' _))

theorem upsert_comm_of_before (hb : b ≠ b') (hrules : Avoids known rules)
    (hrules' : Avoids known rules')
    (hi : b.Leads i (a ++ (i.marker ++ (z ++ (j.marker ++ u)))))
    (hj : b'.Leads j (a ++ (i.marker ++ (z ++ (j.marker ++ u))))) (hmem : j ∈ b'.neighbours)
    (hfirst : FirstAfter i.marker a) (hfirst' : FirstAfter j.marker (a ++ (i.marker ++ z)))
    (hplace : i.place = .before) :
    b'.region.upsert (b.region.upsert (a ++ (i.marker ++ (z ++ (j.marker ++ u)))) rules b.anchors)
        rules' b'.anchors =
      b.region.upsert (b'.region.upsert (a ++ (i.marker ++ (z ++ (j.marker ++ u)))) rules'
        b'.anchors) rules b.anchors := by
  have hmark := marker_mem_marks hi.mem
  have hcut : ∀ w, i.cut a w = (a, i.marker ++ w) := fun w => by rw [Anchor.cut, hplace]
  have hm : (j.cut (i.marker ++ z) u).1 = i.marker ++ (j.cut z u).1 := by
    rw [Anchor.cut_append_left]
  have hsplit : ∀ w, i.split? (a ++ (i.marker ++ w)) = some (a, i.marker ++ w) := fun w => by
    rw [Anchor.split?_of_firstAfter (mark_ne_nil hmark) hfirst, hcut]
  have hvisible : visible (j.cut (i.marker ++ z) u).1 ≠ [] := by
    rw [hm]
    exact visible_mark_append hmark _
  have hcomm := upsert_comm_of_split? (p := i.marker ++ z) hb hrules hrules'
    (by simpa using hi) (by simpa using hj) hmem hfirst' hvisible
    (by simpa using hsplit (z ++ (j.marker ++ u))) fun w => by
      obtain ⟨z', hz'⟩ := exists_headPart_mark hmark (j.cut z u).1
      rw [hm, hz', List.append_assoc]
      exact hsplit _
  simpa using hcomm

theorem split?_newlines {m : Text} (hmark : i.marker ∈ marks) (hfirst : FirstAfter i.marker a)
    (hplace : i.place = .after) (n : ℕ) (hm : m ∈ marks) (w : Text) :
    i.split? (a ++ (i.marker ++ (List.replicate n '\n' ++ (m ++ w)))) =
      some (a ++ (i.marker ++ List.replicate (min n 1) '\n'),
        List.replicate (n - 1) '\n' ++ (m ++ w)) := by
  rw [Anchor.split?_of_firstAfter (mark_ne_nil hmark) hfirst, Anchor.cut, hplace]
  simp only [takeNewline_newlines_mark hm]

theorem headPart_mark_line {m : Text} (hm : m ∈ marks) (a : Text) (n : ℕ) :
    headPart (a ++ (m ++ List.replicate (min n 1) '\n')) = a ++ (m ++ ['\n']) := by
  have hcount : max 1 (min (min n 1) 2) = 1 := by omega
  rw [headPart_mark_newlines hm, hcount]
  rfl

/-- The left block leaves at most one newline before the right one, which keeps it. -/
theorem upsert_upsert_right (hb : b ≠ b') (hrules : Avoids known rules) (n : ℕ)
    (hi : b.Leads i (a ++ (i.marker ++ (List.replicate n '\n' ++ (j.marker ++ u)))))
    (hj : b'.Leads j (a ++ (i.marker ++ (List.replicate n '\n' ++ (j.marker ++ u)))))
    (hmem : j ∈ b'.neighbours)
    (hfirst : FirstAfter i.marker a)
    (hfirst' : FirstAfter j.marker (a ++ (i.marker ++ List.replicate n '\n')))
    (hplace : i.place = .after) (hplace' : j.place = .before) :
    b'.region.upsert
        (b.region.upsert (a ++ (i.marker ++ (List.replicate n '\n' ++ (j.marker ++ u)))) rules
          b.anchors) rules' b'.anchors =
      a ++ (i.marker ++ '\n' :: (b.region.wrap rules ++ (List.replicate (min (n - 1) 1) '\n' ++
        (b'.region.wrap rules' ++ (j.marker ++ u))))) := by
  have hmark := marker_mem_marks hi.mem
  have hmark' := marker_mem_marks hj.mem
  have hcut : ∀ p, j.cut p u = (p, j.marker ++ u) := fun p => by rw [Anchor.cut, hplace']
  have hnewlines : List.replicate n '\n' =
      List.replicate (min n 1) '\n' ++ List.replicate (n - 1) '\n' := by
    rw [← List.replicate_add]
    congr 1
    omega
  have hleft := hi.surroundings (split?_newlines hmark hfirst hplace n hmark' u)
  rw [upsert_of_surroundings hleft, tailPart_newlines_mark hmark']
  rw [hnewlines] at hfirst' hj
  obtain ⟨m, htail, hnext⟩ := Leads.surroundings_right
    (h := a ++ (i.marker ++ List.replicate (min n 1) '\n'))
    (by simpa only [List.append_assoc] using hj) hmem hb.symm
    (by simpa only [List.append_assoc] using hfirst') hrules
  simp only [hcut, tailPart_newlines_mark hmark'] at htail hnext
  obtain rfl := List.append_cancel_right htail
  have hcount : min (min (n - 1) 1) 1 = min (n - 1) 1 := by omega
  rw [upsert_of_surroundings hnext, headPart_append_wrap_newlines (proper_region b), hcount,
    headPart_mark_line hmark, tailPart_mark_append hmark']
  simp

/-- The right block leaves at most two newlines after the marker, and the left one goes between
them. -/
theorem upsert_upsert_left (hb : b ≠ b') (hrules' : Avoids known rules') (n : ℕ)
    (hi : b.Leads i (a ++ (i.marker ++ (List.replicate n '\n' ++ (j.marker ++ u)))))
    (hj : b'.Leads j (a ++ (i.marker ++ (List.replicate n '\n' ++ (j.marker ++ u)))))
    (hfirst : FirstAfter i.marker a)
    (hfirst' : FirstAfter j.marker (a ++ (i.marker ++ List.replicate n '\n')))
    (hplace : i.place = .after) (hplace' : j.place = .before) :
    b.region.upsert
        (b'.region.upsert (a ++ (i.marker ++ (List.replicate n '\n' ++ (j.marker ++ u)))) rules'
          b'.anchors) rules b.anchors =
      a ++ (i.marker ++ '\n' :: (b.region.wrap rules ++ (List.replicate (min (n - 1) 1) '\n' ++
        (b'.region.wrap rules' ++ (j.marker ++ u))))) := by
  have hmark := marker_mem_marks hi.mem
  have hmark' := marker_mem_marks hj.mem
  have hopening : b'.region.opening ∈ marks :=
    List.mem_flatMap.2 ⟨_, region_mem_known b', opening_mem _⟩
  have hright : b'.region.surroundings
      (a ++ (i.marker ++ (List.replicate n '\n' ++ (j.marker ++ u)))) b'.anchors =
      (a ++ (i.marker ++ List.replicate n '\n'), j.marker ++ u) := by
    have h := hj.surroundings
      (by simpa using Anchor.split?_of_firstAfter (mark_ne_nil hmark') hfirst' u)
    rwa [Anchor.cut, hplace'] at h
  have hnext := (show b.Leads i
    (a ++ (i.marker ++ List.replicate n '\n') ++ (j.marker ++ u)) by simpa using hi).put hb hrules'
  obtain ⟨w, hw⟩ : ∃ w, b'.region.wrap rules' ++ (j.marker ++ u) = b'.region.opening ++ w :=
    ⟨_, by rw [wrap_eq, List.append_assoc]⟩
  rw [tailPart_mark_append hmark', headPart_mark_newlines hmark, hw, List.append_assoc,
    List.append_assoc] at hnext
  have hleft := hnext.surroundings (split?_newlines hmark hfirst hplace _ hopening w)
  have hcount : min (max 1 (min n 2) - 1) 1 = min (n - 1) 1 := by omega
  rw [upsert_of_surroundings hright, tailPart_mark_append hmark', headPart_mark_newlines hmark, hw,
    List.append_assoc, List.append_assoc, upsert_of_surroundings hleft, headPart_mark_line hmark,
    tailPart_newlines_mark hopening, hcount]
  simp

theorem upsert_comm_of_after (hb : b ≠ b') (hrules : Avoids known rules)
    (hrules' : Avoids known rules')
    (hi : b.Leads i (a ++ (i.marker ++ (z ++ (j.marker ++ u)))))
    (hj : b'.Leads j (a ++ (i.marker ++ (z ++ (j.marker ++ u))))) (hmem : j ∈ b'.neighbours)
    (hfirst : FirstAfter i.marker a) (hfirst' : FirstAfter j.marker (a ++ (i.marker ++ z)))
    (hplace : i.place = .after) (hplace' : j.place = .before) :
    b'.region.upsert (b.region.upsert (a ++ (i.marker ++ (z ++ (j.marker ++ u)))) rules b.anchors)
        rules' b'.anchors =
      b.region.upsert (b'.region.upsert (a ++ (i.marker ++ (z ++ (j.marker ++ u)))) rules'
        b'.anchors) rules b.anchors := by
  -- Newlines alone between the markers are one seam of both blocks, so both texts are computed;
  -- a visible character keeps the two seams apart.
  by_cases hv : visible z = []
  · rcases newlines_or_first_visible z with ⟨n, rfl⟩ | ⟨n, c, q, hc, rfl⟩
    · rw [upsert_upsert_right hb hrules n hi hj hmem hfirst hfirst' hplace hplace',
        upsert_upsert_left hb hrules' n hi hj hfirst hfirst' hplace hplace']
    · exact absurd hv (visible_append_cons_ne_nil hc _ q)
  rw [← visible_takeNewline] at hv
  have hmark := marker_mem_marks hi.mem
  obtain ⟨x, hx, -⟩ := exists_hash (marker_mem_marks hj.mem)
  have hcut : ∀ w, i.cut a w = (a ++ (i.marker ++ w.takeNewline.1), w.takeNewline.2) :=
    fun w => by rw [Anchor.cut, hplace]
  have hcut' : ∀ p, j.cut p u = (p, j.marker ++ u) := fun p => by rw [Anchor.cut, hplace']
  have htext : ∀ w, a ++ (i.marker ++ z.takeNewline.1) ++ (z.takeNewline.2 ++ w) =
      a ++ (i.marker ++ (z ++ w)) := fun w => by
    conv_rhs => rw [← takeNewline_append z]
    simp only [List.append_assoc]
  have hcomm := upsert_comm_of_split? (h := a ++ (i.marker ++ z.takeNewline.1))
    (p := z.takeNewline.2) hb hrules hrules' (by rwa [htext]) (by rwa [htext]) hmem
    (by rwa [List.append_assoc, List.append_assoc, takeNewline_append]) (by rwa [hcut'])
    (by
      rw [htext, Anchor.split?_of_firstAfter (mark_ne_nil hmark) hfirst, hcut, hx,
        List.cons_append, takeNewline_append_cons (by decide)])
    fun w => by
      rw [hcut', List.append_assoc, List.append_assoc,
        Anchor.split?_of_firstAfter (mark_ne_nil hmark) hfirst, hcut, takeNewline_headPart hv]
  rwa [htext] at hcomm

/-- Two blocks with their anchors at different markers, in the order of the markers. -/
theorem upsert_comm_of_between (hb : b ≠ b') (hrules : Avoids known rules)
    (hrules' : Avoids known rules')
    (hi : b.Leads i (a ++ (i.marker ++ (z ++ (j.marker ++ u)))))
    (hj : b'.Leads j (a ++ (i.marker ++ (z ++ (j.marker ++ u))))) (hmem : j ∈ b'.neighbours)
    (hfirst : FirstAfter i.marker a) (hfirst' : FirstAfter j.marker (a ++ (i.marker ++ z)))
    (hplace : i.place = .after → j.place = .before) :
    b'.region.upsert (b.region.upsert (a ++ (i.marker ++ (z ++ (j.marker ++ u)))) rules b.anchors)
        rules' b'.anchors =
      b.region.upsert (b'.region.upsert (a ++ (i.marker ++ (z ++ (j.marker ++ u)))) rules'
        b'.anchors) rules b.anchors := by
  cases hi' : i.place with
  | before => exact upsert_comm_of_before hb hrules hrules' hi hj hmem hfirst hfirst' hi'
  | after =>
    exact upsert_comm_of_after hb hrules hrules' hi hj hmem hfirst hfirst' hi' (hplace hi')

end Block

namespace Region

open Block

variable {core cache h t text : Text}

/-- Both blocks go to anchors at neighbours, which are at different markers. -/
theorem upsert_comm_of_neighbours (htext : Avoids [pageCacheCore, pageCacheCache] text)
    (hcore : Avoids known core) (hcache : Avoids known cache)
    (h : ∃ i ∈ Block.core.neighbours, i.marker <:+: text)
    (h' : ∃ j ∈ Block.cache.neighbours, j.marker <:+: text) :
    pageCacheCache.upsert (pageCacheCore.upsert text core coreAnchors) cache cacheAnchors =
      pageCacheCore.upsert (pageCacheCache.upsert text cache cacheAnchors) core coreAnchors := by
  obtain ⟨i, hmem, hi, hin⟩ := exists_leads (b := .core) (htext.of_mem (by simp [Block.region])) h
  obtain ⟨j, hmem', hj, hin'⟩ :=
    exists_leads (b := .cache) (htext.of_mem (by simp [Block.region])) h'
  have hne : i.marker ≠ j.marker := by
    have hall : ∀ i ∈ Block.core.neighbours, ∀ j ∈ Block.cache.neighbours, i.marker ≠ j.marker := by
      decide
    exact hall i hmem j hmem'
  have hbefore : j.place = .before := by
    have hall : ∀ j ∈ Block.cache.neighbours, j.place = .before := by decide
    exact hall j hmem'
  have hmark := marker_mem_marks hi.mem
  have hmark' := marker_mem_marks hj.mem
  obtain ⟨a, u, rfl, hfirst⟩ := exists_firstAfter (mark_ne_nil hmark) hin
  obtain ⟨a', u', hsame, hfirst'⟩ := exists_firstAfter (mark_ne_nil hmark') hin'
  -- The markers do not overlap, so one of the blocks goes to the left of the other one.
  rcases mark_occurrence_cases hmark hmark' hne hsame with ⟨z, rfl, rfl⟩ | ⟨z, rfl, rfl⟩
  · have hb : Block.core ≠ .cache := by decide
    have hcomm := upsert_comm_of_between hb hcore hcache hi hj hmem' hfirst hfirst' fun _ => hbefore
    exact hcomm
  · rw [hsame] at hi hj ⊢
    have hb : Block.cache ≠ .core := by decide
    have hplace : j.place = .after → i.place = .before := by simp [hbefore]
    have hcomm := upsert_comm_of_between hb hcache hcore hj hi hmem hfirst' hfirst hplace
    exact hcomm.symm

/-- Where the cache block has no anchor at a neighbour, it goes before the core block. -/
theorem surroundings_cache_of_core (htext : Avoids [pageCacheCore, pageCacheCache] (h ++ t))
    (hcore : Avoids known core) (hno : ∀ j ∈ Block.cache.neighbours, ¬ j.marker <:+: h ++ t) :
    pageCacheCache.surroundings (headPart h ++ (pageCacheCore.wrap core ++ tailPart t))
      cacheAnchors = (headPart h, pageCacheCore.wrap core ++ tailPart t) := by
  have hlead : Block.cache.Leads (beforeRegion pageCacheCore) (h ++ t) :=
    ⟨htext.of_mem (by simp [Block.region]), Block.cache.neighbours, _, rfl,
      fun j hj => ⟨hj, hno j hj⟩⟩
  have hmark : pageCacheCore.opening ∈ marks := marker_mem_marks hlead.mem
  have hhead : ¬ pageCacheCore.opening <:+: headPart h := fun hin =>
    htext pageCacheCore List.mem_cons_self _ (opening_mem _)
      ((infix_of_infix_headPart (newline_not_mem_mark hmark) (mark_ne_nil hmark) hin).trans
        (List.prefix_append h t).isInfix)
  have hfirst : FirstAfter pageCacheCore.opening (headPart h) :=
    (atLineStart_headPart h).firstAfter (newline_not_mem_mark hmark) (mark_ne_nil hmark) hhead
  have hb : Block.cache ≠ .core := by decide
  have hnext := hlead.put hb hcore
  have hwrap : pageCacheCore.wrap core ++ tailPart t = pageCacheCore.opening ++
      '\n' :: (inner core ++ (pageCacheCore.closing ++ '\n' :: tailPart t)) := by simp [wrap_eq]
  refine hnext.surroundings ?_
  change (beforeRegion pageCacheCore).split?
    (headPart h ++ (pageCacheCore.wrap core ++ tailPart t)) = _
  rw [hwrap]
  exact Anchor.split?_of_firstAfter (i := beforeRegion pageCacheCore) (mark_ne_nil hmark) hfirst _

/-- Where the core block has no anchor at a neighbour, it goes after the cache block. -/
theorem surroundings_core_of_cache (htext : Avoids [pageCacheCore, pageCacheCache] (h ++ t))
    (hcache : Avoids known cache) (hno : ∀ i ∈ Block.core.neighbours, ¬ i.marker <:+: h ++ t) :
    pageCacheCore.surroundings (headPart h ++ (pageCacheCache.wrap cache ++ tailPart t))
      coreAnchors = (headPart h ++ pageCacheCache.wrap cache, tailPart t) := by
  have hlead : Block.core.Leads (afterRegion pageCacheCache) (h ++ t) :=
    ⟨htext.of_mem (by simp [Block.region]), Block.core.neighbours, _, rfl,
      fun i hi => ⟨hi, hno i hi⟩⟩
  have hr : pageCacheCache.Proper := proper_region .cache
  have hhead : ¬ pageCacheCache.closing <:+: headPart h := fun hin =>
    htext pageCacheCache (by simp) _ (closing_mem _)
      ((infix_of_infix_headPart hr.newline_not_mem_closing hr.closing_ne_nil hin).trans
        (List.prefix_append h t).isInfix)
  have hb : Block.core ≠ .cache := by decide
  have hnext := hlead.put hb hcache
  have hfirst := splitFirst?_closing hr (hcache.of_mem (region_mem_known .cache))
    (atLineStart_headPart h) hhead (tailPart t)
  refine hnext.surroundings ?_
  refine (Anchor.split?_eq_cut (i := afterRegion pageCacheCache) hr.closing_ne_nil hfirst).trans ?_
  simp [Anchor.cut, afterRegion, wrap_eq, takeNewline]

/-- A neighbour before which both blocks go keeps them in the order of the blocks. -/
theorem surroundings_core_of_neighbour {i : Anchor} {a u : Text}
    (hi : Block.core.Leads i (a ++ (i.marker ++ u))) (hmem : i ∈ Block.core.neighbours)
    (hfirst : FirstAfter i.marker a) (hbefore : i.place = .before) (hcache : Avoids known cache) :
    pageCacheCore.surroundings
        (headPart a ++ (pageCacheCache.wrap cache ++ tailPart (i.marker ++ u))) coreAnchors =
      (headPart a ++ pageCacheCache.wrap cache, tailPart (i.marker ++ u)) := by
  obtain ⟨m, htail, hnext⟩ := Leads.surroundings_right (b := .cache) (h := a) (a := []) hi hmem
    (by decide) (by simpa using hfirst) hcache
  have hcut : i.cut [] u = ([], i.marker ++ u) := by rw [Anchor.cut, hbefore]
  rw [hcut] at htail hnext
  rw [List.nil_append, tailPart_mark_append (marker_mem_marks hi.mem)] at htail
  obtain rfl : m = [] := by simpa using htail
  rw [tailPart_mark_append (marker_mem_marks hi.mem)]
  rwa [List.nil_append, List.append_nil] at hnext

/-- Without anchors of the cache block at neighbours, both blocks have one place. -/
theorem placeOf_coreAnchors (htext : Avoids [pageCacheCore, pageCacheCache] text)
    (hminify : ¬ minifyCore.closing <:+: text) (hbrowser : ¬ browserCacheCache.closing <:+: text)
    (hno : ∀ j ∈ Block.cache.neighbours, ¬ j.marker <:+: text) :
    placeOf coreAnchors text = placeOf cacheAnchors text := by
  have hminify' : (afterRegion minifyCore).split? text = none := Anchor.split?_eq_none hminify
  have hbrowser' : (afterRegion browserCacheCache).split? text = none :=
    Anchor.split?_eq_none hbrowser
  have hcache : (afterRegion pageCacheCache).split? text = none :=
    Anchor.split?_eq_none (htext pageCacheCache (by simp) _ (closing_mem _))
  have hcore : (beforeRegion pageCacheCore).split? text = none :=
    Anchor.split?_eq_none (htext pageCacheCore (by simp) _ (opening_mem _))
  have hbefore : ∀ j ∈ Block.cache.neighbours, j.split? text = none := fun j hj =>
    Anchor.split?_eq_none (hno j hj)
  have hbrowser'' := hbefore (beforeRegion browserCacheCache) (by simp [Block.neighbours])
  have hminify'' := hbefore (beforeRegion minifyCore) (by simp [Block.neighbours])
  simp only [placeOf, coreAnchors, cacheAnchors, List.findSome?_cons, hminify', hbrowser', hcache,
    hcore, hbrowser'', hminify'']

/-- Both blocks go to one place, which is not at a neighbour of the cache block. -/
theorem upsert_comm_of_no_neighbours (htext : Avoids [pageCacheCore, pageCacheCache] text)
    (hminify : ¬ minifyCore.closing <:+: text) (hbrowser : ¬ browserCacheCache.closing <:+: text)
    (hno : ∀ j ∈ Block.cache.neighbours, ¬ j.marker <:+: text)
    (hcore : Avoids known core) (hcache : Avoids known cache) :
    pageCacheCache.upsert (pageCacheCore.upsert text core coreAnchors) cache cacheAnchors =
      pageCacheCore.upsert (pageCacheCache.upsert text cache cacheAnchors) core coreAnchors := by
  have hsame := placeOf_coreAnchors htext hminify hbrowser hno
  have hplace := surroundings_of_absent
    (locate?_eq_none_of_avoids (htext.of_mem (r := pageCacheCore) (by simp))) coreAnchors
  have hplace' := surroundings_of_absent
    (locate?_eq_none_of_avoids (htext.of_mem (r := pageCacheCache) (by simp))) cacheAnchors
  have hparts := placeOf_append coreAnchors text
  rw [← hsame] at hplace'
  obtain ⟨h, t, hcut⟩ : ∃ h t, placeOf coreAnchors text = (h, t) := ⟨_, _, rfl⟩
  rw [hcut] at hplace hplace' hparts
  obtain rfl : h ++ t = text := hparts
  refine upsert_comm_of_same_place (proper_region .core) (proper_region .cache) hplace hplace'
    (surroundings_cache_of_core htext hcore hno) ?_
  -- The core block may go to a neighbour that is not among the anchors of the cache block; it then
  -- goes before the marker there, since those after whose line it goes are not in the text.
  by_cases hcoreNo : ∀ i ∈ Block.core.neighbours, ¬ i.marker <:+: h ++ t
  · exact surroundings_core_of_cache htext hcache hcoreNo
  push Not at hcoreNo
  obtain ⟨i, hmem, hi, hin⟩ :=
    exists_leads (b := .core) (htext.of_mem (by simp [Block.region])) hcoreNo
  have hbefore : i.place = .before := by
    simp only [Block.neighbours, List.mem_cons, List.not_mem_nil, or_false] at hmem
    rcases hmem with rfl | rfl | rfl | rfl
    · rfl
    · rfl
    · exact absurd hin hminify
    · exact absurd hin hbrowser
  have hmark := marker_mem_marks hi.mem
  obtain ⟨a, u, hau, hfirst⟩ := exists_firstAfter (mark_ne_nil hmark) hin
  rw [hau] at hi hplace
  have hfound := hi.surroundings (Anchor.split?_of_firstAfter (mark_ne_nil hmark) hfirst u)
  rw [Anchor.cut, hbefore] at hfound
  obtain ⟨rfl, rfl⟩ : h = a ∧ t = i.marker ++ u := Prod.mk.inj (hplace.symm.trans hfound)
  exact surroundings_core_of_neighbour hi hmem hfirst hbefore hcache

/-- The order in which the blocks are put into a text does not matter, if each region of a neighbour
at which both may go has both of its markers or none. -/
theorem upsert_core_cache_comm (htext : Avoids [pageCacheCore, pageCacheCache] text)
    (hminify : minifyCore.opening <:+: text ↔ minifyCore.closing <:+: text)
    (hbrowser : browserCacheCache.opening <:+: text ↔ browserCacheCache.closing <:+: text)
    (hcore : Avoids known core) (hcache : Avoids known cache) :
    pageCacheCache.upsert (pageCacheCore.upsert text core coreAnchors) cache cacheAnchors =
      pageCacheCore.upsert (pageCacheCache.upsert text cache cacheAnchors) core coreAnchors := by
  by_cases hno : ∀ j ∈ Block.cache.neighbours, ¬ j.marker <:+: text
  · have hbrowser' : ¬ browserCacheCache.closing <:+: text :=
      mt hbrowser.2 (hno (beforeRegion browserCacheCache) (by simp [Block.neighbours]))
    have hminify' : ¬ minifyCore.closing <:+: text :=
      mt hminify.2 (hno (beforeRegion minifyCore) (by simp [Block.neighbours]))
    exact upsert_comm_of_no_neighbours htext hminify' hbrowser' hno hcore hcache
  · push Not at hno
    refine upsert_comm_of_neighbours htext hcore hcache ?_ hno
    obtain ⟨j, hmem, hin⟩ := hno
    simp only [Block.neighbours, List.mem_cons, List.not_mem_nil, or_false] at hmem
    rcases hmem with rfl | rfl
    · exact ⟨afterRegion browserCacheCache, by simp [Block.neighbours], hbrowser.1 hin⟩
    · exact ⟨afterRegion minifyCore, by simp [Block.neighbours], hminify.1 hin⟩

/-- Here the places touch: the core block goes after the line of the one marker, the cache block
before the other one, and an empty line stands between the markers. -/
theorem upsert_core_cache_comm_touching :
    let text : Text := "# BEGIN Minify core\n# END Minify core\n\n" ++
      "# BEGIN Browser Cache cache\n# END Browser Cache cache"
    pageCacheCache.upsert (pageCacheCore.upsert text "a\n" coreAnchors) "b" cacheAnchors =
      pageCacheCore.upsert (pageCacheCache.upsert text "b" cacheAnchors) "a\n" coreAnchors :=
  upsert_core_cache_comm (by decide +kernel) (by decide +kernel) (by decide +kernel)
    (by decide +kernel) (by decide +kernel)

end Region

end PageCache
