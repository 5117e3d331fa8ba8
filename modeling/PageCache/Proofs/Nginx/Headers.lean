import PageCache.Proofs.Headers.Declared
import PageCache.Proofs.Nginx.Words
import PageCache.Proofs.Words.Pieces

/-! The header rules of Nginx as locations, and what is read from their text. -/
namespace PageCache.Nginx

def dialect : Dialect :=
  [("etag", fun args => if args = [("on" : Text)] then some .entityTags else none),
    ("charset", fun args => some (.charset args)),
    ("expires", fun args => if args.head? = some ("modified" : Text) then
      args.getLast?.bind (Declaration.ofPeriod? [] "s") else none),
    ("add_header", fun args => match args with
      | name :: values => if name = ("Content-Encoding" : Text) ∧ values = [("gzip" : Text)] then
          some .gzip else some (.header name values)
      | [] => none)]

/-- A block with the directives in it. Of the blocks among them, only the headings are kept. -/
structure Scope where
  heading : List Text
  body : List Statement
  deriving DecidableEq, Repr

namespace Scope

def add (x : Scope) (depth : ℕ) (s : Statement) : Scope :=
  if depth = 0 then { x with body := x.body ++ [s] } else x

theorem add_zero (x : Scope) (s : Statement) : x.add 0 s = { x with body := x.body ++ [s] } := rfl

theorem heading_add (x : Scope) (depth : ℕ) (s : Statement) :
    (x.add depth s).heading = x.heading := by
  rw [add]
  split_ifs <;> rfl

theorem prefix_body_add (x : Scope) (depth : ℕ) (s : Statement) :
    x.body <+: (x.add depth s).body := by
  rw [add]
  split_ifs
  · exact List.prefix_append _ _
  · exact List.prefix_rfl

end Scope

/-- The blocks of directives, of which one may be open at some depth, if nothing stands outside of
them and each of them is closed. -/
def scopes? : Option (Scope × ℕ) → List Statement → Option (List Scope)
  | none, [] => some []
  | some _, [] => none
  | none, s :: ss => if s.ending = '\x7b' then scopes? (some (⟨s.words, []⟩, 0)) ss else none
  | some (x, depth), s :: ss =>
    if s.ending = '\x7b' then scopes? (some (x.add depth s, depth + 1)) ss
    else if s.ending = ';' then scopes? (some (x.add depth s, depth)) ss
    else if s.words ≠ [] then none
    else if depth = 0 then (scopes? none ss).map (x :: ·) else scopes? (some (x, depth - 1)) ss

def scopesOf? (rules : Text) : Option (List Scope) := scopes? none (lexicon.directives rules)

def locationWords (pattern : Text) : List Text := ["location", "~", pattern]

/-- The rules have a location for the pages of a directory, which declares this, and if pages are
compressed one for compressed pages, which repeats the directives of the first one. -/
def Declares (directory rules : Text) (ds : List Declaration) (compressed : Bool) : Prop :=
  ∃ html gzip, scopesOf? rules = some (html :: gzip) ∧
    html.heading = locationWords (directory ++ ".*html$") ∧ dialect.declared html.body = ds ∧
    (∀ x ∈ gzip, x.heading = locationWords (directory ++ ".*gzip$") ∧ html.body <:+: x.body) ∧
    ((∃ x ∈ gzip, .gzip ∈ dialect.declared x.body) ↔ compressed = true)

theorem Declares.unique {directory rules : Text} {ds ds' : List Declaration}
    {compressed compressed' : Bool} (h : Declares directory rules ds compressed)
    (h' : Declares directory rules ds' compressed') : ds = ds' ∧ compressed = compressed' := by
  obtain ⟨html, gzip, hscopes, -, rfl, -, hgzip⟩ := h
  obtain ⟨html', gzip', hscopes', -, rfl, -, hgzip'⟩ := h'
  obtain ⟨rfl, rfl⟩ := List.cons.inj (Option.some.inj (hscopes.symm.trans hscopes'))
  exact ⟨rfl, Bool.eq_iff_iff.2 (hgzip.symm.trans hgzip')⟩

namespace Scope

variable {x : Scope} {s : Statement} {ss body : List Statement} {depth : ℕ} {xs : List Scope}

theorem exists_of_scopes? (h : scopes? (some (x, depth)) ss = some xs) :
    ∃ y ys, xs = y :: ys ∧ y.heading = x.heading ∧ x.body <+: y.body := by
  induction ss generalizing x depth with
  | nil => cases h
  | cons s ss ih =>
    rw [scopes?] at h
    split_ifs at h
    · obtain ⟨y, ys, hxs, hy, hbody⟩ := ih h
      exact ⟨y, ys, hxs, hy.trans (x.heading_add _ _), (x.prefix_body_add _ _).trans hbody⟩
    · obtain ⟨y, ys, hxs, hy, hbody⟩ := ih h
      exact ⟨y, ys, hxs, hy.trans (x.heading_add _ _), (x.prefix_body_add _ _).trans hbody⟩
    · obtain ⟨ys, -, rfl⟩ := Option.map_eq_some_iff.1 h
      exact ⟨x, ys, rfl, rfl, List.prefix_rfl⟩
    · exact ih h

/-- A directive in a block, or the heading of another block in it, is kept. -/
theorem exists_of_scopes?_cons (h : scopes? (some (x, 0)) (s :: ss) = some xs) (hs : s.words ≠ []) :
    ∃ y ys, xs = y :: ys ∧ y.heading = x.heading ∧ x.body ++ [s] <+: y.body := by
  rw [scopes?] at h
  split_ifs at h
  · exact exists_of_scopes? (x := x.add 0 s) h
  · exact exists_of_scopes? (x := x.add 0 s) h

theorem scopes?_append (x : Scope) (ss : List Statement) (hbody : ∀ s ∈ body, s.ending = ';') :
    scopes? (some (x, 0)) (body ++ ss) = scopes? (some (⟨x.heading, x.body ++ body⟩, 0)) ss := by
  induction body generalizing x with
  | nil => simp
  | cons s body ih =>
    obtain ⟨hs, hbody⟩ := List.forall_mem_cons.1 hbody
    rw [List.cons_append, scopes?, if_neg (by simp [hs]), if_pos hs, ih _ hbody, add_zero,
      List.append_assoc]
    rfl

theorem scopes?_block (heading : List Text) (hbody : ∀ s ∈ body, s.ending = ';') :
    scopes? none (⟨heading, '\x7b'⟩ :: (body ++ [⟨[], '\x7d'⟩]) ++ ss) =
      (scopes? none ss).map (⟨heading, body⟩ :: ·) := by
  have h := scopes?_append ⟨heading, []⟩ (⟨[], '\x7d'⟩ :: ss) hbody
  rw [List.cons_append, List.append_assoc]
  exact h

end Scope

def addHeader (name value : Text) : Statement := ⟨["add_header", name, value], ';'⟩

variable (plan : HeaderPlan)

def entityStatements : List Statement := if plan.etag then [⟨["etag", "on"], ';'⟩] else []

def leadStatements : List Statement :=
  entityStatements plan ++ [⟨["charset", plan.charset], ';'⟩] ++
    (plan.expires.map fun n => ⟨["expires", "modified", Text.ofNat n.toNat ++ "s"], ';'⟩).toList

def namedStatements : List Statement :=
  (plan.pingbackUrl.map (addHeader "X-Pingback")).toList ++
    (plan.poweredBy.map (addHeader "X-Powered-By")).toList ++ [addHeader "Vary" plan.vary] ++
    ((plan.cacheControl.map (·.pragma)).map (addHeader "Pragma")).toList ++
    ((plan.cacheControl.map (·.value)).map (addHeader "Cache-Control")).toList

def headerStatements : List Statement := leadStatements plan ++ namedStatements plan

def gzipStatements : List Statement :=
  [⟨["gzip", "off"], ';'⟩, ⟨["types"], '\x7b'⟩, ⟨[], '\x7d'⟩, ⟨["default_type", "text/html"], ';'⟩] ++
    (headerStatements plan ++ [addHeader "Content-Encoding" "gzip"])

theorem ending_of_mem_leadStatements : ∀ s ∈ leadStatements plan, s.ending = ';' := by
  cases h : plan.etag <;> simp [leadStatements, entityStatements, h]

theorem ending_of_mem_headerStatements : ∀ s ∈ headerStatements plan, s.ending = ';' := by
  have hlead := ending_of_mem_leadStatements plan
  have hnamed : ∀ s ∈ namedStatements plan, s.ending = ';' := by
    simp [namedStatements, addHeader, or_imp, forall_and]
  simpa [headerStatements, or_imp, forall_and] using ⟨hlead, hnamed⟩

theorem declaration?_header {name : Text} (hname : name ≠ "Content-Encoding") (values : List Text)
    (ending : Char) : dialect.declaration? ⟨"add_header" :: name :: values, ending⟩ =
      some (.header name values) :=
  if_neg fun h => hname h.1

theorem declared_entityStatements : dialect.declared (entityStatements plan) =
    if plan.etag then [.entityTags] else [] := by
  rw [entityStatements]
  cases plan.etag <;> decide

theorem declared_leadStatements : dialect.declared (leadStatements plan) =
    (if plan.etag then [.entityTags] else []) ++ [.charset [plan.charset]] ++
      (plan.expires.map fun n => .lifetime n.toNat).toList := by
  have hexpiry : dialect.declared (plan.expires.map fun n =>
      (⟨["expires", "modified", Text.ofNat n.toNat ++ "s"], ';'⟩ : Statement)).toList =
        (plan.expires.map fun n => Declaration.lifetime n.toNat).toList := by
    cases plan.expires with
    | none => rfl
    | some n => exact congrArg Option.toList (Declaration.ofPeriod?_ofNat [] "s" n.toNat)
  rw [leadStatements, Dialect.declared_append, Dialect.declared_append, declared_entityStatements,
    hexpiry]
  rfl

theorem declared_namedStatements : dialect.declared (namedStatements plan) = plan.headers := by
  have hname {name : Text} (hname : name ≠ "Content-Encoding") (value : Option Text) :
      dialect.declared (value.map (addHeader name)).toList =
        (value.map fun v => .header name [v]).toList := by
    cases value with
    | none => rfl
    | some v => exact congrArg Option.toList (declaration?_header hname [v] ';')
  have hvary : dialect.declared [addHeader "Vary" plan.vary] = [.header "Vary" [plan.vary]] :=
    hname (by decide) (some plan.vary)
  rw [namedStatements, HeaderPlan.headers]
  simp only [Dialect.declared_append]
  rw [hname (by decide), hname (by decide), hname (by decide), hname (by decide), hvary,
    Option.map_map, Option.map_map]
  rfl

theorem declared_headerStatements :
    dialect.declared (headerStatements plan) = plan.declarations := by
  rw [headerStatements, Dialect.declared_append, declared_leadStatements, declared_namedStatements,
    HeaderPlan.declarations]

theorem says_fixed {l : Text} (ws : List Text)
    (h : lexicon.run .gap (indented l) = (ws.map .word ++ [.mark ';'], .gap)) :
    lexicon.Says (indented l) [⟨ws, ';'⟩] :=
  .fixed ws h

theorem says_indented (front : Text) (ws : List Text) {l : Text} {w : Word}
    (hl : l = front ++ (w.render ++ [';']))
    (hfront : lexicon.run .gap (indent ++ front) = (ws.map .word, .gap))
    (hw : w.reads lexicon = true) (hne : w.quoted = true ∨ w.text ≠ []) :
    lexicon.Says (indented l) [⟨ws ++ [w.text], ';'⟩] := by
  have hline := Lexicon.Says.line usual_lexicon hfront hw hne (c := ';') (by decide) (by decide)
  have hnewline : lexicon.Says ['\n'] [] := .of_run [] (by decide) fun _ => rfl
  have h := hline.append hnewline
  have htext : indented l = indent ++ front ++ (w.render ++ [';']) ++ ['\n'] := by
    rw [indented, hl, ← List.append_assoc indent]
    rfl
  rwa [htext]

theorem says_addHeader (before front name : Text) {v : Text} (hbefore : before = front ++ "\"")
    (hfront : lexicon.run .gap (indent ++ front) =
      ([("add_header" : Text), name].map .word, .gap))
    (hv : (Word.inQuotes v).reads lexicon = true) :
    lexicon.Says (indented (before ++ v ++ "\";")) [addHeader name v] := by
  have htext : before ++ v ++ "\";" = front ++ ((Word.inQuotes v).render ++ [';']) := by
    have hlast : ("\";" : Text) = ['"'] ++ [';'] := by decide
    rw [hbefore, hlast, List.append_assoc, List.append_assoc, ← List.append_assoc v]
    rfl
  exact says_indented front _ htext hfront hv (.inl rfl)

theorem says_enclosed? {before after : Text} {value : Option Text} (mk : Text → Statement)
    (h : ∀ v ∈ value, lexicon.Says (indented (before ++ v ++ after)) [mk v]) :
    lexicon.Says ((Text.enclosed? value before after).flatMap indented)
      (value.map mk).toList := by
  cases value with
  | none => exact .nil
  | some v =>
    rw [Text.enclosed?, Option.map_some, Option.toList_some, List.flatMap_singleton]
    exact h v rfl

/-- The line that may come before the charset. -/
def entityText : Text := (Text.keepIf "etag on;" plan.etag).flatMap indented

def leadLines : List Text :=
  Text.keepIf "etag on;" plan.etag ++ ["charset " ++ plan.charset ++ ";"] ++
    Text.enclosed? (plan.expires.map fun n => Text.ofNat n.toNat) "expires modified " "s;"

def namedLines : List Text :=
  Text.enclosed? plan.pingbackUrl "add_header X-Pingback \"" "\";" ++
    Text.enclosed? plan.poweredBy "add_header X-Powered-By \"" "\";" ++
    ["add_header Vary \"" ++ plan.vary ++ "\";"] ++
    Text.enclosed? (plan.cacheControl.map (·.pragma)) "add_header Pragma \"" "\";" ++
    Text.enclosed? (plan.cacheControl.map (·.value)) "add_header Cache-Control \"" "\";"

theorem headerLines_eq : headerLines plan = leadLines plan ++ namedLines plan := by
  simp only [headerLines, leadLines, namedLines, List.append_assoc]

variable {plan}

theorem says_entityText : lexicon.Says (entityText plan) (entityStatements plan) := by
  rw [entityText, entityStatements]
  cases plan.etag with
  | false => exact .nil
  | true =>
    exact says_fixed (l := "etag on;") ["etag", "on"] (by decide)

theorem says_leadLines (hne : plan.charset ≠ [])
    (hcharset : (Word.bare plan.charset).reads lexicon = true) :
    lexicon.Says ((leadLines plan).flatMap indented) (leadStatements plan) := by
  have hline : lexicon.Says (indented ("charset " ++ plan.charset ++ ";"))
      [⟨["charset", plan.charset], ';'⟩] :=
    says_indented "charset " ["charset"] (w := .bare plan.charset)
      (List.append_assoc _ _ _) (by decide) hcharset (.inr hne)
  have hperiod : ∀ t ∈ plan.expires.map fun n => Text.ofNat n.toNat,
      lexicon.Says (indented ("expires modified " ++ t ++ "s;"))
        [⟨["expires", "modified", t ++ "s"], ';'⟩] := fun t ht => by
    obtain ⟨n, -, rfl⟩ := Option.map_eq_some_iff.1 ht
    have hplain : ∀ c ∈ Text.ofNat n.toNat ++ "s", lexicon.isPlain c = true := fun c hc => by
      rcases List.mem_append.1 hc with hc | hc
      · exact spares_lexicon.name c (.inl (Text.isAlphanum_of_mem_ofNat hc))
      · obtain rfl := List.mem_singleton.1 hc
        decide
    have hnonempty : Text.ofNat n.toNat ++ ("s" : Text) ≠ [] := by simp
    have htext : "expires modified " ++ Text.ofNat n.toNat ++ "s;" =
        "expires modified " ++ ((Word.bare (Text.ofNat n.toNat ++ "s")).render ++ [';']) := by
      have hrender : (Word.bare (Text.ofNat n.toNat ++ "s")).render = Text.ofNat n.toNat ++ "s" := rfl
      rw [hrender, List.append_assoc, List.append_assoc]
      rfl
    exact says_indented _ ["expires", "modified"] htext (by decide)
      (Lexicon.fixed_of_forall_isPlain hnonempty hplain).reads (.inr hnonempty)
  have hexpiry := says_enclosed? _ hperiod
  rw [Option.map_map] at hexpiry
  rw [leadLines, List.flatMap_append, List.flatMap_append, List.flatMap_singleton]
  exact (says_entityText.append hline).append hexpiry

theorem says_namedLines (hown : ∀ t ∈ plan.ownTexts, t.all HeaderPlan.isOwn = true)
    (hurl : ∀ url ∈ plan.pingbackUrl, (Word.inQuotes url).reads lexicon = true) :
    lexicon.Says ((namedLines plan).flatMap indented) (namedStatements plan) := by
  have hreads : ∀ t ∈ plan.ownTexts, (Word.inQuotes t).reads lexicon = true := fun t ht =>
    Lexicon.reads_of_isOwn (fun _ _ => rfl) (hown t ht)
  have hpingback := says_enclosed? (addHeader "X-Pingback") fun v hv =>
    says_addHeader "add_header X-Pingback \"" "add_header X-Pingback " "X-Pingback" (by decide)
      (by decide) (hurl v hv)
  have hbrand := says_enclosed? (addHeader "X-Powered-By") fun v (hv : v ∈ plan.poweredBy) =>
    says_addHeader "add_header X-Powered-By \"" "add_header X-Powered-By " "X-Powered-By"
      (by decide) (by decide) (hreads v (HeaderPlan.poweredBy_mem_ownTexts hv))
  have hvary := says_addHeader "add_header Vary \"" "add_header Vary " "Vary"
    (by decide) (by decide) (hreads _ plan.vary_mem_ownTexts)
  have hcontrol : ∀ c ∈ plan.cacheControl, (Word.inQuotes c.pragma).reads lexicon = true ∧
      (Word.inQuotes c.value).reads lexicon = true := fun c hc =>
    (HeaderPlan.cacheControl_mem_ownTexts hc).imp (hreads _) (hreads _)
  have hpragma := says_enclosed? (addHeader "Pragma")
    fun v (hv : v ∈ plan.cacheControl.map (·.pragma)) => by
      obtain ⟨c, hc, rfl⟩ := Option.map_eq_some_iff.1 hv
      exact says_addHeader "add_header Pragma \"" "add_header Pragma " "Pragma" (by decide)
        (by decide) (hcontrol c hc).1
  have hvalue := says_enclosed? (addHeader "Cache-Control")
    fun v (hv : v ∈ plan.cacheControl.map (·.value)) => by
      obtain ⟨c, hc, rfl⟩ := Option.map_eq_some_iff.1 hv
      exact says_addHeader "add_header Cache-Control \"" "add_header Cache-Control " "Cache-Control"
        (by decide) (by decide) (hcontrol c hc).2
  simp only [namedLines, List.flatMap_append, List.flatMap_singleton]
  exact (((hpingback.append hbrand).append hvary).append hpragma).append hvalue

theorem says_headerLines (hown : ∀ t ∈ plan.ownTexts, t.all HeaderPlan.isOwn = true)
    (hne : plan.charset ≠ []) (hcharset : (Word.bare plan.charset).reads lexicon = true)
    (hurl : ∀ url ∈ plan.pingbackUrl, (Word.inQuotes url).reads lexicon = true) :
    lexicon.Says ((headerLines plan).flatMap indented) (headerStatements plan) := by
  rw [headerLines_eq, List.flatMap_append]
  exact (says_leadLines hne hcharset).append (says_namedLines hown hurl)

theorem says_gzipLines
    (h : lexicon.Says ((headerLines plan).flatMap indented) (headerStatements plan)) :
    lexicon.Says ((gzipLines plan).flatMap indented) (gzipStatements plan) := by
  have hoff : lexicon.Says (indented "gzip off;") [⟨["gzip", "off"], ';'⟩] :=
    says_fixed ["gzip", "off"] (by decide)
  have htypes : lexicon.Says (indented "types \x7b\x7d") [⟨["types"], '\x7b'⟩, ⟨[], '\x7d'⟩] :=
    .of_run [.word "types", .mark '\x7b', .mark '\x7d'] (by decide) fun _ => rfl
  have hdefault : lexicon.Says (indented "default_type text/html;")
      [⟨["default_type", "text/html"], ';'⟩] :=
    says_fixed ["default_type", "text/html"] (by decide)
  have hencoding : lexicon.Says (indented "add_header Content-Encoding gzip;")
      [addHeader "Content-Encoding" "gzip"] :=
    says_fixed ["add_header", "Content-Encoding", "gzip"] (by decide)
  rw [gzipLines, List.concat_eq_append, List.flatMap_cons, List.flatMap_cons, List.flatMap_cons,
    List.flatMap_append, List.flatMap_singleton]
  exact hoff.append (htypes.append (hdefault.append (h.append hencoding)))

/-- A location opens a block if its pattern is one word. -/
theorem says_opening {pattern : Text} (hne : pattern ≠ [])
    (hpattern : (Word.bare pattern).reads lexicon = true) :
    lexicon.Says ("location ~ " ++ (pattern ++ " \x7b\n")) [⟨locationWords pattern, '\x7b'⟩] := by
  have hwords : lexicon.Reads (pattern ++ [' ']) [.word pattern] :=
    .word (w := .bare pattern) usual_lexicon hpattern (.inr hne) (by decide)
  have hfront : lexicon.run .gap "location ~ " =
      ([("location" : Text), "~"].map .word, .gap) := by decide
  have hbrace : lexicon.run .gap "\x7b\n" = ([.mark '\x7b'], .gap) := by decide
  intro rest
  have htext : "location ~ " ++ (pattern ++ " \x7b\n") ++ rest =
      "location ~ " ++ (pattern ++ [' '] ++ ("\x7b\n" ++ rest)) := by
    rw [List.append_assoc, List.append_assoc, List.append_assoc]
    rfl
  rw [htext, Lexicon.directives, Lexicon.tokens_append, hfront, hwords, Lexicon.tokens_append, hbrace]
  rfl

theorem says_location {l : Location} {ss : List Statement} (hne : l.pattern ≠ [])
    (hpattern : (Word.bare l.pattern).reads lexicon = true)
    (hlines : lexicon.Says (l.lines.flatMap indented) ss) :
    lexicon.Says l.render (⟨locationWords l.pattern, '\x7b'⟩ :: (ss ++ [⟨[], '\x7d'⟩])) := by
  have hclosing : lexicon.Says "\x7d\n" [⟨[], '\x7d'⟩] :=
    .of_run [.mark '\x7d'] (by decide) fun _ => rfl
  have h := ((says_opening hne hpattern).append hlines).append hclosing
  have htext : l.render = "location ~ " ++ (l.pattern ++ " \x7b\n") ++ l.lines.flatMap indented ++
      "\x7d\n" := by
    rw [Location.render, braced, List.append_assoc _ l.pattern]
  rwa [htext]

/-- The directory of pages in the patterns of locations, with a gap for the tenant. -/
def pagesDirectory (target : CacheTarget) : Text :=
  target.templatedPath ("/" ++ TenantSegment.stem ++ ".*?/")

/-- The endings of the patterns make no difference to how they are read. -/
theorem reads_pattern_iff {dir ending : Text} (hne : ending ≠ [])
    (hall : ending.all lexicon.isPlain = true) :
    (Word.bare (dir ++ ending)).reads lexicon = true ↔
      dir.head?.any lexicon.opens = false ∧ lexicon.uncut false dir = true := by
  have hplain := List.all_eq_true.1 hall
  have hhead : (dir ++ ending).head?.any lexicon.opens = dir.head?.any lexicon.opens := by
    obtain ⟨c, u, rfl⟩ := List.exists_cons_of_ne_nil hne
    cases dir with
    | nil => simpa using Lexicon.not_opens_of_isPlain (hplain c List.mem_cons_self)
    | cons d dir => rfl
  simp only [Word.reads, Word.bare, hhead, Lexicon.uncut_append,
    Lexicon.uncut_of_forall_isPlain hplain, Lexicon.escapedAfter_append,
    Lexicon.not_escapedAfter_of_forall_isPlain hplain hne]
  simp

variable {target : CacheTarget}

theorem directives_cacheRules (hown : ∀ t ∈ plan.ownTexts, t.all HeaderPlan.isOwn = true)
    (hne : plan.charset ≠ [])
    (hdirectory : (Word.bare (pagesDirectory target ++ ".*html$")).reads lexicon = true)
    (hcharset : (Word.bare plan.charset).reads lexicon = true)
    (hurl : ∀ url ∈ plan.pingbackUrl, (Word.inQuotes url).reads lexicon = true) :
    lexicon.directives (cacheRules plan target) =
      ⟨locationWords (pagesDirectory target ++ ".*html$"), '\x7b'⟩ :: (headerStatements plan ++
        [⟨[], '\x7d'⟩]) ++ if plan.compression then
          ⟨locationWords (pagesDirectory target ++ ".*gzip$"), '\x7b'⟩ :: (gzipStatements plan ++
            [⟨[], '\x7d'⟩]) else [] := by
  have hgzip : (Word.bare (pagesDirectory target ++ ".*gzip$")).reads lexicon = true :=
    (reads_pattern_iff (by decide) (by decide)).2
      ((reads_pattern_iff (by decide) (by decide)).1 hdirectory)
  have hlines := says_headerLines hown hne hcharset hurl
  have hhtml := says_location (l := ⟨pagesDirectory target ++ ".*html$", headerLines plan⟩)
    (by simp) hdirectory hlines
  have hcompressed := says_location (l := ⟨pagesDirectory target ++ ".*gzip$", gzipLines plan⟩)
    (by simp) hgzip (says_gzipLines hlines)
  refine Lexicon.Says.directives_eq ?_
  rw [cacheRules, locations, List.flatMap_cons]
  refine hhtml.append ?_
  cases plan.compression with
  | false => exact .nil
  | true =>
    rw [if_pos rfl, if_pos rfl, List.flatMap_singleton]
    exact hcompressed

variable (plan target) in
def htmlScope : Scope := ⟨locationWords (pagesDirectory target ++ ".*html$"), headerStatements plan⟩

/-- The directives of compressed pages before the headers. The block among them leaves its heading. -/
def gzipFront : List Statement :=
  [⟨["gzip", "off"], ';'⟩, ⟨["types"], '\x7b'⟩, ⟨["default_type", "text/html"], ';'⟩]

variable (plan target) in
def gzipScope : Scope :=
  ⟨locationWords (pagesDirectory target ++ ".*gzip$"),
    gzipFront ++ (headerStatements plan ++ [addHeader "Content-Encoding" "gzip"])⟩

theorem scopesOf?_cacheRules (hown : ∀ t ∈ plan.ownTexts, t.all HeaderPlan.isOwn = true)
    (hne : plan.charset ≠ [])
    (hdirectory : (Word.bare (pagesDirectory target ++ ".*html$")).reads lexicon = true)
    (hcharset : (Word.bare plan.charset).reads lexicon = true)
    (hurl : ∀ url ∈ plan.pingbackUrl, (Word.inQuotes url).reads lexicon = true) :
    scopesOf? (cacheRules plan target) =
      some (htmlScope plan target :: if plan.compression then [gzipScope plan target] else []) := by
  have hending := ending_of_mem_headerStatements plan
  rw [scopesOf?, directives_cacheRules hown hne hdirectory hcharset hurl,
    Scope.scopes?_block _ hending]
  cases plan.compression with
  | false => rfl
  | true =>
    have hgzip : ∀ s ∈ headerStatements plan ++ [addHeader "Content-Encoding" "gzip"],
        s.ending = ';' := by
      simpa [or_imp, forall_and, addHeader] using hending
    have hbody := Scope.scopes?_append
      ⟨locationWords (pagesDirectory target ++ ".*gzip$"), gzipFront⟩ [⟨[], '\x7d'⟩] hgzip
    exact congrArg (Option.map (htmlScope plan target :: ·)) hbody

theorem gzip_mem_declared_gzipScope : .gzip ∈ dialect.declared (gzipScope plan target).body := by
  have hlast : .gzip ∈ dialect.declared [addHeader "Content-Encoding" "gzip"] := by decide
  rw [gzipScope, Dialect.declared_append, Dialect.declared_append]
  exact List.mem_append_right _ (List.mem_append_right _ hlast)

theorem declares_of_reads (hown : ∀ t ∈ plan.ownTexts, t.all HeaderPlan.isOwn = true)
    (hne : plan.charset ≠ [])
    (hdirectory : (Word.bare (pagesDirectory target ++ ".*html$")).reads lexicon = true)
    (hcharset : (Word.bare plan.charset).reads lexicon = true)
    (hurl : ∀ url ∈ plan.pingbackUrl, (Word.inQuotes url).reads lexicon = true) :
    Declares (pagesDirectory target) (cacheRules plan target) plan.declarations plan.compression := by
  have hscopes := scopesOf?_cacheRules hown hne hdirectory hcharset hurl
  have hrepeats : (htmlScope plan target).body <:+: (gzipScope plan target).body :=
    ⟨gzipFront, [addHeader "Content-Encoding" "gzip"], by simp [htmlScope, gzipScope]⟩
  refine ⟨_, _, hscopes, rfl, declared_headerStatements plan, ?_, ?_⟩
  · cases plan.compression with
    | false => simp
    | true => simpa using ⟨rfl, hrepeats⟩
  · cases plan.compression with
    | false => simp
    | true => simpa using gzip_mem_declared_gzipScope

theorem scopesOf?_append {x y : Text} {heading : List Text} {body : List Statement}
    (hx : lexicon.Says x (⟨heading, '\x7b'⟩ :: body)) (hbody : ∀ s ∈ body, s.ending = ';') :
    scopesOf? (x ++ y) = scopes? (some (⟨heading, body⟩, 0)) (lexicon.directives y) := by
  rw [scopesOf?, hx]
  exact Scope.scopes?_append ⟨heading, []⟩ _ hbody

/-- The directive behind others in a block has the argument with which it declares what comes next. -/
theorem exists_tokens_of_scopes? {front x y : Text} (ws : List Text) {heading : List Text} {body : List Statement}
    {html : Scope} {gzip : List Scope} {f : List Text → Declaration} {ds : List Declaration}
    (hfront : lexicon.run .gap front = (ws.map .word, .gap)) (hne : ws ≠ [])
    (hf : ∀ args e, dialect.declaration? ⟨ws ++ args, e⟩ = some (f args))
    (hinj : Function.Injective f)
    (hscopes : scopes? (some (⟨heading, body⟩, 0)) (lexicon.directives (front ++ y)) =
      some (html :: gzip))
    (hdeclared : dialect.declared html.body = dialect.declared body ++ f [x] :: ds) :
    ∃ ts, lexicon.tokens .gap y = .word x :: ts := by
  rcases Lexicon.directives_cases hfront y with hnone | ⟨args, e, us, htokens, hdirectives⟩
  · rw [hnone] at hscopes
    cases hscopes
  · rw [hdirectives] at hscopes
    obtain ⟨z, zs, hz, -, more, hbody⟩ := Scope.exists_of_scopes?_cons hscopes (by simp [hne])
    obtain ⟨rfl, -⟩ := List.cons.inj hz
    rw [← hbody, List.append_assoc, Dialect.declared_append, List.append_cancel_left_eq,
      List.singleton_append, Dialect.declared, List.filterMap_cons_some (hf args e),
      List.cons.injEq] at hdeclared
    obtain rfl := hinj hdeclared.1
    exact ⟨_, htokens⟩

/-- A text at the end of a line is read back if it is the first word: in a comment, the first word of
the next line would be read. -/
theorem reads_of_line {x ending y rest : Text} {ts : List Token}
    (hgap : lexicon.run .gap x ≠ ([], .gap))
    (hending : ending ∈ [(" \x7b\n" : Text), ";\n"])
    (hy : y ∈ [("etag" : Text), "charset", "expires", "add_header"])
    (h : lexicon.tokens .gap (x ++ (ending ++ (indent ++ y ++ " " ++ rest))) = .word x :: ts) :
    (Word.bare x).reads lexicon = true := by
  have hline : ∀ ending ∈ [(" \x7b\n" : Text), ";\n"],
      ∀ y ∈ [("etag" : Text), "charset", "expires", "add_header"],
        lexicon.run .comment (ending ++ (indent ++ y ++ " ")) = ([.word y], .gap) := by decide
  have hword : ∀ y ∈ [("etag" : Text), "charset", "expires", "add_header"],
      lexicon.run .gap y ≠ ([], .comment) := by decide
  rw [← List.append_assoc ending] at h
  have hcomment := Lexicon.run_ne_comment_of_word (hline _ hending _ hy) (hword y hy) h
  obtain ⟨c, v, rfl⟩ : ∃ c v, ending = c :: v := by
    rcases List.mem_pair.1 hending with rfl | rfl <;> exact ⟨_, _, rfl⟩
  exact Lexicon.reads_of_word (by decide) (.inr rfl) hgap hcomment h

variable (plan)

/-- The line that may come behind the charset. -/
def expiryText : Text :=
  (Text.enclosed? (plan.expires.map fun n => Text.ofNat n.toNat) "expires modified " "s;").flatMap
    indented

theorem flatMap_leadLines : (leadLines plan).flatMap indented =
    entityText plan ++ (indent ++ "charset " ++ (plan.charset ++ (";\n" ++ expiryText plan))) := by
  have hline : indented ("charset " ++ plan.charset ++ ";") =
      indent ++ "charset " ++ (plan.charset ++ ";\n") := by
    have htext : indented ("charset " ++ plan.charset ++ ";") =
        indent ++ ("charset " ++ plan.charset) ++ ";\n" := by
      rw [indented, ← List.append_assoc indent, List.append_assoc _ (";" : Text)]
      rfl
    rw [htext, ← List.append_assoc, List.append_assoc _ plan.charset]
  rw [leadLines, List.flatMap_append, List.flatMap_append, List.flatMap_singleton, hline, entityText,
    expiryText]
  simp only [List.append_assoc]

theorem exists_cacheRules_eq (target : CacheTarget) : ∃ u, cacheRules plan target =
    "location ~ " ++ (pagesDirectory target ++ ".*html$" ++ (" \x7b\n" ++
      ((leadLines plan).flatMap indented ++ ((namedLines plan).flatMap indented ++ u)))) := by
  have hrender (l : Location) (z : Text) : l.render ++ z =
      "location ~ " ++ (l.pattern ++ (" \x7b\n" ++ (l.lines.flatMap indented ++ ("\x7d\n" ++ z)))) := by
    rw [Location.render, braced]
    simp only [List.append_assoc]
  rw [cacheRules, locations, List.flatMap_cons, hrender, headerLines_eq, List.flatMap_append,
    List.append_assoc (List.flatMap _ _)]
  exact ⟨_, rfl⟩

theorem exists_leadLines_eq : ∃ y ∈ [("etag" : Text), "charset"], ∃ u,
    (leadLines plan).flatMap indented = indent ++ y ++ " " ++ u := by
  rw [flatMap_leadLines, entityText]
  cases plan.etag with
  | false => exact ⟨"charset", .tail _ (.head _), _, rfl⟩
  | true => exact ⟨"etag", .head _, _, rfl⟩

theorem exists_namedLines_eq : ∃ u, (namedLines plan).flatMap indented =
    indent ++ "add_header" ++ " " ++ u := by
  rw [namedLines]
  simp only [List.flatMap_append, List.flatMap_singleton]
  cases plan.pingbackUrl with
  | some url => exact ⟨_, rfl⟩
  | none =>
    cases plan.poweredBy with
    | some brand => exact ⟨_, rfl⟩
    | none => exact ⟨_, rfl⟩

theorem exists_expiryText_eq (rest : Text) : ∃ y ∈ [("expires" : Text), "add_header"], ∃ u,
    expiryText plan ++ ((namedLines plan).flatMap indented ++ rest) = indent ++ y ++ " " ++ u := by
  rw [expiryText]
  cases plan.expires with
  | none =>
    obtain ⟨u, hu⟩ := exists_namedLines_eq plan
    exact ⟨"add_header", .tail _ (.head _), u ++ rest, by rw [hu, List.append_assoc _ u]; rfl⟩
  | some n => exact ⟨"expires", .head _, _, rfl⟩

variable {plan}

theorem reads_directory_of_declares
    (h : Declares (pagesDirectory target) (cacheRules plan target) plan.declarations plan.compression) :
    (Word.bare (pagesDirectory target ++ ".*html$")).reads lexicon = true := by
  obtain ⟨html, gzip, hscopes, hheading, -⟩ := h
  obtain ⟨u, hrules⟩ := exists_cacheRules_eq plan target
  obtain ⟨y, hy, v, hlead⟩ := exists_leadLines_eq plan
  rw [scopesOf?, hrules, hlead] at hscopes
  have hfront : lexicon.run .gap "location ~ " =
      ([("location" : Text), "~"].map .word, .gap) := by decide
  rcases Lexicon.directives_cases hfront _ with hnone | ⟨args, e, us, htokens, hdirectives⟩
  · rw [hnone] at hscopes
    cases hscopes
  · rw [hdirectives, scopes?] at hscopes
    split_ifs at hscopes
    obtain ⟨z, zs, hz, hwords, -⟩ := Scope.exists_of_scopes? hscopes
    obtain ⟨rfl, -⟩ := List.cons.inj hz
    obtain rfl := (List.cons.inj (List.cons.inj (hheading.symm.trans hwords)).2).2
    have hplain : ∀ escaped, lexicon.cuts escaped '$' = false := by decide
    have hgap := Lexicon.run_concat_ne_gap hplain (by decide) (pagesDirectory target ++ ".*html")
    rw [List.append_assoc] at hgap
    have hmem : y ∈ [("etag" : Text), "charset", "expires", "add_header"] :=
      List.mem_append_left [("expires" : Text), "add_header"] hy
    rw [List.append_assoc _ v] at htokens
    exact reads_of_line hgap (.head _) hmem htokens

theorem reads_charset_of_declares
    (h : Declares (pagesDirectory target) (cacheRules plan target) plan.declarations plan.compression) :
    (Word.bare plan.charset).reads lexicon = true := by
  have hopening := says_opening (by simp) (reads_directory_of_declares h)
  obtain ⟨html, gzip, hscopes, -, hdeclared, -⟩ := h
  obtain ⟨u, hrules⟩ := exists_cacheRules_eq plan target
  obtain ⟨y, hy, v, hlast⟩ := exists_expiryText_eq plan u
  have htext : cacheRules plan target = "location ~ " ++ (pagesDirectory target ++ ".*html$" ++
      " \x7b\n") ++ entityText plan ++ (indent ++ "charset " ++ (plan.charset ++
        (";\n" ++ (indent ++ y ++ " " ++ v)))) := by
    rw [hrules, flatMap_leadLines, ← hlast]
    simp only [List.append_assoc]
  have hending : ∀ s ∈ entityStatements plan, s.ending = ';' := by
    cases h : plan.etag <;> simp [entityStatements, h]
  rw [htext, scopesOf?_append (hopening.append says_entityText) hending] at hscopes
  rw [HeaderPlan.declarations, ← declared_entityStatements, List.append_assoc, List.append_assoc] at hdeclared
  obtain ⟨ts, htokens⟩ := exists_tokens_of_scopes? ["charset"] (f := .charset) (by decide)
    (by simp) (fun _ _ => rfl) (fun _ _ heq => Declaration.charset.inj heq) hscopes hdeclared
  have hgap : lexicon.run .gap plan.charset ≠ ([], .gap) :=
    Lexicon.run_ne_of_word (c := ';') (by decide) (by decide) htokens
  exact reads_of_line hgap (.tail _ (.head _)) (.tail _ (.tail _ hy)) htokens

theorem exists_pingback {url : Text} (hurl : plan.pingbackUrl = some url) :
    ∃ u, (namedLines plan).flatMap indented =
      "    add_header X-Pingback " ++ ('"' :: (url ++ '"' :: u)) := by
  have hline : indented ("add_header X-Pingback \"" ++ url ++ "\";") =
      "    add_header X-Pingback " ++ ('"' :: (url ++ ['"', ';', '\n'])) := by
    simp [indented, indent]
  rw [namedLines, hurl, Text.enclosed?, Option.map_some, Option.toList_some, List.append_assoc,
    List.append_assoc, List.append_assoc, List.singleton_append, List.flatMap_cons, hline,
    List.append_assoc, List.cons_append, List.append_assoc]
  exact ⟨_, rfl⟩

theorem reads_url_of_declares
    (h : Declares (pagesDirectory target) (cacheRules plan target) plan.declarations plan.compression)
    (hne : plan.charset ≠ []) {url : Text} (hurl : plan.pingbackUrl = some url) :
    (Word.inQuotes url).reads lexicon = true := by
  have hopening := says_opening (by simp) (reads_directory_of_declares h)
  have hlead := says_leadLines hne (reads_charset_of_declares h)
  obtain ⟨html, gzip, hscopes, -, hdeclared, -⟩ := h
  obtain ⟨u, hrules⟩ := exists_cacheRules_eq plan target
  obtain ⟨v, hnamed⟩ := exists_pingback hurl
  have htext : cacheRules plan target = "location ~ " ++ (pagesDirectory target ++ ".*html$" ++
      " \x7b\n") ++ (leadLines plan).flatMap indented ++ ("    add_header X-Pingback " ++
        ('"' :: (url ++ '"' :: (v ++ u)))) := by
    rw [hrules, hnamed]
    simp only [List.append_assoc, List.cons_append]
  rw [htext, scopesOf?_append (hopening.append hlead) (ending_of_mem_leadStatements plan)] at hscopes
  rw [HeaderPlan.declarations, ← declared_leadStatements, HeaderPlan.headers, hurl] at hdeclared
  obtain ⟨ts, htokens⟩ := exists_tokens_of_scopes? ["add_header", "X-Pingback"]
    (f := .header "X-Pingback") (by decide) (by simp)
    (fun args e => declaration?_header (by decide) args e)
    (fun _ _ heq => (Declaration.header.inj heq).2) hscopes hdeclared
  have hcut : lexicon.cuts false '"' = false := by decide
  rw [Lexicon.tokens, if_neg (by simp [hcut]), if_pos (by decide)] at htokens
  exact Lexicon.reads_of_quoted_word rfl htokens

variable (plan target) in
/-- The texts of the configuration are read back: the pattern of the directory and the charset as one
word each, and the address of the pingback between its quotes. -/
def ReadsBack : Prop :=
  (Word.bare (pagesDirectory target ++ ".*html$")).reads lexicon = true ∧
    (Word.bare plan.charset).reads lexicon = true ∧
    ∀ url ∈ plan.pingbackUrl, (Word.inQuotes url).reads lexicon = true

instance : Decidable (ReadsBack plan target) := by
  unfold ReadsBack
  infer_instance

theorem declares_cacheRules_iff (hown : ∀ t ∈ plan.ownTexts, t.all HeaderPlan.isOwn = true)
    (hne : plan.charset ≠ []) :
    Declares (pagesDirectory target) (cacheRules plan target) plan.declarations plan.compression ↔
      ReadsBack plan target := by
  constructor
  · intro h
    exact ⟨reads_directory_of_declares h, reads_charset_of_declares h,
      fun _ hurl => reads_url_of_declares h hne hurl⟩
  · rintro ⟨hdirectory, hcharset, hurl⟩
    exact declares_of_reads hown hne hdirectory hcharset hurl

end PageCache.Nginx
