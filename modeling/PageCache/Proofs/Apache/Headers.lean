import PageCache.Proofs.Apache.Words
import PageCache.Proofs.Headers.Declared

/-! The header rules of Apache as sections of lines, and what is read from their text. -/
namespace PageCache.Apache

/-- Lines that hold if a module is loaded, or in any case. -/
structure Section where
  module? : Option Text
  lines : List Text

def Section.render (s : Section) : Text :=
  match s.module? with
  | some name => ifModule name s.lines
  | none => s.lines.flatMap (· ++ ['\n'])

/-- The lines that stand in any case. -/
def frontLines (plan : HeaderPlan) : List Text :=
  Text.keepIf "FileETag MTime Size" plan.etag ++
    Text.enclosed? (some plan.charset) "AddDefaultCharset " []

def compressionSections : List Section :=
  [⟨some "mod_mime.c",
      ["AddType text/html " ++ VariantTags.gzipSuffix,
        "AddEncoding gzip " ++ VariantTags.gzipSuffix]⟩,
    ⟨some "mod_deflate.c", ["SetEnvIfNoCase Request_URI \\.gzip$ no-gzip"]⟩]

def expiryLines (lifetime : UInt64) : List Text :=
  [("ExpiresActive On" : Text)] ++
    Text.enclosed? (some (Text.ofNat lifetime.toNat)) "ExpiresByType text/html M" []

def cacheSections (plan : HeaderPlan) : List Section :=
  [⟨none, frontLines plan⟩] ++ (if plan.compression then compressionSections else []) ++
    (plan.expires.map fun n => ⟨some "mod_expires.c", expiryLines n⟩).toList ++
    [⟨some "mod_headers.c", headerLines plan⟩]

variable (plan : HeaderPlan)

def leadSections : List Section :=
  (if plan.compression then compressionSections else []) ++
    (plan.expires.map fun n => ⟨some "mod_expires.c", expiryLines n⟩).toList

theorem cacheSections_eq : cacheSections plan =
    ⟨none, frontLines plan⟩ :: (leadSections plan ++ [⟨some "mod_headers.c", headerLines plan⟩]) := by
  rw [cacheSections, leadSections, List.append_assoc, List.append_assoc, List.append_assoc]
  rfl

theorem render_frontLines : Section.render ⟨none, frontLines plan⟩ =
    (if plan.etag then "FileETag MTime Size\n" else "") ++
      "AddDefaultCharset " ++ plan.charset ++ "\n" := by
  cases h : plan.etag <;> simp [Section.render, frontLines, Text.keepIf, Text.enclosed?, h]

theorem flatMap_render_compressionSections :
    compressionSections.flatMap Section.render = compressionRules := by
  simp only [compressionSections, List.flatMap_cons, List.flatMap_nil, List.append_nil]
  rfl

theorem render_expiryLines (n : UInt64) : Section.render ⟨some "mod_expires.c", expiryLines n⟩ =
    ifModule "mod_expires.c"
      ["ExpiresActive On", "ExpiresByType text/html M" ++ Text.ofNat n.toNat] := by
  simp [Section.render, expiryLines, Text.enclosed?]

theorem cacheRules_eq : cacheRules plan = (cacheSections plan).flatMap Section.render := by
  have hheaders : Section.render ⟨some "mod_headers.c", headerLines plan⟩ =
      ifModule "mod_headers.c" (headerLines plan) := rfl
  rw [cacheRules, cacheSections_eq, List.flatMap_cons, List.flatMap_append, leadSections,
    List.flatMap_append, List.flatMap_singleton, render_frontLines, hheaders]
  cases plan.compression <;> cases plan.expires <;>
    simp only [if_true, if_false, flatMap_render_compressionSections, Option.map_some,
      Option.map_none, Option.toList_some, Option.toList_none, List.flatMap_singleton,
      List.flatMap_nil, render_expiryLines, Bool.false_eq_true, List.append_assoc]

theorem ifModule_eq (name : Text) (lines : List Text) : ifModule name lines =
    "<IfModule " ++ (name ++ (">" ++ ['\n'])) ++ lines.flatMap indented ++
      ("</IfModule>" ++ ['\n']) := by
  rw [← List.append_assoc _ name]
  rfl

/-- Arguments of directives that are not those of the rewrite module: nothing protects a blank, and
a backslash protects a quote. -/
def headerLexicon : Lexicon :=
  { lexicon with escapesBackslash := true, escapesQuote := true, escapesCut := false }

theorem usual_headerLexicon : headerLexicon.Usual := by constructor <;> decide

theorem spares_headerLexicon : headerLexicon.Spares := .of_special (by decide) fun c hc => by
  simp only [Lexicon.isPlain, Lexicon.cuts, headerLexicon, lexicon, Lexicon.isQuote,
    Text.isNewline] at hc
  simp [Lexicon.special] at hc ⊢
  tauto

/-- A line that ends with a backslash goes on in the next one. -/
def joinLines : Text → Text
  | [] => []
  | '\\' :: '\n' :: t => joinLines t
  | c :: t => c :: joinLines t

def dialect : Dialect :=
  [("FileETag", fun args => if args = [("None" : Text)] then none else some .entityTags),
    ("AddDefaultCharset", fun args => some (.charset args)),
    ("AddEncoding", fun args => if args.head? = some ("gzip" : Text) then some .gzip else none),
    ("ExpiresByType", fun args => args.getLast?.bind (Declaration.ofPeriod? "M" [])),
    ("Header", fun args => match args with
      | mode :: name :: values =>
        if mode = ("set" : Text) ∨ mode = ("append" : Text) then some (.header name values) else none
      | _ => none)]

/-- What rules declare if every module is loaded. -/
def declared (rules : Text) : List Declaration :=
  dialect.declared (headerLexicon.directives (joinLines rules))

/-- The rules declare this about pages, and whether they are compressed. -/
def Declares (rules : Text) (ds : List Declaration) (compressed : Bool) : Prop :=
  (declared rules).filter (· ≠ .gzip) = ds ∧ (.gzip ∈ declared rules ↔ compressed = true)

theorem Declares.unique {rules : Text} {ds ds' : List Declaration} {compressed compressed' : Bool}
    (h : Declares rules ds compressed) (h' : Declares rules ds' compressed') :
    ds = ds' ∧ compressed = compressed' :=
  ⟨h.1.symm.trans h'.1, Bool.eq_iff_iff.2 (h.2.symm.trans h'.2)⟩

/-- Nothing in the text makes a line go on in the next one. -/
def Whole (x : Text) : Prop := ∀ t, joinLines (x ++ t) = x ++ joinLines t

theorem joinLines_cons {c : Char} {t : Text} (h : c ≠ '\\' ∨ t.head? ≠ some '\n') :
    joinLines (c :: t) = c :: joinLines t := by
  rw [joinLines]
  rintro u rfl rfl
  simp at h

theorem joinLines_append_cons {x : Text} (hx : '\n' ∉ x) {d : Char} (hd : d ≠ '\n') (t : Text) :
    joinLines (x ++ d :: t) = x ++ joinLines (d :: t) := by
  induction x with
  | nil => rfl
  | cons c x ih =>
    rw [List.mem_cons, not_or] at hx
    have hhead : (x ++ d :: t).head? ≠ some '\n' := by
      cases x with
      | nil => simpa using hd
      | cons e x =>
        have he : e ≠ '\n' := fun h => hx.2 (h ▸ List.mem_cons_self)
        simpa using he
    rw [List.cons_append, joinLines_cons (.inr hhead), ih hx.2, List.cons_append]

namespace Whole

variable {x y : Text}

theorem append (hx : Whole x) (hy : Whole y) : Whole (x ++ y) := fun t => by
  rw [List.append_assoc, hx, hy, List.append_assoc]

theorem of_not_mem (h : '\\' ∉ x) : Whole x := by
  intro t
  induction x with
  | nil => rfl
  | cons c x ih =>
    rw [List.mem_cons, not_or] at h
    rw [List.cons_append, joinLines_cons (.inl fun hc => h.1 hc.symm), ih h.2, List.cons_append]

/-- A part of a line that does not end with a backslash. -/
theorem of_line (hx : '\n' ∉ x) (hlast : x.getLast? ≠ some '\\') : Whole x := by
  intro t
  rcases List.eq_nil_or_concat' x with rfl | ⟨x, c, rfl⟩
  · rfl
  have hc : c ≠ '\\' := by simpa using hlast
  rw [List.mem_append, not_or, List.mem_singleton] at hx
  rw [List.append_assoc, List.singleton_append, joinLines_append_cons hx.1 fun h => hx.2 h.symm,
    joinLines_cons (.inl hc), List.append_assoc, List.singleton_append]

end Whole

/-- Whatever follows it, the text adds these declarations. -/
def Adds (x : Text) (ds : List Declaration) : Prop :=
  ∀ rest, declared (x ++ rest) = ds ++ declared rest

namespace Adds

variable {x y : Text} {ds ds' : List Declaration} {ss : List Statement}

theorem nil : Adds [] [] := fun _ => rfl

theorem append (hx : Adds x ds) (hy : Adds y ds') : Adds (x ++ y) (ds ++ ds') := fun rest => by
  rw [List.append_assoc, hx, hy, List.append_assoc]

theorem of_says (hx : Whole x) (h : headerLexicon.Says x ss) : Adds x (dialect.declared ss) :=
  fun rest => by rw [declared, hx, h, Dialect.declared_append]; rfl

/-- A line that has nothing of the configuration in it. -/
theorem fixed (ws : List Text) (hx : Whole x)
    (h : headerLexicon.run .gap x = (ws.map .word ++ [.mark '\n'], .gap)) :
    Adds x (dialect.declared [⟨ws, '\n'⟩]) :=
  of_says hx (.fixed ws h)

end Adds

theorem isOwn_headerLexicon (c : Char) (h : HeaderPlan.isOwn c = true) :
    headerLexicon.hard c = false := by
  have hnewline : HeaderPlan.isOwn '\n' = false := by decide
  refine Bool.eq_false_iff.2 fun hc => ?_
  obtain rfl : c = '\n' := by simpa [headerLexicon, lexicon, Text.isNewline] using hc
  exact absurd h (by simp [hnewline])

theorem whole_render {w : Word} (hw : w.reads headerLexicon = true) (hends : w.Ends) :
    Whole w.render := by
  obtain ⟨t, isQuoted, isVerbatim⟩ := w
  have hnewline (h : ∀ c ∈ t, headerLexicon.hard c = false) : '\n' ∉ t := fun hmem =>
    Bool.false_ne_true ((h _ hmem).symm.trans (by decide))
  cases isQuoted with
  | true =>
    simp only [Word.reads, if_true, Bool.and_eq_true] at hw
    have ht := hnewline (Lexicon.not_hard_of_unclosed hw.1)
    have hrender : (⟨t, true, isVerbatim⟩ : Word).render = '"' :: t ++ ['"'] := by
      simp [Word.render]
    rw [hrender]
    exact .of_line (by simp [ht]) (by rw [List.getLast?_concat]; decide)
  | false =>
    simp only [Word.reads, Bool.false_eq_true, if_false, Bool.and_eq_true] at hw
    exact .of_line (hnewline (Lexicon.not_hard_of_uncut hw.1.2)) (hends.resolve_left (by simp))

theorem Adds.line (front : Text) (ws : List Text) {w : Word}
    (hfront : headerLexicon.run .gap front = (ws.map .word, .gap)) (hwhole : Whole front)
    (hw : w.reads headerLexicon = true) (hne : w.quoted = true ∨ w.text ≠ []) (hends : w.Ends) :
    Adds (front ++ (w.render ++ ['\n'])) (dialect.declaration? ⟨ws ++ [w.text], '\n'⟩).toList := by
  have hnewline : Whole ['\n'] := .of_not_mem (by decide)
  have hsays := Lexicon.Says.line usual_headerLexicon hfront hw hne (c := '\n') (by decide) (by decide)
  have hadds := Adds.of_says (hwhole.append ((whole_render hw hends).append hnewline)) hsays
  rwa [Dialect.declared, List.filterMap_cons, List.filterMap_nil] at hadds

namespace Adds

theorem indented (front : Text) (ws : List Text) {l : Text} {w : Word} (hl : l = front ++ w.render)
    (hfront : headerLexicon.run .gap ("    " ++ front) = (ws.map .word, .gap))
    (hwhole : Whole ("    " ++ front)) (hw : w.reads headerLexicon = true)
    (hne : w.quoted = true ∨ w.text ≠ []) (hends : w.Ends) :
    Adds (Apache.indented l) (dialect.declaration? ⟨ws ++ [w.text], '\n'⟩).toList := by
  have h := line _ ws hfront hwhole hw hne hends
  have hassoc : ("    " ++ (front ++ w.render) : Text) ++ ['\n'] =
      "    " ++ front ++ (w.render ++ ['\n']) := by
    rw [← List.append_assoc, List.append_assoc]
  have htext : Apache.indented l = "    " ++ (front ++ w.render) ++ ['\n'] := by
    rw [← hl]
    rfl
  rwa [htext, hassoc]

theorem cons {l : Text} {ls : List Text} (hl : Adds (Apache.indented l) ds)
    (hls : Adds (ls.flatMap Apache.indented) ds') :
    Adds ((l :: ls).flatMap Apache.indented) (ds ++ ds') := by
  rw [List.flatMap_cons]
  exact hl.append hls

theorem single {l : Text} (hl : Adds (Apache.indented l) ds) :
    Adds ([l].flatMap Apache.indented) ds := by
  rwa [List.flatMap_singleton]

theorem opening {name : Text} (hname : (Word.bare (name ++ ">")).reads headerLexicon = true) :
    Adds ("<IfModule " ++ (name ++ (">" ++ ['\n']))) [] := by
  have hne : (Word.bare (name ++ ">")).text ≠ [] := by simp [Word.bare]
  have hends : (Word.bare (name ++ ">")).Ends := .inr (by
    have hlast : (name ++ ">").getLast? = some '>' := List.getLast?_concat
    rw [Word.bare, hlast]
    decide)
  rw [← List.append_assoc name]
  exact line _ ["<IfModule"] (by decide) (.of_not_mem (by decide)) hname (.inr hne) hends

theorem ifModule (name : Text) {lines : List Text} {ds : List Declaration}
    (hname : (Word.bare (name ++ ">")).reads headerLexicon = true)
    (hlines : Adds (lines.flatMap Apache.indented) ds) : Adds (Apache.ifModule name lines) ds := by
  have hclosing : Adds ("</IfModule>" ++ ['\n']) [] :=
    fixed ["</IfModule>"] (.of_not_mem (by decide)) (by decide)
  have h := ((opening hname).append hlines).append hclosing
  rw [List.nil_append, List.append_nil] at h
  rwa [ifModule_eq]

theorem entityTags : Adds "FileETag MTime Size\n" [.entityTags] :=
  fixed ["FileETag", "MTime", "Size"] (.of_not_mem (by decide)) (by decide)

theorem charset {c : Text} (hc : (Word.bare c).reads headerLexicon = true) (hne : c ≠ [])
    (hends : (Word.bare c).Ends) : Adds ("AddDefaultCharset " ++ (c ++ ['\n'])) [.charset [c]] :=
  line _ ["AddDefaultCharset"] (by decide) (.of_not_mem (by decide)) hc (.inr hne) hends

theorem compressionRules : Adds Apache.compressionRules [.gzip] := by
  have htype : Adds (Apache.indented ("AddType text/html " ++ VariantTags.gzipSuffix)) [] :=
    fixed ["AddType", "text/html", VariantTags.gzipSuffix] (.of_not_mem (by decide)) (by decide)
  have hencoding : Adds (Apache.indented ("AddEncoding gzip " ++ VariantTags.gzipSuffix)) [.gzip] :=
    fixed ["AddEncoding", "gzip", VariantTags.gzipSuffix] (.of_not_mem (by decide)) (by decide)
  -- The pattern in the last line has a backslash in it.
  have hdeflate : Adds (Apache.indented "SetEnvIfNoCase Request_URI \\.gzip$ no-gzip") [] :=
    fixed ["SetEnvIfNoCase", "Request_URI", "\\.gzip$", "no-gzip"]
      ((Whole.of_line (by decide) (by decide)).append (.of_not_mem (x := ['\n']) (by decide)))
      (by decide)
  have hmime := ifModule "mod_mime.c" (by decide) (htype.cons hencoding.single)
  exact hmime.append (ifModule "mod_deflate.c" (by decide) hdeflate.single)

theorem expiry (n : ℕ) : Adds (Apache.ifModule "mod_expires.c"
    ["ExpiresActive On", "ExpiresByType text/html M" ++ Text.ofNat n]) [.lifetime n] := by
  have hactive : Adds (Apache.indented "ExpiresActive On") [] :=
    fixed ["ExpiresActive", "On"] (.of_not_mem (by decide)) (by decide)
  have hplain : ∀ c ∈ 'M' :: Text.ofNat n, headerLexicon.isPlain c = true :=
    List.forall_mem_cons.2 ⟨by decide, fun c hc =>
      spares_headerLexicon.name c (.inl (Text.isAlphanum_of_mem_ofNat hc))⟩
  have hlast : ('M' :: Text.ofNat n).getLast? ≠ some '\\' := fun h =>
    absurd (hplain _ (List.mem_of_getLast? h)) (by decide)
  have hperiod : Adds (Apache.indented ("ExpiresByType text/html M" ++ Text.ofNat n))
      [.lifetime n] := by
    have hfront : ("ExpiresByType text/html M" : Text) = "ExpiresByType text/html " ++ ['M'] := by
      decide
    have htext : "ExpiresByType text/html M" ++ Text.ofNat n =
        "ExpiresByType text/html " ++ (Word.bare ('M' :: Text.ofNat n)).render := by
      rw [hfront, List.append_assoc]
      rfl
    have hline := indented _ ["ExpiresByType", "text/html"] htext (by decide) (.of_not_mem (by decide))
      (Lexicon.fixed_of_forall_isPlain (by simp) hplain).reads (.inr (by simp [Word.bare]))
      (.inr hlast)
    have hdeclaration : dialect.declaration?
        ⟨["ExpiresByType", "text/html", (Word.bare ('M' :: Text.ofNat n)).text], '\n'⟩ =
          some (.lifetime n) := by
      have h := Declaration.ofPeriod?_ofNat "M" [] n
      rwa [List.append_nil] at h
    rwa [List.cons_append, List.cons_append, List.nil_append, hdeclaration] at hline
  exact ifModule "mod_expires.c" (by decide) (hactive.cons hperiod.single)

theorem header (before front mode name : Text) {v : Text} (hbefore : before = front ++ "\"")
    (hfront : headerLexicon.run .gap ("    " ++ front) =
      ([("Header" : Text), mode, name].map .word, .gap))
    (hwhole : '\\' ∉ "    " ++ front) (hmode : mode = "set" ∨ mode = "append")
    (hv : (Word.inQuotes v).reads headerLexicon = true) :
    Adds (Apache.indented (before ++ v ++ "\"")) [.header name [v]] := by
  have htext : before ++ v ++ "\"" = front ++ (Word.inQuotes v).render := by
    rw [hbefore, List.append_assoc, List.append_assoc]
    rfl
  have hline := indented front _ htext hfront (.of_not_mem hwhole) hv (.inl rfl) (.inl rfl)
  have hdeclaration : dialect.declaration? ⟨[("Header" : Text), mode, name, v], '\n'⟩ =
      some (.header name [v]) := by
    rcases hmode with rfl | rfl <;> rfl
  have hwords : [("Header" : Text), mode, name] ++ [(Word.inQuotes v).text] =
      [("Header" : Text), mode, name, v] := rfl
  rwa [hwords, hdeclaration] at hline

theorem enclosed? (before name : Text) {value : Option Text}
    (h : ∀ v ∈ value, Adds (Apache.indented (before ++ v ++ "\"")) [.header name [v]]) :
    Adds ((Text.enclosed? value before "\"").flatMap Apache.indented)
      (value.map fun v => .header name [v]).toList := by
  cases value with
  | none => exact nil
  | some v => exact (h v rfl).single

theorem cacheControl (mode : HeaderMode) {v : Text}
    (hv : (Word.inQuotes v).reads headerLexicon = true) :
    Adds (Apache.indented ("Header " ++ modeWord mode ++ " Cache-Control \"" ++ v ++ "\""))
      [.header "Cache-Control" [v]] := by
  cases mode with
  | set =>
    exact header _ "Header set Cache-Control " "set" "Cache-Control" (by decide) (by decide)
      (by decide) (.inl rfl) hv
  | append =>
    exact header _ "Header append Cache-Control " "append" "Cache-Control" (by decide)
      (by decide) (by decide) (.inr rfl) hv

theorem headerLines {plan : HeaderPlan}
    (hown : ∀ t ∈ plan.ownTexts, t.all HeaderPlan.isOwn = true)
    (hurl : ∀ url ∈ plan.pingbackUrl, (Word.inQuotes url).reads headerLexicon = true) :
    Adds ((Apache.headerLines plan).flatMap Apache.indented) plan.headers := by
  have hreads : ∀ t ∈ plan.ownTexts, (Word.inQuotes t).reads headerLexicon = true := fun t ht =>
    Lexicon.reads_of_isOwn isOwn_headerLexicon (hown t ht)
  have hset : ("set" : Text) = "set" ∨ ("set" : Text) = "append" := .inl rfl
  have hpingback := enclosed? "Header set X-Pingback \"" "X-Pingback" fun v hv =>
    header _ "Header set X-Pingback " "set" "X-Pingback" (by decide) (by decide) (by decide) hset
      (hurl v hv)
  have hbrand := enclosed? "Header set X-Powered-By \"" "X-Powered-By"
    fun v (hv : v ∈ plan.poweredBy) =>
      header _ "Header set X-Powered-By " "set" "X-Powered-By" (by decide) (by decide) (by decide)
        hset (hreads v (HeaderPlan.poweredBy_mem_ownTexts hv))
  have hvary := header "Header set Vary \"" "Header set Vary " "set" "Vary"
    (by decide) (by decide) (by decide) hset (hreads _ plan.vary_mem_ownTexts)
  have hfront := (hpingback.append hbrand).append hvary.single
  rw [Apache.headerLines, HeaderPlan.headers, List.flatMap_append, List.flatMap_append,
    List.flatMap_append]
  cases hcontrol : plan.cacheControl with
  | none =>
    simpa only [Option.map_none, Option.toList_none, List.append_nil, List.flatMap_nil] using hfront
  | some c =>
    obtain ⟨hpragma, hvalue⟩ := HeaderPlan.cacheControl_mem_ownTexts hcontrol
    have hfirst := header "Header set Pragma \"" "Header set Pragma " "set" "Pragma"
      (by decide) (by decide) (by decide) hset (hreads _ hpragma)
    have hlast := cacheControl c.mode (hreads _ hvalue)
    rw [List.append_assoc _ _ (Option.toList _)]
    exact hfront.append (hfirst.cons hlast.single)

end Adds

theorem cacheRules_eq_append : cacheRules plan =
    (if plan.etag then ("FileETag MTime Size\n" : Text) else []) ++
      ("AddDefaultCharset " ++ (plan.charset ++ ['\n']) ++ ((leadSections plan).flatMap
        Section.render ++ ifModule "mod_headers.c" (headerLines plan))) := by
  rw [cacheRules_eq, cacheSections_eq, List.flatMap_cons, render_frontLines, List.flatMap_append,
    List.flatMap_singleton]
  cases plan.etag <;> simp only [List.append_assoc] <;> rfl

theorem adds_entityTags (etag : Bool) :
    Adds (if etag then ("FileETag MTime Size\n" : Text) else [])
    (if etag then [.entityTags] else []) := by
  cases etag with
  | false => exact .nil
  | true => exact .entityTags

def moduleDeclarations (plan : HeaderPlan) : List Declaration :=
  (if plan.compression then [.gzip] else []) ++ (plan.expires.map fun n => .lifetime n.toNat).toList

theorem adds_leadSections :
    Adds ((leadSections plan).flatMap Section.render) (moduleDeclarations plan) := by
  have hcompression : Adds ((if plan.compression then compressionSections else []).flatMap
      Section.render) (if plan.compression then [.gzip] else []) := by
    cases plan.compression with
    | false => exact .nil
    | true => exact flatMap_render_compressionSections ▸ Adds.compressionRules
  have hexpiry : Adds ((plan.expires.map fun n =>
      (⟨some "mod_expires.c", expiryLines n⟩ : Section)).toList.flatMap Section.render)
        (plan.expires.map fun n => Declaration.lifetime n.toNat).toList := by
    cases plan.expires with
    | none => exact .nil
    | some n =>
      rw [Option.map_some, Option.toList_some, List.flatMap_singleton, render_expiryLines]
      exact .expiry n.toNat
  rw [leadSections, List.flatMap_append]
  exact hcompression.append hexpiry

/-- What the rules declare if they are read as they are meant. -/
def plannedDeclarations (plan : HeaderPlan) : List Declaration :=
  (if plan.etag then [.entityTags] else []) ++
    ([.charset [plan.charset]] ++ (moduleDeclarations plan ++ plan.headers))

theorem filter_plannedDeclarations :
    (plannedDeclarations plan).filter (· ≠ .gzip) = plan.declarations := by
  have hgzip : (if plan.compression then [Declaration.gzip] else []).filter (· ≠ .gzip) = [] := by
    cases plan.compression <;> decide
  have hself : plan.declarations.filter (· ≠ .gzip) = plan.declarations :=
    List.filter_eq_self.2 fun x hx => decide_eq_true fun h =>
      plan.gzip_not_mem_declarations (h ▸ hx)
  conv_rhs => rw [← hself, HeaderPlan.declarations]
  simp only [plannedDeclarations, moduleDeclarations, List.filter_append, hgzip, List.nil_append,
    List.append_assoc]

theorem gzip_mem_plannedDeclarations :
    .gzip ∈ plannedDeclarations plan ↔ plan.compression = true := by
  have hgzip := plan.gzip_not_mem_declarations
  rw [HeaderPlan.declarations] at hgzip
  simp only [List.mem_append, not_or] at hgzip
  simp [plannedDeclarations, moduleDeclarations, hgzip]

variable {plan}

theorem declares_of_reads (hown : ∀ t ∈ plan.ownTexts, t.all HeaderPlan.isOwn = true)
    (hne : plan.charset ≠ []) (hcharset : (Word.bare plan.charset).reads headerLexicon = true)
    (hends : (Word.bare plan.charset).Ends)
    (hurl : ∀ url ∈ plan.pingbackUrl, (Word.inQuotes url).reads headerLexicon = true) :
    Declares (cacheRules plan) plan.declarations plan.compression := by
  have hheaders := Adds.ifModule "mod_headers.c" (by decide) (Adds.headerLines hown hurl)
  have hrules := (adds_entityTags plan.etag).append
    ((Adds.charset hcharset hne hends).append ((adds_leadSections plan).append hheaders))
  have hdeclared : declared (cacheRules plan) = plannedDeclarations plan := by
    have h := hrules []
    rw [List.append_nil, show declared [] = [] from rfl, List.append_nil] at h
    rwa [cacheRules_eq_append]
  exact ⟨hdeclared ▸ filter_plannedDeclarations plan, hdeclared ▸ gzip_mem_plannedDeclarations plan⟩

/-- Behind the lines that stand in any case comes a section. -/
theorem exists_ifModule (plan : HeaderPlan) : ∃ u, (leadSections plan).flatMap Section.render ++
    ifModule "mod_headers.c" (headerLines plan) = "<IfModule " ++ u := by
  have hmodule : ∀ x ∈ leadSections plan, x.module?.isSome = true := fun x hx => by
    rcases List.mem_append.1 hx with hx | hx
    · cases hcompression : plan.compression with
      | false => simp [hcompression] at hx
      | true =>
        rw [hcompression, if_pos rfl] at hx
        rcases List.mem_pair.1 hx with rfl | rfl <;> rfl
    · obtain ⟨n, -, rfl⟩ := Option.map_eq_some_iff.1 (Option.mem_toList.1 hx)
      rfl
  cases hsections : leadSections plan with
  | nil =>
    rw [List.flatMap_nil, List.nil_append, ifModule_eq, List.append_assoc, List.append_assoc]
    exact ⟨_, rfl⟩
  | cons x xs =>
    rw [hsections] at hmodule
    obtain ⟨name, hname⟩ := Option.isSome_iff_exists.1 (hmodule x List.mem_cons_self)
    rw [List.flatMap_cons, Section.render.eq_def, hname]
    simp only [ifModule_eq, List.append_assoc]
    exact ⟨_, rfl⟩

theorem newline_not_mem_of_tokens {x t : Text} {ts : List Token}
    (h : headerLexicon.tokens .gap t = .word x :: ts) : '\n' ∉ x := by
  have hmem : .word x ∈ headerLexicon.tokens .gap t := by
    rw [h]
    exact List.mem_cons_self
  have hhard := Lexicon.not_hard_of_mem_tokens (by simp [Lexicon.Place.read]) hmem
  exact fun hx => absurd (hhard _ hx) (by decide)

theorem run_ne_comment (x : Text) : headerLexicon.run .gap x ≠ ([], .comment) := fun h =>
  Lexicon.run_ne_comment (L := headerLexicon) (p := .gap) rfl (by simp) x (by rw [h])

theorem cuts_backslash (escaped : Bool) : headerLexicon.cuts escaped '\\' = false := by
  cases escaped <;> decide

/-- A backslash at the end of a line is not read if a section follows: the line goes on in it. -/
theorem tokens_continued_ne (e u : Text) (ts : List Token) :
    headerLexicon.tokens .gap (e ++ ("<IfModule " ++ u)) ≠ .word (e ++ ['\\']) :: ts := by
  intro h
  rcases Lexicon.begun_of_word cuts_backslash (List.prefix_append e _) h with
    (hrun | hrun) | ⟨c, r, rfl, hstep, huncut⟩
  · have hfirst : headerLexicon.run .gap "<IfModule " = ([.word "<IfModule"], .gap) := by decide
    rw [Lexicon.tokens_append, hrun, List.nil_append, Lexicon.tokens_append, hfirst,
      List.singleton_append, List.cons.injEq, Token.word.injEq] at h
    have hend : ("<IfModule" : Text).getLast? ≠ some '\\' := by decide
    exact hend (h.1 ▸ List.getLast?_concat)
  · exact run_ne_comment e hrun
  · -- The word would go on with the section.
    have hcut : ∀ escaped, headerLexicon.cuts escaped '<' = false := by decide
    have htext : ("<IfModule " : Text) ++ u = '<' :: ("IfModule " ++ u) := rfl
    rw [Lexicon.tokens_of_step hstep huncut, htext, Lexicon.tokens, if_neg (by simp [hcut])] at h
    obtain ⟨y, us, hy⟩ := headerLexicon.exists_word_bare (c :: r ++ ['<']) _ _
    rw [hy] at h
    simp at h

/-- A word before the end of a line and a section is read back if it is the first one. -/
theorem reads_of_line {x u : Text} {ts : List Token}
    (h : headerLexicon.tokens .gap (joinLines (x ++ '\n' :: ("<IfModule " ++ u))) = .word x :: ts) :
    (Word.bare x).reads headerLexicon = true ∧ (Word.bare x).Ends := by
  have hnewline := newline_not_mem_of_tokens h
  have hsection : Whole ("<IfModule " : Text) := .of_not_mem (by decide)
  by_cases hlast : x.getLast? = some '\\'
  · obtain ⟨e, rfl⟩ := List.getLast?_eq_some_iff.1 hlast
    rw [List.mem_append, not_or] at hnewline
    have hjoined : joinLines (e ++ ['\\'] ++ '\n' :: ("<IfModule " ++ u)) =
        e ++ joinLines ("<IfModule " ++ u) := by
      rw [List.append_assoc]
      exact joinLines_append_cons hnewline.1 (by decide) _
    rw [hjoined, hsection] at h
    exact absurd h (tokens_continued_ne e _ ts)
  · have hjoined : joinLines (x ++ '\n' :: ("<IfModule " ++ u)) =
        x ++ '\n' :: joinLines ("<IfModule " ++ u) := by
      rw [Whole.of_line hnewline hlast, joinLines_cons (.inl (by decide))]
    rw [hjoined] at h
    have hgap := Lexicon.run_ne_of_word (by decide) (by decide) h
    exact ⟨Lexicon.reads_of_word cuts_backslash (.inl rfl) hgap (run_ne_comment x) h, .inr hlast⟩

/-- What a directive with fixed words in front declares first is read from one argument. -/
theorem exists_tokens_of_declared {front x y : Text} (ws : List Text) {f : List Text → Declaration}
    {ds : List Declaration} (hfront : headerLexicon.run .gap front = (ws.map .word, .gap))
    (hwhole : Whole front) (hf : ∀ args e, dialect.declaration? ⟨ws ++ args, e⟩ = some (f args))
    (hgzip : ∀ args, f args ≠ .gzip) (hinj : Function.Injective f)
    (h : (declared (front ++ y)).filter (· ≠ .gzip) = f [x] :: ds) :
    ∃ ts, headerLexicon.tokens .gap (joinLines y) = .word x :: ts := by
  rw [declared, hwhole] at h
  rcases Lexicon.directives_cases hfront (joinLines y) with hnone | ⟨args, e, us, htokens, hdirectives⟩
  · rw [hnone] at h
    cases h
  · rw [hdirectives, Dialect.declared, List.filterMap_cons_some (hf args e),
      List.filter_cons_of_pos (by simpa using hgzip args), List.cons.injEq] at h
    obtain rfl := hinj h.1
    exact ⟨_, htokens⟩

theorem reads_charset_of_declares (h : Declares (cacheRules plan) plan.declarations plan.compression) :
    (Word.bare plan.charset).reads headerLexicon = true ∧ (Word.bare plan.charset).Ends := by
  obtain ⟨u, hsections⟩ := exists_ifModule plan
  have hfilter := h.1.trans (filter_plannedDeclarations plan).symm
  rw [cacheRules_eq_append, adds_entityTags, plannedDeclarations, List.filter_append,
    List.filter_append, List.append_cancel_left_eq, List.append_assoc, List.append_assoc,
    hsections] at hfilter
  obtain ⟨ts, htokens⟩ := exists_tokens_of_declared ["AddDefaultCharset"] (f := .charset)
    (by decide) (.of_not_mem (by decide)) (fun _ _ => rfl) (by simp)
    (fun _ _ heq => Declaration.charset.inj heq) hfilter
  exact reads_of_line htokens

/-- A text between quotes is read back if it is the first word. -/
theorem reads_of_quoted_line {x u : Text} {ts : List Token}
    (h : headerLexicon.tokens .gap (joinLines ('"' :: (x ++ '"' :: u))) = .word x :: ts) :
    (Word.inQuotes x).reads headerLexicon = true := by
  have hnewline : '\n' ∉ '"' :: x ++ ['"'] := by simpa using newline_not_mem_of_tokens h
  have hwhole : Whole ('"' :: x ++ ['"']) := .of_line hnewline (by rw [List.getLast?_concat]; decide)
  have hjoined : joinLines ('"' :: (x ++ '"' :: u)) = '"' :: (x ++ '"' :: joinLines u) := by
    simpa using hwhole u
  have hcut : headerLexicon.cuts false '"' = false := by decide
  rw [hjoined, Lexicon.tokens, if_neg (by simp [hcut]), if_pos (by decide)] at h
  exact Lexicon.reads_of_quoted_word (by decide) h

theorem exists_pingback {url : Text} (hurl : plan.pingbackUrl = some url) :
    ∃ u, (headerLines plan).flatMap indented =
      "    Header set X-Pingback " ++ ('"' :: (url ++ '"' :: u)) := by
  have hline : indented ("Header set X-Pingback \"" ++ url ++ "\"") =
      "    Header set X-Pingback " ++ ('"' :: (url ++ ['"', '\n'])) := by
    simp [indented]
  rw [headerLines, hurl, Text.enclosed?, Option.map_some, Option.toList_some, List.append_assoc,
    List.append_assoc, List.singleton_append, List.flatMap_cons, hline, List.append_assoc,
    List.cons_append, List.append_assoc]
  exact ⟨_, rfl⟩

theorem reads_url_of_declares (h : Declares (cacheRules plan) plan.declarations plan.compression)
    (hne : plan.charset ≠ []) {url : Text} (hurl : plan.pingbackUrl = some url) :
    (Word.inQuotes url).reads headerLexicon = true := by
  obtain ⟨hcharset, hends⟩ := reads_charset_of_declares h
  obtain ⟨u, hheaders⟩ := exists_pingback hurl
  have hopening : Adds ("<IfModule " ++ ("mod_headers.c" ++ (">" ++ ['\n']))) [] :=
    .opening (by decide)
  have hlead := (adds_entityTags plan.etag).append
    ((Adds.charset hcharset hne hends).append ((adds_leadSections plan).append hopening))
  have hrules : cacheRules plan = (if plan.etag then ("FileETag MTime Size\n" : Text) else []) ++
      ("AddDefaultCharset " ++ (plan.charset ++ ['\n']) ++ ((leadSections plan).flatMap
        Section.render ++ ("<IfModule " ++ ("mod_headers.c" ++ (">" ++ ['\n']))))) ++
      ("    Header set X-Pingback " ++
        ('"' :: (url ++ '"' :: (u ++ ("</IfModule>" ++ ['\n']))))) := by
    rw [cacheRules_eq_append, ifModule_eq, hheaders]
    simp only [List.append_assoc, List.cons_append]
  have hfilter := h.1.trans (filter_plannedDeclarations plan).symm
  rw [hrules, hlead] at hfilter
  have hplanned : plannedDeclarations plan = (if plan.etag then [Declaration.entityTags] else []) ++
      ([.charset [plan.charset]] ++ (moduleDeclarations plan ++ [])) ++ plan.headers := by
    simp [plannedDeclarations]
  simp only [hplanned, List.filter_append, List.append_cancel_left_eq] at hfilter
  rw [HeaderPlan.headers, hurl] at hfilter
  obtain ⟨ts, htokens⟩ := exists_tokens_of_declared ["Header", "set", "X-Pingback"]
    (f := .header "X-Pingback") (by decide) (.of_not_mem (by decide)) (fun _ _ => rfl) (by simp)
    (fun _ _ heq => (Declaration.header.inj heq).2) hfilter
  exact reads_of_quoted_line htokens

variable (plan) in
/-- The texts of the configuration are read back: the charset as one word that is left in its line, and
the address of the pingback between its quotes. -/
def ReadsBack : Prop :=
  (Word.bare plan.charset).reads headerLexicon = true ∧ (Word.bare plan.charset).Ends ∧
    ∀ url ∈ plan.pingbackUrl, (Word.inQuotes url).reads headerLexicon = true

instance : Decidable (ReadsBack plan) := by
  unfold ReadsBack
  infer_instance

theorem declares_cacheRules_iff (hown : ∀ t ∈ plan.ownTexts, t.all HeaderPlan.isOwn = true)
    (hne : plan.charset ≠ []) :
    Declares (cacheRules plan) plan.declarations plan.compression ↔ ReadsBack plan := by
  constructor
  · intro h
    obtain ⟨hcharset, hends⟩ := reads_charset_of_declares h
    exact ⟨hcharset, hends, fun _ hurl => reads_url_of_declares h hne hurl⟩
  · rintro ⟨hcharset, hends, hurl⟩
    exact declares_of_reads hown hne hcharset hends hurl

end PageCache.Apache
