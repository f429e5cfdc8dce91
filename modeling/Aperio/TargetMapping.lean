import Aperio.DestUrl
import Aperio.Revalidation

/-!
# One request, three kinds of target

The path mapping is written three times: `build_dest_url` for HTTP targets,
`build_origin_uri` for sockets, and once more in `handle_upgrade_request`. The
first tells a URI in absolute form from one in origin form, and writes the
path and the query as a URL does; the second only cuts the text, and the third
takes every URI for an origin form. `same_request_iff` says for which URIs the
three agree under every bind.

The header filter is written three times too, and what the three forward
differs in `host`, `te` and `trailer` only (`headers_alike`).
-/

namespace Aperio

/-! ## Requests -/

/-- What ends the authority of a URL. -/
def authorityEnds : List Char := ['/', '\\', '?', '#']

/-- The scheme and the authority of a URI in absolute form. -/
structure UriSite where
  scheme : String
  authority : String
  known : scheme = "http" ∨ scheme = "https"
  plain : ∀ c ∈ authority.toList, c ∉ authorityEnds

/-- What a request's URI is made of. -/
def uriChar (c : Char) : Bool :=
  decide (0x20 < c.toNat) && c != '#'

def queryText : Option String → String
  | none => ""
  | some query => "?" ++ query

/-- The URI of a request: in origin form, or in the absolute form of an HTTP/2
visitor. -/
structure RequestUri where
  site : Option UriSite := none
  path : String
  query : Option String := none
  rooted : startsWith path "/" = true
  pathChars : ∀ c ∈ path.toList, uriChar c = true ∧ c ≠ '?'
  queryChars : ∀ q, query = some q → ∀ c ∈ q.toList, uriChar c = true

def UriSite.text (site : UriSite) : String :=
  site.scheme ++ "://" ++ site.authority

def RequestUri.text (uri : RequestUri) : String :=
  (uri.site.elim "" UriSite.text) ++ (uri.path ++ queryText uri.query)

/-! ## What is sent -/

/-- The query percent-encode set of special schemes. -/
def inQuerySet (c : Char) : Bool :=
  decide (c.toNat < 0x20) || decide (0x7F ≤ c.toNat) ||
    [' ', '"', '#', '<', '>', '\''].contains c

/-- What `Url::set_query` writes. -/
def encodeQuery (query : String) : String :=
  String.ofList ((query.toList.filter fun c => !isTabOrNewline c).flatMap fun c =>
    if inQuerySet c then (String.utf8EncodeChar c).flatMap percentByte else [c])

/-- The path and the query sent to a backend. -/
def Url.requestTarget (url : Url true) : String :=
  url.pathText ++ queryText (url.query.map encodeQuery)

/-- `build_origin_uri`, for a socket. -/
def buildOriginUri {special : Bool} (ctx : ForwardContext special) (uri : String) : String :=
  match splitOnce uri '?' with
  | some (path, query) =>
    "/" ++ cutBind ctx.trimBind ctx.pathBind (trimStartMatches path '/') ++ queryText (some query)
  | none =>
    "/" ++ cutBind ctx.trimBind ctx.pathBind (trimStartMatches uri '/') ++ queryText none

/-- `Url::parse` on what requests ask for: a path as `set_path` writes it, and
a query as `set_query` does. -/
structure UriReader extends UrlParser where
  absolute : ∀ uri : RequestUri, ∀ site incoming, uri.site = some site →
    parse uri.text = some incoming →
    incoming.path = String.ofList (serializePath (UrlPath.parse true uri.path.toList).segments)
  localhost : ∀ uri : RequestUri, uri.site = none →
    parse ("http://localhost" ++ uri.text) =
      some ⟨String.ofList (serializePath (UrlPath.parse true uri.path.toList).segments),
        uri.query.map encodeQuery⟩

/-! ## Texts a URL leaves alone -/

/-- Characters a URL writes as they stand in a path. -/
def pathChar (c : Char) : Bool :=
  !inPathSet c && c != '\\'

theorem isTabOrNewline_of_pathChar {c : Char} (h : inPathSet c = false) :
    isTabOrNewline c = false := by
  cases htab : isTabOrNewline c with
  | false => rfl
  | true =>
      simp only [isTabOrNewline, Bool.or_eq_true, beq_iff_eq] at htab
      rcases htab with (rfl | rfl) | rfl <;> exact absurd h (by decide)

theorem serialize_splitOnP {p : Char → Bool} {text : List Char}
    (h : ∀ c ∈ text, p c = true → c = '/') : serializePath (text.splitOnP p) = '/' :: text := by
  induction text with
  | nil => rfl
  | cons c rest ih =>
      obtain ⟨hc, hrest⟩ := List.forall_mem_cons.mp h
      rw [List.splitOnP_cons_eq_if_modifyHead]
      split
      · rename_i hp
        rw [serializePath, List.flatMap_cons, ← serializePath, ih hrest, hc hp]
        rfl
      · obtain ⟨seg, segs, hsplit⟩ := List.exists_cons_of_ne_nil (List.splitOnP_ne_nil p rest)
        have htext := ih hrest
        rw [hsplit] at htext ⊢
        simp only [serializePath, List.flatMap_cons, List.cons_append, List.cons.injEq,
          true_and] at htext
        simp only [List.modifyHead_cons, serializePath, List.flatMap_cons, List.cons_append, htext]

/-- What is written is of such characters. -/
theorem pathChar_of_mem_serialize {text : List Char} {c : Char}
    (h : c ∈ serializePath (pathSegments true text)) : pathChar c = true := by
  obtain ⟨seg, hseg, hin⟩ := List.mem_flatMap.mp h
  rcases List.mem_cons.mp hin with rfl | hin
  · decide
  · obtain ⟨hslash, -, hencoded⟩ := pathSegments_plain seg hseg
    rw [← hencoded] at hin
    have hset := (mem_encodeSegment hin).1
    rw [hencoded] at hin
    have hback : c ≠ '\\' := by
      rintro rfl
      exact absurd (hslash _ hin) (by decide)
    simp [pathChar, hset, hback]

/-- A path is written as it stands exactly when each of its characters is. -/
theorem serialize_pathSegments_iff {text : List Char} :
    serializePath (pathSegments true text) = '/' :: text ↔ ∀ c ∈ text, pathChar c = true := by
  constructor
  · intro h c hc
    have hmem : c ∈ serializePath (pathSegments true text) := by
      rw [h]
      exact List.mem_cons_of_mem _ hc
    exact pathChar_of_mem_serialize hmem
  · intro h
    have hset : ∀ c ∈ text, inPathSet c = false := by
      intro c hc
      have hchar := h c hc
      rw [pathChar, Bool.and_eq_true, Bool.not_eq_true'] at hchar
      exact hchar.1
    have hfilter : (text.filter fun c => !isTabOrNewline c) = text := by
      rw [List.filter_eq_self]
      intro c hc
      rw [isTabOrNewline_of_pathChar (hset c hc)]
      rfl
    have hsegs : ∀ seg ∈ text.splitOnP (isSlash true), encodeSegment seg = seg := by
      intro seg hseg
      exact encodeSegment_of_not_mem fun c hc => hset c (mem_of_mem_splitOnP hseg hc).1
    rw [pathSegments, hfilter, List.map_congr_left hsegs, List.map_id', serialize_splitOnP]
    intro c hc hslash
    have hchar := h c hc
    simp only [isSlash, Bool.or_eq_true, beq_iff_eq, Bool.and_eq_true, true_and] at hslash
    rcases hslash with hslash | rfl
    · exact hslash
    · exact absurd hchar (by decide)

theorem pathChars_iff {path rest : List Char} (h : path = '/' :: rest) :
    (∀ c ∈ path, pathChar c = true) ↔ ∀ c ∈ rest, pathChar c = true := by
  rw [h, List.forall_mem_cons]
  exact and_iff_right (by decide)

theorem pathChars_dropWhile {path : List Char} :
    (∀ c ∈ path.dropWhile (· == '/'), pathChar c = true) ↔ ∀ c ∈ path, pathChar c = true := by
  induction path with
  | nil => exact Iff.rfl
  | cons c rest ih =>
      rw [List.dropWhile_cons]
      split
      · rename_i hc
        rw [ih, ← pathChars_iff (congrArg (· :: rest) (beq_iff_eq.mp hc))]
      · exact Iff.rfl

/-- A path of such characters is parsed to itself. -/
theorem parse_serialize {path rest : List Char} (h : path = '/' :: rest)
    (hdots : NoDots true path) (hchars : ∀ c ∈ path, pathChar c = true) :
    serializePath (UrlPath.parse true path).segments = path := by
  have hrest : NoDots true rest := @NoDots.after_slash true [] rest (by rwa [h] at hdots)
  change serializePath (parsePath true path) = path
  rw [parsePath, h, List.drop_one, List.tail_cons, pushSegments_of_normal hrest, List.nil_append]
  exact serialize_pathSegments_iff.mpr ((pathChars_iff h).mp hchars)

/-- A query is written as it stands exactly when each of its characters is. -/
theorem encodeQuery_eq_self_iff {query : String} :
    encodeQuery query = query ↔ ∀ c ∈ query.toList, inQuerySet c = false := by
  constructor
  · intro h c hc
    rw [← h, encodeQuery, String.toList_ofList] at hc
    obtain ⟨d, -, hin⟩ := List.mem_flatMap.mp hc
    split at hin
    · obtain ⟨b, -, hb⟩ := List.mem_flatMap.mp hin
      have hlt := b.toNat_lt
      have hdigit : ∀ n < 16, inQuerySet (upperHexDigit n) = false := by decide
      rcases List.mem_cons.mp hb with rfl | hb
      · decide
      rcases List.mem_cons.mp hb with rfl | hb
      · exact hdigit _ (by omega)
      · rw [List.mem_singleton.mp hb]
        exact hdigit _ (by omega)
    · rename_i hset
      rw [List.mem_singleton.mp hin]
      simpa using hset
  · intro h
    have hfilter : (query.toList.filter fun c => !isTabOrNewline c) = query.toList := by
      rw [List.filter_eq_self]
      intro c hc
      cases htab : isTabOrNewline c with
      | false => rfl
      | true =>
          simp only [isTabOrNewline, Bool.or_eq_true, beq_iff_eq] at htab
          have hset := h c hc
          rcases htab with (rfl | rfl) | rfl <;> exact absurd hset (by decide)
    have hkeep : ∀ text : List Char, (∀ c ∈ text, inQuerySet c = false) →
        (text.flatMap fun c =>
          if inQuerySet c then (String.utf8EncodeChar c).flatMap percentByte else [c]) = text := by
      intro text htext
      induction text with
      | nil => rfl
      | cons c rest ih =>
          obtain ⟨hc, hrest⟩ := List.forall_mem_cons.mp htext
          rw [List.flatMap_cons, hc, ih hrest]
          rfl
    rw [encodeQuery, hfilter, hkeep _ h, String.ofList_toList]

/-! ## The path and the query of a text -/

theorem RequestUri.rooted_cons (uri : RequestUri) : ∃ rest, uri.path.toList = '/' :: rest := by
  obtain ⟨rest, hrest⟩ := startsWith_iff.mp uri.rooted
  exact ⟨rest, hrest.symm⟩

theorem splitOnce_queryText {path : String} (h : '?' ∉ path.toList) (query : Option String) :
    splitOnce (path ++ queryText query) '?' = query.map fun q => (path, q) := by
  cases query with
  | none =>
      rw [queryText, String.append_empty, splitOnce, if_neg h]
      rfl
  | some q =>
      refine splitOnce_eq_some.mpr ⟨?_, h⟩
      simp [queryText]

theorem RequestUri.no_question (uri : RequestUri) : '?' ∉ uri.path.toList := by
  intro hmem
  exact (uri.pathChars _ hmem).2 rfl

theorem UriSite.no_question (site : UriSite) : '?' ∉ site.text.toList := by
  intro hmem
  rw [UriSite.text, String.toList_append, String.toList_append] at hmem
  rcases List.mem_append.mp hmem with hmem | hmem
  · rcases site.known with h | h <;> rw [h] at hmem <;> revert hmem <;> decide
  · exact site.plain _ hmem (by decide)

/-- Two texts of a path and a query are equal when both parts are. -/
theorem queryText_inj {path path' : String} {query query' : Option String}
    (h : '?' ∉ path.toList) (h' : '?' ∉ path'.toList)
    (heq : path ++ queryText query = path' ++ queryText query') :
    path = path' ∧ query = query' := by
  have hsplit := congrArg (splitOnce · '?') heq
  simp only [splitOnce_queryText h, splitOnce_queryText h'] at hsplit
  cases query with
  | none =>
      cases query' with
      | none => exact ⟨by simpa [queryText] using heq, rfl⟩
      | some q' => cases hsplit
  | some q =>
      cases query' with
      | none => cases hsplit
      | some q' =>
          obtain ⟨rfl, rfl⟩ := Prod.mk.inj (Option.some.inj hsplit)
          exact ⟨rfl, rfl⟩

/-! ## The mappings -/

variable {ctx : ForwardContext true} {target : Url true} {uri : RequestUri}

/-- A target over HTTP without a base path. -/
structure PlainTarget (ctx : ForwardContext true) (target : Url true) : Prop where
  url : ctx.targetUrl = some target
  base : target.base = []
  dialled : startsWith ctx.target "unix://" = false

/-- What of a path is asked for under a bind. -/
def boundPath (ctx : ForwardContext true) (path : String) : String :=
  cutBind ctx.trimBind ctx.pathBind (trimStartMatches path '/')

theorem mem_cutBind {trimBind : Bool} {pathBind : Option String} {text : String} {c : Char}
    (h : c ∈ (cutBind trimBind pathBind text).toList) : c ∈ text.toList := by
  unfold cutBind at h
  split at h
  · exact h
  · split at h
    · rename_i rest hstrip
      split at h
      · rw [stripPrefix_eq_some.mp hstrip]
        rw [trimStartMatches, String.toList_ofList] at h
        exact List.mem_append_right _ ((List.dropWhile_sublist _).subset h)
      · exact h
    · exact h

theorem boundPath_noDots {path : String} (h : NoDots true path.toList) :
    NoDots true (boundPath ctx path).toList := by
  refine NoDots.cutBind ?_
  rw [trimStartMatches, String.toList_ofList]
  exact h.dropWhile

theorem buildOriginUri_eq {path : String} (h : '?' ∉ path.toList) (query : Option String) :
    buildOriginUri ctx (path ++ queryText query) =
      "/" ++ boundPath ctx path ++ queryText query := by
  rw [buildOriginUri, splitOnce_queryText h]
  cases query with
  | none =>
      change "/" ++ cutBind ctx.trimBind ctx.pathBind
        (trimStartMatches (path ++ queryText none) '/') ++ queryText none = _
      simp only [queryText, String.append_empty, boundPath]
  | some q => rfl

/-- What an HTTP target is sent of a path and a query. -/
theorem requestTarget_dest (h : PlainTarget ctx target) {path : String}
    (hdots : NoDots true path.toList) (query : Option String) :
    ((target.setPath (destPath ctx target path)).setQuery query).requestTarget =
      String.ofList (serializePath (pathSegments true (boundPath ctx path).toList)) ++
        queryText (query.map encodeQuery) := by
  change String.ofList (serializePath (target.setPath (destPath ctx target path)).path.segments) ++
    queryText (query.map encodeQuery) = _
  rw [destPath_segments, h.base, ← boundPath, pushSegments_of_normal (boundPath_noDots hdots),
    List.nil_append]

variable {reader : UriReader}

theorem RequestUri.text_of_origin (h : uri.site = none) :
    uri.text = uri.path ++ queryText uri.query := by
  rw [RequestUri.text, h]
  exact String.empty_append

theorem RequestUri.text_of_site {site : UriSite} (h : uri.site = some site) :
    uri.text = site.text ++ uri.path ++ queryText uri.query := by
  rw [RequestUri.text, h, Option.elim_some, String.append_assoc]

theorem startsWith_origin (h : uri.site = none) : startsWith uri.text "/" = true := by
  obtain ⟨rest, hrest⟩ := startsWith_iff.mp uri.rooted
  rw [startsWith_iff, RequestUri.text_of_origin h, String.toList_append, ← hrest,
    List.append_assoc]
  exact List.prefix_append _ _

theorem UriSite.text_cons (site : UriSite) :
    ∃ rest, site.text.toList = 'h' :: rest ∧ 2 ≤ rest.length := by
  rw [UriSite.text, String.toList_append, String.toList_append]
  rcases site.known with h | h
  · exact ⟨"ttp://".toList ++ site.authority.toList, by rw [h]; rfl, by simp⟩
  · exact ⟨"ttps://".toList ++ site.authority.toList, by rw [h]; rfl, by simp⟩

theorem incomingUri_origin (parser : UrlParser) (h : uri.site = none) :
    incomingUri parser uri.text = some ⟨uri.path, uri.query⟩ := by
  have hstarts := startsWith_origin h
  have hne : uri.text ≠ "" := by
    intro hempty
    rw [hempty] at hstarts
    exact absurd hstarts (by decide)
  rw [incomingUri, if_neg hne, if_pos hstarts, RequestUri.text_of_origin h,
    splitOnce_queryText uri.no_question]
  cases hquery : uri.query with
  | none => simp [queryText]
  | some q => rfl

theorem incomingUri_site {site : UriSite} (parser : UrlParser) (h : uri.site = some site) :
    incomingUri parser uri.text = parser.parse uri.text := by
  obtain ⟨rest, hrest, -⟩ := site.text_cons
  have htext : uri.text.toList = 'h' :: (rest ++ (uri.path ++ queryText uri.query).toList) := by
    rw [RequestUri.text_of_site h, String.append_assoc, String.toList_append, hrest,
      List.cons_append]
  have hne : uri.text ≠ "" := by
    intro hempty
    rw [hempty] at htext
    cases htext
  have hstarts : ¬startsWith uri.text "/" = true := by
    rw [startsWith_iff, htext]
    intro hslash
    exact absurd (List.cons_prefix_cons.mp hslash).1 (by decide)
  rw [incomingUri, if_neg hne, if_neg hstarts]

theorem buildDestUrl_eq (h : PlainTarget ctx target) (parser : UrlParser) (text : String) :
    (buildDestUrl parser ctx text).toOption = (incomingUri parser text).map fun incoming =>
      (target.setPath (destPath ctx target incoming.path)).setQuery incoming.query := by
  rw [buildDestUrl, h.url]
  cases incomingUri parser text with
  | none => rfl
  | some incoming =>
      simp only [Url.diverges_set, Bool.false_eq_true, if_false]
      rfl

theorem upgradeDestUrl_eq (h : PlainTarget ctx target) (parser : UrlParser) (text : String) :
    ((upgradeDestUrl parser ctx text).toOption.map Url.requestTarget) =
      (parser.parse ("http://localhost" ++ text)).map fun incoming =>
        ((target.setPath (destPath ctx target incoming.path)).setQuery
          incoming.query).requestTarget := by
  have hunix : ¬startsWith ctx.target "unix://" = true := by
    rw [h.dialled]
    exact Bool.false_ne_true
  rw [upgradeDestUrl, if_neg hunix, h.url]
  dsimp only
  cases parser.parse ("http://localhost" ++ text) <;> rfl

/-! ## What every target sees -/

/-- One mapping of a request: a socket and an upgrade are sent what the HTTP
target is. -/
structure SentAlike (parser : UrlParser) (ctx : ForwardContext true) (text : String) : Prop where
  unix : (buildDestUrl parser ctx text).toOption.map Url.requestTarget =
    some (buildOriginUri ctx text)
  upgrade : (upgradeDestUrl parser ctx text).toOption.map Url.requestTarget =
    (buildDestUrl parser ctx text).toOption.map Url.requestTarget

/-- A URI in origin form, of characters a URL writes as they stand. -/
structure RequestUri.Verbatim (uri : RequestUri) : Prop where
  origin : uri.site = none
  path : ∀ c ∈ uri.path.toList, pathChar c = true
  query : ∀ q, uri.query = some q → ∀ c ∈ q.toList, inQuerySet c = false

theorem RequestUri.Verbatim.query_eq (h : uri.Verbatim) :
    uri.query.map encodeQuery = uri.query := by
  cases hquery : uri.query with
  | none => rfl
  | some q => exact congrArg some (encodeQuery_eq_self_iff.mpr (h.query q hquery))

theorem boundPath_chars (h : uri.Verbatim) : ∀ c ∈ (boundPath ctx uri.path).toList,
    pathChar c = true := by
  intro c hc
  have hmem := mem_cutBind hc
  rw [trimStartMatches, String.toList_ofList] at hmem
  exact h.path c ((List.dropWhile_sublist _).subset hmem)

theorem sentAlike_of_verbatim (hdots : NoDots true uri.path.toList) (h : uri.Verbatim)
    (hplain : PlainTarget ctx target) : SentAlike reader.toUrlParser ctx uri.text := by
  obtain ⟨rest, hrest⟩ := uri.rooted_cons
  have hparsed := reader.localhost uri h.origin
  rw [parse_serialize hrest hdots h.path, String.ofList_toList, h.query_eq] at hparsed
  constructor
  · rw [buildDestUrl_eq hplain, incomingUri_origin _ h.origin, Option.map_some, Option.map_some,
      requestTarget_dest hplain hdots, h.query_eq,
      serialize_pathSegments_iff.mpr (boundPath_chars h), RequestUri.text_of_origin h.origin,
      buildOriginUri_eq uri.no_question]
    refine congrArg (fun path => some (path ++ queryText uri.query)) (String.toList_injective ?_)
    simp
  · rw [upgradeDestUrl_eq hplain, hparsed, buildDestUrl_eq hplain,
      incomingUri_origin _ h.origin]
    rfl

/-! ## Where they differ -/

/-- `http://127.0.0.1:9000/`. -/
def rootTarget : Url true where
  scheme := "http"
  host := some "127.0.0.1"
  port := some 9000
  path := UrlPath.parse true "/".toList

def rootContext : ForwardContext true where
  target := "http://127.0.0.1:9000"
  targetUrl := some rootTarget

theorem rootContext_plain : PlainTarget rootContext rootTarget where
  url := rfl
  base := by decide
  dialled := by decide

theorem boundPath_root (path : String) :
    (boundPath rootContext path).toList = path.toList.dropWhile (· == '/') := by
  change (trimStartMatches path '/').toList = _
  rw [trimStartMatches, String.toList_ofList]

/-- What is sent under no bind, when a socket is sent the same. -/
theorem serialized_of_sentAlike {path : String} {query : Option String} {incoming : ParsedUri}
    (hno : '?' ∉ path.toList) (hdots : NoDots true incoming.path.toList)
    (hincoming : incomingUri reader.toUrlParser (path ++ queryText query) = some incoming)
    (h : SentAlike reader.toUrlParser rootContext (path ++ queryText query)) :
    serializePath (pathSegments true (incoming.path.toList.dropWhile (· == '/'))) =
        '/' :: path.toList.dropWhile (· == '/') ∧
      incoming.query.map encodeQuery = query := by
  have hsent := h.unix
  rw [buildDestUrl_eq rootContext_plain, hincoming, Option.map_some, Option.map_some,
    requestTarget_dest rootContext_plain hdots, buildOriginUri_eq hno] at hsent
  have hpath : '?' ∉ (String.ofList (serializePath
      (pathSegments true (boundPath rootContext incoming.path).toList))).toList := by
    intro hmem
    rw [String.toList_ofList] at hmem
    exact absurd (pathChar_of_mem_serialize hmem) (by decide)
  have hbound : '?' ∉ ("/" ++ boundPath rootContext path).toList := by
    intro hmem
    rw [String.toList_append, boundPath_root] at hmem
    rcases List.mem_append.mp hmem with hmem | hmem
    · exact absurd hmem (by decide)
    · exact hno ((List.dropWhile_sublist _).subset hmem)
  obtain ⟨htext, hquery⟩ := @queryText_inj _ _ (incoming.query.map encodeQuery) query hpath hbound
    (Option.some.inj hsent)
  have hlist := congrArg String.toList htext
  rw [String.toList_ofList, String.toList_append, boundPath_root, boundPath_root] at hlist
  exact ⟨hlist, hquery⟩

theorem origin_of_sentAlike (hdots : NoDots true uri.path.toList)
    (h : SentAlike reader.toUrlParser rootContext uri.text) : uri.site = none := by
  cases hsite : uri.site with
  | none => rfl
  | some site =>
      exfalso
      obtain ⟨rest, hrest⟩ := uri.rooted_cons
      obtain ⟨more, hmore, -⟩ := site.text_cons
      have hincoming : ∃ incoming, incomingUri reader.toUrlParser uri.text = some incoming := by
        have hsent := h.unix
        rw [buildDestUrl_eq rootContext_plain] at hsent
        cases hparse : incomingUri reader.toUrlParser uri.text with
        | none =>
            rw [hparse] at hsent
            cases hsent
        | some incoming => exact ⟨incoming, rfl⟩
      obtain ⟨incoming, hincoming⟩ := hincoming
      have hpath := reader.absolute uri site incoming hsite
        (by rw [← incomingUri_site reader.toUrlParser hsite, hincoming])
      rw [RequestUri.text_of_site hsite] at hincoming h
      have hnormal : NoDots true incoming.path.toList := by
        rw [hpath, String.toList_ofList]
        exact noDots_serializePath _
      have hno : '?' ∉ (site.text ++ uri.path).toList := by
        rw [String.toList_append, List.mem_append]
        exact fun hmem => hmem.elim site.no_question uri.no_question
      obtain ⟨hlist, -⟩ := @serialized_of_sentAlike reader (site.text ++ uri.path) uri.query
        incoming hno hnormal hincoming h
      -- a socket is sent the scheme and the authority before the whole path
      have hsocket : (site.text ++ uri.path).toList.dropWhile (· == '/') =
          site.text.toList ++ uri.path.toList := by
        rw [String.toList_append, hmore, List.cons_append,
          List.dropWhile_cons_of_neg (by decide)]
      rw [hsocket] at hlist
      have hchars : ∀ c ∈ uri.path.toList, pathChar c = true := by
        intro c hc
        have hmem : c ∈ '/' :: (site.text.toList ++ uri.path.toList) :=
          List.mem_cons_of_mem _ (List.mem_append_right _ hc)
        rw [← hlist] at hmem
        exact pathChar_of_mem_serialize hmem
      rw [hpath, parse_serialize hrest hdots hchars, String.ofList_toList,
        serialize_pathSegments_iff.mpr (pathChars_dropWhile.mpr hchars)] at hlist
      have hlength := congrArg List.length (List.cons.inj hlist).2
      have hshort := (List.dropWhile_sublist (l := uri.path.toList) (· == '/')).length_le
      rw [List.length_append, hmore, List.length_cons] at hlength
      omega

theorem verbatim_of_sentAlike (hdots : NoDots true uri.path.toList)
    (h : SentAlike reader.toUrlParser rootContext uri.text) : uri.Verbatim := by
  have horigin := origin_of_sentAlike hdots h
  have hincoming := incomingUri_origin reader.toUrlParser horigin
  rw [RequestUri.text_of_origin horigin] at hincoming h
  obtain ⟨hlist, hquery⟩ := @serialized_of_sentAlike reader uri.path uri.query
    ⟨uri.path, uri.query⟩ uri.no_question hdots hincoming h
  refine ⟨horigin, pathChars_dropWhile.mp (serialize_pathSegments_iff.mp hlist), ?_⟩
  intro q hq
  rw [hq] at hquery
  exact encodeQuery_eq_self_iff.mp (Option.some.inj hquery)

/-! ## Headers -/

def hopByHopCore : List String :=
  ["connection", "keep-alive", "upgrade", "proxy-connection", "accept-encoding",
    "transfer-encoding"]

def websocketPrefix : String := "sec-websocket-"

/-- `is_hop_by_hop`: the shared names, and one of the path's own. -/
def stripsName (own name : String) : Bool :=
  let n := toAsciiLowercase name
  hopByHopCore.contains n || n == own || startsWith n websocketPrefix

/-- `is_hop_by_hop` of the HTTP/1 path. -/
def isHopByHop1 (name : String) : Bool := stripsName "trailer" name

/-- `is_hop_by_hop` of the HTTP/2 path. -/
def isHopByHop2 (name : String) : Bool := stripsName "host" name

/-- The names a socket's path leaves out. -/
def unixStrips (kLower : String) : Bool :=
  ["connection", "keep-alive", "upgrade", "proxy-connection", "accept-encoding",
    "transfer-encoding", "trailer"].contains kLower || startsWith kLower "sec-websocket-"

/-- `str::to_lowercase`, and what an HTTP library takes for a name and for a
value. A name is ASCII. -/
structure HeaderText where
  toLowercase : String → String
  validName : String → Bool
  validValue : String → Bool
  ascii : ∀ name, validName name = true → toLowercase name = toAsciiLowercase name

namespace HeaderText

variable (lib : HeaderText)

def valid (h : String × String) : Bool :=
  lib.validName h.1 && lib.validValue h.2

/-- A header as a library holds it. -/
def sent (h : String × String) : String × String :=
  (toAsciiLowercase h.1, h.2)

/-- The visitor's host: the last one that is not left out. -/
def hostOf (strips : String → Bool) (headers : List (String × String)) : Option String :=
  ((headers.filter fun h => !strips (lib.toLowercase h.1) &&
    lib.toLowercase h.1 == "host").getLast?).map (·.2)

/-- What goes through a path's loop. -/
def loop (strips : String → Bool) (skips : String → String → Bool)
    (headers : List (String × String)) : List (String × String) :=
  (headers.filter fun h => !strips (lib.toLowercase h.1) &&
    (!skips (lib.toLowercase h.1) h.2 && lib.valid h)).map sent

/-- The headers of a request over HTTP/1. -/
def http1Headers (t : HeaderTransform) (passHostname : Bool) (headers : List (String × String)) :
    List (String × String) :=
  let headers := t.edit headers
  lib.loop isHopByHop1 (fun kLower _ => kLower == "host") headers ++
    (((lib.hostOf isHopByHop1 headers).filter fun host =>
      passHostname && lib.validValue host).map fun host => ("host", host)).toList

/-- The headers of a request over HTTP/2. -/
def http2Headers (t : HeaderTransform) (headers : List (String × String)) :
    List (String × String) :=
  lib.loop isHopByHop2
    (fun kLower v => kLower == "te" && !containsText (toAsciiLowercase v) "trailers")
    (t.edit headers)

/-- The headers of a request to a socket. -/
def unixHeaders (t : HeaderTransform) (passHostname : Bool) (headers : List (String × String)) :
    List (String × String) :=
  let headers := t.edit headers
  let host := if passHostname then (lib.hostOf unixStrips headers).getD "localhost" else "localhost"
  lib.loop unixStrips (fun kLower _ => kLower == "host") headers ++
    if lib.validValue host then [("host", host)] else []

end HeaderText

/-- The names the paths may differ in. -/
def ownNames : List String := ["host", "te", "trailer"]

def sharedHeaders (headers : List (String × String)) : List (String × String) :=
  headers.filter fun h => !ownNames.contains h.1

variable (lib : HeaderText)

theorem toAsciiLowercase_idem (s : String) :
    toAsciiLowercase (toAsciiLowercase s) = toAsciiLowercase s := by
  refine congrArg String.ofList ?_
  rw [toAsciiLowercase, String.toList_ofList, List.map_map]
  exact List.map_congr_left fun c _ => toLower_toLower c

/-- The shared headers of a path: the loop's, when it leaves out the core and
names of its own. -/
theorem shared_loop {strips : String → Bool} {skips : String → String → Bool}
    {own : List (String × String)} (hown : ∀ h ∈ own, h.1 ∈ ownNames)
    (hstrips : ∀ n, toAsciiLowercase n = n → n ∉ ownNames → strips n =
      (hopByHopCore.contains n || startsWith n websocketPrefix))
    (hskips : ∀ n v, n ∉ ownNames → skips n v = false) (headers : List (String × String)) :
    sharedHeaders (lib.loop strips skips headers ++ own) =
      (headers.filter fun h => !ownNames.contains (toAsciiLowercase h.1) &&
        (!(hopByHopCore.contains (toAsciiLowercase h.1) ||
          startsWith (toAsciiLowercase h.1) websocketPrefix) && lib.valid h)).map
        HeaderText.sent := by
  have hnone : own.filter (fun h => !ownNames.contains h.1) = [] := by
    rw [List.filter_eq_nil_iff]
    intro h hmem
    simpa using hown h hmem
  rw [sharedHeaders, List.filter_append, hnone, List.append_nil, HeaderText.loop, List.filter_map,
    List.filter_filter]
  refine congrArg (List.map _) (List.filter_congr fun h _ => ?_)
  cases hvalid : lib.valid h with
  | false => simp
  | true =>
      have hname : lib.validName h.1 = true := (Bool.and_eq_true_iff.mp hvalid).1
      rw [lib.ascii h.1 hname]
      change (!ownNames.contains (toAsciiLowercase h.1) && _) = _
      cases hshared : ownNames.contains (toAsciiLowercase h.1) with
      | true => rfl
      | false =>
          have hmem : toAsciiLowercase h.1 ∉ ownNames := by simpa using hshared
          rw [hstrips _ (toAsciiLowercase_idem h.1) hmem, hskips _ _ hmem]
          simp

/-- What is left of a header list apart from the paths' own names. -/
def forwardedHeaders (t : HeaderTransform) (headers : List (String × String)) :
    List (String × String) :=
  ((t.edit headers).filter fun h => !ownNames.contains (toAsciiLowercase h.1) &&
    (!(hopByHopCore.contains (toAsciiLowercase h.1) ||
      startsWith (toAsciiLowercase h.1) websocketPrefix) && lib.valid h)).map HeaderText.sent

/-- The three paths forward the same headers, but for `host`, `te` and
`trailer`. -/
structure ForwardsAlike (t : HeaderTransform) (headers : List (String × String)) : Prop where
  http1 : ∀ pass, sharedHeaders (lib.http1Headers t pass headers) = forwardedHeaders lib t headers
  http2 : sharedHeaders (lib.http2Headers t headers) = forwardedHeaders lib t headers
  unix : ∀ pass, sharedHeaders (lib.unixHeaders t pass headers) = forwardedHeaders lib t headers

theorem ne_of_shared {n own : String} (h : n ∉ ownNames) (hown : own ∈ ownNames) :
    (n == own) = false := by
  rw [beq_eq_false_iff_ne]
  rintro rfl
  exact h hown

theorem stripsName_shared {n own : String} (hlower : toAsciiLowercase n = n) (h : n ∉ ownNames)
    (hown : own ∈ ownNames) :
    stripsName own n = (hopByHopCore.contains n || startsWith n websocketPrefix) := by
  rw [stripsName, hlower, ne_of_shared h hown, Bool.or_false]

theorem unixStrips_shared {n : String} (h : n ∉ ownNames) :
    unixStrips n = (hopByHopCore.contains n || startsWith n websocketPrefix) := by
  have htrailer : n ≠ "trailer" := by
    rintro rfl
    exact h (by decide)
  simp [unixStrips, hopByHopCore, websocketPrefix, htrailer]

theorem headers_alike (t : HeaderTransform) (headers : List (String × String)) :
    ForwardsAlike lib t headers where
  http1 pass := by
    refine shared_loop lib ?_ (fun n hlower hn => stripsName_shared hlower hn (by decide))
      (fun n v hn => ne_of_shared hn (by decide)) _
    intro h hmem
    obtain ⟨host, -, rfl⟩ := Option.map_eq_some_iff.mp (Option.mem_toList.mp hmem)
    exact List.mem_cons_self
  http2 := by
    rw [HeaderText.http2Headers, ← List.append_nil (lib.loop _ _ _)]
    refine shared_loop lib (fun _ hmem => absurd hmem List.not_mem_nil)
      (fun n hlower hn => stripsName_shared hlower hn (by decide)) (fun n v hn => ?_) _
    rw [ne_of_shared hn (by decide), Bool.false_and]
  unix pass := by
    have hown : ∀ host : String, ∀ h ∈ (if lib.validValue host then [("host", host)] else []),
        h.1 ∈ ownNames := by
      intro host h hmem
      split at hmem
      · rw [List.mem_singleton.mp hmem]
        exact List.mem_cons_self
      · exact absurd hmem List.not_mem_nil
    exact shared_loop lib (hown _) (fun n _ hn => unixStrips_shared hn)
      (fun n v hn => ne_of_shared hn (by decide)) _

/-- Every kind of target sees the same request, whatever the bind and whatever
the headers. -/
structure SameRequest (parser : UrlParser) (lib : HeaderText) (uri : RequestUri) : Prop where
  paths : ∀ ctx target, PlainTarget ctx target → SentAlike parser ctx uri.text
  headers : ∀ t headers, ForwardsAlike lib t headers

/-- **Every kind of target sees the same request** exactly when its URI is in
origin form and of characters a URL writes as they stand. -/
theorem same_request_iff (reader : UriReader) (lib : HeaderText) (uri : RequestUri)
    (hdots : NoDots true uri.path.toList) :
    SameRequest reader.toUrlParser lib uri ↔ uri.Verbatim := by
  constructor
  · intro h
    exact verbatim_of_sentAlike hdots (h.paths rootContext rootTarget rootContext_plain)
  · intro h
    exact ⟨fun ctx target hplain => sentAlike_of_verbatim hdots h hplain, headers_alike lib⟩

/-! ## A visitor over HTTP/2 -/

/-- `Url::parse` of URLs with an authority. -/
def readUrl (text : String) : Option ParsedUri :=
  ((stripPrefix text "http://").or (stripPrefix text "https://")).map fun rest =>
    let tail := rest.toList.dropWhile fun c => !(authorityEnds.contains c)
    let raw := tail.takeWhile fun c => c != '?' && c != '#'
    let query := (tail.drop raw.length).takeWhile (· != '#')
    { path := String.ofList (serializePath (UrlPath.parse true raw).segments)
      query := if query = [] then none else some (encodeQuery (String.ofList (query.drop 1))) }

theorem scheme_stripped {scheme rest : String} (h : scheme = "http" ∨ scheme = "https") :
    (stripPrefix (scheme ++ "://" ++ rest) "http://").or
      (stripPrefix (scheme ++ "://" ++ rest) "https://") = some rest := by
  rcases h with rfl | rfl
  · have hsome : stripPrefix ("http" ++ "://" ++ rest) "http://" = some rest := by
      rw [stripPrefix_eq_some, String.toList_append]
      rfl
    rw [hsome, Option.some_or]
  · have hnone : stripPrefix ("https" ++ "://" ++ rest) "http://" = none := by
      rw [Option.eq_none_iff_forall_ne_some]
      intro r hr
      have hlist := stripPrefix_eq_some.mp hr
      rw [String.toList_append] at hlist
      have hfifth := congrArg (·[4]?) hlist
      exact absurd hfifth (by simp)
    rw [hnone, Option.none_or, stripPrefix_eq_some, String.toList_append]
    rfl

theorem readUrl_text {scheme authority path : String} {query : Option String}
    (hscheme : scheme = "http" ∨ scheme = "https")
    (hauthority : ∀ c ∈ authority.toList, c ∉ authorityEnds)
    (hpath : startsWith path "/" = true) (hchars : ∀ c ∈ path.toList, uriChar c = true ∧ c ≠ '?')
    (hquery : ∀ q, query = some q → ∀ c ∈ q.toList, uriChar c = true) :
    readUrl (scheme ++ "://" ++ (authority ++ (path ++ queryText query))) =
      some ⟨String.ofList (serializePath (UrlPath.parse true path.toList).segments),
        query.map encodeQuery⟩ := by
  obtain ⟨rest, hrest⟩ := startsWith_iff.mp hpath
  have htail : (authority ++ (path ++ queryText query)).toList.dropWhile
      (fun c => !(authorityEnds.contains c)) = path.toList ++ (queryText query).toList := by
    rw [String.toList_append, List.dropWhile_append_of_pos, String.toList_append, ← hrest]
    · exact List.dropWhile_cons_of_neg (by decide)
    · intro c hc
      simpa using hauthority c hc
  have hpass : ∀ c ∈ path.toList, (c != '?' && c != '#') = true := by
    intro c hc
    obtain ⟨huri, hquestion⟩ := hchars c hc
    rw [uriChar, Bool.and_eq_true] at huri
    rw [Bool.and_eq_true, bne_iff_ne]
    exact ⟨hquestion, huri.2⟩
  have hraw : (path.toList ++ (queryText query).toList).takeWhile
      (fun c => c != '?' && c != '#') = path.toList := by
    rw [List.takeWhile_append_of_pos hpass]
    cases query with
    | none => exact List.append_nil _
    | some q =>
        rw [queryText, String.toList_append]
        exact List.append_nil _
  have hkept : (queryText query).toList.takeWhile (· != '#') = (queryText query).toList := by
    rw [List.takeWhile_eq_self_iff]
    intro c hc
    cases query with
    | none => exact absurd hc List.not_mem_nil
    | some q =>
        rw [queryText, String.toList_append] at hc
        rcases List.mem_append.mp hc with hc | hc
        · rw [List.mem_singleton.mp hc]
          decide
        · exact (Bool.and_eq_true_iff.mp (hquery q rfl c hc)).2
  rw [readUrl, scheme_stripped hscheme, Option.map_some]
  dsimp only
  rw [htail, hraw, List.drop_left, hkept]
  cases query with
  | none => rfl
  | some q =>
      have hlist : (queryText (some q)).toList = '?' :: q.toList := by
        rw [queryText, String.toList_append]
        rfl
      rw [hlist, if_neg (List.cons_ne_nil _ _), List.drop_one, List.tail_cons,
        String.ofList_toList, Option.map_some]

def urlReader : UriReader where
  parse := readUrl
  http rest uri h := by
    obtain ⟨text, -, rfl⟩ := Option.map_eq_some_iff.mp h
    exact ⟨_, rfl⟩
  absolute uri site incoming hsite h := by
    rw [RequestUri.text_of_site hsite, UriSite.text, String.append_assoc, String.append_assoc,
      readUrl_text site.known site.plain uri.rooted uri.pathChars uri.queryChars] at h
    rw [← Option.some.inj h]
  localhost uri horigin := by
    have hplain : ∀ c ∈ "localhost".toList, c ∉ authorityEnds :=
      List.forall_iff_forall_mem.mp (by decide)
    have htext : "http://localhost" = "http" ++ "://" ++ "localhost" := by decide
    rw [RequestUri.text_of_origin horigin, htext, String.append_assoc]
    exact readUrl_text (Or.inl rfl) hplain uri.rooted uri.pathChars uri.queryChars

/-- Names and values of printable characters. -/
def asciiText : HeaderText where
  toLowercase := toAsciiLowercase
  validName name := name ≠ "" && name.toList.all fun c => isAsciiAlphanumeric c || c == '-'
  validValue value := value.toList.all fun c => decide (0x20 ≤ c.toNat ∧ c.toNat < 0x7F)
  ascii _ _ := rfl

/-- `/a?b=c`. -/
def pageUri : RequestUri where
  path := "/a"
  query := some "b=c"
  rooted := by decide
  pathChars := List.forall_iff_forall_mem.mp (by decide)
  queryChars q h := by
    rw [← Option.some.inj h]
    exact List.forall_iff_forall_mem.mp (by decide)

/-- The same page, as a visitor over HTTP/2 asks for it. -/
def absoluteUri : RequestUri where
  site := some ⟨"http", "app.test", Or.inl rfl, List.forall_iff_forall_mem.mp (by decide)⟩
  path := "/a"
  query := some "b=c"
  rooted := by decide
  pathChars := List.forall_iff_forall_mem.mp (by decide)
  queryChars q h := by
    rw [← Option.some.inj h]
    exact List.forall_iff_forall_mem.mp (by decide)

theorem pageUri_verbatim : pageUri.Verbatim where
  origin := rfl
  path := List.forall_iff_forall_mem.mp (by decide)
  query q h := by
    rw [← Option.some.inj h]
    exact List.forall_iff_forall_mem.mp (by decide)

theorem same_request_page : SameRequest urlReader.toUrlParser asciiText pageUri :=
  (same_request_iff urlReader asciiText pageUri (by unfold NoDots; decide)).mpr pageUri_verbatim

/-- Over HTTP/2 the page is asked of an HTTP target as `/a`, of a socket as
`/http://app.test/a`, and of a WebSocket backend as `/app.test/a`. -/
theorem absolute_uri_misread :
    (buildDestUrl urlReader.toUrlParser rootContext absoluteUri.text).toOption.map
        Url.requestTarget = some "/a?b=c" ∧
      buildOriginUri rootContext absoluteUri.text = "/http://app.test/a?b=c" ∧
      (upgradeDestUrl urlReader.toUrlParser rootContext absoluteUri.text).toOption.map
        Url.requestTarget = some "/app.test/a?b=c" ∧
      ¬SameRequest urlReader.toUrlParser asciiText absoluteUri := by
  have hbuilt : (buildDestUrl urlReader.toUrlParser rootContext absoluteUri.text).toOption.map
      Url.requestTarget = some "/a?b=c" := by decide +kernel
  have hunix : buildOriginUri rootContext absoluteUri.text = "/http://app.test/a?b=c" := by
    decide +kernel
  refine ⟨hbuilt, hunix, by decide +kernel, fun h => ?_⟩
  have hsent := (h.paths rootContext rootTarget rootContext_plain).unix
  rw [hbuilt, hunix] at hsent
  exact absurd hsent (by decide)

end Aperio
