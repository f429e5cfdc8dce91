import Aperio.UrlPath

/-!
# The backend's URL

`build_dest_url` of the client, for proxied requests, and the mapping of its
own an upgrade makes in `handle_upgrade_request`: the visitor's path, without
the path bind, is put behind the target's base path, and the URL library takes
the dot segments out when the path is set.

An upgrade parses the visitor's URI first, so that no dot segment is left when
the two are joined. A request in origin form is only cut at the query: its
`..` segments are taken out against the base. `staysUnder_iff` says when the
request stays under the base all the same.
-/

namespace Aperio

/-- A parsed URL with a path of segments. The scheme is special or not, and
stays so. -/
structure Url (special : Bool) where
  scheme : String
  host : Option String
  port : Option Nat
  path : UrlPath special
  query : Option String := none

namespace Url

variable {special : Bool}

/-- `Url::path`. -/
def pathText (url : Url special) : String :=
  String.ofList (serializePath url.path.segments)

/-- `Url::set_path`, for a text that starts with a slash. -/
def setPath (url : Url special) (text : String) : Url special :=
  { url with path := UrlPath.parse special text.toList }

theorem setPath_segments (url : Url special) (text : String) :
    (url.setPath text).path.segments = parsePath special text.toList := rfl

/-- `Url::set_query`, before the query's own encoding. -/
def setQuery (url : Url special) (query : Option String) : Url special :=
  { url with query := query }

/-- Another scheme, host or port. -/
def diverges (dest target : Url special) : Bool :=
  dest.scheme != target.scheme || dest.host != target.host || dest.port != target.port

theorem diverges_set (target : Url special) (text : String) (query : Option String) :
    ((target.setPath text).setQuery query).diverges target = false := by
  simp [diverges, setPath, setQuery]

end Url

/-- What is used of a visitor's URI that is parsed. -/
structure ParsedUri where
  path : String
  query : Option String
deriving Repr, DecidableEq

/-- `Url::parse`, which leaves an `http` URL a normal path. -/
structure UrlParser where
  parse : String → Option ParsedUri
  http : ∀ rest uri, parse ("http://" ++ rest) = some uri →
    ∃ path : UrlPath true, uri.path = String.ofList (serializePath path.segments)

/-- What the mapping reads of `ForwardContext`. -/
structure ForwardContext (special : Bool) where
  target : String
  targetUrl : Option (Url special)
  pathBind : Option String := none
  trimBind : Bool := false

/-! ## The mapping -/

/-- The path without the bind, cut at a segment's end. -/
def cutBind (trimBind : Bool) (pathBind : Option String) (incoming : String) : String :=
  match pathBind.filter fun _ => trimBind with
  | none => incoming
  | some bind =>
    match stripPrefix incoming (trimStartMatches (trimEndMatches bind '/') '/') with
    | some rest =>
      if rest = "" ∨ startsWith rest "/" then trimStartMatches rest '/' else incoming
    | none => incoming

def combinedPath (targetPath incoming : String) : String :=
  if targetPath = "" then "/" ++ incoming else targetPath ++ "/" ++ incoming

/-- The path and the query of a request's URI: origin form as it is written,
anything else parsed. -/
def incomingUri (parser : UrlParser) (uri : String) : Option ParsedUri :=
  let uri := if uri = "" then "/" else uri
  if startsWith uri "/" then
    match splitOnce uri '?' with
    | some (path, query) => some ⟨path, some query⟩
    | none => some ⟨uri, none⟩
  else parser.parse uri

section

variable {special : Bool}

/-- The path both mappings set. -/
def destPath (ctx : ForwardContext special) (target : Url special) (path : String) : String :=
  combinedPath (trimEndMatches target.pathText '/')
    (cutBind ctx.trimBind ctx.pathBind (trimStartMatches path '/'))

def buildDestUrl (parser : UrlParser) (ctx : ForwardContext special) (uri : String) :
    Except Nat (Url special) :=
  match ctx.targetUrl with
  | none => .error 502
  | some target =>
    match incomingUri parser uri with
    | none => .error 400
    | some incoming =>
      let dest := (target.setPath (destPath ctx target incoming.path)).setQuery incoming.query
      if dest.diverges target then .error 400 else .ok dest

/-- The URL `handle_upgrade_request` connects to. A scheme that is not special
cannot be set to one that is. -/
def upgradeDestUrl (parser : UrlParser) (ctx : ForwardContext special) (uri : String) :
    Except Nat (Url special) :=
  if startsWith ctx.target "unix://" then .error 502
  else
    match ctx.targetUrl with
    | none => .error 502
    | some target =>
      match parser.parse ("http://localhost" ++ uri) with
      | none => .error 400
      | some incoming =>
        let scheme :=
          if special then if target.scheme = "https" then "wss" else "ws" else target.scheme
        .ok (({ target with scheme := scheme }.setPath
          (destPath ctx target incoming.path)).setQuery incoming.query)

/-! ## Under the base -/

/-- The base path, without its final slashes. -/
def Url.base (target : Url special) : List Segment :=
  target.path.segments.rdropWhile List.isEmpty

/-- Whatever is asked of the backend is the base or under it. -/
structure StaysUnder (parser : UrlParser) (ctx : ForwardContext special) (uri : String) :
    Prop where
  request : ∀ target dest, ctx.targetUrl = some target → buildDestUrl parser ctx uri = .ok dest →
    target.base <+: dest.path.segments
  upgrade : ∀ target dest, ctx.targetUrl = some target →
    upgradeDestUrl parser ctx uri = .ok dest → target.base <+: dest.path.segments

/-- What is left of a request's path without the bind goes no higher than the
base, or comes down again by the names of the base it went up from. -/
def ComesBack (parser : UrlParser) (ctx : ForwardContext special) (uri : String) : Prop :=
  ∀ target incoming, ctx.targetUrl = some target → incomingUri parser uri = some incoming →
    let way := relative (pathSegments special
      (cutBind ctx.trimBind ctx.pathBind (trimStartMatches incoming.path '/')).toList)
    target.base.drop (target.base.length - way.1) <+: way.2

end

variable {special : Bool} {parser : UrlParser} {ctx : ForwardContext special}
  {target : Url special} {uri path : String}

/-! ## The text that is set -/

theorem serializePath_concat (path : List Segment) (seg : Segment) :
    serializePath (path ++ [seg]) = serializePath path ++ '/' :: seg := by
  simp [serializePath]

theorem rdropWhile_serializePath {path : List Segment}
    (h : ∀ seg ∈ path, PlainSegment special seg) :
    (serializePath path).rdropWhile (· == '/') =
      serializePath (path.rdropWhile List.isEmpty) := by
  induction path using List.reverseRecOn with
  | nil => rfl
  | append_singleton path seg ih =>
      obtain ⟨hpath, hseg⟩ := List.forall_mem_append.mp h
      rw [serializePath_concat]
      rcases List.eq_nil_or_concat seg with rfl | ⟨front, c, rfl⟩
      · rw [List.rdropWhile_concat_pos _ _ _ rfl, List.rdropWhile_concat_pos _ _ _ rfl, ih hpath]
      · rw [List.concat_eq_append] at hseg ⊢
        have hc : ¬(c == '/') = true := by
          intro hslash
          have hno := (hseg _ (List.mem_singleton_self _)).noSlash c (by simp)
          rw [isSlash, hslash] at hno
          cases hno
        have hfront : ¬(front ++ [c]).isEmpty = true := by simp
        rw [← List.cons_append, ← List.append_assoc,
          List.rdropWhile_concat_neg (fun x => x == '/') _ c hc,
          List.rdropWhile_concat_neg _ _ _ hfront, serializePath_concat]
        simp

theorem base_plain : ∀ seg ∈ target.base, NormalSegment special seg := by
  intro seg hseg
  exact target.path.normal seg ((List.rdropWhile_prefix _ _).subset hseg)

theorem combinedPath_toList (base incoming : String) :
    (combinedPath base incoming).toList = base.toList ++ '/' :: incoming.toList := by
  unfold combinedPath
  split
  · rename_i hempty
    rw [hempty]
    simp
  · simp

/-- The text that is set is the base and what is left of the path. -/
theorem destPath_eq : (destPath ctx target path).toList = serializePath target.base ++
    '/' :: (cutBind ctx.trimBind ctx.pathBind (trimStartMatches path '/')).toList := by
  have hbase : (trimEndMatches target.pathText '/').toList = serializePath target.base := by
    rw [trimEndMatches, String.toList_ofList, Url.pathText, String.toList_ofList,
      rdropWhile_serializePath fun seg hseg => (target.path.normal seg hseg).toPlainSegment]
    rfl
  rw [destPath, combinedPath_toList, hbase]

/-- Where a request is sent: from the base along what is left of the path. -/
theorem destPath_segments : (target.setPath (destPath ctx target path)).path.segments =
    pushSegments target.base (pathSegments special
      (cutBind ctx.trimBind ctx.pathBind (trimStartMatches path '/')).toList) := by
  rw [Url.setPath_segments, destPath_eq, parsePath_serialize base_plain]

/-! ## Parsed paths have no dot segments -/

/-- A text without dot segments. -/
def NoDots (special : Bool) (text : List Char) : Prop :=
  ∀ seg ∈ pathSegments special text, isSingleDot seg = false ∧ isDoubleDot seg = false

theorem noDots_nil : NoDots special [] := by
  intro seg hseg
  rw [List.mem_singleton.mp hseg]
  exact ⟨by decide, by decide⟩

theorem NoDots.after_slash {front rest : List Char} (h : NoDots special (front ++ '/' :: rest)) :
    NoDots special rest := by
  intro seg hseg
  refine h seg ?_
  rw [pathSegments_append_slash]
  exact List.mem_append_right _ hseg

theorem NoDots.dropWhile {text : List Char} (h : NoDots special text) :
    NoDots special (text.dropWhile (· == '/')) := by
  induction text with
  | nil => exact h
  | cons c rest ih =>
      rw [List.dropWhile_cons]
      split
      · rename_i hslash
        rw [beq_iff_eq.mp hslash] at h
        exact ih (@NoDots.after_slash special [] rest h)
      · exact h

theorem NoDots.cutBind {text : String} (h : NoDots special text.toList) :
    NoDots special (cutBind ctx.trimBind ctx.pathBind text).toList := by
  unfold Aperio.cutBind
  split
  · exact h
  · split
    · rename_i rest hstrip
      split
      · rename_i hend
        rw [trimStartMatches, String.toList_ofList]
        rw [stripPrefix_eq_some.mp hstrip] at h
        rcases hend with rfl | hslash
        · exact noDots_nil
        · obtain ⟨more, hmore⟩ := startsWith_iff.mp hslash
          have hrest : rest.toList = '/' :: more := hmore.symm
          rw [hrest] at h ⊢
          rw [List.dropWhile_cons_of_pos rfl]
          exact (NoDots.after_slash h).dropWhile
      · exact h
    · exact h

theorem pathSegments_serializePath {seg : Segment} {path : List Segment}
    (hseg : PlainSegment special seg) (h : ∀ s ∈ path, PlainSegment special s) :
    pathSegments special (seg ++ serializePath path) = seg :: path := by
  induction path generalizing seg with
  | nil => rw [serializePath, List.flatMap_nil, List.append_nil, pathSegments_of_plain hseg]
  | cons next path ih =>
      obtain ⟨hnext, hpath⟩ := List.forall_mem_cons.mp h
      have htext : seg ++ serializePath (next :: path) =
          seg ++ '/' :: (next ++ serializePath path) := by
        simp [serializePath]
      rw [htext, pathSegments_append_slash, pathSegments_of_plain hseg, ih hnext hpath]
      rfl

/-- The path of a parsed URL, under any reading of the backslash. -/
theorem noDots_serializePath (path : UrlPath true) :
    NoDots special (serializePath path.segments) := by
  have hplain : ∀ seg ∈ path.segments, PlainSegment special seg := by
    intro seg hseg
    obtain ⟨⟨hslash, htab, hencoded⟩, -, -⟩ := path.normal seg hseg
    exact ⟨fun c hc => isSlash_of_special (hslash c hc), htab, hencoded⟩
  have hsegs := pathSegments_serializePath NormalSegment.nil.toPlainSegment hplain
  rw [List.nil_append] at hsegs
  intro seg hseg
  rw [hsegs] at hseg
  rcases List.mem_cons.mp hseg with rfl | hseg
  · exact ⟨by decide, by decide⟩
  · exact ⟨(path.normal seg hseg).notSingle, (path.normal seg hseg).notDouble⟩

/-- **An upgrade stays under the base.** -/
theorem upgrade_staysUnder {dest : Url special} (htarget : ctx.targetUrl = some target)
    (h : upgradeDestUrl parser ctx uri = .ok dest) : target.base <+: dest.path.segments := by
  simp only [upgradeDestUrl, htarget] at h
  split at h
  · cases h
  · split at h
    · cases h
    · rename_i incoming hparse
      have htext : "http://localhost" ++ uri = "http://" ++ ("localhost" ++ uri) := by
        rw [← String.append_assoc]
        rfl
      rw [htext] at hparse
      obtain ⟨path, hpath⟩ := parser.http _ incoming hparse
      have hdots : NoDots special (cutBind ctx.trimBind ctx.pathBind
          (trimStartMatches incoming.path '/')).toList := by
        refine NoDots.cutBind ?_
        rw [hpath, trimStartMatches, String.toList_ofList, String.toList_ofList]
        exact (noDots_serializePath path).dropWhile
      cases h
      change target.base <+: (target.setPath (destPath ctx target incoming.path)).path.segments
      rw [destPath_segments, pushSegments_of_normal hdots]
      exact List.prefix_append _ _

/-- **A request stays under the base** exactly when its path, without the
bind, comes back to it; an upgrade always does. -/
theorem staysUnder_iff : StaysUnder parser ctx uri ↔ ComesBack parser ctx uri := by
  have hbuild {target : Url special} {incoming : ParsedUri} (htarget : ctx.targetUrl = some target)
      (hincoming : incomingUri parser uri = some incoming) : buildDestUrl parser ctx uri =
        .ok ((target.setPath (destPath ctx target incoming.path)).setQuery incoming.query) := by
    simp only [buildDestUrl, htarget, hincoming, Url.diverges_set, Bool.false_eq_true, if_false]
  constructor
  · intro h target incoming htarget hincoming
    have hunder := h.request target _ htarget (hbuild htarget hincoming)
    change target.base <+: (target.setPath (destPath ctx target incoming.path)).path.segments
      at hunder
    rw [destPath_segments, prefix_pushSegments_iff] at hunder
    exact hunder
  · intro h
    refine ⟨?_, fun target dest htarget hdest => upgrade_staysUnder htarget hdest⟩
    intro target dest htarget hdest
    cases hincoming : incomingUri parser uri with
    | none =>
        simp only [buildDestUrl, htarget, hincoming] at hdest
        cases hdest
    | some incoming =>
        rw [hbuild htarget hincoming] at hdest
        cases hdest
        change target.base <+: (target.setPath (destPath ctx target incoming.path)).path.segments
        rw [destPath_segments, prefix_pushSegments_iff]
        exact h target incoming htarget hincoming


/-! ## A base that is left -/

/-- `http://127.0.0.1:9000/app`. -/
def appTarget : Url true where
  scheme := "http"
  host := some "127.0.0.1"
  port := some 9000
  path := UrlPath.parse true "/app".toList

def appContext : ForwardContext true where
  target := "http://127.0.0.1:9000/app"
  targetUrl := some appTarget

/-- `Url::parse` on the loopback origin. -/
def localParser : UrlParser where
  parse text :=
    (stripPrefix text "http://localhost").map fun rest =>
      let raw := rest.toList.takeWhile fun c => c != '?' && c != '#'
      let query := (rest.toList.drop raw.length).takeWhile (· != '#')
      { path := String.ofList (serializePath (UrlPath.parse true raw).segments)
        query := if query = [] then none else some (String.ofList (query.drop 1)) }
  http rest uri h := by
    obtain ⟨text, -, rfl⟩ := Option.map_eq_some_iff.mp h
    exact ⟨_, rfl⟩

/-- A request for `/../admin` is sent to `/admin`, outside `/app`; so is one
with the dots escaped, and an upgrade is not. -/
theorem dots_leave_base :
    ((buildDestUrl localParser appContext "/../admin").toOption.map (·.pathText)) =
      some "/admin" ∧
    ((buildDestUrl localParser appContext "/%2e%2E/admin").toOption.map (·.pathText)) =
      some "/admin" ∧
    ((upgradeDestUrl localParser appContext "/../admin").toOption.map (·.pathText)) =
      some "/app/admin" ∧
    ¬StaysUnder localParser appContext "/../admin" := by
  refine ⟨by decide, by decide, by decide, ?_⟩
  intro h
  have hunder := h.request appTarget _ rfl rfl
  exact absurd hunder (by decide)

end Aperio
