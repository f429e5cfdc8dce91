import Aperio.Binds
import Aperio.CacheControl
import Aperio.FileTree

/-!
# Static serving

`serve.rs` of the client: a loopback HTTP server over a directory. A request
path is decoded and put under the root name by name, without `..`; the path
that gives is canonicalized and has to stay under the root. What is opened
afterwards is that file, or the `index.html` of that directory, or, for the
single-page fallback, the `index.html` of the root.

The last two are named after the check has been made. `servesInside_iff` says
when every file a path is answered with is under the root all the same.
-/

namespace Aperio

/-! ## Requests and answers -/

structure ServeOptions where
  spa : Bool := false
  notFoundHtml : Option (List UInt8) := none
deriving Repr, DecidableEq

/-- What is read of a request; a header that is not readable is not there. -/
structure ServeRequest where
  method : String := "GET"
  path : String
  ifNoneMatch : Option String := none
  ifRange : Option String := none
  range : Option String := none
  accept : Option String := none
deriving Repr, DecidableEq

/-- A body in memory, or so many bytes of a file from a place on. -/
inductive ServeBody where
  | buffered (bytes : List UInt8)
  | fileStream (location : Location) (start len : Nat)
deriving Repr, DecidableEq

structure ServeAnswer where
  status : Nat
  headers : List (String × String)
  body : ServeBody
deriving Repr, DecidableEq

def simple (status : Nat) (msg : String) : ServeAnswer where
  status := status
  headers := [("content-type", "text/plain; charset=utf-8")]
  body := .buffered (utf8Bytes msg)

/-! ## Validators and ranges -/

/-- `{:x}`. -/
def lowerHex (n : Nat) : String :=
  String.ofList (Nat.toDigits 16 n)

def fileEtag (modified : Option Nat) (len : Nat) : Option String :=
  modified.map fun secs => "\"" ++ lowerHex secs ++ "-" ++ lowerHex len ++ "\""

def ifNoneMatchHits (header : Option String) (etag : String) : Bool :=
  match header with
  | none => false
  | some raw =>
    trim raw == "*" || (split (trim raw) ',').any fun candidate =>
      let candidate := trim candidate
      (stripPrefix candidate "W/").getD candidate == etag

def notModified (etag : String) : ServeAnswer where
  status := 304
  headers := [("etag", etag)]
  body := .buffered []

def etagHeader (etag : Option String) : List (String × String) :=
  (etag.map fun tag => ("etag", tag)).toList

inductive RangeOutcome where
  | satisfiable (start last : Nat)
  | unsatisfiable
  | ignore
deriving Repr, DecidableEq

def parseRange (raw : String) (len : Nat) : RangeOutcome :=
  match stripPrefix (trim raw) "bytes=" with
  | none => .ignore
  | some spec =>
    if spec.toList.contains ',' then .ignore
    else
      match splitOnce (trim spec) '-' with
      | none => .ignore
      | some (start, last) =>
        let start := trim start
        let last := trim last
        if start = "" ∧ last = "" then .ignore
        else if start = "" then
          match parseU64 last with
          | none => .ignore
          | some count =>
            if count = 0 ∨ len = 0 then .unsatisfiable
            else .satisfiable (len - count) (len - 1)
        else if last = "" then
          match parseU64 start with
          | none => .ignore
          | some start => if start < len then .satisfiable start (len - 1) else .unsatisfiable
        else
          match parseU64 start, parseU64 last with
          | some start, some last =>
            if last < start then .ignore
            else if len ≤ start then .unsatisfiable
            else .satisfiable start (min last (len - 1))
          | _, _ => .ignore

/-- `If-Range` names the validator, or is not there. -/
def rangeUsable (ifRange etag : Option String) : Bool :=
  match ifRange, etag with
  | none, _ => true
  | some given, some tag => trim given == tag
  | some _, none => false

def serveFile (location : Location) (len : Nat) (mime : String) (etag : Option String)
    (req : ServeRequest) : ServeAnswer :=
  let whole : ServeAnswer :=
    { status := 200
      headers := [("content-type", mime), ("content-length", toString len),
        ("accept-ranges", "bytes")] ++ etagHeader etag
      body := .fileStream location 0 len }
  match req.range.filter fun _ => rangeUsable req.ifRange etag with
  | none => whole
  | some raw =>
    match parseRange raw len with
    | .ignore => whole
    | .unsatisfiable =>
      { status := 416
        headers := [("content-range", "bytes */" ++ toString len)]
        body := .buffered [] }
    | .satisfiable start last =>
      let span := last - start + 1
      { status := 206
        headers := [("content-type", mime), ("content-length", toString span),
          ("content-range", "bytes " ++ toString start ++ "-" ++ toString last ++ "/" ++
            toString len), ("accept-ranges", "bytes")] ++ etagHeader etag
        body := .fileStream location start span }

/-! ## From a path to a file -/

section

variable (t : FileTree) (root : Location)

/-- The names a decoded path adds to the root; none with a traversal segment
or anything special. -/
def requestNames : List String → Option (List String)
  | [] => some []
  | segment :: rest =>
    if segment = "" ∨ segment = "." then requestNames rest
    else if segment = ".." ∨ segment.toList.contains '\\' ∨ segment.toList.contains ':' then none
    else (requestNames rest).map (segment :: ·)

def serveDecode (s : String) : String :=
  fromUtf8Lossy (percentDecodeBytes (utf8Bytes s))

/-- Where a request path leads, when that is under the root. -/
def resolveCanonical (uriPath : String) : Option Location :=
  (requestNames (split (serveDecode uriPath) '/')).bind fun names =>
    (t.canonicalize (root ++ names)).filter root.isPrefixOf

/-- The path `handle` opens. -/
def resolve (uriPath : String) : Option Location :=
  (resolveCanonical t root uriPath).bind fun canonical =>
    match t.metadata canonical with
    | some .dir =>
      match t.metadata (canonical ++ ["index.html"]) with
      | some (.file ..) => some (canonical ++ ["index.html"])
      | _ => none
    | some (.file ..) => some canonical
    | _ => none

def wantsHtml (req : ServeRequest) : Bool :=
  req.accept.any (containsText · "text/html")

/-- The answer about nothing: the custom page, or a line of text. -/
def notFoundPage (opts : ServeOptions) (headOnly : Bool) : ServeAnswer :=
  match opts.notFoundHtml with
  | some html =>
    { status := 404
      headers := [("content-type", "text/html; charset=utf-8")]
      body := .buffered (if headOnly then [] else html) }
  | none => simple 404 "not found"

def notFound (opts : ServeOptions) (req : ServeRequest) (headOnly : Bool) : ServeAnswer :=
  if opts.spa && wantsHtml req then
    match t.openFile (root ++ ["index.html"]) with
    | some (location, contents, _) =>
      { status := 200
        headers := [("content-type", "text/html; charset=utf-8"),
          ("content-length", toString contents.length)]
        body := if headOnly then .buffered [] else .fileStream location 0 contents.length }
    | none => notFoundPage opts headOnly
  else notFoundPage opts headOnly

/-- The answer about a file that is there, or none. `mime` guesses a content
type from the path. -/
def answerFrom (mime : Location → String) (req : ServeRequest) (headOnly : Bool)
    (path : Location) : Option ServeAnswer :=
  if headOnly then
    match t.metadata path with
    | some (.file contents modified _) =>
      let etag := fileEtag modified contents.length
      match etag.filter (ifNoneMatchHits req.ifNoneMatch) with
      | some tag => some (notModified tag)
      | none =>
        some
          { status := 200
            headers := [("content-type", mime path),
              ("content-length", toString contents.length), ("accept-ranges", "bytes")] ++
                etagHeader etag
            body := .buffered [] }
    | _ => none
  else
    match t.openFile path with
    | some (location, contents, modified) =>
      let etag := fileEtag modified contents.length
      match etag.filter (ifNoneMatchHits req.ifNoneMatch) with
      | some tag => some (notModified tag)
      | none => some (serveFile location contents.length (mime path) etag req)
    | none => none

def handle (mime : Location → String) (opts : ServeOptions) (req : ServeRequest) : ServeAnswer :=
  let headOnly := req.method == "HEAD"
  if req.method ≠ "GET" ∧ !headOnly then simple 405 "method not allowed"
  else
    match (resolve t root req.path).bind (answerFrom t mime req headOnly) with
    | some answer => answer
    | none => notFound t root opts req headOnly

/-- `start`: the directory that is served. -/
def servedRoot (dir : List String) : Option Location :=
  (t.canonicalize dir).filter fun root => t.node root == some .dir

/-! ## What a path leads to -/

/-- The path names this location under the root. -/
def LeadsTo (uriPath : String) (loc : Location) : Prop :=
  ∃ names, requestNames (split (serveDecode uriPath) '/') = some names ∧
    t.canonicalize (root ++ names) = some loc ∧ root <+: loc

/-- A readable file there, or the readable index of a directory there. -/
def Opens (uriPath : String) (file : Location × List UInt8 × Option Nat) : Prop :=
  ∃ loc, LeadsTo t root uriPath loc ∧
    (t.openFile loc = some file ∨
      t.node loc = some .dir ∧ t.openFile (loc ++ ["index.html"]) = some file)

/-- Whatever is asked about the path, the file whose bytes are the answer is
under the root. -/
def ServesInside (mime : Location → String) (opts : ServeOptions) (uriPath : String) : Prop :=
  ∀ req : ServeRequest, req.path = uriPath → ∀ loc start len,
    (handle t root mime opts req).body = .fileStream loc start len → root <+: loc

/-- The index files a path can be answered with are under the root. -/
structure IndexesInside (opts : ServeOptions) (uriPath : String) : Prop where
  directory : ∀ loc, LeadsTo t root uriPath loc → t.node loc = some .dir →
    ∀ file, t.openFile (loc ++ ["index.html"]) = some file → root <+: file.1
  fallback : opts.spa = true → (∀ file, ¬Opens t root uriPath file) →
    ∀ file, t.openFile (root ++ ["index.html"]) = some file → root <+: file.1

end

variable {t : FileTree} {root : Location} {mime : Location → String} {opts : ServeOptions}
  {req : ServeRequest} {uriPath : String} {file : Location × List UInt8 × Option Nat}

theorem resolveCanonical_eq_some {loc : Location} :
    resolveCanonical t root uriPath = some loc ↔ LeadsTo t root uriPath loc := by
  rw [resolveCanonical, Option.bind_eq_some_iff]
  simp only [Option.filter_eq_some_iff, List.isPrefixOf_iff_prefix]
  rfl

/-- Where a path leads, nothing is left to follow. -/
theorem LeadsTo.canonical {loc : Location} (h : LeadsTo t root uriPath loc) :
    t.canonicalize loc = some loc := by
  obtain ⟨_, -, hcanonical, -⟩ := h
  exact FileTree.canonicalize_idem hcanonical

theorem LeadsTo.metadata_eq {loc : Location} (h : LeadsTo t root uriPath loc) :
    t.metadata loc = t.node loc := by
  rw [FileTree.metadata, h.canonical, Option.bind_some]

theorem metadata_of_openFile {names : List String} (h : t.openFile names = some file) :
    t.metadata names = some (.file file.2.1 file.2.2 true) := by
  obtain ⟨hloc, hnode⟩ := FileTree.openFile_eq_some.mp h
  rw [FileTree.metadata, hloc, Option.bind_some, hnode]

/-- What `resolve` finds and opens is what the path leads to. -/
theorem resolve_opens :
    (resolve t root uriPath).bind t.openFile = some file ↔ Opens t root uriPath file := by
  constructor
  · intro h
    obtain ⟨path, hresolve, hopen⟩ := Option.bind_eq_some_iff.mp h
    obtain ⟨loc, hcanonical, hpath⟩ := Option.bind_eq_some_iff.mp hresolve
    have hleads := resolveCanonical_eq_some.mp hcanonical
    refine ⟨loc, hleads, ?_⟩
    rw [hleads.metadata_eq] at hpath
    split at hpath
    · rename_i hdir
      split at hpath
      · cases hpath
        exact Or.inr ⟨hdir, hopen⟩
      · cases hpath
    · cases hpath
      exact Or.inl hopen
    · cases hpath
  · rintro ⟨loc, hleads, hfile⟩
    rw [Option.bind_eq_some_iff]
    simp only [resolve, resolveCanonical_eq_some.mpr hleads, Option.bind_some]
    rcases hfile with hopen | ⟨hdir, hopen⟩
    · rw [metadata_of_openFile hopen]
      exact ⟨loc, rfl, hopen⟩
    · rw [hleads.metadata_eq, hdir]
      simp only [metadata_of_openFile hopen]
      exact ⟨_, rfl, hopen⟩

/-! ## The file behind an answer -/

theorem serveFile_location {location loc : Location} {len start span : Nat} {kind : String}
    {etag : Option String}
    (h : (serveFile location len kind etag req).body = .fileStream loc start span) :
    loc = location := by
  unfold serveFile at h
  split at h
  · cases h
    rfl
  · split at h
    · cases h
      rfl
    · cases h
    · cases h
      rfl

/-- An answer with a file's bytes is about the file that was opened. -/
theorem answerFrom_location {path loc : Location} {headOnly : Bool} {answer : ServeAnswer}
    {start len : Nat} (h : answerFrom t mime req headOnly path = some answer)
    (hbody : answer.body = .fileStream loc start len) :
    ∃ file, t.openFile path = some file ∧ file.1 = loc := by
  simp only [answerFrom] at h
  split at h
  · split at h
    · split at h
      · cases h
        cases hbody
      · cases h
        cases hbody
    · cases h
  · split at h
    · rename_i location contents modified hopen
      split at h
      · cases h
        cases hbody
      · cases h
        exact ⟨_, hopen, (serveFile_location hbody).symm⟩
    · cases h

/-- A fallback with a file's bytes is the root's index. -/
theorem notFound_location {loc : Location} {headOnly : Bool} {start len : Nat}
    (h : (notFound t root opts req headOnly).body = .fileStream loc start len) :
    headOnly = false ∧ opts.spa = true ∧
      ∃ file, t.openFile (root ++ ["index.html"]) = some file ∧ file.1 = loc := by
  have hpage : (notFoundPage opts headOnly).body ≠ .fileStream loc start len := by
    unfold notFoundPage
    split <;> exact nofun
  unfold notFound at h
  split at h
  · rename_i hspa
    split at h
    · rename_i location contents modified hopen
      cases headOnly with
      | true => cases h
      | false =>
          cases h
          exact ⟨rfl, (Bool.and_eq_true_iff.mp hspa).1, _, hopen, rfl⟩
    · exact absurd h hpage
  · exact absurd h hpage

theorem answerFrom_get {path : Location} :
    answerFrom t mime req false path = none ↔ t.openFile path = none := by
  simp only [answerFrom, Bool.false_eq_true, if_false]
  cases hopen : t.openFile path with
  | none => simp
  | some file =>
      simp only [reduceCtorEq, iff_false]
      split <;> exact nofun

/-- A request that is answered with bytes: no condition, no range. -/
def navigation (uriPath : String) : ServeRequest where
  path := uriPath
  accept := some "text/html"

theorem answerFrom_navigation {path : Location} (h : t.openFile path = some file) :
    ∃ answer, answerFrom t mime (navigation uriPath) false path = some answer ∧
      answer.body = .fileStream file.1 0 file.2.1.length := by
  refine ⟨serveFile file.1 file.2.1.length (mime path) (fileEtag file.2.2 file.2.1.length)
    (navigation uriPath), ?_, rfl⟩
  have hmiss : (fileEtag file.2.2 file.2.1.length).filter
      (ifNoneMatchHits (navigation uriPath).ifNoneMatch) = none := by
    cases fileEtag file.2.2 file.2.1.length <;> rfl
  simp only [answerFrom, Bool.false_eq_true, if_false, h, hmiss]

theorem notFound_navigation (hspa : opts.spa = true)
    (h : t.openFile (root ++ ["index.html"]) = some file) :
    (notFound t root opts (navigation uriPath) false).body =
      .fileStream file.1 0 file.2.1.length := by
  have hwants : wantsHtml (navigation uriPath) = true := by
    change containsText "text/html" "text/html" = true
    decide
  simp [notFound, hspa, hwants, h]

/-- Where the bytes of an answer come from. -/
theorem handle_location {loc : Location} {start len : Nat}
    (h : (handle t root mime opts req).body = .fileStream loc start len) :
    (∃ file, Opens t root req.path file ∧ file.1 = loc) ∨
      opts.spa = true ∧ (∀ file, ¬Opens t root req.path file) ∧
        ∃ file, t.openFile (root ++ ["index.html"]) = some file ∧ file.1 = loc := by
  simp only [handle] at h
  split at h
  · cases h
  · split at h
    · rename_i answer hanswer
      obtain ⟨path, hresolve, hfrom⟩ := Option.bind_eq_some_iff.mp hanswer
      obtain ⟨file, hopen, hloc⟩ := answerFrom_location hfrom h
      refine Or.inl ⟨file, resolve_opens.mp ?_, hloc⟩
      rw [hresolve, Option.bind_some, hopen]
    · rename_i hanswer
      obtain ⟨hget, hspa, hindex⟩ := notFound_location h
      refine Or.inr ⟨hspa, ?_, hindex⟩
      rw [hget] at hanswer
      intro file hopens
      obtain ⟨path, hresolve, hopen⟩ := Option.bind_eq_some_iff.mp (resolve_opens.mpr hopens)
      rw [hresolve, Option.bind_some, answerFrom_get, hopen] at hanswer
      cases hanswer

theorem handle_eq_navigation : handle t root mime opts (navigation uriPath) =
    ((resolve t root uriPath).bind (answerFrom t mime (navigation uriPath) false)).getD
      (notFound t root opts (navigation uriPath) false) := by
  have hhead : ((navigation uriPath).method == "HEAD") = false := by
    change ("GET" == "HEAD") = false
    decide
  have hget : ¬((navigation uriPath).method ≠ "GET" ∧ (!false) = true) := by
    rintro ⟨hne, -⟩
    exact hne rfl
  have hpath : (navigation uriPath).path = uriPath := rfl
  rw [handle, hhead, if_neg hget, hpath]
  cases (resolve t root uriPath).bind (answerFrom t mime (navigation uriPath) false) <;> rfl

/-- A navigation is answered with the file its path opens. -/
theorem handle_navigation (h : Opens t root uriPath file) :
    (handle t root mime opts (navigation uriPath)).body =
      .fileStream file.1 0 file.2.1.length := by
  obtain ⟨path, hresolve, hopen⟩ := Option.bind_eq_some_iff.mp (resolve_opens.mpr h)
  obtain ⟨answer, hanswer, hbody⟩ :
      ∃ answer, answerFrom t mime (navigation uriPath) false path = some answer ∧
        answer.body = .fileStream file.1 0 file.2.1.length :=
    answerFrom_navigation hopen
  rw [handle_eq_navigation, hresolve, Option.bind_some, hanswer, Option.getD_some, hbody]

/-- A navigation to nothing is answered with the root's index. -/
theorem handle_navigation_fallback (hspa : opts.spa = true)
    (hnone : ∀ file, ¬Opens t root uriPath file)
    (h : t.openFile (root ++ ["index.html"]) = some file) :
    (handle t root mime opts (navigation uriPath)).body =
      .fileStream file.1 0 file.2.1.length := by
  have hmiss : (resolve t root uriPath).bind (answerFrom t mime (navigation uriPath) false) =
      none := by
    rw [Option.bind_eq_none_iff]
    intro path hresolve
    rw [answerFrom_get, Option.eq_none_iff_forall_ne_some]
    intro opened hopen
    refine hnone opened (resolve_opens.mp ?_)
    rw [hresolve, Option.bind_some, hopen]
  rw [handle_eq_navigation, hmiss, Option.getD_none, notFound_navigation hspa h]

/-! ## The root -/

/-- A file that is opened where a path leads is there. -/
theorem Opens.inside_of_file {loc : Location} (hleads : LeadsTo t root uriPath loc)
    (h : t.openFile loc = some file) : root <+: file.1 := by
  obtain ⟨hloc, -⟩ := FileTree.openFile_eq_some.mp h
  rw [hleads.canonical, Option.some_inj] at hloc
  obtain ⟨_, -, -, hunder⟩ := hleads
  rw [← hloc]
  exact hunder

/-- **Static serving stays inside**, for every file tree, root and path,
exactly when the index files it opens unchecked are inside: the one of the
directory the path leads to, and the root's when it stands in for nothing. -/
theorem servesInside_iff : ServesInside t root mime opts uriPath ↔
    IndexesInside t root opts uriPath := by
  constructor
  · intro h
    constructor
    · intro loc hleads hdir file hopen
      exact h (navigation uriPath) rfl _ _ _
        (handle_navigation ⟨loc, hleads, Or.inr ⟨hdir, hopen⟩⟩)
    · intro hspa hnone file hopen
      exact h (navigation uriPath) rfl _ _ _ (handle_navigation_fallback hspa hnone hopen)
  · rintro h req rfl loc start len hbody
    rcases handle_location hbody with ⟨file, ⟨dir, hleads, hfile⟩, rfl⟩ |
      ⟨hspa, hnone, file, hopen, rfl⟩
    · rcases hfile with hopen | ⟨hdir, hopen⟩
      · exact Opens.inside_of_file hleads hopen
      · exact h.directory dir hleads hdir file hopen
    · exact h.fallback hspa hnone file hopen

/-! ## An index that is a link -/

/-- `/srv/www` with an `index.html` that is a link to `/etc/passwd`. -/
def linkedIndex : FileTree where
  node
    | [] => some .dir
    | ["srv"] => some .dir
    | ["srv", "www"] => some .dir
    | ["srv", "www", "index.html"] => some (.link true ["etc", "passwd"])
    | ["etc"] => some .dir
    | ["etc", "passwd"] => some (.file [0x72, 0x6f, 0x6f, 0x74] none true)
    | _ => none
  rooted := rfl

/-- A plain `GET /` under `/srv/www` is answered with `/etc/passwd`. -/
theorem linked_index_leaves_root : servedRoot linkedIndex ["srv", "www"] = some ["srv", "www"] ∧
    (handle linkedIndex ["srv", "www"] (fun _ => "text/html") {} { path := "/" }).body =
      .fileStream ["etc", "passwd"] 0 4 ∧
    ¬ServesInside linkedIndex ["srv", "www"] (fun _ => "text/html") {} "/" := by
  have hbody : (handle linkedIndex ["srv", "www"] (fun _ => "text/html") {}
      { path := "/" }).body = .fileStream ["etc", "passwd"] 0 4 := by
    decide
  refine ⟨by decide, hbody, ?_⟩
  intro h
  exact absurd (h { path := "/" } rfl _ _ _ hbody) (by decide)

end Aperio
