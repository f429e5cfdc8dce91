import Aperio.Passwords
import Aperio.SiteAnswers

/-!
# Where a login leads back to

A visitor names the page to come back to, `safe_redirect_path` takes it or
puts `/` in its place, and the handlers send it in a `Location` header. The
check is made on the text as it stands; a browser takes tabs and line breaks
out of it and reads a backslash as a slash, and a header does not hold every
character. `login_redirect_iff` says for which texts neither matters.
-/

namespace Aperio

/-! ## The handlers -/

/-- The text of a random UUID. -/
structure SessionToken where
  text : String
  plain : text.toList.all "0123456789abcdef-".toList.contains = true

def sessionCookieName (secure : Bool) : String :=
  if secure then "__Host-aperio_session" else "aperio_session"

def sessionSetCookie (secure : Bool) (token : SessionToken) : String :=
  sessionCookieName secure ++ "=" ++ token.text ++
    "; Path=/; HttpOnly; SameSite=Lax; Max-Age=86400" ++ (if secure then "; Secure" else "")

structure BuiltResponse where
  status : Nat := 200
  headers : List (String × String) := []
deriving Repr, DecidableEq

/-- `Response::builder()`: none where a header value is not one. -/
def BuiltResponse.build (r : BuiltResponse) : Option BuiltResponse :=
  if r.headers.all (headerValueOk ·.2) then some r else none

section

variable (secure : Bool) (token : SessionToken)

/-- The form answers with the cookie; the page goes on by itself. None is the
panic of `unwrap`, here and below. -/
def authLoginResponse : Option BuiltResponse :=
  { headers := [("Set-Cookie", sessionSetCookie secure token)] : BuiltResponse }.build

def redirectAfter (redirect : Option String) : String :=
  (redirect.map safeRedirectPath).getD "/"

def oidcCallbackResponse (redirect : Option String) : Option BuiltResponse :=
  { status := 302
    headers := [("Set-Cookie", sessionSetCookie secure token),
      ("Location", redirectAfter redirect)] : BuiltResponse }.build

/-- What cannot be built is answered by the default response. -/
def ssoCallbackResponse (redirect : Option String) : Option BuiltResponse :=
  some (({ status := 302
           headers := [("Set-Cookie", sessionSetCookie secure token),
             ("Location", redirectAfter redirect)] : BuiltResponse }.build).getD {})

end

/-! ## The browser -/

structure WebOrigin where
  tls : Bool
  host : String
  port : Nat
deriving Repr, DecidableEq

/-- How a browser reads a host and a port, and a text that does not start with
a slash. -/
structure Browser where
  authority : Bool → List Char → Option (String × Nat)
  other : WebOrigin → List Char → Option WebOrigin

namespace Browser

def blank (c : Char) : Bool :=
  c.toNat ≤ 0x20

def breaks (c : Char) : Bool :=
  c == '\t' || c == '\n' || c == '\r'

def slash (c : Char) : Bool :=
  c == '/' || c == '\\'

/-- The text that is parsed. -/
def input (text : String) : List Char :=
  ((text.toList.dropWhile blank).rdropWhile blank).filter fun c => !breaks c

/-- Where a text leads from an http or https page. -/
def follow (b : Browser) (page : WebOrigin) (text : String) : Option WebOrigin :=
  match input text with
  | [] => some page
  | c :: rest =>
    if slash c then
      match rest with
      | d :: more =>
        if slash d then
          (b.authority page.tls ((more.dropWhile slash).takeWhile fun c =>
            !slash c && c != '?' && c != '#')).map fun (host, port) => { page with host, port }
        else some page
      | [] => some page
    else b.other page (c :: rest)

end Browser

/-! ## The texts that are taken -/

/-- `safe_redirect_path` takes the text as it is. -/
def Accepted (redirect : String) : Prop :=
  startsWith redirect "/" ∧ ¬ startsWith redirect "//" ∧ ¬ startsWith redirect "/\\"

/-- Behind the first slash, and tabs and line breaks, stands a slash or a backslash. -/
def SecondSlash (redirect : String) : Prop :=
  ∃ c, (redirect.toList.drop 1).find? (fun c => !Browser.breaks c) = some c ∧
    Browser.slash c = true

theorem safeRedirectPath_of_accepted {redirect : String} (h : Accepted redirect) :
    safeRedirectPath redirect = redirect :=
  if_pos h

theorem safeRedirectPath_of_not {redirect : String} (h : ¬ Accepted redirect) :
    safeRedirectPath redirect = "/" :=
  if_neg h

theorem accepted_cons {redirect : String} (h : Accepted redirect) :
    ∃ rest, redirect.toList = '/' :: rest := by
  have hstart := h.1
  rw [startsWith, List.isPrefixOf_iff_prefix] at hstart
  obtain ⟨rest, hrest⟩ := hstart
  exact ⟨rest, hrest.symm⟩

theorem redirectAfter_some {redirect : String} :
    redirectAfter (some redirect) = safeRedirectPath redirect :=
  rfl

/-! ## Headers -/

theorem headerValueOk_append {a b : String} :
    headerValueOk (a ++ b) = (headerValueOk a && headerValueOk b) := by
  rw [headerValueOk, utf8Bytes_append, List.all_append]
  rfl

theorem headerValueOk_token (token : SessionToken) : headerValueOk token.text = true := by
  have hall :
      ("0123456789abcdef-".toList.all fun c => headerValueOk (String.ofList [c])) = true := by
    decide +kernel
  have hbytes : ∀ c, headerValueOk (String.ofList [c]) =
      (String.utf8EncodeChar c).all fun b => b == 9 || (decide (32 ≤ b) && b != 127) := by
    intro c
    simp [headerValueOk, utf8Bytes]
  rw [headerValueOk, utf8Bytes, List.all_flatMap, List.all_eq_true]
  intro c hc
  have hplain := List.all_eq_true.mp token.plain c hc
  rw [List.contains_iff_mem] at hplain
  rw [← hbytes]
  exact List.all_eq_true.mp hall c hplain

theorem headerValueOk_cookie (secure : Bool) (token : SessionToken) :
    headerValueOk (sessionSetCookie secure token) = true := by
  have hname : ∀ secure, headerValueOk (sessionCookieName secure) = true := by decide +kernel
  have hflag : headerValueOk (if secure then "; Secure" else "") = true := by
    cases secure <;> decide +kernel
  have hequals : headerValueOk "=" = true := by decide +kernel
  have hrest : headerValueOk "; Path=/; HttpOnly; SameSite=Lax; Max-Age=86400" = true := by
    decide +kernel
  simp only [sessionSetCookie, headerValueOk_append, hname, hequals, headerValueOk_token, hrest,
    hflag, Bool.and_true]

variable {secure : Bool} {token : SessionToken}

theorem authLoginResponse_isSome : (authLoginResponse secure token).isSome = true := by
  rw [authLoginResponse, BuiltResponse.build, List.all_cons, headerValueOk_cookie]
  rfl

theorem oidcCallbackResponse_isSome {redirect : Option String} :
    (oidcCallbackResponse secure token redirect).isSome =
      headerValueOk (redirectAfter redirect) := by
  rw [oidcCallbackResponse, BuiltResponse.build, List.all_cons, headerValueOk_cookie, List.all_cons,
    List.all_nil, Bool.and_true, Bool.true_and]
  cases headerValueOk (redirectAfter redirect) <;> rfl

/-! ## Following -/

namespace Browser

variable {b : Browser} {page : WebOrigin} {redirect : String}

theorem rdropWhile_cons {rest : List Char} :
    ('/' :: rest).rdropWhile blank = '/' :: rest.rdropWhile blank := by
  have hslash : blank '/' = false := by decide
  rw [List.rdropWhile, List.reverse_cons, List.dropWhile_append]
  split
  · rename_i hempty
    rw [List.isEmpty_iff] at hempty
    rw [List.rdropWhile, hempty, List.dropWhile_cons_of_neg (by simp [hslash])]
    rfl
  · rw [List.reverse_append, List.rdropWhile]
    rfl

theorem input_cons {rest : List Char} (h : redirect.toList = '/' :: rest) :
    input redirect = '/' :: (rest.rdropWhile blank).filter fun c => !breaks c := by
  have hslash : blank '/' = false := by decide
  rw [input, h, List.dropWhile_cons_of_neg (by simp [hslash]), rdropWhile_cons,
    List.filter_cons_of_pos (by decide)]

/-- A blank that is taken off the end was no slash. -/
theorem find?_rdropWhile {rest : List Char} {c : Char} (hslash : slash c = true) :
    (rest.rdropWhile blank).find? (fun c => !breaks c) = some c ↔
      rest.find? (fun c => !breaks c) = some c := by
  obtain ⟨tail, htail⟩ := List.rdropWhile_prefix blank rest
  have hblank : ∀ x ∈ tail, blank x = true := by
    intro x hx
    have htake : tail = rest.rtakeWhile blank := by
      have hsplit := List.rdropWhile_append_rtakeWhile (p := blank) (l := rest)
      exact List.append_cancel_left (htail.trans hsplit.symm)
    rw [htake] at hx
    exact List.mem_rtakeWhile_imp hx
  have hnone : tail.find? (fun c => !breaks c) ≠ some c := by
    intro hfind
    have hmem := hblank c (List.mem_of_find?_eq_some hfind)
    rw [slash, Bool.or_eq_true, beq_iff_eq, beq_iff_eq] at hslash
    rcases hslash with rfl | rfl <;> exact absurd hmem (by decide)
  conv_rhs => rw [← htail, List.find?_append]
  cases (rest.rdropWhile blank).find? fun c => !breaks c with
  | some d => simp
  | none => simp [hnone]

theorem follow_accepted {rest : List Char} (h : redirect.toList = '/' :: rest)
    (hsecond : ¬ SecondSlash redirect) : b.follow page redirect = some page := by
  have hfirst : slash '/' = true := by decide
  rw [follow, input_cons h]
  simp only [hfirst, if_true]
  cases htail : (rest.rdropWhile blank).filter fun c => !breaks c with
  | nil => rfl
  | cons d more =>
      have hhead : (rest.rdropWhile blank).find? (fun c => !breaks c) = some d := by
        rw [← List.head?_filter, htail]
        rfl
      have hd : slash d = false := by
        by_contra hslash
        rw [Bool.not_eq_false] at hslash
        refine hsecond ⟨d, ?_, hslash⟩
        rw [h]
        exact (find?_rdropWhile hslash).mp hhead
      simp only [hd, Bool.false_eq_true, if_false]

/-- A second slash leads to a host that does not depend on the page's. -/
theorem follow_secondSlash {rest : List Char} (h : redirect.toList = '/' :: rest)
    (hsecond : SecondSlash redirect) (tls : Bool) : ∃ authority : Option (String × Nat),
      ∀ page : WebOrigin, page.tls = tls → b.follow page redirect =
        authority.map fun (host, port) => { page with host, port } := by
  obtain ⟨c, hfind, hslash⟩ := hsecond
  rw [h, List.drop_one, List.tail_cons] at hfind
  have hhead := (find?_rdropWhile hslash).mpr hfind
  rw [← List.head?_filter] at hhead
  obtain ⟨more, htail⟩ := List.head?_eq_some_iff.mp hhead
  refine ⟨b.authority tls ((more.dropWhile slash).takeWhile fun c =>
    !slash c && c != '?' && c != '#'), ?_⟩
  rintro page rfl
  have hfirst : slash '/' = true := by decide
  rw [follow, input_cons h, htail]
  simp only [hfirst, hslash, if_true]

end Browser

/-- Following the redirect stays on the page's scheme, host and port, from
every page, and every handler builds its response, if and only if the text is
not taken, or a header holds it and no second slash stands behind the first
and what a browser takes out. -/
theorem login_redirect_iff (b : Browser) (redirect : String) (secure : Bool)
    (token : SessionToken) :
    ((∀ page, b.follow page (safeRedirectPath redirect) = some page) ∧
      (authLoginResponse secure token).isSome ∧
      (oidcCallbackResponse secure token (some redirect)).isSome ∧
      (ssoCallbackResponse secure token (some redirect)).isSome) ↔
    (Accepted redirect → headerValueOk redirect = true ∧ ¬ SecondSlash redirect) := by
  rw [oidcCallbackResponse_isSome]
  constructor
  · rintro ⟨hfollow, -, hheader, -⟩ haccepted
    obtain ⟨rest, hrest⟩ := accepted_cons haccepted
    rw [safeRedirectPath_of_accepted haccepted] at hfollow
    refine ⟨?_, fun hsecond => ?_⟩
    · rwa [redirectAfter_some, safeRedirectPath_of_accepted haccepted] at hheader
    · obtain ⟨authority, hleads⟩ := Browser.follow_secondSlash (b := b) hrest hsecond false
      -- Two pages of different hosts would be led to one.
      have hhere := (hleads ⟨false, "here", 80⟩ rfl).symm.trans (hfollow _)
      have hthere := (hleads ⟨false, "there", 80⟩ rfl).symm.trans (hfollow _)
      cases authority with
      | none => cases hhere
      | some pair =>
          have hfirst : pair.1 = "here" := congrArg WebOrigin.host (Option.some.inj hhere)
          have hsecond : pair.1 = "there" := congrArg WebOrigin.host (Option.some.inj hthere)
          exact absurd (hfirst.symm.trans hsecond) (by decide)
  · intro h
    by_cases haccepted : Accepted redirect
    · obtain ⟨hheader, hsecond⟩ := h haccepted
      obtain ⟨rest, hrest⟩ := accepted_cons haccepted
      refine ⟨fun page => ?_, authLoginResponse_isSome, ?_, rfl⟩
      · rw [safeRedirectPath_of_accepted haccepted]
        exact Browser.follow_accepted hrest hsecond
      · rwa [redirectAfter_some, safeRedirectPath_of_accepted haccepted]
    · refine ⟨fun page => ?_, authLoginResponse_isSome, ?_, rfl⟩
      · rw [safeRedirectPath_of_not haccepted]
        have hroot : ¬ SecondSlash "/" := by simp [SecondSlash]
        exact Browser.follow_accepted (show "/".toList = '/' :: [] from rfl) hroot
      · rw [redirectAfter_some, safeRedirectPath_of_not haccepted]
        decide +kernel

/-- A browser that takes every host, and port 80. -/
def anyHost : Browser where
  authority _ host := some (String.ofList host, 80)
  other page _ := some page

def firstToken : SessionToken where
  text := "67e55044-10b1-426f-9247-bb680e5fe0c8"
  plain := by decide +kernel

/-- A tab hides the second slash, and a line break is no header. -/
theorem login_redirect_leaves :
    anyHost.follow ⟨true, "app.test", 443⟩ (safeRedirectPath "/\t/evil.test/") =
        some ⟨true, "evil.test", 80⟩ ∧
      oidcCallbackResponse true firstToken (some "/a\nb") = none := by
  decide +kernel

end Aperio
