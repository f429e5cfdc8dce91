import Aperio.Canary
import Aperio.Firewall
import Aperio.Limits

/-!
# What a site answers by itself

The rest of `sites.rs`: the answers given without a client, the fallback of a
hostname nobody serves, and the windows of `sites/maintenance.rs`. A request
takes each from the most specific site that writes it; a fallback and a window
are the whole hostname's, so only a site without a path has one.

A time zone is what the `chrono-tz` table answers for it. The timeout, the
header edits and the pages of a site are not read here.
-/

namespace Aperio

/-! ## Answers -/

/-- The characters `HeaderValue` takes. -/
def headerValueOk (value : String) : Bool :=
  (utf8Bytes value).all fun b => b == 9 || (decide (32 ≤ b) && b != 127)

/-- `HeaderValue::to_str`, of a value that is one. -/
def headerToStr (value : String) : Option String :=
  if (utf8Bytes value).all fun b => b == 9 || (decide (32 ≤ b) && decide (b < 127)) then
    some value
  else none

/-- A response given from here; the default is what is left of one that could
not be built. -/
structure SiteResponse where
  status : Nat := 200
  location : Option String := none
  contentType : Option String := none
  body : String := ""
deriving Repr, DecidableEq

/-- A site's answer, or its fallback. -/
structure Redirect where
  url : String
  permanent : Bool := false
  preservePath : Bool := false
deriving Repr, DecidableEq

namespace Redirect

def status (r : Redirect) : Nat :=
  if r.permanent then 301 else 302

/-- Where the visitor is sent, with their path and query when `preserve_path`
asks for it. -/
def location (r : Redirect) (path : String) (query : Option String) : String :=
  if !r.preservePath then r.url
  else
    let location := trimEndMatches r.url '/' ++ path
    match query with
    | some q => location ++ "?" ++ q
    | none => location

def respond (r : Redirect) (path : String) (query : Option String) : SiteResponse :=
  let location := r.location path query
  if headerValueOk location then { status := r.status, location := some location } else {}

end Redirect

/-- A fixed response. -/
structure Respond where
  status : Nat
  contentType : String
  body : String
deriving Repr, DecidableEq

def Respond.respond (r : Respond) : SiteResponse :=
  if headerValueOk r.contentType then
    { status := if 100 ≤ r.status ∧ r.status ≤ 999 then r.status else 200
      contentType := some r.contentType
      body := r.body }
  else {}

inductive SiteAnswer where
  | redirect (r : Redirect)
  | respond (r : Respond)
deriving Repr, DecidableEq

def SiteAnswer.response (a : SiteAnswer) (path : String) (query : Option String) : SiteResponse :=
  match a with
  | .redirect r => r.respond path query
  | .respond r => r.respond

/-! ## Maintenance windows -/

inductive Weekday where
  | mon
  | tue
  | wed
  | thu
  | fri
  | sat
  | sun
deriving Repr, DecidableEq

/-- The weekday of a day counted from the first of January 1970, a
Thursday. -/
def Weekday.ofDay (day : Int) : Weekday :=
  match (day % 7).toNat with
  | 0 => .thu
  | 1 => .fri
  | 2 => .sat
  | 3 => .sun
  | 4 => .mon
  | 5 => .tue
  | _ => .wed

/-- `localAt` is the day and the second of it at a unix second, `earliest` the
first unix second a local time stands for. -/
structure TimeZone where
  localAt : Nat → Option (Int × Nat)
  earliest : Int → Nat → Option Int

/-- One compiled window, in seconds of the day. -/
structure MaintenanceWindow where
  start : Nat
  stop : Nat
  days : List Weekday := []
  tz : TimeZone
  reason : Option String := none

namespace MaintenanceWindow

variable (w : MaintenanceWindow)

def listed (day : Int) : Bool :=
  w.days.isEmpty || w.days.contains (.ofDay day)

def instantOf (day : Int) (time : Nat) : Option Nat :=
  (w.tz.earliest day time).map Int.toNat

/-- The second a running window ends at. One that ends earlier than it starts
wraps midnight, and belongs to the day it starts on. -/
def activeUntil (nowSecs : Nat) : Option Nat :=
  (w.tz.localAt nowSecs).bind fun (today, time) =>
    if w.start < w.stop then
      if w.listed today && decide (w.start ≤ time) && decide (time < w.stop) then
        w.instantOf today w.stop
      else none
    else if w.listed today && decide (w.start ≤ time) then w.instantOf (today + 1) w.stop
    else if w.listed (today - 1) && decide (time < w.stop) then w.instantOf today w.stop
    else none

end MaintenanceWindow

/-! ## The compiled sites -/

/-- One compiled site with what it says besides `access`. -/
structure CompiledSite (R : Type) extends Site where
  answer : Option SiteAnswer := none
  rateLimit : Option RateLimit := none
  canary : Option CanaryRule := none
  waf : List (WafRule R) := []
  fallback : Option Redirect := none
  maintenance : List MaintenanceWindow := []

/-- Most specific first. -/
abbrev CompiledSites (R : Type) := List (CompiledSite R)

namespace CompiledSites

variable {R : Type} (sites : CompiledSites R)

/-- The sites that cover a whole hostname and match it. -/
def hostwide (host : Option String) : CompiledSites R :=
  sites.filter fun s => s.path.isNone && s.hostMatches host

/-- The site that answers this request by itself. -/
def answering (host : Option String) (path : String) : Option (CompiledSite R) :=
  (sites.filter (·.matchesRoute host path)).find? (·.answer.isSome)

def answer (host : Option String) (path : String) (query : Option String) :
    Option SiteResponse :=
  (sites.answering host path).bind fun s => s.answer.map (·.response path query)

/-- Where visitors of this hostname go when nothing serves it. -/
def fallbackFor (host : Option String) : Option Redirect :=
  (sites.hostwide host).findSome? (·.fallback)

def hasMaintenance : Bool :=
  sites.any (!·.maintenance.isEmpty)

/-- A window running now, with the second it ends. -/
def maintenanceFor (host : Option String) (nowSecs : Nat) : Option (MaintenanceWindow × Nat) :=
  ((sites.hostwide host).flatMap (·.maintenance)).findSome? fun w =>
    (w.activeUntil nowSecs).map fun stop => (w, stop)

end CompiledSites

end Aperio
