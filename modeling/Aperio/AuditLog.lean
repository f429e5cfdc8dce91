import Aperio.Lines

/-!
# The audit log

`store/audit.rs`: events are appended to `audit.jsonl` one JSON line each,
the file is rotated by size into `audit.jsonl.1`, `.2` and so on, and
retention drops what is old. Every line carries the hash of the line before
it, kept in memory between two events and recovered from disk at a restart.

Reads of files that exist succeed; every write, rename and removal may fail,
as the source allows for. What serde_json and SHA-256 are relied on for is
in `AuditFormat`.
-/

namespace Aperio

/-! ## Events -/

structure AuditEvent where
  ts : Nat
  timestamp : String
  event : String
  actor : String
  actorIp : String
  orgId : Option String
  details : String
  prev : String
deriving Repr, DecidableEq

def auditRecentCap : Nat := 200

/-- `GENESIS_HASH`: the `prev` of the first event of a new log. -/
def genesisHash : String := "0000000000000000000000000000000000000000000000000000000000000000"

/-- How events are written and read (serde_json) and how a line is hashed
(hexadecimal SHA-256). A line is a JSON object without newlines, it reads as
the event it was written from, and no line has the hash of all zeros, which
stands for there being no line. -/
structure AuditFormat where
  toJson : AuditEvent → String
  fromJson : String → Option AuditEvent
  lineHash : String → String
  fromJson_toJson : ∀ ev, fromJson (toJson ev) = some ev
  no_newline : ∀ ev, '\n' ∉ (toJson ev).toList
  braces : ∀ ev, ∃ members, (toJson ev).toList = '{' :: members ++ ['}']
  hash_ne_genesis : ∀ line, lineHash line ≠ genesisHash
  hash_ne_empty : ∀ line, lineHash line ≠ ""

/-! ## The files -/

inductive AuditFile where
  | active
  | generation (n : Nat)
deriving Repr, DecidableEq

def AuditFile.fileName : AuditFile → String
  | .active => "audit.jsonl"
  | .generation n => "audit.jsonl." ++ toString n

/-- The data directory: the active file and the generations from `.1` on,
with gaps where one is missing. -/
structure AuditDir where
  active : Option String := none
  generations : List (Option String) := []
deriving Repr, DecidableEq

/-- The `n`th slot is filled, or emptied if there is one. -/
def setSlot (slots : List (Option String)) (n : Nat) : Option String → List (Option String)
  | none => slots.set n none
  | some raw => (slots ++ List.replicate (n + 1 - slots.length) none).set n (some raw)

namespace AuditDir

def get (dir : AuditDir) : AuditFile → Option String
  | .active => dir.active
  | .generation 0 => none
  | .generation (n + 1) => dir.generations[n]?.join

def put (dir : AuditDir) (file : AuditFile) (raw : Option String) : AuditDir :=
  match file with
  | .active => { dir with active := raw }
  | .generation 0 => dir
  | .generation (n + 1) => { dir with generations := setSlot dir.generations n raw }

/-- `fs::remove_file`. -/
def removeFile (dir : AuditDir) (ok : Bool) (file : AuditFile) : AuditDir :=
  if ok then dir.put file none else dir

/-- `fs::rename`: it replaces what stands at the target, and fails where
there is nothing to rename. -/
def rename (dir : AuditDir) (ok : Bool) (src dst : AuditFile) : AuditDir :=
  match ok, dir.get src with
  | true, some raw => (dir.put src none).put dst (some raw)
  | _, _ => dir

end AuditDir

/-! ## The log -/

structure AuditLog where
  recent : List AuditEvent
  maxSize : Nat
  maxFiles : Nat
  currentSize : Nat
  lastHash : String
deriving Repr, DecidableEq

/-- The log in memory and its files. -/
structure AuditState where
  log : AuditLog
  dir : AuditDir
deriving Repr, DecidableEq

/-- How an append ends: the line is there as a whole or not at all, and a
failed one may have created the file. -/
inductive AppendOutcome where
  | written
  | failed (created : Bool)
deriving Repr, DecidableEq

/-- Which of the file operations of a rotation succeed. -/
structure RotateIo where
  removeActive : Bool := true
  removeOldest : Bool := true
  shift : Nat → Bool := fun _ => true
  renameActive : Bool := true

/-- What `record` is called with, and the clock it reads. -/
structure AuditCall where
  now : Nat
  timestamp : String
  event : String
  actor : String
  actorIp : String
  org : Option String
  details : String
deriving Repr, DecidableEq

def AuditCall.eventAfter (call : AuditCall) (prev : String) : AuditEvent where
  ts := call.now
  timestamp := call.timestamp
  event := call.event
  actor := call.actor
  actorIp := call.actorIp
  orgId := call.org
  details := call.details
  prev := prev

/-- The lines of a file that are not blank. -/
def logLines (raw : String) : List String :=
  (lines raw).filter fun l => trim l != ""

/-- One rename of `rotate` after the other, from the oldest generation. -/
def shiftGenerations (io : RotateIo) (maxFiles : Nat) (dir : AuditDir) : AuditDir :=
  (List.range' 1 (maxFiles - 1)).reverse.foldl
    (fun dir n => dir.rename (io.shift n) (.generation n) (.generation (n + 1))) dir

namespace AuditState

variable (fmt : AuditFormat)

def rotate (s : AuditState) (io : RotateIo) : AuditState :=
  if s.log.maxFiles = 0 then
    { log := { s.log with currentSize := 0 }, dir := s.dir.removeFile io.removeActive .active }
  else
    let shifted := shiftGenerations io s.log.maxFiles
      (s.dir.removeFile io.removeOldest (.generation s.log.maxFiles))
    if io.renameActive && shifted.active.isSome then
      { log := { s.log with currentSize := 0 }
        dir := shifted.rename io.renameActive .active (.generation 1) }
    else { s with dir := shifted }

/-- The line `record` writes. -/
def lineFor (s : AuditState) (call : AuditCall) : String :=
  fmt.toJson (call.eventAfter s.log.lastHash)

def record (s : AuditState) (call : AuditCall) (append : AppendOutcome) (io : RotateIo) :
    AuditState :=
  let ev := call.eventAfter s.log.lastHash
  let line := s.lineFor fmt call
  let kept := if auditRecentCap ≤ s.log.recent.length then s.log.recent.tail else s.log.recent
  let log := { s.log with recent := kept ++ [ev] }
  match append with
  | .written =>
    let log := { log with
      lastHash := fmt.lineHash line, currentSize := log.currentSize + line.utf8ByteSize + 1 }
    let written : AuditState :=
      { log := log, dir := s.dir.put .active (some (s.dir.active.getD "" ++ (line ++ "\n"))) }
    if 0 < log.maxSize ∧ log.maxSize ≤ log.currentSize then written.rotate io else written
  | .failed created =>
    { log := log, dir := if created then s.dir.put .active (some (s.dir.active.getD "")) else s.dir }

def setRotation (s : AuditState) (maxSize maxFiles : Nat) : AuditState :=
  { s with log := { s.log with maxSize := maxSize, maxFiles := maxFiles } }

/-- The hash of the newest line of a file. -/
def newestHash (raw : Option String) : Option String :=
  (raw.bind fun raw => (logLines raw).getLast?).map fmt.lineHash

/-- `AuditLog::load`: the running hash comes from the active file, or else
from the newest generation. -/
def load (dir : AuditDir) (maxSize maxFiles : Nat) : AuditState :=
  let lastHash := (newestHash fmt dir.active).getD genesisHash
  let lastHash :=
    if lastHash = genesisHash then (newestHash fmt (dir.get (.generation 1))).getD lastHash
    else lastHash
  { log :=
      { recent := (((lines (dir.active.getD "")).reverse.take auditRecentCap).reverse).filterMap
          fmt.fromJson
        maxSize := maxSize
        maxFiles := maxFiles
        currentSize := (dir.active.getD "").utf8ByteSize
        lastHash := lastHash }
    dir := dir }

/-! ## Retention -/

/-- The time of the newest event of a file. -/
def newestTs (raw : String) : Option Nat :=
  (((lines raw).reverse.filterMap fmt.fromJson).head?).map (·.ts)

/-- The generations from `n` on, `count` of them at most: one whose newest
event is expired is deleted, and the first that is missing ends the loop. -/
def pruneGenerations (cutoff : Nat) (removeOk : Nat → Bool) :
    Nat → Nat → AuditDir → Nat → AuditDir × Nat
  | 0, _, dir, removed => (dir, removed)
  | count + 1, n, dir, removed =>
    match dir.get (.generation n) with
    | none => (dir, removed)
    | some raw =>
      if (newestTs fmt raw).any (· < cutoff) && removeOk n then
        pruneGenerations cutoff removeOk count (n + 1) (dir.put (.generation n) none)
          (removed + (logLines raw).length)
      else pruneGenerations cutoff removeOk count (n + 1) dir removed

/-- Whether a line stays in the active file. -/
def notExpired (cutoff : Nat) (line : String) : Bool :=
  (fmt.fromJson line).any fun ev => cutoff ≤ ev.ts

/-- `prune_older_than`, with the count of removed lines. -/
def pruneOlderThan (s : AuditState) (cutoff : Nat) (removeOk : Nat → Bool) (rewriteOk : Bool) :
    AuditState × Nat :=
  let (dir, removed) := pruneGenerations fmt cutoff removeOk (max s.log.maxFiles 1) 1 s.dir 0
  match dir.active with
  | none => ({ s with dir := dir }, removed)
  | some raw =>
    let keepFrom := (logLines raw).findIdx (notExpired fmt cutoff)
    let kept := join ((logLines raw).drop keepFrom) "\n"
    let kept := if kept = "" then kept else kept ++ "\n"
    if 0 < keepFrom ∧ rewriteOk = true then
      ({ log := { s.log with
          currentSize := kept.utf8ByteSize
          recent := s.log.recent.filter fun ev => decide (cutoff ≤ ev.ts) }
         dir := dir.put .active (some kept) }, removed + keepFrom)
    else ({ s with dir := dir }, removed)

end AuditState

/-! ## Verification -/

section Verify

variable (fmt : AuditFormat)

/-- The loop of `verify_chain`: the line before, and the number of lines
read. -/
def verifyLines : Option String → Nat → List String → Option Nat
  | _, _, [] => none
  | prevLine, idx, line :: rest =>
    match fmt.fromJson line with
    | none => some (idx + 1)
    | some ev =>
      if ev.prev != "" && prevLine.any (fun p => ev.prev != fmt.lineHash p) then some (idx + 1)
      else verifyLines (some line) (idx + 1) rest

def verifyChain (raw : String) : Option Nat :=
  verifyLines fmt none 0 (logLines raw)

/-- What is broken in one file. -/
def brokenIn (file : AuditFile) (raw : String) : List (String × Nat) :=
  ((verifyChain fmt raw).map fun line => (file.fileName, line)).toList

/-- The generations from `n` on, up to the first that is missing. -/
def verifyGenerations : Nat → List (Option String) → List (String × Nat)
  | n, some raw :: rest => brokenIn fmt (.generation n) raw ++ verifyGenerations (n + 1) rest
  | _, _ => []

/-- `AuditLog::verify`. -/
def AuditDir.verify (dir : AuditDir) : List (String × Nat) :=
  verifyGenerations fmt 1 dir.generations ++ (dir.active.map (brokenIn fmt .active)).getD []

end Verify

/-! ## Runs -/

/-- What happens to a log, a restart with the settings of the time
included. -/
inductive AuditStep where
  | record (call : AuditCall) (append : AppendOutcome) (io : RotateIo)
  | setRotation (maxSize maxFiles : Nat)
  | prune (cutoff : Nat) (removeOk : Nat → Bool) (rewriteOk : Bool)
  | restart (maxSize maxFiles : Nat)

namespace AuditState

variable (fmt : AuditFormat)

def step (s : AuditState) : AuditStep → AuditState
  | .record call append io => s.record fmt call append io
  | .setRotation maxSize maxFiles => s.setRotation maxSize maxFiles
  | .prune cutoff removeOk rewriteOk => (s.pruneOlderThan fmt cutoff removeOk rewriteOk).1
  | .restart maxSize maxFiles => load fmt s.dir maxSize maxFiles

/-- A run from an empty data directory. -/
def run (maxSize maxFiles : Nat) (steps : List AuditStep) : AuditState :=
  steps.foldl (step fmt) (load fmt {} maxSize maxFiles)

end AuditState

end Aperio
