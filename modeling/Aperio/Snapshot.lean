import Mathlib.Data.Set.Basic
import Aperio.ByteOrder
import Aperio.Text

/-!
# Encrypted snapshots

`backup_crypto.rs`. A snapshot is written as a header and a run of frames,
each the length of its ciphertext and the ciphertext, sealed under a nonce
that counts the frames; an empty frame whose flag is set ends the file. The
reader decrypts into a temporary file beside its output and renames it at the
end.

`SnapshotFiles` puts the two loops of this module into files. The cipher is a parameter: `seal` is what it writes for a nonce, associated
data and a plaintext, `open` what it reads. `Aead.Ideal` is the assumption
about it, that it opens what was sealed with the key and nothing else.
`EncryptRun.sealings` is not in the source: it is what one encryption has
sealed, also when it failed half way.

Every call of the operating system can fail, and a read may give less than
was asked for; `Io` is one such world. Two paths name two files.
-/

namespace Aperio

/-! ## The operating system -/

inductive IoOp where
  | random
  | openIn
  | create
  | read (offset : Nat)
  | write (chunk : Nat)
  | flush
  | stat
  | rename
  | remove
deriving DecidableEq

structure Io where
  fails : IoOp → Bool := fun _ => false
  /-- The system's words for a failure. -/
  error : IoOp → String := fun _ => ""
  /-- How much one read gives, at least a byte and at most what was asked
  for. -/
  short : Nat → Nat := fun _ => 0
  /-- How much of what was written is on the disk when the writer is dropped
  early. -/
  flushed : Nat := 0
  /-- What is read from a file that is being written to. -/
  overlap : Bytes → Bytes := id

def Io.run (io : Io) (op : IoOp) : Except String Unit :=
  if io.fails op then .error (io.error op) else .ok ()

/-- Nothing fails. -/
def Io.Calm (io : Io) : Prop :=
  ∀ op, io.fails op = false

/-! ## The format -/

def snapshotMagic : Bytes := [0x41, 0x50, 0x45, 0x52, 0x49, 0x4f, 0x42, 0x4b]

def snapshotVersion : UInt8 := 1

def tagLen : Nat := 16

def noncePrefixLen : Nat := 8

/-- Plaintext bytes per chunk. -/
def chunkLen : Nat := 1024 * 1024

def maxChunkSize : Nat := 64 * 1024 * 1024

/-- `nonce_prefix || counter`. -/
def chunkNonce (noncePrefix : Bytes) (counter : Nat) : Bytes :=
  noncePrefix ++ beBytes 4 counter

/-- A chunk's position, whether it ends the file, and its length. -/
def chunkAad (counter : Nat) (last : Bool) (len : Nat) : Bytes :=
  snapshotVersion :: beBytes 4 counter ++ (if last then 1 else 0) :: beBytes 4 len

/-- The cipher under one key. -/
structure Aead where
  sealChunk : Bytes → Bytes → Bytes → Bytes
  openChunk : Bytes → Bytes → Bytes → Option Bytes

/-- One use of the key. -/
structure Sealing where
  nonce : Bytes
  aad : Bytes
  plaintext : Bytes
deriving DecidableEq

def sealingOf (noncePrefix : Bytes) (counter : Nat) (last : Bool) (plaintext : Bytes) : Sealing where
  nonce := chunkNonce noncePrefix counter
  aad := chunkAad counter last (plaintext.length + tagLen)
  plaintext := plaintext

/-- `seal`: the ciphertext with its tag. -/
def Aead.seal (aead : Aead) (sealing : Sealing) : Bytes :=
  aead.sealChunk sealing.nonce sealing.aad sealing.plaintext

/-- `open`. -/
def Aead.open (aead : Aead) (noncePrefix : Bytes) (counter : Nat) (last : Bool) (data : Bytes) :
    Option Bytes :=
  aead.openChunk (chunkNonce noncePrefix counter) (chunkAad counter last data.length) data

/-- A frame: its length, then the ciphertext. -/
def frameOf (ciphertext : Bytes) : Bytes :=
  beBytes 4 ciphertext.length ++ ciphertext

/-! ## Writing -/

/-- The loop that fills one buffer: as many reads as it takes, until it is
full or the file ends. The chunk and what is left of the file. -/
def fill (io : Io) (pos room : Nat) (rest : Bytes) : Except String (Bytes × Bytes) :=
  match room, rest with
  | 0, rest => .ok ([], rest)
  | room + 1, rest =>
    if io.fails (.read pos) then .error (io.error (.read pos))
    else
      match rest with
      | [] => .ok ([], [])
      | rest =>
        let n := min (max (io.short pos) 1) (room + 1)
        match fill io (pos + n) (room + 1 - n) (rest.drop n) with
        | .error e => .error e
        | .ok (chunk, left) => .ok (rest.take n ++ chunk, left)
termination_by room

/-- What a full buffer takes, it takes in order, however short the reads
were. -/
theorem fill_ok {io : Io} {pos room : Nat} {rest chunk left : Bytes}
    (h : fill io pos room rest = .ok (chunk, left)) :
    chunk = rest.take room ∧ left = rest.drop room := by
  induction room using Nat.strong_induction_on generalizing pos rest chunk left with
  | _ room ih =>
      unfold fill at h
      split at h
      · cases h
        exact ⟨rfl, rfl⟩
      · rename_i room
        split at h
        · cases h
        · split at h
          · cases h
            simp
          · rename_i rest hne
            extract_lets n at h
            have hn : 1 ≤ n ∧ n ≤ room + 1 := by omega
            split at h
            · cases h
            · rename_i chunk' left' hfill
              cases h
              obtain ⟨rfl, rfl⟩ := ih (room + 1 - n) (by omega) hfill
              have hsum : n + (room + 1 - n) = room + 1 := by omega
              rw [← List.take_add, List.drop_drop, hsum]
              exact ⟨rfl, rfl⟩

/-- Where nothing fails the buffer is filled. -/
theorem fill_calm {io : Io} (hio : io.Calm) (pos room : Nat) (rest : Bytes) :
    fill io pos room rest = .ok (rest.take room, rest.drop room) := by
  suffices h : ∃ out, fill io pos room rest = .ok out by
    obtain ⟨⟨chunk, left⟩, hout⟩ := h
    obtain ⟨rfl, rfl⟩ := fill_ok hout
    exact hout
  induction room using Nat.strong_induction_on generalizing pos rest with
  | _ room ih =>
      unfold fill
      split
      · exact ⟨_, rfl⟩
      · rename_i room
        rw [if_neg (by simp [hio (.read pos)])]
        split
        · exact ⟨_, rfl⟩
        · extract_lets n
          have hn : 1 ≤ n ∧ n ≤ room + 1 := by omega
          obtain ⟨out, hout⟩ := ih (room + 1 - n) (by omega) (pos + n) (rest.drop n)
          rw [hout]
          exact ⟨_, rfl⟩

/-- One run of the loop of `encrypt_file`: what it sealed, and the frames or
why it stopped. -/
structure EncryptRun where
  sealings : List Sealing
  result : Except String Bytes

/-- The loop of `encrypt_file` from one chunk on. -/
def encryptChunks (aead : Aead) (io : Io) (noncePrefix : Bytes) (counter : Nat) (rest : Bytes) :
    EncryptRun :=
  match hfill : fill io (counter * chunkLen) chunkLen rest with
  | .error e => ⟨[], .error e⟩
  | .ok ([], _) =>
    -- the end marker: an empty chunk whose flag is set
    let sealing := sealingOf noncePrefix counter true []
    if io.fails (.write counter) then ⟨[sealing], .error (io.error (.write counter))⟩
    else ⟨[sealing], .ok (frameOf (aead.seal sealing))⟩
  | .ok (b :: chunk, left) =>
    let sealing := sealingOf noncePrefix counter false (b :: chunk)
    if io.fails (.write counter) then ⟨[sealing], .error (io.error (.write counter))⟩
    else if counter + 1 < 2 ^ 32 then
      let run := encryptChunks aead io noncePrefix (counter + 1) left
      ⟨sealing :: run.sealings, run.result.map (frameOf (aead.seal sealing) ++ ·)⟩
    else ⟨[sealing], .error "snapshot too large to encrypt"⟩
termination_by rest.length
decreasing_by
  obtain ⟨hchunk, rfl⟩ := fill_ok hfill
  have hpos : 0 < (rest.take chunkLen).length := by
    rw [← hchunk]
    exact Nat.succ_pos _
  rw [List.length_take] at hpos
  rw [List.length_drop]
  omega

def snapshotHeader (noncePrefix : Bytes) : Bytes :=
  snapshotMagic ++ snapshotVersion :: beBytes 4 chunkLen ++ noncePrefix

/-- `encrypt_file`, as the file it writes; the source returns its size. The
paths are as they are displayed. -/
def encryptFile (aead : Aead) (io : Io) (noncePrefix plaintext : Bytes)
    (plaintextPath outPath : String) : Except String Bytes := do
  (io.run .random).mapError fun _ => "no randomness available for the backup nonce"
  (io.run .openIn).mapError fun e => "cannot read the snapshot " ++ plaintextPath ++ ": " ++ e
  (io.run .create).mapError fun e => "cannot write " ++ outPath ++ ": " ++ e
  let frames ← (encryptChunks aead io noncePrefix 0 plaintext).result
  io.run .flush
  (io.run .stat).mapError fun e => "cannot stat " ++ outPath ++ ": " ++ e
  return snapshotHeader noncePrefix ++ frames

/-! ## Reading -/

/-- `read_exact`: all of it or nothing. -/
def readExact (io : Io) (pos n : Nat) (input : Bytes) : Option (Bytes × Bytes) :=
  if io.fails (.read pos) ∨ input.length < n then none else some (input.take n, input.drop n)

theorem readExact_eq_some {io : Io} {pos n : Nat} {input bytes rest : Bytes}
    (h : readExact io pos n input = some (bytes, rest)) :
    bytes.length = n ∧ input = bytes ++ rest := by
  unfold readExact at h
  split at h
  · cases h
  · rename_i hcond
    simp only [not_or, Nat.not_lt] at hcond
    cases h
    exact ⟨List.length_take_of_le hcond.2, (List.take_append_drop n input).symm⟩

theorem readExact_calm {io : Io} (hio : io.Calm) (pos : Nat) (bytes rest : Bytes) :
    readExact io pos bytes.length (bytes ++ rest) = some (bytes, rest) := by
  have hcond : ¬(io.fails (.read pos) = true ∨ (bytes ++ rest).length < bytes.length) := by
    simp [hio (.read pos)]
  rw [readExact, if_neg hcond, List.take_left, List.drop_left]

/-- The loop of `decrypt_into` from one frame on: what it has written, and
whether it came to the end marker. -/
def openFrames (aead : Aead) (io : Io) (inPath : String) (noncePrefix : Bytes) (chunkSize : Nat)
    (pos counter : Nat) (input written : Bytes) : Bytes × Except String Unit :=
  match _hframe : readExact io pos 4 input with
  | none =>
    (written, .error (inPath ++ " ends without its final marker: the backup is truncated"))
  | some (frame, rest) =>
    let len := ofBeBytes frame
    if len < tagLen ∨ chunkSize + tagLen < len then
      (written, .error (inPath ++ " declares a chunk of " ++ toString len ++ " bytes at chunk " ++
        toString counter ++ ", which cannot be right"))
    else
      match _hdata : readExact io (pos + 4) len rest with
      | none => (written, .error (inPath ++ " ends part-way through chunk " ++ toString counter ++
          ": the backup is truncated"))
      | some (data, input') =>
        -- the length says which flag to open with; the tag decides
        let last := len == tagLen
        match aead.open noncePrefix counter last data with
        | none => (written, .error (inPath ++ " failed to decrypt at chunk " ++ toString counter ++
            ": wrong key, or the file was altered, reordered or truncated"))
        | some plain =>
          if last then
            if io.fails .flush then (written, .error (io.error .flush)) else (written, .ok ())
          else if io.fails (.write counter) then (written, .error (io.error (.write counter)))
          else if counter + 1 < 2 ^ 32 then
            openFrames aead io inPath noncePrefix chunkSize (pos + 4 + len) (counter + 1) input'
              (written ++ plain)
          else (written ++ plain, .error "snapshot too large to decrypt")
termination_by input.length
decreasing_by
  obtain ⟨hlen, rfl⟩ := readExact_eq_some _hframe
  obtain ⟨-, rfl⟩ := readExact_eq_some _hdata
  simp only [List.length_append]
  omega

/-- The loop without the equations its termination needs. -/
theorem openFrames_eq (aead : Aead) (io : Io) (inPath : String) (noncePrefix : Bytes)
    (chunkSize pos counter : Nat) (input written : Bytes) :
    openFrames aead io inPath noncePrefix chunkSize pos counter input written =
      match readExact io pos 4 input with
      | none =>
        (written, .error (inPath ++ " ends without its final marker: the backup is truncated"))
      | some (frame, rest) =>
        if ofBeBytes frame < tagLen ∨ chunkSize + tagLen < ofBeBytes frame then
          (written, .error (inPath ++ " declares a chunk of " ++ toString (ofBeBytes frame) ++
            " bytes at chunk " ++ toString counter ++ ", which cannot be right"))
        else
          match readExact io (pos + 4) (ofBeBytes frame) rest with
          | none => (written, .error (inPath ++ " ends part-way through chunk " ++
              toString counter ++ ": the backup is truncated"))
          | some (data, input') =>
            match aead.open noncePrefix counter (ofBeBytes frame == tagLen) data with
            | none => (written, .error (inPath ++ " failed to decrypt at chunk " ++
                toString counter ++
                ": wrong key, or the file was altered, reordered or truncated"))
            | some plain =>
              if ofBeBytes frame == tagLen then
                if io.fails .flush then (written, .error (io.error .flush)) else (written, .ok ())
              else if io.fails (.write counter) then
                (written, .error (io.error (.write counter)))
              else if counter + 1 < 2 ^ 32 then
                openFrames aead io inPath noncePrefix chunkSize (pos + 4 + ofBeBytes frame)
                  (counter + 1) input' (written ++ plain)
              else (written ++ plain, .error "snapshot too large to decrypt") := by
  rw [openFrames]
  split
  · rename_i hframe
    rw [hframe]
  · rename_i frame rest hframe
    rw [hframe]
    refine if_congr Iff.rfl rfl ?_
    split
    · rename_i hdata
      rw [hdata]
    · rename_i data input' hdata
      rw [hdata]

/-! ## What one encryption seals -/

variable {aead : Aead} {io : Io} {noncePrefix : Bytes} {counter : Nat}

/-- **Inversion of the writing loop.** A buffer could not be filled; or the
file is at its end and the marker is sealed; or the next chunk is sealed, and
the loop stops there or goes on behind it. -/
theorem encryptChunks_cases (aead : Aead) (io : Io) (noncePrefix : Bytes) (counter : Nat)
    (rest : Bytes) :
    let run := encryptChunks aead io noncePrefix counter rest
    let next := encryptChunks aead io noncePrefix (counter + 1) (rest.drop chunkLen)
    let mark := sealingOf noncePrefix counter true []
    let chunk := sealingOf noncePrefix counter false (rest.take chunkLen)
    (¬io.Calm ∧ run.sealings = [] ∧ ∃ e, run.result = .error e) ∨
    (rest = [] ∧ run.sealings = [mark] ∧
      (run.result = .ok (frameOf (aead.seal mark)) ∨ ¬io.Calm ∧ ∃ e, run.result = .error e)) ∨
    (rest ≠ [] ∧ run.sealings = [chunk] ∧ ((¬io.Calm ∧ ∃ e, run.result = .error e) ∨
      (2 ^ 32 ≤ counter + 1 ∧ run.result = .error "snapshot too large to encrypt"))) ∨
    (rest ≠ [] ∧ counter + 1 < 2 ^ 32 ∧ run.sealings = chunk :: next.sealings ∧
      run.result = next.result.map (frameOf (aead.seal chunk) ++ ·)) := by
  intro run next mark chunk
  have hstorm : ∀ {op}, io.fails op = true → ¬io.Calm := by
    intro op hop hcalm
    rw [hcalm op] at hop
    cases hop
  unfold run
  rw [encryptChunks]
  split
  · rename_i e hfill
    refine Or.inl ⟨?_, rfl, e, rfl⟩
    intro hcalm
    rw [fill_calm hcalm] at hfill
    cases hfill
  · rename_i left hfill
    obtain ⟨hnil, -⟩ := fill_ok hfill
    have hrest : rest = [] := by
      cases rest with
      | nil => rfl
      | cons b rest => simp [chunkLen] at hnil
    refine Or.inr (Or.inl ⟨hrest, ?_⟩)
    extract_lets
    split
    · rename_i hfail
      exact ⟨rfl, Or.inr ⟨hstorm hfail, _, rfl⟩⟩
    · exact ⟨rfl, Or.inl rfl⟩
  · rename_i b tail left hfill
    obtain ⟨hchunk, rfl⟩ := fill_ok hfill
    have hne : rest ≠ [] := by
      rintro rfl
      simp at hchunk
    extract_lets sealing
    have hsealing : sealing = chunk := by
      simp only [sealing, chunk, hchunk]
    rw [hsealing]
    split
    · rename_i hfail
      exact Or.inr (Or.inr (Or.inl ⟨hne, rfl, Or.inl ⟨hstorm hfail, _, rfl⟩⟩))
    · split
      · rename_i hroom
        exact Or.inr (Or.inr (Or.inr ⟨hne, hroom, rfl, rfl⟩))
      · rename_i hroom
        exact Or.inr (Or.inr (Or.inl ⟨hne, rfl, Or.inr ⟨by omega, rfl⟩⟩))

/-- A chunk behind the first is shorter by one. -/
theorem length_drop_chunk {rest : Bytes} (h : rest ≠ []) :
    (rest.drop chunkLen).length < rest.length := by
  have hpos := List.length_pos_iff.mpr h
  rw [List.length_drop, chunkLen]
  omega

/-- **What fits.** Where nothing fails, the loop writes its frames for as
many chunks as there are counters left before the marker's. -/
theorem encryptChunks_calm (hio : io.Calm) {rest : Bytes} (hcounter : counter < 2 ^ 32) :
    (rest.length ≤ (2 ^ 32 - 1 - counter) * chunkLen →
      ∃ frames, (encryptChunks aead io noncePrefix counter rest).result = .ok frames) ∧
    ((2 ^ 32 - 1 - counter) * chunkLen < rest.length →
      (encryptChunks aead io noncePrefix counter rest).result =
        .error "snapshot too large to encrypt") := by
  induction hlen : rest.length using Nat.strong_induction_on generalizing counter rest with
  | _ len ih =>
      subst hlen
      rcases encryptChunks_cases aead io noncePrefix counter rest with
        ⟨hstorm, -⟩ | ⟨rfl, -, hmark⟩ | ⟨hne, -, hstop⟩ | ⟨hne, hroom, -, hnext⟩
      · exact absurd hio hstorm
      · rcases hmark with hok | ⟨hstorm, -⟩
        · exact ⟨fun _ => ⟨_, hok⟩, fun hbig => absurd hbig (Nat.not_lt_zero _)⟩
        · exact absurd hio hstorm
      · rcases hstop with ⟨hstorm, -⟩ | ⟨hfull, hbig⟩
        · exact absurd hio hstorm
        · have hpos := List.length_pos_iff.mpr hne
          have hzero : 2 ^ 32 - 1 - counter = 0 := by omega
          rw [hzero, Nat.zero_mul]
          exact ⟨fun hsmall => absurd hsmall (by omega), fun _ => hbig⟩
      · obtain ⟨hfits, hbig⟩ := ih _ (length_drop_chunk hne) hroom rfl
        have hsplit : (2 ^ 32 - 1 - counter) * chunkLen =
            (2 ^ 32 - 1 - (counter + 1)) * chunkLen + chunkLen := by
          rw [← Nat.succ_mul]
          congr 1
          omega
        rw [List.length_drop] at hfits hbig
        rw [hnext, hsplit]
        constructor
        · intro hle
          obtain ⟨frames, hframes⟩ := hfits (by omega)
          rw [hframes]
          exact ⟨_, rfl⟩
        · intro hlt
          rw [hbig (by omega)]
          rfl

/-! ## The cipher -/

/-- The cipher is ideal for what was sealed with its key: it opens that under
its own nonce and associated data, and nothing else under any. -/
structure Aead.Ideal (aead : Aead) (used : Set Sealing) : Prop where
  opens : ∀ nonce aad data plain, aead.openChunk nonce aad data = some plain ↔
    (⟨nonce, aad, plain⟩ : Sealing) ∈ used ∧ data = aead.sealChunk nonce aad plain
  tagged : ∀ sealing ∈ used, (aead.seal sealing).length = sealing.plaintext.length + tagLen

/-- What was sealed opens, at its place and with its flag. -/
theorem Aead.Ideal.open_seal {used : Set Sealing} (h : aead.Ideal used) {last : Bool}
    {plain : Bytes} (hmem : sealingOf noncePrefix counter last plain ∈ used) :
    aead.open noncePrefix counter last (aead.seal (sealingOf noncePrefix counter last plain)) =
      some plain := by
  have hlen := h.tagged _ hmem
  rw [Aead.open, hlen, h.opens]
  exact ⟨hmem, rfl⟩

/-- What opens was sealed, with a flag and a length that are its own. -/
theorem Aead.Ideal.open_eq_some {used : Set Sealing} (h : aead.Ideal used) {last : Bool}
    {data plain : Bytes} (hopen : aead.open noncePrefix counter last data = some plain) :
    sealingOf noncePrefix counter last plain ∈ used := by
  obtain ⟨hmem, hdata⟩ := (h.opens _ _ _ _).mp hopen
  have hlen := h.tagged _ hmem
  have hdatalen : data.length = plain.length + tagLen := by
    rw [hdata]
    exact hlen
  rw [hdatalen] at hmem
  exact hmem

theorem chunkNonce_inj {p q : Bytes} {i j : Nat} (hi : i < 2 ^ 32) (hj : j < 2 ^ 32)
    (h : chunkNonce p i = chunkNonce q j) : p = q ∧ i = j := by
  obtain ⟨hpre, hcounter⟩ := List.append_inj' h (by simp)
  exact ⟨hpre, beBytes_inj (by simpa using hi) (by simpa using hj) hcounter⟩

theorem chunkAad_last {i j m n : Nat} {a b : Bool} (h : chunkAad i a m = chunkAad j b n) :
    a = b := by
  simp only [chunkAad, List.cons_append, List.cons.injEq, true_and] at h
  obtain ⟨-, htail⟩ := List.append_inj h (by simp)
  have hflag := (List.cons.inj htail).1
  cases a <;> cases b <;> first | rfl | (exact absurd hflag (by decide))

theorem sealingOf_inj {last flag : Bool} {plain chunk : Bytes}
    (h : sealingOf noncePrefix counter last plain = sealingOf noncePrefix counter flag chunk) :
    last = flag ∧ plain = chunk :=
  ⟨chunkAad_last (congrArg Sealing.aad h), congrArg Sealing.plaintext h⟩

/-! ## There and back -/

/-- **Inversion of the reading loop.** A run that ends well opened a frame:
the marker, and then it is done, or a chunk, and then it goes on. -/
theorem openFrames_ok {inPath : String} {chunkSize pos : Nat} {input written out : Bytes}
    (h : openFrames aead io inPath noncePrefix chunkSize pos counter input written =
      (out, .ok ())) :
    ∃ last data plain, aead.open noncePrefix counter last data = some plain ∧
      ((last = true ∧ out = written) ∨
        (last = false ∧ counter + 1 < 2 ^ 32 ∧ ∃ pos' input', input'.length < input.length ∧
          openFrames aead io inPath noncePrefix chunkSize pos' (counter + 1) input'
            (written ++ plain) = (out, .ok ()))) := by
  rw [openFrames_eq] at h
  split at h
  · cases h
  · rename_i frame rest hframe
    split at h
    · cases h
    · split at h
      · cases h
      · rename_i data input' hdata
        split at h
        · cases h
        · rename_i plain hopen
          refine ⟨_, data, plain, hopen, ?_⟩
          split at h
          · rename_i hlast
            split at h
            · cases h
            · cases h
              exact Or.inl ⟨hlast, rfl⟩
          · rename_i hlast
            split at h
            · cases h
            · split at h
              · rename_i hroom
                obtain ⟨hlen, rfl⟩ := readExact_eq_some hframe
                obtain ⟨-, rfl⟩ := readExact_eq_some hdata
                refine Or.inr ⟨by simpa using hlast, hroom, _, input', ?_, h⟩
                simp only [List.length_append]
                omega
              · cases h

/-- One frame of the file, read where nothing fails. -/
theorem openFrames_frame {used : Set Sealing} (hideal : aead.Ideal used) (hio : io.Calm)
    (inPath : String) {chunkSize : Nat} (hsize : chunkLen ≤ chunkSize) (pos : Nat)
    {last : Bool} {plain : Bytes} (hflag : last = true ↔ plain = [])
    (hplain : plain.length ≤ chunkLen)
    (hmem : sealingOf noncePrefix counter last plain ∈ used) (input written : Bytes) :
    openFrames aead io inPath noncePrefix chunkSize pos counter
        (frameOf (aead.seal (sealingOf noncePrefix counter last plain)) ++ input) written =
      if last then (written, .ok ())
      else if counter + 1 < 2 ^ 32 then
        openFrames aead io inPath noncePrefix chunkSize (pos + 4 + (plain.length + tagLen))
          (counter + 1) input (written ++ plain)
      else (written ++ plain, .error "snapshot too large to decrypt") := by
  have hlen := hideal.tagged _ hmem
  have hopen := hideal.open_seal hmem
  generalize aead.seal (sealingOf noncePrefix counter last plain) = data at hlen hopen
  change data.length = plain.length + tagLen at hlen
  have hread := readExact_calm hio pos (beBytes 4 data.length) (data ++ input)
  rw [length_beBytes] at hread
  have hdata := readExact_calm hio (pos + 4) data input
  have hsmall : data.length < 256 ^ 4 := by
    simp only [chunkLen, tagLen] at hplain hlen
    omega
  -- the length says the flag the chunk was sealed with
  have hlast : (data.length == tagLen) = last := by
    rw [Bool.eq_iff_iff, hflag, beq_iff_eq, ← List.length_eq_zero_iff]
    omega
  have hframe : ¬(data.length < tagLen ∨ chunkSize + tagLen < data.length) := by omega
  rw [frameOf, List.append_assoc, openFrames_eq]
  simp only [hread, ofBeBytes_beBytes_of_lt hsmall, hframe, hdata, hlast, hopen, hio .flush,
    hio (.write counter), Bool.false_eq_true, if_false]
  rw [hlen]

/-- **Reading what was written.** The frames of a finished encryption give
back the plaintext, whatever follows them. -/
theorem openFrames_sealed {used : Set Sealing} (hideal : aead.Ideal used) (hio : io.Calm)
    (inPath : String) {chunkSize : Nat} (hsize : chunkLen ≤ chunkSize) {writer : Io}
    {rest frames : Bytes}
    (hrun : (encryptChunks aead writer noncePrefix counter rest).result = .ok frames)
    (hused : ∀ s ∈ (encryptChunks aead writer noncePrefix counter rest).sealings, s ∈ used)
    (pos : Nat) (tail written : Bytes) :
    openFrames aead io inPath noncePrefix chunkSize pos counter (frames ++ tail) written =
      (written ++ rest, .ok ()) := by
  induction hlen : rest.length using Nat.strong_induction_on
    generalizing counter rest frames pos written with
  | _ len ih =>
      subst hlen
      rcases encryptChunks_cases aead writer noncePrefix counter rest with
        ⟨-, -, e, he⟩ | ⟨rfl, hseal, hmark⟩ | ⟨-, -, hstop⟩ | ⟨hne, hroom, hseal, hnext⟩
      · rw [he] at hrun
        cases hrun
      · rcases hmark with hok | ⟨-, e, he⟩
        · rw [hok] at hrun
          cases hrun
          have hmem := hused _ (by rw [hseal]; exact List.mem_singleton_self _)
          rw [openFrames_frame hideal hio inPath hsize pos (by simp) (Nat.zero_le _) hmem]
          simp
        · rw [he] at hrun
          cases hrun
      · rcases hstop with ⟨-, e, he⟩ | ⟨-, he⟩
        · rw [he] at hrun
          cases hrun
        · rw [he] at hrun
          cases hrun
      · rw [hnext] at hrun
        cases hframes : (encryptChunks aead writer noncePrefix (counter + 1)
            (rest.drop chunkLen)).result with
        | error e =>
            rw [hframes] at hrun
            cases hrun
        | ok following =>
            rw [hframes] at hrun
            cases hrun
            rw [hseal] at hused
            have hmem := hused _ List.mem_cons_self
            have hflag : false = true ↔ rest.take chunkLen = [] := by
              simp [chunkLen, hne]
            rw [List.append_assoc, openFrames_frame hideal hio inPath hsize pos hflag
              (List.length_take_le _ _) hmem, if_neg (by decide), if_pos hroom,
              ih _ (length_drop_chunk hne) hframes
                (fun s hs => hused s (List.mem_cons_of_mem _ hs)) _ _ rfl,
              List.append_assoc, List.take_append_drop]

/-- A sealing of one loop carries a counter from where the loop began. -/
theorem counter_of_mem_sealings {writer : Io} {rest : Bytes} {s : Sealing}
    (h : s ∈ (encryptChunks aead writer noncePrefix counter rest).sealings)
    (hcounter : counter < 2 ^ 32) :
    ∃ i, counter ≤ i ∧ i < 2 ^ 32 ∧ s.nonce = chunkNonce noncePrefix i := by
  induction hlen : rest.length using Nat.strong_induction_on generalizing counter rest with
  | _ len ih =>
      subst hlen
      rcases encryptChunks_cases aead writer noncePrefix counter rest with
        ⟨-, hseal, -⟩ | ⟨-, hseal, -⟩ | ⟨-, hseal, -⟩ | ⟨hne, hroom, hseal, -⟩
      · rw [hseal] at h
        cases h
      · rw [hseal, List.mem_singleton] at h
        exact ⟨counter, Nat.le_refl _, hcounter, by rw [h]; rfl⟩
      · rw [hseal, List.mem_singleton] at h
        exact ⟨counter, Nat.le_refl _, hcounter, by rw [h]; rfl⟩
      · rw [hseal, List.mem_cons] at h
        rcases h with h | h
        · exact ⟨counter, Nat.le_refl _, hcounter, by rw [h]; rfl⟩
        · obtain ⟨i, hle, hi, hnonce⟩ := ih _ (length_drop_chunk hne) h hroom rfl
          exact ⟨i, by omega, hi, hnonce⟩

/-- What the rest of a loop seals is not what it sealed at this counter. -/
theorem not_mem_later_sealings {writer : Io} {later plain : Bytes} {last : Bool}
    (hroom : counter + 1 < 2 ^ 32) : sealingOf noncePrefix counter last plain ∉
      (encryptChunks aead writer noncePrefix (counter + 1) later).sealings := by
  intro hin
  obtain ⟨i, hle, hi, hnonce⟩ := counter_of_mem_sealings hin hroom
  have hsame := (chunkNonce_inj (by omega) hi hnonce).2
  omega

/-- **Integrity of the frames.** If everything sealed from this counter on
under the prefix was sealed by one encryption, frames that decrypt to their
end decrypt to what was left of its plaintext there. -/
theorem openFrames_integrity {used : Set Sealing} (hideal : aead.Ideal used) {writer : Io}
    {rest : Bytes} (hcounter : counter < 2 ^ 32)
    (honly : ∀ s ∈ used, ∀ i, counter ≤ i → i < 2 ^ 32 → s.nonce = chunkNonce noncePrefix i →
      s ∈ (encryptChunks aead writer noncePrefix counter rest).sealings)
    {inPath : String} {chunkSize pos : Nat} {input written out : Bytes}
    (h : openFrames aead io inPath noncePrefix chunkSize pos counter input written =
      (out, .ok ())) : out = written ++ rest := by
  induction hlen : input.length using Nat.strong_induction_on
    generalizing counter rest pos input written with
  | _ len ih =>
      subst hlen
      obtain ⟨last, data, plain, hopen, hthen⟩ := openFrames_ok h
      have hmem := honly _ (hideal.open_eq_some hopen) counter (Nat.le_refl _) hcounter rfl
      rcases encryptChunks_cases aead writer noncePrefix counter rest with
        ⟨-, hseal, -⟩ | ⟨rfl, hseal, -⟩ | ⟨hne, hseal, -⟩ | ⟨hne, hroom, hseal, -⟩
      · rw [hseal] at hmem
        cases hmem
      · rw [hseal, List.mem_singleton] at hmem
        obtain ⟨rfl, rfl⟩ := sealingOf_inj hmem
        rcases hthen with ⟨-, rfl⟩ | ⟨hfalse, -⟩
        · rw [List.append_nil]
        · cases hfalse
      · rw [hseal, List.mem_singleton] at hmem
        obtain ⟨rfl, rfl⟩ := sealingOf_inj hmem
        rcases hthen with ⟨htrue, -⟩ | ⟨-, hroom, pos', input', hshort, hgo⟩
        · cases htrue
        · -- that encryption stopped here, and nothing opens at the next counter
          obtain ⟨last', data', plain', hopen', -⟩ := openFrames_ok hgo
          have hin := honly _ (hideal.open_eq_some hopen') (counter + 1) (Nat.le_succ _) hroom rfl
          rw [hseal, List.mem_singleton] at hin
          have := (chunkNonce_inj hroom hcounter (congrArg Sealing.nonce hin)).2
          omega
      · rw [hseal, List.mem_cons] at hmem
        rcases hmem with hmem | hmem
        · obtain ⟨rfl, rfl⟩ := sealingOf_inj hmem
          rcases hthen with ⟨htrue, -⟩ | ⟨-, -, pos', input', hshort, hgo⟩
          · cases htrue
          · have honly' : ∀ s ∈ used, ∀ i, counter + 1 ≤ i → i < 2 ^ 32 →
                s.nonce = chunkNonce noncePrefix i → s ∈ (encryptChunks aead writer noncePrefix
                  (counter + 1) (rest.drop chunkLen)).sealings := by
              intro s hs i hle hi hnonce
              have hin := honly s hs i (by omega) hi hnonce
              rw [hseal, List.mem_cons] at hin
              rcases hin with rfl | hin
              · have := (chunkNonce_inj hcounter hi hnonce).2
                omega
              · exact hin
            have hout := ih _ hshort hroom honly' hgo rfl
            rw [hout, List.append_assoc, List.take_append_drop]
        · exact absurd hmem (not_mem_later_sealings hroom)

end Aperio
