import Aperio.Results
import Aperio.Snapshot

/-!
# Snapshot files

`encrypt_file` and `decrypt_file` of `backup_crypto.rs` over a disk. A
decryption reads the header, opens the frames into a temporary file beside
the output and renames it when the end marker was there.

The counter has 32 bits and the marker needs one of its values, so
`maxSnapshot` is the largest plaintext there is a file for; a longer one is
refused. The temporary path is the output's with its extension replaced, so
an output that ends in `.partial` is its own temporary file, and what a
failure leaves there is not said.
-/

namespace Aperio

/-! ## Files -/

/-- A path, as far as its last name matters. -/
structure SnapshotPath where
  dir : String
  name : Option String
deriving DecidableEq

/-- `Path::file_stem`: the name without what follows its last dot, unless
that dot is its first character. -/
def fileStem (name : String) : String :=
  match name.toList.reverse.dropWhile (· != '.') with
  | _ :: c :: rest => String.ofList (c :: rest).reverse
  | _ => name

/-- `Path::with_extension`. -/
def SnapshotPath.withExtension (path : SnapshotPath) (ext : String) : SnapshotPath :=
  { path with name := path.name.map fun name => fileStem name ++ "." ++ ext }

def SnapshotPath.display (path : SnapshotPath) : String :=
  path.dir ++ path.name.getD ""

/-- The temporary file beside an output. -/
def SnapshotPath.partialPath (path : SnapshotPath) : SnapshotPath :=
  path.withExtension "partial"

example : (SnapshotPath.mk "/backup/" (some "aperio.db")).partialPath =
    ⟨"/backup/", some "aperio.partial"⟩ := by decide

abbrev Files := SnapshotPath → Option Bytes

/-- The header of `decrypt_into`: the prefix of the nonces, the chunk size and
the rest of the file. -/
def readHeader (io : Io) (inPath : String) (input : Bytes) :
    Except String (Bytes × Nat × Bytes) :=
  match readExact io 0 8 input with
  | none => .error (inPath ++ " is too short to be an encrypted snapshot")
  | some (magic, input) =>
    if magic ≠ snapshotMagic then .error (inPath ++ " is not an encrypted Aperio snapshot")
    else
      match readExact io 8 1 input with
      | none => .error (io.error (.read 8))
      | some (version, input) =>
        if version ≠ [snapshotVersion] then
          .error (inPath ++ " was written in format version " ++
            toString (version.headD 0) ++ ", which this build does not read")
        else
          match readExact io 9 4 input with
          | none => .error (io.error (.read 9))
          | some (size, input) =>
            let chunkSize := ofBeBytes size
            if chunkSize = 0 ∨ maxChunkSize < chunkSize then
              .error (inPath ++ " declares an unusable chunk size")
            else
              match readExact io 13 noncePrefixLen input with
              | none => .error (io.error (.read 13))
              | some (noncePrefix, input) => .ok (noncePrefix, chunkSize, input)

/-- `decrypt_into`: the files afterwards, and what was written or why it
failed. A failed run leaves what had reached the disk. -/
def decryptInto (aead : Aead) (io : Io) (files : Files) (inPath outPath : SnapshotPath) :
    Files × Except String Bytes :=
  match files inPath, io.run .openIn with
  | none, _ => (files, .error ("cannot read " ++ inPath.display ++ ": " ++ io.error .openIn))
  | _, .error e => (files, .error ("cannot read " ++ inPath.display ++ ": " ++ e))
  | some input, .ok () =>
    match readHeader io inPath.display input with
    | .error e => (files, .error e)
    | .ok (noncePrefix, chunkSize, frames) =>
      if io.fails .create then
        (files, .error ("cannot write " ++ outPath.display ++ ": " ++ io.error .create))
      else
        -- creating the output empties the input when the two are one file
        let frames := if inPath = outPath then io.overlap frames else frames
        match openFrames aead io inPath.display noncePrefix chunkSize 21 0 frames [] with
        | (written, .error e) =>
          (Function.update files outPath (some (written.take io.flushed)), .error e)
        | (written, .ok ()) =>
          (Function.update files outPath (some written),
            if io.fails .stat then
              .error ("cannot stat " ++ outPath.display ++ ": " ++ io.error .stat)
            else .ok written)

/-- `decrypt_file`: the files afterwards, and the bytes decrypted, whose
number the source returns. -/
def decryptFile (aead : Aead) (io : Io) (files : Files) (inPath outPath : SnapshotPath) :
    Files × Except String Bytes :=
  match decryptInto aead io files inPath outPath.partialPath with
  | (files, .ok written) =>
    if io.fails .rename then
      (files, .error ("cannot move the decrypted snapshot into place: " ++ io.error .rename))
    else
      (Function.update (Function.update files outPath.partialPath none) outPath
        (files outPath.partialPath), .ok written)
  | (files, .error e) =>
    -- whether the temporary file could be removed is not asked
    (if io.fails .remove then files else Function.update files outPath.partialPath none, .error e)

variable {aead : Aead} {io : Io} {noncePrefix : Bytes}

/-! ## Whole files -/

/-- The most an encryption takes: a counter for every chunk and one for the
marker. -/
def maxSnapshot : Nat := (2 ^ 32 - 1) * chunkLen

/-- An encrypted file is its header and the frames of the loop. -/
theorem encryptFile_ok {plaintext file : Bytes} {plaintextPath outPath : String}
    (h : encryptFile aead io noncePrefix plaintext plaintextPath outPath = .ok file) :
    ∃ frames, (encryptChunks aead io noncePrefix 0 plaintext).result = .ok frames ∧
      file = snapshotHeader noncePrefix ++ frames := by
  unfold encryptFile at h
  obtain ⟨_, -, h⟩ := bind_eq_ok.mp h
  obtain ⟨_, -, h⟩ := bind_eq_ok.mp h
  obtain ⟨_, -, h⟩ := bind_eq_ok.mp h
  obtain ⟨frames, hframes, h⟩ := bind_eq_ok.mp h
  obtain ⟨_, -, h⟩ := bind_eq_ok.mp h
  obtain ⟨_, -, h⟩ := bind_eq_ok.mp h
  exact ⟨frames, hframes, (Except.ok.inj h).symm⟩

/-- Where nothing fails, an encryption is what its loop is. -/
theorem encryptFile_calm (hio : io.Calm) (plaintext : Bytes) (plaintextPath outPath : String) :
    encryptFile aead io noncePrefix plaintext plaintextPath outPath =
      (encryptChunks aead io noncePrefix 0 plaintext).result.map
        (snapshotHeader noncePrefix ++ ·) := by
  have hrun : ∀ op, io.run op = .ok () := by
    intro op
    rw [Io.run, if_neg (by simp [hio op])]
  unfold encryptFile
  simp only [hrun]
  cases (encryptChunks aead io noncePrefix 0 plaintext).result with
  | error e => rfl
  | ok frames => rfl

/-- The header is read back. -/
theorem readHeader_calm (hio : io.Calm) (inPath : String) (hpre : noncePrefix.length = 8)
    (frames : Bytes) :
    readHeader io inPath (snapshotHeader noncePrefix ++ frames) =
      .ok (noncePrefix, chunkLen, frames) := by
  have hmagic := readExact_calm hio 0 snapshotMagic
    (snapshotVersion :: beBytes 4 chunkLen ++ noncePrefix ++ frames)
  have hversion := readExact_calm hio 8 [snapshotVersion]
    (beBytes 4 chunkLen ++ (noncePrefix ++ frames))
  have hsize := readExact_calm hio 9 (beBytes 4 chunkLen) (noncePrefix ++ frames)
  have hnonce := readExact_calm hio 13 noncePrefix frames
  rw [length_beBytes] at hsize
  rw [hpre] at hnonce
  have hchunk : ofBeBytes (beBytes 4 chunkLen) = chunkLen :=
    ofBeBytes_beBytes_of_lt (by decide)
  have hheader : snapshotHeader noncePrefix ++ frames = snapshotMagic ++
      (snapshotVersion :: beBytes 4 chunkLen ++ noncePrefix ++ frames) := by
    simp only [snapshotHeader, List.append_assoc]
  have hbody : snapshotVersion :: beBytes 4 chunkLen ++ noncePrefix ++ frames =
      [snapshotVersion] ++ (beBytes 4 chunkLen ++ (noncePrefix ++ frames)) := by
    simp only [List.cons_append, List.nil_append, List.append_assoc]
  have husable : ¬(chunkLen = 0 ∨ maxChunkSize < chunkLen) := by decide
  unfold readHeader
  rw [hheader, show 8 = snapshotMagic.length from rfl, hmagic, hbody]
  simp only [ne_eq, not_true_eq_false, if_false]
  rw [show readExact io snapshotMagic.length 1 = readExact io 8 [snapshotVersion].length from rfl,
    hversion]
  simp only [not_true_eq_false, if_false, hsize, hchunk, husable, noncePrefixLen, hnonce]

/-- What a header that was read says. -/
theorem readHeader_ok {inPath : String} {input frames : Bytes} {chunkSize : Nat}
    (h : readHeader io inPath input = .ok (noncePrefix, chunkSize, frames)) :
    noncePrefix = (input.drop 13).take 8 := by
  unfold readHeader at h
  split at h
  · cases h
  · rename_i magic input₁ hmagic
    split at h
    · cases h
    · split at h
      · cases h
      · rename_i version input₂ hversion
        split at h
        · cases h
        · split at h
          · cases h
          · rename_i size input₃ hsize
            extract_lets at h
            split at h
            · cases h
            · split at h
              · cases h
              · rename_i nonce input₄ hnonce
                simp only [Except.ok.injEq, Prod.mk.injEq] at h
                obtain ⟨rfl, -, -⟩ := h
                obtain ⟨h1, rfl⟩ := readExact_eq_some hmagic
                obtain ⟨h2, rfl⟩ := readExact_eq_some hversion
                obtain ⟨h3, rfl⟩ := readExact_eq_some hsize
                obtain ⟨h4, rfl⟩ := readExact_eq_some hnonce
                have hlen : (magic ++ (version ++ size)).length = 13 := by
                  simp only [List.length_append, h1, h2, h3]
                rw [← List.append_assoc version, ← List.append_assoc magic,
                  List.drop_left' hlen]
                exact (List.take_left' h4).symm

/-- **Inversion of a decryption.** It read a header and opened frames to
their end, and its output is at the temporary path. -/
theorem decryptInto_ok {files files' : Files} {inPath outPath : SnapshotPath} {out : Bytes}
    (h : decryptInto aead io files inPath outPath = (files', .ok out)) :
    files' = Function.update files outPath (some out) ∧
    ∃ input noncePrefix chunkSize frames read, files inPath = some input ∧
      readHeader io inPath.display input = .ok (noncePrefix, chunkSize, frames) ∧
      openFrames aead io inPath.display noncePrefix chunkSize 21 0 read [] = (out, .ok ()) := by
  unfold decryptInto at h
  split at h
  · cases h
  · cases h
  · rename_i input hinput _
    split at h
    · cases h
    · rename_i noncePrefix chunkSize frames hheader
      split at h
      · cases h
      · extract_lets read at h
        split at h
        · cases h
        · rename_i written hopen
          simp only [Prod.mk.injEq] at h
          obtain ⟨rfl, hresult⟩ := h
          split at hresult
          · cases hresult
          · cases hresult
            exact ⟨rfl, input, noncePrefix, chunkSize, frames, read, hinput, hheader, hopen⟩

/-- A decryption touches one file. -/
theorem decryptInto_files (aead : Aead) (io : Io) (files : Files)
    (inPath outPath path : SnapshotPath) (h : path ≠ outPath) :
    (decryptInto aead io files inPath outPath).1 path = files path := by
  unfold decryptInto
  split
  · rfl
  · rfl
  · split
    · rfl
    · split
      · rfl
      · extract_lets read
        split
        · exact Function.update_of_ne h _ _
        · exact Function.update_of_ne h _ _

/-! ## The guarantee -/

/-- One use of `encrypt_file`, finished or not. -/
structure Encryption where
  writer : Io
  noncePrefix : Bytes
  plaintext : Bytes

def Encryption.sealings (aead : Aead) (e : Encryption) : List Sealing :=
  (encryptChunks aead e.writer e.noncePrefix 0 e.plaintext).sealings

/-- Nothing is there afterwards that was not there before. -/
def NothingNew (before after : Option Bytes) : Prop :=
  ∀ content, after = some content → before = some content

/-- **There and back.** A file that `encrypt_file` finished decrypts to its
plaintext, and that is then at the output path. -/
theorem decryptFile_encryptFile {used : Set Sealing} (hideal : aead.Ideal used) (hio : io.Calm)
    {writer : Io} {plaintext file : Bytes} {plaintextPath encPath : String}
    (hfile : encryptFile aead writer noncePrefix plaintext plaintextPath encPath = .ok file)
    (hpre : noncePrefix.length = 8)
    (hused : ∀ s ∈ (encryptChunks aead writer noncePrefix 0 plaintext).sealings, s ∈ used)
    {files : Files} {inPath outPath : SnapshotPath} (hin : files inPath = some file)
    (hapart : inPath ≠ outPath.partialPath) :
    (decryptFile aead io files inPath outPath).2 = .ok plaintext ∧
      (decryptFile aead io files inPath outPath).1 outPath = some plaintext := by
  obtain ⟨frames, hframes, rfl⟩ := encryptFile_ok hfile
  have hopen := openFrames_sealed hideal hio inPath.display (Nat.le_refl _) hframes hused 21 [] []
  rw [List.append_nil, List.nil_append] at hopen
  have hinto : decryptInto aead io files inPath outPath.partialPath =
      (Function.update files outPath.partialPath (some plaintext), .ok plaintext) := by
    unfold decryptInto
    rw [hin, Io.run, if_neg (by simp [hio .openIn])]
    simp only [readHeader_calm hio inPath.display hpre, hio .create, hio .stat, hapart, hopen,
      Bool.false_eq_true, if_false]
  unfold decryptFile
  simp only [hinto, hio .rename, Bool.false_eq_true, if_false, Function.update_self, true_and]

/-- **Integrity.** A decryption that succeeds under a prefix only one
encryption used gives that encryption's plaintext. -/
theorem decryptFile_integrity {used : Set Sealing} (hideal : aead.Ideal used)
    {made : Set Encryption} (hmade : ∀ s ∈ used, ∃ e ∈ made, s ∈ e.sealings aead)
    {files files' : Files} {inPath outPath : SnapshotPath} {file out : Bytes}
    (hin : files inPath = some file)
    (h : decryptFile aead io files inPath outPath = (files', .ok out)) {e : Encryption}
    (hpre : e.noncePrefix = (file.drop 13).take 8)
    (honly : ∀ e' ∈ made, e'.noncePrefix = e.noncePrefix → e' = e) :
    out = e.plaintext ∧ files' outPath = some e.plaintext := by
  unfold decryptFile at h
  split at h
  · rename_i files₁ written hinto
    split at h
    · cases h
    · simp only [Prod.mk.injEq, Except.ok.injEq] at h
      obtain ⟨rfl, rfl⟩ := h
      obtain ⟨rfl, input, nonce, chunkSize, frames, read, hinput, hheader, hopen⟩ :=
        decryptInto_ok hinto
      obtain rfl : input = file := Option.some.inj (hinput.symm.trans hin)
      obtain rfl : nonce = e.noncePrefix := (readHeader_ok hheader).trans hpre.symm
      -- what carries a nonce of this prefix was sealed by this encryption
      have hsealed : ∀ s ∈ used, ∀ i, 0 ≤ i → i < 2 ^ 32 → s.nonce = chunkNonce e.noncePrefix i →
          s ∈ (encryptChunks aead e.writer e.noncePrefix 0 e.plaintext).sealings := by
        intro s hs i _ hi hnonce
        obtain ⟨e', he', hmem⟩ := hmade s hs
        obtain ⟨j, -, hj, hnonce'⟩ := counter_of_mem_sealings hmem (by decide)
        obtain ⟨hsame, -⟩ := chunkNonce_inj hj hi (hnonce'.symm.trans hnonce)
        obtain rfl := honly e' he' hsame
        exact hmem
      have hout := openFrames_integrity hideal (by decide) hsealed hopen
      rw [List.nil_append] at hout
      rw [hout]
      simp
  · cases h

/-- **Failure.** Unless the output is its own temporary file, a decryption
that fails leaves nothing new there. -/
theorem decryptFile_error {files files' : Files} {inPath outPath : SnapshotPath} {e : String}
    (h : decryptFile aead io files inPath outPath = (files', .error e))
    (hapart : outPath.partialPath ≠ outPath) : files' outPath = files outPath := by
  have hkept := decryptInto_files aead io files inPath outPath.partialPath outPath hapart.symm
  unfold decryptFile at h
  split at h
  · rename_i files₁ written hinto
    rw [hinto] at hkept
    split at h
    · cases h
      exact hkept
    · cases h
  · rename_i files₁ e' hinto
    rw [hinto] at hkept
    simp only [Prod.mk.injEq] at h
    obtain ⟨rfl, -⟩ := h
    split
    · exact hkept
    · rw [Function.update_of_ne hapart.symm]
      exact hkept

/-- **Snapshot integrity.** Under an ideal cipher: a file `encrypt_file`
finished decrypts to its plaintext, and where nothing fails it finishes for
every plaintext of at most `maxSnapshot` bytes and refuses the longer ones;
every byte string that decrypts, under a nonce prefix exactly one encryption
used, decrypts to that encryption's plaintext; and a decryption that fails
leaves nothing new at an output path that is not its own temporary file. -/
theorem snapshot_integrity {used : Set Sealing} (hideal : aead.Ideal used) :
    (∀ (writer : Io) (plaintext : Bytes) (plaintextPath encPath : String),
      noncePrefix.length = 8 →
      (∀ s ∈ (encryptChunks aead writer noncePrefix 0 plaintext).sealings, s ∈ used) →
      (∀ file, encryptFile aead writer noncePrefix plaintext plaintextPath encPath = .ok file →
        ∀ (files : Files) inPath outPath, io.Calm → files inPath = some file →
          inPath ≠ outPath.partialPath →
          (decryptFile aead io files inPath outPath).2 = .ok plaintext ∧
          (decryptFile aead io files inPath outPath).1 outPath = some plaintext) ∧
      (writer.Calm → plaintext.length ≤ maxSnapshot →
        ∃ file, encryptFile aead writer noncePrefix plaintext plaintextPath encPath = .ok file) ∧
      (writer.Calm → maxSnapshot < plaintext.length →
        encryptFile aead writer noncePrefix plaintext plaintextPath encPath =
          .error "snapshot too large to encrypt")) ∧
    (∀ made : Set Encryption, (∀ s ∈ used, ∃ e ∈ made, s ∈ e.sealings aead) →
      ∀ (files files' : Files) inPath outPath file out, files inPath = some file →
        decryptFile aead io files inPath outPath = (files', .ok out) →
        ∀ e ∈ made, e.noncePrefix = (file.drop 13).take 8 →
          (∀ e' ∈ made, e'.noncePrefix = e.noncePrefix → e' = e) →
          out = e.plaintext ∧ files' outPath = some e.plaintext) ∧
    (∀ (files files' : Files) inPath (outPath : SnapshotPath) e,
      decryptFile aead io files inPath outPath = (files', .error e) →
      outPath.partialPath ≠ outPath → NothingNew (files outPath) (files' outPath)) := by
  refine ⟨?_, ?_, ?_⟩
  · intro writer plaintext plaintextPath encPath hpre hused
    have hfits := fun hwriter => @encryptChunks_calm aead writer noncePrefix 0 hwriter plaintext
      (by decide)
    refine ⟨?_, ?_, ?_⟩
    · intro file hfile files inPath outPath hio hin hapart
      exact decryptFile_encryptFile hideal hio hfile hpre hused hin hapart
    · intro hwriter hsmall
      obtain ⟨frames, hframes⟩ := (hfits hwriter).1 hsmall
      rw [encryptFile_calm hwriter, hframes]
      exact ⟨_, rfl⟩
    · intro hwriter hbig
      rw [encryptFile_calm hwriter, (hfits hwriter).2 hbig]
      rfl
  · intro made hmade files files' inPath outPath file out hin h e _ hpre honly
    exact decryptFile_integrity hideal hmade hin h hpre honly
  · intro files files' inPath outPath e h hapart content hcontent
    rw [← decryptFile_error h hapart]
    exact hcontent

/-! ## A small snapshot -/

def samplePrefix : Bytes := [1, 2, 3, 4, 5, 6, 7, 8]

/-- What encrypting three bytes seals. -/
def sampleSealings : List Sealing :=
  [sealingOf samplePrefix 0 false [10, 20, 30], sealingOf samplePrefix 1 true []]

/-- A cipher that keeps a table: the plaintext in the clear and a tag of the
nonce and the associated data, opened only when it is in the table. -/
def tableAead : Aead where
  sealChunk nonce aad plain := plain ++ (nonce.drop 8 ++ aad ++ [0, 0])
  openChunk nonce aad data :=
    (sampleSealings.find? fun s => s.nonce == nonce && s.aad == aad &&
      data == s.plaintext ++ (s.nonce.drop 8 ++ s.aad ++ [0, 0])).map (·.plaintext)

theorem tableAead_ideal : tableAead.Ideal {s | s ∈ sampleSealings} where
  opens nonce aad data plain := by
    constructor
    · intro h
      obtain ⟨s, hfind, rfl⟩ := Option.map_eq_some_iff.mp h
      have hmem := List.mem_of_find?_eq_some hfind
      have hcond := List.find?_some hfind
      simp only [Bool.and_eq_true, beq_iff_eq] at hcond
      obtain ⟨⟨rfl, rfl⟩, rfl⟩ := hcond
      exact ⟨hmem, rfl⟩
    · rintro ⟨hmem, rfl⟩
      have hsome : (sampleSealings.find? fun s => s.nonce == nonce && s.aad == aad &&
          tableAead.sealChunk nonce aad plain ==
            s.plaintext ++ (s.nonce.drop 8 ++ s.aad ++ [0, 0])).isSome := by
        rw [List.find?_isSome]
        exact ⟨_, hmem, by simp [tableAead]⟩
      obtain ⟨s, hfind⟩ := Option.isSome_iff_exists.mp hsome
      have hcond := List.find?_some hfind
      simp only [Bool.and_eq_true, beq_iff_eq] at hcond
      obtain ⟨⟨rfl, rfl⟩, hdata⟩ := hcond
      refine Option.map_eq_some_iff.mpr ⟨s, hfind, ?_⟩
      exact (List.append_cancel_right hdata).symm
  tagged s hs := by
    simp only [sampleSealings, Set.mem_ofPred_eq, List.mem_cons, List.not_mem_nil, or_false] at hs
    rcases hs with rfl | rfl
    · rfl
    · rfl

theorem sample_sealings (plaintext : Bytes) (hplain : plaintext = [10, 20, 30]) :
    (encryptChunks tableAead {} samplePrefix 0 plaintext).sealings = sampleSealings := by
  have hcalm : ({} : Io).Calm := fun _ => rfl
  rcases encryptChunks_cases tableAead {} samplePrefix 0 plaintext with
    ⟨hstorm, -⟩ | ⟨hnil, -⟩ | ⟨-, -, hstop⟩ | ⟨-, -, hseal, -⟩
  · exact absurd hcalm hstorm
  · rw [hplain] at hnil
    cases hnil
  · rcases hstop with ⟨hstorm, -⟩ | ⟨hfull, -⟩
    · exact absurd hcalm hstorm
    · omega
  · rw [hseal, hplain]
    rcases encryptChunks_cases tableAead {} samplePrefix 1 (List.drop chunkLen [10, 20, 30]) with
      ⟨hstorm, -⟩ | ⟨-, hmark, -⟩ | ⟨hne, -⟩ | ⟨hne, -⟩
    · exact absurd hcalm hstorm
    · rw [hmark]
      rfl
    · exact absurd rfl hne
    · exact absurd rfl hne

/-- Three bytes, encrypted and decrypted beside each other. -/
theorem snapshot_integrity_sample : ∃ file,
    encryptFile tableAead {} samplePrefix [10, 20, 30] "a.db" "a.db.enc" = .ok file ∧
    ∀ files : Files, files ⟨"", some "a.db.enc"⟩ = some file →
      (decryptFile tableAead {} files ⟨"", some "a.db.enc"⟩ ⟨"", some "b.db"⟩).1
        ⟨"", some "b.db"⟩ = some [10, 20, 30] := by
  have hcalm : ({} : Io).Calm := fun _ => rfl
  obtain ⟨hback, hfits, -⟩ := (@snapshot_integrity tableAead {} samplePrefix _
    tableAead_ideal).1 {} [10, 20, 30] "a.db" "a.db.enc" rfl
    (fun s hs => by rwa [sample_sealings _ rfl] at hs)
  obtain ⟨file, hfile⟩ := hfits hcalm (by decide)
  refine ⟨file, hfile, ?_⟩
  intro files hin
  exact (hback file hfile files _ _ hcalm hin (by decide)).2

/-- One byte past the last counter: there is no encrypted file to decrypt. -/
theorem snapshot_too_large : ¬∀ plaintext : Bytes, ∃ file,
    encryptFile tableAead {} samplePrefix plaintext "a.db" "a.db.enc" = .ok file ∧
    ∀ files : Files, files ⟨"", some "a.db.enc"⟩ = some file →
      (decryptFile tableAead {} files ⟨"", some "a.db.enc"⟩ ⟨"", some "b.db"⟩).1
        ⟨"", some "b.db"⟩ = some plaintext := by
  intro hall
  obtain ⟨plaintext, hlen⟩ : ∃ plaintext : Bytes, plaintext.length = maxSnapshot + 1 :=
    ⟨List.replicate (maxSnapshot + 1) 0, List.length_replicate⟩
  have hcalm : ({} : Io).Calm := fun _ => rfl
  have hbig : maxSnapshot < plaintext.length := by omega
  have hrefused := (@encryptChunks_calm tableAead {} samplePrefix 0 hcalm plaintext
    (by decide)).2 hbig
  obtain ⟨file, hfile, -⟩ := hall plaintext
  rw [encryptFile_calm hcalm, hrefused] at hfile
  cases hfile

end Aperio
