import EdgePacer.Common
import EdgePacer.Lib.BigEndian
import EdgePacer.Lib.Paths
import EdgePacer.Lib.Tally
import Mathlib.Data.List.MinMax
import Mathlib.Data.List.Sort

/-!
# The overflow store

Lines the disk buffer has no room for are spilled to files: each source has an active file that
takes new records and finalized files that wait for replay or eviction. A file is named after the
instant it was created, so names are numbers here and sort as the formatted timestamps do.

The store joins a source id to its base directory, so an id can name a directory at any depth, the
base directory itself, or one outside. Writes and replays go to the directory of their id (`dirOf`,
with `..` taken as the file system takes it). Eviction and the scan at the start look at the
directories directly below the base directory only.

The compressor is lossless: a file's content is its record bytes, and `fileSize` gives the bytes a
finished file takes on disk. What the environment decides about a write is in its `WriteEnv`: what
the clock says when a file is created, the order in which directories are listed, and whether the
file system fails the operation. The code may have done part of its work by then, so a failed
operation leaves whatever store the environment says.
-/

namespace EdgePacer.Delivery

open Lib List

/-- A spilled line with its timestamp. -/
abbrev Record := TimestampNs × Bytes

/-- An overflow file: its directory, the instant it is named after, and its record bytes. -/
structure OverflowFile where
  dir : Location
  name : Nat
  content : Bytes
  deriving DecidableEq

/-- The path of a file. -/
def OverflowFile.path (f : OverflowFile) : Location × Nat := (f.dir, f.name)

/-- Append to the file at a path. -/
def OverflowFile.appendAt (path : Location × Nat) (record : Bytes) (f : OverflowFile) :
    OverflowFile :=
  if f.path = path then { f with content := f.content ++ record } else f

@[simp] theorem OverflowFile.path_appendAt (path : Location × Nat) (record : Bytes)
    (f : OverflowFile) : (f.appendAt path record).path = f.path := by
  unfold appendAt
  split <;> rfl

/-- The active file of a source. -/
structure SourceWriter where
  (fileName bytesWritten : Nat)
  deriving DecidableEq

/-- The store, with its files and its writers. -/
structure Writer where
  baseDir : Location
  (budgetBytes maxFileBytes totalBytes : Nat)
  /-- The active files, by source id. -/
  writers : List (String × SourceWriter)
  /-- The files on disk, in creation order. -/
  files : List OverflowFile
  /-- The bytes on disk of a file with the given record bytes. -/
  fileSize : Bytes → Nat

def DEFAULT_MAX_FILE_BYTES : Nat := 10 * 1024 * 1024

/-- The order in which the file system lists files. -/
structure Listing where
  readDir : List OverflowFile → List OverflowFile
  mem_readDir : ∀ fs f, f ∈ readDir fs ↔ f ∈ fs

/-- Files are listed as they were created. -/
def Listing.created : Listing := ⟨id, fun _ _ => Iff.rfl⟩

/-- What the environment decides about a write. -/
structure WriteEnv where
  /-- The store that the write leaves when the file system fails it. -/
  fault : Option Writer
  /-- The clock when the write opens the source's first file. -/
  openAt : Nat
  /-- The clock when the write rotates the active file. -/
  rotateAt : Nat
  listing : Listing

/-- One component further. -/
def descend (dir : Location) (component : List Char) : Location :=
  if component = ['.', '.'] then dir.dropLast else dir ++ [component]

/-- The directory that a source id leads to. -/
def dirOf (baseDir : Location) (id : String) : Location :=
  (components id.toList).foldl descend (if isAbsolute id.toList then [] else baseDir)

/-! ## Records -/

def encodeRecord (line : Bytes) (ts : TimestampNs) : Bytes :=
  toBe 4 (8 + line.length) ++ (toBe 8 ts.toNat ++ line)

@[simp] theorem length_encodeRecord (line : Bytes) (ts : TimestampNs) :
    (encodeRecord line ts).length = 12 + line.length := by
  simp [encodeRecord]
  omega

/-- Decode complete records; a torn or too short one ends the file. A record takes at least one
byte, so the number of bytes is fuel enough. -/
def decodeRecords : Nat → Bytes → List Record
  | 0, _ => []
  | fuel + 1, bytes =>
      if bytes.length < 4 then []
      else
        let recordLen := ofBe (bytes.take 4)
        let rest := bytes.drop 4
        if recordLen < 8 then []
        else if rest.length < recordLen then []
        else
          (BitVec.ofNat 64 (ofBe (rest.take 8)), (rest.take recordLen).drop 8) ::
            decodeRecords fuel (rest.drop recordLen)

def readEntireFile (content : Bytes) : List Record := decodeRecords content.length content

/-! ## Operations -/

namespace Writer

/-- A store without files. -/
def empty (baseDir : Location) (budgetBytes maxFileBytes : Nat) (fileSize : Bytes → Nat) : Writer :=
  ⟨baseDir, budgetBytes, maxFileBytes, 0, [], [], fileSize⟩

variable (s : Writer) (f : OverflowFile)

def size : Nat := s.fileSize f.content

variable (id : String)

def writer? : Option SourceWriter := (s.writers.find? fun w => w.1 == id).map Prod.snd

/-- The files in the directory of an id. -/
def filesOf : List OverflowFile :=
  s.files.filter fun f => f.dir == dirOf s.baseDir id

/-- Whether a file of the id's directory is its active one. -/
def isActive (f : OverflowFile) : Bool :=
  (s.writer? id).map SourceWriter.fileName == some f.name

/-- Create the id's next active file; creation empties a file of the same name. -/
def openNewFile (now : Nat) : Writer :=
  { s with
    writers := s.writers.filter (fun w => decide (w.1 ≠ id)) ++ [(id, ⟨now, 0⟩)]
    files := s.files.filter (fun f => decide (f.path ≠ (dirOf s.baseDir id, now))) ++
      [⟨dirOf s.baseDir id, now, []⟩] }

/-- Append record bytes to the active file. -/
def appendActive (sw : SourceWriter) (record : Bytes) : Writer :=
  { s with
    writers := s.writers.map fun w =>
      (w.1, if w.1 = id then { sw with bytesWritten := sw.bytesWritten + record.length } else w.2)
    files := s.files.map (OverflowFile.appendAt (dirOf s.baseDir id, sw.fileName) record) }

/-- The size of a file, nothing if it is not there. -/
def sizeAt (path : Location × Nat) : Nat :=
  ((s.files.find? fun f => f.path == path).map s.size).getD 0

/-- The active file is finished and counted. -/
def closeActive (sw : SourceWriter) : Writer :=
  { s with
    writers := s.writers.filter fun w => decide (w.1 ≠ id)
    totalBytes := s.totalBytes + s.sizeAt (dirOf s.baseDir id, sw.fileName) }

/-- Finish the active file and open the next one. -/
def rotateSource (now : Nat) : Writer :=
  match s.writer? id with
  | none => s
  | some sw => (s.closeActive id sw).openNewFile id now

/-- Rotate an active file that has records. -/
def finalizeActive (now : Nat) : Writer :=
  if (s.writer? id).any fun sw => decide (0 < sw.bytesWritten) then s.rotateSource id now else s

/-- Remove a file and its bytes from the total. -/
def removeFile : Writer :=
  { s with
    files := s.files.filter fun g => decide (g.path ≠ f.path)
    totalBytes := s.totalBytes - s.size f }

/-- The name of the directory, if it lies directly below the base directory. -/
def subdirectory (dir : Location) : Option (List Char) :=
  if dir.dropLast = s.baseDir then dir.getLast? else none

/-- Files that a listing of the base directory's directories finds. -/
def listed : Bool := (s.subdirectory f.dir).isSome

/-- The active file of the source whose id is the name of the directory. -/
def isCurrent : Bool :=
  (s.subdirectory f.dir).any fun name => s.isActive (String.ofList name) f

/-- The bytes found by the scan at the start. -/
def scanExistingFiles : Nat := tally s.listed s.size s.files

/-- A store over the files found on disk. -/
def new (baseDir : Location) (budgetMb : Nat) (files : List OverflowFile) (fileSize : Bytes → Nat) :
    Writer :=
  let s : Writer :=
    ⟨baseDir, budgetMb * 1024 * 1024, DEFAULT_MAX_FILE_BYTES, 0, [], files, fileSize⟩
  { s with totalBytes := s.scanExistingFiles }

/-- The files that can be evicted. -/
def evictable (listing : Listing) : List OverflowFile :=
  (listing.readDir s.files).filter fun f => s.listed f && !s.isCurrent f

/-- The evictable file with the smallest name; of several the first found. -/
def oldest (listing : Listing) : Option OverflowFile :=
  (s.evictable listing).argmin OverflowFile.name

/-- Remove the oldest file; `none` when there is none. -/
def evictOldest (listing : Listing) : Option Writer := (s.oldest listing).map s.removeFile

/-- Evict while the budget is exceeded. Every eviction removes a file, so their number is fuel
enough. -/
def evictLoop (listing : Listing) : Nat → Writer → Writer
  | 0, s => s
  | fuel + 1, s =>
      if s.budgetBytes < s.totalBytes then
        match s.evictOldest listing with
        | some s' => evictLoop listing fuel s'
        | none => s
      else s

/-- Open a first file for an id that has no active one. -/
def ensureActive (openAt : Nat) : Writer :=
  match s.writer? id with
  | some _ => s
  | none => s.openNewFile id openAt

/-- Append a record to the active file and rotate a file that has grown to its limit. -/
def appendRecord (line : Bytes) (ts : TimestampNs) (rotateAt : Nat) : Writer :=
  match s.writer? id with
  | none => s
  | some sw =>
      let record := encodeRecord line ts
      let s := s.appendActive id sw record
      if s.maxFileBytes ≤ sw.bytesWritten + record.length then s.rotateSource id rotateAt else s

/-- A write before its evictions. -/
def appended (env : WriteEnv) (id : String) (line : Bytes) (ts : TimestampNs) : Writer :=
  (s.ensureActive id env.openAt).appendRecord id line ts env.rotateAt

/-- Spill one line. The Boolean says whether the write succeeded. -/
def write (env : WriteEnv) (id : String) (line : Bytes) (ts : TimestampNs) : Bool × Writer :=
  match env.fault with
  | some left => (false, left)
  | none =>
      let s := s.appended env id line ts
      (true, evictLoop env.listing s.files.length s)

/-- Whether the id's directory has a file other than the active one. -/
def hasOverflow : Bool := (s.filesOf id).any fun f => !s.isActive id f

/-- Read and remove files until `batchSize` records are out, then cut to `batchSize`. -/
def replayLoop (batchSize : Nat) :
    List OverflowFile → List Record → Writer → List Record × Writer
  | [], out, s => (out, s)
  | f :: fs, out, s =>
      let out := out ++ readEntireFile f.content
      let s := s.removeFile f
      if batchSize ≤ out.length then (out.take batchSize, s) else replayLoop batchSize fs out s

/-- The files of an id's directory but its active one, in the order of their names. -/
def replayFiles : List OverflowFile :=
  ((s.filesOf id).insertionSort fun a b => a.name ≤ b.name).filter fun f => !s.isActive id f

def replayBatch (batchSize now : Nat) : List Record × Writer :=
  let s := s.finalizeActive id now
  replayLoop batchSize (s.replayFiles id) [] s

end Writer

/-! ## The round trip of a file -/

/-- A line short enough for the four-byte record length. -/
def Record.Fits (r : Record) : Prop := 8 + r.2.length < 2 ^ 32

instance (r : Record) : Decidable r.Fits := inferInstanceAs (Decidable (_ < _))

/-- The bytes of a file that holds the given records. -/
def encodeAll (records : List Record) : Bytes := records.flatMap fun r => encodeRecord r.2 r.1

theorem decodeRecords_encodeRecord {r : Record} (h : r.Fits) (rest : Bytes) (fuel : Nat) :
    decodeRecords (fuel + 1) (encodeRecord r.2 r.1 ++ rest) = r :: decodeRecords fuel rest := by
  obtain ⟨ts, line⟩ := r
  unfold Record.Fits at h
  have h4 : (encodeRecord line ts ++ rest).take 4 = toBe 4 (8 + line.length) := by
    exact take_left' (length_toBe 4 _)
  have hd4 : (encodeRecord line ts ++ rest).drop 4 = toBe 8 ts.toNat ++ line ++ rest := by
    exact drop_left' (length_toBe 4 _)
  have hlen : ofBe ((encodeRecord line ts ++ rest).take 4) = 8 + line.length := by
    rw [h4]
    exact ofBe_toBe_of_lt (by omega)
  have hbody : (toBe 8 ts.toNat ++ line).length = 8 + line.length := by simp
  have hts : BitVec.ofNat 64 (ofBe (toBe 8 ts.toNat)) = ts := by
    rw [ofBe_toBe_of_lt (by omega)]
    exact BitVec.ofNat_toNat _ ts |>.trans (BitVec.setWidth_eq ts)
  have h8 : (toBe 8 ts.toNat ++ line ++ rest).take 8 = toBe 8 ts.toNat := by
    exact take_left' (length_toBe 8 _)
  rw [decodeRecords, if_neg (by simp [encodeRecord])]
  simp only [hlen, hd4]
  rw [if_neg (by omega), if_neg (by simp), h8, hts, take_left' hbody,
    drop_left' hbody, drop_left' (length_toBe 8 _)]

/-- The records that lie before a cut of the file after `n` bytes. -/
def completeIn : List Record → Nat → List Record
  | [], _ => []
  | r :: rs, n =>
      if n < (encodeRecord r.2 r.1).length then []
      else r :: completeIn rs (n - (encodeRecord r.2 r.1).length)

section

variable {r : Record} (rs : List Record)

theorem encodeAll_cons : encodeAll (r :: rs) = encodeRecord r.2 r.1 ++ encodeAll rs := rfl

theorem completeIn_encodeAll : completeIn rs (encodeAll rs).length = rs := by
  induction rs with
  | nil => rfl
  | cons r rs ih =>
    rw [completeIn, encodeAll_cons, length_append, if_neg (by omega), Nat.add_sub_cancel_left, ih]

theorem completeIn_zero : completeIn rs 0 = [] := by
  cases rs with
  | nil => rfl
  | cons r rs => exact if_pos (by rw [length_encodeRecord]; omega)

/-- A record that is cut off ends the file. -/
theorem decodeRecords_cut (h : r.Fits) {n : Nat} (hn : n < (encodeRecord r.2 r.1).length)
    (fuel : Nat) : decodeRecords fuel ((encodeRecord r.2 r.1).take n) = [] := by
  unfold Record.Fits at h
  cases fuel with
  | zero => rfl
  | succ fuel =>
    have hlen : ((encodeRecord r.2 r.1).take n).length = n := length_take_of_le hn.le
    rw [length_encodeRecord] at hn
    rw [decodeRecords]
    split
    · rfl
    · have hhead : ((encodeRecord r.2 r.1).take n).take 4 = toBe 4 (8 + r.2.length) := by
        rw [take_take, min_eq_left (by omega)]
        exact take_left' (length_toBe 4 _)
      dsimp only
      rw [hhead, ofBe_toBe_of_lt (by omega), if_neg (by omega), if_pos (by rw [length_drop]; omega)]

variable {rs}

/-- Reading a file gives back the records before its end, with fuel for each byte. -/
theorem decodeRecords_take (h : ∀ r ∈ rs, r.Fits) {n fuel : Nat}
    (hfuel : ((encodeAll rs).take n).length ≤ fuel) :
    decodeRecords fuel ((encodeAll rs).take n) = completeIn rs n := by
  induction rs generalizing n fuel with
  | nil => cases fuel <;> simp [decodeRecords, encodeAll, completeIn]
  | cons r rs ih =>
    have hr := h r mem_cons_self
    rw [encodeAll_cons] at hfuel ⊢
    rw [completeIn]
    split
    · next hcut =>
      rw [take_append_of_le_length hcut.le]
      exact decodeRecords_cut hr hcut fuel
    · next hwhole =>
      rw [take_append, take_of_length_le (not_lt.1 hwhole)] at hfuel ⊢
      rw [length_append, length_encodeRecord] at hfuel
      obtain ⟨m, rfl⟩ : ∃ m, fuel = m + 1 := ⟨fuel - 1, by omega⟩
      rw [decodeRecords_encodeRecord hr, ih ((forall_mem_cons.1 h).2)]
      rw [length_encodeRecord]
      omega

theorem readEntireFile_encodeAll (h : ∀ r ∈ rs, r.Fits) : readEntireFile (encodeAll rs) = rs := by
  have hread := decodeRecords_take h (n := (encodeAll rs).length) le_rfl
  rwa [take_length, completeIn_encodeAll] at hread

theorem decodeRecords_oversized (h : ¬ r.Fits) (fuel : Nat) :
    decodeRecords fuel (encodeRecord r.2 r.1) ≠ [r] := by
  unfold Record.Fits at h
  cases fuel with
  | zero => exact nofun
  | succ fuel =>
    have hhead : (encodeRecord r.2 r.1).take 4 = toBe 4 (8 + r.2.length) :=
      take_left' (length_toBe 4 _)
    have hwraps : (8 + r.2.length) % 256 ^ 4 < 8 + r.2.length :=
      (Nat.mod_lt _ (by decide)).trans_le (by omega)
    rw [decodeRecords, if_neg (by rw [length_encodeRecord]; omega), hhead, ofBe_toBe]
    dsimp only
    split_ifs
    · exact nofun
    · exact nofun
    · intro heq
      have hline := congrArg (fun r => r.2.length) (cons.inj heq).1
      simp only [length_drop, length_take, length_encodeRecord] at hline
      omega

/-- A record whose length does not fit is misread if the file ends with it. -/
theorem exists_misread (h : ∃ r ∈ rs, ¬ r.Fits) :
    ∃ n, ∀ fuel, ((encodeAll rs).take n).length ≤ fuel →
      decodeRecords fuel ((encodeAll rs).take n) ≠ completeIn rs n := by
  induction rs with
  | nil => simp at h
  | cons r rs ih =>
    by_cases hr : r.Fits
    · obtain ⟨n, hn⟩ := ih (by simpa [hr] using h)
      refine ⟨(encodeRecord r.2 r.1).length + n, fun fuel hfuel hread => ?_⟩
      rw [encodeAll_cons, take_length_add_append] at hfuel hread
      rw [length_append, length_encodeRecord] at hfuel
      obtain ⟨m, rfl⟩ : ∃ m, fuel = m + 1 := ⟨fuel - 1, by omega⟩
      rw [completeIn, if_neg (by omega), Nat.add_sub_cancel_left,
        decodeRecords_encodeRecord hr] at hread
      exact hn m (by omega) (cons.inj hread).2
    · refine ⟨(encodeRecord r.2 r.1).length, fun fuel _ hread => decodeRecords_oversized hr fuel ?_⟩
      rwa [encodeAll_cons, take_left, completeIn, if_neg (lt_irrefl _), Nat.sub_self,
        completeIn_zero] at hread

end

/-- **Truncated files.** Exactly if every record fits its four-byte length, the file cut off
anywhere is read back up to the last record that is complete. -/
theorem readEntireFile_truncated_iff (rs : List Record) :
    (∀ n, readEntireFile ((encodeAll rs).take n) = completeIn rs n) ↔ ∀ r ∈ rs, r.Fits := by
  refine ⟨fun hread => ?_, fun h n => decodeRecords_take h le_rfl⟩
  by_contra hbad
  obtain ⟨n, hn⟩ := exists_misread (by simpa using hbad)
  exact hn _ le_rfl (hread n)

/-- The length of this line is written as zero. -/
theorem wrapped_length_unread :
    readEntireFile (encodeAll [(0, replicate (2 ^ 32 - 8) 0)]) ≠
      [(0, replicate (2 ^ 32 - 8) 0)] := by
  have hlong (n : Nat) (h : 2 ^ 32 ≤ 8 + n) :
      readEntireFile (encodeAll [(0, replicate n 0)]) ≠ [(0, replicate n 0)] := by
    rw [encodeAll_cons, encodeAll, flatMap_nil, append_nil]
    refine decodeRecords_oversized ?_ _
    unfold Record.Fits
    rw [length_replicate]
    omega
  exact hlong _ (by decide)

/-- A file content made of whole records. -/
def WellFramed (content : Bytes) : Prop :=
  ∃ rs : List Record, (∀ r ∈ rs, r.Fits) ∧ content = encodeAll rs

theorem wellFramed_nil : WellFramed [] := ⟨[], by simp, rfl⟩

/-- Appending one record to whole records appends it to what is read back. -/
theorem WellFramed.append_record {content : Bytes} (h : WellFramed content) {r : Record}
    (hr : r.Fits) :
    WellFramed (content ++ encodeRecord r.2 r.1) ∧
      readEntireFile (content ++ encodeRecord r.2 r.1) = readEntireFile content ++ [r] := by
  obtain ⟨rs, hrs, rfl⟩ := h
  have hall : ∀ r' ∈ rs ++ [r], r'.Fits := by
    intro r' hr'
    rcases mem_append.1 hr' with h | h
    · exact hrs r' h
    · rw [mem_singleton] at h
      rw [h]
      exact hr
  have heq : encodeAll rs ++ encodeRecord r.2 r.1 = encodeAll (rs ++ [r]) := by
    simp [encodeAll]
  rw [heq]
  exact ⟨⟨rs ++ [r], hall, rfl⟩,
    by rw [readEntireFile_encodeAll hall, readEntireFile_encodeAll hrs]⟩

end EdgePacer.Delivery
