import EdgePacer.Source.Cri
import EdgePacer.Source.Tailer

/-!
# The Kubernetes log reader

Tails the highest-numbered log file of a container's directory. Its byte accounting holds back the
fragments of a message that is not complete: `readLoop_accounts` says that the file bytes of the
messages read and of the fragments still waiting are exactly the bytes read. The sampler reads the
file on its own; reads of a file that stays give the same lines (`reads_eq_sampleLines`).
-/

namespace EdgePacer.Source

open List Option

/-- What a call sees of the container's directory. Here only a missing directory or log file is
`unavailable`; every other error is `failed`. -/
structure DirView where
  /-- The directory's entries, with whether each is a regular file. -/
  listing : Access (List (String × Bool))
  /-- Opening an entry: its inode and its length. -/
  openEntry : String → Option (Nat × Nat)
  /-- The length of the open file, if its metadata can be read. -/
  openLength : Option Nat
  content : Nat → Bytes

/-- A directory that is not there. -/
def DirView.missing : DirView := ⟨.unavailable, fun _ => none, none, fun _ => []⟩

structure ContainerLine where
  message : Bytes
  stream : LogStream
  sourceLen : Nat
  deriving DecidableEq

/-- The reader of a container's log directory. -/
structure ContainerReader where
  currentFile : String
  reader : Option BufReader
  (offset inode : Nat)
  partialBuffer : Bytes
  /-- File bytes of the fragments in `partialBuffer`. -/
  partialSourceLen : Nat

/-! ## Choosing the file -/

def I32_MAX : Nat := 2 ^ 31 - 1

/-- The number of a file named by digits and `.log`, if it fits an `i32`. -/
def logFileNumber (name : String) : Option Nat :=
  let digits := name.toList.takeWhile Char.isDigit
  if digits = [] ∨ name.toList.drop digits.length ≠ ".log".toList then none
  else
    let n := digits.foldl (fun n c => 10 * n + (c.toNat - '0'.toNat)) 0
    if n ≤ I32_MAX then some n else none

/-- Keep the entry with the larger number, the earlier one on a tie. -/
def higherLog (best : Option (Nat × String)) (entry : String × Bool) : Option (Nat × String) :=
  match entry.2, logFileNumber entry.1 with
  | true, some n => if best.all fun b => decide (b.1 < n) then some (n, entry.1) else best
  | _, _ => best

/-- The highest-numbered log file. -/
def findHighestLogFile (listing : Access (List (String × Bool))) : Access String :=
  match listing with
  | .unavailable => .unavailable
  | .failed => .failed
  | .found entries =>
      match entries.foldl higherLog none with
      | some best => .found best.2
      | none => .unavailable

namespace ContainerReader

variable (r : ContainerReader) (view : DirView)

/-- Open an entry at the offset, or at its end when the offset is zero. -/
def openFile (name : String) : Option ContainerReader :=
  (view.openEntry name).map fun file =>
    let pos := if r.offset = 0 then file.2 else r.offset
    { r with inode := file.1, offset := pos, reader := some (BufReader.atPos file.1 pos) }

def findAndOpenActiveLog : Option ContainerReader :=
  match findHighestLogFile view.listing with
  | .found name => (r.openFile view name).map fun r => { r with currentFile := name }
  | _ => none

/-- Open at a checkpoint. The inode is overwritten by the file's own. -/
def openWithCheckpoint (cp : Checkpoint) : Option ContainerReader :=
  findAndOpenActiveLog ⟨"", none, cp.offset, cp.inode, [], 0⟩ view

/-- Look for a rotation or a truncation. The Boolean says whether the read goes on. -/
def checkRotation : Bool × ContainerReader :=
  match findHighestLogFile view.listing with
  | .unavailable => (true, { r with reader := none })
  | .failed => (false, r)
  | .found highest =>
      if highest ≠ r.currentFile then
        -- fragments of the rotated file can never be completed
        let r := { r with offset := 0, partialBuffer := [], partialSourceLen := 0 }
        match r.openFile view highest with
        | some r => (true, { r with currentFile := highest })
        | none => (false, r)
      else if r.reader.isSome && view.openLength.any fun len => decide (len < r.offset) then
        let r := { r with offset := 0 }
        match r.openFile view r.currentFile with
        | some r => (true, r)
        | none => (false, r)
      else (true, r)

variable (ps : RecordParsers)

/-- Take in one record: a line once it completes a message. -/
def takeRecord (read : LineRead) : Option ContainerLine × ContainerReader :=
  let raw := popByte 0x0D (popByte 0x0A read.buf)
  let joined := reassemblePartial ps raw r.partialBuffer
  let r := { r with
    reader := some read.reader
    offset := r.offset + read.consumed
    partialBuffer := joined.2
    partialSourceLen := r.partialSourceLen + read.consumed }
  match joined.1 with
  | none => (none, r)
  | some message =>
      (some
        { message := (stripOwned message.1).take DEFAULT_MAX_LINE_BYTES
          stream := message.2
          sourceLen := r.partialSourceLen },
        { r with partialSourceLen := 0 })

/-- Read up to `maxLines` records. -/
def readLoop (ps : RecordParsers) (content : Nat → Bytes) :
    Nat → ContainerReader → List ContainerLine × ContainerReader
  | 0, r => ([], r)
  | maxLines + 1, r =>
      match r.reader with
      | none => ([], r)
      | some rd =>
          let whole := rd.rest (content rd.inode)
          let read := readOneLine .utf8 whole.length (content rd.inode) rd
          if read.consumed = 0 then ([], r)
          else
            let taken := r.takeRecord ps read
            let next := readLoop ps content maxLines taken.2
            (taken.1.toList ++ next.1, next.2)

def readLines (view : DirView) (maxLines : Nat) : List ContainerLine × ContainerReader :=
  let checked := r.checkRotation view
  if checked.1 then readLoop ps view.content maxLines checked.2 else ([], checked.2)

/-! ## Byte accounting -/

theorem takeRecord_accounts (read : LineRead) :
    ((r.takeRecord ps read).1.toList.map ContainerLine.sourceLen).sum +
        (r.takeRecord ps read).2.partialSourceLen = r.partialSourceLen + read.consumed ∧
      (r.takeRecord ps read).2.offset = r.offset + read.consumed := by
  unfold takeRecord
  dsimp only
  split
  · exact ⟨by simp, rfl⟩
  · exact ⟨by simp, rfl⟩

/-- The bytes read are those of the messages given and of the fragments that wait. -/
theorem readLoop_accounts (content : Nat → Bytes) :
    ∀ (n : Nat) (r : ContainerReader),
      ((readLoop ps content n r).1.map ContainerLine.sourceLen).sum +
          (readLoop ps content n r).2.partialSourceLen + r.offset =
        r.partialSourceLen + (readLoop ps content n r).2.offset := by
  intro n
  induction n with
  | zero =>
    simp [readLoop]
  | succ n ih =>
    intro r
    rw [readLoop]
    cases hr : r.reader with
    | none => simp
    | some rd =>
      dsimp only
      split
      · simp
      · generalize readOneLine .utf8 (rd.rest (content rd.inode)).length (content rd.inode) rd =
          read
        have htaken := r.takeRecord_accounts ps read
        have hnext := ih (r.takeRecord ps read).2
        dsimp only
        rw [List.map_append, List.sum_append]
        omega

end ContainerReader

/-! ## The sampler -/

/-- Read all records; the last two arguments are of the fragments that wait. -/
def sampleLoop (ps : RecordParsers) (content : Bytes) :
    Nat → BufReader → Bytes → Nat → List ContainerLine
  | 0, _, _, _ => []
  | fuel + 1, rd, partialBuffer, partialSourceLen =>
      let read := readOneLine .utf8 (rd.rest content).length content rd
      if read.consumed = 0 then []
      else
        let sourceLen := partialSourceLen + read.consumed
        let joined := reassemblePartial ps (popByte 0x0D (popByte 0x0A read.buf)) partialBuffer
        match joined.1 with
        | some message =>
            ⟨(stripOwned message.1).take DEFAULT_MAX_LINE_BYTES, message.2, sourceLen⟩ ::
              sampleLoop ps content fuel read.reader joined.2 0
        | none => sampleLoop ps content fuel read.reader joined.2 sourceLen

/-- The lines of the active log. Every record takes a byte, so their number is fuel enough. -/
def sampleLines (ps : RecordParsers) (view : DirView) : Option (List ContainerLine) :=
  match findHighestLogFile view.listing with
  | .found name =>
      (view.openEntry name).map fun file =>
        let content := view.content file.1
        sampleLoop ps content content.length (.atPos file.1 0) [] 0
  | _ => none

namespace ContainerReader

/-- Reads with the given limits, one after the other. -/
def reads (ps : RecordParsers) (view : DirView) :
    List Nat → ContainerReader → List ContainerLine × ContainerReader
  | [], r => ([], r)
  | limit :: limits, r =>
      let read := r.readLines ps view limit
      let next := reads ps view limits read.2
      (read.1 ++ next.1, next.2)

variable (ps : RecordParsers) {contents : Nat → Bytes} {content : Bytes} {r : ContainerReader}
  {rd : BufReader} {file : String}

/-- The reader is in a file of `content`, at its offset. -/
structure Stands (contents : Nat → Bytes) (file : String) (content : Bytes) (r : ContainerReader)
    (rd : BufReader) : Prop where
  file : r.currentFile = file
  reader : r.reader = some rd
  bytes : contents rd.inode = content
  offset : r.offset + (rd.rest content).length = content.length

variable (h : Stands contents file content r rd)

include h

theorem Stands.readLoop_end (hend : rd.rest content = []) (n : Nat) :
    readLoop ps contents n r = ([], r) := by
  cases n with
  | zero => rfl
  | succ n =>
    have hread := (readOneLine_spec .utf8 (rd.rest content).length content rd).consumed
    rw [hend] at hread
    rw [readLoop, h.reader]
    dsimp only
    rw [h.bytes, hend]
    exact if_pos hread

/-- Before it a record is read, of a byte at least. -/
theorem Stands.record (hrest : rd.rest content ≠ []) :
    ∃ read, readOneLine .utf8 (rd.rest content).length content rd = read ∧ 0 < read.consumed ∧
      Stands contents file content (r.takeRecord ps read).2 read.reader ∧
      ∀ n, readLoop ps contents (n + 1) r =
        let next := readLoop ps contents n (r.takeRecord ps read).2
        ((r.takeRecord ps read).1.toList ++ next.1, next.2) := by
  have hspec := readOneLine_spec .utf8 (rd.rest content).length content rd
  have hpos := LineEncoding.utf8.lineLength_pos hrest
  have hle := LineEncoding.utf8.lineLength_le (rd.rest content)
  generalize hread : readOneLine .utf8 (rd.rest content).length content rd = read at hspec
  have hconsumed : read.consumed = 0 + _ := hspec.consumed
  have hlen : (read.reader.rest content).length = _ := congrArg length hspec.rest
  have hinode : read.reader.inode = rd.inode := hspec.inode
  have hoffset := (r.takeRecord_accounts ps read).2
  have htotal := h.offset
  rw [length_drop] at hlen
  dsimp only at hlen
  have hkeep : (r.takeRecord ps read).2.currentFile = r.currentFile ∧
      (r.takeRecord ps read).2.reader = some read.reader := by
    unfold takeRecord
    dsimp only
    split <;> exact ⟨rfl, rfl⟩
  refine ⟨read, rfl, by omega, ⟨hkeep.1.trans h.file, hkeep.2, hinode ▸ h.bytes, by omega⟩, ?_⟩
  intro n
  rw [readLoop, h.reader]
  dsimp only
  rw [h.bytes, hread, if_neg (by omega)]

/-- With a record for every byte it reaches the end. -/
theorem Stands.readLoop_done (n : Nat) :
    ∃ rd', Stands contents file content (readLoop ps contents n r).2 rd' ∧
      (content.length ≤ r.offset + n → rd'.rest content = []) := by
  induction n generalizing r rd with
  | zero =>
    have htotal := h.offset
    exact ⟨rd, h, fun hn => eq_nil_of_length_eq_zero (by omega)⟩
  | succ n ih =>
    by_cases hrest : rd.rest content = []
    · rw [h.readLoop_end ps hrest]
      exact ⟨rd, h, fun _ => hrest⟩
    · obtain ⟨read, -, hpos, hnext, hone⟩ := h.record ps hrest
      have hoffset := (r.takeRecord_accounts ps read).2
      obtain ⟨rd', hstands, hdone⟩ := ih hnext
      rw [hone]
      exact ⟨rd', hstands, fun hn => hdone (by omega)⟩

/-- A longer read is a read and another one. -/
theorem Stands.readLoop_add (n m : Nat) :
    readLoop ps contents (n + m) r =
      let first := readLoop ps contents n r
      let second := readLoop ps contents m first.2
      (first.1 ++ second.1, second.2) := by
  induction n generalizing r rd with
  | zero => rw [Nat.zero_add]; rfl
  | succ n ih =>
    by_cases hrest : rd.rest content = []
    · simp [h.readLoop_end ps hrest]
    · obtain ⟨read, -, -, hnext, hone⟩ := h.record ps hrest
      rw [Nat.succ_add, hone, hone, ih hnext]
      dsimp only
      rw [append_assoc]

/-- The sampler's loop is the reader's. -/
theorem Stands.sampleLoop_eq (fuel : Nat) :
    sampleLoop ps content fuel rd r.partialBuffer r.partialSourceLen =
      (readLoop ps contents fuel r).1 := by
  induction fuel generalizing r rd with
  | zero => rfl
  | succ fuel ih =>
    by_cases hrest : rd.rest content = []
    · have hread := (readOneLine_spec .utf8 (rd.rest content).length content rd).consumed
      rw [h.readLoop_end ps hrest, sampleLoop, hrest]
      rw [hrest] at hread
      exact if_pos hread
    · obtain ⟨read, hread, hpos, hnext, hone⟩ := h.record ps hrest
      rw [hone, sampleLoop, hread]
      dsimp only
      rw [if_neg (Nat.pos_iff_ne_zero.1 hpos), ← ih hnext, takeRecord]
      split
      · next hjoined => rw [hjoined]; rfl
      · next hjoined => rw [hjoined]; rfl

omit h

/-- Reads of a file that stays are one longer read. -/
theorem Stands.reads_eq {view : DirView} (h : Stands view.content file content r rd)
    (hname : findHighestLogFile view.listing = .found file)
    (hlength : ∀ len ∈ view.openLength, len = content.length) (limits : List Nat) :
    reads ps view limits r = readLoop ps view.content limits.sum r := by
  induction limits generalizing r rd with
  | nil => rfl
  | cons limit limits ih =>
    have htotal := h.offset
    have hsize : (r.reader.isSome && view.openLength.any fun len => decide (len < r.offset)) =
        false := by
      cases hlen : view.openLength with
      | none => simp
      | some len =>
        have := hlength len hlen
        simp
        omega
    have hcheck : r.checkRotation view = (true, r) := by
      rw [checkRotation, hname]
      dsimp only
      rw [if_neg (not_not.2 h.file.symm), hsize, if_neg Bool.false_ne_true]
    obtain ⟨rd', hnext, -⟩ := h.readLoop_done ps limit
    rw [reads, readLines, hcheck, sum_cons, h.readLoop_add]
    rw [if_pos rfl, ih hnext]

/-- **Reader and sampler.** A reader at the first byte, as it is opened over an empty log, reads the
log with any limits, call by call. The lines are the first of those that the sampler finds, and all
of them once every byte was read, as it is when the limits allow a record for every byte. The bytes
read are those of the lines and of the fragments that wait. -/
theorem reads_eq_sampleLines {view : DirView} {inode : Nat}
    {lines : List ContainerLine} {r' : ContainerReader} (limits : List Nat)
    (hname : findHighestLogFile view.listing = .found file)
    (hentry : (view.openEntry file).map Prod.fst = some inode)
    (hbytes : view.content inode = content)
    (hlength : ∀ len ∈ view.openLength, len = content.length)
    (hreads : reads ps view limits ⟨file, some (.atPos inode 0), 0, inode, [], 0⟩ = (lines, r')) :
    ∃ rest, sampleLines ps view = some (lines ++ rest) ∧
      (r'.offset = content.length → rest = []) ∧
      (content.length ≤ limits.sum → r'.offset = content.length) ∧
      (lines.map ContainerLine.sourceLen).sum + r'.partialSourceLen = r'.offset := by
  have hstart : Stands view.content file content ⟨file, some (.atPos inode 0), 0, inode, [], 0⟩
      (.atPos inode 0) := ⟨rfl, rfl, hbytes, Nat.zero_add _⟩
  rw [hstart.reads_eq ps hname hlength] at hreads
  have haccounts := readLoop_accounts ps view.content limits.sum
    ⟨file, some (.atPos inode 0), 0, inode, [], 0⟩
  obtain ⟨rd, hstands, hdone⟩ := hstart.readLoop_done ps limits.sum
  rw [hreads] at haccounts hstands
  have htotal := hstands.offset
  dsimp only at haccounts hdone htotal
  refine ⟨(readLoop ps view.content content.length r').1, ?_, ?_, ?_, by omega⟩
  · -- the sampler reads to the end, and to it the limits add nothing
    obtain ⟨_, hend, hall⟩ := hstart.readLoop_done ps content.length
    have hmore := hstart.readLoop_add ps content.length limits.sum
    dsimp only at hmore
    rw [hend.readLoop_end ps (hall (Nat.le_add_left _ _)), Nat.add_comm, hstart.readLoop_add,
      hreads, append_nil] at hmore
    obtain ⟨f, hf, rfl⟩ := map_eq_some_iff.1 hentry
    rw [sampleLines, hname]
    dsimp only
    rw [hf, map_some, hbytes, hstart.sampleLoop_eq]
    exact congrArg (fun read => some read.1) hmore.symm
  · intro hend
    rw [hstands.readLoop_end ps (eq_nil_of_length_eq_zero (by omega))]
  · intro hlimits
    rw [hdone (by omega)] at htotal
    exact htotal

/-! ## Reopening at a checkpoint -/

/-- The first read after the log is reopened starts at the saved offset if the file is the one of
the checkpoint and as long, and at its first byte otherwise. -/
def Resumes (view : DirView) (cp : Checkpoint) (inode len : Nat) : Prop :=
  (openWithCheckpoint view cp).map (fun r => (r.checkRotation view).map id reader) =
    some (true, some (.atPos inode (if inode = cp.inode ∧ cp.offset ≤ len then cp.offset else 0)))

instance (view : DirView) (cp : Checkpoint) (inode len : Nat) :
    Decidable (Resumes view cp inode len) :=
  inferInstanceAs (Decidable (_ = _))

section

variable {view : DirView} {inode len : Nat} (cp : Checkpoint)
  (hname : findHighestLogFile view.listing = .found file)
  (hentry : view.openEntry file = some (inode, len)) (hlength : view.openLength = some len)

include hname hentry hlength

/-- The saved inode is not looked at. Without an offset, and at a "rewind", the file is opened at
its end. -/
theorem checkRotation_openWithCheckpoint :
    (openWithCheckpoint view cp).map (fun r => (r.checkRotation view).map id reader) =
      some (true, some (.atPos inode
        (if cp.offset = 0 ∨ len < cp.offset then len else cp.offset))) := by
  have hopen : ∀ r : ContainerReader, r.openFile view file =
      some { r with
        inode := inode
        offset := if r.offset = 0 then len else r.offset
        reader := some (.atPos inode (if r.offset = 0 then len else r.offset)) } := by
    intro r
    rw [openFile, hentry]
    rfl
  rw [openWithCheckpoint, findAndOpenActiveLog, hname]
  dsimp only
  rw [hopen, map_some, map_some, checkRotation, hname]
  by_cases hzero : cp.offset = 0
  · simp [hzero, hlength]
  · by_cases hlt : len < cp.offset
    · simp [hzero, hlt, hlength, hopen]
    · simp [hzero, hlt, hlength]

end

/-- A byte P marks a fragment, any other the end of a message. -/
def flagParsers : RecordParsers :=
  ⟨fun _ => true, fun line => line.head?.map fun b => ⟨"stdout", b == 80, 1⟩, fun _ => none⟩

/-- A log of two records, the first of them a fragment. -/
def podView : DirView :=
  ⟨.found [("0.log", true)], fun _ => some (7, 6), some 6, fun _ => [80, 97, 10, 70, 98, 10]⟩

theorem one_record_at_a_time :
    ∃ lines r, reads flagParsers podView [1, 1] ⟨"0.log", some (.atPos 7 0), 0, 7, [], 0⟩ =
        (lines, r) ∧ r.offset = 6 ∧ sampleLines flagParsers podView = some lines := by
  refine ⟨_, _, rfl, by decide +kernel, ?_⟩
  have hname : findHighestLogFile podView.listing = .found "0.log" := rfl
  obtain ⟨rest, hsample, hall, -⟩ :=
    reads_eq_sampleLines flagParsers [1, 1] hname rfl rfl (by simp [podView]) rfl
  rw [hsample, hall (by decide +kernel), append_nil]

end ContainerReader

end EdgePacer.Source
