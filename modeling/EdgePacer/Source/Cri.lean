import EdgePacer.Common
import EdgePacer.Lib.Slots

/-!
# Container log records

Container runtimes wrap each line a program writes: the CRI text format puts a timestamp, the
stream and a full-or-partial flag in front of it, Docker's json-file driver makes it a JSON object.
A long line is split into several records, which are joined again here, for CRI in one buffer and
for Docker in one buffer per stream.

The regular expression, the JSON parser and the UTF-8 check belong to libraries and are the fields
of `RecordParsers`.
-/

namespace EdgePacer.Source

open Lib

/-- What the CRI pattern captures at the start of a line. -/
structure CriMatch where
  stream : String
  /-- The flag was `P`, not `F`. -/
  isFragment : Bool
  /-- Where the match ends and the message begins. -/
  stop : Nat

/-- The parsers of the log formats. -/
structure RecordParsers where
  validUtf8 : Bytes → Bool
  logPattern : Bytes → Option CriMatch
  /-- The `log` and `stream` fields of a JSON object that has both as strings. -/
  dockerJson : Bytes → Option (Bytes × String)

/-! ## Single records -/

/-- A record of Docker's json-file log without its wrapper. A payload without a newline is a
fragment of a line. -/
structure DockerJsonRecord where
  payload : Bytes
  stream : LogStream
  isFragment : Bool
  deriving DecidableEq

/-- Whether the bytes occur somewhere in the line. -/
def hasWindow (window : Bytes) : Bytes → Bool
  | [] => window.isPrefixOf []
  | b :: bs => window.isPrefixOf (b :: bs) || hasWindow window bs

/-- Remove a trailing byte. -/
def popByte (b : UInt8) (bytes : Bytes) : Bytes :=
  if bytes.getLast? = some b then bytes.dropLast else bytes

def parseDockerJsonLine (ps : RecordParsers) (line : Bytes) : Option DockerJsonRecord :=
  -- an object that mentions the key "log"
  if line.head? ≠ some 0x7B ∨ hasWindow [0x22, 0x6C, 0x6F, 0x67, 0x22] line = false then none
  else
    (ps.dockerJson line).map fun parsed =>
      { payload := popByte 0x0D (popByte 0x0A parsed.1)
        stream := LogStream.fromTag parsed.2
        isFragment := parsed.1.getLast? != some (0x0A : UInt8) }

/-- The message of a container line, its stream, whether it is a fragment, and whether the line
is a container record at all. -/
structure ParsedLine where
  message : Bytes
  stream : LogStream
  (isFragment isCri : Bool)

def parseLine (ps : RecordParsers) (line : Bytes) : ParsedLine :=
  if ps.validUtf8 line = false then ⟨line, .unspecified, false, false⟩
  else
    match ps.logPattern line with
    | some m => ⟨line.drop m.stop, LogStream.fromTag m.stream, m.isFragment, true⟩
    | none =>
        match parseDockerJsonLine ps line with
        | some r => ⟨r.payload, r.stream, r.isFragment, true⟩
        | none => ⟨line, .unspecified, false, false⟩

/-! ## Joining fragments -/

/-- Join CRI fragments in one buffer; the message is there once a full record arrives. -/
def reassemblePartial (ps : RecordParsers) (raw buffer : Bytes) :
    Option (Bytes × LogStream) × Bytes :=
  let parsed := parseLine ps raw
  if parsed.isCri && parsed.isFragment then (none, buffer ++ parsed.message)
  else if buffer = [] then (some (parsed.message, parsed.stream), [])
  else (some (buffer ++ parsed.message, parsed.stream), [])

/-- A complete json-file line and the file bytes of all its records. -/
structure DockerJsonLine where
  payload : Bytes
  stream : LogStream
  sourceLen : Nat
  deriving DecidableEq

structure PartialRecord where
  payload : Bytes
  sourceLen : Nat
  deriving DecidableEq

def PartialRecord.empty : PartialRecord := ⟨[], 0⟩

/-- Joins the json-file records of each stream. -/
structure DockerJsonReassembler where
  partials : List (LogStream × PartialRecord)
  deriving DecidableEq

namespace DockerJsonReassembler

def empty : DockerJsonReassembler := ⟨[]⟩

/-- Add a record to the buffer of its stream; a record that is no fragment empties it. -/
def pushRecord (record : DockerJsonRecord) (sourceLen : Nat) (buffered : PartialRecord) :
    PartialRecord × Option DockerJsonLine :=
  let joined : PartialRecord := ⟨buffered.payload ++ record.payload, buffered.sourceLen + sourceLen⟩
  if record.isFragment then (joined, none)
  else (.empty, some ⟨joined.payload, record.stream, joined.sourceLen⟩)

variable (r : DockerJsonReassembler)

/-- Feed one raw line. A line that is no record passes straight through. -/
def push (ps : RecordParsers) (raw : Bytes) : Option DockerJsonLine × DockerJsonReassembler :=
  let sourceLen := raw.length + 1
  match parseDockerJsonLine ps raw with
  | none => (some ⟨raw, .unspecified, sourceLen⟩, r)
  | some record =>
      let updated := updateSlot record.stream .empty (pushRecord record sourceLen) r.partials
      (updated.2, ⟨updated.1⟩)

/-- File bytes of the fragments that wait for their final record. -/
def pendingBytes : Nat := (r.partials.map fun p => p.2.sourceLen).sum

/-- File bytes of one stream's waiting fragments. -/
def waiting (s : LogStream) : Nat := (slot s PartialRecord.empty r.partials).sourceLen

/-- The file bytes of a completed line, none while fragments wait. -/
def emittedLen (line : Option DockerJsonLine) : Nat := (line.map DockerJsonLine.sourceLen).getD 0

/-- The fragments of a stream that wait. -/
def buffer (s : LogStream) : PartialRecord := slot s .empty r.partials

theorem waiting_eq (s : LogStream) : r.waiting s = (r.buffer s).sourceLen := rfl

section

variable {r : DockerJsonReassembler} {ps : RecordParsers} {raw : Bytes}

theorem push_of_not_record (h : parseDockerJsonLine ps raw = none) :
    r.push ps raw = (some ⟨raw, .unspecified, raw.length + 1⟩, r) := by
  rw [push, h]

/-- A record goes to the buffer of its stream and changes no other. -/
theorem push_record {record : DockerJsonRecord} (h : parseDockerJsonLine ps raw = some record) :
    (r.push ps raw).1 = (pushRecord record (raw.length + 1) (r.buffer record.stream)).2 ∧
      (r.push ps raw).2.buffer record.stream =
        (pushRecord record (raw.length + 1) (r.buffer record.stream)).1 ∧
      (∀ s ≠ record.stream, (r.push ps raw).2.buffer s = r.buffer s) ∧
      (r.push ps raw).2.pendingBytes + (r.buffer record.stream).sourceLen =
        r.pendingBytes +
          (pushRecord record (raw.length + 1) (r.buffer record.stream)).1.sourceLen := by
  simp only [push, h]
  exact ⟨updateSlot_snd .., slot_updateSlot_self .., fun s hs => slot_updateSlot_ne hs ..,
    sum_updateSlot PartialRecord.sourceLen _ rfl ..⟩

theorem sourceLen_pos_of_push {line : DockerJsonLine} (h : (r.push ps raw).1 = some line) :
    0 < line.sourceLen := by
  cases hparse : parseDockerJsonLine ps raw with
  | none =>
    rw [push_of_not_record hparse] at h
    cases h
    exact Nat.succ_pos _
  | some record =>
    rw [(push_record hparse).1, pushRecord] at h
    split at h
    · cases h
    · cases h
      exact Nat.lt_of_lt_of_le (Nat.succ_pos _) (Nat.le_add_left _ _)

end

variable (r : DockerJsonReassembler) (ps : RecordParsers) (raw : Bytes)

/-- Every byte pushed is in a completed line or still pending. -/
theorem push_accounts :
    emittedLen (r.push ps raw).1 + (r.push ps raw).2.pendingBytes =
      r.pendingBytes + (raw.length + 1) := by
  cases hparse : parseDockerJsonLine ps raw with
  | none =>
    rw [push_of_not_record hparse]
    exact Nat.add_comm _ _
  | some record =>
    obtain ⟨hline, -, -, hsum⟩ := push_record hparse
    rw [hline]
    rw [pushRecord] at hsum ⊢
    split
    · rename_i hfrag
      rw [if_pos hfrag] at hsum
      dsimp only [emittedLen, Option.map_none, Option.getD_none] at hsum ⊢
      omega
    · rename_i hfrag
      rw [if_neg hfrag] at hsum
      dsimp only [emittedLen, Option.map_some, Option.getD_some, PartialRecord.empty] at hsum ⊢
      omega

theorem waiting_le_pendingBytes (s : LogStream) : r.waiting s ≤ r.pendingBytes :=
  slot_le_sum PartialRecord.sourceLen PartialRecord.empty rfl s r.partials

end DockerJsonReassembler

end EdgePacer.Source
