import EdgePacer.Source.Text
import EdgePacer.Streaming.Actor
import EdgePacer.Streaming.Multiline
import EdgePacer.Text
import EdgePacer.Trace.Wire

/-!
# Streaming a unit's journal

A unit's entries are read by the native reader and, once that has failed, by `journalctl`. Both
send every entry through `normalizeEntry`, which drops the blank ones, and through a multi-line
assembler of their own into the pipeline's actor.

The journal is a list that grows during the run, given as it is at the end. The resume point is the
number of entries up to the resume cursor; without a cursor a reader starts behind the entries the
journal has when the reader starts. A reader's events are the entries it delivers and the ticks
between them. The text decoder (`String::from_utf8_lossy`) and the way `journalctl` prints a field
(`Journalctl`) are parameters; a line of output comes with what `serde_json` makes of it.
`journalctl` is run without `--all`, so it prints a field that is too long as null: such an entry is
blank to the fallback (`parsedToStream_of_prints`). The stream handle says how many commands its
actor takes before it is gone, if it ever is.
-/

namespace EdgePacer.Journal

open Source Streaming Trace.Json
open Trace (Json)

universe u v

variable {κ : Type u} {ε : Type v}

/-! ## Entries -/

/-- An entry of the unit's journal; `message` is its MESSAGE field. -/
structure JournalEntry where
  message : Option Bytes
  realtimeUsec : BitVec 64
  cursor : String
  deriving DecidableEq

/-- A line of `journalctl`'s output, what `serde_json` makes of it if it is JSON, and the clock when
it is read. -/
structure OutputLine where
  text : List Char
  json : Option Json
  nowUsec : BitVec 64

/-- The fields of a line of `journalctl`'s output. -/
structure ParsedEntry where
  cursor : Option String
  messageBytes : Bytes
  realtimeUsec : Option (BitVec 64)

structure StreamEntry (κ : Type u) where
  message : List Char
  cursor : Option κ
  timestampNs : TimestampNs

/-- A message of which `str::trim` leaves nothing. -/
def isBlank (message : List Char) : Bool := message.all Text.isWhitespace

/-- The UTF-8 bytes of a text (`String::into_bytes`). -/
def intoBytes (text : List Char) : Bytes := text.flatMap String.utf8EncodeChar

/-- `String::from_utf8_lossy`. -/
structure LossyDecoder where
  decode : Bytes → List Char
  decode_nil : decode [] = []

section

variable (lossy : LossyDecoder)

def stripStr (line : List Char) : List Char :=
  let bytes := intoBytes line
  if ESC ∈ bytes then lossy.decode (stripInPlace bytes.length bytes) else line

def decodeMessage (messageBytes : Bytes) : Option (List Char) :=
  let message := stripStr lossy (lossy.decode messageBytes)
  if isBlank message then none else some message

def normalizeEntry (messageBytes : Bytes) (realtimeUsec : BitVec 64) (cursor : Option κ) :
    Option (StreamEntry κ) :=
  (decodeMessage lossy messageBytes).map fun message =>
    ⟨message, cursor, realtimeUsec * 1000⟩

/-- The native reader skips an entry without a message (`entry_to_stream`). -/
def entryToStream (entry : JournalEntry) : Option (StreamEntry String) :=
  entry.message.bind fun message =>
    normalizeEntry lossy message entry.realtimeUsec (some entry.cursor)

end

/-! ## The output of `journalctl` -/

/-- `str::parse::<u64>` -/
def parseU64 (text : List Char) : Option (BitVec 64) :=
  let digits := if text.head? = some '+' then text.tail else text
  if digits ≠ [] ∧ digits.all Char.isDigit ∧ Nat.ofDigitChars 10 digits 0 < 2 ^ 64 then
    some (BitVec.ofNat 64 (Nat.ofDigitChars 10 digits 0))
  else none

/-- The byte that an item of an array stands for. -/
def itemByte : Json → Option UInt8
  | .int n => if 0 ≤ n ∧ n < 256 then some (UInt8.ofNat n.toNat) else none
  | _ => none

/-- A text, or an array of bytes; everything else is empty. -/
def messageFieldBytes : Json → Bytes
  | .str s => intoBytes s.toList
  | .arr items => items.filterMap itemByte
  | _ => []

/-- A line that is not JSON is a message of its own. -/
def parseJournaldJson (line : OutputLine) : ParsedEntry :=
  match line.json with
  | none => ⟨none, intoBytes line.text, none⟩
  | some object =>
      { cursor := (object.get? "__CURSOR").bind asStr?
        messageBytes := ((object.get? "MESSAGE").map messageFieldBytes).getD []
        realtimeUsec := ((object.get? "__REALTIME_TIMESTAMP").bind asStr?).bind fun s =>
          parseU64 s.toList }

/-- The fallback's entry for a line of output. -/
def parsedToStream (lossy : LossyDecoder) (line : OutputLine) : Option (StreamEntry String) :=
  let parsed := parseJournaldJson line
  normalizeEntry lossy parsed.messageBytes (parsed.realtimeUsec.getD line.nowUsec) parsed.cursor

/-- How `journalctl` prints the value of a field: as null if it is too long, as a text if it is
printable, or else as its bytes. -/
structure Journalctl where
  tooLong : Bytes → Bool
  printable : Bytes → Option String
  intoBytes_printable : ∀ {value text}, printable value = some text → intoBytes text.toList = value

namespace Journalctl

variable (j : Journalctl)

def fieldJson (value : Bytes) : Json :=
  if j.tooLong value then .null
  else
    match j.printable value with
    | some text => .str text
    | none => .arr (value.map fun b => .int b.toNat)

/-- The fields of an entry that the fallback looks at. -/
def entryJson (entry : JournalEntry) : Json :=
  .obj ([("__CURSOR", .str entry.cursor), ("__REALTIME_TIMESTAMP",
    .str (String.ofList (Nat.toDigits 10 entry.realtimeUsec.toNat)))] ++
    (entry.message.map fun message => ("MESSAGE", j.fieldJson message)).toList)

/-- The line is what `journalctl` prints of the entry. -/
def Prints (line : OutputLine) (entry : JournalEntry) : Prop := line.json = some (j.entryJson entry)

/-- The entry's message, if it has one, is printed. -/
def shows (entry : JournalEntry) : Bool := entry.message.all fun message => !j.tooLong message

end Journalctl

theorem parseU64_toDigits (n : BitVec 64) : parseU64 (Nat.toDigits 10 n.toNat) = some n := by
  have hdigits : ∀ c ∈ Nat.toDigits 10 n.toNat, c.isDigit = true := fun c hc =>
    Nat.isDigit_of_mem_toDigits (by decide) (by decide) hc
  have hplus : (Nat.toDigits 10 n.toNat).head? ≠ some '+' := fun h =>
    absurd (hdigits _ (List.mem_of_mem_head? h)) (by decide)
  have hne : Nat.toDigits 10 n.toNat ≠ [] := Nat.toDigits_ne_nil
  rw [parseU64, if_neg hplus, Nat.ofDigitChars_ten_toDigits, if_pos, BitVec.ofNat_toNat,
    BitVec.setWidth_eq]
  exact ⟨hne, List.all_eq_true.2 hdigits, n.isLt⟩

/-- A byte printed in an array is read back. -/
theorem filterMap_itemByte (value : Bytes) :
    (value.map fun b => Json.int b.toNat).filterMap itemByte = value := by
  induction value with
  | nil => rfl
  | cons b value ih =>
    have hbyte : itemByte (.int b.toNat) = some b := by
      have hlt : (b.toNat : Int) < 256 := by exact_mod_cast b.toNat_lt
      rw [itemByte, if_pos ⟨Int.natCast_nonneg _, hlt⟩, Int.toNat_natCast, UInt8.ofNat_toNat]
    rw [List.map_cons, List.filterMap_cons, hbyte, ih]

theorem messageFieldBytes_fieldJson (j : Journalctl) (value : Bytes) :
    messageFieldBytes (j.fieldJson value) = if j.tooLong value then [] else value := by
  rw [Journalctl.fieldJson]
  split
  · rfl
  · split
    · next text htext => exact j.intoBytes_printable htext
    · exact filterMap_itemByte value

section

variable (lossy : LossyDecoder) {j : Journalctl} {line : OutputLine} {entry : JournalEntry}

theorem normalizeEntry_nil (usec : BitVec 64) (cursor : Option κ) :
    normalizeEntry lossy [] usec cursor = none := by
  have hstrip : stripStr lossy [] = [] := by simp [stripStr, intoBytes]
  simp [normalizeEntry, decodeMessage, lossy.decode_nil, hstrip, isBlank]

/-- The fallback makes of an entry what the native reader makes of it, unless its message is too
long. -/
theorem parsedToStream_of_prints (h : j.Prints line entry) :
    parsedToStream lossy line = if j.shows entry then entryToStream lossy entry else none := by
  unfold Journalctl.Prints Journalctl.entryJson at h
  unfold parsedToStream parseJournaldJson Journalctl.shows entryToStream
  rw [h]
  cases entry.message with
  | none => simp [get?, List.lookup_cons, normalizeEntry_nil]
  | some message =>
    cases htoo : j.tooLong message with
    | true => simp [get?, List.lookup_cons, messageFieldBytes_fieldJson, htoo, normalizeEntry_nil]
    | false =>
      simp [get?, asStr?, List.lookup_cons, messageFieldBytes_fieldJson, htoo, parseU64_toDigits]

end

/-! ## Into the pipeline -/

/-- The producer's end of an actor's channel: the commands it took, and how many it takes before
it is gone. -/
structure StreamHandle (κ : Type u) where
  sent : List (StreamCommand κ)
  goneAfter : Option Nat

namespace StreamHandle

/-- Send a command; `false` when the actor is gone. -/
def send (h : StreamHandle κ) (command : StreamCommand κ) : Bool × StreamHandle κ :=
  if h.goneAfter.any fun n => decide (n ≤ h.sent.length) then (false, h)
  else (true, { h with sent := h.sent ++ [command] })

/-- The lines the actor was given. -/
def lines (h : StreamHandle κ) : List StreamLine :=
  h.sent.filterMap fun
    | .enqueue line => some line
    | _ => none

end StreamHandle

/-- A reader's task: its handle, its counters, its assembler, and the entries of each event it has
handed on. -/
structure Stream (κ : Type u) where
  handle : StreamHandle κ
  entriesProcessed : Nat
  lastCursor : Option κ
  assembler : StreamingEntryAssembler κ
  events : List (List (FedLine κ))

def CHECKPOINT_INTERVAL : Nat := 100

/-- What a reader's loop wakes up for, and when. The native reader delivers entries of the journal,
the fallback lines of output. -/
inductive ReaderEvent (ε : Type v) where
  | entry (now : Nat) (entry : ε)
  | tick (now : Nat)

/-- The entries a reader delivers. -/
def entriesOf : List (ReaderEvent ε) → List ε
  | [] => []
  | .entry _ entry :: evs => entry :: entriesOf evs
  | .tick _ :: evs => entriesOf evs

namespace Stream

def new (handle : StreamHandle κ) (multiline : Option MultilineConfig) : Stream κ :=
  ⟨handle, 0, none, .new multiline, []⟩

/-- Hand the events on in turn, up to the first that the actor does not take. -/
def enqueueAll (s : Stream κ) : List (StreamingEmit κ) → Bool × Stream κ
  | [] => (true, s)
  | emit :: emits =>
      let sent := s.handle.send (.enqueue emit.line)
      if sent.1 then
        enqueueAll { s with handle := sent.2, events := s.events ++ [emit.sources] } emits
      else (false, s)

variable (s : Stream κ)

/-- Count an event, remember its cursor and set a checkpoint from time to time. -/
def recordEmit : Option (StreamingEmit κ) → Bool × Stream κ
  | none => (true, s)
  | some emit =>
      let s := { s with
        entriesProcessed := s.entriesProcessed + 1
        lastCursor := emit.checkpoint.or s.lastCursor }
      match s.lastCursor with
      | some cursor =>
          if s.entriesProcessed % CHECKPOINT_INTERVAL = 0 then
            let sent := s.handle.send (.setCheckpoint cursor)
            (sent.1, { s with handle := sent.2 })
          else (true, s)
      | none => (true, s)

/-- What follows a call of the assembler. -/
def deliver (r : List (StreamingEmit κ) × StreamingEntryAssembler κ) : Bool × Stream κ :=
  let sent := enqueueAll { s with assembler := r.2 } r.1
  if sent.1 then sent.2.recordEmit r.1.getLast? else sent

def enqueueStreamEntry (now : Nat) (entry : StreamEntry κ) : Bool × Stream κ :=
  s.deliver (s.assembler.processLine now (intoBytes entry.message) entry.timestampNs entry.cursor)

/-- One turn of a reader's loop. `read` makes a stream entry of an entry, or skips it. -/
def onEvent (read : ε → Option (StreamEntry κ)) (s : Stream κ) :
    ReaderEvent ε → Bool × Stream κ
  | .tick now => s.deliver (s.assembler.checkTimeout now)
  | .entry now entry =>
      match read entry with
      | none => (true, s)
      | some entry => s.enqueueStreamEntry now entry

/-- A reader's loop, up to its end or to the loss of the actor. -/
def runLoop (read : ε → Option (StreamEntry κ)) :
    List (ReaderEvent ε) → Stream κ → Bool × Stream κ
  | [], s => (true, s)
  | ev :: evs, s =>
      let turn := s.onEvent read ev
      if turn.1 then runLoop read evs turn.2 else turn

/-- Flush the assembler and set the final checkpoint, both as far as the actor is still there. -/
def finish : Stream κ :=
  let flushed := s.deliver s.assembler.flush
  if flushed.1 then
    match flushed.2.lastCursor with
    | some cursor => { flushed.2 with handle := (flushed.2.handle.send (.setCheckpoint cursor)).2 }
    | none => flushed.2
  else flushed.2

end Stream

/-- `journalctl` on the events of its output, from a fresh assembler (`stream_unit_logs`). -/
def streamUnitLogs (lossy : LossyDecoder) (handle : StreamHandle String)
    (multiline : Option MultilineConfig) (output : List (ReaderEvent OutputLine)) : Stream String :=
  ((Stream.new handle multiline).runLoop (parsedToStream lossy) output).2.finish

/-- How the native reader's loop ended: the reader reported an error, or it was stopped. -/
inductive NativeEnd where
  | failed
  | stopped
  deriving DecidableEq

/-- The native reader, and the fallback when it has failed. The result has the tasks of both. -/
def streamUnitLogsNative (lossy : LossyDecoder) (handle : StreamHandle String)
    (multiline : Option MultilineConfig) (native : List (ReaderEvent JournalEntry))
    (nativeEnd : NativeEnd) (output : List (ReaderEvent OutputLine)) :
    Stream String × Option (Stream String) :=
  let loop := (Stream.new handle multiline).runLoop (entryToStream lossy) native
  -- the assembler is dropped with the lines it still holds
  if loop.1 = true ∧ nativeEnd = .failed then
    (loop.2, some (streamUnitLogs lossy loop.2.handle multiline output))
  else (loop.2.finish, none)

end EdgePacer.Journal
