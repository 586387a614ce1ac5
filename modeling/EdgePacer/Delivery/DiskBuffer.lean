import EdgePacer.Delivery.SequenceBuffer
import EdgePacer.Lib.BigEndian

/-!
# The disk buffer

Log entries in the sequence buffer: a 12-byte header (timestamp and data length, big-endian), the
data, and for a stdout or stderr entry one trailer byte. `decodeEntry_encodeEntry` is the round
trip. Enqueuing appends a batch in one transaction and answers with the range of sequence numbers
it took; peeking decodes the oldest entries and fails as a whole on a row that does not decode.
-/

namespace EdgePacer.Delivery

open Lib List SqliteSequenceBuffer SeqTable

/-- A buffered entry with its sequence number. -/
structure BufferedEntry where
  sequence : Nat
  timestampNs : TimestampNs
  data : Bytes
  stream : LogStream
  deriving DecidableEq

inductive BufferError where
  | sqlite
  | full (currentBytes maxBytes : Nat)
  | entryTooLarge (len : Nat)
  | corrupt (sequence : Nat)
  deriving DecidableEq, Repr

def BufferError.ofSequenceBuffer : SqliteSequenceBufferError → BufferError
  | .sqlite => .sqlite
  | .full currentBytes maxBytes => .full currentBytes maxBytes

/-! ## Entry encoding -/

/-- `u32::try_from` on a data length. -/
def checkedDataLen (len : Nat) : Except BufferError Nat :=
  if len < 2 ^ 32 then .ok len else .error (.entryTooLarge len)

def STREAM_TRAILER_STDOUT : UInt8 := 1
def STREAM_TRAILER_STDERR : UInt8 := 2

/-- The trailer byte after the data; a single-stream entry has none. -/
def streamTrailer : LogStream → Bytes
  | .stdout => [STREAM_TRAILER_STDOUT]
  | .stderr => [STREAM_TRAILER_STDERR]
  | .unspecified => []

def encodeEntry (timestampNs : TimestampNs) (data : Bytes) (stream : LogStream) :
    Except BufferError Bytes := do
  let dataLen ← checkedDataLen data.length
  return toBe 8 timestampNs.toNat ++ toBe 4 dataLen ++ data ++ streamTrailer stream

/-- The stream a trailer byte stands for; none, or an unknown one, is `unspecified`. -/
def trailerStream : Option UInt8 → LogStream
  | some b =>
      if b = STREAM_TRAILER_STDOUT then .stdout
      else if b = STREAM_TRAILER_STDERR then .stderr
      else .unspecified
  | none => .unspecified

def decodeEntry (sequence : Nat) (raw : Bytes) : Option BufferedEntry :=
  if raw.length < 12 then none
  else
    let dataLen := ofBe ((raw.drop 8).take 4)
    if raw.length < 12 + dataLen then none
    else
      some ⟨sequence, BitVec.ofNat 64 (ofBe (raw.take 8)), (raw.drop 12).take dataLen,
        trailerStream raw[12 + dataLen]?⟩

variable {ts : TimestampNs} {data : Bytes} {stream : LogStream} {raw : Bytes}

theorem encodeEntry_eq (h : encodeEntry ts data stream = .ok raw) :
    data.length < 2 ^ 32 ∧
      raw = toBe 8 ts.toNat ++ (toBe 4 data.length ++ (data ++ streamTrailer stream)) := by
  simp only [encodeEntry, checkedDataLen] at h
  split at h
  · rename_i hlt
    cases h
    exact ⟨hlt, by simp only [append_assoc]⟩
  · cases h

theorem trailerStream_streamTrailer (stream : LogStream) :
    trailerStream (streamTrailer stream)[0]? = stream := by
  cases stream <;> rfl

section

variable (sequence : Nat) (h : encodeEntry ts data stream = .ok raw)

include h

/-- Where the fields of an encoded entry lie. -/
theorem fields_encodeEntry :
    raw.length = 12 + data.length + (streamTrailer stream).length ∧
      BitVec.ofNat 64 (ofBe (raw.take 8)) = ts ∧ ofBe ((raw.drop 8).take 4) = data.length ∧
      raw.drop 12 = data ++ streamTrailer stream := by
  obtain ⟨hlt, hraw⟩ := encodeEntry_eq h
  have hd8 : raw.drop 8 = toBe 4 data.length ++ (data ++ streamTrailer stream) := by
    rw [hraw]
    exact drop_left' (length_toBe 8 _)
  refine ⟨?_, ?_, ?_, ?_⟩
  · rw [hraw]
    simp only [length_append, length_toBe]
    omega
  · rw [hraw, take_left' (length_toBe 8 _), ofBe_toBe_of_lt (by omega)]
    exact BitVec.ofNat_toNat _ ts |>.trans (BitVec.setWidth_eq ts)
  · rw [hd8, take_left' (length_toBe 4 _)]
    exact ofBe_toBe_of_lt (by omega)
  · rw [← drop_drop (i := 4) (j := 8), hd8, drop_left' (length_toBe 4 _)]

theorem decodeEntry_encodeEntry : decodeEntry sequence raw = some ⟨sequence, ts, data, stream⟩ := by
  obtain ⟨hlen, hts, hdataLen, hrest⟩ := fields_encodeEntry h
  have htr : raw[12 + data.length]? = (streamTrailer stream)[0]? := by
    rw [← getElem?_drop, hrest, getElem?_append_right le_rfl, Nat.sub_self]
  rw [decodeEntry, if_neg (by omega)]
  simp only [hdataLen]
  rw [if_neg (by omega), hrest, hts, htr, trailerStream_streamTrailer, take_left' rfl]

theorem decodeEntry_take {n : Nat} (hn : n < 12 + data.length) :
    decodeEntry sequence (raw.take n) = none := by
  obtain ⟨hlen, -, hdataLen, -⟩ := fields_encodeEntry h
  unfold decodeEntry
  rw [length_take_of_le (by omega)]
  split
  · rfl
  · rw [take_drop_take (by omega), hdataLen, if_pos hn]

end

/-! ## Operations -/

structure DiskBuffer where
  core : SqliteSequenceBuffer

namespace DiskBuffer

variable (b : DiskBuffer)

/-- The sequence numbers of the buffered entries, oldest first. -/
def seqs : List Nat := b.core.table.seqs

def «open» (table : SeqTable Bytes) (maxMb : Nat) : DiskBuffer := ⟨.open table maxMb⟩

variable (fault : Bool)

/-- Append entries encoded one by one; the first that does not encode fails the batch. -/
def appendEncoded (encoded : List (Except BufferError Bytes)) :
    Except BufferError ((Nat × Nat) × DiskBuffer) :=
  if encoded.isEmpty then .ok ((0, 0), b)
  else
    match encoded.mapM id with
    | .error e => .error e
    | .ok entries =>
        match b.core.append fault entries with
        | .error e => .error (.ofSequenceBuffer e)
        | .ok (r, core) => .ok ((r.firstSequence, r.lastSequence), ⟨core⟩)

def enqueueBatch (lines : List Bytes) (ts : TimestampNs) :
    Except BufferError ((Nat × Nat) × DiskBuffer) :=
  b.appendEncoded fault (lines.map fun line => encodeEntry ts line .unspecified)

def enqueueStreamBatch (lines : List (Bytes × LogStream))
    (ts : TimestampNs) : Except BufferError ((Nat × Nat) × DiskBuffer) :=
  b.appendEncoded fault (lines.map fun l => encodeEntry ts l.1 l.2)

/-- The oldest `count` entries, or the error of the first row that does not decode. -/
def peek (count : Nat) : Except BufferError (List BufferedEntry) :=
  match b.core.peekRaw fault count with
  | .error e => .error (.ofSequenceBuffer e)
  | .ok rows => rows.mapM fun r =>
      match decodeEntry r.1 r.2 with
      | some entry => .ok entry
      | none => .error (.corrupt r.1)

def deleteSequences (sequences : List Nat) : Except BufferError DiskBuffer :=
  if sequences.isEmpty then .ok b
  else
    match b.core.deleteSequences fault sequences with
    | .error e => .error (.ofSequenceBuffer e)
    | .ok (_, core) => .ok ⟨core⟩

def isEmpty : Bool := b.core.isEmpty

def InStep : Prop := b.core.InStep

theorem open_inStep (table : SeqTable Bytes) (maxMb : Nat) : («open» table maxMb).InStep :=
  SqliteSequenceBuffer.open_inStep table maxMb

variable {b b' : DiskBuffer} {fault : Bool} {r : Nat × Nat} {ts : TimestampNs} {ks : List Nat}

theorem isEmpty_iff (h : b.InStep) : b.isEmpty = true ↔ b.seqs = [] := by
  rw [isEmpty, SqliteSequenceBuffer.isEmpty_iff h, seqs, SeqTable.seqs, map_eq_nil_iff]

/-! ## What a successful operation does -/

theorem forall₂_of_mapM {α ε β : Type} {f : α → Except ε β} {xs : List α} {ys : List β}
    (h : xs.mapM f = .ok ys) : Forall₂ (fun x y => f x = .ok y) xs ys := by
  induction xs generalizing ys with
  | nil =>
    cases h
    exact .nil
  | cons x xs ih =>
    rw [mapM_cons] at h
    cases hx : f x with
    | error e => simp only [hx] at h; cases h
    | ok y =>
      cases hxs : xs.mapM f with
      | error e => simp only [hx, hxs] at h; cases h
      | ok zs =>
        simp only [hx, hxs] at h
        cases h
        exact .cons hx (ih hxs)

/-- A successful append encodes every entry and puts their rows at the back. -/
theorem appendEncoded_rows {encoded : List (Except BufferError Bytes)} (hne : encoded ≠ [])
    (h : b.appendEncoded fault encoded = .ok (r, b')) :
    ∃ raws, Forall₂ (fun x raw => x = .ok raw) encoded raws ∧ r.1 = b.core.table.lastSeq + 1 ∧
      b'.core.table = b.core.table.insertAll raws ∧ (b.InStep → b'.InStep) := by
  unfold appendEncoded at h
  rw [if_neg (by simpa using hne)] at h
  split at h
  · cases h
  · rename_i raws hraws
    have heach := forall₂_of_mapM hraws
    have hsome : raws ≠ [] := by
      rintro rfl
      exact hne (forall₂_nil_right_iff.1 heach)
    split at h
    · cases h
    · rename_i r' core happ
      cases h
      obtain ⟨htable, hfirst, -, -, -⟩ := append_ok hsome happ
      exact ⟨raws, heach, hfirst, htable, fun hb => append_inStep hb happ⟩

/-- A successful append puts one row per entry at the back, under the next free numbers. -/
theorem appendEncoded_ok {encoded : List (Except BufferError Bytes)} (hne : encoded ≠ [])
    (h : b.appendEncoded fault encoded = .ok (r, b')) :
    r.1 = b.core.table.lastSeq + 1 ∧
      b'.seqs = b.seqs ++ List.range' (b.core.table.lastSeq + 1) encoded.length ∧
      b'.core.table.lastSeq = b.core.table.lastSeq + encoded.length ∧ (b.InStep → b'.InStep) := by
  obtain ⟨raws, heach, hfirst, htable, hstep⟩ := appendEncoded_rows hne h
  refine ⟨hfirst, ?_, ?_, hstep⟩
  · rw [seqs, htable, seqs_insertAll, heach.length_eq]
    rfl
  · rw [htable, lastSeq_insertAll, heach.length_eq]

theorem enqueueStreamBatch_ok {lines : List (Bytes × LogStream)} (hne : lines ≠ [])
    (h : b.enqueueStreamBatch fault lines ts = .ok (r, b')) :
    r.1 = b.core.table.lastSeq + 1 ∧
      b'.seqs = b.seqs ++ List.range' (b.core.table.lastSeq + 1) lines.length ∧
      b'.core.table.lastSeq = b.core.table.lastSeq + lines.length ∧ (b.InStep → b'.InStep) := by
  have h' := appendEncoded_ok (by simpa using hne) h
  simpa using h'

/-- A successful append of one entry: it encodes, and its row goes to the back. -/
theorem appendEncoded_one {encoded : Except BufferError Bytes}
    (h : b.appendEncoded fault [encoded] = .ok (r, b')) :
    ∃ raw, encoded = .ok raw ∧ r.1 = b.core.table.lastSeq + 1 ∧
      b'.core.table = b.core.table.insertAll [raw] ∧ (b.InStep → b'.InStep) := by
  obtain ⟨raws, heach, hrest⟩ := appendEncoded_rows (cons_ne_nil _ _) h
  obtain ⟨raw, tail, hraw, hnil, rfl⟩ := forall₂_cons_left_iff.1 heach
  cases hnil
  exact ⟨raw, hraw, hrest⟩

/-- A line is stored when SQLite does not fail and the cap leaves room for it and its header. -/
theorem enqueueBatch_of_room {line : Bytes} (hlen : line.length < 2 ^ 32)
    (hroom : b.core.currentBytes + (12 + line.length) ≤ b.core.maxBytes) :
    ∃ r b', b.enqueueBatch false [line] ts = .ok (r, b') ∧
      b'.core.table.lastSeq = b.core.table.lastSeq + 1 ∧
      b'.core.currentBytes = b.core.currentBytes + (12 + line.length) ∧
      b'.core.maxBytes = b.core.maxBytes := by
  obtain ⟨raw, hraw, hrawlen⟩ : ∃ raw, encodeEntry ts line .unspecified = .ok raw ∧
      raw.length = 12 + line.length := by
    refine ⟨_, by rw [encodeEntry, checkedDataLen, if_pos hlen]; rfl, ?_⟩
    simp [streamTrailer]
    omega
  have hmap : ([line].map fun l => encodeEntry ts l .unspecified).mapM id = .ok [raw] := by
    rw [map_singleton, hraw]
    rfl
  have hcap : b.core.currentBytes + totalBytes [raw] ≤ b.core.maxBytes := by
    simpa [hrawlen] using hroom
  have happ := append_of_room (cons_ne_nil raw []) hcap
  have henq : b.enqueueBatch false [line] ts = .ok ((b.core.table.lastSeq + 1,
      b.core.table.lastSeq + 1), ⟨{ b.core with
        table := b.core.table.insertAll [raw]
        currentBytes := b.core.currentBytes + totalBytes [raw]
        count := b.core.count + 1 }⟩) := by
    rw [enqueueBatch, appendEncoded, hmap]
    dsimp only
    rw [happ]
    rfl
  exact ⟨_, _, henq, rfl, by simp [hrawlen], rfl⟩

/-- A line that would pass the cap with its header is refused. -/
theorem enqueueStreamBatch_of_full {data : Bytes} {stream : LogStream}
    (hlen : data.length < 2 ^ 32)
    (hfull : b.core.maxBytes < b.core.currentBytes + (12 + data.length)) :
    b.enqueueStreamBatch fault [(data, stream)] ts =
      .error (.full b.core.currentBytes b.core.maxBytes) := by
  obtain ⟨raw, hraw, hrawlen⟩ : ∃ raw, encodeEntry ts data stream = .ok raw ∧
      12 + data.length ≤ raw.length := by
    refine ⟨_, by rw [encodeEntry, checkedDataLen, if_pos hlen]; rfl, ?_⟩
    simp
    omega
  have hmap : ([(data, stream)].map fun l => encodeEntry ts l.1 l.2).mapM id = .ok [raw] := by
    rw [map_singleton, hraw]
    rfl
  have hover : b.core.maxBytes < b.core.currentBytes + totalBytes [raw] := by
    rw [totalBytes_cons]
    omega
  rw [enqueueStreamBatch, appendEncoded, hmap]
  dsimp only
  rw [append, if_pos hover]
  rfl

theorem deleteSequences_ok (h : b.deleteSequences fault ks = .ok b') :
    b'.core.table = b.core.table.deleteIn ks ∧ (b.InStep → b'.InStep) := by
  unfold deleteSequences at h
  split at h
  · rename_i he
    cases h
    rw [List.isEmpty_iff.1 he, deleteIn_nil]
    exact ⟨rfl, id⟩
  · split at h
    · cases h
    · rename_i n core hdel
      cases h
      exact ⟨(deleteSequences_ok hdel).1, fun hb => deleteSequences_inStep hb hdel⟩

/-- Deleting the numbers of the first `n` entries leaves the others, in order. -/
theorem deleteSequences_take {n : Nat} (h : b.deleteSequences fault (b.seqs.take n) = .ok b') :
    b'.seqs = b.seqs.drop n ∧ b'.core.table.lastSeq = b.core.table.lastSeq := by
  obtain ⟨ht, -⟩ := deleteSequences_ok h
  constructor
  · rw [seqs, ht]
    exact seqs_deleteIn_take _ n
  · rw [ht, lastSeq_deleteIn]

theorem decodeEntry_sequence {sequence : Nat} {entry : BufferedEntry}
    (h : decodeEntry sequence raw = some entry) : entry.sequence = sequence := by
  unfold decodeEntry at h
  split at h
  · cases h
  · dsimp only at h
    split at h
    · cases h
    · cases h
      rfl

theorem peek_sequences {count : Nat} {es : List BufferedEntry} (h : b.peek fault count = .ok es) :
    es.map BufferedEntry.sequence <+: b.seqs := by
  unfold peek peekRaw at h
  by_cases hz : b.core.currentBytes = 0
  · simp only [if_pos hz] at h
    cases h
    exact nil_prefix
  · by_cases hf : fault = true
    · simp only [if_neg hz, if_pos hf] at h
      cases h
    · simp only [if_neg hz, if_neg hf] at h
      have hseqs : es.map BufferedEntry.sequence = (b.core.table.rows.take count).map Prod.fst := by
        refine forall₂_eq_eq_eq ▸ forall₂_map_left_iff.2 (forall₂_map_right_iff.2 ?_)
        refine (forall₂_of_mapM h).flip.imp fun entry row hrow => ?_
        split at hrow
        · rename_i hdecode
          cases hrow
          exact decodeEntry_sequence hdecode
        · cases hrow
      rw [hseqs, map_take]
      exact take_prefix count _

end DiskBuffer

end EdgePacer.Delivery
