import EdgePacer.Delivery.DiskBuffer

/-!
# The trace buffer

Trace payloads in the sequence buffer, each with the archive and the repository it is bound for: two
identifiers behind 16-bit lengths, then the payload. `decodeEntry_encodeEntry` is the round trip.
The rows are never changed, so a sequence number stands for one entry for good.
-/

namespace EdgePacer.Trace

open Lib Delivery List SqliteSequenceBuffer

/-- A buffered payload with its sequence number and destination. -/
structure BufferedTraceEntry where
  sequence : Nat
  (archiveId repoId : String)
  payload : Bytes
  deriving DecidableEq

inductive TraceBufferError where
  | sqlite
  | full (currentBytes maxBytes : Nat)
  | identifierTooLong (field : String) (len : Nat)
  | corrupt (sequence : Nat)
  deriving DecidableEq

def TraceBufferError.ofSequenceBuffer : SqliteSequenceBufferError → TraceBufferError
  | .sqlite => .sqlite
  | .full currentBytes maxBytes => .full currentBytes maxBytes

/-! ## Entry encoding -/

/-- The UTF-8 bytes of a text. -/
def textBytes (s : String) : Bytes := s.toByteArray.data.toList

/-- The text that bytes are the UTF-8 of, if they are. -/
def textOf (bytes : Bytes) : Option String := String.fromUTF8? ⟨bytes.toArray⟩

theorem textOf_textBytes (s : String) : textOf (textBytes s) = some s := by
  have hdata : (⟨(textBytes s).toArray⟩ : ByteArray) = s.toByteArray := by
    rw [textBytes]
  rw [textOf, hdata, String.fromUTF8?, dif_pos s.isValidUTF8]
  rfl

/-- `u16::try_from` on the length of an identifier. -/
def checkedU16Len (field : String) (value : String) : Except TraceBufferError Nat :=
  if (textBytes value).length < 2 ^ 16 then .ok (textBytes value).length
  else .error (.identifierTooLong field (textBytes value).length)

def encodeEntry (archiveId repoId : String) (payload : Bytes) :
    Except TraceBufferError Bytes := do
  let archiveLen ← checkedU16Len "archive_id" archiveId
  let repoLen ← checkedU16Len "repo_id" repoId
  return toBe 2 archiveLen ++ textBytes archiveId ++ toBe 2 repoLen ++ textBytes repoId ++ payload

def decodeEntry (sequence : Nat) (raw : Bytes) : Option BufferedTraceEntry :=
  if raw.length < 4 then none
  else
    let archiveLen := ofBe (raw.take 2)
    if raw.length < 2 + archiveLen + 2 then none
    else do
      let archiveEnd := 2 + archiveLen
      let archiveId ← textOf ((raw.drop 2).take archiveLen)
      let repoLen := ofBe ((raw.drop archiveEnd).take 2)
      let repoStart := archiveEnd + 2
      let repoEnd := repoStart + repoLen
      if raw.length < repoEnd then none
      else
        let repoId ← textOf ((raw.drop repoStart).take repoLen)
        some ⟨sequence, archiveId, repoId, raw.drop repoEnd⟩

variable {raw : Bytes}

theorem decodeEntry_sequence {sequence : Nat} {entry : BufferedTraceEntry}
    (h : decodeEntry sequence raw = some entry) : entry.sequence = sequence := by
  unfold decodeEntry at h
  split at h
  · cases h
  · dsimp only at h
    split at h
    · cases h
    · obtain ⟨archiveId, -, h⟩ := Option.bind_eq_some_iff.1 h
      split at h
      · cases h
      · obtain ⟨repoId, -, h⟩ := Option.bind_eq_some_iff.1 h
        cases h
        rfl

theorem encodeEntry_eq {archiveId repoId : String} {payload : Bytes}
    (h : encodeEntry archiveId repoId payload = .ok raw) :
    (textBytes archiveId).length < 2 ^ 16 ∧ (textBytes repoId).length < 2 ^ 16 ∧
      raw = toBe 2 (textBytes archiveId).length ++ (textBytes archiveId ++
        (toBe 2 (textBytes repoId).length ++ (textBytes repoId ++ payload))) := by
  simp only [encodeEntry, checkedU16Len] at h
  split at h
  · next harchive =>
    split at h
    · next hrepo =>
      cases h
      exact ⟨harchive, hrepo, by simp only [append_assoc]⟩
    · cases h
  · cases h

section

variable {archiveId repoId : String} {payload : Bytes} (sequence : Nat)
  (h : encodeEntry archiveId repoId payload = .ok raw)

include h

/-- Where the fields of an encoded entry lie. -/
theorem fields_encodeEntry :
    raw.length = 2 + (textBytes archiveId).length + 2 + (textBytes repoId).length + payload.length ∧
      ofBe (raw.take 2) = (textBytes archiveId).length ∧
      (raw.drop 2).take (textBytes archiveId).length = textBytes archiveId ∧
      ofBe ((raw.drop (2 + (textBytes archiveId).length)).take 2) = (textBytes repoId).length ∧
      raw.drop (2 + (textBytes archiveId).length + 2) = textBytes repoId ++ payload := by
  obtain ⟨harchive, hrepo, hraw⟩ := encodeEntry_eq h
  generalize textBytes archiveId = a at *
  generalize textBytes repoId = r at *
  have h2 : raw.drop 2 = a ++ (toBe 2 r.length ++ (r ++ payload)) := by
    rw [hraw]
    exact drop_left' (length_toBe 2 _)
  have hrepoAt : raw.drop (2 + a.length) = toBe 2 r.length ++ (r ++ payload) := by
    rw [← drop_drop, h2, drop_left' rfl]
  refine ⟨?_, ?_, ?_, ?_, ?_⟩
  · rw [hraw]
    simp only [length_append, length_toBe]
    omega
  · rw [hraw, take_left' (length_toBe 2 _)]
    exact ofBe_toBe_of_lt harchive
  · rw [h2, take_left' rfl]
  · rw [hrepoAt, take_left' (length_toBe 2 _)]
    exact ofBe_toBe_of_lt hrepo
  · rw [← drop_drop, hrepoAt, drop_left' (length_toBe 2 _)]

theorem decodeEntry_encodeEntry :
    decodeEntry sequence raw = some ⟨sequence, archiveId, repoId, payload⟩ := by
  obtain ⟨hlen, harchiveLen, harchive, hrepoLen, hrest⟩ := fields_encodeEntry h
  have hpayload : raw.drop (2 + (textBytes archiveId).length + 2 + (textBytes repoId).length) =
      payload := by
    rw [← drop_drop, hrest, drop_left' rfl]
  unfold decodeEntry
  simp only [harchiveLen, hrepoLen]
  rw [if_neg (by omega), if_neg (by omega), harchive, textOf_textBytes, Option.bind_eq_bind,
    Option.bind_some, if_neg (by omega), hrest, take_left' rfl, textOf_textBytes, hpayload]
  rfl

/-- What is left of an encoded entry decodes only with both identifiers. -/
theorem decodeEntry_take {n : Nat}
    (hn : n < 4 + (textBytes archiveId).length + (textBytes repoId).length) :
    decodeEntry sequence (raw.take n) = none := by
  obtain ⟨hlen, harchiveLen, harchive, hrepoLen, -⟩ := fields_encodeEntry h
  unfold decodeEntry
  rw [length_take_of_le (by omega)]
  split
  · rfl
  · dsimp only
    rw [take_take, min_eq_left (by omega), harchiveLen]
    split
    · rfl
    · rw [take_drop_take (by omega), harchive, textOf_textBytes, take_drop_take (by omega),
        hrepoLen, Option.bind_eq_bind, Option.bind_some, if_pos (by omega)]

end

/-- **Entries are read back.** Every log entry and every trace entry that can be encoded decodes to
what it was made of, and not at all if it is cut off in the fields it announces; without the byte
after the line, a log entry is of no stream. -/
theorem entries_read_back (sequence : Nat) :
    (∀ (ts : TimestampNs) (line : Bytes) (stream : LogStream), line.length < 2 ^ 32 →
      (∃ raw, Delivery.encodeEntry ts line stream = .ok raw ∧
        Delivery.decodeEntry sequence raw = some ⟨sequence, ts, line, stream⟩ ∧
        ∀ n < 12 + line.length, Delivery.decodeEntry sequence (raw.take n) = none) ∧
      Delivery.decodeEntry sequence (toBe 8 ts.toNat ++ toBe 4 line.length ++ line) =
        some ⟨sequence, ts, line, .unspecified⟩) ∧
    ∀ (archiveId repoId : String) (payload : Bytes), (textBytes archiveId).length ≤ 65535 →
      (textBytes repoId).length ≤ 65535 → ∃ raw, encodeEntry archiveId repoId payload = .ok raw ∧
        decodeEntry sequence raw = some ⟨sequence, archiveId, repoId, payload⟩ ∧
        ∀ n < 4 + (textBytes archiveId).length + (textBytes repoId).length,
          decodeEntry sequence (raw.take n) = none := by
  constructor
  · intro ts line stream hline
    have hok (stream : LogStream) : Delivery.encodeEntry ts line stream =
        .ok (toBe 8 ts.toNat ++ toBe 4 line.length ++ line ++ streamTrailer stream) := by
      rw [Delivery.encodeEntry, checkedDataLen, if_pos hline]
      rfl
    refine ⟨⟨_, hok stream, Delivery.decodeEntry_encodeEntry _ (hok stream), fun n hn => ?_⟩, ?_⟩
    · exact Delivery.decodeEntry_take _ (hok stream) hn
    · have hplain := hok .unspecified
      rw [streamTrailer, append_nil] at hplain
      exact Delivery.decodeEntry_encodeEntry _ hplain
  · intro archiveId repoId payload harchive hrepo
    obtain ⟨raw, hok⟩ : ∃ raw, encodeEntry archiveId repoId payload = .ok raw := by
      rw [encodeEntry, checkedU16Len, if_pos (by omega), checkedU16Len, if_pos (by omega)]
      exact ⟨_, rfl⟩
    exact ⟨raw, hok, decodeEntry_encodeEntry _ hok, fun n hn => decodeEntry_take _ hok hn⟩

/-- A line of stderr, and a payload with both identifiers. -/
theorem short_entries_read_back :
    (∃ raw, Delivery.encodeEntry 5 [104] .stderr = .ok raw ∧
      Delivery.decodeEntry 1 raw = some ⟨1, 5, [104], .stderr⟩) ∧
    ∃ raw, encodeEntry "arch" "répo" [7] = .ok raw ∧
      decodeEntry 1 raw = some ⟨1, "arch", "répo", [7]⟩ := by
  obtain ⟨raw, hok, hread, -⟩ := ((entries_read_back 1).1 5 [104] .stderr (by decide)).1
  obtain ⟨raw', hok', hread', -⟩ := (entries_read_back 1).2 "arch" "répo" [7] (by decide +kernel)
    (by decide +kernel)
  exact ⟨⟨raw, hok, hread⟩, raw', hok', hread'⟩

/-! ## Operations -/

structure TraceBuffer where
  core : SqliteSequenceBuffer

namespace TraceBuffer

def «open» (table : SeqTable Bytes) (maxMb : Nat) : TraceBuffer := ⟨.open table maxMb⟩

variable (b : TraceBuffer)

def enqueue (fault : Bool) (archiveId repoId : String) (payload : Bytes) :
    Except TraceBufferError (Nat × TraceBuffer) :=
  match encodeEntry archiveId repoId payload with
  | .error e => .error e
  | .ok encoded =>
      match b.core.append fault [encoded] with
      | .error e => .error (.ofSequenceBuffer e)
      | .ok (appended, core) => .ok (appended.firstSequence, ⟨core⟩)

/-- Decode rows up to the first that does not decode, which fails the whole. -/
def decodeRows : List (Nat × Bytes) → Except TraceBufferError (List BufferedTraceEntry)
  | [] => .ok []
  | row :: rows =>
      match decodeEntry row.1 row.2 with
      | none => .error (.corrupt row.1)
      | some entry =>
          match decodeRows rows with
          | .error e => .error e
          | .ok entries => .ok (entry :: entries)

/-- The oldest `count` entries, without deleting them. -/
def peek (fault : Bool) (count : Nat) : Except TraceBufferError (List BufferedTraceEntry) :=
  match b.core.peekRaw fault count with
  | .error e => .error (.ofSequenceBuffer e)
  | .ok rows => decodeRows rows

def deleteSequences (fault : Bool) (sequences : List Nat) : Except TraceBufferError TraceBuffer :=
  if sequences.isEmpty then .ok b
  else
    match b.core.deleteSequences fault sequences with
    | .error e => .error (.ofSequenceBuffer e)
    | .ok (_, core) => .ok ⟨core⟩

/-- The rows of the buffer's table. -/
def rows : List (Nat × Bytes) := b.core.table.rows

/-! ## What the operations do -/

variable {b : TraceBuffer} {fault : Bool} {sequence : Nat} {rows : List (Nat × Bytes)}
  {entries : List BufferedTraceEntry} {count : Nat}

/-- A stored payload is a new row at the back, which decodes to it. -/
theorem enqueue_ok {b' : TraceBuffer} {archiveId repoId : String} {payload : Bytes}
    (h : b.enqueue fault archiveId repoId payload = .ok (sequence, b')) :
    ∃ raw, b'.core.table = b.core.table.insertAll [raw] ∧
      sequence = b.core.table.lastSeq + 1 ∧
      decodeEntry sequence raw = some ⟨sequence, archiveId, repoId, payload⟩ := by
  unfold enqueue at h
  split at h
  · cases h
  · next raw hraw =>
    split at h
    · cases h
    · next appended core happ =>
      cases h
      obtain ⟨htable, hfirst, -, -, -⟩ := append_ok (by simp) happ
      exact ⟨raw, htable, hfirst, decodeEntry_encodeEntry _ hraw⟩

theorem deleteSequences_ok {b' : TraceBuffer} {ks : List Nat}
    (h : b.deleteSequences fault ks = .ok b') : b'.core.table = b.core.table.deleteIn ks := by
  unfold deleteSequences at h
  split at h
  · next he =>
    cases h
    rw [isEmpty_iff.1 he, SeqTable.deleteIn_nil]
  · split at h
    · cases h
    · next n core hdel =>
      cases h
      exact (SqliteSequenceBuffer.deleteSequences_ok hdel).1

/-- The entries are the rows, decoded one by one. -/
theorem decodeRows_ok (h : decodeRows rows = .ok entries) :
    entries.map BufferedTraceEntry.sequence = rows.map Prod.fst ∧
      ∀ entry ∈ entries, ∃ raw, (entry.sequence, raw) ∈ rows ∧
        decodeEntry entry.sequence raw = some entry := by
  induction rows generalizing entries with
  | nil =>
    cases h
    exact ⟨rfl, forall_mem_nil _⟩
  | cons row rows ih =>
    rw [decodeRows] at h
    split at h
    · cases h
    · next entry hentry =>
      split at h
      · cases h
      · next rest hrest =>
        cases h
        have hseq := decodeEntry_sequence hentry
        obtain ⟨hseqs, hfrom⟩ := ih hrest
        refine ⟨by rw [map_cons, map_cons, hseqs, hseq], ?_⟩
        intro e he
        rcases mem_cons.1 he with rfl | he
        · refine ⟨row.2, ?_, ?_⟩
          · rw [hseq]
            exact mem_cons_self
          · rw [hseq]
            exact hentry
        · obtain ⟨raw, hraw, hdec⟩ := hfrom e he
          exact ⟨raw, mem_cons_of_mem _ hraw, hdec⟩

theorem decodeRows_corrupt (h : decodeRows rows = .error (.corrupt sequence)) :
    ∃ raw, (sequence, raw) ∈ rows ∧ decodeEntry sequence raw = none := by
  induction rows with
  | nil => cases h
  | cons row rows ih =>
    rw [decodeRows] at h
    split at h
    · next hnone =>
      cases h
      exact ⟨row.2, mem_cons_self, hnone⟩
    · split at h
      · next e he =>
        cases h
        obtain ⟨raw, hraw, hdec⟩ := ih he
        exact ⟨raw, mem_cons_of_mem _ hraw, hdec⟩
      · cases h

theorem peekRaw_subset {b : SqliteSequenceBuffer} (h : b.peekRaw fault count = .ok rows) :
    rows.Sublist b.table.rows := by
  unfold peekRaw at h
  split at h
  · cases h
    exact nil_sublist _
  · split at h
    · cases h
    · cases h
      exact take_sublist _ _

/-- Peeked entries are decoded rows, in sequence order. -/
theorem peek_ok (h : b.peek fault count = .ok entries) :
    (entries.map BufferedTraceEntry.sequence).Pairwise (· < ·) ∧
      ∀ entry ∈ entries, ∃ raw, (entry.sequence, raw) ∈ b.rows ∧
        decodeEntry entry.sequence raw = some entry := by
  unfold peek at h
  split at h
  · cases h
  · next rows hrows =>
    have hsub := peekRaw_subset hrows
    obtain ⟨hseqs, hfrom⟩ := decodeRows_ok h
    refine ⟨?_, fun entry he => ?_⟩
    · rw [hseqs]
      exact b.core.table.sorted.sublist (hsub.map Prod.fst)
    · obtain ⟨raw, hraw, hdec⟩ := hfrom entry he
      exact ⟨raw, hsub.subset hraw, hdec⟩

theorem peek_corrupt (h : b.peek fault count = .error (.corrupt sequence)) :
    ∃ raw, (sequence, raw) ∈ b.rows ∧ decodeEntry sequence raw = none := by
  unfold peek at h
  split at h
  · next e he =>
    cases e with
    | sqlite | full currentBytes maxBytes => cases h
  · next rows hrows =>
    obtain ⟨raw, hraw, hdec⟩ := decodeRows_corrupt h
    exact ⟨raw, (peekRaw_subset hrows).subset hraw, hdec⟩

end TraceBuffer

end EdgePacer.Trace
