import EdgePacer.Common
import EdgePacer.Lib.SeqTable
import EdgePacer.Lib.Lists

/-!
# The SQLite sequence buffer

The durable `seq → bytes` queue behind both delivery pipelines. The table is an autoincrement
table; the byte total and the row count are cached in memory beside it. Whether SQLite fails a
transaction is up to the environment, so each operation takes that as a Boolean `fault`; a failed
transaction leaves the table as it was.

`InStep` says that the cached figures are those of the table. `open` establishes it and every
operation keeps it.
-/

namespace EdgePacer.Delivery

open Lib List Prod

/-- The summed lengths of byte strings. -/
def totalBytes (entries : List Bytes) : Nat := (entries.map List.length).sum

@[simp] theorem totalBytes_nil : totalBytes [] = 0 := rfl

@[simp] theorem totalBytes_cons (e : Bytes) (es : List Bytes) :
    totalBytes (e :: es) = e.length + totalBytes es := by simp [totalBytes]

@[simp] theorem totalBytes_append (xs ys : List Bytes) :
    totalBytes (xs ++ ys) = totalBytes xs + totalBytes ys := by simp [totalBytes]

/-- The summed row lengths of a table (`SUM(LENGTH(data))`). -/
def tableBytes (t : SeqTable Bytes) : Nat := totalBytes (t.rows.map snd)

/-- The queue with its cached figures. -/
structure SqliteSequenceBuffer where
  table : SeqTable Bytes
  (maxBytes currentBytes count : Nat)

structure AppendResult where
  (firstSequence lastSequence bytesWritten : Nat)

inductive SqliteSequenceBufferError where
  | sqlite
  | full (currentBytes maxBytes : Nat)
  deriving DecidableEq, Repr

/-- SQLite's bound on `IN (…)` parameters per `DELETE`. -/
def DELETE_SEQUENCE_CHUNK : Nat := 500

namespace SqliteSequenceBuffer

/-- Open the buffer over the rows already on disk. -/
def «open» (table : SeqTable Bytes) (maxMb : Nat) : SqliteSequenceBuffer where
  table := table
  maxBytes := maxMb * 1024 * 1024
  currentBytes := tableBytes table
  count := table.rows.length

variable (b : SqliteSequenceBuffer)

/-- Append entries in one transaction, refusing them when the backlog would pass the cap. -/
def append (fault : Bool) (entries : List Bytes) :
    Except SqliteSequenceBufferError (AppendResult × SqliteSequenceBuffer) :=
  if entries.isEmpty then .ok (⟨0, 0, 0⟩, b)
  else if b.maxBytes < b.currentBytes + totalBytes entries then
    .error (.full b.currentBytes b.maxBytes)
  else if fault then .error .sqlite
  else
    .ok (⟨b.table.lastSeq + 1, b.table.lastSeq + entries.length, totalBytes entries⟩,
      { b with
        table := b.table.insertAll entries
        currentBytes := b.currentBytes + totalBytes entries
        count := b.count + entries.length })

/-- The oldest `count` rows, without deleting them. An idle buffer answers from memory. -/
def peekRaw (fault : Bool) (count : Nat) : Except SqliteSequenceBufferError (List (Nat × Bytes)) :=
  if b.currentBytes = 0 then .ok []
  else if fault then .error .sqlite
  else .ok (b.table.rows.take count)

/-- One `DELETE … RETURNING LENGTH(data)`: the table after it, the freed bytes and the number of
deleted rows are added up. -/
def deleteChunk (acc : SeqTable Bytes × Nat × Nat) (chunk : List Nat) :
    SeqTable Bytes × Nat × Nat :=
  let gone := acc.1.rows.filter fun r => decide (r.1 ∈ chunk)
  (acc.1.deleteIn chunk, acc.2.1 + totalBytes (gone.map snd), acc.2.2 + gone.length)

/-- Delete rows by sequence number, chunk by chunk inside one transaction. -/
def deleteSequences (fault : Bool) (sequences : List Nat) :
    Except SqliteSequenceBufferError (Nat × SqliteSequenceBuffer) :=
  if sequences.isEmpty then .ok (0, b)
  else if fault then .error .sqlite
  else
    let r := (chunks DELETE_SEQUENCE_CHUNK sequences).foldl deleteChunk (b.table, 0, 0)
    .ok (r.2.1,
      { b with
        table := r.1
        currentBytes := b.currentBytes - r.2.1
        count := b.count - r.2.2 })

def isEmpty : Bool := b.count == 0

/-- The cached byte total and row count are those of the table. -/
def InStep : Prop := b.currentBytes = tableBytes b.table ∧ b.count = b.table.rows.length

theorem open_inStep (table : SeqTable Bytes) (maxMb : Nat) :
    («open» table maxMb).InStep := ⟨rfl, rfl⟩

variable {b b' : SqliteSequenceBuffer} {fault : Bool} {entries : List Bytes} {r : AppendResult}
  (acc : SeqTable Bytes × Nat × Nat) (cs : List (List Nat)) {ks : List Nat}

theorem isEmpty_iff (h : b.InStep) : b.isEmpty = true ↔ b.table.rows = [] := by
  rw [isEmpty, beq_iff_eq, h.2, length_eq_zero_iff]

/-- What a successful append of at least one entry does. -/
theorem append_ok (hne : entries ≠ []) (h : b.append fault entries = .ok (r, b')) :
    b'.table = b.table.insertAll entries ∧ r.firstSequence = b.table.lastSeq + 1 ∧
      b'.currentBytes = b.currentBytes + totalBytes entries ∧
      b'.count = b.count + entries.length ∧ b'.maxBytes = b.maxBytes := by
  unfold append at h
  rw [if_neg (by simpa using hne)] at h
  split at h
  · cases h
  · split at h
    · cases h
    · cases h
      exact ⟨rfl, rfl, rfl, rfl, rfl⟩

/-- Entries that fit under the cap are appended unless SQLite fails. -/
theorem append_of_room (hne : entries ≠ [])
    (hroom : b.currentBytes + totalBytes entries ≤ b.maxBytes) :
    b.append false entries = .ok
      (⟨b.table.lastSeq + 1, b.table.lastSeq + entries.length, totalBytes entries⟩,
        { b with
          table := b.table.insertAll entries
          currentBytes := b.currentBytes + totalBytes entries
          count := b.count + entries.length }) := by
  rw [append, if_neg (by simpa using hne), if_neg (by omega), if_neg (by simp)]

theorem append_inStep (hb : b.InStep) (h : b.append fault entries = .ok (r, b')) : b'.InStep := by
  by_cases hne : entries = []
  · subst hne
    cases h
    exact hb
  · obtain ⟨ht, -, hc, hn, -⟩ := append_ok hne h
    constructor
    · rw [hc, ht, hb.1]
      simp [tableBytes]
    · rw [hn, ht, hb.2]
      simp

/-! ## Deletion -/

/-- Deleting one chunk moves the deleted rows' bytes and number from the table to the sums. -/
theorem deleteChunk_sums (chunk : List Nat) :
    tableBytes (deleteChunk acc chunk).1 + (deleteChunk acc chunk).2.1 =
        tableBytes acc.1 + acc.2.1 ∧
      (deleteChunk acc chunk).1.rows.length + (deleteChunk acc chunk).2.2 =
        acc.1.rows.length + acc.2.2 := by
  have key : ∀ rows : List (Nat × Bytes),
      totalBytes ((rows.filter fun r => decide (r.1 ∉ chunk)).map snd) +
          totalBytes ((rows.filter fun r => decide (r.1 ∈ chunk)).map snd) =
        totalBytes (rows.map snd) ∧
      (rows.filter fun r => decide (r.1 ∉ chunk)).length +
          (rows.filter fun r => decide (r.1 ∈ chunk)).length = rows.length := by
    intro rows
    induction rows with
    | nil => exact ⟨rfl, rfl⟩
    | cons r rows ih =>
      by_cases hr : r.1 ∈ chunk
      · simp only [filter_cons, hr, not_true_eq_false, decide_false, decide_true,
          Bool.false_eq_true, if_false, if_true, map_cons, totalBytes_cons, length_cons]
        omega
      · simp only [filter_cons, hr, not_false_eq_true, decide_false, decide_true,
          Bool.false_eq_true, if_false, if_true, map_cons, totalBytes_cons, length_cons]
        omega
  obtain ⟨h1, h2⟩ := key acc.1.rows
  constructor
  · show totalBytes ((acc.1.rows.filter fun r => decide (r.1 ∉ chunk)).map snd) +
        (acc.2.1 + totalBytes ((acc.1.rows.filter fun r => decide (r.1 ∈ chunk)).map snd)) =
      totalBytes (acc.1.rows.map snd) + acc.2.1
    omega
  · show (acc.1.rows.filter fun r => decide (r.1 ∉ chunk)).length +
        (acc.2.2 + (acc.1.rows.filter fun r => decide (r.1 ∈ chunk)).length) =
      acc.1.rows.length + acc.2.2
    omega

theorem foldl_deleteChunk_sums (acc : SeqTable Bytes × Nat × Nat) :
    tableBytes (cs.foldl deleteChunk acc).1 + (cs.foldl deleteChunk acc).2.1 =
        tableBytes acc.1 + acc.2.1 ∧
      (cs.foldl deleteChunk acc).1.rows.length + (cs.foldl deleteChunk acc).2.2 =
        acc.1.rows.length + acc.2.2 := by
  induction cs generalizing acc with
  | nil => exact ⟨rfl, rfl⟩
  | cons c cs ih =>
    obtain ⟨h1, h2⟩ := ih (deleteChunk acc c)
    obtain ⟨h3, h4⟩ := deleteChunk_sums acc c
    exact ⟨h1.trans h3, h2.trans h4⟩

theorem deleteIn_deleteIn (t : SeqTable Bytes) (xs ys : List Nat) :
    (t.deleteIn xs).deleteIn ys = t.deleteIn (xs ++ ys) := by
  simp only [SeqTable.deleteIn, SeqTable.mk.injEq, and_true]
  rw [filter_filter]
  apply filter_congr
  intro r _
  by_cases h1 : r.1 ∈ xs <;> by_cases h2 : r.1 ∈ ys <;> simp [h2]

theorem foldl_deleteChunk_table (acc : SeqTable Bytes × Nat × Nat) :
    (cs.foldl deleteChunk acc).1 = acc.1.deleteIn cs.flatten := by
  induction cs generalizing acc with
  | nil => simp [SeqTable.deleteIn_nil]
  | cons c cs ih =>
    rw [foldl_cons, ih, flatten_cons, ← deleteIn_deleteIn]
    rfl

theorem deleteSequences_ok {n : Nat} (h : b.deleteSequences fault ks = .ok (n, b')) :
    b'.table = b.table.deleteIn ks ∧ b'.maxBytes = b.maxBytes := by
  unfold deleteSequences at h
  split at h
  · rename_i he
    cases h
    rw [List.isEmpty_iff.1 he, SeqTable.deleteIn_nil]
    exact ⟨rfl, rfl⟩
  · split at h
    · cases h
    · cases h
      refine ⟨?_, rfl⟩
      rw [foldl_deleteChunk_table, chunks_flatten (by decide)]

theorem deleteSequences_freed {n : Nat} (h : b.deleteSequences fault ks = .ok (n, b')) :
    tableBytes b'.table + n = tableBytes b.table := by
  unfold deleteSequences at h
  split at h
  · cases h
    rfl
  · split at h
    · cases h
    · cases h
      exact (foldl_deleteChunk_sums (chunks DELETE_SEQUENCE_CHUNK ks) (b.table, 0, 0)).1

theorem deleteSequences_inStep {n : Nat} (hb : b.InStep)
    (h : b.deleteSequences fault ks = .ok (n, b')) : b'.InStep := by
  unfold deleteSequences at h
  split at h
  · cases h
    exact hb
  · split at h
    · cases h
    · cases h
      obtain ⟨h1, h2⟩ := foldl_deleteChunk_sums (chunks DELETE_SEQUENCE_CHUNK ks) (b.table, 0, 0)
      obtain ⟨hb1, hb2⟩ := hb
      constructor
      · dsimp only at h1 ⊢
        omega
      · dsimp only at h2 ⊢
        omega

end SqliteSequenceBuffer

end EdgePacer.Delivery
