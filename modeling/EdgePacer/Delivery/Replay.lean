import EdgePacer.Delivery.DiskBuffer
import EdgePacer.Delivery.OverflowReplay

/-!
# Putting spilled records back

Both delivery pipelines take a batch of records from the overflow store once their buffer is empty
and append them to the buffer one by one, stopping at the first append that fails. The records are
gone from the store by then, so `replayEnqueue` decides which of them survive: a leading part,
under the buffer's next numbers (`replayEnqueue_table`), and all of them when no append fails and
the buffer has the room (`replayEnqueue_all`). With something to put back that condition is also
necessary (`replayEnqueue_records`).
-/

namespace EdgePacer.Delivery

open Lib List DiskBuffer Record

/-- What the environment decides about a replay: the store it leaves when it fails (files that were
read before the error are gone), the clock, and which appends fail. -/
structure ReplayEnv where
  fault : Option Writer
  now : Nat
  enqueueFault : Nat → Bool

/-- Records taken from overflow per replay. -/
def REPLAY_BATCH : Nat := 1000

/-- Put replayed records back into the buffer, up to the first that fails. -/
def replayEnqueue (fault : Nat → Bool) : Nat → List Record → DiskBuffer → DiskBuffer
  | _, [], b => b
  | i, r :: rs, b =>
      match b.enqueueBatch (fault i) [r.2] r.1 with
      | .ok (_, b') => replayEnqueue fault (i + 1) rs b'
      | .error _ => b

/-- The buffer row a replayed record becomes; the stream that wrote it is not kept. -/
def Record.Encodes (r : Record) (raw : Bytes) : Prop := encodeEntry r.1 r.2 .unspecified = .ok raw

variable (fault : Nat → Bool) (rs : List Record) {r : Record}

/-- Replayed records take the next numbers, as far as they are stored. -/
theorem replayEnqueue_table :
    ∀ (i : Nat) (b : DiskBuffer), ∃ raws,
      List.Forall₂ Record.Encodes (rs.take raws.length) raws ∧
      (replayEnqueue fault i rs b).core.table = b.core.table.insertAll raws ∧
      (b.InStep → (replayEnqueue fault i rs b).InStep) := by
  induction rs with
  | nil => exact fun i b => ⟨[], .nil, (SeqTable.insertAll_nil _).symm, id⟩
  | cons r rs ih =>
    intro i b
    rw [replayEnqueue]
    split
    · rename_i seqs b' hok
      obtain ⟨raw, henc, -, htable, hstep⟩ := appendEncoded_one hok
      obtain ⟨raws, hraws, htable', hstep'⟩ := ih (i + 1) b'
      refine ⟨raw :: raws, ?_, ?_, fun h => hstep' (hstep h)⟩
      · exact .cons henc hraws
      · rw [htable', htable, SeqTable.insertAll_insertAll, singleton_append]
    · -- the first failure ends the loop; the records behind it are not stored
      exact ⟨[], .nil, (SeqTable.insertAll_nil _).symm, id⟩

theorem replayEnqueue_seqs (i : Nat) (b : DiskBuffer) :
    ∃ k, k ≤ rs.length ∧
      (replayEnqueue fault i rs b).seqs = b.seqs ++ List.range' (b.core.table.lastSeq + 1) k ∧
      (replayEnqueue fault i rs b).core.table.lastSeq = b.core.table.lastSeq + k := by
  obtain ⟨raws, hraws, htable, -⟩ := replayEnqueue_table fault rs i b
  refine ⟨raws.length, ?_, ?_, ?_⟩
  · have hlen := hraws.length_eq
    rw [length_take] at hlen
    omega
  · rw [seqs, htable, SeqTable.seqs_insertAll]
    rfl
  · rw [htable, SeqTable.lastSeq_insertAll]

/-- The bytes a record takes in the buffer: its data and the entry header. -/
def Record.bufferedBytes (r : Record) : Nat := 12 + r.2.length

/-- Every append of a replay goes through: none fails, and the buffer has room for all records. -/
def AllFit (fault : Nat → Bool) (b : DiskBuffer) (rs : List Record) : Prop :=
  (∀ j < rs.length, fault j = false) ∧ (∀ r ∈ rs, r.2.length < 2 ^ 32) ∧
    b.core.currentBytes + (rs.map bufferedBytes).sum ≤ b.core.maxBytes

instance (fault : Nat → Bool) (b : DiskBuffer) (rs : List Record) :
    Decidable (AllFit fault b rs) := inferInstanceAs (Decidable (_ ∧ _ ∧ _))

/-- Once the first record is in, what is asked of the whole batch is what is asked of the rest. -/
theorem allFit_cons_iff {fault : Nat → Bool} {i : Nat} {b b' : DiskBuffer} {rs : List Record}
    (hnow : fault i = false) (hlen : r.2.length < 2 ^ 32)
    (hbytes : b'.core.currentBytes = b.core.currentBytes + r.bufferedBytes)
    (hmax : b'.core.maxBytes = b.core.maxBytes) (hroom : b'.core.currentBytes ≤ b.core.maxBytes) :
    AllFit (fun j => fault (i + j)) b (r :: rs) ↔
      rs = [] ∨ AllFit (fun j => fault (i + 1 + j)) b' rs := by
  have hshift : ∀ j, fault (i + 1 + j) = fault (i + (j + 1)) := fun j => by
    rw [Nat.add_assoc, Nat.add_comm 1 j]
  have hsum : b'.core.currentBytes + (rs.map bufferedBytes).sum =
      b.core.currentBytes + ((r :: rs).map bufferedBytes).sum := by
    rw [hbytes, map_cons, sum_cons, Nat.add_assoc]
  constructor
  · rintro ⟨hfault, hlens, htotal⟩
    refine .inr ⟨fun j hj => ?_, (forall_mem_cons.1 hlens).2, ?_⟩
    · exact (hshift j).trans (hfault (j + 1) (by simpa using hj))
    · rwa [hsum, hmax]
  · rintro (rfl | ⟨hfault, hlens, htotal⟩)
    · refine ⟨fun j hj => ?_, by simpa using hlen, ?_⟩
      · obtain rfl : j = 0 := by simpa using hj
        exact hnow
      · rw [← hsum]
        exact hroom
    · refine ⟨fun j hj => ?_, ?_, by rw [← hsum, ← hmax]; exact htotal⟩
      · cases j with
        | zero => exact hnow
        | succ j => exact (hshift j).symm.trans (hfault j (by simpa using hj))
      · intro r' hr'
        rcases mem_cons.1 hr' with rfl | hr'
        · exact hlen
        · exact hlens r' hr'

theorem replayEnqueue_all :
    ∀ (i : Nat) (b : DiskBuffer), AllFit (fun j => fault (i + j)) b rs →
      (replayEnqueue fault i rs b).core.table.lastSeq = b.core.table.lastSeq + rs.length := by
  induction rs with
  | nil => exact fun _ _ _ => rfl
  | cons r rs ih =>
    intro i b hfit
    have ⟨hfault, hlen, htotal⟩ := hfit
    rw [map_cons, sum_cons, bufferedBytes] at htotal
    have hnow : fault i = false := hfault 0 (by simp)
    obtain ⟨seqs, b', hok, hlast, hbytes, hmax⟩ := enqueueBatch_of_room
      (b := b) (hlen r mem_cons_self) (by omega)
    rw [replayEnqueue, hnow, hok]
    have hrest : rs = [] ∨ AllFit (fun j => fault (i + 1 + j)) b' rs :=
      (allFit_cons_iff hnow (hlen r mem_cons_self) hbytes hmax (by omega)).1 hfit
    rw [length_cons, Nat.add_comm rs.length, ← Nat.add_assoc, ← hlast]
    rcases hrest with rfl | hrest
    · rfl
    · exact ih (i + 1) b' hrest

/-! ## Which records the buffer holds afterwards -/

/-- The timestamp and data of every entry the buffer holds, oldest first. -/
def DiskBuffer.records (b : DiskBuffer) : List Record :=
  b.core.table.rows.filterMap fun row =>
    (decodeEntry row.1 row.2).map fun e => (e.timestampNs, e.data)

theorem decode_numberFrom {rs : List Record} {raws : List Bytes}
    (h : List.Forall₂ Record.Encodes rs raws) (n : Nat) :
    (numberFrom n raws).filterMap (fun row =>
      (decodeEntry row.1 row.2).map fun e => (e.timestampNs, e.data)) = rs := by
  induction h generalizing n with
  | nil => rfl
  | cons henc _ ih =>
    rw [numberFrom, filterMap_cons_some, ih (n + 1)]
    rw [decodeEntry_encodeEntry n henc, Option.map_some]

/-- A replayed record that is stored was no fault, no oversized entry and no entry past the cap. -/
theorem DiskBuffer.room_of_enqueueBatch {b b' : DiskBuffer} {fault : Bool} {seqs : Nat × Nat}
    (h : b.enqueueBatch fault [r.2] r.1 = .ok (seqs, b')) :
    fault = false ∧ r.2.length < 2 ^ 32 ∧
      b'.core.currentBytes = b.core.currentBytes + r.bufferedBytes ∧
      b'.core.maxBytes = b.core.maxBytes ∧ b'.core.currentBytes ≤ b.core.maxBytes := by
  obtain ⟨raw, henc, -, -, -⟩ := appendEncoded_one h
  obtain ⟨hlen, hraw⟩ := encodeEntry_eq henc
  have hbytes : totalBytes [raw] = r.bufferedBytes := by
    simp [hraw, streamTrailer, bufferedBytes]
    omega
  change encodeEntry r.1 r.2 .unspecified = .ok raw at henc
  have hmap : [(.ok raw : Except BufferError Bytes)].mapM id = .ok [raw] := rfl
  rw [enqueueBatch, map_singleton, henc, appendEncoded, if_neg (by simp), hmap] at h
  dsimp only at h
  split at h
  · cases h
  · rename_i x core happ
    cases h
    rw [SqliteSequenceBuffer.append, if_neg (by simp), hbytes] at happ
    split_ifs at happ with hfull hfault
    cases happ
    exact ⟨by simpa using hfault, hlen, rfl, rfl, Nat.le_of_not_lt hfull⟩

/-- A replay stores a leading part of the records, and the whole of a nonempty batch exactly when
every append goes through. -/
theorem replayEnqueue_records :
    ∀ (i : Nat) (b : DiskBuffer), ∃ k, k ≤ rs.length ∧
      (replayEnqueue fault i rs b).records = b.records ++ rs.take k ∧
      (k = rs.length ↔ rs = [] ∨ AllFit (fun j => fault (i + j)) b rs) := by
  induction rs with
  | nil => exact fun i b => ⟨0, Nat.le_refl 0, (append_nil _).symm, by simp⟩
  | cons r rs ih =>
    intro i b
    rw [replayEnqueue]
    split
    · rename_i seqs b' hok
      obtain ⟨hnow, hlen, hbytes, hmax, hroom⟩ := room_of_enqueueBatch hok
      obtain ⟨raw, henc, -, htable, -⟩ := appendEncoded_one hok
      obtain ⟨k, hk, hrecords, hall⟩ := ih (i + 1) b'
      have hrow : b'.records = b.records ++ [r] := by
        rw [records, htable, SeqTable.rows_insertAll, filterMap_append,
          decode_numberFrom (.cons henc .nil), records]
      refine ⟨k + 1, by simpa using hk, ?_, ?_⟩
      · rw [hrecords, hrow, append_assoc, singleton_append, take_succ_cons]
      · rw [length_cons, Nat.add_right_cancel_iff, hall,
          allFit_cons_iff hnow hlen hbytes hmax hroom]
        simp only [cons_ne_nil, false_or]
    · rename_i e herr
      refine ⟨0, Nat.zero_le _, by simp, ?_⟩
      refine iff_of_false (by simp) ?_
      rintro (hnil | ⟨hfault, hlens, htotal⟩)
      · cases hnil
      · -- nothing stands in the way of the first append, yet it failed
        have hnow : fault i = false := hfault 0 (by simp)
        rw [map_cons, sum_cons, bufferedBytes] at htotal
        have hroom : b.core.currentBytes + (12 + r.2.length) ≤ b.core.maxBytes := by omega
        obtain ⟨seqs, b', hok, -⟩ := enqueueBatch_of_room (hlens r mem_cons_self) hroom
        rw [hnow, hok] at herr
        cases herr

end EdgePacer.Delivery
