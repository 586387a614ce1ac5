import EdgePacer.Delivery.SequenceBuffer

/-!
# The life of a sequence buffer

A database outlives the handles it is opened through. Along any run of operations, failed ones
included, the cached figures and the share in the queue-depth gauge are those of the table, and
sequence numbers only grow. A peek answers from memory when the byte total is zero, so it overlooks
a backlog of empty entries; where none is ever appended it returns the oldest rows.
-/

namespace EdgePacer.Delivery

open Lib List SqliteSequenceBuffer

/-- A database with the handle it was last opened through, and the gauge it shares with others. -/
structure Lifetime where
  buffer : SqliteSequenceBuffer
  isOpen : Bool
  /-- Whether the handle has the gauge (`set_gauge`). -/
  gauged : Bool
  gauge : Nat
  /-- What the gauge owes to other buffers. -/
  others : Nat
  /-- The sequence numbers that appends returned. -/
  handed : List Nat

namespace Lifetime

/-- What happens to a database, open or not. -/
inductive Op where
  | append (fault : Bool) (entries : List Bytes)
  | peekRaw (fault : Bool) (count : Nat)
  | deleteSequences (fault : Bool) (sequences : List Nat)
  | drop
  | open (fault : Bool) (maxMb : Nat) (setGauge : Bool)
  /-- Another buffer grows, or shrinks by at most what it holds. -/
  | othersAdd (bytes : Nat)
  | othersSub (bytes : Nat)

/-- A database that is not open yet. -/
def new (table : SeqTable Bytes) (others : Nat) : Lifetime :=
  ⟨.open table 0, false, false, others, others, []⟩

/-- The part of an amount that goes to the gauge. -/
def counted (s : Lifetime) (bytes : Nat) : Nat := if s.isOpen && s.gauged then bytes else 0

/-- One operation; without an open handle only `open` and other buffers do anything. -/
def step (s : Lifetime) : Op → Lifetime
  | .append fault entries =>
      if s.isOpen then
        match s.buffer.append fault entries with
        | .error _ => s
        | .ok (r, buffer) =>
            { s with
              buffer := buffer
              gauge := s.gauge + s.counted r.bytesWritten
              handed := s.handed ++ if entries.isEmpty then []
                else range' r.firstSequence (r.lastSequence + 1 - r.firstSequence) }
      else s
  | .peekRaw _ _ => s
  | .deleteSequences fault sequences =>
      if s.isOpen then
        match s.buffer.deleteSequences fault sequences with
        | .error _ => s
        | .ok (freed, buffer) =>
            { s with buffer := buffer, gauge := s.gauge - s.counted freed }
      else s
  | .drop => { s with isOpen := false, gauge := s.gauge - s.counted s.buffer.currentBytes }
  | .open fault maxMb setGauge =>
      if s.isOpen || fault then s
      else
        let buffer := SqliteSequenceBuffer.open s.buffer.table maxMb
        { s with
          buffer := buffer
          isOpen := true
          gauged := setGauge
          gauge := s.gauge + if setGauge then buffer.currentBytes else 0 }
  | .othersAdd bytes => { s with gauge := s.gauge + bytes, others := s.others + bytes }
  | .othersSub bytes =>
      if bytes ≤ s.others then { s with gauge := s.gauge - bytes, others := s.others - bytes }
      else s

/-- The figures are those of the table, what has been handed out has grown, and no row is empty. -/
structure Sound (s : Lifetime) : Prop where
  inStep : s.buffer.InStep
  gauge : s.gauge = s.others + s.counted (tableBytes s.buffer.table)
  increasing : s.handed.Pairwise (· < ·)
  bounded : ∀ n ∈ s.handed, n ≤ s.buffer.table.lastSeq
  filled : ∀ row ∈ s.buffer.table.rows, row.2 ≠ []

/-- No entry is empty. -/
def Op.Filled : Op → Prop
  | .append _ entries => [] ∉ entries
  | _ => True

variable {s : Lifetime}

theorem Sound.append (h : s.Sound) (fault : Bool) {entries : List Bytes} (hfilled : [] ∉ entries) :
    (s.step (.append fault entries)).Sound := by
  rw [Lifetime.step]
  split
  · cases hres : s.buffer.append fault entries with
    | error e => exact h
    | ok res =>
      have hstep := append_inStep h.inStep hres
      have hgauge := h.gauge
      unfold SqliteSequenceBuffer.append at hres
      split at hres
      · rename_i hempty
        cases hres
        simpa [hempty, counted] using h
      · rename_i hne
        split at hres
        · cases hres
        · split at hres
          · cases hres
          · cases hres
            simp only [hne]
            refine ⟨hstep, ?_, ?_, ?_, ?_⟩
            · simp only [counted] at hgauge ⊢
              split at hgauge
              · simp_all [tableBytes]
                omega
              · simp_all
            · -- AUTOINCREMENT: the new numbers lie behind all that were handed out
              refine pairwise_append.2 ⟨h.increasing, pairwise_lt_range', ?_⟩
              intro a ha b hb
              have hle := h.bounded a ha
              have hlow := (mem_range'_1.1 hb).1
              omega
            · intro n hn
              rw [SeqTable.lastSeq_insertAll]
              rcases mem_append.1 hn with hold | hnew
              · have hle := h.bounded n hold
                omega
              · have hhigh := (mem_range'_1.1 hnew).2
                omega
            · intro row hrow
              rcases mem_append.1 hrow with hold | hnew
              · exact h.filled row hold
              · exact fun hempty => hfilled (hempty ▸ snd_of_mem_numberFrom hnew)
  · exact h

theorem Sound.deleteSequences (h : s.Sound) (fault : Bool) (sequences : List Nat) :
    (s.step (.deleteSequences fault sequences)).Sound := by
  rw [Lifetime.step]
  split
  · cases hres : s.buffer.deleteSequences fault sequences with
    | error e => exact h
    | ok res =>
      have htable := (deleteSequences_ok hres).1
      have hfreed := deleteSequences_freed hres
      have hgauge := h.gauge
      refine ⟨deleteSequences_inStep h.inStep hres, ?_, h.increasing, ?_, ?_⟩
      · simp only [counted] at hgauge ⊢
        split at hgauge
        · simp_all
          omega
        · simp_all
      · intro n hn
        rw [htable]
        exact h.bounded n hn
      · intro row hrow
        rw [htable] at hrow
        exact h.filled row (mem_of_mem_filter hrow)
  · exact h

theorem Sound.step (h : s.Sound) {op : Op} (hop : op.Filled) : (s.step op).Sound := by
  have hgauge := h.gauge
  cases op with
  | append fault entries => exact h.append fault hop
  | peekRaw fault count => exact h
  | deleteSequences fault sequences => exact h.deleteSequences fault sequences
  | drop =>
    refine ⟨h.inStep, ?_, h.increasing, h.bounded, h.filled⟩
    simp [Lifetime.step, hgauge, h.inStep.1, counted]
  | «open» fault maxMb setGauge =>
    rw [Lifetime.step]
    split
    · exact h
    · refine ⟨SqliteSequenceBuffer.open_inStep _ _, ?_, h.increasing, h.bounded, h.filled⟩
      simp_all [counted, SqliteSequenceBuffer.open]
  | othersAdd bytes =>
    refine ⟨h.inStep, ?_, h.increasing, h.bounded, h.filled⟩
    show s.gauge + bytes = s.others + bytes + s.counted (tableBytes s.buffer.table)
    omega
  | othersSub bytes =>
    rw [Lifetime.step]
    split
    · refine ⟨h.inStep, ?_, h.increasing, h.bounded, h.filled⟩
      show s.gauge - bytes = s.others - bytes + s.counted (tableBytes s.buffer.table)
      omega
    · exact h

/-- Where no row is empty, only an empty table has no bytes. -/
theorem peekRaw_eq {b : SqliteSequenceBuffer} (hb : b.InStep) (h : ∀ row ∈ b.table.rows, row.2 ≠ [])
    (fault : Bool) (count : Nat) :
    b.peekRaw fault count = .ok (b.table.rows.take count) ∨
      fault = true ∧ b.peekRaw fault count = .error .sqlite := by
  rw [peekRaw]
  split
  · rename_i hzero
    cases hrows : b.table.rows with
    | nil => simp
    | cons row rows =>
      have hpos := length_pos_of_ne_nil (h row (by simp [hrows]))
      rw [hb.1, tableBytes, hrows, map_cons, totalBytes_cons] at hzero
      omega
  · cases fault <;> simp

/-- **Along every run** the cached figures and the share in the gauge are those of the table, and
the sequence numbers handed out grow; where no entry is empty a peek that does not fail returns the
oldest rows. -/
theorem figures_are_the_tables (table : SeqTable Bytes) (others : Nat) (ops : List Op)
    (hrows : ∀ row ∈ table.rows, row.2 ≠ []) (hops : ∀ op ∈ ops, op.Filled) :
    let s := ops.foldl step (new table others)
    s.buffer.count = s.buffer.table.rows.length ∧
      s.buffer.currentBytes = tableBytes s.buffer.table ∧
      s.gauge = s.others + (if s.isOpen && s.gauged then tableBytes s.buffer.table else 0) ∧
      s.handed.Pairwise (· < ·) ∧
      ∀ fault count, s.buffer.peekRaw fault count = .ok (s.buffer.table.rows.take count) ∨
        fault = true ∧ s.buffer.peekRaw fault count = .error .sqlite := by
  intro s
  have h : s.Sound := by
    apply List.foldlRecOn
    · exact ⟨⟨rfl, rfl⟩, rfl, .nil, by simp [new], hrows⟩
    · exact fun s hs op hop => hs.step (hops op hop)
  exact ⟨h.inStep.2, h.inStep.1, h.gauge, h.increasing, peekRaw_eq h.inStep h.filled⟩

/-- Two entries go in, the first is deleted, and the database is opened again. -/
theorem figures_after_reopen :
    let ops : List Op := [.open false 1 true, .append false [[1], [2, 3]],
      .deleteSequences false [1, 1, 7], .drop, .open false 1 true]
    (ops.foldl step (new (.empty 0) 5)).gauge = 7 ∧
      (ops.foldl step (new (.empty 0) 5)).buffer.peekRaw false 9 = .ok [(2, [2, 3])] := by
  intro ops
  have h := figures_are_the_tables (.empty 0) 5 ops (by simp [SeqTable.empty])
    (by simp [ops, Op.Filled])
  refine ⟨h.2.2.1, ?_⟩
  rcases h.2.2.2.2 false 9 with hpeek | ⟨hfault, -⟩
  · exact hpeek
  · cases hfault

/-- A backlog of one empty entry is overlooked. -/
theorem empty_entry_is_overlooked :
    let s := [Op.open false 1 true, .append false [[]]].foldl step (new (.empty 0) 0)
    s.buffer.table.rows.length = 1 ∧ s.buffer.peekRaw false 1 = .ok [] := ⟨rfl, rfl⟩

end Lifetime

end EdgePacer.Delivery
