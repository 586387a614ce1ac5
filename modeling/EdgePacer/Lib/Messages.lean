import EdgePacer.Lib.Framing

/-!
# Streams of whole messages

A message has a head, by which it is recognised as soon as the head is complete and not before, and
a body that is passed over. A stream of such messages is read message by message, whatever the
pieces it arrives in (`scan_stream`), a unit is looked for at the boundaries between messages only
(`at_stream`), and a message is recognised when the piece with the last byte of its head arrives
(`arrivals_stream`).
-/

namespace EdgePacer.Lib

open List

universe u

variable {κ β υ τ : Type u}

/-- A message that `next` recognises by its head, in a stage that lasts. -/
structure Message (next : κ → List β → Outcome κ υ) (k : κ) where
  (head body : List β)
  unit : υ
  nonempty : head ≠ []
  waits : ∀ a b, head = a ++ b → b ≠ [] → next k a = .incomplete
  completes : ∀ rest, next k (head ++ rest) = .complete unit (head.length + body.length) k

variable {next : κ → List β → Outcome κ υ} {k : κ}

def Message.bytes (m : Message next k) : List β := m.head ++ m.body

def stream (ms : List (Message next k)) : List β := ms.flatMap Message.bytes

/-- How many heads the first `n` bytes of the stream complete. -/
def headsIn : List (Message next k) → Nat → Nat
  | [], _ => 0
  | m :: ms, n => if n < m.head.length then 0 else headsIn ms (n - m.bytes.length) + 1

/-- The times at which heads become complete, once `n` bytes have arrived. -/
def headTimes (ms : List (Message next k)) : Nat → List (List β × τ) → List τ
  | _, [] => []
  | n, (bytes, t) :: pieces =>
      List.replicate (headsIn ms (n + bytes.length) - headsIn ms n) t ++
        headTimes ms (n + bytes.length) pieces

theorem Message.head_pos (m : Message next k) : 0 < m.head.length := length_pos_iff.2 m.nonempty

theorem Message.length_bytes (m : Message next k) :
    m.bytes.length = m.head.length + m.body.length :=
  length_append

variable (ms : List (Message next k)) (pieces : List (List β × τ)) {m : Message next k} {a : List β}

theorem headsIn_zero : headsIn ms 0 = 0 := by
  cases ms with
  | nil => rfl
  | cons m ms => exact if_pos m.head_pos

theorem headsIn_mono {n m : Nat} (h : n ≤ m) : headsIn ms n ≤ headsIn ms m := by
  induction ms generalizing n m with
  | nil => exact Nat.le_refl _
  | cons x ms ih =>
    rw [headsIn, headsIn]
    split
    · exact Nat.zero_le _
    · rw [if_neg (by omega)]
      exact Nat.succ_le_succ (ih (by omega))

theorem headsIn_le_length (n : Nat) : headsIn ms n ≤ ms.length := by
  induction ms generalizing n with
  | nil => exact Nat.le_refl _
  | cons m ms ih =>
    rw [headsIn]
    split
    · exact Nat.zero_le _
    · exact Nat.succ_le_succ (ih _)

theorem headsIn_stream : headsIn ms (stream ms).length = ms.length := by
  induction ms with
  | nil => rfl
  | cons m ms ih =>
    have hlen : (stream (m :: ms)).length = m.bytes.length + (stream ms).length := length_append
    have hle := m.length_bytes
    rw [headsIn, if_neg (by omega), hlen, Nat.add_sub_cancel_left, ih, length_cons]

theorem length_headTimes (n : Nat) (pieces : List (List β × τ)) :
    (headTimes ms n pieces).length =
      headsIn ms (n + (pieces.flatMap Prod.fst).length) - headsIn ms n := by
  induction pieces generalizing n with
  | nil => exact (Nat.sub_self _).symm
  | cons piece pieces ih =>
    obtain ⟨bytes, t⟩ := piece
    rw [headTimes, length_append, length_replicate, ih, flatMap_cons,
      length_append, ← Nat.add_assoc]
    dsimp only
    have hfirst := headsIn_mono ms (Nat.le_add_right n bytes.length)
    have hrest := headsIn_mono ms
      (Nat.le_add_right (n + bytes.length) (pieces.flatMap Prod.fst).length)
    omega

/-! ## Reading the front of a stream of messages -/

variable {ms}

theorem front_of_short (ha : a <+: stream (m :: ms))
    (h : a.length < m.head.length) : front next k a = .incomplete := by
  have hhead : a <+: m.head := by
    refine prefix_of_prefix_length_le ha ?_ (Nat.le_of_lt h)
    exact (prefix_append m.head m.body).trans (prefix_append m.bytes (stream ms))
  obtain ⟨b, hb⟩ := hhead
  rw [front]
  split
  · rfl
  · refine m.waits a b hb.symm fun hnil => ?_
    rw [hnil, append_nil] at hb
    rw [hb] at h
    exact Nat.lt_irrefl _ h

theorem front_of_head (ha : a <+: stream (m :: ms))
    (h : m.head.length ≤ a.length) : front next k a = .complete m.unit m.bytes.length k := by
  have hhead : m.head <+: a := by
    refine prefix_of_prefix_length_le ?_ ha h
    exact (prefix_append m.head m.body).trans (prefix_append m.bytes (stream ms))
  obtain ⟨rest, rfl⟩ := hhead
  rw [front, if_neg (by simp [m.nonempty]), m.completes, m.length_bytes]

theorem drop_prefix_stream (ha : a <+: stream (m :: ms)) : a.drop m.bytes.length <+: stream ms := by
  obtain ⟨rest, hrest⟩ := ha
  by_cases h : m.bytes.length ≤ a.length
  · refine ⟨rest, ?_⟩
    rw [← drop_append_of_le_length h, hrest, stream, flatMap_cons, drop_left]
    rfl
  · rw [drop_of_length_le (Nat.le_of_not_le h)]
    exact nil_prefix

/-- Parts of a stream of messages, from a boundary on. -/
def OfMessages (next : κ → List β → Outcome κ υ) (k k' : κ) (a : List β) : Prop :=
  k' = k ∧ ∃ ms : List (Message next k), a <+: stream ms

/-- What is recognised in a part of such a stream is the first message, once its head is there. -/
theorem front_ofMessages (ha : a <+: stream ms)
    (hfront : front next k a ≠ .incomplete) : ∃ m rest, ms = m :: rest ∧
      m.head.length ≤ a.length ∧ front next k a = .complete m.unit m.bytes.length k := by
  cases ms with
  | nil =>
    rw [prefix_nil.1 ha] at hfront
    exact absurd rfl hfront
  | cons m ms =>
    by_cases h : a.length < m.head.length
    · exact absurd (front_of_short ha h) hfront
    · exact ⟨m, ms, rfl, Nat.not_lt.1 h, front_of_head ha (Nat.not_lt.1 h)⟩

theorem framed_ofMessages : Framed next (OfMessages next k) where
  complete := by
    rintro k₁ k' a b u n ⟨rfl, ms, hms⟩ hfront
    have ha : a <+: stream ms := (prefix_append a b).trans hms
    obtain ⟨m, rest, rfl, hlen, hcomplete⟩ := front_ofMessages ha (by simp [hfront])
    rw [← hfront, hcomplete]
    refine front_of_head hms (Nat.le_trans hlen ?_)
    rw [length_append]
    exact Nat.le_add_right _ _
  invalid := by
    rintro k₁ a b ⟨rfl, ms, hms⟩ hfront
    have ha : a <+: stream ms := (prefix_append a b).trans hms
    obtain ⟨m, rest, rfl, hlen, hcomplete⟩ := front_ofMessages ha (by simp [hfront])
    cases hcomplete.symm.trans hfront
  pos := by
    rintro k₁ k' a u n ⟨rfl, ms, hms⟩ hfront
    obtain ⟨m, rest, rfl, hlen, hcomplete⟩ := front_ofMessages hms (by simp [hfront])
    cases hcomplete.symm.trans hfront
    have hpos := m.head_pos
    rw [m.length_bytes]
    omega
  rest := by
    rintro k₁ k' a u n ⟨rfl, ms, hms⟩ hfront
    obtain ⟨m, rest, rfl, hlen, hcomplete⟩ := front_ofMessages hms (by simp [hfront])
    cases hcomplete.symm.trans hfront
    exact ⟨rfl, rest, drop_prefix_stream hms⟩
  part := by
    rintro k₁ a b ⟨rfl, ms, hms⟩
    exact ⟨rfl, ms, (prefix_append a b).trans hms⟩

/-- **A stream of messages is read message by message.** -/
theorem scan_stream (ha : a <+: stream ms) :
    (scan next k a).1 = (ms.take (headsIn ms a.length)).map fun m => some m.unit := by
  induction ms generalizing a with
  | nil =>
    rw [prefix_nil.1 ha]
    rfl
  | cons m ms ih =>
    by_cases hshort : a.length < m.head.length
    · rw [scan_incomplete (front_of_short ha hshort), headsIn, if_pos hshort]
      rfl
    · have hfront := front_of_head ha (Nat.not_lt.1 hshort)
      rw [headsIn, if_neg hshort, take_succ_cons, map_cons]
      by_cases hlong : a.length < m.bytes.length
      · rw [scan_long hfront hlong, Nat.sub_eq_zero_of_le (Nat.le_of_lt hlong), headsIn_zero]
        rfl
      · have hadv := framed_ofMessages.advances ⟨rfl, m :: ms, ha⟩
        rw [scan_whole hadv hfront (Nat.not_lt.1 hlong), ih (drop_prefix_stream ha), length_drop]

/-- **A unit is looked for at the boundaries between messages only.** -/
theorem at_stream {n : Nat} {k' : κ} (hat : At next k a n k')
    (ha : a <+: stream ms) : ∃ i, i ≤ ms.length ∧ n = (stream (ms.take i)).length := by
  induction hat with
  | start k a => exact ⟨0, Nat.zero_le _, rfl⟩
  | unit hfront hlen hrest ih =>
    obtain ⟨m, rest, rfl, _, hcomplete⟩ := front_ofMessages ha (by simp [hfront])
    cases hcomplete.symm.trans hfront
    obtain ⟨i, hi, rfl⟩ := ih (drop_prefix_stream ha)
    exact ⟨i + 1, Nat.succ_le_succ hi, length_append.symm⟩

theorem zip_replicate_right {α : Type u} (l : List α) (t : τ) :
    l.zip (List.replicate l.length t) = l.map fun a => (a, t) := by
  induction l with
  | nil => rfl
  | cons a l ih => rw [length_cons, replicate_succ, zip_cons_cons, ih, map_cons]

variable (ms) in
/-- **A message is recognised when the last byte of its head arrives.** -/
theorem arrivals_stream (arrived : List β) (h : arrived ++ pieces.flatMap Prod.fst <+: stream ms) :
    arrivals next k arrived pieces =
      ((ms.drop (headsIn ms arrived.length)).map fun m => some m.unit).zip
        (headTimes ms arrived.length pieces) := by
  induction pieces generalizing arrived with
  | nil => rw [arrivals, headTimes, zip_nil_right]
  | cons piece pieces ih =>
    obtain ⟨bytes, t⟩ := piece
    rw [flatMap_cons, ← append_assoc] at h
    have hnow : arrived ++ bytes <+: stream ms := (prefix_append _ _).trans h
    have hbefore : arrived <+: stream ms := (prefix_append _ _).trans hnow
    have hle : headsIn ms arrived.length ≤ headsIn ms (arrived.length + bytes.length) :=
      headsIn_mono ms (Nat.le_add_right _ _)
    have hmax := headsIn_le_length ms (arrived.length + bytes.length)
    -- the messages recognised now, and those still to come
    have hsplit : ms.drop (headsIn ms arrived.length) =
        (ms.take (headsIn ms (arrived.length + bytes.length))).drop (headsIn ms arrived.length) ++
          ms.drop (headsIn ms (arrived.length + bytes.length)) := by
      rw [← drop_append_of_le_length, take_append_drop]
      rw [length_take]
      omega
    have hnew : (((ms.take (headsIn ms (arrived.length + bytes.length))).drop
        (headsIn ms arrived.length)).map fun m => some m.unit).length =
        headsIn ms (arrived.length + bytes.length) - headsIn ms arrived.length := by
      rw [length_map, length_drop, length_take]
      omega
    have hold : (ms.take (headsIn ms arrived.length)).length = headsIn ms arrived.length := by
      rw [length_take]
      omega
    rw [arrivals, headTimes, ih _ h, scan_stream hnow, scan_stream hbefore, length_append,
      length_map, hold, ← map_drop, hsplit, map_append, zip_append, ← hnew, zip_replicate_right]
    rw [length_replicate, hnew]

end EdgePacer.Lib
