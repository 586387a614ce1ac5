import EdgePacer.Common
import Mathlib.Tactic.Ring

/-!
# Variable-length integers

ClickHouse and Pulsar write a number in base 128, seven bits a byte, low groups first. Both readers
take ten bytes at most, which is seventy bits for a word of sixty-four: what the tenth byte has
above the top bit is shifted out. The value read is the sum of the groups modulo `2 ^ 64`.
-/

namespace EdgePacer.L7

/-- The seven payload bits. -/
def group (byte : UInt8) : Nat := (byte &&& 0x7f).toNat

/-- The number that the groups stand for. -/
def groupSum : Bytes → Nat
  | [] => 0
  | byte :: rest => group byte + 128 * groupSum rest

/-- `value |= u64::from(byte & 0x7f) << shift`. -/
def addGroup (value : Nat) (byte : UInt8) (shift : Nat) : Nat :=
  value ||| (group byte <<< shift) % 2 ^ 64

namespace ClickHouse

/-- A value read, or why there is none. -/
inductive Read (α : Type) where
  | done (value : α) (consumed : Nat)
  | incomplete
  | invalid
  deriving DecidableEq, Repr

def readGroups (buffered : Nat) : Bytes → Nat → Nat → Nat → Read Nat
  | [], _, _, _ => if buffered < 10 then .incomplete else .invalid
  | byte :: rest, i, value, shift =>
      if 64 ≤ shift then .invalid
      else
        let value := addGroup value byte shift
        if byte &&& 0x80 = 0 then .done value (i + 1)
        else readGroups buffered rest (i + 1) value (shift + 7)

def readVarint (buf : Bytes) : Read Nat := readGroups buf.length (buf.take 10) 0 0 0

/-- A length and as many bytes, up to `MAX_STRING_LEN` of them. -/
def readString (buf : Bytes) : Read Bytes :=
  match readVarint buf with
  | .done len head =>
      if 64 * 1024 * 1024 < len then .invalid
      else if buf.length < head + len then .incomplete
      else .done ((buf.take (head + len)).drop head) (head + len)
  | .incomplete => .incomplete
  | .invalid => .invalid

end ClickHouse

namespace Pulsar

def readGroups (buf : Bytes) : Nat → Nat → Nat → Nat → Option (Nat × Nat)
  | 0, _, _, _ => none
  | n + 1, pos, value, shift => do
      let byte ← buf[pos]?
      let value := addGroup value byte shift
      if byte &&& 0x80 = 0 then some (value, pos + 1)
      else readGroups buf n (pos + 1) value (shift + 7)

/-- The value and the position after it. -/
def readVarint (buf : Bytes) (pos : Nat) : Option (Nat × Nat) := readGroups buf 10 pos 0 0

end Pulsar

section

variable {value shift : Nat} (hvalue : value < 2 ^ shift) (hshift : shift < 64) (byte : UInt8)

include hvalue hshift

/-- The new group lies above the value, so the two add up. -/
theorem addGroup_eq : addGroup value byte shift = (value + 2 ^ shift * group byte) % 2 ^ 64 := by
  have hword : 2 ^ 64 = 2 ^ shift * 2 ^ (64 - shift) := by
    rw [← Nat.pow_add]
    congr 1
    omega
  have hpos := Nat.two_pow_pos shift
  rw [addGroup, Nat.shiftLeft_eq, Nat.mul_comm, hword, Nat.mul_mod_mul_left, Nat.or_comm,
    ← Nat.two_pow_add_eq_or_of_lt hvalue, Nat.mod_mul, Nat.add_mul_mod_self_left,
    Nat.mod_eq_of_lt hvalue, Nat.add_mul_div_left _ _ hpos, Nat.div_eq_of_lt hvalue, Nat.zero_add,
    Nat.add_comm]

/-- What the groups that follow add is counted from there. -/
theorem addGroup_step :
    addGroup value byte shift < 2 ^ (shift + 7) ∧ ∀ rest,
      (addGroup value byte shift + 2 ^ (shift + 7) * groupSum rest) % 2 ^ 64 =
        (value + 2 ^ shift * groupSum (byte :: rest)) % 2 ^ 64 := by
  rw [addGroup_eq hvalue hshift]
  constructor
  · have hgroup : group byte ≤ 127 := (UInt8.toNat_and byte 0x7f).trans_le Nat.and_le_right
    have hbelow := Nat.mul_le_mul_left (2 ^ shift) hgroup
    refine (Nat.mod_le _ _).trans_lt ?_
    rw [Nat.pow_add]
    omega
  · intro rest
    rw [Nat.mod_add_mod, groupSum]
    congr 1
    ring

end

/-- The value read is the sum of the groups of the bytes read, modulo the word. -/
theorem ClickHouse.readGroups_done {buffered v n : Nat} {l : Bytes} {i value shift : Nat}
    (hvalue : value < 2 ^ shift) (h : readGroups buffered l i value shift = .done v n) :
    ∃ k ≤ l.length, n = i + k ∧ v = (value + 2 ^ shift * groupSum (l.take k)) % 2 ^ 64 := by
  induction l generalizing i value shift with
  | nil =>
    rw [readGroups] at h
    split at h <;> cases h
  | cons byte rest ih =>
    rw [readGroups] at h
    split at h
    · cases h
    · next hshift =>
      have hshift := Nat.lt_of_not_le hshift
      split at h
      · cases h
        exact ⟨1, Nat.le_add_left .., rfl, addGroup_eq hvalue hshift byte⟩
      · obtain ⟨hnext, hsum⟩ := addGroup_step hvalue hshift byte
        obtain ⟨k, hk, rfl, rfl⟩ := ih hnext h
        exact ⟨k + 1, Nat.succ_le_succ hk, Nat.add_right_comm .., hsum _⟩

theorem Pulsar.readGroups_some {buf : Bytes} {v pos' n pos value shift : Nat}
    (hvalue : value < 2 ^ shift) (hshift : shift + 7 * n ≤ 70)
    (h : readGroups buf n pos value shift = some (v, pos')) :
    ∃ k, pos' = pos + k ∧ v = (value + 2 ^ shift * groupSum ((buf.drop pos).take k)) % 2 ^ 64 := by
  induction n generalizing pos value shift with
  | zero => cases h
  | succ n ih =>
    rw [readGroups] at h
    obtain ⟨byte, hbyte, h⟩ := Option.bind_eq_some_iff.1 h
    obtain ⟨hlt, rfl⟩ := List.getElem?_eq_some_iff.1 hbyte
    rw [List.drop_eq_getElem_cons hlt]
    dsimp only at h
    split at h
    · cases h
      exact ⟨1, rfl, addGroup_eq hvalue (by omega) _⟩
    · obtain ⟨hnext, hsum⟩ := addGroup_step hvalue (by omega) buf[pos]
      obtain ⟨k, rfl, rfl⟩ := ih hnext (by omega) h
      exact ⟨k + 1, Nat.add_right_comm .., hsum _⟩

/-- **Exactly while they fit.** A value read is the sum of the groups it was read from just when
that sum fits the word. -/
theorem varint_exact_iff (buf : Bytes) (pos v n : Nat) :
    (ClickHouse.readVarint buf = .done v n →
        (v = groupSum (buf.take n) ↔ groupSum (buf.take n) < 2 ^ 64)) ∧
      (Pulsar.readVarint buf pos = some (v, n) →
        (v = groupSum ((buf.drop pos).take (n - pos)) ↔
          groupSum ((buf.drop pos).take (n - pos)) < 2 ^ 64)) := by
  constructor
  · intro h
    obtain ⟨k, hk, rfl, rfl⟩ := ClickHouse.readGroups_done Nat.one_pos h
    rw [List.length_take, Nat.le_min] at hk
    rw [List.take_take, Nat.min_eq_left hk.1, Nat.zero_add, Nat.zero_add, Nat.pow_zero, Nat.one_mul]
    exact Nat.mod_eq_iff_lt (by decide)
  · intro h
    obtain ⟨k, rfl, rfl⟩ := Pulsar.readGroups_some Nat.one_pos (by decide) h
    rw [Nat.add_sub_cancel_left, Nat.zero_add, Nat.pow_zero, Nat.one_mul]
    exact Nat.mod_eq_iff_lt (by decide)

/-- Three hundred in two bytes. -/
theorem two_bytes_exact :
    300 = groupSum (List.take 2 [0xAC, 0x02]) ∧ 300 = groupSum ([0xAC, 0x02] : Bytes) := by
  obtain ⟨hclick, hpulsar⟩ := varint_exact_iff [0xAC, 0x02] 0 300 2
  exact ⟨(hclick (by decide)).2 (by decide), (hpulsar (by decide)).2 (by decide)⟩

/-- The tenth byte's second bit stands for `2 ^ 64`, and the readers give nought. -/
theorem tenth_byte_wraps :
    ClickHouse.readVarint (List.replicate 9 0x80 ++ [0x02]) = .done 0 10 ∧
      Pulsar.readVarint (List.replicate 9 0x80 ++ [0x02]) 0 = some (0, 10) ∧
      groupSum (List.replicate 9 0x80 ++ [0x02]) = 2 ^ 64 := by
  decide

namespace ClickHouse

theorem readGroups_append {n k i value shift : Nat} {l : Bytes} (m : Bytes) (hm : 10 ≤ n → m = [])
    (h : readGroups n l i value shift ≠ .incomplete) :
    readGroups (n + k) (l ++ m) i value shift = readGroups n l i value shift := by
  induction l generalizing i value shift with
  | nil =>
    rw [readGroups] at h
    by_cases hn : n < 10
    · exact absurd (if_pos hn) h
    · rw [hm (by omega), List.append_nil, readGroups, readGroups, if_neg hn, if_neg (by omega)]
  | cons byte rest ih =>
    rw [List.cons_append]
    simp only [readGroups] at h ⊢
    split_ifs at h ⊢
    · rfl
    · rfl
    · exact ih h

theorem readVarint_append {a : Bytes} (b : Bytes) (h : readVarint a ≠ .incomplete) :
    readVarint (a ++ b) = readVarint a := by
  rw [readVarint, readVarint, List.take_append, List.length_append]
  refine readGroups_append _ (fun hlen => ?_) h
  rw [Nat.sub_eq_zero_of_le hlen, List.take_zero]

/-- What has been decided about a string, its bytes or that it is malformed, does not change when
more bytes arrive. -/
theorem string_decided_once (a b : Bytes) (h : readString a ≠ .incomplete) :
    readString (a ++ b) = readString a := by
  have hvarint : readVarint a ≠ .incomplete := by
    intro hnone
    rw [readString, hnone] at h
    exact h rfl
  rw [readString, readVarint_append b hvarint]
  rw [readString] at h ⊢
  cases hread : readVarint a with
  | incomplete => rfl
  | invalid => rfl
  | done len head =>
    rw [hread] at h
    dsimp only at h ⊢
    split
    · rfl
    · rw [if_neg ‹_›] at h
      by_cases hlen : a.length < head + len
      · exact absurd (if_pos hlen) h
      · rw [if_neg hlen, if_neg (by rw [List.length_append]; omega),
          List.take_append_of_le_length (by omega)]

theorem string_decided_in_two :
    readString [0x01, 0x41, 0xff] = .done [0x41] 2 :=
  (string_decided_once [0x01, 0x41] [0xff] (by decide)).trans (by decide)

end ClickHouse

end EdgePacer.L7
