import EdgePacer.L7.Http2
import Mathlib.Tactic.Ring

/-!
# The grammar of HPACK blocks

A header block is a list of field representations. The guard in front of the decoder does not build
them, it walks over their lengths; `hpackBlockIsFramed_iff` says that it accepts just the blocks
that the grammar below generates.
-/

namespace EdgePacer.L7.Http2

open List Option

/-! ## Representations -/

/-- The octets that follow the first one of a long integer, least significant first: all but the
last have the top bit set. -/
inductive IntRest : Nat → Bytes → Prop where
  | last {octet : UInt8} (h : octet &&& 0x80 = 0) : IntRest (octet &&& 0x7f).toNat [octet]
  | more {octet : UInt8} {value : Nat} {rest : Bytes} (h : octet &&& 0x80 ≠ 0)
      (hrest : IntRest value rest) :
      IntRest ((octet &&& 0x7f).toNat + 2 ^ 7 * value) (octet :: rest)

/-- An integer with `width` bits in its first octet: these bits, or, if all of them are set, at most
four more octets. -/
inductive IntRep (width : Nat) : Nat → Bytes → Prop where
  | short {first : UInt8}
      (h : first &&& UInt8.ofNat (2 ^ width - 1) ≠ UInt8.ofNat (2 ^ width - 1)) :
      IntRep width (first &&& UInt8.ofNat (2 ^ width - 1)).toNat [first]
  | long {first : UInt8} {value : Nat} {rest : Bytes}
      (h : first &&& UInt8.ofNat (2 ^ width - 1) = UInt8.ofNat (2 ^ width - 1))
      (hrest : IntRest value rest) (hlen : rest.length ≤ 4) :
      IntRep width ((UInt8.ofNat (2 ^ width - 1)).toNat + value) (first :: rest)

/-- A string: its length, and that many octets. -/
def StrRep (octets : Bytes) : Prop :=
  ∃ len head data, IntRep 7 len head ∧ data.length = len ∧ octets = head ++ data

/-- A literal field: the index of its name, the name if the index is zero, and the value. -/
def LiteralRep (width : Nat) (octets : Bytes) : Prop :=
  ∃ index head name value, IntRep width index head ∧
    (if index = 0 then StrRep name else name = []) ∧ StrRep value ∧ octets = head ++ name ++ value

/-- What the first octet of a field says: whether it is a literal, and the width of its integer. An
index, a literal that is indexed, a size update, and a literal that is not. -/
def layout (first : UInt8) : Bool × Nat :=
  if first &&& 0x80 ≠ 0 then (false, 7)
  else if first &&& 0x40 ≠ 0 then (true, 6)
  else if first &&& 0x20 ≠ 0 then (false, 5)
  else (true, 4)

def FieldRep (octets : Bytes) : Prop :=
  ∃ first rest, octets = first :: rest ∧
    if (layout first).1 then LiteralRep (layout first).2 octets
    else ∃ value, IntRep (layout first).2 value octets

/-! ## Lengths -/

theorem IntRest.length_pos {value : Nat} {octets : Bytes} (h : IntRest value octets) :
    0 < octets.length := by
  cases h <;> simp

section

variable {buf octets : Bytes} {first : UInt8} {value width n : Nat} (more : Bytes)

theorem intLenRest_append (h : IntRest value octets) (total : Nat)
    (hlen : total + octets.length ≤ 5) :
    intLenRest (octets ++ more) total = some (total + octets.length) := by
  induction h generalizing total with
  | last h => simp [intLenRest, h]
  | more h hrest ih =>
    rw [length_cons] at hlen
    have hpos := hrest.length_pos
    rw [cons_append, intLenRest, if_neg h, if_neg (by omega), ih (total + 1) (by omega),
      length_cons]
    congr 1
    omega

theorem intRest_of_intLenRest (total : Nat) (htotal : total < 5)
    (h : intLenRest buf total = some n) :
    ∃ m value, n = total + m ∧ n ≤ 5 ∧ m ≤ buf.length ∧ IntRest value (buf.take m) := by
  induction buf generalizing total with
  | nil => simp [intLenRest] at h
  | cons octet buf ih =>
    rw [intLenRest] at h
    split at h
    · rename_i hlast
      cases h
      exact ⟨1, _, rfl, by omega, by simp, .last hlast⟩
    · rename_i hmore
      split at h
      · cases h
      · obtain ⟨m, value, rfl, hle, hlen, hrest⟩ := ih (total + 1) (by omega) h
        exact ⟨m + 1, _, by omega, hle, Nat.succ_le_succ hlen, .more hmore hrest⟩

theorem intLen_append (h : IntRep width value octets) :
    intLen (octets ++ more) width = some octets.length := by
  cases h with
  | short h => simp [intLen, h]
  | long h hrest hlen =>
    simp only [cons_append, intLen, h, ne_eq, not_true_eq_false, if_false]
    rw [intLenRest_append more hrest 1 (by omega), length_cons, Nat.add_comm]

theorem intRep_of_intLen (h : intLen buf width = some n) :
    n ≤ buf.length ∧ ∃ value, IntRep width value (buf.take n) := by
  cases buf with
  | nil => simp [intLen] at h
  | cons first rest =>
    simp only [intLen] at h
    split at h
    · rename_i hshort
      cases h
      exact ⟨by simp, _, .short hshort⟩
    · rename_i hlong
      obtain ⟨m, value, rfl, hle, hlen, hrest⟩ := intRest_of_intLenRest 1 (by decide) h
      rw [Nat.add_comm 1 m]
      refine ⟨Nat.succ_le_succ hlen, _, .long (not_not.1 hlong) hrest ?_⟩
      rw [length_take]
      omega

/-- What `strLen` reads as the length of a string is the integer in front of it. -/
theorem strLenRest_append (h : IntRest value octets) (shift len : Nat) :
    strLenRest (octets ++ more) shift len = some (len + value * 2 ^ shift) := by
  induction h generalizing shift len with
  | last h => simp [strLenRest, h, Nat.shiftLeft_eq]
  | more h hrest ih =>
    simp only [cons_append, strLenRest, if_neg h, ih, Nat.shiftLeft_eq]
    refine congrArg some ?_
    ring

theorem strLen_eq (h : IntRep 7 value octets) :
    strLen (octets ++ more) =
      if octets.length + value ≤ (octets ++ more).length then some (octets.length + value)
      else none := by
  have hint := intLen_append more h
  cases h with
  | short h =>
    have hbits : ¬ _ &&& (0x7f : UInt8) = 0x7f := h
    rw [strLen, hint]
    simp [hbits]
  | long h hrest hlen =>
    have hbits : _ &&& (0x7f : UInt8) = 0x7f := h
    have hlen := strLenRest_append more hrest 0 0x7f
    rw [strLen, hint]
    simp [hbits, hlen]

theorem strLen_append (h : StrRep octets) : strLen (octets ++ more) = some octets.length := by
  obtain ⟨len, head, data, hhead, rfl, rfl⟩ := h
  rw [append_assoc, strLen_eq _ hhead, if_pos (by simp), length_append]

theorem strRep_of_strLen (h : strLen buf = some n) : n ≤ buf.length ∧ StrRep (buf.take n) := by
  have h' := h
  simp only [strLen, bind_eq_bind, bind_eq_some_iff] at h'
  obtain ⟨hdr, hint, _⟩ := h'
  obtain ⟨hle, len, hrep⟩ := intRep_of_intLen hint
  have heq := strLen_eq (buf.drop hdr) hrep
  rw [take_append_drop, h, length_take, min_eq_left hle] at heq
  split at heq
  · rename_i hfits
    cases heq
    refine ⟨hfits, len, buf.take hdr, (buf.drop hdr).take len, hrep, ?_, take_add⟩
    rw [length_take, length_drop]
    omega
  · cases heq

section

variable (hwidth : (UInt8.ofNat (2 ^ width - 1)).toNat ≠ 0)
include hwidth

theorem IntRep.bits_eq_zero_iff (h : IntRep width value (first :: octets)) :
    first &&& UInt8.ofNat (2 ^ width - 1) = 0 ↔ value = 0 := by
  cases h with
  | short h => exact ⟨fun h => by rw [h]; rfl, fun h => UInt8.toNat_inj.1 h⟩
  | long h hrest hlen =>
    rw [h, ← UInt8.toNat_inj]
    exact ⟨fun h0 => absurd h0 hwidth, fun h0 => by omega⟩

theorem literalLen_eq (h : IntRep width value octets) :
    literalLen (octets ++ more) width =
      if value = 0 then
        (strLen more).bind fun m => (strLen (more.drop m)).map (octets.length + m + ·)
      else (strLen more).map (octets.length + ·) := by
  have hint := intLen_append more h
  cases octets with
  | nil => cases h
  | cons first rest =>
    have hbits := h.bits_eq_zero_iff hwidth
    have hdrop : ∀ m, (first :: (rest ++ more)).drop (rest.length + 1 + m) = more.drop m := by
      intro m
      rw [Nat.add_right_comm, drop_succ_cons, drop_length_add_append]
    rw [literalLen, hint]
    by_cases hzero : value = 0
    · cases hname : strLen more <;> simp [hbits, hname, hdrop, map_eq_bind]
    · simp [hzero, hbits, map_eq_bind]

theorem literalLen_append (h : LiteralRep width octets) :
    literalLen (octets ++ more) width = some octets.length := by
  obtain ⟨index, head, name, value, hhead, hname, hvalue, rfl⟩ := h
  rw [append_assoc, append_assoc, literalLen_eq _ hwidth hhead]
  split
  · rename_i hzero
    rw [if_pos hzero] at hname
    simp [strLen_append _ hname, strLen_append _ hvalue, Nat.add_assoc]
  · rename_i hzero
    rw [if_neg hzero] at hname
    simp [hname, strLen_append _ hvalue]

theorem literalRep_of_literalLen (h : literalLen buf width = some n) :
    LiteralRep width (buf.take n) := by
  cases hint : intLen buf width with
  | none => simp [literalLen, hint] at h
  | some idxLen =>
    obtain ⟨hle, index, hrep⟩ := intRep_of_intLen hint
    have heq := literalLen_eq (buf.drop idxLen) hwidth hrep
    rw [take_append_drop, h, length_take, min_eq_left hle] at heq
    split at heq
    · rename_i hzero
      obtain ⟨m, hm, hvalue⟩ := bind_eq_some_iff.1 heq.symm
      obtain ⟨k, hk, rfl⟩ := map_eq_some_iff.1 hvalue
      have hname := (strRep_of_strLen hm).2
      have hvalue := (strRep_of_strLen hk).2
      refine ⟨index, _, (buf.drop idxLen).take m, _, hrep, ?_, hvalue, ?_⟩
      · rwa [if_pos hzero]
      · rw [take_add, take_add, drop_drop]
    · rename_i hzero
      obtain ⟨k, hk, rfl⟩ := map_eq_some_iff.1 heq.symm
      refine ⟨index, _, [], _, hrep, (if_neg hzero).symm ▸ rfl, (strRep_of_strLen hk).2, ?_⟩
      rw [take_add, append_nil]

end

theorem fieldLen_cons (rest : Bytes) : fieldLen (first :: rest) =
    if (layout first).1 then literalLen (first :: rest) (layout first).2
    else intLen (first :: rest) (layout first).2 := by
  simp only [fieldLen, layout]
  split_ifs <;> simp_all

theorem layout_width (first : UInt8) : (UInt8.ofNat (2 ^ (layout first).2 - 1)).toNat ≠ 0 := by
  unfold layout
  split_ifs <;> decide

theorem fieldLen_append (h : FieldRep octets) : fieldLen (octets ++ more) = some octets.length := by
  obtain ⟨first, rest, rfl, h⟩ := h
  rw [cons_append, fieldLen_cons]
  split at h
  · rename_i hliteral
    rw [if_pos hliteral]
    exact literalLen_append more (layout_width first) h
  · rename_i hliteral
    obtain ⟨value, hvalue⟩ := h
    rw [if_neg hliteral]
    exact intLen_append more hvalue

theorem fieldRep_of_fieldLen (h : fieldLen buf = some n) (hn : n ≠ 0) : FieldRep (buf.take n) := by
  cases buf with
  | nil => simp [fieldLen] at h
  | cons first rest =>
    obtain ⟨m, rfl⟩ := Nat.exists_eq_succ_of_ne_zero hn
    refine ⟨first, rest.take m, rfl, ?_⟩
    rw [fieldLen_cons] at h
    split at h
    · rename_i hliteral
      rw [if_pos hliteral]
      exact literalRep_of_literalLen (layout_width first) h
    · rename_i hliteral
      rw [if_neg hliteral]
      exact (intRep_of_intLen h).2

end

/-- A block is a list of fields if it starts with one and goes on as such a list. -/
theorem framedLoop_iff (fuel : Nat) (block : Bytes) (hfuel : block.length ≤ fuel) :
    hpackFramedLoop fuel block = true ↔
      ∃ fields : List Bytes, (∀ field ∈ fields, FieldRep field) ∧ block = fields.flatten := by
  induction fuel generalizing block with
  | zero =>
    rw [eq_nil_of_length_eq_zero (Nat.le_zero.1 hfuel)]
    exact ⟨fun _ => ⟨[], by simp, rfl⟩, fun _ => rfl⟩
  | succ fuel ih =>
    cases block with
    | nil => exact ⟨fun _ => ⟨[], by simp, rfl⟩, fun _ => rfl⟩
    | cons octet block =>
      have hshort : ∀ n, n ≠ 0 → ((octet :: block).drop n).length ≤ fuel := by
        intro n hn
        rw [length_drop]
        omega
      rw [hpackFramedLoop.eq_3 _ _ (cons_ne_nil _ _)]
      constructor
      · intro h
        split at h
        · cases h
        · cases h
        · rename_i n hn hlen
          obtain ⟨fields, hfields, hrest⟩ := (ih _ (hshort n hn)).1 h
          refine ⟨_ :: fields, forall_mem_cons.2 ⟨fieldRep_of_fieldLen hlen hn, hfields⟩, ?_⟩
          rw [flatten_cons, ← hrest, take_append_drop]
      · rintro ⟨fields, hfields, hblock⟩
        cases fields with
        | nil => cases hblock
        | cons field fields =>
          obtain ⟨hfield, hothers⟩ := forall_mem_cons.1 hfields
          have hlen := fieldLen_append fields.flatten hfield
          obtain ⟨first, rest, rfl, -⟩ := hfield
          have hdrop : (octet :: block).drop (rest.length + 1) = fields.flatten := by
            rw [hblock]
            exact drop_left
          have hrest := (ih _ (hshort (rest.length + 1) (Nat.succ_ne_zero _))).2
            ⟨fields, hothers, hdrop⟩
          rw [hblock, flatten_cons] at hrest ⊢
          rw [hlen]
          exact hrest

/-- **The guard accepts just the concatenations of complete field representations.** -/
theorem hpackBlockIsFramed_iff (block : Bytes) :
    hpackBlockIsFramed block = true ↔
      ∃ fields : List Bytes, (∀ field ∈ fields, FieldRep field) ∧ block = fields.flatten :=
  framedLoop_iff _ block le_rfl

end EdgePacer.L7.Http2
