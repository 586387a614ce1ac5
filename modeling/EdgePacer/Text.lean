import EdgePacer.Common
import Mathlib.Data.List.TakeWhile

/-!
# Text operations of the standard library

`str::trim` and its kin, the bytes of a text, and the hexadecimal digits of the `hex` crate, as far
as several parts of the program use them.
-/

namespace EdgePacer.Text

open List

/-- `char::is_whitespace`: the Unicode property `White_Space`. -/
def isWhitespace (c : Char) : Bool :=
  let n := c.toNat
  (9 ≤ n && n ≤ 13) || n == 0x20 || n == 0x85 || n == 0xA0 || n == 0x1680 ||
    (0x2000 ≤ n && n ≤ 0x200A) || n == 0x2028 || n == 0x2029 || n == 0x202F || n == 0x205F ||
    n == 0x3000

/-- `str::trim`. -/
def trim (s : String) : String :=
  String.ofList ((s.toList.dropWhile isWhitespace).reverse.dropWhile isWhitespace).reverse

/-- The first part of `str::split_whitespace`, empty if there is none. -/
def firstWord (s : String) : String :=
  String.ofList ((s.toList.dropWhile isWhitespace).takeWhile fun c => !isWhitespace c)

/-- `str::strip_prefix`. -/
def stripPrefix (front s : String) : Option String :=
  if front.toList.isPrefixOf s.toList then some (String.ofList (s.toList.drop front.toList.length))
  else none

/-- `str::ends_with`. -/
def endsWith (s tail : String) : Bool := tail.toList.isSuffixOf s.toList

/-- `str::strip_suffix`. -/
def stripSuffix (tail s : String) : Option String :=
  if endsWith s tail then
    some (String.ofList (s.toList.take (s.toList.length - tail.toList.length)))
  else none

/-- `str::as_bytes`. -/
def utf8 (s : String) : Bytes := s.toByteArray.data.toList

theorem utf8_injective {s t : String} (h : utf8 s = utf8 t) : s = t :=
  String.toByteArray_inj.1 (ByteArray.ext (Array.toList_inj.1 h))

/-! ## Hexadecimal digits -/

variable (bytes : Bytes)

/-- Lower-case hexadecimal digits (`hex::encode`). -/
def hexEncode : String :=
  String.ofList
    (bytes.flatMap fun b => [Nat.digitChar (b.toNat / 16), Nat.digitChar (b.toNat % 16)])

/-- `u8::is_ascii_hexdigit`. -/
def isHexDigit (c : Char) : Bool :=
  ('0' ≤ c && c ≤ '9') || ('a' ≤ c && c ≤ 'f') || ('A' ≤ c && c ≤ 'F')

def hexValue (c : Char) : Nat :=
  if c ≤ '9' then c.toNat - '0'.toNat
  else if c ≤ 'F' then c.toNat - 'A'.toNat + 10
  else c.toNat - 'a'.toNat + 10

/-- `hex::decode` of hexadecimal digits in an even number. -/
def hexDecode : List Char → Bytes
  | c :: d :: rest => UInt8.ofNat (16 * hexValue c + hexValue d) :: hexDecode rest
  | _ => []

theorem length_hexEncode : (hexEncode bytes).toList.length = 2 * bytes.length := by
  rw [hexEncode, String.toList_ofList]
  induction bytes with
  | nil => rfl
  | cons b bytes ih =>
    rw [flatMap_cons, length_append]
    simp only [length_cons, length_nil]
    omega

theorem hexValue_digitChar {n : Nat} (h : n < 16) : hexValue (Nat.digitChar n) = n := by
  have hall : ∀ k : Fin 16, hexValue (Nat.digitChar k) = k := by decide
  exact hall ⟨n, h⟩

theorem hexDecode_hexEncode : hexDecode (hexEncode bytes).toList = bytes := by
  rw [hexEncode, String.toList_ofList]
  induction bytes with
  | nil => rfl
  | cons b bytes ih =>
    have hb := b.toNat_lt
    have hhigh : hexValue (Nat.digitChar (b.toNat / 16)) = b.toNat / 16 :=
      hexValue_digitChar (by omega)
    have hlow : hexValue (Nat.digitChar (b.toNat % 16)) = b.toNat % 16 :=
      hexValue_digitChar (by omega)
    rw [flatMap_cons, cons_append, cons_append, nil_append, hexDecode, hhigh,
      hlow, ih, Nat.div_add_mod, UInt8.ofNat_toNat]

theorem hexEncode_injective {a b : Bytes} (h : hexEncode a = hexEncode b) : a = b := by
  rw [← hexDecode_hexEncode a, h, hexDecode_hexEncode]

/-! ## Texts without whitespace -/

theorem dropWhile_of_solid {l : List Char} (h : ∀ c ∈ l, isWhitespace c = false) :
    l.dropWhile isWhitespace = l := by
  cases l with
  | nil => rfl
  | cons c l => exact dropWhile_cons_of_neg (by rw [h c mem_cons_self]; decide)

theorem trim_of_solid {s : String} (h : ∀ c ∈ s.toList, isWhitespace c = false) : trim s = s := by
  rw [trim, dropWhile_of_solid h, dropWhile_of_solid fun c hc => h c (mem_reverse.1 hc),
    reverse_reverse, String.ofList_toList]

theorem firstWord_of_solid {s : String} (h : ∀ c ∈ s.toList, isWhitespace c = false) :
    firstWord s = s := by
  have hall : ∀ c ∈ s.toList, (!isWhitespace c) = true := by
    intro c hc
    rw [h c hc]
    rfl
  rw [firstWord, dropWhile_of_solid h, takeWhile_eq_self_iff.2 hall, String.ofList_toList]

theorem solid_of_hexDigit {c : Char} (h : isHexDigit c = true) : isWhitespace c = false := by
  have hcode : (48 ≤ c.toNat ∧ c.toNat ≤ 57) ∨ (97 ≤ c.toNat ∧ c.toNat ≤ 102) ∨
      (65 ≤ c.toNat ∧ c.toNat ≤ 70) := by
    simpa [isHexDigit, Char.le_def, UInt32.le_iff_toNat_le, or_assoc] using h
  simp only [isWhitespace, Bool.or_eq_false_iff, Bool.and_eq_false_iff, decide_eq_false_iff_not,
    beq_eq_false_iff_ne]
  omega

theorem isHexDigit_digitChar {n : Nat} (h : n < 16) : isHexDigit (Nat.digitChar n) = true := by
  have hall : ∀ k : Fin 16, isHexDigit (Nat.digitChar k) = true := by decide
  exact hall ⟨n, h⟩

theorem all_hexEncode : (hexEncode bytes).toList.all isHexDigit = true := by
  rw [hexEncode, String.toList_ofList, all_flatMap, all_eq_true]
  intro b _
  have hb := b.toNat_lt
  simp [isHexDigit_digitChar (show b.toNat / 16 < 16 by omega),
    isHexDigit_digitChar (show b.toNat % 16 < 16 by omega)]

end EdgePacer.Text
