import EdgePacer.Common

/-!
# From file bytes to line text

A tailed file is split into lines on the line-feed code unit of its encoding, which a byte-order
mark at the start of the file decides. A line's bytes are then decoded to UTF-8, and the line
ending is trimmed; escape sequences are stripped where the line enters the pipeline.

UTF-16 decoding is the one step that belongs to a library: `Utf16Decoder` gives the UTF-8 bytes
of the decoded text.
-/

namespace EdgePacer.Source

/-! ## Escape sequences -/

def ESC : UInt8 := 0x1B
def BEL : UInt8 := 0x07

/-- What follows a CSI sequence, given the bytes after `ESC [`. -/
def afterCsi : Bytes → Bytes
  | [] => []
  | b :: bs => if 0x40 ≤ b ∧ b ≤ 0x7E then bs else afterCsi bs

/-- What follows an OSC sequence, given the bytes after `ESC ]`. -/
def afterOsc : Bytes → Bytes
  | [] => []
  | b :: bs =>
      if b = BEL then bs
      else if b = ESC ∧ bs.head? = some 0x5C then bs.drop 1
      else afterOsc bs

/-- What follows the escape sequence whose `ESC` precedes the given bytes. -/
def escapeEnd : Bytes → Bytes
  | [] => []
  | b :: bs => if b = 0x5B then afterCsi bs else if b = 0x5D then afterOsc bs else bs

/-- Drop every escape sequence. Each step takes at least one byte of the line. -/
def stripInPlace : Nat → Bytes → Bytes
  | 0, _ => []
  | _ + 1, [] => []
  | fuel + 1, b :: bs =>
      if b = ESC then stripInPlace fuel (escapeEnd bs) else b :: stripInPlace fuel bs

def stripOwned (line : Bytes) : Bytes :=
  if ESC ∈ line then stripInPlace line.length line else line

example : stripOwned [0x1B, 0x5B, 0x33, 0x32, 0x6D, 0x68, 0x69, 0x1B, 0x5B, 0x30, 0x6D] =
    [0x68, 0x69] := by decide

/-! ## Encodings -/

/-- How a file's text is encoded. -/
inductive LineEncoding where
  | utf8
  | utf8Bom
  | utf16Le
  | utf16Be
  deriving DecidableEq, Repr

namespace LineEncoding

/-- Width of one code unit in source bytes. -/
def codeUnitWidth : LineEncoding → Nat
  | .utf8 | .utf8Bom => 1
  | .utf16Le | .utf16Be => 2

/-- The source bytes of the line-feed code unit. -/
def newlineTerminator : LineEncoding → Bytes
  | .utf8 | .utf8Bom => [0x0A]
  | .utf16Le => [0x0A, 0x00]
  | .utf16Be => [0x00, 0x0A]

theorem codeUnitWidth_pos (e : LineEncoding) : 0 < e.codeUnitWidth := by
  cases e <;> decide

end LineEncoding

/-- The encoding a file's first three bytes announce. -/
def detectEncoding (head : Bytes) : LineEncoding :=
  if [0xEF, 0xBB, 0xBF].isPrefixOf head then .utf8Bom
  else if [0xFF, 0xFE].isPrefixOf head then .utf16Le
  else if [0xFE, 0xFF].isPrefixOf head then .utf16Be
  else .utf8

/-- UTF-8 bytes of the text that bytes in UTF-16 decode to, little-endian or big-endian, with
replacement characters for what is malformed. -/
structure Utf16Decoder where
  (le be : Bytes → Bytes)

/-- Drop a byte-order mark encoded in UTF-8. -/
def stripBom (buf : Bytes) : Bytes :=
  if [0xEF, 0xBB, 0xBF].isPrefixOf buf then buf.drop 3 else buf

/-- Decode a raw source line to UTF-8; only the first line of a file has a mark to strip. -/
def decodeLine (utf16 : Utf16Decoder) (buf : Bytes) (encoding : LineEncoding)
    (isFirstLine : Bool) : Bytes :=
  match encoding with
  | .utf8 => buf
  | .utf8Bom => if isFirstLine then stripBom buf else buf
  | .utf16Le => if isFirstLine then stripBom (utf16.le buf) else utf16.le buf
  | .utf16Be => if isFirstLine then stripBom (utf16.be buf) else utf16.be buf

/-- Strip a trailing line feed and then a carriage return before it. -/
def trimLineEnding (buf : Bytes) : Bytes :=
  if buf.getLast? = some 0x0A then
    if buf.dropLast.getLast? = some 0x0D then buf.dropLast.dropLast else buf.dropLast
  else buf

end EdgePacer.Source
