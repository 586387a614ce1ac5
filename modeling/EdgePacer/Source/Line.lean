import EdgePacer.Source.Text

/-!
# Reading one line

A file is read through a buffered reader that holds a chunk of at most 8 KiB. A line may run over
any number of chunks, and a two-byte code unit may be split between two of them, so the reader
carries an incomplete code unit from chunk to chunk. `readOneLine_spec` says that the chunks leave
no trace: a line is the reader's remaining bytes up to the first terminator aligned to code units,
or all of them, captured up to the cap. `reads_eq_whole` says it of a whole stream, from any
reader and in any chunks.
-/

namespace EdgePacer.Source

open List Option

/-! ## The first aligned terminator -/

/-- The end of the first terminator on a code-unit boundary. -/
def scanFuel (width : Nat) (terminator : Bytes) : Nat → Bytes → Option Nat
  | 0, _ => none
  | fuel + 1, bytes =>
      if bytes.length < width then none
      else if bytes.take width = terminator then some width
      else (scanFuel width terminator fuel (bytes.drop width)).map (· + width)

variable (e : LineEncoding)

/-- The `j`-th code unit. -/
def LineEncoding.unit (bytes : Bytes) (j : Nat) : Bytes :=
  (bytes.drop (j * e.codeUnitWidth)).take e.codeUnitWidth

def LineEncoding.scan (bytes : Bytes) : Option Nat :=
  scanFuel e.codeUnitWidth e.newlineTerminator bytes.length bytes

theorem scanFuel_nil {w : Nat} (hw : 0 < w) (t : Bytes) (fuel : Nat) :
    scanFuel w t fuel [] = none := by
  cases fuel with
  | zero => rfl
  | succ fuel => exact if_pos hw

theorem scanFuel_eq {w : Nat} (hw : 0 < w) (t : Bytes) {fuel fuel' : Nat} {bytes : Bytes}
    (h : bytes.length ≤ fuel) (h' : bytes.length ≤ fuel') :
    scanFuel w t fuel bytes = scanFuel w t fuel' bytes := by
  induction fuel generalizing fuel' bytes with
  | zero => rw [eq_nil_of_length_eq_zero (Nat.le_zero.1 h), scanFuel_nil hw, scanFuel_nil hw]
  | succ fuel ih =>
    cases fuel' with
    | zero => rw [eq_nil_of_length_eq_zero (Nat.le_zero.1 h'), scanFuel_nil hw, scanFuel_nil hw]
    | succ fuel' =>
      have hdrop : (bytes.drop w).length = bytes.length - w := length_drop
      unfold scanFuel
      rw [@ih fuel' (bytes.drop w) (by omega) (by omega)]

namespace LineEncoding

variable (e : LineEncoding) {bytes : Bytes} {k : Nat}

/-- One code unit of the scan. -/
theorem scan_eq (bytes : Bytes) :
    e.scan bytes =
      if bytes.length < e.codeUnitWidth then none
      else if bytes.take e.codeUnitWidth = e.newlineTerminator then some e.codeUnitWidth
      else (e.scan (bytes.drop e.codeUnitWidth)).map (· + e.codeUnitWidth) := by
  have hdrop : (bytes.drop e.codeUnitWidth).length = bytes.length - e.codeUnitWidth := length_drop
  have hw := e.codeUnitWidth_pos
  rw [scan, scanFuel_eq hw _ (Nat.le_refl _) (Nat.le_succ _), scanFuel, scan,
    scanFuel_eq hw _ (by omega) (Nat.le_refl _)]

/-- Bytes are scanned by code units, up to an incomplete one. -/
theorem unit_induction {motive : Bytes → Prop}
    (short : ∀ bytes, bytes.length < e.codeUnitWidth → motive bytes)
    (unit : ∀ bytes, e.codeUnitWidth ≤ bytes.length → motive (bytes.drop e.codeUnitWidth) →
      motive bytes) (bytes : Bytes) : motive bytes := by
  induction hn : bytes.length using Nat.strongRecOn generalizing bytes with
  | ind n ih =>
    have hw := e.codeUnitWidth_pos
    rcases Nat.lt_or_ge bytes.length e.codeUnitWidth with hlt | hge
    · exact short bytes hlt
    · exact unit bytes hge (ih _ (by rw [length_drop]; omega) _ rfl)

theorem scan_bounds (h : e.scan bytes = some k) : e.codeUnitWidth ≤ k ∧ k ≤ bytes.length := by
  induction bytes using e.unit_induction generalizing k with
  | short bytes hlt =>
    rw [scan_eq, if_pos hlt] at h
    cases h
  | unit bytes hge ih =>
    rw [scan_eq, if_neg (Nat.not_lt.2 hge)] at h
    split at h
    · cases h
      exact ⟨Nat.le_refl _, hge⟩
    · obtain ⟨j, hj, rfl⟩ := map_eq_some_iff.1 h
      have := ih hj
      rw [length_drop] at this
      omega

theorem scan_append_of_some (tail : Bytes) (h : e.scan bytes = some k) :
    e.scan (bytes ++ tail) = some k := by
  induction bytes using e.unit_induction generalizing k with
  | short bytes hlt =>
    rw [scan_eq, if_pos hlt] at h
    cases h
  | unit bytes hge ih =>
    rw [scan_eq, if_neg (Nat.not_lt.2 hge)] at h
    rw [scan_eq, if_neg (by rw [length_append]; omega), take_append_of_le_length hge,
      drop_append_of_le_length hge]
    split at h
    · rename_i ht
      rw [if_pos ht]
      exact h
    · rename_i ht
      obtain ⟨j, hj, rfl⟩ := map_eq_some_iff.1 h
      rw [if_neg ht, ih hj]
      rfl

/-- After bytes without a terminator, the scan goes on with their incomplete code unit. -/
theorem scan_append_of_none (tail : Bytes) (h : e.scan bytes = none) :
    e.scan (bytes ++ tail) =
      (e.scan (bytes.drop (bytes.length - bytes.length % e.codeUnitWidth) ++ tail)).map
        (· + (bytes.length - bytes.length % e.codeUnitWidth)) := by
  induction bytes using e.unit_induction with
  | short bytes hlt => simp [Nat.mod_eq_of_lt hlt]
  | unit bytes hge ih =>
    rw [scan_eq, if_neg (Nat.not_lt.2 hge)] at h
    split at h
    · cases h
    · rename_i ht
      have hnone : e.scan (bytes.drop e.codeUnitWidth) = none := by simpa using h
      rw [scan_eq, if_neg (by rw [length_append]; omega), take_append_of_le_length hge, if_neg ht,
        drop_append_of_le_length hge, ih hnone]
      have hmod := (Nat.mod_eq_sub_mod hge).symm
      have hmle := Nat.mod_le (bytes.length - e.codeUnitWidth) e.codeUnitWidth
      rw [length_drop, drop_drop, Option.map_map, hmod]
      have hsum : e.codeUnitWidth +
          (bytes.length - e.codeUnitWidth - bytes.length % e.codeUnitWidth) =
          bytes.length - bytes.length % e.codeUnitWidth := by omega
      rw [hsum]
      congr 1
      funext x
      simp only [Function.comp]
      omega

/-- The length of the first line of some bytes: up to its terminator, or all of them. -/
def lineLength (bytes : Bytes) : Nat := (e.scan bytes).getD bytes.length

theorem lineLength_le (bytes : Bytes) : e.lineLength bytes ≤ bytes.length := by
  unfold lineLength
  cases h : e.scan bytes with
  | none => exact Nat.le_refl _
  | some k => exact (e.scan_bounds h).2

end LineEncoding

/-! ## The buffered reader -/

/-- An open file: the position of the next byte to hand out, and the bytes from there on that
the reader already holds. -/
structure BufReader where
  (inode pos : Nat)
  buf : Bytes
  deriving DecidableEq

def BUF_CAPACITY : Nat := 8192

namespace BufReader

/-- A reader that is at `pos` and holds nothing. -/
def atPos (inode pos : Nat) : BufReader := ⟨inode, pos, []⟩

/-- The chunk the reader holds, read from the file's content when it holds none. -/
def fillBuf (r : BufReader) (content : Bytes) : Bytes :=
  if r.buf = [] then (content.drop r.pos).take BUF_CAPACITY else r.buf

/-- Move past the first `n` bytes of the chunk just filled. -/
def consume (r : BufReader) (chunk : Bytes) (n : Nat) : BufReader :=
  { r with pos := r.pos + n, buf := chunk.drop n }

/-- Everything the reader can still hand out. -/
def rest (r : BufReader) (content : Bytes) : Bytes := r.buf ++ content.drop (r.pos + r.buf.length)

variable {r : BufReader} {content : Bytes}

/-- The chunk is what the reader hands out next. -/
theorem rest_eq_fillBuf (r : BufReader) (content : Bytes) :
    r.rest content = r.fillBuf content ++ content.drop (r.pos + (r.fillBuf content).length) := by
  unfold rest fillBuf
  split
  · rename_i h
    rw [h, nil_append, length_nil, Nat.add_zero, length_take, ← drop_drop]
    conv_lhs => rw [← take_append_drop BUF_CAPACITY (content.drop r.pos)]
    rcases Nat.le_total BUF_CAPACITY (content.drop r.pos).length with hle | hle
    · rw [Nat.min_eq_left hle]
    · rw [Nat.min_eq_right hle, drop_eq_nil_of_le hle, drop_length]
  · rfl

theorem fillBuf_eq_nil (h : r.fillBuf content = []) : r.rest content = [] := by
  unfold fillBuf at h
  split at h
  · rename_i hbuf
    have hnil : content.drop r.pos = [] := by
      have hlen := congrArg List.length h
      rw [length_take, length_nil, BUF_CAPACITY] at hlen
      exact eq_nil_of_length_eq_zero (by omega)
    simp [rest, hbuf, hnil]
  · contradiction

theorem rest_consume {n : Nat} (hn : n ≤ (r.fillBuf content).length) :
    (r.consume (r.fillBuf content) n).rest content = (r.rest content).drop n := by
  have hpos : r.pos + n + ((r.fillBuf content).drop n).length =
      r.pos + (r.fillBuf content).length := by
    rw [length_drop]
    omega
  rw [rest_eq_fillBuf r, drop_append_of_le_length hn]
  simp only [rest, consume, hpos]

end BufReader

/-! ## The line loop -/

/-- What has been read of a line, and the reader behind it. -/
structure LineRead where
  reader : BufReader
  buf : Bytes
  consumed : Nat
  truncated : Bool

/-- Append what the cap leaves room for. -/
def appendCapped (lineBuf src : Bytes) (maxBytes : Nat) (truncated : Bool) : Bytes × Bool :=
  let takeN := min (maxBytes - lineBuf.length) src.length
  (lineBuf ++ src.take takeN, if takeN < src.length then true else truncated)

theorem appendCapped_eq (lineBuf src : Bytes) (maxBytes : Nat) (truncated : Bool) :
    appendCapped lineBuf src maxBytes truncated = (lineBuf ++ src.take (maxBytes - lineBuf.length),
      truncated || decide (maxBytes - lineBuf.length < src.length)) := by
  rw [appendCapped]
  rcases Nat.lt_or_ge (maxBytes - lineBuf.length) src.length with hlt | hge
  · simp [Nat.min_eq_left (Nat.le_of_lt hlt), hlt]
  · simp [Nat.min_eq_right hge, take_of_length_le hge, Nat.not_lt.2 hge]

/-- Take `n` bytes of the current chunk into the line. -/
def LineRead.take (l : LineRead) (chunk : Bytes) (n maxBytes : Nat) : LineRead :=
  let appended := appendCapped l.buf (chunk.take n) maxBytes l.truncated
  { reader := l.reader.consume chunk n
    buf := appended.1
    consumed := l.consumed + n
    truncated := appended.2 }

/-- Read chunk by chunk up to the first terminator. Every chunk but the one that ends the file is
nonempty, so the number of bytes left is fuel enough. -/
def readLineLoop (e : LineEncoding) (maxBytes : Nat) (content : Bytes) :
    Nat → LineRead → Bytes → LineRead
  | 0, l, _ => l
  | fuel + 1, l, carry =>
      let chunk := l.reader.fillBuf content
      if chunk = [] then l
      else
        let joined := carry ++ chunk
        match e.scan joined with
        | some k => l.take chunk (k - carry.length) maxBytes
        | none =>
            readLineLoop e maxBytes content fuel (l.take chunk chunk.length maxBytes)
              (joined.drop (joined.length - joined.length % e.codeUnitWidth))

def readOneLine (maxBytes : Nat) (content : Bytes) (r : BufReader) : LineRead :=
  readLineLoop e maxBytes content (r.rest content).length ⟨r, [], 0, false⟩ []

/-- Taking `n` bytes all at once, the way a line of `n` bytes ends up. -/
structure LineRead.Took (l l' : LineRead) (content : Bytes) (n maxBytes : Nat) : Prop where
  inode : l'.reader.inode = l.reader.inode
  pos : l'.reader.pos = l.reader.pos + n
  rest : l'.reader.rest content = (l.reader.rest content).drop n
  buf : l'.buf = l.buf ++ ((l.reader.rest content).take n).take (maxBytes - l.buf.length)
  consumed : l'.consumed = l.consumed + n
  truncated : l'.truncated = (l.truncated || decide (maxBytes - l.buf.length < n))

variable (l : LineRead) (content : Bytes) (maxBytes : Nat) (e : LineEncoding)

theorem LineRead.took_zero : l.Took l content 0 maxBytes where
  inode := rfl
  pos := rfl
  rest := rfl
  buf := by simp
  consumed := rfl
  truncated := by simp

/-- Taking from the current chunk takes from what the reader hands out. -/
theorem LineRead.took_take {n : Nat} (hn : n ≤ (l.reader.fillBuf content).length) :
    l.Took (l.take (l.reader.fillBuf content) n maxBytes) content n maxBytes := by
  have htake : (l.reader.rest content).take n = (l.reader.fillBuf content).take n := by
    rw [BufReader.rest_eq_fillBuf, take_append_of_le_length hn]
  have hlen : ((l.reader.fillBuf content).take n).length = n := by
    rw [length_take]; omega
  refine ⟨rfl, rfl, BufReader.rest_consume hn, ?_, rfl, ?_⟩
  · rw [LineRead.take, appendCapped_eq, htake]
  · rw [LineRead.take, appendCapped_eq, hlen]

/-- Taking twice is taking the sum. -/
theorem LineRead.Took.trans {l l' l'' : LineRead} {content : Bytes} {n m maxBytes : Nat}
    (h : l.Took l' content n maxBytes) (h' : l'.Took l'' content m maxBytes)
    (hn : n ≤ (l.reader.rest content).length) : l.Took l'' content (n + m) maxBytes where
  inode := h'.inode.trans h.inode
  pos := by rw [h'.pos, h.pos]; omega
  rest := by rw [h'.rest, h.rest, drop_drop]
  buf := by
    have hlen : ((l.reader.rest content).take n).length = n := by rw [length_take]; omega
    rw [h'.buf, h.rest, h.buf, append_assoc, take_add, take_append]
    congr 3
    rw [length_append, length_take]
    omega
  consumed := by rw [h'.consumed, h.consumed]; omega
  truncated := by
    have hlen : ((l.reader.rest content).take n).length = n := by rw [length_take]; omega
    rw [h'.truncated, h.truncated, h.buf, length_append, length_take, Bool.or_assoc,
      ← Bool.decide_or]
    congr 2
    apply propext
    omega

/-- Where no terminator is found, the line goes on from the last incomplete code unit. -/
theorem LineEncoding.lineLength_append_of_none {joined : Bytes} (h : e.scan joined = none)
    (more : Bytes) :
    let carry := joined.drop (joined.length - joined.length % e.codeUnitWidth)
    carry.length = joined.length % e.codeUnitWidth ∧
      e.lineLength (joined ++ more) =
        joined.length + (e.lineLength (carry ++ more) - carry.length) := by
  intro carry
  have hlt := Nat.mod_lt joined.length e.codeUnitWidth_pos
  have hmod := Nat.mod_le joined.length e.codeUnitWidth
  have hcarry : carry.length = joined.length % e.codeUnitWidth := by
    rw [length_drop]
    omega
  refine ⟨hcarry, ?_⟩
  rw [lineLength, lineLength, e.scan_append_of_none _ h]
  cases hscan : e.scan (carry ++ more) with
  | none =>
    simp only [map_none, getD_none, length_append]
    omega
  | some k =>
    have hk := e.scan_bounds hscan
    simp only [map_some, getD_some]
    omega

/-- The loop takes the line that starts with the carried code unit, whatever the chunks. -/
theorem readLineLoop_spec (maxBytes : Nat) (content : Bytes) :
    ∀ (fuel : Nat) (l : LineRead) (carry : Bytes), carry.length < e.codeUnitWidth →
      (l.reader.rest content).length ≤ fuel →
      l.Took (readLineLoop e maxBytes content fuel l carry) content
        (e.lineLength (carry ++ l.reader.rest content) - carry.length) maxBytes := by
  have hend : ∀ (l : LineRead) (carry : Bytes), l.reader.rest content = [] →
      l.Took l content (e.lineLength (carry ++ l.reader.rest content) - carry.length) maxBytes := by
    intro l carry hnil
    have hle := e.lineLength_le (carry ++ l.reader.rest content)
    rw [hnil, append_nil] at hle ⊢
    rw [Nat.sub_eq_zero_of_le hle]
    exact l.took_zero content maxBytes
  intro fuel
  induction fuel with
  | zero =>
    intro l carry _ hfuel
    exact hend l carry (eq_nil_of_length_eq_zero (Nat.le_zero.1 hfuel))
  | succ fuel ih =>
    intro l carry hcarry hfuel
    have hrest := BufReader.rest_eq_fillBuf l.reader content
    have htake : ∀ n ≤ (l.reader.fillBuf content).length, l.Took _ content n maxBytes :=
      fun n hn => l.took_take content maxBytes hn
    rw [readLineLoop]
    by_cases hchunk : l.reader.fillBuf content = []
    · rw [if_pos hchunk]
      exact hend l carry (BufReader.fillBuf_eq_nil hchunk)
    · rw [if_neg hchunk]
      generalize l.reader.fillBuf content = chunk at hrest htake hchunk
      generalize content.drop (l.reader.pos + chunk.length) = more at hrest
      have hassoc : carry ++ l.reader.rest content = (carry ++ chunk) ++ more := by
        rw [hrest, append_assoc]
      have hpos : 0 < chunk.length := length_pos_iff.2 hchunk
      rw [hrest, length_append] at hfuel
      dsimp only
      cases hscan : e.scan (carry ++ chunk) with
      | some k =>
        -- the terminator lies in this chunk
        have hk := e.scan_bounds hscan
        rw [length_append] at hk
        rw [hassoc, LineEncoding.lineLength, e.scan_append_of_some _ hscan]
        exact htake _ (by omega)
      | none =>
        -- the whole chunk belongs to the line, and its last incomplete unit is scanned again
        have htook := htake chunk.length (Nat.le_refl _)
        have htail := htook.rest
        rw [hrest, drop_left' rfl] at htail
        obtain ⟨hlen, hline⟩ := e.lineLength_append_of_none hscan more
        have hmod := Nat.mod_lt (carry ++ chunk).length e.codeUnitWidth_pos
        generalize (carry ++ chunk).drop _ = carry' at hlen hline
        have hnext := ih _ carry' (by omega) (by rw [htail]; omega)
        have hsum := htook.trans hnext (by rw [hrest, length_append]; omega)
        rw [htail] at hsum
        rw [hassoc, hline, length_append, Nat.add_assoc, Nat.add_sub_cancel_left]
        exact hsum

/-- **One line.** Reading a line takes the reader's remaining bytes up to the first aligned
terminator, or all of them, and captures at most `maxBytes` of them. -/
theorem readOneLine_spec (maxBytes : Nat) (content : Bytes) (r : BufReader) :
    LineRead.Took ⟨r, [], 0, false⟩ (readOneLine e maxBytes content r) content
      (e.lineLength (r.rest content)) maxBytes :=
  readLineLoop_spec e maxBytes content _ ⟨r, [], 0, false⟩ [] e.codeUnitWidth_pos (Nat.le_refl _)

/-! ## Any reader

`read_one_line` takes any buffered reader: what `fill_buf` shows in turn are nonempty chunks of the
bytes still to come. -/

/-- The captured bytes of a line, the bytes it took, and whether the cap left some out. -/
structure LineReadOutcome where
  line : Bytes := []
  consumed : Nat := 0
  truncated : Bool := false
  deriving DecidableEq

/-- Take the first `n` bytes of a chunk into the line. -/
def LineReadOutcome.take (out : LineReadOutcome) (chunk : Bytes) (n maxBytes : Nat) :
    LineReadOutcome :=
  let appended := appendCapped out.line (chunk.take n) maxBytes out.truncated
  ⟨appended.1, out.consumed + n, appended.2⟩

/-- `read_one_line` on the chunks it is shown. -/
def readChunks (e : LineEncoding) (maxBytes : Nat) :
    List Bytes → LineReadOutcome → Bytes → LineReadOutcome
  | [], out, _ => out
  | chunk :: chunks, out, carry =>
    match e.scan (carry ++ chunk) with
    | some k => out.take chunk (k - carry.length) maxBytes
    | none => readChunks e maxBytes chunks (out.take chunk chunk.length maxBytes)
        ((carry ++ chunk).drop
          ((carry ++ chunk).length - (carry ++ chunk).length % e.codeUnitWidth))

/-- The lines of a stream that comes as one chunk. -/
def readWhole (e : LineEncoding) (maxBytes : Nat) : Nat → Bytes → List LineReadOutcome
  | 0, _ => []
  | fuel + 1, stream =>
    if stream = [] then []
    else
      let out := readChunks e maxBytes [stream] {} []
      out :: readWhole e maxBytes fuel (stream.drop out.consumed)

/-- The outcomes of reading a stream to its end, with any chunks at every call. -/
inductive Reads (e : LineEncoding) (maxBytes : Nat) : Bytes → List LineReadOutcome → Prop where
  | done : Reads e maxBytes [] []
  | line {chunks : List Bytes} {outs : List LineReadOutcome}
      (nonempty : ∀ chunk ∈ chunks, chunk ≠ []) (left : chunks.flatten ≠ []) :
      Reads e maxBytes (chunks.flatten.drop (readChunks e maxBytes chunks {} []).consumed)
        outs → Reads e maxBytes chunks.flatten (readChunks e maxBytes chunks {} [] :: outs)

/-- A line of `n` bytes ends with its first aligned terminator, or with the stream. -/
def LineEncoding.EndsAt (stream : Bytes) (n : Nat) : Prop :=
  (∃ m, n = (m + 1) * e.codeUnitWidth ∧ e.unit stream m = e.newlineTerminator ∧
    ∀ j < m, e.unit stream j ≠ e.newlineTerminator) ∨
  n = stream.length ∧ ∀ j, (j + 1) * e.codeUnitWidth ≤ n → e.unit stream j ≠ e.newlineTerminator

def CutAtUnits (e : LineEncoding) : Bytes → List Nat → Prop
  | stream, [] => stream = []
  | stream, n :: ns => e.EndsAt stream n ∧ CutAtUnits e (stream.drop n) ns

theorem LineEncoding.endsAt_lineLength (stream : Bytes) :
    e.EndsAt stream (e.lineLength stream) := by
  induction stream using e.unit_induction with
  | short bytes hlt =>
    rw [lineLength, scan_eq, if_pos hlt]
    refine .inr ⟨rfl, fun j hj => ?_⟩
    have hunit := Nat.le_mul_of_pos_left e.codeUnitWidth j.succ_pos
    exact absurd (Nat.le_trans hunit hj) (Nat.not_le.2 hlt)
  | unit bytes hge ih =>
    have hnext : ∀ j, e.unit bytes (j + 1) = e.unit (bytes.drop e.codeUnitWidth) j := by
      intro j
      rw [unit, unit, drop_drop, Nat.add_mul, Nat.one_mul, Nat.add_comm]
    by_cases ht : bytes.take e.codeUnitWidth = e.newlineTerminator
    · rw [lineLength, scan_eq, if_neg (Nat.not_lt.2 hge), if_pos ht]
      exact .inl ⟨0, (Nat.one_mul _).symm, by rwa [unit, Nat.zero_mul], nofun⟩
    · have hline : e.lineLength bytes =
          e.lineLength (bytes.drop e.codeUnitWidth) + e.codeUnitWidth := by
        rw [lineLength, scan_eq, if_neg (Nat.not_lt.2 hge), if_neg ht, lineLength]
        cases e.scan (bytes.drop e.codeUnitWidth) with
        | none =>
          rw [map_none, getD_none, getD_none, length_drop]
          omega
        | some k => rfl
      have hrest := length_drop (i := e.codeUnitWidth) (l := bytes)
      rw [hline]
      rcases ih with ⟨m, hn, hfeed, hbefore⟩ | ⟨hn, hnone⟩
      · refine .inl ⟨m + 1, by rw [hn, Nat.succ_mul (m + 1)], by rwa [hnext], fun j hj => ?_⟩
        cases j with
        | zero => rwa [unit, Nat.zero_mul]
        | succ j => exact hnext j ▸ hbefore j (Nat.lt_of_succ_lt_succ hj)
      · refine .inr ⟨by omega, fun j hj => ?_⟩
        cases j with
        | zero => rwa [unit, Nat.zero_mul]
        | succ j =>
          rw [Nat.succ_mul] at hj
          exact hnext j ▸ hnone j (Nat.le_of_add_le_add_right hj)

/-- Taking a chunk and then part of the next is taking from both. -/
theorem LineReadOutcome.take_take (out : LineReadOutcome) (xs ys : Bytes) (n maxBytes : Nat) :
    (out.take xs xs.length maxBytes).take ys n maxBytes =
      out.take (xs ++ ys) (xs.length + n) maxBytes := by
  have hboth : (xs ++ ys).take (xs.length + n) = xs ++ ys.take n := take_length_add_append n
  have hroom : maxBytes - (out.line.length + min (maxBytes - out.line.length) xs.length) =
      maxBytes - out.line.length - xs.length := by omega
  simp only [LineReadOutcome.take, take_length, hboth]
  generalize ys.take n = zs
  have hcut : (maxBytes - out.line.length < xs.length ∨
      maxBytes - out.line.length - xs.length < zs.length) ↔
      maxBytes - out.line.length < xs.length + zs.length := by omega
  simp only [appendCapped_eq, take_append, length_append, length_take, append_assoc, hroom,
    Nat.add_assoc, Bool.or_assoc, ← Bool.decide_or, hcut]

/-- The chunks leave no trace. -/
theorem readChunks_eq (maxBytes : Nat) (chunks : List Bytes)
    (out : LineReadOutcome) {carry : Bytes} (hcarry : carry.length < e.codeUnitWidth) :
    readChunks e maxBytes chunks out carry =
      out.take chunks.flatten (e.lineLength (carry ++ chunks.flatten) - carry.length) maxBytes := by
  induction chunks generalizing out carry with
  | nil =>
    have hle := e.lineLength_le (carry ++ [].flatten)
    rw [flatten_nil, append_nil] at hle ⊢
    rw [readChunks, Nat.sub_eq_zero_of_le hle, LineReadOutcome.take, appendCapped_eq]
    simp
  | cons chunk chunks ih =>
    rw [readChunks]
    cases hscan : e.scan (carry ++ chunk) with
    | some k =>
      have hk := e.scan_bounds hscan
      rw [length_append] at hk
      dsimp only
      rw [flatten_cons, ← append_assoc, LineEncoding.lineLength, e.scan_append_of_some _ hscan,
        getD_some, LineReadOutcome.take, LineReadOutcome.take,
        take_append_of_le_length (by omega)]
    | none =>
      obtain ⟨hlen, hline⟩ := e.lineLength_append_of_none hscan chunks.flatten
      have hmod := Nat.mod_lt (carry ++ chunk).length e.codeUnitWidth_pos
      rw [ih _ (by omega), LineReadOutcome.take_take, flatten_cons, ← append_assoc, hline,
        length_append, Nat.add_assoc, Nat.add_sub_cancel_left]

/-- A read from the start of a line takes the next line of the stream. -/
theorem readChunks_start (maxBytes : Nat) (chunks : List Bytes) :
    readChunks e maxBytes chunks {} [] =
      LineReadOutcome.take {} chunks.flatten (e.lineLength chunks.flatten) maxBytes :=
  readChunks_eq e maxBytes chunks {} e.codeUnitWidth_pos

theorem LineEncoding.lineLength_pos {stream : Bytes} (h : stream ≠ []) :
    0 < e.lineLength stream := by
  rcases e.endsAt_lineLength stream with ⟨m, hn, _⟩ | ⟨hn, _⟩
  · rw [hn]
    exact Nat.mul_pos m.succ_pos e.codeUnitWidth_pos
  · rw [hn]
    exact length_pos_iff.2 h

/-- **Chunks leave no trace.** However the bytes of a stream come in chunks, call by call, the
lines, their lengths and the marks of cut lines are those of reading it as one chunk. The lengths
add up to the stream, no line holds more than the cap, and each line ends with its first terminator
on a code-unit boundary, or with the stream. -/
theorem reads_eq_whole {e : LineEncoding} {maxBytes fuel : Nat} {stream : Bytes}
    {outs : List LineReadOutcome} (h : Reads e maxBytes stream outs)
    (hfuel : stream.length ≤ fuel) :
    outs = readWhole e maxBytes fuel stream ∧
      (outs.map LineReadOutcome.consumed).sum = stream.length ∧
      (∀ out ∈ outs, out.line.length ≤ maxBytes) ∧
      CutAtUnits e stream (outs.map LineReadOutcome.consumed) := by
  induction h generalizing fuel with
  | done =>
    refine ⟨?_, rfl, forall_mem_nil _, rfl⟩
    cases fuel <;> rfl
  | @line chunks outs nonempty left _ ih =>
    have hpos := e.lineLength_pos left
    have hle := e.lineLength_le chunks.flatten
    have hcut := e.endsAt_lineLength chunks.flatten
    rw [readChunks_start] at ih ⊢
    have hsize : (LineReadOutcome.take {} chunks.flatten (e.lineLength chunks.flatten)
        maxBytes).consumed = e.lineLength chunks.flatten := Nat.zero_add _
    rw [hsize, length_drop] at ih
    cases fuel with
    | zero => omega
    | succ fuel =>
      obtain ⟨hwhole, hsum, hcap, hcuts⟩ := @ih fuel (by omega)
      refine ⟨?_, ?_, ?_, ?_⟩
      · rw [readWhole, if_neg left]
        dsimp only
        rw [readChunks_start, flatten_singleton, hsize, ← hwhole]
      · rw [map_cons, sum_cons]
        omega
      · refine forall_mem_cons.2 ⟨?_, hcap⟩
        rw [LineReadOutcome.take, appendCapped_eq]
        exact length_take_le _ _
      · rw [map_cons, hsize]
        exact ⟨hcut, hcuts⟩

/-- A line feed split between two chunks. -/
theorem split_feed_whole :
    Reads .utf16Le 4 [97, 0, 10, 0, 98] [⟨[97, 0, 10, 0], 4, false⟩, ⟨[98], 1, false⟩] ∧
      [⟨[97, 0, 10, 0], 4, false⟩, ⟨[98], 1, false⟩] =
        readWhole .utf16Le 4 5 [97, 0, 10, 0, 98] := by
  have hreads : Reads .utf16Le 4 [97, 0, 10, 0, 98]
      [⟨[97, 0, 10, 0], 4, false⟩, ⟨[98], 1, false⟩] := by
    refine @Reads.line _ _ [[97, 0, 10], [0, 98]] _ (by decide) (by decide) ?_
    exact @Reads.line _ _ [[98]] _ (by decide) (by decide) .done
  exact ⟨hreads, (reads_eq_whole hreads (Nat.le_refl 5)).1⟩

end EdgePacer.Source
