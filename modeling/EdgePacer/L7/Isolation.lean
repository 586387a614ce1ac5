import EdgePacer.L7.Conn
import EdgePacer.L7.Http1Cuts
import EdgePacer.L7.Http2Cuts

/-!
# Connections do not influence each other

Trackers share nothing, so what the registry emits for a connection depends on that connection's
segments only, and nothing before a gap in a stream is remembered after it. The one way for a
segment to be felt elsewhere is a call that does not return: an HTTP/1 head whose length and
`Content-Length` add up to a multiple of `2 ^ 64` is passed over by zero bytes, again and again.
`ConnTracker.clear` says of a segment that no such head is met.
-/

namespace EdgePacer.L7

open Lib ConnRegistry Option ConnTracker Machine

variable {ext : Externals}

/-! ## Calls that return -/

/-- No HTTP/1 head without a length is met in the bytes at hand. -/
def Parser.clear (p : Parser ext) (dir : Direction) (bytes : Bytes) : Bool :=
  match p with
  | .http1 parser => Advances ((Http1.framer ext.httparse).next dir) ()
      (((parser.lanes dir).buf ++ bytes).drop (parser.lanes dir).skip)
  | _ => true

theorem Parser.isSome_of_clear {p : Parser ext} {dir : Direction} {bytes : Bytes}
    (h : p.clear dir bytes = true) (ts : Int64) : (p.onBytes dir bytes ts).isSome := by
  cases p with
  | http1 parser =>
    rw [onBytes, isSome_map]
    exact Framer.step_isSome (of_decide_eq_true h)
  | http2 parser =>
    rw [onBytes, isSome_map]
    exact Framer.step_isSome ((Http2.framed Http2.maxFramePayload dir).advances trivial)
  | other kind state => rfl

/-- Requests do not touch the buffer of the responses. -/
theorem Parser.clear_of_inbound {p p' : Parser ext} {bytes bytes' : Bytes} {ts : Int64}
    (h : p.clear .outbound bytes' = true) (hp : p.onBytes .inbound bytes ts = some p') :
    p'.clear .outbound bytes' = true := by
  cases p with
  | http1 parser =>
    obtain ⟨parser', hstep, rfl⟩ := map_eq_some_iff.1 hp
    have hlane := Framer.step_lanes_of_ne hstep (show Direction.outbound ≠ .inbound by decide)
    rw [clear] at h ⊢
    rw [hlane]
    exact h
  | http2 parser =>
    obtain ⟨parser', _, rfl⟩ := map_eq_some_iff.1 hp
    rfl
  | other kind state =>
    cases hp
    rfl

/-- In none of the calls that the segment leads to is a head without a length met. -/
def ConnTracker.clear (t : ConnTracker ext) (input : Input) : Bool :=
  let seg := input.segment
  let dir := t.orient seg.direction input.flip
  match t.revive dir seg.bytes input.hint with
  | none => true
  | some t =>
      match t.parser with
      | some parser => parser.clear dir seg.bytes
      | none =>
          let t := t.buffer dir seg.bytes
          match t.verdict input.hint with
          | .bind parser _ flipped =>
              parser.clear .inbound (if flipped then t.preOutbound else t.preInbound) &&
                parser.clear .outbound (if flipped then t.preInbound else t.preOutbound)
          | _ => true

theorem ConnTracker.bind_isSome (t : ConnTracker ext) {parser : Parser ext} {flipped : Bool}
    (hin : parser.clear .inbound (if flipped then t.preOutbound else t.preInbound) = true)
    (hout : parser.clear .outbound (if flipped then t.preInbound else t.preOutbound) = true)
    (role : Option PeerRole) (ts : Int64) : (t.bind parser role flipped ts).isSome := by
  obtain ⟨p₁, hp₁⟩ := isSome_iff_exists.1 (Parser.isSome_of_clear hin ts)
  have hout' := Parser.clear_of_inbound hout hp₁
  obtain ⟨p₂, hp₂⟩ := isSome_iff_exists.1 (Parser.isSome_of_clear hout' ts)
  simp only [bind, hp₁, hp₂, bind_eq_bind, bind_some]
  split <;> rfl

theorem ConnTracker.isSome_of_clear {t : ConnTracker ext} {input : Input}
    (h : t.clear input = true) : (t.feed input).isSome := by
  have honSegment : (t.onSegment input.segment.direction input.segment.bytes
      input.segment.timestampNano input.hint input.flip).isSome := by
    rw [clear] at h
    rw [onSegment]
    split
    · rfl
    · rename_i t' hrevive
      rw [hrevive] at h
      dsimp only at h
      cases hparser : t'.parser with
      | some parser =>
        rw [hparser] at h
        obtain ⟨p, hp⟩ := isSome_iff_exists.1 (Parser.isSome_of_clear h input.segment.timestampNano)
        simp only [hp, bind_eq_bind, bind_some]
        split <;> rfl
      | none =>
        rw [hparser] at h
        dsimp only at h ⊢
        split
        · rename_i parser role flipped hverdict
          rw [hverdict, Bool.and_eq_true] at h
          exact bind_isSome _ h.1 h.2 role _
        · rfl
        · rfl
  obtain ⟨t', ht'⟩ := isSome_iff_exists.1 honSegment
  simp only [feed, ht']
  rfl

/-- Every segment of a run is taken in. -/
def ConnRegistry.AllClear (ext : Externals) (inputs : List Input) : Prop :=
  Each ((conns ext).after maxTrackedConns)
    (fun r input => ((conns ext).get r ((conns ext).key input)).clear input = true)
    new inputs

/-- The segments come from no more connections than are tracked. -/
def ConnRegistry.BelowCap (ext : Externals) (inputs : List Input) : Prop :=
  (inputs.map (conns ext).key).dedup.length ≤ maxTrackedConns

/-- The segments of one connection. -/
def ofConnection (k : CapturedConnectionIdentity) (inputs : List Input) : List Input :=
  inputs.filter fun input => input.segment.connectionIdentity = k

/-! ## Isolation -/

/-- **Connections are isolated.** In a run below the cap in which no head without a length is met,
the records of a connection are those that its own segments give. -/
theorem connections_isolated (ext : Externals) (inputs : List Input)
    (k : CapturedConnectionIdentity) (hcap : BelowCap ext inputs)
    (hclear : AllClear ext inputs) :
    lane k (emitted ext inputs) = lane k (emitted ext (ofConnection k inputs)) := by
  have hfits := fits_fresh hcap
  have hall := lane_feed (M := conns ext) (fun _ _ h => isSome_of_clear h) inputs new hclear k hfits
  have hown := lane_feed_of_key (ofConnection k inputs) new
    (fun _ h => of_decide_eq_true (List.mem_filter.1 h).2) (hfits.filter _)
  exact hall.trans hown.symm

/-! ### A request that is never done with -/

/-- HTTP only: no other protocol is ever recognised. -/
def httpOnly : Externals where
  httparse := Http1.tableHttparse
  codec := Http2.staticCodec
  State _ := Unit
  fresh _ := ()
  onBytes _ state _ _ _ := state
  takeRecords _ state := ([], state)
  isDead _ _ := false
  detect _ _ := none
  redisRequest _ := false
  natsRequest _ := false

variable (fd : Nat)

/-- A segment on a descriptor, without a hint. -/
def segmentOn (direction : Direction) (bytes : Bytes) : Input :=
  { segment :=
      { captureGeneration := 0, policyGeneration := 0, pid := 7, tid := 7, cgroupId := 1,
        scopeCgroupId := 1, fd := fd, direction := direction, timestampNano := 0,
        streamGap := false, bytes := bytes }
    hint := none
    flip := false }

/-- A request whose head of 56 bytes announces a body of `2 ^ 64 - 56`. -/
def endlessRequest : Input :=
  segmentOn fd .inbound (ascii "GET / HTTP/1.1\r\nContent-Length: 18446744073709551560\r\n\r\n")

/-- A request without a body, and its response. -/
def exchange : List Input :=
  [segmentOn fd .inbound (ascii "GET / HTTP/1.1\r\n\r\n"),
    segmentOn fd .outbound (ascii "HTTP/1.1 200 OK\r\n\r\n")]

def identityOn : CapturedConnectionIdentity := ⟨0, 0, 1, 1, 7, fd⟩

theorem exchanges_isolated :
    BelowCap httpOnly (exchange 3 ++ exchange 4) ∧
      AllClear httpOnly (exchange 3 ++ exchange 4) ∧
      lane (identityOn 4) (emitted httpOnly (exchange 3 ++ exchange 4)) =
        lane (identityOn 4) (emitted httpOnly
          (ofConnection (identityOn 4) (exchange 3 ++ exchange 4))) := by
  have hcap : BelowCap httpOnly (exchange 3 ++ exchange 4) := by
    rw [BelowCap]
    decide +kernel
  have hclear : AllClear httpOnly (exchange 3 ++ exchange 4) := by
    rw [AllClear]
    decide +kernel
  exact ⟨hcap, hclear, connections_isolated httpOnly _ (identityOn 4) hcap hclear⟩

/-- The registry does not come back from the endless request on one connection, so another
connection's record is never emitted. -/
theorem endless_request_starves_others :
    lane (identityOn 4) (emitted httpOnly (endlessRequest 3 :: exchange 4)) = [] ∧
      (lane (identityOn 4) (emitted httpOnly
        (ofConnection (identityOn 4) (endlessRequest 3 :: exchange 4)))).length = 1 := by
  constructor <;> decide +kernel

/-! ## Gaps -/

/-- The records emitted for `rest` once `before` has been fed. -/
def ConnRegistry.emittedAfter (ext : Externals) (before rest : List Input) :
    List (CapturedConnectionIdentity × L7Record) :=
  (emitted ext (before ++ rest)).drop (emitted ext before).length

theorem ConnTracker.feed_gap {t t' : ConnTracker ext} {input : Input} {records : List L7Record}
    (hgap : input.segment.streamGap = true) (h : t.feed input = some (t', records)) :
    t' = killed := by
  obtain ⟨s, _, hs⟩ := bind_eq_some_iff.1 h
  rw [hgap] at hs
  exact (congrArg Prod.fst (some.inj hs)).symm

/-- After a gap the tracker is the killed one, and its connection's records come from its own later
segments. -/
theorem lane_emittedAfter_gap {before rest : List Input} {gap : Input}
    (hgap : gap.segment.streamGap = true)
    (hcap : BelowCap ext (before ++ gap :: rest))
    (hclear : AllClear ext (before ++ gap :: rest)) :
    lane gap.segment.connectionIdentity
        (emittedAfter ext (before ++ [gap]) rest) =
      (conns ext).solo killed (ofConnection gap.segment.connectionIdentity rest) := by
  have hfits := fits_fresh hcap
  have hsplit : before ++ gap :: rest = (before ++ [gap]) ++ rest := by
    rw [List.append_assoc, List.singleton_append]
  have hreturns : ∀ (t : ConnTracker ext) input, t.clear input = true →
      ((conns ext).step t input).isSome := fun _ _ h => isSome_of_clear h
  obtain ⟨hbefore, hgap', hrest⟩ := each_append_iff.1 hclear
  have hfirst : AllClear ext (before ++ [gap]) :=
    each_append_iff.2 ⟨hbefore, hgap', trivial⟩
  -- the state of the gap's connection right after the gap
  obtain ⟨s, out, hstep, _, hafter⟩ :=
    (Machine.Fits.foldl_after hreturns before _ hbefore hfits).returns hreturns hgap'
  have hkilled : s = killed := feed_gap hgap hstep
  have hfold : (before ++ [gap]).foldl ((conns ext).after maxTrackedConns) new =
      (conns ext).after maxTrackedConns
        (before.foldl ((conns ext).after maxTrackedConns) new) gap := by
    rw [List.foldl_append]
    rfl
  rw [hsplit] at hfits
  have hemitted := feed_append hreturns (before ++ [gap]) new hfirst rest hfits
  have hfits' := Machine.Fits.foldl_after hreturns (before ++ [gap]) _ hfirst hfits
  rw [hfold] at hemitted hfits'
  have hlane := lane_feed hreturns rest _ hrest gap.segment.connectionIdentity hfits'
  have hget : (conns ext).get ((conns ext).after maxTrackedConns
      (before.foldl ((conns ext).after maxTrackedConns) new) gap)
      gap.segment.connectionIdentity = killed := by
    rw [hafter, get_insert, hkilled]
    exact if_pos rfl
  rw [hget] at hlane
  rw [emittedAfter, emitted, emitted, hemitted, List.drop_left]
  exact hlane

/-- **Gaps are forgotten.** After a gap, two runs with different pasts emit the same records for the
connection, if in neither a head without a length is met. -/
theorem gap_forgets_past (ext : Externals) (past past' rest : List Input) (gap : Input)
    (hgap : gap.segment.streamGap = true)
    (hcap : BelowCap ext (past ++ gap :: rest))
    (hcap' : BelowCap ext (past' ++ gap :: rest))
    (hclear : AllClear ext (past ++ gap :: rest))
    (hclear' : AllClear ext (past' ++ gap :: rest)) :
    lane gap.segment.connectionIdentity (emittedAfter ext (past ++ [gap]) rest) =
      lane gap.segment.connectionIdentity (emittedAfter ext (past' ++ [gap]) rest) := by
  rw [lane_emittedAfter_gap hgap hcap hclear, lane_emittedAfter_gap hgap hcap' hclear']

/-- Bytes are missing after this segment. -/
def gapOn : Input :=
  { segmentOn fd .inbound [] with
    segment := { (segmentOn fd .inbound []).segment with streamGap := true } }

theorem gap_forgets_half_request :
    AllClear httpOnly
        ([segmentOn 4 .inbound (ascii "GET / HTTP/1.1\r\n")] ++ gapOn 4 :: exchange 4) ∧
      lane (identityOn 4) (emittedAfter httpOnly
          ([segmentOn 4 .inbound (ascii "GET / HTTP/1.1\r\n")] ++ [gapOn 4]) (exchange 4)) =
        lane (identityOn 4) (emittedAfter httpOnly ([] ++ [gapOn 4]) (exchange 4)) := by
  have hclear : AllClear httpOnly
      ([segmentOn 4 .inbound (ascii "GET / HTTP/1.1\r\n")] ++ gapOn 4 :: exchange 4) := by
    rw [AllClear]
    decide +kernel
  have hclear' : AllClear httpOnly ([] ++ gapOn 4 :: exchange 4) := by
    rw [AllClear]
    decide +kernel
  refine ⟨hclear, gap_forgets_past httpOnly _ [] (exchange 4) (gapOn 4) rfl ?_ ?_ hclear hclear'⟩
  · rw [BelowCap]
    decide +kernel
  · rw [BelowCap]
    decide +kernel

/-- A request before the gap that is never done with is felt after the gap. -/
theorem endless_request_outlives_gap :
    lane (identityOn 4) (emittedAfter httpOnly ([endlessRequest 4] ++ [gapOn 4])
        (exchange 4)) = [] ∧
      (lane (identityOn 4) (emittedAfter httpOnly ([] ++ [gapOn 4]) (exchange 4))).length = 1 := by
  constructor <;> decide +kernel

end EdgePacer.L7
