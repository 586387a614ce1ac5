import EdgePacer.L7.Http2
import Mathlib.Data.List.Nodup

/-!
# HTTP/2 frames cut into segments

What the parser makes of two byte streams depends on the frames in them and on the order in which
the frames of the two directions are complete, not on the segments they arrive in
(`SameOrder.untimed`). A frame that announces more than `maxFramePayload` bytes is refused as
soon as its header is there, so it counts as complete with its header.

The blocks that the frames carry are logged by a sink of their own (`logSink`); the pairing is a
function of that log. `Pairing.origins_exist` traces every record to the blocks it was made from:
one request block and any number of response blocks of one stream, and no request block serves
twice.
-/

namespace EdgePacer.L7.Http2

open Lib List Pairing Framer FrameHeader PendingResponse

/-! ## Frames are recognised for good -/

variable {a : Bytes} (limit : Nat) (cx : Codec)

theorem FrameHeader.parse_append {header : FrameHeader} (h : parse a = some header)
    (b : Bytes) : parse (a ++ b) = some header := by
  match a, h with
  | _ :: _ :: _ :: _ :: _ :: _ :: _ :: _ :: _ :: _, h => exact h

theorem isPrefixOf_append (h : preface.length ≤ a.length) (b : Bytes) :
    preface.isPrefixOf (a ++ b) = preface.isPrefixOf a := by
  rw [Bool.eq_iff_iff, isPrefixOf_iff_prefix, isPrefixOf_iff_prefix]
  constructor
  · exact fun hab => prefix_of_prefix_length_le hab (prefix_append a b) h
  · exact fun ha => ha.trans (prefix_append a b)

variable (dir : Direction)

theorem front_eq_nextItem (stage : Stage) (buf : Bytes) :
    front (nextItem limit dir) stage buf = nextItem limit dir stage buf := by
  cases buf with
  | nil => cases stage <;> rfl
  | cons b buf => rfl

/-- What the front of a buffer holds: everything there is to know about `nextItem`. -/
theorem nextItem_append (stage : Stage) (a b : Bytes)
    (h : nextItem limit dir stage a ≠ .incomplete) :
    nextItem limit dir stage (a ++ b) = nextItem limit dir stage a := by
  cases stage with
  | preface =>
    rw [nextItem] at h
    split at h
    · exact absurd rfl h
    · rename_i hlen
      have hle := not_lt.1 hlen
      have hle' : ¬ (a ++ b).length < preface.length := by
        rw [length_append]
        omega
      rw [nextItem, nextItem, if_neg hlen, if_neg hle', isPrefixOf_append hle]
  | frames =>
    rw [nextItem] at h
    cases hparse : parse a with
    | none =>
      rw [hparse] at h
      exact absurd rfl h
    | some header =>
      rw [hparse] at h
      rw [nextItem, nextItem, hparse, parse_append hparse]
      dsimp only at h ⊢
      split
      · rfl
      · rename_i hlimit
        rw [if_neg hlimit] at h
        split at h
        · exact absurd rfl h
        · rename_i hlen
          have hle := not_lt.1 hlen
          have hle' : ¬ (a ++ b).length < frameHeaderLen + header.length := by
            rw [length_append]
            omega
          rw [if_neg hlen, if_neg hle', take_append_of_le_length hle]

theorem nextItem_pos {limit : Nat} {dir : Direction} {stage stage' : Stage} {buf : Bytes}
    {item : Item} {n : Nat} (h : nextItem limit dir stage buf = .complete item n stage') :
    0 < n := by
  cases stage with
  | preface =>
    rw [nextItem] at h
    split at h
    · cases h
    · split at h
      · cases h
      · cases h
        decide
  | frames =>
    rw [nextItem] at h
    split at h
    · cases h
    · split at h
      · cases h
      · dsimp only at h
        split at h
        · cases h
        · cases h
          exact Nat.add_pos_left (by decide) _

theorem framed : Framed (nextItem limit dir) fun _ _ => True where
  complete {_ _ a b _ _} _ hfront := by
    rw [front_eq_nextItem] at hfront ⊢
    rw [nextItem_append _ _ _ a b (by rw [hfront]; exact nofun), hfront]
  invalid {_ a b} _ hfront := by
    rw [front_eq_nextItem] at hfront ⊢
    rw [nextItem_append _ _ _ a b (by rw [hfront]; exact nofun), hfront]
  pos _ hfront := by
    rw [front_eq_nextItem] at hfront
    exact nextItem_pos hfront
  rest _ _ := trivial
  part _ := trivial

/-! ## Runs -/

/-- A captured segment: its direction, its bytes and when it was seen. -/
abbrev Segment := Lib.Piece Direction UInt8 Int64

/-- Feed segments to a fresh parser with some sink. -/
def runSink {π : Type} (cx : Codec) (sink : Sink π) (out : π) (segments : List Segment) :
    Option (Demux Direction Stage UInt8 (Core cx π)) :=
  segments.foldlM (framer cx sink).step (fresh startStage (newCore cx out))

/-- Feed segments to a fresh parser. -/
def run (cx : Codec) (segments : List Segment) : Option (Http2Parser cx) :=
  runSink cx (sink cx.lossy) .new segments

/-- The items of both directions in the order in which they are complete. -/
def items (limit : Nat) (segments : List Segment) : List (Direction × Option Item × Int64) :=
  events (nextItem limit) startStage (fun _ => []) segments

theorem runSink_eq {π : Type} (sink : Sink π) (out : π) (segments : List Segment) :
    ∃ p, runSink cx sink out segments = some p ∧
      p.core = (items maxFramePayload segments).foldl (framer cx sink).react (newCore cx out) := by
  obtain ⟨p, hrun, hcore, _⟩ := run_eq (F := framer cx sink)
    (fun dir => framed maxFramePayload dir) segments (fresh startStage (newCore cx out))
    (fun _ => []) (fun _ => trivial) (fun _ dir => congrArg Prod.snd (scan_nil (startStage dir)))
  exact ⟨p, hrun, hcore⟩

/-! ## Sinks in step -/

/-- One sink's results are images of another's, with the times changed. -/
structure Sink.Hom {π π' : Type} (f : π → π') (g : Int64 → Int64) (sink : Sink π)
    (sink' : Sink π') : Prop where
  onRequestHeaders : ∀ out s headers ts, f (sink.onRequestHeaders out s headers ts) =
    sink'.onRequestHeaders (f out) s headers (g ts)
  onResponseHeaders : ∀ out s e headers ts, f (sink.onResponseHeaders out s e headers ts) =
    sink'.onResponseHeaders (f out) s e headers (g ts)
  completeResponse : ∀ out s ts, f (sink.completeResponse out s ts) =
    sink'.completeResponse (f out) s (g ts)

section

variable {cx : Codec} {π π' : Type}

def Core.map (f : π → π') (c : Core cx π) : Core cx π' :=
  { reqHeaders := c.reqHeaders, respHeaders := c.respHeaders, dead := c.dead, out := f c.out }

variable {f : π → π'} {g : Int64 → Int64} {sink : Sink π} {sink' : Sink π'} (c : Core cx π)

theorem Core.asm_map : (c.map f).asm dir = c.asm dir := by
  cases dir <;> rfl

theorem Core.setAsm_map (asm : HeaderAssembly cx.State) :
    (c.setAsm dir asm).map f = (c.map f).setAsm dir asm := by
  cases dir <;> rfl

variable (h : sink.Hom f g sink') (ts : Int64)
include h

theorem Core.finishBlock_map (s : Nat) (e : Bool) (block : Bytes) :
    (c.finishBlock sink dir s e block ts).map f =
      (c.map f).finishBlock sink' dir s e block (g ts) := by
  rw [finishBlock, finishBlock, asm_map]
  cases decodeBlock cx (c.asm dir).decoder block with
  | none => rfl
  | some r =>
    cases dir with
    | inbound =>
      exact congrArg (fun out => (⟨⟨r.1, _⟩, _, _, out⟩ : Core cx π'))
        (h.onRequestHeaders c.out s r.2 ts)
    | outbound =>
      exact congrArg (fun out => (⟨_, ⟨r.1, _⟩, _, out⟩ : Core cx π'))
        (h.onResponseHeaders c.out s e r.2 ts)

theorem Core.handleFrame_map (header : FrameHeader) (payload : Bytes) :
    (c.handleFrame sink dir header payload ts).map f =
      (c.map f).handleFrame sink' dir header payload (g ts) := by
  rw [handleFrame, handleFrame]
  split
  · rw [onHeaders, onHeaders, asm_map]
    cases headerBlockFragment header.flags payload with
    | none => rfl
    | some fragment =>
      dsimp only
      split
      · rfl
      · split
        · exact c.finishBlock_map dir h ts ..
        · exact c.setAsm_map dir _
  · split
    · rw [onContinuation, onContinuation, asm_map]
      cases (c.asm dir).openBlock with
      | none => rfl
      | some block =>
        dsimp only
        split
        · rfl
        · split
          · rw [finishBlock_map dir _ h, setAsm_map]
          · exact c.setAsm_map dir _
    · split
      · exact congrArg (fun out => (⟨_, _, _, out⟩ : Core cx π'))
          (h.completeResponse c.out header.streamId ts)
      · rfl

theorem react_map (item : Option Item) :
    ((framer cx sink).react c (dir, item, ts)).map f =
      (framer cx sink').react (c.map f) (dir, item, g ts) := by
  rw [react, react]
  have hstop : (framer cx sink').stop (c.map f) = (framer cx sink).stop c := rfl
  rw [hstop]
  split
  · rfl
  · rcases item with - | - | ⟨header, payload⟩
    · rfl
    · rfl
    · exact c.handleFrame_map dir h ts header payload

/-- The results of a run are images, too. -/
theorem foldl_react_map (es : List (Direction × Option Item × Int64)) :
    (es.foldl (framer cx sink).react c).map f =
      (es.map fun e => (e.1, e.2.1, g e.2.2)).foldl (framer cx sink').react (c.map f) := by
  induction es generalizing c with
  | nil => rfl
  | cons e es ih => rw [foldl_cons, ih, react_map _ c h, map_cons, foldl_cons]

end

/-! ## Up to timing -/

def PendingRequest.untimed (req : PendingRequest) : PendingRequest :=
  { req with startUnixNano := 0 }

def Pairing.untimed (p : Pairing) : Pairing :=
  { pending := p.pending.map fun _ req => req.untimed
    responses := p.responses
    records := p.records.map L7Record.untimed }

variable (lossy : Bytes → String) (p : Pairing) (s : Nat) (headers : DecodedHeaders) (ts : Int64)

theorem requestOf_zero :
    requestOf lossy headers 0 = (requestOf lossy headers ts).map PendingRequest.untimed := by
  rw [requestOf, requestOf]
  split <;> rfl

theorem record_untimed (req : PendingRequest) (resp : PendingResponse) :
    (record req resp ts).untimed = record req.untimed resp 0 := by
  have hzero : latency 0 0 = 0 := by decide
  rw [record, record, L7Record.untimed]
  dsimp only [PendingRequest.untimed]
  rw [hzero]

theorem Pairing.completeResponse_untimed :
    (p.completeResponse s ts).untimed = p.untimed.completeResponse s 0 := by
  have hget : p.untimed.pending[s]? = p.pending[s]?.map PendingRequest.untimed :=
    Std.ExtTreeMap.getElem?_map
  rw [completeResponse, completeResponse, hget]
  cases p.pending[s]? with
  | none => rfl
  | some req =>
    have herase : (p.pending.erase s).map (fun _ req => req.untimed) =
        (p.pending.map fun _ req => req.untimed).erase s := by
      refine Std.ExtTreeMap.ext_getElem? fun k => ?_
      simp only [Std.ExtTreeMap.getElem?_map, Std.ExtTreeMap.getElem?_erase]
      split <;> rfl
    simp only [Option.map_some, untimed, map_append, map_cons, map_nil, record_untimed, herase]

theorem Pairing.onRequestHeaders_untimed :
    (p.onRequestHeaders lossy s headers ts).untimed =
      p.untimed.onRequestHeaders lossy s headers 0 := by
  rw [onRequestHeaders, onRequestHeaders, requestOf_zero lossy headers ts]
  cases requestOf lossy headers ts with
  | none => rfl
  | some req =>
    have hsize : p.untimed.pending.size = p.pending.size := Std.ExtTreeMap.size_map
    have hinsert : (p.pending.insert s req).map (fun _ req => req.untimed) =
        (p.pending.map fun _ req => req.untimed).insert s req.untimed := by
      refine Std.ExtTreeMap.ext_getElem? fun k => ?_
      simp only [Std.ExtTreeMap.getElem?_map, Std.ExtTreeMap.getElem?_insert]
      split <;> rfl
    simp only [Option.map_some, hsize]
    split
    · simp only [untimed, hinsert]
    · rfl

theorem Pairing.onResponseHeaders_untimed (e : Bool) :
    (p.onResponseHeaders s e headers ts).untimed = p.untimed.onResponseHeaders s e headers 0 := by
  have hresponses : p.untimed.responses = p.responses := rfl
  rw [onResponseHeaders, onResponseHeaders, hresponses]
  split
  · rfl
  · split
    · exact completeResponse_untimed _ s ts
    · rfl

theorem Pairing.hom_untimed : (sink lossy).Hom untimed (fun _ => 0) (sink lossy) where
  onRequestHeaders := onRequestHeaders_untimed lossy
  onResponseHeaders p s e headers ts := onResponseHeaders_untimed p s headers ts e
  completeResponse := completeResponse_untimed

/-! ## The order of completions -/

/-- The preface is no frame. -/
def counts (item : Option Item × Int64) : Bool := item.1 != some .preface

/-- The frames of both directions in the order in which they are complete. -/
def frames (limit : Nat) (segments : List Segment) : List (Direction × Option Item × Int64) :=
  (items limit segments).filter fun e => counts e.2

/-- In which order frames of the two directions are complete. -/
def completions (limit : Nat) (segments : List Segment) : List Direction :=
  (frames limit segments).map Prod.fst

/-- When frames are complete. -/
def completionTimes (limit : Nat) (segments : List Segment) : List Int64 :=
  (frames limit segments).map fun e => e.2.2

/-- Two segmentations of the same streams in which the frames are complete in the same order. -/
structure SameOrder (limit : Nat) (segments segments' : List Segment) : Prop where
  bytes : ∀ dir, laneBytes dir segments = laneBytes dir segments'
  order : completions limit segments = completions limit segments'

theorem lane_items (segments : List Segment) :
    (lane dir (items limit segments)).map Prod.fst =
      (scan (nextItem limit dir) (startStage dir) (laneBytes dir segments)).1 := by
  have harrivals := map_fst_arrivals (framed limit dir) (startStage dir) (lane dir segments) []
    trivial
  rw [scan_nil, nil_append] at harrivals
  rw [items, lane_events, harrivals]
  rfl

variable {segments segments' : List Segment}

/-- The same frames are complete in the same order. -/
theorem SameOrder.frames_eq {limit : Nat}
    (h : SameOrder limit segments segments') :
    (frames limit segments).map (fun e => (e.1, e.2.1)) =
      (frames limit segments').map fun e => (e.1, e.2.1) := by
  refine eq_of_lanes ?_ fun dir => ?_
  · rw [map_map, map_map]
    exact h.order
  · have hframes : ∀ segments, lane dir ((frames limit segments).map fun e => (e.1, e.2.1)) =
        (scan (nextItem limit dir) (startStage dir) (laneBytes dir segments)).1.filter
          fun item => item != some .preface := by
      intro segments
      rw [lane_map dir Prod.fst, frames, lane_filter, ← lane_items, filter_map]
      rfl
    rw [hframes, hframes, h.bytes]

section

variable {cx : Codec} {π : Type} {sink : Sink π}

theorem react_of_not_counts (c : Core cx π) {e : Direction × Option Item × Int64}
    (h : counts e.2 = false) : (framer cx sink).react c e = c := by
  have hitem : e.2.1 = some .preface := by simpa [counts] using h
  rw [react, hitem]
  split <;> rfl

theorem foldl_react_frames (es : List (Direction × Option Item × Int64)) (c : Core cx π) :
    es.foldl (framer cx sink).react c =
      (es.filter fun e => counts e.2).foldl (framer cx sink).react c := by
  induction es generalizing c with
  | nil => rfl
  | cons e es ih =>
    rw [foldl_cons, filter_cons]
    split
    · rw [foldl_cons, ih]
    · rename_i h
      rw [react_of_not_counts c (Bool.eq_false_iff.2 h), ih]

end

/-- What the parser makes of the segments is made of their frames. -/
theorem core_of_run {p : Http2Parser cx} (hp : run cx segments = some p) :
    p.core = (frames maxFramePayload segments).foldl (framer cx (sink cx.lossy)).react
      (newCore cx .new) := by
  obtain ⟨q, hq, hcore⟩ := runSink_eq cx (sink cx.lossy) .new segments
  cases hp.symm.trans hq
  rw [hcore, foldl_react_frames]
  rfl

section

variable (h : SameOrder maxFramePayload segments segments') {p p' : Http2Parser cx}
  (hp : run cx segments = some p) (hp' : run cx segments' = some p')
include h hp hp'

theorem SameOrder.untimed : p.core.map untimed = p'.core.map untimed := by
  have hzero : (frames maxFramePayload segments).map (fun e => (e.1, e.2.1, (0 : Int64))) =
      (frames maxFramePayload segments').map fun e => (e.1, e.2.1, (0 : Int64)) := by
    have heq := congrArg (map fun e : Direction × Option Item => (e.1, e.2, (0 : Int64)))
      h.frames_eq
    rw [map_map, map_map] at heq
    exact heq
  rw [core_of_run cx hp, core_of_run cx hp', foldl_react_map _ (hom_untimed cx.lossy),
    foldl_react_map _ (hom_untimed cx.lossy)]
  exact congrArg (foldl _ _) hzero

/-- The same order and the same times of completions give the same state of the parser. -/
theorem SameOrder.core_eq
    (htimes : completionTimes maxFramePayload segments =
      completionTimes maxFramePayload segments') : p.core = p'.core := by
  have hframes : frames maxFramePayload segments = frames maxFramePayload segments' := by
    have hzip := congrArg₂ zip h.frames_eq htimes
    rw [completionTimes, completionTimes, zip_map', zip_map'] at hzip
    refine map_injective_iff.2 ?_ hzip
    rintro ⟨d, i, t⟩ ⟨d', i', t'⟩ heq
    cases heq
    rfl
  rw [core_of_run cx hp, core_of_run cx hp', hframes]

end

/-! ## Where records come from -/

/-- What the frames carry: decoded header blocks, and ends of response streams. -/
inductive Block where
  | request (streamId : Nat) (headers : DecodedHeaders) (ts : Int64)
  | response (streamId : Nat) (endStream : Bool) (headers : DecodedHeaders) (ts : Int64)
  | finish (streamId : Nat) (ts : Int64)

/-- The sink that only takes down what it is given. -/
def logSink : Sink (List Block) where
  onRequestHeaders log s headers ts := log ++ [.request s headers ts]
  onResponseHeaders log s e headers ts := log ++ [.response s e headers ts]
  completeResponse log s ts := log ++ [.finish s ts]

def Pairing.take (lossy : Bytes → String) (p : Pairing) : Block → Pairing
  | .request s headers ts => p.onRequestHeaders lossy s headers ts
  | .response s e headers ts => p.onResponseHeaders s e headers ts
  | .finish s ts => p.completeResponse s ts

/-- What the pairing makes of a log. -/
def Pairing.ofLog (lossy : Bytes → String) (log : List Block) : Pairing :=
  log.foldl (take lossy) .new

theorem Pairing.hom_ofLog : logSink.Hom (ofLog lossy) id (sink lossy) where
  onRequestHeaders _ _ _ _ := foldl_append
  onResponseHeaders _ _ _ _ _ := foldl_append
  completeResponse _ _ _ := foldl_append

/-- The blocks a record was made from, by their places in the log. -/
structure Origin where
  (streamId request : Nat)
  responses : List Nat

/-- The block ends the response on stream `s` at time `ts`. -/
def Block.Ends (s : Nat) (ts : Int64) (block : Block) : Prop :=
  block = .finish s ts ∨ ∃ headers, block = .response s true headers ts

/-- Response blocks of stream `s` at the places `js`, with these headers. -/
def ResponsesAt (log : List Block) (s : Nat) (js : List Nat) (parts : List DecodedHeaders) : Prop :=
  Forall₂ (fun j headers => ∃ e ts, log[j]? = some (.response s e headers ts)) js parts

/-- The record combines the request block and the response blocks of the origin, which are all on
the origin's stream. -/
def Origin.Explains (lossy : Bytes → String) (log : List Block) (o : Origin) (r : L7Record) :
    Prop :=
  ∃ headers start req parts, ∃ last ∈ log, ∃ ts,
    log[o.request]? = some (.request o.streamId headers start) ∧
    requestOf lossy headers start = some req ∧
    ResponsesAt log o.streamId o.responses parts ∧
    last.Ends o.streamId ts ∧
    r = record req (parts.flatten.foldl note ⟨none, none⟩) ts

/-- What is known of every state the pairing reaches. -/
structure Pairing.Traced (lossy : Bytes → String) (log : List Block) (p : Pairing)
    (origins : List Origin) : Prop where
  pending : ∀ s req, p.pending[s]? = some req → ∃ i headers start,
    log[i]? = some (.request s headers start) ∧ requestOf lossy headers start = some req ∧
      i ∉ origins.map Origin.request
  responses : ∀ s resp, p.responses[s]? = some resp → ∃ js parts,
    ResponsesAt log s js parts ∧ resp = parts.flatten.foldl note ⟨none, none⟩
  records : Forall₂ (Origin.Explains lossy log) origins p.records
  nodup : (origins.map Origin.request).Nodup

section

variable {lossy : Bytes → String} {log : List Block} {p : Pairing} {origins : List Origin}

theorem getElem?_concat_of_some {j : Nat} {block : Block} (h : log[j]? = some block)
    (next : Block) : (log ++ [next])[j]? = some block := by
  rw [List.getElem?_append_left (List.getElem?_eq_some_iff.1 h).1, h]

theorem ResponsesAt.concat {s : Nat} {js : List Nat} {parts : List DecodedHeaders}
    (h : ResponsesAt log s js parts) (next : Block) : ResponsesAt (log ++ [next]) s js parts :=
  Forall₂.imp (fun _ _ ⟨e, ts, hj⟩ => ⟨e, ts, getElem?_concat_of_some hj next⟩) h

theorem Origin.Explains.concat {o : Origin} {r : L7Record} (h : o.Explains lossy log r)
    (next : Block) : o.Explains lossy (log ++ [next]) r := by
  obtain ⟨headers, start, req, parts, last, hlast, ts, hreq, hof, hparts, hends, hr⟩ := h
  exact ⟨headers, start, req, parts, last, mem_append_left _ hlast, ts,
    getElem?_concat_of_some hreq next, hof, hparts.concat next, hends, hr⟩

variable (h : p.Traced lossy log origins)

include h

theorem Pairing.Traced.concat (next : Block) : p.Traced lossy (log ++ [next]) origins where
  pending s req hs := by
    obtain ⟨i, headers, start, hi, hof, hnew⟩ := h.pending s req hs
    exact ⟨i, headers, start, getElem?_concat_of_some hi next, hof, hnew⟩
  responses s resp hs := by
    obtain ⟨js, parts, hparts, hresp⟩ := h.responses s resp hs
    exact ⟨js, parts, hparts.concat next, hresp⟩
  records := h.records.imp fun _ _ ho => ho.concat next
  nodup := h.nodup

theorem Pairing.Traced.request_lt {i : Nat} (hi : i ∈ origins.map Origin.request) :
    i < log.length := by
  obtain ⟨o, ho, rfl⟩ := mem_map.1 hi
  have hexplained : ∀ o ∈ origins, ∃ r, o.Explains lossy log r := by
    have hrecords := h.records
    generalize p.records = records at hrecords
    clear hi h ho
    induction hrecords with
    | nil => exact forall_mem_nil _
    | cons ho _ ih =>
      intro o' ho'
      rcases mem_cons.1 ho' with rfl | hrest
      · exact ⟨_, ho⟩
      · exact ih o' hrest
  obtain ⟨r, headers, start, req, parts, last, hlast, ts, hreq, _⟩ := hexplained o ho
  exact (List.getElem?_eq_some_iff.1 hreq).1

/-- A request block that opens a stream. -/
theorem Pairing.Traced.request (s : Nat) (headers : DecodedHeaders) (ts : Int64) :
    (p.onRequestHeaders lossy s headers ts).Traced lossy (log ++ [.request s headers ts])
      origins := by
  have hconcat := h.concat (.request s headers ts)
  rw [onRequestHeaders]
  cases hof : requestOf lossy headers ts with
  | none => exact hconcat
  | some req =>
    dsimp only
    split
    · refine ⟨fun s' req' hs' => ?_, hconcat.responses, hconcat.records, hconcat.nodup⟩
      rw [Std.ExtTreeMap.getElem?_insert] at hs'
      split at hs'
      · -- the stream opened now: its request block is the last in the log
        rename_i hs
        rw [Std.compare_eq_iff_eq] at hs
        cases hs'
        refine ⟨log.length, headers, ts, ?_, hof, fun hmem => ?_⟩
        · rw [List.getElem?_concat_length, hs]
        · exact lt_irrefl _ (h.request_lt hmem)
      · exact hconcat.pending s' req' hs'
    · exact hconcat

/-- The end of a response. -/
theorem Pairing.Traced.complete {s : Nat} {ts : Int64} {last : Block} (hlast : last ∈ log)
    (hends : last.Ends s ts) : ∃ origins', (p.completeResponse s ts).Traced lossy log origins' := by
  have hresponses : ∀ s' resp, (p.responses.erase s)[s']? = some resp → ∃ js parts,
      ResponsesAt log s' js parts ∧ resp = parts.flatten.foldl note ⟨none, none⟩ := by
    intro s' resp hs'
    rw [Std.ExtTreeMap.getElem?_erase] at hs'
    split at hs'
    · cases hs'
    · exact h.responses s' resp hs'
  rw [completeResponse]
  cases hpending : p.pending[s]? with
  | none => exact ⟨origins, h.pending, hresponses, h.records, h.nodup⟩
  | some req =>
    obtain ⟨i, headers, start, hi, hof, hnew⟩ := h.pending s req hpending
    have hparts : ∃ js parts, ResponsesAt log s js parts ∧
        p.responses[s]?.getD ⟨none, none⟩ = parts.flatten.foldl note ⟨none, none⟩ := by
      cases hresp : p.responses[s]? with
      | none => exact ⟨[], [], .nil, rfl⟩
      | some resp => exact h.responses s resp hresp
    obtain ⟨js, parts, hjs, hfold⟩ := hparts
    refine ⟨origins ++ [⟨s, i, js⟩], fun s' req' hs' => ?_, hresponses, ?_, ?_⟩
    · rw [Std.ExtTreeMap.getElem?_erase] at hs'
      split at hs'
      · cases hs'
      · rename_i hne
        obtain ⟨i', headers', start', hi', hof', hnew'⟩ := h.pending s' req' hs'
        refine ⟨i', headers', start', hi', hof', fun hmem => ?_⟩
        rw [map_append, mem_append] at hmem
        rcases hmem with hold | hlast
        · exact hnew' hold
        · -- two streams do not share a request block
          have heq : i' = i := mem_singleton.1 hlast
          rw [heq, hi] at hi'
          cases hi'
          exact hne (Std.compare_eq_iff_eq.2 rfl)
    · refine rel_append h.records (.cons ?_ .nil)
      exact ⟨headers, start, req, parts, last, hlast, ts, hi, hof, hjs, hends, by rw [hfold]⟩
    · rw [map_append, nodup_append]
      refine ⟨h.nodup, nodup_singleton _, fun a ha b hb => ?_⟩
      have hbi : b = i := mem_singleton.1 hb
      rintro rfl
      exact hnew (hbi ▸ ha)

/-- A response block. -/
theorem Pairing.Traced.response (s : Nat) (e : Bool) (headers : DecodedHeaders) (ts : Int64) :
    ∃ origins', (p.onResponseHeaders s e headers ts).Traced lossy
      (log ++ [.response s e headers ts]) origins' := by
  have hconcat := h.concat (.response s e headers ts)
  have hhere : (log ++ [Block.response s e headers ts])[log.length]? =
      some (.response s e headers ts) := List.getElem?_concat_length
  rw [onResponseHeaders]
  split
  · exact ⟨origins, hconcat⟩
  · have hnoted : ({ p with responses := p.responses.insert s (headers.foldl note
        (p.responses[s]?.getD ⟨none, none⟩)) } : Pairing).Traced lossy
          (log ++ [.response s e headers ts]) origins := by
      refine ⟨hconcat.pending, fun s' resp hs' => ?_, hconcat.records, hconcat.nodup⟩
      rw [Std.ExtTreeMap.getElem?_insert] at hs'
      split at hs'
      · rename_i hs
        rw [Std.compare_eq_iff_eq] at hs
        subst hs
        cases hs'
        cases hresp : p.responses[s]? with
        | none =>
          refine ⟨[log.length], [headers], .cons ⟨e, ts, hhere⟩ .nil, ?_⟩
          simp only [Option.getD_none, flatten_cons, flatten_nil, append_nil]
        | some resp =>
          obtain ⟨js, parts, hjs, hfold⟩ := hconcat.responses s resp hresp
          refine ⟨js ++ [log.length], parts ++ [headers],
            rel_append hjs (.cons ⟨e, ts, hhere⟩ .nil), ?_⟩
          rw [Option.getD_some, hfold, flatten_append, foldl_append]
          simp only [flatten_cons, flatten_nil, append_nil]
      · exact hconcat.responses s' resp hs'
    split
    · rename_i he
      subst he
      exact hnoted.complete (mem_append_right _ (mem_singleton.2 rfl)) (.inr ⟨headers, rfl⟩)
    · exact ⟨origins, hnoted⟩

theorem Pairing.Traced.take (block : Block) :
    ∃ origins', (p.take lossy block).Traced lossy (log ++ [block]) origins' := by
  cases block with
  | request s headers ts => exact ⟨origins, h.request s headers ts⟩
  | response s e headers ts => exact h.response s e headers ts
  | finish s ts =>
    exact (h.concat (.finish s ts)).complete (mem_append_right _ (mem_singleton.2 rfl)) (.inl rfl)

omit h

/-- **Every record has an origin on one stream**, and no request block serves two records. -/
theorem Pairing.origins_exist (lossy : Bytes → String) (log : List Block) :
    ∃ origins, Forall₂ (Origin.Explains lossy log) origins (ofLog lossy log).records ∧
      (origins.map Origin.request).Nodup := by
  have htraced : ∀ (rest seen : List Block) (p : Pairing) (origins : List Origin),
      p.Traced lossy seen origins →
        ∃ origins', (rest.foldl (take lossy) p).Traced lossy (seen ++ rest) origins' := by
    intro rest
    induction rest with
    | nil =>
      intro seen p origins h
      rw [append_nil]
      exact ⟨origins, h⟩
    | cons block rest ih =>
      intro seen p origins h
      obtain ⟨origins', h'⟩ := h.take block
      rw [← singleton_append, ← append_assoc]
      exact ih _ _ _ h'
  have hnew : new.Traced lossy [] [] := by
    refine ⟨fun s req hs => ?_, fun s resp hs => ?_, .nil, nodup_nil⟩
    · cases hs
    · cases hs
  obtain ⟨origins, h⟩ := htraced log [] .new [] hnew
  exact ⟨origins, h.records, h.nodup⟩

end

/-! ## Segments do not matter -/

/-- **Frames may be cut anywhere.** Two segmentations of the same byte streams in which frames are
complete in the same order give the same records, up to the times at which frames were complete;
every record combines the headers of one stream; and no request serves two records. -/
theorem frames_cut_anywhere (cx : Codec) (segments segments' : List Segment)
    (h : SameOrder maxFramePayload segments segments') :
    ∃ p p' q, run cx segments = some p ∧ run cx segments' = some p' ∧
      p.isDead = p'.isDead ∧
      p.core.out.records.map L7Record.untimed = p'.core.out.records.map L7Record.untimed ∧
      (completionTimes maxFramePayload segments = completionTimes maxFramePayload segments' →
        p.core.out.records = p'.core.out.records) ∧
      runSink cx logSink [] segments = some q ∧
      ∃ origins, Forall₂ (Origin.Explains cx.lossy q.core.out) origins p.core.out.records ∧
        (origins.map Origin.request).Nodup := by
  obtain ⟨p, hp, hcore⟩ := runSink_eq cx (sink cx.lossy) .new segments
  obtain ⟨p', hp', _⟩ := runSink_eq cx (sink cx.lossy) .new segments'
  obtain ⟨q, hq, hlog⟩ := runSink_eq cx logSink [] segments
  have huntimed := h.untimed cx hp hp'
  have hout : p.core.out = ofLog cx.lossy q.core.out := by
    have hmap := foldl_react_map (newCore cx []) (hom_ofLog cx.lossy)
      (items maxFramePayload segments)
    rw [← hlog] at hmap
    have hid : (items maxFramePayload segments).map (fun e => (e.1, e.2.1, id e.2.2)) =
        items maxFramePayload segments := map_id _
    rw [hid] at hmap
    rw [hcore]
    exact (congrArg Core.out hmap).symm
  obtain ⟨origins, horigins, hnodup⟩ := origins_exist cx.lossy q.core.out
  refine ⟨p, p', q, hp, hp', congrArg (fun c => c.dead) huntimed, ?_, fun htimes => ?_, hq, origins,
    ?_, hnodup⟩
  · exact congrArg (fun c => c.out.records) huntimed
  · exact congrArg (fun c => c.out.records) (h.core_eq cx hp hp' htimes)
  · rw [hout]
    exact horigins

/-- The three fields of the static table that the streams below use. -/
def staticCodec : Codec where
  State := Unit
  fresh := ()
  decode _ buf :=
    match buf with
    | 0x82 :: _ => some ((), 1, [(ascii ":method", ascii "GET")])
    | 0x84 :: _ => some ((), 1, [(ascii ":path", ascii "/")])
    | 0x88 :: _ => some ((), 1, [(ascii ":status", ascii "200")])
    | _ => none
  lossy bytes := (fromUtf8 bytes).getD ""

/-- HEADERS on stream 1, with END_STREAM and END_HEADERS. -/
def getFrame : Bytes := [0, 0, 2, 1, 5, 0, 0, 0, 1, 0x82, 0x84]

def okFrame : Bytes := [0, 0, 1, 1, 5, 0, 0, 0, 1, 0x88]

/-- The header of a frame with one byte more than `maxFramePayload`. -/
def oversizeHeader : Bytes := [0x10, 0, 1, 0, 0, 0, 0, 0, 1]

/-- A request and its response, each in one segment. -/
def wholeSegments : List Segment := [(.inbound, preface ++ getFrame, 1), (.outbound, okFrame, 2)]

/-- The same in pieces: cuts in the preface, in a frame header and in a payload. -/
def cutSegments : List Segment :=
  [(.inbound, preface.take 10, 0), (.inbound, preface.drop 10 ++ getFrame.take 4, 0),
    (.outbound, okFrame.take 9, 1), (.inbound, getFrame.drop 4, 1), (.outbound, okFrame.drop 9, 2)]

/-- The header of an oversize frame before the response. -/
def oversizeFirst : List Segment :=
  [(.inbound, preface ++ getFrame, 1), (.inbound, oversizeHeader, 2), (.outbound, okFrame, 3)]

/-- The header of an oversize frame after the response. -/
def oversizeLast : List Segment :=
  [(.inbound, preface ++ getFrame, 1), (.outbound, okFrame, 3), (.inbound, oversizeHeader, 4)]

theorem sameOrder_cutSegments : SameOrder maxFramePayload wholeSegments cutSegments where
  bytes dir := by cases dir <;> decide +kernel
  order := by decide +kernel

theorem get_cut_anywhere :
    SameOrder maxFramePayload wholeSegments cutSegments ∧
      ∃ p p', run staticCodec wholeSegments = some p ∧ run staticCodec cutSegments = some p' ∧
        p.core.out.records.map L7Record.untimed = p'.core.out.records.map L7Record.untimed := by
  obtain ⟨p, p', _, hp, hp', _, hrecords, _⟩ :=
    frames_cut_anywhere staticCodec wholeSegments cutSegments sameOrder_cutSegments
  exact ⟨sameOrder_cutSegments, p, p', hp, hp', hrecords⟩

/-- The parser gives up at the header of an oversize frame. Whether that header arrives before or
after the response makes a difference, although the frame is complete in neither case and the
frames that are complete are the same, in the same order. -/
theorem oversize_header_decides :
    (∀ dir, laneBytes dir oversizeFirst = laneBytes dir oversizeLast) ∧
      completions (2 ^ 24) oversizeFirst = completions (2 ^ 24) oversizeLast ∧
      (run staticCodec oversizeFirst).map (fun p => p.core.out.records.length) = some 0 ∧
      (run staticCodec oversizeLast).map (fun p => p.core.out.records.length) = some 1 := by
  refine ⟨?_, by decide +kernel, by decide +kernel, by decide +kernel⟩
  intro dir
  cases dir <;> decide +kernel

end EdgePacer.L7.Http2
