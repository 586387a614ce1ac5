import EdgePacer.L7.Isolation

/-!
# What a peer can make the HTTP parsers do

The reassembly loop of HTTP/1 returns when every message it meets has a length. The length of a
message is a machine word, so this asks that head and `Content-Length` together stay below `2 ^ 64`
(`drains_iff_fits`). The HTTP/2 parser keeps the parts of a header block until its last frame is
there, however many CONTINUATION frames that takes: what it holds is bounded by what they bring
(`held_le_of_received`) and by nothing else.
-/

namespace EdgePacer.L7

open Lib List Framer Reassembly

namespace Http1

/-! ## Calls of the HTTP/1 loop -/

section

variable (hp : Httparse)

/-- The length and the headers of the head at the front of a buffer. -/
def headOf (dir : Direction) (buf : Bytes) : Option (Nat × List Header) :=
  match dir with
  | .inbound =>
      match hp.request buf with
      | .complete headLen req => some (headLen, req.headers)
      | _ => none
  | .outbound =>
      match hp.response buf with
      | .complete headLen resp => resp.code.map fun _ => (headLen, resp.headers)
      | _ => none

/-- A buffer in which a call looks for a message. -/
def Met (parser : Http1Parser) (dir : Direction) (bytes buf : Bytes) : Prop :=
  let ahead := ((parser.lanes dir).buf ++ bytes).drop (parser.lanes dir).skip
  parser.core.dead = false ∧ buf ≠ [] ∧
    ∃ n, At ((framer hp).next dir) () ahead n () ∧ buf = ahead.drop n

/-- The call returns, and every message it meets takes at least one byte: as many as its head and
its body have. -/
def Drains (parser : Http1Parser) (dir : Direction) (bytes : Bytes) (ts : Int64) : Prop :=
  (parser.onBytes hp dir bytes ts).isSome ∧
    ∀ buf, Met hp parser dir bytes buf → ∀ n headers, headOf hp dir buf = some (n, headers) →
      0 < totalLen n headers ∧ totalLen n headers = n + contentLength headers

variable {hp}

theorem headOf_of_next {dir : Direction} {buf : Bytes} {head : Head} {m : Nat}
    (h : (framer hp).next dir () buf = .complete head m ()) :
    ∃ n headers, headOf hp dir buf = some (n, headers) ∧ m = totalLen n headers := by
  cases dir with
  | inbound =>
    simp only [framer, parseRequest] at h
    cases hreq : hp.request buf with
    | complete n req =>
      rw [hreq] at h
      cases h
      exact ⟨n, req.headers, by rw [headOf, hreq], rfl⟩
    | incomplete | error => simp [hreq, Outcome.map] at h
  | outbound =>
    simp only [framer, parseResponse] at h
    cases hresp : hp.response buf with
    | complete n resp =>
      cases hcode : resp.code with
      | none => simp [hresp, hcode, Outcome.map] at h
      | some code =>
        simp only [hresp, hcode] at h
        cases h
        exact ⟨n, resp.headers, by simp [headOf, hresp, hcode], rfl⟩
    | incomplete | error => simp [hresp, Outcome.map] at h

/-- **A call of the loop is sound just when no length wraps**: head and body of every message it
meets are together shorter than `2 ^ 64` bytes. A head is taken to have a length. -/
theorem drains_iff_fits
    (hpos : ∀ dir buf n headers, headOf hp dir buf = some (n, headers) → 0 < n)
    (parser : Http1Parser) (dir : Direction) (bytes : Bytes) (ts : Int64) :
    Drains hp parser dir bytes ts ↔ ∀ buf, Met hp parser dir bytes buf →
      ∀ n headers, headOf hp dir buf = some (n, headers) → n + contentLength headers < 2 ^ 64 := by
  constructor
  · -- the length is a remainder: where it is the sum, the sum has not wrapped
    rintro ⟨_, hmet⟩ buf hbuf n headers hhead
    rw [← (hmet buf hbuf n headers hhead).2]
    exact Nat.mod_lt _ (by decide)
  · intro hfits
    have hlen : ∀ buf, Met hp parser dir bytes buf → ∀ n headers,
        headOf hp dir buf = some (n, headers) →
        0 < totalLen n headers ∧ totalLen n headers = n + contentLength headers := by
      intro buf hbuf n headers hhead
      have heq : totalLen n headers = n + contentLength headers :=
        Nat.mod_eq_of_lt (hfits buf hbuf n headers hhead)
      have hn := hpos dir buf n headers hhead
      exact ⟨by omega, heq⟩
    refine ⟨?_, hlen⟩
    by_cases hdead : parser.core.dead = true
    · rw [Http1Parser.onBytes, step]
      exact (if_pos hdead).symm ▸ rfl
    · apply step_isSome
      intro n k hat head m l hfront
      rw [front] at hfront
      split at hfront
      · cases hfront
      · rename_i hne
        obtain ⟨headLen, headers, hhead, rfl⟩ := headOf_of_next hfront
        exact (hlen _ ⟨Bool.eq_false_iff.2 hdead, by simpa using hne, n, hat, rfl⟩ _ _ hhead).1

end

theorem headOf_tableHttparse_pos (dir : Direction) (buf : Bytes) (n : Nat) (headers : List Header)
    (h : headOf tableHttparse dir buf = some (n, headers)) : 0 < n := by
  have hreq : ∀ e ∈ requestHeads, 0 < e.1.length := by decide
  have hresp : ∀ e ∈ responseHeads, 0 < e.1.length := by decide
  cases dir with
  | inbound =>
    cases hbuf : answer requestHeads buf with
    | complete m req =>
      obtain ⟨e, he, rfl⟩ := mem_of_answer hbuf
      simp only [headOf, tableHttparse, hbuf, Option.some.injEq, Prod.mk.injEq] at h
      exact h.1 ▸ hreq e he
    | incomplete | error => simp [headOf, tableHttparse, hbuf] at h
  | outbound =>
    cases hbuf : answer responseHeads buf with
    | complete m resp =>
      obtain ⟨e, he, rfl⟩ := mem_of_answer hbuf
      simp only [headOf, tableHttparse, hbuf, Option.map_eq_some_iff, Prod.mk.injEq] at h
      obtain ⟨_, _, hlen, _⟩ := h
      exact hlen ▸ hresp e he
    | incomplete | error => simp [headOf, tableHttparse, hbuf] at h

/-- A request without a body, on a new connection. -/
theorem drains_request :
    Drains tableHttparse Http1Parser.new .inbound (ascii "GET / HTTP/1.1\r\n\r\n") 0 := by
  refine (drains_iff_fits headOf_tableHttparse_pos ..).2 ?_
  rintro buf ⟨_, hne, n, hat, rfl⟩ headLen headers hhead
  cases hat with
  | start =>
    have hreq : headOf tableHttparse .inbound (ascii "GET / HTTP/1.1\r\n\r\n") =
        some (18, []) := by rfl
    cases hreq.symm.trans hhead
    decide +kernel
  | unit hfront _ _ =>
    -- the request is all there is
    have hlen : front ((framer tableHttparse).next .inbound) () (ascii "GET / HTTP/1.1\r\n\r\n") =
        .complete (.request ⟨"GET", "/", "", none⟩) 18 () := by rfl
    cases hlen.symm.trans hfront
    exact absurd (List.drop_of_length_le (by show 18 ≤ 18 + _; omega)) hne

/-- A request whose head and body make `2 ^ 64` bytes takes none of them: the call does not
return. -/
theorem endless_request_does_not_drain :
    ¬ Drains tableHttparse Http1Parser.new .inbound
      (ascii "GET / HTTP/1.1\r\nContent-Length: 18446744073709551560\r\n\r\n") 0 := by
  intro h
  have hnone : Http1Parser.new.onBytes tableHttparse .inbound
      (ascii "GET / HTTP/1.1\r\nContent-Length: 18446744073709551560\r\n\r\n") 0 = none := by
    decide +kernel
  rw [Drains, hnone] at h
  cases h.1

end Http1

namespace Http2

/-! ## Open header blocks of HTTP/2 -/

/-- The header bytes kept for a block that is not finished. -/
def Core.held {cx : Codec} {π : Type} (c : Core cx π) (dir : Direction) : Nat :=
  match (c.asm dir).openBlock with
  | none => 0
  | some block => block.fragment.length

/-- Adds a frame to the octets counted for the latest header block of a direction. -/
def receive (dir : Direction) (n : Nat) (e : Direction × Option Item × Int64) : Nat :=
  match e.2.1 with
  | some (.frame header payload) =>
      if e.1 ≠ dir then n
      else if header.kind = 0x1 then payload.length
      else if header.kind = 0x9 then n + payload.length
      else n
  | _ => n

/-- The octets in the last HEADERS frame of a direction and the CONTINUATION frames after it. -/
def received (dir : Direction) (es : List (Direction × Option Item × Int64)) : Nat :=
  es.foldl (receive dir) 0

section

variable {cx : Codec} {π : Type} (sink : Sink π) (c : Core cx π) (dir d : Direction)
  (header : FrameHeader) (payload : Bytes) (ts : Int64)

@[simp] theorem Core.held_kill : c.kill.held d = c.held d := by cases d <;> rfl

theorem Core.asm_setAsm (asm : HeaderAssembly cx.State) :
    (c.setAsm dir asm).asm d = if d = dir then asm else c.asm d := by
  cases d <;> cases dir <;> rfl

@[simp] theorem Core.held_finishBlock (s : Nat) (e : Bool) (block : Bytes) :
    (c.finishBlock sink dir s e block ts).held d = c.held d := by
  rw [finishBlock]
  split
  · simp
  · cases d <;> cases dir <;> rfl

theorem length_headerBlockFragment {flags : UInt8} {fragment : Bytes}
    (h : headerBlockFragment flags payload = some fragment) : fragment.length ≤ payload.length := by
  unfold headerBlockFragment at h
  grind

/-- A HEADERS frame is fatal, or its own bytes are all that is held in its direction. -/
theorem Core.held_onHeaders (c' : Core cx π) (h : c' = c.onHeaders sink dir header payload ts) :
    (c'.dead = true ∨ d ≠ dir) ∧ c'.held d ≤ c.held d ∨ d = dir ∧ c'.held d ≤ payload.length := by
  rw [onHeaders] at h
  split at h
  · subst h
    exact .inl ⟨.inl rfl, by simp⟩
  · rename_i fragment hfragment
    have hlen := length_headerBlockFragment payload hfragment
    split at h
    · subst h
      exact .inl ⟨.inl rfl, by simp⟩
    · by_cases hd : d = dir
      · refine .inr ⟨hd, ?_⟩
        subst h hd
        split
        · rw [held_finishBlock]
          simp_all [held]
        · simpa [held, asm_setAsm] using hlen
      · refine .inl ⟨.inr hd, ?_⟩
        subst h
        split
        · simp
        · simp [held, asm_setAsm, hd]

theorem Core.held_onContinuation :
    (c.onContinuation sink dir header payload ts).held d ≤
      c.held d + if d = dir then payload.length else 0 := by
  rw [onContinuation]
  split
  · simp
  · rename_i block hblock
    split
    · simp
    · by_cases hd : d = dir
      · subst hd
        split
        · rw [held_finishBlock]
          simp [held, asm_setAsm]
        · simp [held, asm_setAsm, hblock]
      · split
        · rw [held_finishBlock]
          simp [held, asm_setAsm, hd]
        · simp [held, asm_setAsm, hd]

variable {c d} {n : Nat} (e : Direction × Option Item × Int64)

/-- A frame is fatal and adds nothing, or no more is held than was received. -/
theorem Core.held_handleFrame (h : c.held d ≤ n) :
    (c.handleFrame sink dir header payload ts).dead = true ∧
        (c.handleFrame sink dir header payload ts).held d ≤ c.held d ∨
      (c.handleFrame sink dir header payload ts).held d ≤
        receive d n (dir, some (.frame header payload), ts) := by
  simp only [handleFrame, receive]
  by_cases hheaders : header.kind = 0x1
  · rw [if_pos hheaders, if_pos hheaders]
    rcases held_onHeaders sink c dir d header payload ts _ rfl with ⟨hdead | hd, hle⟩ | ⟨hd, hle⟩
    · exact .inl ⟨hdead, hle⟩
    · rw [if_pos (Ne.symm hd)]
      exact .inr (hle.trans h)
    · rw [if_neg (not_not.2 hd.symm)]
      exact .inr hle
  · rw [if_neg hheaders, if_neg hheaders]
    by_cases hcont : header.kind = 0x9
    · have hle := held_onContinuation sink c dir d header payload ts
      rw [if_pos hcont, if_pos hcont]
      by_cases hd : d = dir
      · rw [if_pos hd] at hle
        rw [if_neg (not_not.2 hd.symm)]
        exact .inr (hle.trans (Nat.add_le_add_right h _))
      · rw [if_neg hd] at hle
        rw [if_pos (Ne.symm hd)]
        exact .inr (hle.trans h)
    · rw [if_neg hcont, if_neg hcont, ite_self]
      split <;> exact .inr h

theorem Core.held_react (h : c.dead = false → c.held d ≤ n) :
    ((framer cx sink).react c e).dead = true ∧ ((framer cx sink).react c e).held d ≤ c.held d ∨
      ((framer cx sink).react c e).held d ≤ receive d n e := by
  obtain ⟨dir, item, ts⟩ := e
  by_cases hdead : (framer cx sink).stop c = true
  · rw [react_of_stop hdead]
    exact .inl ⟨hdead, le_rfl⟩
  · have hheld := h (Bool.eq_false_iff.2 hdead)
    rw [react, if_neg hdead]
    rcases item with _ | _ | ⟨header, payload⟩
    · exact .inl ⟨rfl, (held_kill c d).le⟩
    · exact .inr hheld
    · exact held_handleFrame sink dir header payload ts hheld

theorem Core.held_foldl_react {bound : Nat} (es : List (Direction × Option Item × Int64))
    (hes : ∀ seen, seen <+: es → received d seen ≤ bound) (out : π) :
    (es.foldl (framer cx sink).react (newCore cx out)).held d ≤ bound ∧
      ((es.foldl (framer cx sink).react (newCore cx out)).dead = false →
        (es.foldl (framer cx sink).react (newCore cx out)).held d ≤ received d es) := by
  induction es using List.reverseRecOn with
  | nil => cases d <;> exact ⟨Nat.zero_le _, fun _ => Nat.zero_le _⟩
  | append_singleton es e ih =>
    -- a fatal frame adds nothing, and after it nothing is received
    have hbound := hes _ prefix_rfl
    obtain ⟨hle, hheld⟩ := ih fun seen hseen => hes seen (hseen.trans (prefix_append es [e]))
    rw [received, foldl_append] at hbound ⊢
    rw [foldl_append]
    rcases held_react sink e hheld with ⟨hdead, hsame⟩ | hreceived
    · exact ⟨hsame.trans hle, fun hgo => nomatch hdead.symm.trans hgo⟩
    · exact ⟨hreceived.trans hbound, fun _ => hreceived⟩

/-- **What is held of an open header block is bounded by what its frames bring**: in every run in
which no HEADERS frame and the CONTINUATION frames after it bring more than `bound` octets. -/
theorem held_le_of_received (cx : Codec) (bound : Nat) (segments : List Segment)
    (h : ∀ dir seen, seen <+: items maxFramePayload segments → received dir seen ≤ bound) :
    ∃ p, run cx segments = some p ∧ ∀ dir, p.core.held dir ≤ bound := by
  obtain ⟨p, hrun, hcore⟩ := @runSink_eq cx _ (Pairing.sink cx.lossy) .new segments
  refine ⟨p, hrun, fun dir => ?_⟩
  rw [hcore]
  exact (Core.held_foldl_react _ _ (h dir) _).1

end

/-- A server's HEADERS frame of one octet, which does not end its block. -/
def openFrame : Bytes := [0, 0, 1, 1, 0, 0, 0, 0, 1, 0x88]

/-- A CONTINUATION frame of one octet, which does not end its block either. -/
def moreFrame : Bytes := [0, 0, 1, 9, 0, 0, 0, 0, 1, 0x88]

theorem held_open_block :
    ∃ p, run staticCodec [(.outbound, openFrame ++ moreFrame, 0)] = some p ∧
      ∀ dir, p.core.held dir ≤ 2 := by
  apply held_le_of_received staticCodec 2
  intro dir seen hseen
  have hall : ∀ seen ∈ (items maxFramePayload [(.outbound, openFrame ++ moreFrame, 0)]).inits,
      received .inbound seen ≤ 2 ∧ received .outbound seen ≤ 2 := by
    decide +kernel
  have hboth := hall seen ((mem_inits _ _).2 hseen)
  cases dir with
  | inbound => exact hboth.1
  | outbound => exact hboth.2

/-- The parser with a server's block open. -/
def withOpen (fragment : Bytes) : Http2Parser staticCodec where
  lanes dir := ⟨startStage dir, [], 0⟩
  core := { newCore staticCodec Pairing.new with
    respHeaders := ⟨staticCodec.fresh, some ⟨1, false, fragment⟩⟩ }

theorem onBytes_openFrame :
    (Http2Parser.new staticCodec).onBytes .outbound openFrame 0 = some (withOpen [0x88]) := by
  simp [Http2Parser.onBytes, Http2Parser.new, fresh, step, drain, framer,
    withOpen, newCore, push, drainSkip, advance, nextItem,
    openFrame, FrameHeader.parse, maxFramePayload, frameHeaderLen, startStage, Core.handleItem,
    Core.handleFrame, Core.onHeaders, headerBlockFragment, Core.asm, Core.setAsm, flagSet,
    flagEndHeaders, flagPadded, flagPriority, flagEndStream]

theorem onBytes_moreFrame (fragment : Bytes) :
    (withOpen fragment).onBytes .outbound moreFrame 0 = some (withOpen (fragment ++ [0x88])) := by
  simp [Http2Parser.onBytes, step, drain, framer, withOpen, newCore,
    push, drainSkip, advance, nextItem, moreFrame,
    FrameHeader.parse, maxFramePayload, frameHeaderLen, startStage, Core.handleItem,
    Core.handleFrame, Core.onContinuation, Core.asm, Core.setAsm, flagSet, flagEndHeaders]

theorem foldlM_moreFrame (n : Nat) (fragment : Bytes) :
    ∃ p, (replicate n (Direction.outbound, moreFrame, (0 : Int64))).foldlM
        (framer staticCodec (Pairing.sink staticCodec.lossy)).step (withOpen fragment) = some p ∧
      p.core.held .outbound = fragment.length + n := by
  induction n generalizing fragment with
  | zero => exact ⟨_, rfl, rfl⟩
  | succ n ih =>
    obtain ⟨p, hp, hheld⟩ := ih (fragment ++ [0x88])
    refine ⟨p, ?_, ?_⟩
    · rw [replicate_succ, foldlM_cons]
      exact (congrArg (· >>= _) (onBytes_moreFrame fragment)).trans hp
    · rw [hheld, length_append, length_singleton]
      omega

/-- No constant bounds what is held: every further CONTINUATION frame adds to it. -/
theorem continuation_flood_is_held :
    ¬ ∃ bound, ∀ segments p, run staticCodec segments = some p →
      ∀ dir, p.core.held dir ≤ bound := by
  rintro ⟨bound, h⟩
  obtain ⟨p, hp, hheld⟩ := foldlM_moreFrame bound [0x88]
  have hrun : run staticCodec ((.outbound, openFrame, 0) :: replicate bound
      (.outbound, moreFrame, 0)) = some p := by
    rw [run, runSink, foldlM_cons]
    exact (congrArg (· >>= _) onBytes_openFrame).trans hp
  have hle := h _ p hrun .outbound
  rw [hheld, length_singleton] at hle
  omega

end Http2

end EdgePacer.L7
