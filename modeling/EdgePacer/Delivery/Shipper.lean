import Mathlib.Data.Finset.Lattice.Fold
import EdgePacer.Common

/-!
# Shipping a byte-capped prefix

`shipCappedWithShrink` sends the leading entries that fit the byte cap and halves the batch while
the receiver answers that it is too large. Encoding and sending one batch is the parameter
`send`: within one call every request has a different length, so a function of the batch sent covers
every sequence of answers. What it stands for is the retry loop `sendWithRetry`, which by default
goes on for as long as the answers are to be retried. The outcome names how many leading entries it
settles (`handled`), never more than were offered (`handled_shipCappedWithShrink_le`), and those are
the entries of one request that was sent and answered so (`ship_settles_what_was_answered`).
-/

namespace EdgePacer.Delivery

/-- A line to ship and the stream that wrote it. -/
structure ShipEntry where
  body : Bytes
  stream : LogStream
  deriving DecidableEq

/-- The receiver's answer to one batch. -/
inductive ShipResult where
  | accepted (count : Nat)
  | rejected (accepted rejected : Nat)

/-- Why a batch was not answered: it did not encode, the receiver found it too large (413), the
request is to be retried, or it failed for good. -/
inductive ShipError where
  | encodeFailed
  | payloadTooLarge
  | retryable
  | other

inductive CappedShipDeferredReason where
  | emptyBatch
  | encodeFailed
  | acceptedCountMismatch
  | relayRejected
  | shipFailed
  deriving DecidableEq, Repr

/-- How a ship ended, for the leading entries it settles. -/
inductive CappedShipOutcome where
  | delivered (count : Nat)
  | droppedOversized (count : Nat)
  | rejectedAdjudicated (accepted rejected : Nat)
  | deferred (reason : CappedShipDeferredReason)
  deriving DecidableEq, Repr

/-- Encode and send one batch, with the transport's own retries. -/
abbrev Transport := List ShipEntry → Except ShipError ShipResult

/-- How many attempts a request has; 0 is no limit. -/
structure RetryPolicy where
  maxAttempts : Nat := 0

/-- Whether `delay_for` gives a delay, after which the request is sent again. -/
def RetryPolicy.delayFor (policy : RetryPolicy) (attempt : Nat) : Bool :=
  !(0 < policy.maxAttempts && policy.maxAttempts ≤ attempt)

/-- The retry loop, over the answers to the attempts at one request, from `attempt` on; `none` when
the fuel does not suffice. -/
def sendWithRetry (policy : RetryPolicy) (answers : Nat → Except ShipError ShipResult) :
    Nat → Nat → Option (Except ShipError ShipResult)
  | 0, _ => none
  | fuel + 1, attempt =>
      match answers attempt with
      | .error .retryable =>
          if policy.delayFor attempt then sendWithRetry policy answers fuel (attempt + 1)
          else some (.error .retryable)
      | result => some result

/-- The wire bytes each entry costs beside its body. -/
def ENTRY_WIRE_OVERHEAD : Nat := 128

/-- The loop of `byteCappedTake`: bytes and entries taken so far. -/
def byteCappedTakeLoop (maxBytes : Nat) : List ShipEntry → Nat → Nat → Nat
  | [], _, take => take
  | entry :: entries, total, take =>
      let cost := entry.body.length + ENTRY_WIRE_OVERHEAD
      if 0 < take ∧ maxBytes < total + cost then take
      else byteCappedTakeLoop maxBytes entries (total + cost) (take + 1)

/-- The number of leading entries to ship: at least one, further ones while they fit the cap. -/
def byteCappedTake (entries : List ShipEntry) (maxBytes : Nat) : Nat :=
  byteCappedTakeLoop maxBytes entries 0 0

/-- Send the first `n` entries, halving `n` on a too-large answer. The fuel bounds the halvings;
`shipLoop_fuel` shows that `n` of it is enough. -/
def shipLoop (entries : List ShipEntry) (send : Transport) : Nat → Nat → CappedShipOutcome
  | 0, _ => .deferred .shipFailed
  | fuel + 1, n =>
      match send (entries.take n) with
      | .error .encodeFailed => .deferred .encodeFailed
      | .ok (.accepted count) =>
          if count = n then .delivered n else .deferred .acceptedCountMismatch
      | .ok (.rejected accepted rejected) =>
          if accepted + rejected = n then .rejectedAdjudicated accepted rejected
          else .deferred .relayRejected
      | .error .payloadTooLarge =>
          if 1 < n then shipLoop entries send fuel (n / 2) else .droppedOversized 1
      | .error .retryable | .error .other => .deferred .shipFailed

def shipCappedWithShrink (entries : List ShipEntry) (maxBytes : Nat) (send : Transport) :
    CappedShipOutcome :=
  if entries.isEmpty then .deferred .emptyBatch
  else
    let n := byteCappedTake entries maxBytes
    shipLoop entries send n n

/-- The number of leading entries an outcome settles. -/
def CappedShipOutcome.handled : CappedShipOutcome → Nat
  | .delivered count => count
  | .droppedOversized count => count
  | .rejectedAdjudicated accepted rejected => accepted + rejected
  | .deferred _ => 0

theorem byteCappedTakeLoop_bounds (maxBytes : Nat) (entries : List ShipEntry) (total take : Nat) :
    take ≤ byteCappedTakeLoop maxBytes entries total take ∧
      byteCappedTakeLoop maxBytes entries total take ≤ take + entries.length := by
  induction entries generalizing total take with
  | nil => exact ⟨Nat.le_refl _, Nat.le_refl _⟩
  | cons e es ih =>
    simp only [byteCappedTakeLoop, List.length_cons]
    split
    · omega
    · have h := ih (total + (e.body.length + ENTRY_WIRE_OVERHEAD)) (take + 1)
      omega

/-- At least one entry of a non-empty list is taken, and no more than there are. -/
theorem byteCappedTake_bounds {entries : List ShipEntry} (hne : entries ≠ []) (maxBytes : Nat) :
    1 ≤ byteCappedTake entries maxBytes ∧ byteCappedTake entries maxBytes ≤ entries.length := by
  cases entries with
  | nil => exact absurd rfl hne
  | cons e es =>
    have h := byteCappedTakeLoop_bounds maxBytes es (0 + (e.body.length + ENTRY_WIRE_OVERHEAD)) 1
    have heq : byteCappedTake (e :: es) maxBytes =
        byteCappedTakeLoop maxBytes es (0 + (e.body.length + ENTRY_WIRE_OVERHEAD)) 1 := by
      simp [byteCappedTake, byteCappedTakeLoop]
    rw [List.length_cons]
    omega

/-- More fuel than the batch is long changes nothing: the loop ends by itself. -/
theorem shipLoop_fuel (entries : List ShipEntry) (send : Transport) :
    ∀ {fuel n : Nat}, 1 ≤ n → n ≤ fuel → ∀ more : Nat,
      shipLoop entries send (fuel + more) n = shipLoop entries send fuel n
  | 0, n, h1, h2, _ => absurd (Nat.le_trans h1 h2) (by omega)
  | fuel + 1, n, h1, h2, more => by
      have hsucc : fuel + 1 + more = (fuel + more) + 1 := by omega
      rw [hsucc]
      simp only [shipLoop]
      split
      · rfl
      · rfl
      · rfl
      · split
        · exact shipLoop_fuel entries send (by omega) (by omega) more
        · rfl
      · rfl
      · rfl

theorem handled_shipLoop_le (entries : List ShipEntry) (send : Transport) (fuel : Nat) {n : Nat}
    (hn : 1 ≤ n) : (shipLoop entries send fuel n).handled ≤ n := by
  induction fuel generalizing n with
  | zero => exact Nat.zero_le _
  | succ fuel ih =>
    simp only [shipLoop]
    split
    · exact Nat.zero_le _
    · split
      · exact Nat.le_refl _
      · exact Nat.zero_le _
    · split
      · rename_i h
        exact Nat.le_of_eq h
      · exact Nat.zero_le _
    · split
      · have h := ih (n := n / 2) (by omega)
        omega
      · exact hn
    · exact Nat.zero_le _
    · exact Nat.zero_le _

/-- An outcome settles no more entries than were offered. -/
theorem handled_shipCappedWithShrink_le (entries : List ShipEntry) (maxBytes : Nat)
    (send : Transport) : (shipCappedWithShrink entries maxBytes send).handled ≤ entries.length := by
  unfold shipCappedWithShrink
  split
  · exact Nat.zero_le _
  · rename_i hne
    have hb := byteCappedTake_bounds (by simpa using hne) maxBytes
    have h := handled_shipLoop_le entries send (byteCappedTake entries maxBytes) hb.1
    exact Nat.le_trans h hb.2

/-! ## What was answered -/

/-- The requests the loop sends, in order. -/
def shipRequests (entries : List ShipEntry) (send : Transport) : Nat → Nat → List (List ShipEntry)
  | 0, _ => []
  | fuel + 1, n =>
      entries.take n ::
        match send (entries.take n) with
        | .error .payloadTooLarge => if 1 < n then shipRequests entries send fuel (n / 2) else []
        | _ => []

/-- What an outcome says about the requests that were sent. -/
inductive Settles (entries : List ShipEntry) (send : Transport) (requests : List (List ShipEntry)) :
    CappedShipOutcome → Prop where
  | delivered {n : Nat} (hsent : entries.take n ∈ requests) (hlen : (entries.take n).length = n)
      (hanswer : send (entries.take n) = .ok (.accepted n)) :
      Settles entries send requests (.delivered n)
  | adjudicated {accepted rejected : Nat} (hsent : entries.take (accepted + rejected) ∈ requests)
      (hlen : (entries.take (accepted + rejected)).length = accepted + rejected)
      (hanswer : send (entries.take (accepted + rejected)) = .ok (.rejected accepted rejected)) :
      Settles entries send requests (.rejectedAdjudicated accepted rejected)
  | dropped {first : ShipEntry} (hfirst : entries.head? = some first) (hsent : [first] ∈ requests)
      (hanswer : send [first] = .error .payloadTooLarge) :
      Settles entries send requests (.droppedOversized 1)
  | deferred (reason : CappedShipDeferredReason) : Settles entries send requests (.deferred reason)

theorem Settles.later {entries : List ShipEntry} {send : Transport}
    {requests : List (List ShipEntry)} {outcome : CappedShipOutcome}
    (h : Settles entries send requests outcome) (request : List ShipEntry) :
    Settles entries send (request :: requests) outcome := by
  cases h with
  | delivered hsent hlen hanswer => exact .delivered (.tail _ hsent) hlen hanswer
  | adjudicated hsent hlen hanswer => exact .adjudicated (.tail _ hsent) hlen hanswer
  | dropped hfirst hsent hanswer => exact .dropped hfirst (.tail _ hsent) hanswer
  | deferred reason => exact .deferred reason

theorem shipLoop_settles (entries : List ShipEntry) (send : Transport) (fuel : Nat) {n : Nat}
    (hn : 1 ≤ n) (hle : n ≤ entries.length) :
    Settles entries send (shipRequests entries send fuel n) (shipLoop entries send fuel n) := by
  induction fuel generalizing n with
  | zero => exact .deferred _
  | succ fuel ih =>
    have hlen : (entries.take n).length = n := by
      rw [List.length_take]
      omega
    rw [shipLoop, shipRequests]
    cases hanswer : send (entries.take n) with
    | ok result =>
      cases result with
      | accepted count =>
        dsimp only
        split
        · rename_i hcount
          exact .delivered (.head _) hlen (hcount ▸ hanswer)
        · exact .deferred _
      | rejected accepted rejected =>
        dsimp only
        split
        · rename_i hcount
          subst hcount
          exact .adjudicated (.head _) hlen hanswer
        · exact .deferred _
    | error e =>
      cases e with
      | encodeFailed | retryable | other => exact .deferred _
      | payloadTooLarge =>
        dsimp only
        split
        · exact (ih (by omega) (by omega)).later _
        · -- one entry is left, and it is the first
          have hone : n = 1 := by omega
          subst hone
          cases entries with
          | nil => cases hle
          | cons first rest => exact .dropped rfl (.head _) hanswer

/-- The request is answered in the end: attempts are limited, or one of them has an answer that is
not to be retried. -/
def RetryPolicy.Ends (policy : RetryPolicy) (answers : Nat → Except ShipError ShipResult) : Prop :=
  0 < policy.maxAttempts ∨ ∃ attempt, 1 ≤ attempt ∧ ∀ e, answers attempt = .error e → e ≠ .retryable

theorem sendWithRetry_of_stop (policy : RetryPolicy) (answers : Nat → Except ShipError ShipResult)
    {last : Nat} (hstop : policy.delayFor last = true → answers last ≠ .error .retryable)
    (n : Nat) {attempt : Nat} (hn : attempt + n = last) :
    ∃ result, sendWithRetry policy answers (n + 1) attempt = some result := by
  induction n generalizing attempt with
  | zero =>
    obtain rfl : attempt = last := hn
    rw [sendWithRetry]
    split
    · next hretry =>
      rw [if_neg fun hdelay => hstop hdelay hretry]
      exact ⟨_, rfl⟩
    · exact ⟨_, rfl⟩
  | succ n ih =>
    rw [sendWithRetry]
    split
    · split
      · exact ih (by omega)
      · exact ⟨_, rfl⟩
    · exact ⟨_, rfl⟩

/-- The retry loop returns when the request is answered in the end. -/
theorem RetryPolicy.Ends.returns {policy : RetryPolicy}
    {answers : Nat → Except ShipError ShipResult} (h : policy.Ends answers) :
    ∃ result fuel, sendWithRetry policy answers fuel 1 = some result := by
  rcases h with hlimit | ⟨attempt, hpos, hanswer⟩
  · have hstop : policy.delayFor policy.maxAttempts = true →
        answers policy.maxAttempts ≠ .error .retryable := by simp [delayFor, hlimit]
    obtain ⟨result, hresult⟩ :=
      sendWithRetry_of_stop policy answers hstop _ (Nat.add_sub_of_le hlimit)
    exact ⟨result, _, hresult⟩
  · have hstop : policy.delayFor attempt = true → answers attempt ≠ .error .retryable :=
      fun _ hretry => hanswer _ hretry rfl
    obtain ⟨result, hresult⟩ :=
      sendWithRetry_of_stop policy answers hstop _ (Nat.add_sub_of_le hpos)
    exact ⟨result, _, hresult⟩

theorem sendWithRetry_mono {policy : RetryPolicy} {answers : Nat → Except ShipError ShipResult}
    {fuel fuel' attempt : Nat} (hle : fuel ≤ fuel') {result : Except ShipError ShipResult}
    (h : sendWithRetry policy answers fuel attempt = some result) :
    sendWithRetry policy answers fuel' attempt = some result := by
  induction fuel generalizing fuel' attempt with
  | zero => cases h
  | succ fuel ih =>
    obtain ⟨fuel', rfl⟩ := Nat.exists_eq_add_of_le' (Nat.one_le_of_lt hle)
    rw [sendWithRetry] at h ⊢
    split at h
    · split at h
      · next hdelay =>
        rw [if_pos hdelay]
        exact ih (Nat.le_of_succ_le_succ hle) h
      · next hstop => rwa [if_neg hstop]
    · exact h

/-! ## Shipping over the retry loop -/

section

variable (entries : List ShipEntry) (maxBytes : Nat) (policy : RetryPolicy)
  (answers : List ShipEntry → Nat → Except ShipError ShipResult)

/-- The transport over the answers to the attempts at each request. -/
def retrying (fuel : Nat) : Transport := fun batch =>
  (sendWithRetry policy (answers batch) fuel 1).getD (.error .other)

/-- The requests that are sent over it. -/
def retriedRequests (fuel : Nat) : List (List ShipEntry) :=
  let n := byteCappedTake entries maxBytes
  shipRequests entries (retrying policy answers fuel) n n

/-- `shipCappedWithShrink` over the retry loop; `none` when one of the requests does not return. -/
def shipRetrying (fuel : Nat) : Option CappedShipOutcome :=
  if (retriedRequests entries maxBytes policy answers fuel).all fun batch =>
      (sendWithRetry policy (answers batch) fuel 1).isSome then
    some (shipCappedWithShrink entries maxBytes (retrying policy answers fuel))
  else none

theorem mem_shipRequests {entries batch : List ShipEntry} {send : Transport} {fuel n : Nat}
    (h : batch ∈ shipRequests entries send fuel n) : ∃ m ≤ n, batch = entries.take m := by
  induction fuel generalizing n with
  | zero => cases h
  | succ fuel ih =>
    rw [shipRequests] at h
    rcases List.mem_cons.1 h with rfl | h
    · exact ⟨n, le_rfl, rfl⟩
    · split at h
      · split at h
        · obtain ⟨m, hm, rfl⟩ := ih h
          exact ⟨m, hm.trans (Nat.div_le_self ..), rfl⟩
        · cases h
      · cases h

/-- Shipping returns when every request is answered in the end. -/
theorem shipRetrying_isSome (hends : ∀ batch, policy.Ends (answers batch)) :
    ∃ fuel, (shipRetrying entries maxBytes policy answers fuel).isSome := by
  choose result fuel hfuel using fun m => (hends (entries.take m)).returns
  -- fuel for the longest of the finitely many requests there can be
  let most := (Finset.range (byteCappedTake entries maxBytes + 1)).sup fuel
  refine ⟨most, ?_⟩
  have hall : (retriedRequests entries maxBytes policy answers most).all (fun batch =>
      (sendWithRetry policy (answers batch) most 1).isSome) = true := by
    rw [List.all_eq_true]
    intro batch hbatch
    obtain ⟨m, hm, rfl⟩ := mem_shipRequests hbatch
    have hle : fuel m ≤ most := Finset.le_sup (Finset.mem_range_succ_iff.2 hm)
    rw [sendWithRetry_mono hle (hfuel m)]
    rfl
  rw [shipRetrying, if_pos hall]
  rfl

/-- **Shipping a capped prefix** returns when every request is answered in the end. Whenever it
returns, halving has ended by itself (more fuel changes nothing) and the outcome is the answer to a
request it sent that held just the leading entries it reports; one entry is given up only after a
request with the first entry alone was too large. -/
theorem ship_settles_what_was_answered :
    ((∀ batch, policy.Ends (answers batch)) →
      ∃ fuel, (shipRetrying entries maxBytes policy answers fuel).isSome) ∧
    ∀ fuel outcome, shipRetrying entries maxBytes policy answers fuel = some outcome →
      let n := byteCappedTake entries maxBytes
      let send := retrying policy answers fuel
      (entries = [] ∨ ∀ more, shipLoop entries send (n + more) n = outcome) ∧
      Settles entries send (retriedRequests entries maxBytes policy answers fuel) outcome := by
  refine ⟨shipRetrying_isSome entries maxBytes policy answers, ?_⟩
  intro fuel outcome hreturns n send
  rw [shipRetrying] at hreturns
  split at hreturns
  · cases hreturns
    rw [shipCappedWithShrink]
    split
    · rename_i hnil
      exact ⟨.inl (List.isEmpty_iff.1 hnil), .deferred _⟩
    · rename_i hne
      obtain ⟨hpos, hle⟩ := byteCappedTake_bounds (by simpa using hne) maxBytes
      exact ⟨.inr fun more => shipLoop_fuel entries send hpos (Nat.le_refl _) more,
        shipLoop_settles entries send n hpos hle⟩
  · cases hreturns

end

/-- A receiver that is away at the first attempt and takes the batch at the second. -/
def awayOnce (batch : List ShipEntry) : Nat → Except ShipError ShipResult
  | 1 => .error .retryable
  | _ => .ok (.accepted batch.length)

theorem awayOnce_ships :
    (∃ fuel, (shipRetrying [⟨[65], .stdout⟩] 1000 {} awayOnce fuel).isSome) ∧
      Settles [⟨[65], .stdout⟩] (retrying {} awayOnce 2)
        (retriedRequests [⟨[65], .stdout⟩] 1000 {} awayOnce 2) (.delivered 1) := by
  obtain ⟨hreturns, hsettles⟩ :=
    ship_settles_what_was_answered [⟨[65], .stdout⟩] 1000 {} awayOnce
  refine ⟨hreturns fun batch => .inr ⟨2, by decide, ?_⟩, (hsettles 2 (.delivered 1) (by rfl)).2⟩
  intro e he
  cases he

/-- By default, shipping does not return while every answer is to be retried. -/
theorem default_policy_never_returns :
    ¬ ∃ fuel, (shipRetrying [⟨[65], .stdout⟩] 1000 {} (fun _ _ => .error .retryable)
      fuel).isSome := by
  have hloop : ∀ fuel attempt,
      sendWithRetry {} (fun _ => .error .retryable) fuel attempt = none := by
    intro fuel
    induction fuel with
    | zero => exact fun _ => rfl
    | succ fuel ih => exact fun attempt => ih (attempt + 1)
  rintro ⟨fuel, hreturns⟩
  have hfirst : retriedRequests [⟨[65], .stdout⟩] 1000 {} (fun _ _ => .error .retryable) fuel =
      [[⟨[65], .stdout⟩]] := by
    have hsend : retrying {} (fun _ _ => .error .retryable) fuel = fun _ => .error .other := by
      funext batch
      rw [retrying, hloop]
      rfl
    rw [retriedRequests, hsend]
    rfl
  rw [shipRetrying, hfirst, List.all_cons, hloop] at hreturns
  cases hreturns

end EdgePacer.Delivery
