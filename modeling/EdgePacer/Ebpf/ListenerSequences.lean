import Mathlib.Algebra.GroupWithZero.Nat
import Mathlib.Data.Finset.Card
import Mathlib.Order.Bounds.Basic

/-!
# Publication sequences of listener events

Each CPU numbers the listener events that it publishes from one on, and the drain sees the numbers
of all CPUs in any order. It keeps the watermark of each CPU, up to which nothing is missing, and
acknowledges a fence once the watermarks have reached the counts that the fence was taken at.
-/

namespace EdgePacer.Ebpf

open List

def maxOutOfOrderListenerSequences : Nat := 16384

def maxListenerSequenceCpus : Nat := 4096

structure PerCpuListenerSequence where
  contiguous : Nat := 0
  outOfOrder : Finset Nat := ∅

/-- The map `by_cpu` has the keys `cpus`; a CPU outside of them has the default state. -/
structure ListenerSequences where
  cpus : Finset Nat := ∅
  byCpu : Nat → PerCpuListenerSequence := fun _ => {}
  outstanding : Nat := 0

/-- The counts of a fence, one for each CPU. -/
structure ListenerFence where
  publishedCounts : List Nat

namespace ListenerSequences

variable (s : ListenerSequences)

def setCpu (cpu contiguous : Nat) (outOfOrder : Finset Nat)
    (outstanding : Nat) : ListenerSequences :=
  { s with byCpu := Function.update s.byCpu cpu ⟨contiguous, outOfOrder⟩, outstanding }

/-- The loop that moves the watermark over numbers that came early. -/
def absorb (cpu : Nat) : Nat → ListenerSequences → Except String Unit × ListenerSequences
  | 0, s => (.ok (), s)
  | fuel + 1, s =>
      let next := (s.byCpu cpu).contiguous + 1
      let rest := (s.byCpu cpu).outOfOrder.erase next
      if 2 ^ 64 ≤ next ∨ next ∉ (s.byCpu cpu).outOfOrder then (.ok (), s)
      else if s.outstanding = 0 then
        (.error "listener publication gap count underflowed", s.setCpu cpu (next - 1) rest 0)
      else absorb cpu fuel (s.setCpu cpu next rest (s.outstanding - 1))

def advanceListenerSequence (cpu sequence : Nat) : Except String Unit × ListenerSequences :=
  if cpu ∉ s.cpus ∧ maxListenerSequenceCpus ≤ s.cpus.card then
    (.error (s!"listener publication sequence referenced more than " ++
      s!"{maxListenerSequenceCpus} CPUs"), s)
  else
    let s := { s with cpus := insert cpu s.cpus }
    let contiguous := (s.byCpu cpu).contiguous
    let outOfOrder := (s.byCpu cpu).outOfOrder
    if 2 ^ 64 ≤ contiguous + 1 then (.error "listener publication sequence overflowed", s)
    else if sequence < contiguous + 1 ∨ sequence ∈ outOfOrder then
      (.error (s!"listener publication sequence {sequence} repeated on CPU {cpu} after " ++
        s!"{contiguous}"), s)
    else if 2 ^ 64 ≤ s.outstanding + 1 then
      (.error "listener publication gap count overflowed",
        s.setCpu cpu contiguous (insert sequence outOfOrder) s.outstanding)
    else
      match absorb cpu (outOfOrder.card + 1)
        (s.setCpu cpu contiguous (insert sequence outOfOrder) (s.outstanding + 1)) with
      | (.error e, s) => (.error e, s)
      | (.ok (), s) =>
          if maxOutOfOrderListenerSequences < s.outstanding then
            (.error (s!"listener publication sequence gaps exceeded " ++
              s!"{maxOutOfOrderListenerSequences} records"), s)
          else (.ok (), s)

/-- The watermark of every CPU has reached the count of the fence. -/
def ready (fence : ListenerFence) : Bool :=
  fence.publishedCounts.zipIdx.all fun p => p.1 ≤ (s.byCpu p.2).contiguous

/-- The scan over the pending fences: those that stay and those acknowledged. The fences before the
index are `kept`; `swap_remove` puts the last of the others in the place of the one removed. -/
def acknowledgeListenerFences (s : ListenerSequences) :
    Nat → List ListenerFence → List ListenerFence → List ListenerFence × List ListenerFence
  | fuel + 1, kept, fence :: rest =>
      if s.ready fence then
        let (left, acked) :=
          s.acknowledgeListenerFences fuel kept (rest.getLast?.toList ++ rest.dropLast)
        (left, fence :: acked)
      else s.acknowledgeListenerFences fuel (kept ++ [fence]) rest
  | _, kept, rest => (kept ++ rest, [])

/-- The number was received before. -/
def Repeats (cpu sequence : Nat) : Prop :=
  sequence < (s.byCpu cpu).contiguous + 1 ∨ sequence ∈ (s.byCpu cpu).outOfOrder

instance (s : ListenerSequences) (cpu sequence : Nat) : Decidable (s.Repeats cpu sequence) :=
  inferInstanceAs (Decidable (_ ∨ _))

/-- A number arrives. The run goes on after a repeated one, where the drain gives up, and ends at
any other that is refused. -/
def receive (arrival : Nat × Nat) : Option ListenerSequences :=
  match s.advanceListenerSequence arrival.1 arrival.2 with
  | (.ok (), s') => some s'
  | (.error _, s') => if s.Repeats arrival.1 arrival.2 then some s' else none

/-! ## Watermarks -/

/-- The numbers received are those up to the watermarks and the `early` ones beyond. -/
structure Tracks (received early : Finset (Nat × Nat)) (s : ListenerSequences) : Prop where
  known : ∀ cpu n, (cpu, n) ∈ received → cpu ∈ s.cpus ∧ n < 2 ^ 64
  mem : ∀ cpu n, (cpu, n) ∈ received ↔ 1 ≤ n ∧ n ≤ (s.byCpu cpu).contiguous ∨ (cpu, n) ∈ early
  mem_early : ∀ cpu n, (cpu, n) ∈ early ↔ n ∈ (s.byCpu cpu).outOfOrder
  beyond : ∀ cpu n, (cpu, n) ∈ early → (s.byCpu cpu).contiguous < n
  outstanding : s.outstanding = early.card

variable {received early : Finset (Nat × Nat)} {s : ListenerSequences} {cpu n : Nat}

@[grind =]
theorem setCpu_byCpu (contiguous outstanding c : Nat) (outOfOrder : Finset Nat) :
    (s.setCpu cpu contiguous outOfOrder outstanding).byCpu c =
      if c = cpu then ⟨contiguous, outOfOrder⟩ else s.byCpu c :=
  Function.update_apply ..

theorem Tracks.enter (h : s.Tracks received early) (hn : 1 ≤ n) (hrange : n < 2 ^ 64)
    (hfresh : (cpu, n) ∉ received) :
    Tracks (insert (cpu, n) received) (insert (cpu, n) early)
      ({ s with cpus := insert cpu s.cpus }.setCpu cpu (s.byCpu cpu).contiguous
        (insert n (s.byCpu cpu).outOfOrder) (s.outstanding + 1)) := by
  have hold := mt (h.mem cpu n).2 hfresh
  have hearly : (cpu, n) ∉ early := fun hmem => hold (.inr hmem)
  refine ⟨fun c k => ?_, fun c k => ?_, fun c k => ?_, fun c k => ?_, ?_⟩
  · have := h.known c k
    grind [setCpu]
  · grind [h.mem c k]
  · grind [h.mem_early c k]
  · have := h.beyond c k
    grind
  · rw [Finset.card_insert_of_notMem hearly, ← h.outstanding]
    rfl

theorem Tracks.absorbNext (h : s.Tracks received early)
    (hnext : (s.byCpu cpu).contiguous + 1 ∈ (s.byCpu cpu).outOfOrder) :
    s.outstanding ≠ 0 ∧ Tracks received (early.erase (cpu, (s.byCpu cpu).contiguous + 1))
      (s.setCpu cpu ((s.byCpu cpu).contiguous + 1)
        ((s.byCpu cpu).outOfOrder.erase ((s.byCpu cpu).contiguous + 1)) (s.outstanding - 1)) := by
  have hearly := (h.mem_early cpu _).2 hnext
  refine ⟨?_, h.known, fun c k => ?_, fun c k => ?_, fun c k => ?_, ?_⟩
  · rw [h.outstanding]
    exact Finset.card_ne_zero_of_mem hearly
  · grind [h.mem c k]
  · grind [h.mem_early c k]
  · have := h.beyond c k
    grind
  · rw [Finset.card_erase_of_mem hearly, ← h.outstanding]
    rfl

/-- The loop ends with the watermark before a number that has not been received. -/
theorem absorb_spec (cpu fuel : Nat) (h : s.Tracks received early)
    (hfuel : (s.byCpu cpu).outOfOrder.card ≤ fuel) :
    ∃ s' early', absorb cpu fuel s = (.ok (), s') ∧ s'.Tracks received early' ∧
      (∀ c ≠ cpu, s'.byCpu c = s.byCpu c) ∧
      (s'.byCpu cpu).contiguous + 1 ∉ (s'.byCpu cpu).outOfOrder ∧
      s'.outstanding ≤ s.outstanding := by
  induction fuel generalizing s early with
  | zero =>
    refine ⟨s, early, rfl, h, fun _ _ => rfl, ?_, le_rfl⟩
    rw [Finset.card_eq_zero.1 (Nat.le_zero.1 hfuel)]
    exact Finset.notMem_empty _
  | succ fuel ih =>
    by_cases hnext : (s.byCpu cpu).contiguous + 1 ∈ (s.byCpu cpu).outOfOrder
    · obtain ⟨hpos, htracks⟩ := h.absorbNext hnext
      have hlast := (h.known cpu _ ((h.mem cpu _).2 (.inr ((h.mem_early cpu _).2 hnext)))).2
      obtain ⟨s', early', habsorb, h', hothers, hstop, hle⟩ := ih htracks (by grind)
      refine ⟨s', early', ?_, h', ?_, hstop, hle.trans (Nat.sub_le ..)⟩
      · simp only [absorb, hnext, hpos, not_true, or_false, if_false, hlast.not_ge, habsorb]
      · intro c hc
        rw [hothers c hc, setCpu_byCpu, if_neg hc]
    · exact ⟨s, early, if_pos (.inr hnext), h, fun _ _ => rfl, hnext, le_rfl⟩

/-- No watermark stops before a number that has come. -/
def Settled (received : Finset (Nat × Nat)) (s : ListenerSequences) : Prop :=
  (∃ early, s.Tracks received early) ∧
    ∀ cpu, (s.byCpu cpu).contiguous + 1 ∉ (s.byCpu cpu).outOfOrder

theorem settled_nil : Settled ∅ {} := ⟨⟨∅, by simp, by simp; omega, by simp, by simp, rfl⟩, by simp⟩

theorem Tracks.repeats_iff (h : s.Tracks received early) (hn : 1 ≤ n) :
    s.Repeats cpu n ↔ (cpu, n) ∈ received := by
  rw [h.mem, h.mem_early, Repeats, Nat.lt_succ_iff, and_iff_right hn]

theorem Settled.repeated (h : s.Settled received) (hn : 1 ≤ n) (hmem : (cpu, n) ∈ received) :
    ∃ e, s.advanceListenerSequence cpu n = (.error e, s) := by
  obtain ⟨⟨early, htracks⟩, -⟩ := h
  have hcpu := (htracks.known cpu n hmem).1
  have hold := (htracks.repeats_iff hn).2 hmem
  unfold Repeats at hold
  simp only [advanceListenerSequence, hcpu, not_true, false_and, if_false, Finset.insert_eq_of_mem]
  split <;> exact ⟨_, rfl⟩

theorem Settled.receive {s' : ListenerSequences} (h : s.Settled received) (hn : 1 ≤ n)
    (hrange : n < 2 ^ 64) (hs : s.receive (cpu, n) = some s') :
    s'.Settled (insert (cpu, n) received) := by
  by_cases hmem : (cpu, n) ∈ received
  · obtain ⟨e, he⟩ := h.repeated hn hmem
    simp only [ListenerSequences.receive, he] at hs
    split_ifs at hs
    cases hs
    rwa [Finset.insert_eq_of_mem hmem]
  obtain ⟨⟨early, htracks⟩, hstops⟩ := h
  have hnew := mt (htracks.repeats_iff hn).1 hmem
  obtain ⟨s₁, early', habsorb, h', hothers, hstop, -⟩ :=
    absorb_spec cpu ((s.byCpu cpu).outOfOrder.card + 1) (htracks.enter hn hrange hmem)
      (by simpa [setCpu] using Finset.card_insert_le n (s.byCpu cpu).outOfOrder)
  simp only [ListenerSequences.receive, advanceListenerSequence, habsorb] at hs
  split_ifs at hs
  all_goals cases hs
  refine ⟨⟨early', h'⟩, fun c => ?_⟩
  by_cases hc : c = cpu
  · rw [hc]
    exact hstop
  · rw [hothers c hc, setCpu_byCpu, if_neg hc]
    exact hstops c

/-- A number is refused at one of the two limits only. -/
theorem Settled.limit_of_receive (h : s.Settled received) (hn : 1 ≤ n) (hrange : n < 2 ^ 64)
    (hs : s.receive (cpu, n) = none) :
    cpu ∉ s.cpus ∧ maxListenerSequenceCpus ≤ s.cpus.card ∨
      maxOutOfOrderListenerSequences ≤ s.outstanding := by
  by_contra! hlimits
  obtain ⟨⟨early, htracks⟩, -⟩ := h
  have hfew : s.outstanding < 16384 := hlimits.2
  by_cases hold : s.Repeats cpu n
  · -- a repeated number is reported, not refused
    rw [ListenerSequences.receive] at hs
    split at hs
    · cases hs
    · rw [if_pos hold] at hs
      cases hs
  · have hmem := mt (htracks.repeats_iff hn).2 hold
    obtain ⟨s₁, early', habsorb, -, -, -, hle⟩ :=
      absorb_spec cpu ((s.byCpu cpu).outOfOrder.card + 1) (htracks.enter hn hrange hmem)
        (by simpa [setCpu] using Finset.card_insert_le n (s.byCpu cpu).outOfOrder)
    have hwatermark : ¬ 2 ^ 64 ≤ (s.byCpu cpu).contiguous + 1 := by
      unfold Repeats at hold
      omega
    have hcount : ¬ maxOutOfOrderListenerSequences < s₁.outstanding := by
      have hle : s₁.outstanding ≤ s.outstanding + 1 := hle
      unfold maxOutOfOrderListenerSequences
      omega
    have hcpus : ¬ (cpu ∉ s.cpus ∧ maxListenerSequenceCpus ≤ s.cpus.card) :=
      fun hfull => absurd (hlimits.1 hfull.1) hfull.2.not_gt
    have hroom : ¬ 2 ^ 64 ≤ s.outstanding + 1 := by omega
    have hfresh : ¬ (n < (s.byCpu cpu).contiguous + 1 ∨ n ∈ (s.byCpu cpu).outOfOrder) := hold
    simp only [ListenerSequences.receive, advanceListenerSequence, if_neg hcpus,
      if_neg hwatermark, if_neg hfresh, if_neg hroom, habsorb, if_neg hcount] at hs
    cases hs

theorem acknowledgeListenerFences_perm {fuel : Nat}
    {kept rest : List ListenerFence} (h : rest.length ≤ fuel) :
    (s.acknowledgeListenerFences fuel kept rest).1.Perm (kept ++ rest.filter (!s.ready ·)) ∧
      (s.acknowledgeListenerFences fuel kept rest).2.Perm (rest.filter s.ready) := by
  induction fuel generalizing kept rest with
  | zero =>
    rw [length_eq_zero_iff.1 (Nat.le_zero.1 h)]
    simp [acknowledgeListenerFences]
  | succ fuel ih =>
    cases rest with
    | nil => simp [acknowledgeListenerFences]
    | cons fence rest =>
      have hfuel : rest.length ≤ fuel := Nat.le_of_succ_le_succ h
      rw [acknowledgeListenerFences]
      split
      · rename_i hready
        have hswap : (rest.getLast?.toList ++ rest.dropLast).Perm rest := by
          cases hlast : rest.getLast? with
          | none => simp [getLast?_eq_none_iff.1 hlast]
          | some last =>
            conv_rhs => rw [← dropLast_append_getLast? last hlast]
            exact (perm_append_singleton last _).symm
        obtain ⟨hleft, hacked⟩ := @ih kept _ (hswap.length_eq.trans_le hfuel)
        rw [filter_cons_of_neg (by simp [hready]), filter_cons_of_pos hready]
        exact ⟨hleft.trans ((hswap.filter _).append_left kept),
          (hacked.trans (hswap.filter _)).cons _⟩
      · rename_i hwaits
        rw [filter_cons_of_pos (by simp [hwaits]), filter_cons_of_neg hwaits]
        simpa using @ih (kept ++ [fence]) rest hfuel

theorem Settled.run {s₀ : ListenerSequences} {arrivals : List (Nat × Nat)}
    (h : s₀.Settled received) (hnumbers : ∀ p ∈ arrivals, 1 ≤ p.2 ∧ p.2 < 2 ^ 64)
    (hrun : arrivals.foldlM ListenerSequences.receive s₀ = some s) :
    s.Settled (received ∪ arrivals.toFinset) := by
  induction arrivals generalizing s₀ received with
  | nil =>
    cases hrun
    simpa using h
  | cons p arrivals ih =>
    obtain ⟨s₁, hfirst, hrest⟩ := Option.bind_eq_some_iff.1 hrun
    have hp := hnumbers p mem_cons_self
    rw [toFinset_cons, ← Finset.insert_union_comm]
    exact ih (h.receive hp.1 hp.2 hfirst) ((forall_mem_cons.1 hnumbers).2) hrest

/-- **Watermarks and fences after every accepted run** of arrivals, in any order. The next number
is refused at a limit only: a new CPU beyond the largest number of them, or a number after as many
as may be outstanding. -/
theorem watermarks_of_run {arrivals : List (Nat × Nat)}
    (hnumbers : ∀ p ∈ arrivals, 1 ≤ p.2 ∧ p.2 < 2 ^ 64)
    (h : arrivals.foldlM receive {} = some s) :
    (∀ cpu, IsGreatest {n | ∀ k, 1 ≤ k → k ≤ n → (cpu, k) ∈ arrivals} (s.byCpu cpu).contiguous) ∧
      s.outstanding = (arrivals.toFinset.filter fun p => (s.byCpu p.1).contiguous < p.2).card ∧
      (∀ p ∈ arrivals, ∃ e, s.advanceListenerSequence p.1 p.2 = (.error e, s)) ∧
      (∀ pending, (s.acknowledgeListenerFences pending.length [] pending).1.Perm
          (pending.filter (!s.ready ·)) ∧
        (s.acknowledgeListenerFences pending.length [] pending).2.Perm
          (pending.filter s.ready)) ∧
      ∀ cpu n, 1 ≤ n → n < 2 ^ 64 → s.receive (cpu, n) = none →
        cpu ∉ s.cpus ∧ maxListenerSequenceCpus ≤ s.cpus.card ∨
          maxOutOfOrderListenerSequences ≤ s.outstanding := by
  have hsettled : s.Settled arrivals.toFinset := by
    simpa using settled_nil.run hnumbers h
  have ⟨⟨early, htracks⟩, hstops⟩ := hsettled
  have hmem : ∀ cpu k, (cpu, k) ∈ arrivals ↔ _ :=
    fun cpu k => mem_toFinset.symm.trans (htracks.mem cpu k)
  refine ⟨fun cpu => ⟨fun k hk hle => (hmem cpu k).2 (.inl ⟨hk, hle⟩), fun n hn => ?_⟩, ?_,
    fun p hp => hsettled.repeated (hnumbers p hp).1 (mem_toFinset.2 hp),
    fun pending => s.acknowledgeListenerFences_perm le_rfl,
    fun _ _ => hsettled.limit_of_receive⟩
  · by_contra hlt
    have hnext := (hmem cpu _).1 (hn ((s.byCpu cpu).contiguous + 1) (by omega) (by omega))
    rw [htracks.mem_early] at hnext
    exact hstops cpu (hnext.resolve_left (by omega))
  · rw [htracks.outstanding]
    congr 1
    ext ⟨cpu, k⟩
    have := htracks.beyond cpu k
    rw [Finset.mem_filter, htracks.mem]
    constructor <;> grind

/-- Two CPUs, of which one has its first two numbers swapped and its fourth early. -/
theorem watermarks_two_cpus :
    ∃ s, [(0, 2), (3, 1), (0, 1), (0, 4)].foldlM receive {} = some s ∧
      (s.byCpu 0).contiguous = 2 ∧
      IsGreatest {n | ∀ k, 1 ≤ k → k ≤ n → (0, k) ∈ [(0, 2), (3, 1), (0, 1), (0, 4)]}
        (s.byCpu 0).contiguous :=
  ⟨_, rfl, rfl, (watermarks_of_run (by decide) rfl).1 0⟩

/-- The first `m` CPUs have published one event each. -/
def oneEach (m : Nat) : ListenerSequences :=
  ⟨Finset.range m, fun cpu => if cpu < m then ⟨1, ∅⟩ else {}, 0⟩

theorem receive_oneEach {m : Nat} (h : m < maxListenerSequenceCpus) :
    (oneEach m).receive (m, 1) = some (oneEach (m + 1)) := by
  have hall : Function.update (oneEach m).byCpu m ⟨1, ∅⟩ = (oneEach (m + 1)).byCpu := by
    funext cpu
    by_cases hcpu : cpu = m
    · simp [oneEach, hcpu]
    · have hiff : cpu < m ↔ cpu < m + 1 := by omega
      simp [oneEach, hcpu, hiff]
  have hroom : ¬ maxListenerSequenceCpus ≤ m := h.not_ge
  simp [receive, advanceListenerSequence, absorb, setCpu, oneEach, hroom,
    maxOutOfOrderListenerSequences, Finset.range_add_one] at hall ⊢
  exact hall

theorem foldlM_oneEach (m : Nat) (h : m ≤ maxListenerSequenceCpus) :
    ((List.range m).map fun cpu => (cpu, 1)).foldlM receive {} = some (oneEach m) := by
  induction m with
  | zero => rfl
  | succ m ih =>
    rw [range_succ, map_append, foldlM_append, ih (by omega)]
    simp [receive_oneEach h]

/-- After one number from each of 4096 CPUs the number of another one is refused, and its watermark
stays at zero. -/
theorem last_cpu_refused :
    ∃ s, ((List.range 4096).map fun cpu => (cpu, 1)).foldlM receive {} = some s ∧
      ∃ e, s.advanceListenerSequence 4096 1 = (.error e, s) ∧ (s.byCpu 4096).contiguous = 0 := by
  refine ⟨oneEach 4096, foldlM_oneEach 4096 le_rfl, _, if_pos ?_, rfl⟩
  simp [oneEach, maxListenerSequenceCpus]

end ListenerSequences

end EdgePacer.Ebpf
