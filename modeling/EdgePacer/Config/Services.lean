import EdgePacer.Config.Logs
import EdgePacer.Orchestrator.Paths

/-!
# Service descriptions claim containers

Descriptions are evaluated in order against the listed containers; the first whose selector matches
claims the container, and a source is made for it. A container whose source id folds to the key of
one claimed earlier gets none.

The nested loops come down to two general operations: the claims are an assignment by the first
matching rule, and the sources are those of the claims whose key was not seen
(`claimed_resolve`, `sources_resolve`).
-/

namespace EdgePacer.Config

open Inventory Inventory.Container Discovery Lib List DiscoveryCache
open Std (ExtTreeMap)

/-! ## Descriptions -/

/-- Claims the containers with the selector's labels. -/
structure ServiceDescription where
  serviceSlug : String
  selector : ExtTreeMap String String
  collect : CollectStreamConfig

/-- Every pair of the selector is an atom; an empty selector matches nothing. -/
def selectorMatches (selector atoms : ExtTreeMap String String) : Bool :=
  !selector.isEmpty && selector.toList.all fun pair => atoms[pair.1]? == some pair.2

/-- The id of the source for a container. Fungible replicas are told apart by the pod name. -/
def synthesizedSourceId (collectLogSourceId : String) (c : Container) : String :=
  if c.runtime = "kubernetes" ∧ c.stableInstanceId = c.stableId ∧ c.podName.isEmpty = false then
    collectLogSourceId ++ "/" ++ c.stableInstanceId ++ "/" ++ c.podName
  else collectLogSourceId ++ "/" ++ c.stableInstanceId

namespace ServiceDescription

variable (d : ServiceDescription)

def Matches (c : Container) : Bool := selectorMatches d.selector c.identifierSet

def streamFor (logSourceId : String) : CollectStreamConfig :=
  { d.collect with logSourceId := logSourceId }

def sourceId (c : Container) : String := synthesizedSourceId d.collect.logSourceId c

/-- The name of the state directory of the source. -/
def dirKey (c : Container) : String := Orchestrator.sanitizeId (d.sourceId c)

end ServiceDescription

open ServiceDescription

/-! ## The pass over descriptions and containers -/

/-- The local variables of the pass. The code keeps the ids of the claimed containers only. -/
structure Claims where
  claimedLocators : List String := []
  claimed : List (ServiceDescription × Container) := []
  stateDirKeys : List (String × String) := []
  resolved : ResolvedCollectStreams := {}

def Claims.claimedIds (p : Claims) : List String := p.claimed.map fun x => x.2.id

section

variable (sha : List Char → String) (isFile : String → Bool)

/-- What a claimed container contributes unless its key is taken. -/
def described (p : Claims) (d : ServiceDescription) (c : Container) : Claims :=
  let logSourceId := d.sourceId c
  let locator := c.logLocator isFile
  if locator.isEmpty then
    { p with
      resolved := p.resolved.diagnose ⟨logSourceId, .notFound,
        "matched container " ++ c.stableInstanceId ++ " has no readable log locator"⟩ }
  else
    { p with
      claimedLocators := p.claimedLocators ++ [locator]
      resolved :=
        let routed := p.resolved.push (.selector c.id)
          (routeSource sha (d.streamFor logSourceId) locator (c.determineAccessMethod isFile))
        { routed.diagnose ⟨logSourceId, .matched,
            "via selector (service " ++ d.serviceSlug ++ ")"⟩ with
          checkpointAdoptions :=
            p.resolved.checkpointAdoptions ++ [⟨d.collect.logSourceId, logSourceId⟩] } }

/-- A description claims a container. -/
def claim (p : Claims) (x : ServiceDescription × Container) : Claims :=
  let claimed := { p with claimed := p.claimed ++ [x] }
  if x.1.dirKey x.2 ∈ p.stateDirKeys.map Prod.fst then claimed
  else
    described sha isFile
      { claimed with stateDirKeys := (x.1.dirKey x.2, x.1.sourceId x.2) :: p.stateDirKeys }
      x.1 x.2

/-- The body of the inner loop. -/
def offer (d : ServiceDescription) (p : Claims) (c : Container) : Claims :=
  if c.id ∈ p.claimedIds then p
  else if d.Matches c then claim sha isFile p (d, c)
  else p

def resolveServiceDescriptions (ds : List ServiceDescription) (cache : DiscoveryCache)
    (resolved : ResolvedCollectStreams) : Claims :=
  let start : Claims := { resolved := resolved }
  if ds.isEmpty then start
  else
    ds.foldl (fun p d => cache.distinctContainers.foldl (offer sha isFile d) p) start

/-- Descriptions first, then the directives with what was claimed left out. -/
def resolvedCollectFromConfig (ds : List ServiceDescription) (streams : List CollectStreamConfig)
    (cache : DiscoveryCache) : ResolvedCollectStreams :=
  let p := resolveServiceDescriptions sha isFile ds cache {}
  resolveCollectStreamsInto sha isFile cache p.claimedLocators p.resolved streams

end

/-! ## The loops as an assignment -/

section

variable {sha : List Char → String} {isFile : String → Bool}

variable (p : Claims) (x : ServiceDescription × Container) (d : ServiceDescription)
  {cs : List Container}

@[simp] theorem claimed_claim : (claim sha isFile p x).claimed = p.claimed ++ [x] := by
  rw [claim]
  split
  · rfl
  · rw [described]
    split <;> rfl

theorem claimedIds_claim : (claim sha isFile p x).claimedIds = p.claimedIds ++ [x.2.id] := by
  rw [Claims.claimedIds, claimed_claim, map_append]
  rfl

theorem claimed_foldl_claim (xs : List (ServiceDescription × Container)) (p : Claims) :
    (xs.foldl (claim sha isFile) p).claimed = p.claimed ++ xs := by
  induction xs generalizing p with
  | nil => simp
  | cons x xs ih => simp [ih]

/-- The inner loop claims the containers that are free and match. -/
theorem foldl_offer (hnodup : (cs.map Container.id).Nodup) (p : Claims) :
    cs.foldl (offer sha isFile d) p =
      ((cs.filter fun c => decide (c.id ∉ p.claimedIds) && d.Matches c).map
        fun c => (d, c)).foldl (claim sha isFile) p := by
  induction cs generalizing p with
  | nil => rfl
  | cons c cs ih =>
    rw [map_cons, nodup_cons] at hnodup
    obtain ⟨hc, hnodup⟩ := hnodup
    rw [foldl_cons, ih hnodup, offer]
    by_cases hid : c.id ∈ p.claimedIds
    · simp [hid]
    · cases hm : d.Matches c with
      | false => simp [hm]
      | true =>
        -- the claim takes away no other container of the list
        have hrest : cs.filter (fun c' =>
              decide (c'.id ∉ (claim sha isFile p (d, c)).claimedIds) && d.Matches c') =
            cs.filter fun c' => decide (c'.id ∉ p.claimedIds) && d.Matches c' := by
          refine filter_congr fun c' hc' => ?_
          have hne : c'.id ≠ c.id := fun h => hc (h ▸ mem_map_of_mem hc')
          rw [claimedIds_claim]
          simp [hne]
        rw [if_neg hid, if_pos rfl, hrest]
        simp [hid, hm]

/-- The containers no description before has claimed. -/
def free (p : Claims) (cs : List Container) : List Container :=
  cs.filter fun c => decide (c.id ∉ p.claimedIds)

theorem free_foldl_offer (hnodup : (cs.map Container.id).Nodup) (p : Claims) :
    free (cs.foldl (offer sha isFile d) p) cs = (free p cs).filter fun c => !d.Matches c := by
  have hids : (cs.foldl (offer sha isFile d) p).claimedIds = p.claimedIds ++
      (cs.filter fun c => decide (c.id ∉ p.claimedIds) && d.Matches c).map Container.id := by
    rw [foldl_offer d hnodup, Claims.claimedIds, claimed_foldl_claim, map_append, map_map]
    rfl
  rw [free, free, filter_filter]
  -- ids are distinct, so an id among the new claims is that of the container itself
  refine filter_congr fun c hc => ?_
  have hown : c.id ∈ (cs.filter fun c => decide (c.id ∉ p.claimedIds) && d.Matches c).map
      Container.id ↔ c.id ∉ p.claimedIds ∧ d.Matches c = true := by
    constructor
    · intro h
      obtain ⟨c', hc', hid⟩ := mem_map.1 h
      obtain ⟨hmem, hfree⟩ := mem_filter.1 hc'
      obtain rfl : c' = c := inj_on_of_nodup_map hnodup hmem hc hid
      simpa using hfree
    · intro h
      exact mem_map.2 ⟨c, mem_filter.2 ⟨hc, by simpa using h⟩, rfl⟩
  cases hm : d.Matches c <;> by_cases hid : c.id ∈ p.claimedIds <;> simp_all

/-- The outer loop is the claims of an assignment, one after the other. -/
theorem foldl_foldl_offer (ds : List ServiceDescription) (hnodup : (cs.map Container.id).Nodup)
    (p : Claims) :
    ds.foldl (fun p d => cs.foldl (offer sha isFile d) p) p =
      (assign Matches ds (free p cs)).foldl (claim sha isFile) p := by
  induction ds generalizing p with
  | nil => rfl
  | cons d ds ih =>
    have hmatch : (free p cs).filter d.Matches =
        cs.filter fun c => decide (c.id ∉ p.claimedIds) && d.Matches c := by
      rw [free, filter_filter]
      exact filter_congr fun c _ => Bool.and_comm _ _
    rw [foldl_cons, ih, free_foldl_offer d hnodup, assign, foldl_append, hmatch,
      ← foldl_offer d hnodup]

variable (sha isFile) in
theorem resolveServiceDescriptions_eq (ds : List ServiceDescription) (cache : DiscoveryCache)
    (resolved : ResolvedCollectStreams) :
    resolveServiceDescriptions sha isFile ds cache resolved =
      (assign Matches ds cache.distinctContainers).foldl (claim sha isFile)
        { resolved := resolved } := by
  have hfree : free { resolved := resolved } cache.distinctContainers =
      cache.distinctContainers := by
    simp [free, Claims.claimedIds]
  rw [resolveServiceDescriptions]
  cases ds with
  | nil => rfl
  | cons d ds =>
    rw [if_neg (by simp), foldl_foldl_offer _ nodup_distinctContainers, hfree]

end

/-! ## What the claims contribute -/

/-- What the container's log is, for a reader; `none` when there is nothing to read. -/
def logTarget (isFile : String → Bool) (c : Container) : Option Target :=
  if (c.logLocator isFile).isEmpty then none
  else some (targetOf (c.logLocator isFile) (c.determineAccessMethod isFile))

/-- The source a claim makes. -/
def claimSource (sha : List Char → String) (isFile : String → Bool)
    (x : ServiceDescription × Container) : Option (Origin × Source) :=
  if (x.2.logLocator isFile).isEmpty then none
  else
    some (.selector x.2.id, routeSource sha (x.1.streamFor (x.1.sourceId x.2))
      (x.2.logLocator isFile) (x.2.determineAccessMethod isFile))

/-- The claims whose key no claim before them has. -/
def keyed (seen : List String) (xs : List (ServiceDescription × Container)) :
    List (ServiceDescription × Container) :=
  unseen (fun x => x.1.dirKey x.2) seen xs

section

variable {sha : List Char → String} {isFile : String → Bool}

variable {p : Claims} {x : ServiceDescription × Container}

theorem claim_of_mem (h : x.1.dirKey x.2 ∈ p.stateDirKeys.map Prod.fst) :
    claim sha isFile p x = { p with claimed := p.claimed ++ [x] } := by
  rw [claim, if_pos h]

variable (h : x.1.dirKey x.2 ∉ p.stateDirKeys.map Prod.fst)

include h

theorem stateDirKeys_claim_of_not_mem :
    (claim sha isFile p x).stateDirKeys.map Prod.fst =
      x.1.dirKey x.2 :: p.stateDirKeys.map Prod.fst := by
  rw [claim, if_neg h, described]
  split <;> simp

theorem sources_claim_of_not_mem :
    (claim sha isFile p x).resolved.sources =
      p.resolved.sources ++ (claimSource sha isFile x).toList := by
  rw [claim, if_neg h, described, claimSource]
  split <;> simp

theorem claimedLocators_claim_of_not_mem :
    (claim sha isFile p x).claimedLocators =
      p.claimedLocators ++ [x.2.logLocator isFile].filter fun l => !l.isEmpty := by
  rw [claim, if_neg h, described]
  split
  · rename_i hempty
    simp [hempty]
  · rename_i hempty
    simp [hempty]

omit h

/-- The sources and the claimed locators are those of the claims with a key of their own. -/
theorem foldl_claim_eq (xs : List (ServiceDescription × Container)) (p : Claims) :
    (xs.foldl (claim sha isFile) p).resolved.sources = p.resolved.sources ++
        (keyed (p.stateDirKeys.map Prod.fst) xs).filterMap (claimSource sha isFile) ∧
      (xs.foldl (claim sha isFile) p).claimedLocators = p.claimedLocators ++
        ((keyed (p.stateDirKeys.map Prod.fst) xs).map fun x => x.2.logLocator isFile).filter
          fun l => !l.isEmpty := by
  induction xs generalizing p with
  | nil => simp [keyed, unseen]
  | cons x xs ih =>
    obtain ⟨ihsources, ihlocators⟩ := ih (claim sha isFile p x)
    rw [foldl_cons, ihsources, ihlocators]
    -- a taken key is skipped, a new one is remembered for the claims after it
    by_cases hkey : x.1.dirKey x.2 ∈ p.stateDirKeys.map Prod.fst
    · have hskip : keyed (p.stateDirKeys.map Prod.fst) (x :: xs) =
          keyed (p.stateDirKeys.map Prod.fst) xs := by
        rw [keyed, unseen, if_pos hkey]
        rfl
      rw [hskip, claim_of_mem hkey]
      exact ⟨rfl, rfl⟩
    · have hkeep : keyed (p.stateDirKeys.map Prod.fst) (x :: xs) =
          x :: keyed ((claim sha isFile p x).stateDirKeys.map Prod.fst) xs := by
        rw [stateDirKeys_claim_of_not_mem hkey, keyed, unseen, if_neg hkey]
        rfl
      rw [hkeep, sources_claim_of_not_mem hkey, claimedLocators_claim_of_not_mem hkey]
      constructor
      · cases hs : claimSource sha isFile x <;> simp [hs]
      · rw [append_assoc, ← filter_append]
        rfl

end

/-! ## Which containers get a source -/

section

variable (ds : List ServiceDescription)

/-- The first description in the list that matches. -/
def claimant (c : Container) : Option ServiceDescription := ds.find? fun d => d.Matches c

/-- The key of the state directory of the container's source. -/
def containerKey (c : Container) : Option String := (claimant ds c).map fun d => d.dirKey c

/-- A container's turn comes before another's: its description is the earlier one, or it is listed
first for the same description. -/
def ClaimedBefore (c c' : Container) : Prop :=
  rank Matches ds c < rank Matches ds c' ∨
    rank Matches ds c = rank Matches ds c' ∧
      sortKey c < sortKey c'

/-- A listed container whose turn comes before has the same key. -/
def Shadowed (listed : List Container) (c : Container) : Prop :=
  ∃ c' ∈ listed, ClaimedBefore ds c' c ∧ containerKey ds c' = containerKey ds c

variable {ds}

variable {c : Container} {d : ServiceDescription}

theorem ClaimedBefore.asymm {c' : Container} (h : ClaimedBefore ds c c') :
    ¬ ClaimedBefore ds c' c := by
  rintro (h' | ⟨heq, h'⟩)
  · rcases h with h | ⟨heq, -⟩
    · exact absurd h (Nat.lt_asymm h')
    · exact absurd heq (Nat.ne_of_gt h')
  · rcases h with h | ⟨-, h⟩
    · exact absurd heq (Nat.ne_of_gt h)
    · exact absurd h (lt_asymm h')

theorem containerKey_eq (h : claimant ds c = some d) : containerKey ds c = some (d.dirKey c) := by
  rw [containerKey, h]
  rfl

/-- Containers are claimed in the order of their turns. -/
theorem pairwise_claimedBefore {cache : DiscoveryCache} :
    (assign Matches ds cache.distinctContainers).Pairwise
      fun x y => ClaimedBefore ds x.2 y.2 :=
  pairwise_assign pairwise_distinctContainers

theorem mem_keyed_iff {cache : DiscoveryCache} :
    (d, c) ∈ keyed [] (assign Matches ds cache.distinctContainers) ↔
      c ∈ cache.distinctContainers ∧ claimant ds c = some d ∧
        ¬ Shadowed ds cache.distinctContainers c := by
  have hasymm : ∀ x y : ServiceDescription × Container,
      ClaimedBefore ds x.2 y.2 → ¬ ClaimedBefore ds y.2 x.2 := fun _ _ h => h.asymm
  rw [keyed, mem_unseen_iff hasymm pairwise_claimedBefore, mem_assign, and_assoc]
  refine and_congr_right fun hc => and_congr_right fun hd => ?_
  constructor
  · rintro ⟨-, h⟩ ⟨c', hc', hbefore, hkey⟩
    rw [containerKey_eq hd] at hkey
    obtain ⟨d', hd', hkey'⟩ := Option.map_eq_some_iff.1 hkey
    exact h (d', c') (mem_assign.2 ⟨hc', hd'⟩) hbefore hkey'
  · intro h
    refine ⟨not_mem_nil, ?_⟩
    rintro ⟨d', c'⟩ hmem hbefore hkey
    obtain ⟨hc', hd'⟩ := mem_assign.1 hmem
    exact h ⟨c', hc', hbefore, by rw [containerKey_eq hd', containerKey_eq hd, hkey]⟩

end

section

variable {sha : List Char → String} {isFile : String → Bool} {ds : List ServiceDescription}
  {cache : DiscoveryCache}

theorem claimed_resolve : (resolveServiceDescriptions sha isFile ds cache {}).claimed =
    assign Matches ds cache.distinctContainers := by
  rw [resolveServiceDescriptions_eq, claimed_foldl_claim, nil_append]

theorem sources_resolve : (resolveServiceDescriptions sha isFile ds cache {}).resolved.sources =
    (keyed [] (assign Matches ds cache.distinctContainers)).filterMap
      (claimSource sha isFile) := by
  rw [resolveServiceDescriptions_eq, (foldl_claim_eq _ _).1]
  rfl

variable {e : Origin × Source}

/-- The sources of the descriptions, one for each container that is claimed, has a log and is not
shadowed. -/
theorem mem_sources_resolve :
    e ∈ (resolveServiceDescriptions sha isFile ds cache {}).resolved.sources ↔
      ∃ c ∈ cache.distinctContainers, ∃ d, claimant ds c = some d ∧
        ¬ Shadowed ds cache.distinctContainers c ∧ claimSource sha isFile (d, c) = some e := by
  rw [sources_resolve, mem_filterMap]
  constructor
  · rintro ⟨⟨d, c⟩, hmem, he⟩
    obtain ⟨hc, hd, hshadow⟩ := mem_keyed_iff.1 hmem
    exact ⟨c, hc, d, hd, hshadow, he⟩
  · rintro ⟨c, hc, d, hd, hshadow, he⟩
    exact ⟨(d, c), mem_keyed_iff.2 ⟨hc, hd, hshadow⟩, he⟩

theorem mem_claimedLocators_resolve {locator : String} :
    locator ∈ (resolveServiceDescriptions sha isFile ds cache {}).claimedLocators ↔
      locator.isEmpty = false ∧ ∃ c ∈ cache.distinctContainers, (claimant ds c).isSome ∧
        ¬ Shadowed ds cache.distinctContainers c ∧ c.logLocator isFile = locator := by
  rw [resolveServiceDescriptions_eq, (foldl_claim_eq _ _).2, nil_append, mem_filter, and_comm]
  refine and_congr (by simp) ⟨?_, ?_⟩
  · intro h
    obtain ⟨⟨d, c⟩, hmem, rfl⟩ := mem_map.1 h
    obtain ⟨hc, hd, hshadow⟩ := mem_keyed_iff.1 hmem
    exact ⟨c, hc, by simp [hd], hshadow, rfl⟩
  · rintro ⟨c, hc, hsome, hshadow, rfl⟩
    obtain ⟨d, hd⟩ := Option.isSome_iff_exists.1 hsome
    exact mem_map.2 ⟨(d, c), mem_keyed_iff.2 ⟨hc, hd, hshadow⟩, rfl⟩

/-- A claim's source reads the log of its container. -/
theorem claimSource_eq_some {x : ServiceDescription × Container}
    (h : claimSource sha isFile x = some e) :
    e.1 = .selector x.2.id ∧ logTarget isFile x.2 = some e.2.target := by
  rw [claimSource] at h
  split at h
  · exact nomatch h
  · rename_i hempty
    cases h
    exact ⟨rfl, by rw [logTarget, if_neg hempty, target_routeSource]⟩

theorem exists_claimSource {d : ServiceDescription} {c : Container} {t : Target}
    (h : logTarget isFile c = some t) :
    ∃ source, claimSource sha isFile (d, c) = some (.selector c.id, source) ∧
      source.target = t := by
  rw [logTarget] at h
  split at h
  · exact nomatch h
  · rename_i hempty
    refine ⟨_, by rw [claimSource, if_neg hempty], ?_⟩
    rw [target_routeSource]
    exact Option.some.inj h

end

end EdgePacer.Config
