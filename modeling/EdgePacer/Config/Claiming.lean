import EdgePacer.Config.Services

/-!
# Who reads a claimed container

A container that some description matches is meant to have one reader: the source made for it. Two
statements about that are settled here for every list of descriptions and every cache.

`exclusive_iff`: nobody else reads its log exactly when no other container with the same log gets a
source, no directive names the log by its path, and its locator is kept from directives that the
cache resolves. The first and the last can fail because of a shadowed container; the second because
the exact path of a file is not compared with what was claimed.

`running_read_iff`: a running container is read exactly when it, or a container with the same log,
is not shadowed. Stopped generations are listed too, so that one of them can shadow it.
-/

namespace EdgePacer.Config

open Inventory Inventory.Container Discovery Lib List Option Origin Prod AList DiscoveryCache

/-! ## Targets of containers -/

section

variable {isFile : String → Bool}

theorem locator_eq_of_targetOf_eq {l l' : String} {m m' : AccessMethod}
    (h : targetOf l m = targetOf l' m') : l = l' := by
  cases m <;> cases m' <;> simp_all [targetOf]

theorem locator_of_logTarget {c : Container} {l : String} {m : AccessMethod}
    (h : logTarget isFile c = some (targetOf l m)) :
    (c.logLocator isFile).isEmpty = false ∧ l = c.logLocator isFile := by
  rw [logTarget] at h
  split at h
  · cases h
  · rename_i hempty
    exact ⟨by simpa using hempty, (locator_eq_of_targetOf_eq (some.inj h)).symm⟩

theorem logTarget_ne_eventLog (c : Container) (channel : String) :
    logTarget isFile c ≠ some (.stream (.windowsEventLog channel)) := by
  intro h
  rw [logTarget] at h
  split at h
  · cases h
  · have hmethod : c.determineAccessMethod isFile ≠ .windowsEventLog := by
      rw [determineAccessMethod]
      repeat' split
      all_goals
        intro heq
        cases heq
    cases hm : c.determineAccessMethod isFile with
    | windowsEventLog => exact hmethod hm
    | _ =>
      rw [hm] at h
      cases h

end

/-! ## Origins -/

section

variable {sha : List Char → String} {isFile : String → Bool} {ds : List ServiceDescription}
  {cache : DiscoveryCache}

/-- The directives add behind the sources that are there. -/
theorem exists_added (claimedLocators : List String) (streams : List CollectStreamConfig)
    (r : ResolvedCollectStreams) :
    ∃ added, (resolveCollectStreamsInto sha isFile cache claimedLocators r streams).sources =
        r.sources ++ added ∧ ∀ e ∈ added, e.1 = directive := by
  induction streams generalizing r with
  | nil => exact ⟨[], by simp [resolveCollectStreamsInto], by simp⟩
  | cons s streams ih =>
    obtain ⟨rest, hrest, hrest'⟩ := ih (resolveDirective sha isFile cache claimedLocators r s)
    refine ⟨((addedSource sha isFile cache claimedLocators s).map
      (mk directive)).toList ++ rest, ?_, ?_⟩
    · rw [resolveCollectStreamsInto, foldl_cons]
      rw [resolveCollectStreamsInto] at hrest
      rw [hrest, sources_resolveDirective, append_assoc]
    · intro e he
      rcases mem_append.1 he with he | he
      · obtain ⟨source, -, rfl⟩ := map_eq_some_iff.1 (mem_toList.1 he)
        rfl
      · exact hrest' e he

theorem nodup_origins :
    ((resolveServiceDescriptions sha isFile ds cache {}).resolved.sources.map fst).Nodup := by
  have hids : (assign ServiceDescription.Matches ds cache.distinctContainers).Pairwise
      fun x y => x.2.id ≠ y.2.id := by
    -- a container does not come before itself
    refine pairwise_claimedBefore.imp_of_mem ?_
    intro x y hx hy hbefore hid
    have heq : x.2 = y.2 := inj_on_of_nodup_map nodup_distinctContainers
      (mem_assign.1 hx).1 (mem_assign.1 hy).1 hid
    rw [heq] at hbefore
    exact hbefore.asymm hbefore
  have hkept : (keyed [] (assign ServiceDescription.Matches ds cache.distinctContainers)).Pairwise
      fun x y => x.2.id ≠ y.2.id := hids.sublist (unseen_sublist _ [])
  rw [sources_resolve, List.Nodup, pairwise_map]
  refine pairwise_filterMap.2 (hkept.imp ?_)
  intro x y hne e he e' he' heq
  rw [(claimSource_eq_some he).1, (claimSource_eq_some he').1] at heq
  exact hne (selector.inj heq)

end

/-! ## Listed containers of a scan -/

section

variable {ν : Type}

variable {ws : List (String × ν)} {c : Container}

theorem mem_of_mem_entries_foldl {e : Σ _ : String, ν} :
    ∀ {m : AList fun _ : String => ν},
      e ∈ (ws.foldl (fun m w => insert w.1 w.2 m) m).entries → (e.1, e.2) ∈ ws ∨ e ∈ m.entries := by
  induction ws with
  | nil => exact fun h => .inr h
  | cons w ws ih =>
    intro m h
    rcases ih h with h | h
    · exact .inl (mem_cons_of_mem w h)
    · rw [entries_insert, mem_cons] at h
      rcases h with rfl | h
      · exact .inl mem_cons_self
      · exact .inr (kerase_sublist _ _ |>.subset h)

/-- The writes of a key that agree decide what the key holds. -/
theorem lookup_foldl_of_mem {k : String} {v : ν} (hv : ∀ v', (k, v') ∈ ws → v' = v) :
    ∀ {m : AList fun _ : String => ν}, (k, v) ∈ ws ∨ m.lookup k = some v →
      (ws.foldl (fun m w => insert w.1 w.2 m) m).lookup k = some v := by
  induction ws with
  | nil =>
    rintro m (h | h)
    · exact nomatch h
    · exact h
  | cons w ws ih =>
    intro m h
    refine ih (fun v' h' => hv v' (mem_cons_of_mem w h')) ?_
    by_cases hk : k = w.1
    · obtain rfl : w.2 = v := hv w.2 (hk ▸ mem_cons_self)
      exact .inr (hk ▸ lookup_insert m)
    · rw [lookup_insert_ne hk]
      refine h.imp_left fun h => ?_
      rcases mem_cons.1 h with rfl | h
      · exact absurd rfl hk
      · exact h

variable {cache : DiscoveryCache} {scan : Scan}

theorem mem_scan_of_mem_values (hholds : cache.Holds scan) (hc : c ∈ cache.containers.values) :
    c ∈ scan.containers := by
  obtain ⟨e, he, rfl⟩ := mem_map.1 hc
  have hwrite := mem_of_mem_entries_foldl (hholds.containers.mem_iff.1 he)
  rcases hwrite with hwrite | hwrite
  · rcases mem_append.1 hwrite with h | h
    · obtain ⟨c, hc, hkey⟩ := mem_flatMap.1 h
      obtain ⟨key, -, heq⟩ := mem_map.1 hkey
      rw [← (mk.inj heq).2]
      rcases mem_append.1 hc with hc | hc
      · exact (mem_filter.1 hc).1
      · exact (mem_filter.1 hc).1
    · obtain ⟨c, hc, hkey⟩ := mem_flatMap.1 h
      obtain ⟨key, -, heq⟩ := mem_map.1 hkey
      rw [← (mk.inj heq).2]
      exact hc
  · exact nomatch hwrite

theorem mem_scan_of_mem_distinctContainers (hholds : cache.Holds scan)
    (hc : c ∈ cache.distinctContainers) : c ∈ scan.containers :=
  mem_scan_of_mem_values hholds (mem_of_mem_unseen (mem_distinctContainers.1 hc))

/-- A container whose runtime id refers to no other is listed, whatever else shares its names. -/
theorem mem_distinctContainers_of_own_id (hholds : cache.Holds scan) (hc : c ∈ scan.containers)
    (hown : ∀ c' ∈ scan.containers, c.id ∈ c'.runtimeIds → c' = c) :
    c ∈ cache.distinctContainers := by
  -- runtime ids are written last, over the names
  have hlookup : (updateContainers scan.containers).lookup c.id = some c := by
    rw [updateContainers, Index.ofWrites, containerWrites, foldl_append]
    refine lookup_foldl_of_mem ?_ (.inl ?_)
    · intro c' h
      obtain ⟨c'', hc'', hkey⟩ := mem_flatMap.1 h
      obtain ⟨key, hmem, heq⟩ := mem_map.1 hkey
      obtain ⟨rfl, rfl⟩ := mk.inj heq
      exact hown c'' hc'' hmem
    · exact mem_flatMap.2 ⟨c, hc, mem_map.2 ⟨c.id, mem_cons_self, rfl⟩⟩
  have hvalue : c ∈ cache.containers.values :=
    mem_map.2 ⟨⟨c.id, c⟩, hholds.containers.mem_iff.2 (mem_lookup_iff.1 hlookup), rfl⟩
  obtain ⟨c', hc', hid⟩ : ∃ c' ∈ unseen Container.id [] cache.containers.values, c'.id = c.id :=
    exists_mem_unseen hvalue not_mem_nil
  obtain rfl : c' = c := by
    refine hown c' (mem_scan_of_mem_values hholds (mem_of_mem_unseen hc')) ?_
    rw [← hid]
    exact mem_cons_self
  exact mem_distinctContainers.2 hc'

end

/-! ## One reader -/

section

variable (sha : List Char → String) (isFile : String → Bool) (ds : List ServiceDescription)
  (streams : List CollectStreamConfig) (cache : DiscoveryCache) (c : Container)

/-- The first matching description claims the container, and what reads its log is one source, the
one that was made for it. -/
structure Exclusive : Prop where
  claimed : ∀ d, (d, c) ∈ (resolveServiceDescriptions sha isFile ds cache {}).claimed ↔
    claimant ds c = some d
  own : ∀ e ∈ (resolvedCollectFromConfig sha isFile ds streams cache).sources,
    logTarget isFile c = some e.2.target → e.1 = .selector c.id
  once : ((resolvedCollectFromConfig sha isFile ds streams cache).sources.map fst).count
    (.selector c.id) ≤ 1

/-- Nothing else can come to read a log. -/
structure Undisputed (t : Target) : Prop where
  /-- Of the other claimed containers with this log none gets a source. -/
  containers : ∀ c' ∈ cache.distinctContainers, c'.id ≠ c.id → (claimant ds c').isSome →
    logTarget isFile c' = some t → Shadowed ds cache.distinctContainers c'
  /-- No directive names it by the path. -/
  paths : ∀ s ∈ streams, NamesFile isFile s → t ≠ .file s.identifier
  /-- Its locator is the locator of a container that gets a source, or no directive leads to it. -/
  lookups :
    (∃ c' ∈ cache.distinctContainers, (claimant ds c').isSome ∧
      ¬ Shadowed ds cache.distinctContainers c' ∧ c'.logLocator isFile = c.logLocator isFile) ∨
    ∀ s ∈ streams, ∀ access, LooksUp isFile cache s access →
      t ≠ targetOf access.accessLocator access.accessMethod

def Uncontested : Prop := ∀ t, logTarget isFile c = some t → Undisputed isFile ds streams cache c t

variable {sha isFile ds streams cache c}

variable {e : Origin × Source} {t : Target}

theorem mem_sources_resolvedCollect :
    e ∈ (resolvedCollectFromConfig sha isFile ds streams cache).sources ↔
      e ∈ (resolveServiceDescriptions sha isFile ds cache {}).resolved.sources ∨
        e.1 = .directive ∧ ∃ s ∈ streams, Adds sha isFile cache
          (resolveServiceDescriptions sha isFile ds cache {}).claimedLocators s e.2 :=
  mem_sources_resolveCollectStreamsInto

theorem count_origins_le (origin : String) :
    ((resolvedCollectFromConfig sha isFile ds streams cache).sources.map fst).count
      (.selector origin) ≤ 1 := by
  obtain ⟨added, hsources, hadded⟩ := exists_added
    (resolveServiceDescriptions sha isFile ds cache {}).claimedLocators streams
    (resolveServiceDescriptions sha isFile ds cache {}).resolved
  have hnone : (added.map fst).count (.selector origin) = 0 := by
    refine count_eq_zero.2 fun h => ?_
    obtain ⟨e, he, heq⟩ := mem_map.1 h
    rw [hadded e he] at heq
    exact nomatch heq
  rw [resolvedCollectFromConfig, hsources, map_append, count_append, hnone]
  exact nodup_iff_count_le_one.1 nodup_origins _

/-- What makes other sources read the log, in one direction. -/
theorem undisputed_of_own (ht : logTarget isFile c = some t)
    (hown : ∀ e ∈ (resolvedCollectFromConfig sha isFile ds streams cache).sources, logTarget isFile
      c = some e.2.target → e.1 = .selector c.id) : Undisputed isFile ds streams cache c t where
  containers := by
    intro c' hc' hne hsome ht'
    by_contra hshadow
    obtain ⟨d, hd⟩ := isSome_iff_exists.1 hsome
    obtain ⟨source, hsource, htarget⟩ : ∃ source,
        claimSource sha isFile (d, c') = some (.selector c'.id, source) ∧ source.target = t :=
      exists_claimSource ht'
    have hmem : (selector c'.id, source) ∈
        (resolvedCollectFromConfig sha isFile ds streams cache).sources :=
      mem_sources_resolvedCollect.2
        (.inl (mem_sources_resolve.2 ⟨c', hc', d, hd, hshadow, hsource⟩))
    exact hne (selector.inj (hown _ hmem (by rw [ht, htarget])))
  paths := by
    rintro s hs hnames rfl
    have hmem : (directive, Source.file (logStreamFromCollect sha s s.identifier .plain)) ∈
        (resolvedCollectFromConfig sha isFile ds streams cache).sources :=
      mem_sources_resolvedCollect.2 (.inr ⟨rfl, s, hs, .filePath hnames⟩)
    exact nomatch hown _ hmem ht
  lookups := by
    by_cases hreserved : ∃ c' ∈ cache.distinctContainers, (claimant ds c').isSome ∧
        ¬ Shadowed ds cache.distinctContainers c' ∧ c'.logLocator isFile = c.logLocator isFile
    · exact .inl hreserved
    · -- nothing keeps the locator from a directive that leads to it
      refine .inr ?_
      rintro s hs access hlook rfl
      obtain ⟨-, hlocator⟩ := locator_of_logTarget ht
      have hfree : access.accessLocator ∉
          (resolveServiceDescriptions sha isFile ds cache {}).claimedLocators := by
        intro hclaimed
        rw [hlocator] at hclaimed
        exact hreserved (mem_claimedLocators_resolve.1 hclaimed).2
      have hmem : (directive, routeSource sha s access.accessLocator access.accessMethod) ∈
          (resolvedCollectFromConfig sha isFile ds streams cache).sources :=
        mem_sources_resolvedCollect.2 (.inr ⟨rfl, s, hs, .lookup access hlook hfree⟩)
      exact nomatch hown _ hmem (by rw [target_routeSource, ht])

/-- And in the other. -/
theorem own_of_undisputed (ht : logTarget isFile c = some t)
    (h : Undisputed isFile ds streams cache c t)
    (he : e ∈ (resolvedCollectFromConfig sha isFile ds streams cache).sources)
    (htarget : e.2.target = t) : e.1 = .selector c.id := by
  rcases mem_sources_resolvedCollect.1 he with he | ⟨-, s, hs, hadds⟩
  · obtain ⟨c', hc', d, hd, hshadow, hsource⟩ := mem_sources_resolve.1 he
    obtain ⟨horigin, htarget'⟩ := claimSource_eq_some hsource
    rw [horigin]
    by_contra hne
    have hid : c'.id ≠ c.id := fun hid => hne (congrArg selector hid)
    exact hshadow (h.containers c' hc' hid (by simp [hd]) (by rw [htarget', htarget]))
  · obtain ⟨origin, source⟩ := e
    cases hadds with
    | eventLog =>
      subst htarget
      exact absurd ht (logTarget_ne_eventLog c _)
    | filePath hnames => exact absurd htarget.symm (h.paths s hs hnames)
    | lookup access hlook hfree =>
      have htarget' := (target_routeSource sha s _ _).symm.trans htarget
      subst htarget'
      rcases h.lookups with hreserved | hnone
      -- a locator that was claimed is not free
      · obtain ⟨hempty, hlocator⟩ := locator_of_logTarget ht
        refine absurd (mem_claimedLocators_resolve.2 ⟨?_, ?_⟩) hfree
        · rw [hlocator, hempty]
        · rw [hlocator]
          exact hreserved
      · exact absurd rfl (hnone s hs access hlook)

theorem exclusive_iff (sha : List Char → String) (isFile : String → Bool)
    (ds : List ServiceDescription) (streams : List CollectStreamConfig) (cache : DiscoveryCache)
    (c : Container) (hc : c ∈ cache.distinctContainers) :
    Exclusive sha isFile ds streams cache c ↔ Uncontested isFile ds streams cache c := by
  constructor
  · intro h t ht
    exact undisputed_of_own ht h.own
  · intro h
    refine ⟨fun d => ?_, ?_, count_origins_le c.id⟩
    · rw [claimed_resolve, mem_assign, and_iff_right hc]
      rfl
    · intro e he htarget
      exact own_of_undisputed htarget (h _ htarget) he rfl

/-- A container of a Kamal deployment: the labels stay the same from one generation to the next. -/
def generation (id name state : String) : Container where
  id := id
  name := name
  serviceName := ""
  serviceNameExplicit := false
  image := ""
  state := state
  labels := (∅ : Std.ExtTreeMap String String)
    |>.insert "service" "shop" |>.insert "destination" "prod"
  env := []
  runtime := "docker"
  logPath := "/var/log/shop.log"
  logFormat := "plain_text"
  podUid := ""
  podName := ""
  «namespace» := ""
  nodeName := ""
  deployment := ""
  workloadKind := ""
  containerId := id
  containerName := ""
  runtimeProcess := none

def shopService : ServiceDescription where
  serviceSlug := "shop"
  selector := (∅ : Std.ExtTreeMap String String).insert "kamal.service" "shop"
  collect := ⟨"shop", "", "", "", "http://relay", "archive", "repo", false, none⟩

def directiveBy (strategy identifier : String) : CollectStreamConfig :=
  ⟨"legacy", identifier, strategy, "", "http://relay", "archive", "repo", false, none⟩

def containerScan (containers : List Container) : Scan := ⟨⟨containers, [], []⟩, []⟩

theorem holds_updateAll (scan : Scan) : (updateAll scan).Holds scan :=
  ⟨.refl _, .refl _, .refl _, .refl _⟩

theorem mem_distinctContainers_of_alone (c : Container) :
    c ∈ (updateAll (containerScan [c])).distinctContainers :=
  mem_distinctContainers_of_own_id (holds_updateAll _) mem_cons_self
    fun _ hc _ => mem_singleton.1 hc

/-- A directive that finds the container by its name is suppressed. -/
theorem suppressed_directive_exclusive :
    Exclusive String.ofList (fun _ => true) [shopService] [directiveBy "container_name" "shop-1"]
      (updateAll (containerScan [generation "a" "shop-1" "running"]))
      (generation "a" "shop-1" "running") := by
  have hlisted := mem_distinctContainers_of_alone (generation "a" "shop-1" "running")
  have honly : ∀ c ∈ (updateAll (containerScan
      [generation "a" "shop-1" "running"])).distinctContainers,
      c = generation "a" "shop-1" "running" := fun c hc =>
    mem_singleton.1 (mem_scan_of_mem_distinctContainers (holds_updateAll _) hc)
  refine (exclusive_iff _ _ _ _ _ _ hlisted).2 fun t _ => ⟨?_, ?_, .inl ⟨_, hlisted, ?_, ?_, rfl⟩⟩
  · intro c hc hne
    exact absurd (congrArg Container.id (honly c hc)) hne
  · intro s hs hnames
    obtain rfl := mem_singleton.1 hs
    exact absurd hnames.2.2.1 (by decide +kernel)
  · decide +kernel
  · rintro ⟨c, hc, hbefore, -⟩
    rw [honly c hc] at hbefore
    exact hbefore.asymm hbefore

/-- A directive that names the path of the same log is not. -/
theorem path_directive_reads_claimed :
    generation "a" "shop-1" "running" ∈
        (updateAll (containerScan [generation "a" "shop-1" "running"])).distinctContainers ∧
      (claimant [shopService] (generation "a" "shop-1" "running")).isSome ∧
      ¬ Exclusive String.ofList (fun _ => true) [shopService]
        [directiveBy "file_path" "/var/log/shop.log"]
        (updateAll (containerScan [generation "a" "shop-1" "running"]))
        (generation "a" "shop-1" "running") := by
  refine ⟨mem_distinctContainers_of_alone _, by decide +kernel, fun h => ?_⟩
  have hmem := h.own (.directive, .file (logStreamFromCollect String.ofList
    (directiveBy "file_path" "/var/log/shop.log")
    (directiveBy "file_path" "/var/log/shop.log").identifier .plain))
    (mem_sources_resolvedCollect.2 (.inr ⟨rfl, _, mem_singleton.2 rfl,
      .filePath ⟨by decide +kernel, by decide +kernel, by decide +kernel, rfl⟩⟩))
    (by decide +kernel)
  exact nomatch hmem

end

/-! ## Running containers -/

section

variable (isFile : String → Bool) (ds : List ServiceDescription) (scan : Scan) (r : Container)

/-- The id of the source a container would get. -/
def containerSourceId (c : Container) : Option String := (claimant ds c).map fun d => d.sourceId c

/-- A running container that a description matches, with a log to read, and with a source id that
no other running container has. -/
structure Eligible : Prop where
  member : r ∈ scan.containers
  running : r.isRunning = true
  matched : (claimant ds r).isSome
  readable : (logTarget isFile r).isSome
  sole : ∀ c ∈ scan.containers, c.isRunning = true → c ≠ r →
    containerSourceId ds c ≠ containerSourceId ds r

/-- A source that reads the container is resolved. -/
def IsRead (sha : List Char → String) (cache : DiscoveryCache) : Prop :=
  ∃ e ∈ (resolveServiceDescriptions sha isFile ds cache {}).resolved.sources,
    logTarget isFile r = some e.2.target

variable {isFile ds scan r}

theorem running_read_iff (sha : List Char → String) {cache : DiscoveryCache}
    (hholds : cache.Holds scan) (hr : Eligible isFile ds scan r) :
    IsRead isFile ds r sha cache ↔
      ∃ c ∈ scan.containers, c ∈ cache.distinctContainers ∧ (claimant ds c).isSome ∧
        logTarget isFile c = logTarget isFile r ∧ ¬ Shadowed ds cache.distinctContainers c := by
  constructor
  · rintro ⟨e, he, htarget⟩
    obtain ⟨c, hc, d, hd, hshadow, hsource⟩ := mem_sources_resolve.1 he
    refine ⟨c, mem_scan_of_mem_distinctContainers hholds hc, hc, by simp [hd], ?_, hshadow⟩
    rw [(claimSource_eq_some hsource).2, htarget]
  · rintro ⟨c, -, hc, hsome, htarget, hshadow⟩
    obtain ⟨d, hd⟩ := isSome_iff_exists.1 hsome
    obtain ⟨t, ht⟩ := isSome_iff_exists.1 hr.readable
    obtain ⟨source, hsource, hsource'⟩ : ∃ source,
        claimSource sha isFile (d, c) = some (.selector c.id, source) ∧ source.target = t :=
      exists_claimSource (htarget.trans ht)
    exact ⟨_, mem_sources_resolve.2 ⟨c, hc, d, hd, hshadow, hsource⟩, by rw [ht, hsource']⟩

/-- A running generation that comes before the stopped one is read. -/
theorem first_generation_read :
    IsRead (fun _ => false) [shopService] (generation "a" "shop-1" "running") String.ofList
      (updateAll (containerScan
        [generation "a" "shop-1" "running", generation "b" "shop-2" "exited"])) := by
  have hlisted : generation "a" "shop-1" "running" ∈
      (updateAll (containerScan [generation "a" "shop-1" "running",
        generation "b" "shop-2" "exited"])).distinctContainers := by
    refine mem_distinctContainers_of_own_id (holds_updateAll _) mem_cons_self ?_
    intro c hc hid
    rcases mem_pair.1 hc with rfl | rfl
    · rfl
    · exact absurd hid (by decide +kernel)
  refine (running_read_iff String.ofList (holds_updateAll _) ⟨mem_cons_self, by decide +kernel,
    by decide +kernel, by decide +kernel, ?_⟩).2
    ⟨_, mem_cons_self, hlisted, by decide +kernel, rfl, ?_⟩
  · intro c hc hrunning hne
    rcases mem_pair.1 hc with rfl | rfl
    · exact absurd rfl hne
    · exact absurd hrunning (by decide +kernel)
  · rintro ⟨c, hc, hbefore, -⟩
    have hscan := mem_scan_of_mem_distinctContainers (holds_updateAll _) hc
    rcases mem_pair.1 hscan with rfl | rfl
    · exact hbefore.asymm hbefore
    · rcases hbefore with h | ⟨-, h⟩
      · exact absurd h (by decide +kernel)
      · exact absurd h (by decide +kernel)

/-- One that comes after it is not, whatever the order in which the index is iterated. -/
theorem stopped_generation_shadows :
    Eligible (fun _ => false) [shopService]
        (containerScan [generation "a" "shop-1" "exited", generation "b" "shop-2" "running"])
        (generation "b" "shop-2" "running") ∧
      ∀ cache : DiscoveryCache, cache.Holds (containerScan
          [generation "a" "shop-1" "exited", generation "b" "shop-2" "running"]) →
        ¬ IsRead (fun _ => false) [shopService] (generation "b" "shop-2" "running") String.ofList
          cache := by
  refine ⟨⟨mem_cons_of_mem _ mem_cons_self, by decide +kernel, by decide +kernel,
    by decide +kernel, ?_⟩, ?_⟩
  · intro c hc hrunning hne
    rcases mem_pair.1 hc with rfl | rfl
    · exact absurd hrunning (by decide +kernel)
    · exact absurd rfl hne
  · rintro cache hholds ⟨e, he, htarget⟩
    obtain ⟨c, hc, d, -, hshadow, hsource⟩ := mem_sources_resolve.1 he
    have htarget' : logTarget (fun _ => false) (generation "b" "shop-2" "running") =
        logTarget (fun _ => false) c := htarget.trans (claimSource_eq_some hsource).2.symm
    rcases mem_pair.1 (mem_scan_of_mem_distinctContainers hholds hc) with rfl | rfl
    · exact absurd htarget' (by decide +kernel)
    · -- the stopped generation has the smaller id and takes the key
      refine hshadow ⟨generation "a" "shop-1" "exited", ?_, .inr ⟨?_, ?_⟩, ?_⟩
      · refine mem_distinctContainers_of_own_id hholds mem_cons_self ?_
        intro c hc hid
        rcases mem_pair.1 hc with rfl | rfl
        · rfl
        · exact absurd hid (by decide +kernel)
      · decide +kernel
      · decide +kernel
      · decide +kernel

end

end EdgePacer.Config
