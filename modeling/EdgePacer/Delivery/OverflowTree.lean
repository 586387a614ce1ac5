import EdgePacer.Delivery.Overflow
import EdgePacer.Lib.Trace

/-!
# The byte budget of the overflow store

As long as every id is a plain name and every new file gets a name of its own, the store's byte
counter is right and writes keep to the budget (`counted_within_budget`). An id with a slash is
enough to lose track (`nested_file_uncounted`).

What is left of an active file after a crash is up to the crash. Operations that fail are left out.
-/

namespace EdgePacer.Delivery

open Lib List

/-- The path of an active file. -/
def activePath (baseDir : Location) (w : String × SourceWriter) : Location × Nat :=
  (dirOf baseDir w.1, w.2.fileName)

/-- The file is the active one of some writer. -/
def activeIn (baseDir : Location) (writers : List (String × SourceWriter)) (f : OverflowFile) :
    Bool :=
  writers.any fun w => activePath baseDir w == f.path

namespace Writer

variable (s : Writer)

/-- Start over on what is on disk. `left` is what remains of an active file. -/
def restart (budgetBytes : Nat) (left : OverflowFile → Bytes) : Writer :=
  let files := s.files.map fun f =>
    if activeIn s.baseDir s.writers f then { f with content := left f } else f
  let s := { s with budgetBytes := budgetBytes, writers := [], files := files }
  { s with totalBytes := s.scanExistingFiles }

/-! ## Runs -/

/-- The files that are finished. -/
def finalized : List OverflowFile := s.files.filter fun f => !activeIn s.baseDir s.writers f

/-- The counter is the sum of the finalized files' sizes. -/
def Counted : Prop := s.totalBytes = (s.finalized.map s.size).sum

def WithinBudget : Prop := s.totalBytes ≤ s.budgetBytes ∨ s.finalized = []

end Writer

/-- What happens to a store that only fails in crashes. -/
inductive StoreEvent where
  | write (id : String) (line : Bytes) (ts : TimestampNs) (openAt rotateAt : Nat)
  | replay (id : String) (batchSize now : Nat)
  | restart (budgetBytes : Nat) (left : OverflowFile → Bytes)

def StoreEvent.isWrite : StoreEvent → Bool
  | .write .. => true
  | _ => false

/-- One component that is neither `.` nor `..`. -/
def PlainName (id : String) : Prop :=
  '/' ∉ id.toList ∧ id.toList ≠ [] ∧ id.toList ≠ ['.'] ∧ id.toList ≠ ['.', '.']

instance (id : String) : Decidable (PlainName id) := inferInstanceAs (Decidable (_ ∧ _ ∧ _ ∧ _))

namespace Writer

def step (listing : Listing) (s : Writer) : StoreEvent → Writer
  | .write id line ts openAt rotateAt => (s.write ⟨none, openAt, rotateAt, listing⟩ id line ts).2
  | .replay id batchSize now => (s.replayBatch id batchSize now).2
  | .restart budgetBytes left => s.restart budgetBytes left

variable (s : Writer)

/-- No file of the id's directory has this name. -/
def Fresh (id : String) (name : Nat) : Prop := ∀ f ∈ s.files, f.path ≠ (dirOf s.baseDir id, name)

/-- The id is a plain name, and files are created under new names. -/
def Tidy : StoreEvent → Prop
  | .write id _ _ openAt rotateAt =>
      PlainName id ∧ s.Fresh id rotateAt ∧
        (s.writer? id = none → s.Fresh id openAt ∧ rotateAt ≠ openAt)
  | .replay id _ now => PlainName id ∧ s.Fresh id now
  | .restart _ _ => True

/-! ## Plain names -/

theorem dirOf_plain {id : String} (h : PlainName id) (baseDir : Location) :
    dirOf baseDir id = baseDir ++ [id.toList] := by
  obtain ⟨hslash, hne, hdot, hup⟩ := h
  have hjoin := join_of_name [] hslash hne hdot
  unfold join at hjoin
  unfold dirOf
  split at hjoin
  · next habs =>
    -- a text that starts with a slash has one
    exfalso
    cases htext : id.toList with
    | nil => exact hne htext
    | cons c cs =>
      rw [htext, isAbsolute, head?_cons, beq_iff_eq, Option.some.injEq] at habs
      exact hslash (htext ▸ habs ▸ mem_cons_self)
  · next habs =>
    rw [append_cancel_left hjoin, if_neg habs, foldl_cons, foldl_nil, descend, if_neg hup]

theorem subdirectory_append (name : List Char) :
    s.subdirectory (s.baseDir ++ [name]) = some name := by
  rw [subdirectory, if_pos dropLast_concat, getLast?_concat]

/-- Everything lies directly below the base directory, under distinct paths, and every active file
is there. -/
structure Layout (s : Writer) : Prop where
  flat : ∀ f ∈ s.files, ∃ id, PlainName id ∧ f.dir = s.baseDir ++ [id.toList]
  paths : (s.files.map OverflowFile.path).Nodup
  ids : (s.writers.map Prod.fst).Nodup
  plain : ∀ w ∈ s.writers, PlainName w.1
  present : ∀ w ∈ s.writers, ∃ f ∈ s.files, f.path = activePath s.baseDir w

/-- A flat store whose counter is right. -/
structure Sound (s : Writer) : Prop extends Layout s where
  counted : s.Counted

section

variable (baseDir : Location) {sw : SourceWriter} {w : String × SourceWriter} {f : OverflowFile}
  {now rotateAt : Nat} {s : Writer} {id : String}

theorem mem_of_writer? (h : s.writer? id = some sw) : (id, sw) ∈ s.writers := by
  obtain ⟨w, hw, rfl⟩ := Option.map_eq_some_iff.1 h
  have hkey := find?_some hw
  rw [beq_iff_eq] at hkey
  rw [← hkey]
  exact mem_of_find?_eq_some hw

theorem not_mem_of_writer? (h : s.writer? id = none) : ∀ w ∈ s.writers, w.1 ≠ id := by
  rw [writer?, Option.map_eq_none_iff, find?_eq_none] at h
  intro w hw heq
  exact h w hw (beq_iff_eq.2 heq)

theorem Layout.writer?_of_mem (h : s.Layout) (hw : w ∈ s.writers) : s.writer? w.1 = some w.2 := by
  cases hlookup : s.writer? w.1 with
  | none => exact absurd rfl (not_mem_of_writer? hlookup w hw)
  | some sw =>
    have hmem := mem_of_writer? hlookup
    have heq : (w.1, sw) = w := inj_on_of_nodup_map h.ids hmem hw rfl
    rw [← heq]

/-- In a flat store the directory names are the source ids. -/
theorem Layout.active_iff (h : s.Layout) (hdir : f.dir = s.baseDir ++ [id.toList]) :
    activeIn s.baseDir s.writers f = true ↔
      (s.writer? id).map SourceWriter.fileName = some f.name := by
  rw [activeIn, any_eq_true]
  constructor
  · rintro ⟨w, hw, hpath⟩
    obtain ⟨hd, hn⟩ := Prod.mk.inj (beq_iff_eq.1 hpath)
    rw [dirOf_plain (h.plain w hw), hdir] at hd
    have hid : w.1 = id := by
      have := append_cancel_left hd
      exact String.toList_inj.1 (cons.inj this).1
    rw [← hid, h.writer?_of_mem hw, Option.map_some, hn]
  · intro hname
    obtain ⟨sw, hsw, hn⟩ := Option.map_eq_some_iff.1 hname
    have hmem := mem_of_writer? hsw
    refine ⟨(id, sw), hmem, beq_iff_eq.2 ?_⟩
    rw [activePath, dirOf_plain (h.plain _ hmem), OverflowFile.path, hdir, hn]

theorem Layout.listed (h : s.Layout) (hf : f ∈ s.files) :
    s.listed f = true ∧ s.isCurrent f = activeIn s.baseDir s.writers f := by
  obtain ⟨id, -, hdir⟩ := h.flat f hf
  have hsub : s.subdirectory f.dir = some id.toList := by rw [hdir, subdirectory_append]
  refine ⟨by rw [Writer.listed, hsub]; rfl, ?_⟩
  rw [Bool.eq_iff_iff, h.active_iff hdir, isCurrent, hsub, Option.any_some, String.ofList_toList,
    isActive, beq_iff_eq]

/-! ## The operations on a flat store -/

theorem activeIn_of_mem {baseDir : Location} {writers : List (String × SourceWriter)}
    (hw : w ∈ writers) (hpath : f.path = activePath baseDir w) :
    activeIn baseDir writers f = true := by
  rw [activeIn, any_eq_true]
  exact ⟨w, hw, beq_iff_eq.2 hpath.symm⟩

theorem activeIn_append (writers : List (String × SourceWriter)) (w : String × SourceWriter)
    (f : OverflowFile) :
    activeIn baseDir (writers ++ [w]) f =
      (activeIn baseDir writers f || activePath baseDir w == f.path) := by
  rw [activeIn, any_append, any_cons, any_nil, Bool.or_false]
  rfl

theorem fresh_iff (id : String) (name : Nat) :
    s.Fresh id name ↔ (dirOf s.baseDir id, name) ∉ s.files.map OverflowFile.path := by
  rw [mem_map, not_exists]
  exact forall_congr' fun f => not_and.symm

theorem openNewFile_eq (hnone : s.writer? id = none) (hfresh : s.Fresh id now) :
    s.openNewFile id now =
      { s with
        writers := s.writers ++ [(id, ⟨now, 0⟩)]
        files := s.files ++ [⟨dirOf s.baseDir id, now, []⟩] } := by
  have hwriters := filter_eq_self.2 fun w hw => decide_eq_true (not_mem_of_writer? hnone w hw)
  have hfiles := filter_eq_self.2 fun f hf => decide_eq_true (hfresh f hf)
  rw [openNewFile, hwriters, hfiles]

/-- A new file is active and does not count. -/
theorem Sound.openNewFile (h : s.Sound) (hplain : PlainName id) (hnone : s.writer? id = none)
    (hfresh : s.Fresh id now) : (s.openNewFile id now).Sound := by
  rw [openNewFile_eq hnone hfresh]
  constructor
  · constructor
    · refine forall_mem_append.2 ⟨h.flat, forall_mem_singleton.2 ⟨id, hplain, ?_⟩⟩
      exact dirOf_plain hplain s.baseDir
    · rw [map_append, nodup_append]
      refine ⟨h.paths, nodup_singleton _, fun a ha b hb hab => ?_⟩
      rw [hab, mem_singleton.1 hb] at ha
      exact (s.fresh_iff id now).1 hfresh ha
    · rw [map_append, nodup_append]
      refine ⟨h.ids, nodup_singleton _, fun a ha b hb hab => ?_⟩
      obtain ⟨w, hw, rfl⟩ := mem_map.1 ha
      exact not_mem_of_writer? hnone w hw (hab.trans (mem_singleton.1 hb))
    · exact forall_mem_append.2 ⟨h.plain, forall_mem_singleton.2 hplain⟩
    · refine forall_mem_append.2 ⟨fun w hw => ?_, forall_mem_singleton.2 ?_⟩
      · obtain ⟨f, hf, hpath⟩ := h.present w hw
        exact ⟨f, mem_append_left _ hf, hpath⟩
      · exact ⟨_, mem_append_right _ (mem_singleton.2 rfl), rfl⟩
  · show s.totalBytes =
      tally (fun f => !activeIn s.baseDir (s.writers ++ [(id, ⟨now, 0⟩)]) f) s.size
        (s.files ++ [⟨dirOf s.baseDir id, now, []⟩])
    -- the new file is the new writer's, and no other file becomes active
    have hold : ∀ f ∈ s.files, activeIn s.baseDir (s.writers ++ [(id, ⟨now, 0⟩)]) f =
        activeIn s.baseDir s.writers f := by
      intro f hf
      have hne : (activePath s.baseDir (id, ⟨now, 0⟩) == f.path) = false :=
        beq_eq_false_iff_ne.2 fun heq => hfresh f hf heq.symm
      rw [activeIn_append, hne, Bool.or_false]
    have hnew : activeIn s.baseDir (s.writers ++ [(id, ⟨now, 0⟩)])
        ⟨dirOf s.baseDir id, now, []⟩ = true := by
      exact activeIn_of_mem (mem_append_right _ (mem_singleton.2 rfl)) rfl
    rw [tally_append, tally_cons, hnew, tally_congr fun f hf => by rw [hold f hf]]
    exact h.counted

theorem Sound.appendActive (h : s.Sound) (hsw : s.writer? id = some sw) (record : Bytes) :
    (s.appendActive id sw record).Sound := by
  have hmem := mem_of_writer? hsw
  -- ids are distinct, so the writer of `id` is the one that is given
  have hwriter : ∀ w ∈ s.writers, activePath s.baseDir (w.1, if w.1 = id then
      { sw with bytesWritten := sw.bytesWritten + record.length } else w.2) =
        activePath s.baseDir w := by
    intro w hw
    split
    · next hid =>
      have heq : w = (id, sw) := inj_on_of_nodup_map h.ids hw hmem hid
      rw [heq]
      rfl
    · rfl
  have hactive : ∀ f, activeIn s.baseDir (s.appendActive id sw record).writers f =
      activeIn s.baseDir s.writers f := by
    intro f
    unfold activeIn Writer.appendActive
    rw [any_map]
    rw [Bool.eq_iff_iff, any_eq_true, any_eq_true]
    refine exists_congr fun w => and_congr_right fun hw => ?_
    rw [Function.comp_apply, hwriter w hw]
  refine ⟨⟨?_, ?_, ?_, ?_, ?_⟩, ?_⟩
  · refine forall_mem_map.2 fun f hf => ?_
    obtain ⟨x, hx, hfx⟩ := h.flat f hf
    exact ⟨x, hx, (congrArg Prod.fst (f.path_appendAt _ _)).trans hfx⟩
  · have hsame : (s.appendActive id sw record).files.map OverflowFile.path =
        s.files.map OverflowFile.path := by
      rw [Writer.appendActive, map_map]
      exact map_congr_left fun f _ => f.path_appendAt _ _
    rw [hsame]
    exact h.paths
  · have hsame : (s.appendActive id sw record).writers.map Prod.fst = s.writers.map Prod.fst := by
      rw [Writer.appendActive, map_map]
      rfl
    rw [hsame]
    exact h.ids
  · exact forall_mem_map.2 h.plain
  · refine forall_mem_map.2 fun w hw => ?_
    obtain ⟨f, hf, hfw⟩ := h.present w hw
    refine ⟨_, mem_map_of_mem hf, ?_⟩
    rw [OverflowFile.path_appendAt, hfw]
    exact (hwriter w hw).symm
  · show s.totalBytes = tally (fun f => !activeIn s.baseDir (s.appendActive id sw record).writers f)
      s.size (s.files.map _)
    rw [tally_map]
    · exact h.counted
    · intro f hf
      rw [hactive, activeIn, activeIn, OverflowFile.path_appendAt]
    · intro f hf hcounts
      unfold OverflowFile.appendAt
      split
      · next hthis =>
        -- the file that is written to is active
        rw [activeIn_of_mem hmem hthis] at hcounts
        cases hcounts
      · rfl

theorem Sound.closeActive (h : s.Sound) (hsw : s.writer? id = some sw) :
    (s.closeActive id sw).Sound ∧ (s.closeActive id sw).writer? id = none := by
  have hmem := mem_of_writer? hsw
  obtain ⟨f, hf, hpath⟩ := h.present _ hmem
  have hsize : s.sizeAt (dirOf s.baseDir id, sw.fileName) = s.size f := by
    have hfind : s.files.find? (fun g => g.path == (dirOf s.baseDir id, sw.fileName)) = some f := by
      cases hg : s.files.find? (fun g => g.path == (dirOf s.baseDir id, sw.fileName)) with
      | none => exact absurd (beq_iff_eq.2 hpath) (find?_eq_none.1 hg f hf)
      | some g =>
        have hgp : g.path = (dirOf s.baseDir id, sw.fileName) := by
          have hsome := find?_some hg
          exact beq_iff_eq.1 hsome
        rw [inj_on_of_nodup_map h.paths (mem_of_find?_eq_some hg) hf (hgp.trans hpath.symm)]
    rw [sizeAt, hfind]
    rfl
  have hsub : ∀ w ∈ s.writers.filter (fun w => decide (w.1 ≠ id)), w ∈ s.writers := fun w hw =>
    (mem_filter.1 hw).1
  refine ⟨⟨⟨h.flat, h.paths, h.ids.sublist (filter_sublist.map _), fun w hw =>
    h.plain w (hsub w hw), fun w hw => h.present w (hsub w hw)⟩, ?_⟩, ?_⟩
  · show s.totalBytes + s.sizeAt _ =
      tally (fun f => !activeIn s.baseDir (s.writers.filter _) f) s.size s.files
    rw [hsize, tally_flip h.paths hf]
    · exact congrArg (· + s.size f) h.counted
    · rw [activeIn_of_mem hmem hpath]
      rfl
    · -- another writer's file lies in another directory
      rw [Bool.not_eq_true', ← Bool.not_eq_true, activeIn, any_eq_true]
      rintro ⟨w, hw, hpw⟩
      obtain ⟨hw, hne⟩ := mem_filter.1 hw
      have hdirs := congrArg Prod.fst ((beq_iff_eq.1 hpw).trans hpath)
      rw [activePath, activePath, dirOf_plain (h.plain w hw), dirOf_plain (h.plain _ hmem)] at hdirs
      have hlast := (cons.inj (append_cancel_left hdirs)).1
      exact of_decide_eq_true hne (String.toList_inj.1 hlast)
    · -- and the other files stay what they were
      intro g hg hne
      rw [Bool.not_inj_iff, Bool.eq_iff_iff, activeIn, activeIn, any_eq_true, any_eq_true]
      constructor
      · rintro ⟨w, hw, hpw⟩
        exact ⟨w, hsub w hw, hpw⟩
      · rintro ⟨w, hw, hpw⟩
        refine ⟨w, mem_filter.2 ⟨hw, decide_eq_true fun hid => ?_⟩, hpw⟩
        have heq : w = (id, sw) := inj_on_of_nodup_map h.ids hw hmem hid
        rw [heq] at hpw
        exact hne ((beq_iff_eq.1 hpw).symm.trans hpath.symm)
  · rw [writer?, Option.map_eq_none_iff, find?_eq_none]
    intro w hw hid
    exact of_decide_eq_true (mem_filter.1 hw).2 (beq_iff_eq.1 hid)

theorem Sound.removeFile (h : s.Sound) (hf : f ∈ s.files)
    (hinactive : activeIn s.baseDir s.writers f = false) : (s.removeFile f).Sound := by
  refine ⟨⟨fun g hg => h.flat g (mem_filter.1 hg).1,
    h.paths.sublist (filter_sublist.map _), h.ids, h.plain, fun w hw => ?_⟩, ?_⟩
  · obtain ⟨g, hg, hgw⟩ := h.present w hw
    refine ⟨g, mem_filter.2 ⟨hg, decide_eq_true fun heq => ?_⟩, hgw⟩
    have hwriter : w ∈ s.writers := hw
    rw [activeIn_of_mem hwriter (heq.symm.trans hgw)] at hinactive
    cases hinactive
  · show s.totalBytes - s.size f = tally (fun g => !activeIn s.baseDir s.writers g) s.size
      (s.files.filter fun g => decide (g.path ≠ f.path))
    have htally := tally_filter_key h.paths hf (p := fun g => !activeIn s.baseDir s.writers g)
      s.size (by rw [hinactive]; rfl)
    have hc : s.totalBytes = tally (fun g => !activeIn s.baseDir s.writers g) s.size s.files :=
      h.counted
    omega

theorem Layout.restart (h : s.Layout) (budgetBytes : Nat) (left : OverflowFile → Bytes) :
    (s.restart budgetBytes left).Sound := by
  have hpath : ∀ f : OverflowFile, (if activeIn s.baseDir s.writers f then
      { f with content := left f } else f).path = f.path := by
    intro f
    split <;> rfl
  have hlayout : (s.restart budgetBytes left).Layout := by
    refine ⟨forall_mem_map.2 fun f hf => ?_, ?_, nodup_nil, forall_mem_nil _, forall_mem_nil _⟩
    · obtain ⟨x, hx, hfx⟩ := h.flat f hf
      exact ⟨x, hx, (congrArg Prod.fst (hpath f)).trans hfx⟩
    · have hsame : (s.restart budgetBytes left).files.map OverflowFile.path =
          s.files.map OverflowFile.path := by
        rw [Writer.restart, map_map]
        exact map_congr_left fun f _ => hpath f
      rw [hsame]
      exact h.paths
  refine ⟨hlayout, ?_⟩
  -- in a flat store the scan finds every file, and none is active
  exact tally_congr fun f hf => (hlayout.listed hf).1

/-! ## Eviction -/

section

variable {listing : Listing}

theorem mem_evictable {s : Writer} (h : s.Layout) {f : OverflowFile} :
    f ∈ s.evictable listing ↔ f ∈ s.finalized := by
  rw [evictable, finalized, mem_filter, mem_filter, listing.mem_readDir]
  refine and_congr_right fun hf => ?_
  obtain ⟨hlisted, hcurrent⟩ := h.listed hf
  rw [hlisted, hcurrent, Bool.true_and]

theorem evictOldest_spec {s s' : Writer} (h : s.Sound)
    (hs' : s.evictOldest listing = some s') : s'.Sound ∧ s'.files.length < s.files.length := by
  obtain ⟨f, hf, rfl⟩ := Option.map_eq_some_iff.1 hs'
  have hmem := (mem_evictable h.toLayout).1 (argmin_mem hf)
  obtain ⟨hin, hinactive⟩ := mem_filter.1 hmem
  rw [Bool.not_eq_true'] at hinactive
  refine ⟨h.removeFile hin hinactive, ?_⟩
  apply length_filter_lt_length_iff_exists.2
  exact ⟨f, hin, by simp⟩

/-- With fuel for all files, eviction ends within the budget or without finalized files. -/
theorem Sound.evictLoop {s : Writer} (h : s.Sound) {fuel : Nat}
    (hfuel : s.files.length ≤ fuel) :
    (evictLoop listing fuel s).Sound ∧ (evictLoop listing fuel s).WithinBudget := by
  induction fuel generalizing s with
  | zero =>
    refine ⟨h, .inr ?_⟩
    have hnil : s.files = [] := length_eq_zero_iff.1 (Nat.le_zero.1 hfuel)
    show (Writer.evictLoop listing 0 s).files.filter _ = []
    rw [Writer.evictLoop, hnil, filter_nil]
  | succ fuel ih =>
    rw [Writer.evictLoop]
    split
    · split
      · next s' hs' =>
        obtain ⟨hsound, hless⟩ := evictOldest_spec h hs'
        exact ih hsound (by omega)
      · next hnone =>
        refine ⟨h, .inr ?_⟩
        have hempty := argmin_eq_none.1 (Option.map_eq_none_iff.1 hnone)
        refine eq_nil_iff_forall_not_mem.2 fun f hf => ?_
        have hmem : f ∈ s.evictable listing := (mem_evictable h.toLayout).2 hf
        rw [hempty] at hmem
        exact not_mem_nil hmem
    · next hle => exact ⟨h, .inl (Nat.le_of_not_lt hle)⟩

end

/-! ## Writes and replays -/

theorem Sound.rotateSource (h : s.Sound) (hfresh : s.Fresh id now) :
    (s.rotateSource id now).Sound := by
  unfold Writer.rotateSource
  split
  · exact h
  · next sw hsw =>
    obtain ⟨hsound, hnone⟩ := h.closeActive hsw
    exact hsound.openNewFile (h.plain _ (mem_of_writer? hsw)) hnone hfresh

theorem Sound.finalizeActive (h : s.Sound) (hfresh : s.Fresh id now) :
    (s.finalizeActive id now).Sound := by
  unfold Writer.finalizeActive
  split
  · exact h.rotateSource hfresh
  · exact h

/-- After `ensureActive` a name that was free and is not the new file's is still free. -/
theorem Sound.ensureActive (h : s.Sound) (hplain : PlainName id) {openAt : Nat}
    (hrotate : s.Fresh id rotateAt)
    (hopen : s.writer? id = none → s.Fresh id openAt ∧ rotateAt ≠ openAt) :
    (s.ensureActive id openAt).Sound ∧ (s.ensureActive id openAt).Fresh id rotateAt := by
  unfold Writer.ensureActive
  split
  · exact ⟨h, hrotate⟩
  · next hnone =>
    obtain ⟨hfresh, hne⟩ := hopen hnone
    refine ⟨h.openNewFile hplain hnone hfresh, ?_⟩
    rw [openNewFile_eq hnone hfresh]
    refine forall_mem_append.2 ⟨hrotate, forall_mem_singleton.2 fun heq => ?_⟩
    exact hne (congrArg Prod.snd heq).symm

theorem fresh_appendActive {name : Nat} (h : s.Fresh id name) (sw : SourceWriter)
    (record : Bytes) : (s.appendActive id sw record).Fresh id name := by
  refine forall_mem_map.2 fun f hf => ?_
  rw [OverflowFile.path_appendAt]
  exact h f hf

theorem Sound.appendRecord (h : s.Sound) (hfresh : s.Fresh id rotateAt) (line : Bytes)
    (ts : TimestampNs) : (s.appendRecord id line ts rotateAt).Sound := by
  unfold Writer.appendRecord
  split
  · exact h
  · next sw hsw =>
    have hsound := h.appendActive hsw (encodeRecord line ts)
    dsimp only
    split
    · exact hsound.rotateSource (fresh_appendActive hfresh _ _)
    · exact hsound

theorem Sound.replayLoop {batchSize : Nat} {fs : List OverflowFile} (h : s.Sound)
    (hnd : (fs.map OverflowFile.path).Nodup)
    (hfs : ∀ f ∈ fs, f ∈ s.files ∧ activeIn s.baseDir s.writers f = false) (out : List Record) :
    (replayLoop batchSize fs out s).2.Sound := by
  induction fs generalizing s out with
  | nil => exact h
  | cons f fs ih =>
    obtain ⟨hfirst, hrest⟩ := nodup_cons.1 hnd
    obtain ⟨hf, hothers⟩ := forall_mem_cons.1 hfs
    have hsound := h.removeFile hf.1 hf.2
    rw [Writer.replayLoop]
    split
    · exact hsound
    -- the files that follow have other paths, so they are still there
    · refine ih hsound hrest (fun g hg => ?_) _
      obtain ⟨hmem, hinactive⟩ := hothers g hg
      refine ⟨mem_filter.2 ⟨hmem, decide_eq_true fun heq => hfirst ?_⟩, hinactive⟩
      rw [← heq]
      exact mem_map_of_mem hg

theorem Sound.replayBatch (h : s.Sound) (hplain : PlainName id) (hfresh : s.Fresh id now)
    (batchSize : Nat) : (s.replayBatch id batchSize now).2.Sound := by
  have hsound := h.finalizeActive hfresh
  unfold Writer.replayBatch
  generalize s.finalizeActive id now = t at hsound
  have hperm : ((t.filesOf id).insertionSort fun a b => a.name ≤ b.name).Perm (t.filesOf id) :=
    perm_insertionSort _ _
  refine hsound.replayLoop ?_ ?_ []
  · have hsub : ((t.filesOf id).map OverflowFile.path).Nodup :=
      hsound.paths.sublist (filter_sublist.map _)
    exact (((hperm.map OverflowFile.path).nodup_iff).2 hsub).sublist (filter_sublist.map _)
  · intro f hf
    obtain ⟨hsorted, hother⟩ := mem_filter.1 hf
    obtain ⟨hmem, hdir⟩ := mem_filter.1 (hperm.mem_iff.1 hsorted)
    rw [beq_iff_eq, dirOf_plain hplain] at hdir
    refine ⟨hmem, ?_⟩
    rw [Bool.not_eq_true', isActive, beq_eq_false_iff_ne] at hother
    rw [← Bool.not_eq_true, hsound.active_iff hdir]
    exact hother

section

variable {listing : Listing}

theorem Sound.step {s : Writer} (h : s.Sound) {e : StoreEvent} (htidy : s.Tidy e) :
    (s.step listing e).Sound ∧ (e.isWrite = true → (s.step listing e).WithinBudget) := by
  cases e with
  | write id line ts openAt rotateAt =>
    obtain ⟨hplain, hrotate, hopen⟩ := htidy
    obtain ⟨hsound, hfresh⟩ := h.ensureActive hplain hrotate hopen
    obtain ⟨hevicted, hbudget⟩ := (hsound.appendRecord hfresh line ts).evictLoop le_rfl
    exact ⟨hevicted, fun _ => hbudget⟩
  | replay id batchSize now =>
    exact ⟨h.replayBatch htidy.1 htidy.2 batchSize, nofun⟩
  | restart budgetBytes left => exact ⟨h.restart budgetBytes left, nofun⟩

/-- **The counter and the budget.** Whatever order the file system lists directories in: in every
run of writes, replays and restarts over plain ids, whose files get names of their own, the counter
is the sum of the finalized files' sizes in every state, and every write ends within the budget or
without a finalized file. -/
theorem counted_within_budget (baseDir : Location) (budgetBytes maxFileBytes : Nat)
    (fileSize : Bytes → Nat) (events : List StoreEvent)
    (h : Each (step listing) Tidy (empty baseDir budgetBytes maxFileBytes fileSize) events) :
    Always (step listing) Counted (empty baseDir budgetBytes maxFileBytes fileSize) events ∧
      Each (step listing) (fun s e => e.isWrite = true → (s.step listing e).WithinBudget)
        (empty baseDir budgetBytes maxFileBytes fileSize) events := by
  have hsound : (empty baseDir budgetBytes maxFileBytes fileSize).Sound :=
    ⟨⟨forall_mem_nil _, nodup_nil, nodup_nil, forall_mem_nil _, forall_mem_nil _⟩, rfl⟩
  -- the induction is on the run; the layout is carried along beside the counter
  generalize empty baseDir budgetBytes maxFileBytes fileSize = s at h hsound
  induction events generalizing s with
  | nil => exact ⟨hsound.counted, trivial⟩
  | cons e events ih =>
    obtain ⟨hnext, hbudget⟩ := hsound.step h.1
    obtain ⟨halways, heach⟩ := ih _ h.2 hnext
    exact ⟨⟨hsound.counted, halways⟩, hbudget, heach⟩

end

end

/-! ## Two runs -/

instance (s : Writer) (id : String) (name : Nat) : Decidable (s.Fresh id name) :=
  inferInstanceAs (Decidable (∀ f ∈ s.files, f.path ≠ (dirOf s.baseDir id, name)))

instance (s : Writer) : ∀ e, Decidable (s.Tidy e)
  | .write .. => inferInstanceAs (Decidable (_ ∧ _ ∧ (_ → _ ∧ _)))
  | .replay .. => inferInstanceAs (Decidable (_ ∧ _))
  | .restart _ _ => .isTrue trivial

instance : DecidablePred Counted := fun s =>
  inferInstanceAs (Decidable (s.totalBytes = (s.finalized.map s.size).sum))

/-- Two sources spill more than the budget of thirty bytes, one is replayed, and the agent crashes
in between. -/
def twoSources : List StoreEvent :=
  [.write "web" [1] 0 1 2, .write "db" [2] 0 3 4, .restart 30 fun _ => [7], .write "db" [3] 0 5 6,
    .replay "web" 10 7, .write "db" [4] 0 8 9]

theorem twoSources_counted :
    Each (step .created) Tidy (empty [] 30 13 length) twoSources ∧
      Always (step .created) Counted (empty [] 30 13 length) twoSources ∧
      Each (step .created) (fun s e => e.isWrite = true → (s.step .created e).WithinBudget)
        (empty [] 30 13 length) twoSources := by
  have htidy : Each (step .created) Tidy (empty [] 30 13 length) twoSources := by decide
  exact ⟨htidy, counted_within_budget [] 30 13 length twoSources htidy⟩

/-- The file of a source with a slash in its id lies too deep for the scan: after a restart it is
there and not counted. -/
theorem nested_file_uncounted :
    ¬ Always (step .created) Counted (empty [] 1024 DEFAULT_MAX_FILE_BYTES length)
      [.write "shop/web" [120] 0 1 2, .restart 1024 OverflowFile.content] := by
  intro h
  exact absurd h.last (by decide)

end Writer

end EdgePacer.Delivery
