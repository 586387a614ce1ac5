import EdgePacer.Delivery.Overflow
import EdgePacer.Lib.Lists
import EdgePacer.Lib.Trace
import Mathlib.Data.List.Flatten

/-!
# What a replay gives back

The records a source has in the store are those of the files of its directory in order,
`available`. A store is `WellFormed` for a source when these files are sorted by name, hold whole
records, and the active file is the last one. Each operation is then described by what it does to
`available`: a write appends the record and eviction drops records from the front; rotation and
finalization change nothing; a replay removes the records of the files it opens and returns the
first `batchSize` of them, so a batch limit inside a file cuts records off. Operations for an id
that leads to another directory can only evict (`OverflowOp.apply_apart`).

`History` follows one source through any sequence of operations on the whole store and keeps the
records written, returned and evicted. `conserves_iff_noCut` says that the three logs and the
store stay in agreement exactly as long as no replay is cut inside its files. Cut or not, they
keep the order (`replays_in_order`) and end (`replays_drain`).
-/

namespace EdgePacer.Delivery

open Lib List Writer

namespace Writer

variable (w : Writer)

/-- The files of an id's directory but its active one. -/
def finalizedOf (source : String) : List OverflowFile :=
  (w.filesOf source).filter fun f => !w.isActive source f

/-- The records of a source's files, in file order. -/
def available (source : String) : List Record :=
  (w.filesOf source).flatMap fun f => readEntireFile f.content

/-- Files in name order, holding whole records, the active one last. A directory directly below the
base directory has the id for its name. -/
structure WellFormed (w : Writer) (source : String) : Prop where
  spelled : ∀ name, w.subdirectory (dirOf w.baseDir source) = some name → name = source.toList
  sorted : (w.filesOf source).Pairwise fun a b => a.name < b.name
  framed : ∀ f ∈ w.filesOf source, WellFramed f.content
  active : ∀ sw, w.writer? source = some sw →
    ∃ old f, w.filesOf source = old ++ [f] ∧ f.name = sw.fileName ∧
      f.content.length = sw.bytesWritten

/-- A clock reading later than every file of the source. -/
def Later (source : String) (now : Nat) : Prop := ∀ f ∈ w.filesOf source, f.name < now

instance (w : Writer) (source : String) (now : Nat) : Decidable (w.Later source now) :=
  inferInstanceAs (Decidable (∀ f ∈ w.filesOf source, f.name < now))

/-- The ids lead to different directories. -/
def Apart (other source : String) : Prop :=
  dirOf w.baseDir other ≠ dirOf w.baseDir source

instance (w : Writer) (other source : String) : Decidable (w.Apart other source) :=
  inferInstanceAs (Decidable (_ ≠ _))

/-- A source's files and active file are the same in both stores. -/
def SameFor (source : String) (w' w : Writer) : Prop :=
  w'.baseDir = w.baseDir ∧ w'.filesOf source = w.filesOf source ∧
    w'.writer? source = w.writer? source

/-- What a failed operation leaves of a source is what was there. -/
def Unharmed (source : String) (fault : Option Writer) : Prop :=
  ∀ left, fault = some left → SameFor source left w

instance (w : Writer) (source : String) (fault : Option Writer) :
    Decidable (w.Unharmed source fault) :=
  inferInstanceAs (Decidable (∀ left ∈ fault, _ ∧ _ ∧ _))

section

variable {w w' : Writer} {source other : String} {now : Nat} {sw : SourceWriter} {r : Record}
  {env : WriteEnv} {f : OverflowFile} (fuel n : Nat)

theorem SameFor.refl (source : String) (w : Writer) : SameFor source w w := ⟨rfl, rfl, rfl⟩

theorem SameFor.trans {w'' : Writer} (h : SameFor source w'' w') (h' : SameFor source w' w) :
    SameFor source w'' w := ⟨h.1.trans h'.1, h.2.1.trans h'.2.1, h.2.2.trans h'.2.2⟩

/-- Well-formedness only looks at the source's own files and active file. -/
theorem WellFormed.of_same (h : w.WellFormed source) (hsame : SameFor source w' w) :
    w'.WellFormed source := by
  obtain ⟨hbase, hfiles, hwriter⟩ := hsame
  refine ⟨?_, ?_, ?_, ?_⟩
  · unfold subdirectory
    rw [hbase]
    exact h.spelled
  · rw [hfiles]
    exact h.sorted
  · rw [hfiles]
    exact h.framed
  · rw [hfiles, hwriter]
    exact h.active

theorem SameFor.available (h : SameFor source w' w) : w'.available source = w.available source := by
  rw [Writer.available, Writer.available, h.2.1]

theorem SameFor.hasOverflow (h : SameFor source w' w) :
    w'.hasOverflow source = w.hasOverflow source := by
  unfold Writer.hasOverflow isActive
  rw [h.2.1, h.2.2]

/-! ### Active files -/

theorem find?_filter_ne {ws : List (String × SourceWriter)} (h : other ≠ source) :
    (ws.filter fun w => decide (w.1 ≠ other)).find? (fun w => w.1 == source) =
      ws.find? fun w => w.1 == source := by
  rw [find?_filter]
  congr 1
  funext w
  by_cases hw : w.1 = source
  · simp [hw, h.symm]
  · simp [hw]

@[simp]
theorem writer?_openNewFile_self : (w.openNewFile source now).writer? source = some ⟨now, 0⟩ := by
  have hnone : (w.writers.filter fun x => decide (x.1 ≠ source)).find? (fun x => x.1 == source) =
      none := by
    refine find?_eq_none.2 fun x hx hkey => ?_
    exact of_decide_eq_true (mem_filter.1 hx).2 (beq_iff_eq.1 hkey)
  rw [writer?, openNewFile, find?_append, hnone]
  simp

theorem writer?_openNewFile_ne (h : other ≠ source) :
    (w.openNewFile other now).writer? source = w.writer? source := by
  rw [writer?, openNewFile, find?_append, find?_filter_ne h]
  simp [h, writer?]

theorem writer?_appendActive_ne (h : other ≠ source) (record : Bytes) :
    (w.appendActive other sw record).writer? source = w.writer? source := by
  rw [writer?, appendActive, find?_map, writer?, Option.map_map]
  cases hfind : w.writers.find? fun x => x.1 == source with
  | none => simp [Function.comp_def, hfind]
  | some x =>
    have hkey : x.1 = source := by simpa using find?_some hfind
    simp [Function.comp_def, hfind, hkey, h.symm]

theorem writer?_appendActive_self (h : w.writer? source = some sw) (record : Bytes) :
    (w.appendActive source sw record).writer? source =
      some { sw with bytesWritten := sw.bytesWritten + record.length } := by
  obtain ⟨x, hfind, -⟩ := Option.map_eq_some_iff.1 h
  have hkey : x.1 = source := by simpa using find?_some hfind
  rw [writer?, appendActive, find?_map, Function.comp_def]
  simp [hfind, hkey]

/-! ### Files -/

theorem mem_filesOf : f ∈ w.filesOf source ↔ f ∈ w.files ∧ f.dir = dirOf w.baseDir source := by
  rw [filesOf, mem_filter, beq_iff_eq]

/-- What is dropped from other directories is not missed in this one. -/
theorem filter_dir {files : List OverflowFile} {dir : Location} {keep : OverflowFile → Bool}
    (h : ∀ f ∈ files, f.dir = dir → keep f = true) :
    (files.filter keep).filter (fun f => f.dir == dir) = files.filter fun f => f.dir == dir := by
  rw [filter_filter]
  refine filter_congr fun f hf => ?_
  by_cases hdir : f.dir = dir
  · rw [h f hf hdir, Bool.and_true]
  · rw [beq_eq_false_iff_ne.2 hdir, Bool.false_and]

theorem filesOf_openNewFile (h : w.Later source now) :
    (w.openNewFile source now).filesOf source =
      w.filesOf source ++ [⟨dirOf w.baseDir source, now, []⟩] := by
  have hkeep : ∀ f ∈ w.files, f.dir = dirOf w.baseDir source →
      decide (f.path ≠ (dirOf w.baseDir source, now)) = true := by
    intro f hf hdir
    have hlt := h f (mem_filesOf.2 ⟨hf, hdir⟩)
    refine decide_eq_true fun heq => hlt.ne (congrArg Prod.snd heq)
  rw [filesOf, openNewFile, filter_append, filter_dir hkeep]
  simp [filesOf]

theorem filesOf_appendActive (record : Bytes) :
    (w.appendActive other sw record).filesOf source =
      (w.filesOf source).map
        (OverflowFile.appendAt (dirOf w.baseDir other, sw.fileName) record) := by
  rw [filesOf, appendActive, filter_map, filesOf]
  have hdir : ∀ g : OverflowFile, (g.appendAt (dirOf w.baseDir other, sw.fileName) record).dir =
      g.dir := fun g => congrArg Prod.fst (g.path_appendAt _ _)
  simp only [Function.comp_def, hdir]

theorem later_appendActive (h : w.Later source now) (sw : SourceWriter) (record : Bytes) :
    (w.appendActive source sw record).Later source now := by
  unfold Later
  rw [filesOf_appendActive]
  refine forall_mem_map.2 fun f hf => ?_
  exact (congrArg Prod.snd (f.path_appendAt _ _)).trans_lt (h f hf)

/-! ### Other sources -/

section

variable (h : w.Apart other source)

include h

theorem Apart.ne : other ≠ source := fun heq => h (by rw [heq])

theorem openNewFile_apart : SameFor source (w.openNewFile other now) w := by
  refine ⟨rfl, ?_, writer?_openNewFile_ne h.ne⟩
  have hkeep : ∀ f ∈ w.files, f.dir = dirOf w.baseDir source →
      decide (f.path ≠ (dirOf w.baseDir other, now)) = true := by
    intro f _ hdir
    exact decide_eq_true fun heq => h ((congrArg Prod.fst heq).symm.trans hdir)
  have hother : (dirOf w.baseDir other == dirOf w.baseDir source) = false :=
    beq_eq_false_iff_ne.2 h
  rw [filesOf, openNewFile, filter_append, filter_dir hkeep]
  simp [filesOf, hother]

theorem rotateSource_apart (now : Nat) : SameFor source (w.rotateSource other now) w := by
  unfold rotateSource
  split
  · exact .refl source w
  · next sw _ =>
    have hclosed : SameFor source (w.closeActive other sw) w := by
      refine ⟨rfl, rfl, ?_⟩
      rw [writer?, closeActive, find?_filter_ne h.ne, writer?]
    exact (openNewFile_apart (w := w.closeActive other sw) h).trans hclosed

theorem appendActive_apart (sw : SourceWriter) (record : Bytes) :
    SameFor source (w.appendActive other sw record) w := by
  refine ⟨rfl, ?_, writer?_appendActive_ne h.ne record⟩
  rw [filesOf_appendActive]
  conv_rhs => rw [← map_id (w.filesOf source)]
  refine map_congr_left fun f hf => if_neg fun heq => h ?_
  exact (congrArg Prod.fst heq).symm.trans (mem_filesOf.1 hf).2

theorem appended_apart (env : WriteEnv) (line : Bytes) (ts : TimestampNs) :
    SameFor source (w.appended env other line ts) w := by
  have hensure : SameFor source (w.ensureActive other env.openAt) w := by
    unfold ensureActive
    split
    · exact .refl source w
    · exact openNewFile_apart h
  have hbase : (w.ensureActive other env.openAt).Apart other source := by
    unfold Apart
    rw [hensure.1]
    exact h
  unfold appended appendRecord
  split
  · exact hensure
  · next sw _ =>
    have happend := (appendActive_apart hbase sw (encodeRecord line ts)).trans hensure
    dsimp only
    split
    · exact (rotateSource_apart (w := appendActive _ other sw _) hbase env.rotateAt).trans happend
    · exact happend

theorem finalizeActive_apart (now : Nat) : SameFor source (w.finalizeActive other now) w := by
  unfold finalizeActive
  split
  · exact rotateSource_apart h now
  · exact .refl source w

end

theorem removeFile_apart (h : f.dir ≠ dirOf w.baseDir source) :
    SameFor source (w.removeFile f) w := by
  refine ⟨rfl, filter_dir fun g _ hdir => decide_eq_true fun heq => h ?_, rfl⟩
  exact (congrArg Prod.fst heq).symm.trans hdir

theorem replayLoop_apart (n : Nat) {fs : List OverflowFile}
    (hfs : ∀ f ∈ fs, f.dir ≠ dirOf w.baseDir source) (out : List Record) :
    SameFor source (replayLoop n fs out w).2 w := by
  induction fs generalizing out w with
  | nil => exact .refl source w
  | cons f fs ih =>
    obtain ⟨hf, hrest⟩ := forall_mem_cons.1 hfs
    have hremoved := removeFile_apart hf
    simp only [replayLoop]
    split
    · exact hremoved
    · exact (ih (w := w.removeFile f) hrest _).trans hremoved

theorem replayBatch_apart (h : w.Apart other source) (n now : Nat) :
    SameFor source (w.replayBatch other n now).2 w := by
  have hfinal := finalizeActive_apart h now
  refine (replayLoop_apart n (fun f hf => ?_) []).trans hfinal
  have hmem := (perm_insertionSort _ _).mem_iff.1 (mem_filter.1 hf).1
  rw [(mem_filesOf.1 hmem).2, hfinal.1]
  exact h

/-! ### Finalized files and eviction -/

/-- What a write needs of the clock: a first file is named after everything there is, and a
rotation in the same write comes later still. -/
def ClockOk (w : Writer) (env : WriteEnv) (source : String) : Prop :=
  w.Later source env.openAt ∧ env.openAt < env.rotateAt

instance (env : WriteEnv) : Decidable (w.ClockOk env source) := inferInstanceAs (Decidable (_ ∧ _))

theorem mem_finalizedOf :
    f ∈ w.finalizedOf source ↔
      f ∈ w.filesOf source ∧ (w.writer? source).map SourceWriter.fileName ≠ some f.name := by
  simp [finalizedOf, isActive]

theorem hasOverflow_iff : w.hasOverflow source = true ↔ w.finalizedOf source ≠ [] := by
  simp [hasOverflow, finalizedOf]

theorem oldest_spec {listing : Listing} (h : w.oldest listing = some f) :
    f ∈ w.evictable listing ∧ ∀ g ∈ w.evictable listing, f.name ≤ g.name :=
  ⟨argmin_mem h, fun _ hg => le_of_mem_argmin hg h⟩

/-- The files an eviction loop removes, in order. -/
def evictLog (listing : Listing) : Nat → Writer → List OverflowFile
  | 0, _ => []
  | fuel + 1, w =>
      if w.budgetBytes < w.totalBytes then
        match w.oldest listing with
        | some f => f :: evictLog listing fuel (w.removeFile f)
        | none => []
      else []

/-- The records in those of the removed files that lie in a directory. -/
def recordsIn (dir : Location) (log : List OverflowFile) : List Record :=
  (log.filter fun f => f.dir == dir).flatMap fun f => readEntireFile f.content

/-- The records of a source that a write evicts. -/
def writeEvicts (w : Writer) (env : WriteEnv) (id : String) (line : Bytes) (ts : TimestampNs)
    (source : String) : List Record :=
  match env.fault with
  | some _ => []
  | none =>
      let s := w.appended env id line ts
      recordsIn (dirOf s.baseDir source) (evictLog env.listing s.files.length s)

/-- The records of the files a replay opens, before the batch limit cuts them. -/
def openedRecords (batchSize : Nat) : List OverflowFile → List Record → List Record
  | [], out => out
  | f :: fs, out =>
      let out := out ++ readEntireFile f.content
      if batchSize ≤ out.length then out else openedRecords batchSize fs out

/-- The records of the files that a replay of `batchSize` opens. -/
def opened (w : Writer) (source : String) (batchSize : Nat) (now : Nat) : List Record :=
  openedRecords batchSize ((w.finalizeActive source now).replayFiles source) []

/-! ### Operations on a well-formed source -/

variable (h : w.WellFormed source)

include h

theorem openNewFile_spec (hl : w.Later source now) :
    (w.openNewFile source now).WellFormed source ∧
      (w.openNewFile source now).available source = w.available source := by
  have hfiles := filesOf_openNewFile hl
  refine ⟨⟨h.spelled, ?_, ?_, ?_⟩, ?_⟩
  · rw [hfiles, pairwise_append]
    exact ⟨h.sorted, pairwise_singleton _ _, fun f hf => forall_mem_singleton.2 (hl f hf)⟩
  · rw [hfiles]
    exact forall_mem_append.2 ⟨h.framed, forall_mem_singleton.2 wellFramed_nil⟩
  · intro sw hsw
    rw [writer?_openNewFile_self, Option.some.injEq] at hsw
    subst hsw
    exact ⟨w.filesOf source, _, hfiles, rfl, rfl⟩
  · rw [available, hfiles]
    simp [available, readEntireFile, decodeRecords]

theorem rotateSource_spec (hl : w.Later source now) :
    (w.rotateSource source now).WellFormed source ∧
      (w.rotateSource source now).available source = w.available source := by
  unfold rotateSource
  split
  · exact ⟨h, rfl⟩
  · next sw hsw =>
    have hclosed : (w.closeActive source sw).WellFormed source := by
      refine ⟨h.spelled, h.sorted, h.framed, fun sw' hsw' => ?_⟩
      -- the writer that was closed is gone
      obtain ⟨x, hfind, -⟩ := Option.map_eq_some_iff.1 hsw'
      have hkey : x.1 = source := by simpa using find?_some hfind
      exact absurd hkey (of_decide_eq_true (mem_filter.1 (mem_of_find?_eq_some hfind)).2)
    exact openNewFile_spec hclosed hl

theorem appendActive_spec (hsw : w.writer? source = some sw)
    (hr : r.Fits) :
    (w.appendActive source sw (encodeRecord r.2 r.1)).WellFormed source ∧
      (w.appendActive source sw (encodeRecord r.2 r.1)).available source =
        w.available source ++ [r] := by
  obtain ⟨old, f, hfiles, hname, hbytes⟩ := h.active sw hsw
  have hsorted := h.sorted
  rw [hfiles, pairwise_append] at hsorted
  have hdir : f.dir = dirOf w.baseDir source := (mem_filesOf.1 (by rw [hfiles]; simp)).2
  -- only the last file has the active name
  have hold : old.map (OverflowFile.appendAt (dirOf w.baseDir source, sw.fileName)
      (encodeRecord r.2 r.1)) = old := by
    conv_rhs => rw [← map_id old]
    refine map_congr_left fun g hg => if_neg fun heq => ?_
    have hlt := hsorted.2.2 g hg f mem_cons_self
    exact hlt.ne ((congrArg Prod.snd heq).trans hname.symm)
  have hfiles' : (w.appendActive source sw (encodeRecord r.2 r.1)).filesOf source =
      old ++ [{ f with content := f.content ++ encodeRecord r.2 r.1 }] := by
    have hlast : f.path = (dirOf w.baseDir source, sw.fileName) := Prod.ext hdir hname
    rw [filesOf_appendActive, hfiles, map_append, hold, map_singleton, OverflowFile.appendAt,
      if_pos hlast]
  have hframed := (h.framed f (by rw [hfiles]; simp)).append_record hr
  refine ⟨⟨h.spelled, ?_, ?_, ?_⟩, ?_⟩
  · rw [hfiles', pairwise_append]
    refine ⟨hsorted.1, pairwise_singleton _ _, fun g hg => forall_mem_singleton.2 ?_⟩
    exact hsorted.2.2 g hg f mem_cons_self
  · rw [hfiles']
    refine forall_mem_append.2 ⟨fun g hg => ?_, forall_mem_singleton.2 hframed.1⟩
    exact h.framed g (by rw [hfiles]; exact mem_append_left _ hg)
  · intro sw' hsw'
    rw [writer?_appendActive_self hsw, Option.some.injEq] at hsw'
    subst hsw'
    exact ⟨old, _, hfiles', hname, by simp [hbytes]⟩
  · rw [available, hfiles', available, hfiles]
    simp only [flatMap_append, flatMap_cons, flatMap_nil, append_nil, hframed.2, append_assoc]

theorem ensureActive_spec (hc : w.ClockOk env source) :
    (w.ensureActive source env.openAt).WellFormed source ∧
      (w.ensureActive source env.openAt).available source = w.available source ∧
      (w.ensureActive source env.openAt).Later source env.rotateAt ∧
      ∃ sw, (w.ensureActive source env.openAt).writer? source = some sw := by
  have hlater : w.Later source env.rotateAt := fun f hf => (hc.1 f hf).trans hc.2
  unfold ensureActive
  cases hw : w.writer? source with
  | some sw => exact ⟨h, rfl, hlater, sw, hw⟩
  | none =>
    obtain ⟨hwf, hav⟩ := openNewFile_spec h hc.1
    refine ⟨hwf, hav, ?_, _, writer?_openNewFile_self⟩
    rw [Later, filesOf_openNewFile hc.1]
    exact forall_mem_append.2 ⟨hlater, forall_mem_singleton.2 hc.2⟩

theorem appended_spec (hc : w.ClockOk env source) (hr : r.Fits) :
    (w.appended env source r.2 r.1).WellFormed source ∧
      (w.appended env source r.2 r.1).available source = w.available source ++ [r] := by
  obtain ⟨hwf, hav, hlater, sw, hsw⟩ := ensureActive_spec h hc
  obtain ⟨hwf', hav'⟩ := appendActive_spec hwf hsw hr
  rw [hav] at hav'
  simp only [appended, appendRecord, hsw]
  split
  · obtain ⟨hwf'', hav''⟩ := rotateSource_spec hwf' (later_appendActive hlater _ _)
    exact ⟨hwf'', hav''.trans hav'⟩
  · exact ⟨hwf', hav'⟩

/-- A finalized file with the least name is the first file of its source. -/
theorem WellFormed.finalized_least (hf : f ∈ w.finalizedOf source)
    (hle : ∀ g ∈ w.finalizedOf source, f.name ≤ g.name) : ∃ rest, w.filesOf source = f :: rest := by
  have hmem := (mem_finalizedOf.1 hf).1
  have hsorted := h.sorted
  cases hfiles : w.filesOf source with
  | nil => rw [hfiles] at hmem; cases hmem
  | cons g rest =>
    rw [hfiles] at hmem hsorted
    rcases mem_cons.1 hmem with rfl | hrest
    · exact ⟨rest, rfl⟩
    · -- a first file before the least finalized one would be the active one, hence the last
      have hlt : g.name < f.name := (pairwise_cons.1 hsorted).1 f hrest
      have hcur : (w.writer? source).map SourceWriter.fileName = some g.name := by
        by_contra hne
        have := hle g (mem_finalizedOf.2 ⟨by rw [hfiles]; exact mem_cons_self, hne⟩)
        omega
      obtain ⟨sw, hsw, hname⟩ := Option.map_eq_some_iff.1 hcur
      obtain ⟨old, last, hlast, hlastName, -⟩ := h.active sw hsw
      rw [hfiles] at hlast
      cases old with
      | nil =>
        rw [nil_append, cons.injEq] at hlast
        rw [hlast.2] at hrest
        cases hrest
      | cons g' old =>
        rw [cons_append, cons.injEq] at hlast
        have hin : last ∈ rest := by rw [hlast.2]; simp
        have := (pairwise_cons.1 hsorted).1 last hin
        omega

/-- Removing the first, finalized, file takes its records from the front. -/
theorem removeFile_first {rest : List OverflowFile}
    (hfiles : w.filesOf source = f :: rest) (hf : f ∈ w.finalizedOf source) :
    (w.removeFile f).filesOf source = rest ∧ (w.removeFile f).WellFormed source ∧
      w.available source = readEntireFile f.content ++ (w.removeFile f).available source := by
  have hsorted := h.sorted
  rw [hfiles, pairwise_cons] at hsorted
  have hrest : (w.removeFile f).filesOf source = rest := by
    have hcomm : (w.removeFile f).filesOf source =
        (w.filesOf source).filter fun g => decide (g.path ≠ f.path) := by
      rw [filesOf, removeFile, filter_filter, filesOf, filter_filter]
      exact filter_congr fun g _ => Bool.and_comm _ _
    rw [hcomm, hfiles, filter_cons_of_neg (by simp)]
    refine filter_eq_self.2 fun g hg => decide_eq_true fun heq => ?_
    exact (hsorted.1 g hg).ne (congrArg Prod.snd heq).symm
  refine ⟨hrest, ⟨h.spelled, ?_, ?_, ?_⟩, ?_⟩
  · rw [hrest]
    exact hsorted.2
  · rw [hrest]
    intro g hg
    exact h.framed g (by rw [hfiles]; exact mem_cons_of_mem _ hg)
  · intro sw hsw
    have hsw : w.writer? source = some sw := hsw
    obtain ⟨old, last, hlast, hname, hbytes⟩ := h.active sw hsw
    rw [hfiles] at hlast
    cases old with
    | nil =>
      obtain ⟨rfl, -⟩ := hlast
      exact absurd (by rw [hsw, Option.map_some, hname]) (mem_finalizedOf.1 hf).2
    | cons g old =>
      rw [cons_append, cons.injEq] at hlast
      exact ⟨old, last, hrest.trans hlast.2, hname, hbytes⟩
  · rw [available, available, hrest, hfiles, flatMap_cons]

/-- The file that is evicted lies elsewhere, or is the source's first file and finalized. -/
theorem WellFormed.evicts {listing : Listing} (ho : w.oldest listing = some f) :
    f.dir ≠ dirOf w.baseDir source ∨
      f ∈ w.finalizedOf source ∧ ∃ rest, w.filesOf source = f :: rest := by
  obtain ⟨hmem, hle⟩ := oldest_spec ho
  obtain ⟨hin, hlisted⟩ := mem_filter.1 hmem
  rw [listing.mem_readDir] at hin
  refine or_iff_not_imp_left.2 fun hdir => ?_
  rw [not_not] at hdir
  rw [Bool.and_eq_true, listed, hdir, Option.isSome_iff_exists] at hlisted
  obtain ⟨⟨name, hname⟩, hcurrent⟩ := hlisted
  -- the source is the one that eviction takes for the owner of the directory
  have howner : ∀ g : OverflowFile, g.dir = dirOf w.baseDir source →
      w.listed g = true ∧ w.isCurrent g = w.isActive source g := by
    intro g hg
    rw [listed, isCurrent, hg, hname, h.spelled name hname, Option.any_some, String.ofList_toList]
    exact ⟨rfl, rfl⟩
  have hown : f ∈ w.finalizedOf source := by
    rw [(howner f hdir).2] at hcurrent
    exact mem_filter.2 ⟨mem_filesOf.2 ⟨hin, hdir⟩, hcurrent⟩
  refine ⟨hown, h.finalized_least hown fun g hg => hle g ?_⟩
  obtain ⟨hgfile, hgactive⟩ := mem_filter.1 hg
  obtain ⟨hgin, hgdir⟩ := mem_filesOf.1 hgfile
  refine mem_filter.2 ⟨(listing.mem_readDir _ _).2 hgin, ?_⟩
  rw [(howner g hgdir).1, (howner g hgdir).2, Bool.true_and]
  exact hgactive

omit h in
/-- Eviction takes the records it removes from the front of each source. -/
theorem evictLoop_spec (listing : Listing) :
    ∀ {w : Writer}, w.WellFormed source →
      (evictLoop listing fuel w).WellFormed source ∧
        w.available source = recordsIn (dirOf w.baseDir source) (evictLog listing fuel w) ++
          (evictLoop listing fuel w).available source := by
  induction fuel with
  | zero => exact fun h => ⟨h, rfl⟩
  | succ fuel ih =>
    intro w h
    unfold evictLoop evictLog evictOldest
    split
    · cases ho : w.oldest listing with
      | none => exact ⟨h, rfl⟩
      | some f =>
        simp only [Option.map_some]
        rcases h.evicts ho with hdir | ⟨hfin, rest, hfiles⟩
        · have hsame := removeFile_apart hdir
          obtain ⟨hwf', hav'⟩ := ih (h.of_same hsame)
          refine ⟨hwf', ?_⟩
          rw [← hsame.available, hav', recordsIn, recordsIn,
            filter_cons_of_neg (by simpa using hdir)]
          rfl
        · obtain ⟨-, hwf, hav⟩ := removeFile_first h hfiles hfin
          obtain ⟨hwf', hav'⟩ := ih hwf
          have hdir := (mem_filesOf.1 (mem_finalizedOf.1 hfin).1).2
          refine ⟨hwf', ?_⟩
          rw [hav, hav', recordsIn, recordsIn, filter_cons_of_pos (by simpa using hdir),
            flatMap_cons, append_assoc]
          rfl
    · exact ⟨h, rfl⟩

/-- A write appends its record, and its evictions take records from the front. -/
theorem write_spec (hc : w.ClockOk env source) (hr : r.Fits)
    (hfault : w.Unharmed source env.fault) :
    (w.write env source r.2 r.1).2.WellFormed source ∧
      w.available source ++ (if (w.write env source r.2 r.1).1 then [r] else []) =
        w.writeEvicts env source r.2 r.1 source ++
          (w.write env source r.2 r.1).2.available source := by
  unfold write writeEvicts
  cases hleft : env.fault with
  | some left =>
    refine ⟨h.of_same (hfault left hleft), ?_⟩
    rw [(hfault left hleft).available]
    exact append_nil _
  | none =>
    obtain ⟨hwf, hav⟩ := appended_spec h hc hr
    obtain ⟨hwf', hav'⟩ := evictLoop_spec (w.appended env source r.2 r.1).files.length
      env.listing hwf
    refine ⟨hwf', ?_⟩
    rw [if_pos rfl, ← hav]
    exact hav'

/-- A write to another directory can only evict. -/
theorem write_apart (hapart : w.Apart other source) (hfault : w.Unharmed source env.fault)
    (line : Bytes) (ts : TimestampNs) :
    (w.write env other line ts).2.WellFormed source ∧
      w.available source = w.writeEvicts env other line ts source ++
        (w.write env other line ts).2.available source := by
  unfold write writeEvicts
  cases hleft : env.fault with
  | some left => exact ⟨h.of_same (hfault left hleft), (hfault left hleft).available.symm⟩
  | none =>
    have hsame := appended_apart hapart env line ts
    obtain ⟨hwf', hav'⟩ := evictLoop_spec (w.appended env other line ts).files.length
      env.listing (h.of_same hsame)
    refine ⟨hwf', ?_⟩
    rw [← hsame.available]
    exact hav'

/-- The finalized files come first; what is left is the active file, if there is one. -/
theorem WellFormed.files_eq :
    ∃ tail, w.filesOf source = w.finalizedOf source ++ tail ∧
      ((w.writer? source = none ∧ tail = []) ∨
        ∃ sw f, w.writer? source = some sw ∧ tail = [f] ∧ f.content.length = sw.bytesWritten) := by
  cases hw : w.writer? source with
  | none =>
    refine ⟨[], ?_, .inl ⟨rfl, rfl⟩⟩
    rw [append_nil]
    exact (filter_eq_self.2 fun f _ => by simp [isActive, hw]).symm
  | some sw =>
    obtain ⟨old, f, hfiles, hname, hbytes⟩ := h.active sw hw
    refine ⟨[f], ?_, .inr ⟨sw, f, rfl, rfl, hbytes⟩⟩
    have hsorted := h.sorted
    rw [hfiles, pairwise_append] at hsorted
    have hold : old.filter (fun g => !w.isActive source g) = old := by
      apply filter_eq_self.2
      intro g hg
      have := hsorted.2.2 g hg f mem_cons_self
      simp only [isActive, hw, Option.map_some, Bool.not_eq_eq_eq_not, Bool.not_true,
        beq_eq_false_iff_ne, ne_eq, Option.some.injEq]
      omega
    rw [finalizedOf, hfiles, filter_append, hold]
    simp [isActive, hw, hname]

omit h in
/-- Nothing is read from the end of the files if the active one is empty. -/
theorem readEntireFile_tail {tail : List OverflowFile}
    (htail : (w.writer? source = none ∧ tail = []) ∨ ∃ sw f, w.writer? source = some sw ∧
      tail = [f] ∧ f.content.length = sw.bytesWritten)
    (hempty : ∀ sw, w.writer? source = some sw → sw.bytesWritten = 0) :
    tail.flatMap (fun f => readEntireFile f.content) = [] := by
  rcases htail with ⟨-, rfl⟩ | ⟨sw, f, hsw, rfl, hlen⟩
  · rfl
  · have hnil : f.content = [] := eq_nil_of_length_eq_zero (hlen.trans (hempty sw hsw))
    simp [hnil, readEntireFile, decodeRecords]

theorem replayFiles_eq : w.replayFiles source = w.finalizedOf source := by
  have hle := h.sorted.imp fun hlt => hlt.le
  rw [replayFiles, hle.insertionSort_eq, finalizedOf]

omit h in
/-- The replay loop removes what it opens from the front and returns the first `n` of it. -/
theorem replayLoop_spec (tail : List OverflowFile) (fs : List OverflowFile) :
    ∀ (out : List Record) {w : Writer}, w.WellFormed source → w.filesOf source = fs ++ tail →
      (∀ f ∈ fs, f ∈ w.finalizedOf source) → out.length ≤ n →
      (replayLoop n fs out w).2.WellFormed source ∧
        (replayLoop n fs out w).1 = (openedRecords n fs out).take n ∧
        out ++ w.available source =
          openedRecords n fs out ++ (replayLoop n fs out w).2.available source ∧
        (n ≤ (openedRecords n fs out).length ∨
          (replayLoop n fs out w).2.filesOf source = tail) := by
  induction fs with
  | nil =>
    intro out w h hfiles _ hout
    exact ⟨h, (take_of_length_le hout).symm, rfl, .inr hfiles⟩
  | cons f fs ih =>
    intro out w h hfiles hfin hout
    obtain ⟨hrest, hwf, hav⟩ := removeFile_first h hfiles (hfin f mem_cons_self)
    simp only [replayLoop, openedRecords]
    split
    · rename_i hn
      exact ⟨hwf, rfl, by rw [hav, append_assoc], .inl hn⟩
    · rename_i hn
      have hfin' : ∀ g ∈ fs, g ∈ (w.removeFile f).finalizedOf source := by
        intro g hg
        refine mem_finalizedOf.2 ⟨by rw [hrest]; exact mem_append_left _ hg, ?_⟩
        exact (mem_finalizedOf.1 (hfin g (mem_cons_of_mem _ hg))).2
      obtain ⟨hwf', hout', hav', hdone⟩ := ih (out ++ readEntireFile f.content) hwf
        hrest hfin' (by omega)
      refine ⟨hwf', hout', ?_, hdone⟩
      rw [hav, ← append_assoc, hav']

/-- Finalizing keeps the records and leaves an active file without any. -/
theorem finalizeActive_spec (hl : w.Later source now) :
    (w.finalizeActive source now).WellFormed source ∧
      (w.finalizeActive source now).available source = w.available source ∧
      ∀ sw, (w.finalizeActive source now).writer? source = some sw → sw.bytesWritten = 0 := by
  unfold finalizeActive
  split
  · rename_i hb
    obtain ⟨hwf, hav⟩ := rotateSource_spec h hl
    refine ⟨hwf, hav, ?_⟩
    intro sw hsw
    cases hw : w.writer? source with
    | none => rw [hw] at hb; simp at hb
    | some sw' =>
      simp only [rotateSource, hw, writer?_openNewFile_self, Option.some.injEq] at hsw
      rw [← hsw]
  · rename_i hb
    refine ⟨h, rfl, ?_⟩
    intro sw hsw
    rw [hsw] at hb
    simpa using hb

/-- A replay removes the opened records from the front, returns the first `n` of them, and leaves
none if they are fewer than `n`. -/
theorem replayBatch_spec (hl : w.Later source now) (n : Nat) :
    (w.replayBatch source n now).2.WellFormed source ∧
      (w.replayBatch source n now).1 = (w.opened source n now).take n ∧
      w.available source =
        w.opened source n now ++ (w.replayBatch source n now).2.available source ∧
      (n ≤ (w.opened source n now).length ∨
        (w.replayBatch source n now).2.available source = []) := by
  obtain ⟨hwf, hav, hempty⟩ := finalizeActive_spec h hl
  obtain ⟨tail, hfiles, htail⟩ := hwf.files_eq
  have hreplay := replayFiles_eq hwf
  rw [← hreplay] at hfiles
  obtain ⟨hwf', hout, hav', hdone⟩ := replayLoop_spec n tail _ [] hwf hfiles
    (fun f hf => by rw [← hreplay]; exact hf) (Nat.zero_le n)
  rw [hav] at hav'
  refine ⟨hwf', hout, hav', hdone.imp_right ?_⟩
  intro hend
  rw [available]
  unfold replayBatch
  rw [hend]
  exact readEntireFile_tail htail hempty

/-- A replay with room for everything returns everything. -/
theorem replayBatch_all (hl : w.Later source now) {n : Nat}
    (hn : (w.available source).length ≤ n) :
    (w.replayBatch source n now).1 = w.available source := by
  obtain ⟨-, hout, hav, hdone⟩ := replayBatch_spec h hl n
  have hlen := congrArg length hav
  rw [length_append] at hlen
  have hrest : (w.replayBatch source n now).2.available source = [] := by
    rcases hdone with hfull | hnil
    · exact eq_nil_of_length_eq_zero (by omega)
    · exact hnil
  rw [hrest, append_nil] at hav
  rw [hout, hav]
  exact take_of_length_le (by rw [← hav]; exact hn)

/-! ### Records and finalized files -/

/-- A store without finalized files whose active file is empty has no record. -/
theorem available_eq_nil (hfinal : w.finalizedOf source = [])
    (hactive : ∀ sw, w.writer? source = some sw → sw.bytesWritten = 0) :
    w.available source = [] := by
  obtain ⟨tail, hfiles, htail⟩ := h.files_eq
  rw [available, hfiles, hfinal]
  exact readEntireFile_tail htail hactive

omit h in
theorem writer?_replayLoop (n : Nat) (fs : List OverflowFile) (out : List Record) (w : Writer) :
    (replayLoop n fs out w).2.writer? source = w.writer? source := by
  induction fs generalizing out w with
  | nil => rfl
  | cons f fs ih =>
    rw [replayLoop]
    split
    · rfl
    · exact ih _ (w.removeFile f)

/-- What a replay leaves lies in finalized files. -/
theorem replayBatch_seen (hl : w.Later source now) (n : Nat)
    (hleft : (w.replayBatch source n now).2.available source ≠ []) :
    (w.replayBatch source n now).2.hasOverflow source = true := by
  have hwf := (replayBatch_spec h hl n).1
  refine hasOverflow_iff.2 fun hfinal => hleft (available_eq_nil hwf hfinal fun sw hsw => ?_)
  rw [replayBatch, writer?_replayLoop] at hsw
  exact (finalizeActive_spec h hl).2.2 sw hsw

/-- The line fills the active file up to the limit at which it is rotated. -/
def Fills (w : Writer) (source : String) (line : Bytes) : Prop :=
  w.maxFileBytes ≤ (w.writer? source).elim 0 SourceWriter.bytesWritten + (12 + line.length)

omit h in
/-- Once a new file is opened, all others are finalized. -/
theorem mem_finalizedOf_openNewFile (hl : w.Later source now) (hf : f ∈ w.filesOf source) :
    f ∈ (w.openNewFile source now).finalizedOf source := by
  rw [mem_finalizedOf, filesOf_openNewFile hl, writer?_openNewFile_self]
  refine ⟨mem_append_left _ hf, fun heq => (hl f hf).ne ?_⟩
  exact (Option.some.inj heq).symm

/-- A write that finds a finalized file, or fills the active one, leaves a finalized file. -/
theorem appended_seen (hc : w.ClockOk env source) (hr : r.Fits)
    (hseen : w.hasOverflow source = true ∨ w.Fills source r.2) :
    (w.appended env source r.2 r.1).hasOverflow source = true := by
  obtain ⟨hwf, -, hlater, sw, hsw⟩ := ensureActive_spec h hc
  have hbytes : sw.bytesWritten = (w.writer? source).elim 0 SourceWriter.bytesWritten := by
    unfold ensureActive at hsw
    cases hw : w.writer? source with
    | some sw' =>
      rw [hw] at hsw
      exact congrArg SourceWriter.bytesWritten (Option.some.inj (hsw.symm.trans hw))
    | none =>
      rw [hw, writer?_openNewFile_self] at hsw
      exact congrArg SourceWriter.bytesWritten (Option.some.inj hsw).symm
  have hmax : (w.ensureActive source env.openAt).maxFileBytes = w.maxFileBytes := by
    unfold ensureActive
    split <;> rfl
  rw [hasOverflow_iff, ← length_pos_iff_ne_nil, length_pos_iff_exists_mem]
  simp only [appended, appendRecord, hsw]
  split
  · -- the file that was written to is finalized now
    obtain ⟨old, f, hfiles, -, -⟩ := (appendActive_spec hwf hsw hr).1.active _
      (writer?_appendActive_self hsw _)
    have hlast : f ∈ ((w.ensureActive source env.openAt).appendActive source sw
        (encodeRecord r.2 r.1)).filesOf source := by
      rw [hfiles]
      exact mem_append_right _ (mem_singleton.2 rfl)
    rw [rotateSource, writer?_appendActive_self hsw]
    exact ⟨f, mem_finalizedOf_openNewFile (later_appendActive hlater sw _) hlast⟩
  · next hroom =>
    have hfound : w.hasOverflow source = true := by
      refine hseen.resolve_right fun hfills => hroom ?_
      rw [length_encodeRecord, hbytes]
      exact hmax.trans_le hfills
    obtain ⟨f, hf⟩ := exists_mem_of_ne_nil _ (hasOverflow_iff.1 hfound)
    have hkept : f ∈ (w.ensureActive source env.openAt).finalizedOf source := by
      unfold ensureActive
      split
      · exact hf
      · exact mem_finalizedOf_openNewFile hc.1 (mem_finalizedOf.1 hf).1
    obtain ⟨hin, hname⟩ := mem_finalizedOf.1 hkept
    rw [hsw] at hname
    refine ⟨f, mem_finalizedOf.2 ⟨?_, ?_⟩⟩
    · rw [filesOf_appendActive]
      refine mem_map.2 ⟨f, hin, if_neg fun heq => hname ?_⟩
      exact congrArg some (congrArg Prod.snd heq).symm
    · rw [writer?_appendActive_self hsw]
      exact hname

/-- The write keeps the store within its budget. -/
def Roomy (w : Writer) (env : WriteEnv) (id : String) (line : Bytes) (ts : TimestampNs) : Prop :=
  (w.appended env id line ts).totalBytes ≤ (w.appended env id line ts).budgetBytes

omit h in
/-- Within the budget nothing is evicted. -/
theorem write_of_roomy {id : String} {line : Bytes} {ts : TimestampNs}
    (hroomy : w.Roomy env id line ts) (hok : env.fault = none) :
    w.write env id line ts = (true, w.appended env id line ts) := by
  rw [write, hok]
  refine Prod.ext rfl ?_
  dsimp only
  cases (w.appended env id line ts).files.length with
  | zero => rfl
  | succ fuel => exact if_neg (Nat.not_lt_of_le hroomy)

end

end Writer

/-! ## Any sequence of operations -/

/-- What callers do with the store. A rotation or replay can fail, like a write, and leave any
store. -/
inductive OverflowOp where
  | write (source : String) (env : WriteEnv) (line : Bytes) (ts : TimestampNs)
  | rotate (source : String) (now : Nat)
  | check (source : String)
  | replay (source : String) (batchSize : Nat) (now : Nat)
  | failed (source : String) (left : Writer)

namespace OverflowOp

/-- The source an operation is for. -/
def source : OverflowOp → String
  | .write s .. | .rotate s _ | .check s | .replay s _ _ | .failed s _ => s

/-- The store after an operation. -/
def apply (w : Writer) : OverflowOp → Writer
  | .write s env line ts => (w.write env s line ts).2
  | .rotate s now => w.rotateSource s now
  | .check _ => w
  | .replay s n now => (w.replayBatch s n now).2
  | .failed _ left => left

/-- The store that an operation leaves when it fails. -/
def fault : OverflowOp → Option Writer
  | .write _ env _ _ => env.fault
  | .failed _ left => some left
  | _ => none

/-- An operation for another directory that, if it fails, has changed nothing of the source. -/
def Elsewhere (op : OverflowOp) (w : Writer) (own : String) : Prop :=
  w.Apart op.source own ∧ w.Unharmed own op.fault

instance (op : OverflowOp) (w : Writer) (own : String) : Decidable (op.Elsewhere w own) :=
  inferInstanceAs (Decidable (_ ∧ _))

/-- Operations elsewhere can only evict a source's oldest records. -/
theorem apply_apart {w : Writer} {own : String} {op : OverflowOp} (hop : op.Elsewhere w own)
    (h : w.WellFormed own) :
    (op.apply w).WellFormed own ∧ ∃ gone, w.available own = gone ++ (op.apply w).available own := by
  have hframe : ∀ {w' : Writer}, SameFor own w' w →
      w'.WellFormed own ∧ ∃ gone, w.available own = gone ++ w'.available own :=
    fun hw' => ⟨h.of_same hw', [], by rw [hw'.available, nil_append]⟩
  cases op with
  | write s env line ts =>
    obtain ⟨hwf, hav⟩ := write_apart h hop.1 hop.2 line ts
    exact ⟨hwf, _, hav⟩
  | rotate s now => exact hframe (rotateSource_apart hop.1 now)
  | check s => exact hframe (.refl own w)
  | replay s n now => exact hframe (replayBatch_apart hop.1 n now)
  | failed s left => exact hframe (hop.2 left rfl)

/-- A write keeps the store within its budget. -/
def Roomy (w : Writer) : OverflowOp → Prop
  | .write s env line ts => w.Roomy env s line ts
  | _ => True

instance (w : Writer) : DecidablePred (Roomy w)
  | .write .. => inferInstanceAs (Decidable (_ ≤ _))
  | .rotate _ _ | .check _ | .replay .. | .failed _ _ => inferInstanceAs (Decidable True)

/-- Operations elsewhere leave a source alone if they keep to the budget. -/
theorem apply_of_roomy {w : Writer} {own : String} {op : OverflowOp} (hop : op.Elsewhere w own)
    (hroomy : op.Roomy w) : SameFor own (op.apply w) w := by
  cases op with
  | write s env line ts =>
    rw [apply]
    cases hfault : env.fault with
    | some left =>
      rw [Writer.write, hfault]
      exact hop.2 left hfault
    | none =>
      rw [write_of_roomy hroomy hfault]
      exact appended_apart hop.1 env line ts
  | rotate s now => exact rotateSource_apart hop.1 now
  | check s => exact .refl own w
  | replay s n now => exact replayBatch_apart hop.1 n now
  | failed s left => exact hop.2 left rfl

end OverflowOp

/-- The store with the records of one source that were written, returned by replays and
evicted. -/
structure History where
  store : Writer
  (written returned evicted : List Record)

namespace History

variable (source : String)

/-- A history that begins with a store: what is in it counts as written. -/
def start (store : Writer) : History := ⟨store, store.available source, [], []⟩

/-- One operation, logged for `source`. -/
def step (h : History) : OverflowOp → History
  | .write s env line ts =>
      { store := (h.store.write env s line ts).2
        written :=
          if s = source ∧ (h.store.write env s line ts).1 = true then h.written ++ [(ts, line)]
          else h.written
        returned := h.returned
        evicted := h.evicted ++ h.store.writeEvicts env s line ts source }
  | .rotate s now => { h with store := h.store.rotateSource s now }
  -- `has_overflow` only lists the directory
  | .check _ => h
  | .replay s n now =>
      { h with
        store := (h.store.replayBatch s n now).2
        returned :=
          if s = source then h.returned ++ (h.store.replayBatch s n now).1 else h.returned }
  | .failed _ left => { h with store := left }

/-- What an operation of the source itself needs: the clock names new files after old ones, and
lines fit the record length. -/
def OwnOk (h : History) : OverflowOp → Prop
  | .write _ env line ts => h.store.ClockOk env source ∧ Record.Fits (ts, line)
  | .rotate _ now | .replay _ _ now => h.store.Later source now
  | .check _ | .failed _ _ => True

/-- An operation of the source itself is all right, one for another id leads to another directory,
and one that fails has changed nothing of the source. -/
def Supported (h : History) (op : OverflowOp) : Prop :=
  (op.source = source → h.OwnOk source op) ∧ (op.source ≠ source → h.store.Apart op.source source) ∧
    h.store.Unharmed source op.fault

/-- A replay of the source opens no more records than it may return. -/
def NoCut (h : History) : OverflowOp → Prop
  | .replay s n now => s = source → (h.store.opened source n now).length ≤ n
  | _ => True

instance (source : String) (h : History) : DecidablePred (h.OwnOk source)
  | .write .. => inferInstanceAs (Decidable (_ ∧ _))
  | .rotate _ now | .replay _ _ now => inferInstanceAs (Decidable (h.store.Later source now))
  | .check _ | .failed _ _ => inferInstanceAs (Decidable True)

instance (source : String) (h : History) : DecidablePred (h.Supported source) :=
  fun _ => inferInstanceAs (Decidable (_ ∧ _ ∧ _))

instance (source : String) (h : History) : DecidablePred (h.NoCut source)
  | .replay .. => inferInstanceAs (Decidable (_ → _))
  | .write .. | .rotate _ _ | .check _ | .failed _ _ => inferInstanceAs (Decidable True)

/-- Every record written was returned once or evicted, in write order, or is still in the store
after those, and a replay with room for them returns all that are. -/
structure Conserves (source : String) (h : History) : Prop where
  inOrder : ∃ gone, Interleave h.returned h.evicted gone ∧
    h.written = gone ++ h.store.available source
  recoverable : ∀ n now, h.store.Later source now → (h.store.available source).length ≤ n →
    (h.store.replayBatch source n now).1 = h.store.available source

variable {source : String} {h : History}

theorem conserves_of_inOrder (hwf : h.store.WellFormed source)
    (hio : ∃ gone, Interleave h.returned h.evicted gone ∧
      h.written = gone ++ h.store.available source) : h.Conserves source :=
  ⟨hio, fun _ _ hl hn => replayBatch_all hwf hl hn⟩

theorem conserves_start {store : Writer} (hwf : store.WellFormed source) :
    (start source store).Conserves source :=
  conserves_of_inOrder hwf ⟨[], Interleave.nil, rfl⟩

/-- The logs and the store together have as many records as were written. -/
theorem Conserves.length_eq (hc : h.Conserves source) :
    h.written.length =
      h.returned.length + h.evicted.length + (h.store.available source).length := by
  obtain ⟨gone, hmerge, hwritten⟩ := hc.inOrder
  rw [hwritten, length_append, hmerge.length_eq]

variable {op : OverflowOp} (env : WriteEnv)

theorem step_store (op : OverflowOp) : (h.step source op).store = op.apply h.store := by
  cases op <;> rfl

theorem Supported.elsewhere (hs : h.Supported source op) (hne : op.source ≠ source) :
    op.Elsewhere h.store source := ⟨hs.2.1 hne, hs.2.2⟩

theorem step_wellFormed (hwf : h.store.WellFormed source) (hs : h.Supported source op) :
    (h.step source op).store.WellFormed source := by
  rw [step_store]
  by_cases heq : op.source = source
  · obtain ⟨hown, -, hfault⟩ := hs
    subst heq
    cases op with
    | write s env line ts =>
      exact (write_spec (r := (ts, line)) hwf (hown rfl).1 (hown rfl).2 hfault).1
    | rotate s now => exact (rotateSource_spec hwf (hown rfl)).1
    | check s => exact hwf
    | replay s n now => exact (replayBatch_spec hwf (hown rfl) n).1
    | failed s left => exact hwf.of_same (hfault left rfl)
  · exact (OverflowOp.apply_apart (hs.elsewhere heq) hwf).1

theorem step_conserves (hwf : h.store.WellFormed source) (hc : h.Conserves source)
    (hs : h.Supported source op) (hcut : h.NoCut source op) :
    (h.step source op).Conserves source := by
  apply conserves_of_inOrder (step_wellFormed hwf hs)
  obtain ⟨gone, hmerge, hwritten⟩ := hc.inOrder
  obtain ⟨hown, hapart, hfault⟩ := hs
  cases op with
  | write s env line ts =>
    refine ⟨_, hmerge.snoc_right _, ?_⟩
    by_cases heq : s = source
    · subst heq
      have hav := (write_spec hwf (hown rfl).1 (hown rfl).2 hfault).2
      simp only [step, true_and, append_assoc, ← hav]
      split
      · rw [hwritten, append_assoc]
      · rw [hwritten, append_nil]
    · have hother : h.store.Apart s source := hapart heq
      have hav := (write_apart hwf hother hfault line ts).2
      simp only [step, heq, append_assoc, ← hav]
      exact hwritten
  | rotate s now =>
    refine ⟨gone, hmerge, ?_⟩
    by_cases heq : s = source
    · subst heq
      rw [step, (rotateSource_spec hwf (hown rfl)).2]
      exact hwritten
    · have hother : h.store.Apart s source := hapart heq
      rw [step, (rotateSource_apart hother now).available]
      exact hwritten
  | check s => exact ⟨gone, hmerge, hwritten⟩
  | replay s n now =>
    by_cases heq : s = source
    · subst heq
      obtain ⟨-, hout, hav, -⟩ := replayBatch_spec hwf (hown rfl) n
      rw [take_of_length_le (hcut rfl)] at hout
      simp only [step, hout]
      exact ⟨_, hmerge.snoc_left _, by rw [hwritten, hav, append_assoc]⟩
    · refine ⟨gone, ?_, ?_⟩
      · simpa [step, heq] using hmerge
      · have hother : h.store.Apart s source := hapart heq
        rw [step, (replayBatch_apart hother n now).available]
        exact hwritten
  | failed s left => exact ⟨gone, hmerge, by rw [step, (hfault left rfl).available]; exact hwritten⟩

/-- A replay that is cut leaves fewer records than were written. -/
theorem noCut_of_step_conserves (hwf : h.store.WellFormed source) (hc : h.Conserves source)
    (hs : h.Supported source op) (hc' : (h.step source op).Conserves source) :
    h.NoCut source op := by
  cases op with
  | replay s n now =>
    intro heq
    subst heq
    obtain ⟨-, hout, hav, -⟩ := replayBatch_spec hwf (hs.1 rfl) n
    have hbefore := hc.length_eq
    have hafter := hc'.length_eq
    have hav' := congrArg length hav
    simp only [step, if_true, hout, length_append, length_take] at hafter hav'
    omega
  | write _ _ _ _ | rotate _ _ | check _ | failed _ _ => trivial

/-- Over every sequence of operations: replays return each record that was not evicted exactly
once and in write order, and keep the others available, exactly as long as no replay opens more
records than it may return. The source's id has its directory to itself, the clock names its files
in the order of their creation, lines fit the record length, and operations that fail have changed
nothing of the source. -/
theorem conserves_iff_noCut (source : String) (store : Writer) (ops : List OverflowOp)
    (hwf : store.WellFormed source)
    (hops : Each (step source) (Supported source) (start source store) ops) :
    Always (step source) (Conserves source) (start source store) ops ↔
      Each (step source) (NoCut source) (start source store) ops :=
  always_iff_each_of_each (P := Conserves source) (C := NoCut source)
    (I := fun h => h.store.WellFormed source ∧ h.Conserves source)
    (fun _ hI => hI.2)
    (fun _ _ hI hs hcut => ⟨step_wellFormed hI.1 hs, step_conserves hI.1 hI.2 hs hcut⟩)
    (fun _ _ hI hs hc' => noCut_of_step_conserves hI.1 hI.2 hs hc')
    ⟨hwf, conserves_start hwf⟩ hops

/-- A fresh store with a budget of one megabyte. -/
def freshStore : Writer := new [] 1 [] length

theorem wellFormed_freshStore : freshStore.WellFormed "app" := by
  refine ⟨fun name hname => ?_, .nil, nofun, nofun⟩
  have hdir : freshStore.subdirectory (dirOf freshStore.baseDir "app") = some "app".toList := by
    decide
  rw [hdir, Option.some.injEq] at hname
  exact hname.symm

/-- The store after its first write: one record in the active file of its source. -/
def oneRecord (source : String) (name : Nat) (line : Bytes) (ts : TimestampNs) : Writer :=
  { freshStore with
    writers := [(source, ⟨name, 12 + line.length⟩)]
    files := [⟨dirOf [] source, name, encodeRecord line ts⟩] }

theorem filesOf_oneRecord (source : String) (name : Nat) (line : Bytes) (ts : TimestampNs) :
    (oneRecord source name line ts).filesOf source =
      [⟨dirOf [] source, name, encodeRecord line ts⟩] :=
  filter_cons_of_pos (beq_self_eq_true _)

theorem hasOverflow_oneRecord (source : String) (name : Nat) (line : Bytes) (ts : TimestampNs) :
    (oneRecord source name line ts).hasOverflow source = false := by
  rw [hasOverflow, filesOf_oneRecord]
  simp [oneRecord, isActive, writer?]

theorem available_oneRecord {source : String} {name : Nat} {r : Record} (h : r.Fits) :
    (oneRecord source name r.2 r.1).available source = [r] := by
  have hread := readEntireFile_encodeAll (forall_mem_singleton.2 h)
  rw [encodeAll, flatMap_singleton] at hread
  rw [available, filesOf_oneRecord, flatMap_singleton, hread]

/-- A line short of the file limit stays in the active file. -/
theorem freshStore_write {env : WriteEnv} {line : Bytes} {ts : TimestampNs} {source : String}
    (hok : env.fault = none) (hfit : 12 + line.length < DEFAULT_MAX_FILE_BYTES) :
    freshStore.write env source line ts = (true, oneRecord source env.openAt line ts) := by
  have hact : (freshStore.ensureActive source env.openAt).writer? source = some ⟨env.openAt, 0⟩ :=
    writer?_openNewFile_self
  have happ : (freshStore.ensureActive source env.openAt).appendActive source ⟨env.openAt, 0⟩
      (encodeRecord line ts) = oneRecord source env.openAt line ts := by
    simp [ensureActive, freshStore, new, writer?, openNewFile, appendActive, oneRecord,
      OverflowFile.appendAt, OverflowFile.path]
  have hshort : ¬ (oneRecord source env.openAt line ts).maxFileBytes ≤
      0 + (encodeRecord line ts).length := by
    rw [length_encodeRecord, Nat.zero_add]
    exact Nat.not_le_of_lt hfit
  have hrec : freshStore.appended env source line ts = oneRecord source env.openAt line ts := by
    rw [appended, appendRecord, hact]
    dsimp only
    rw [happ, if_neg hshort]
  rw [write, hok]
  dsimp only
  rw [hrec]
  rfl

/-- Write a one-byte line, with the clock at `now`. -/
def spill (byte : UInt8) (now : Nat) : OverflowOp :=
  .write "app" ⟨none, now, now + 1, .created⟩ [byte] 0

/-- Two lines that one replay with room for both gives back. -/
theorem conserves_two_lines :
    Each (step "app") (Supported "app") (start "app" freshStore)
        [spill 97 1, spill 98 3, .replay "app" 2 5] ∧
      Always (step "app") (Conserves "app") (start "app" freshStore)
        [spill 97 1, spill 98 3, .replay "app" 2 5] :=
  ⟨by decide, (conserves_iff_noCut "app" freshStore _ wellFormed_freshStore
    (by decide)).2 (by decide +kernel)⟩

/-- Two lines in one file, replayed one at a time: the first replay removes the file and the
second line with it. -/
theorem replay_one_of_two_loses :
    Each (step "app") (Supported "app") (start "app" freshStore)
        [spill 97 1, spill 98 3, .replay "app" 1 5, .replay "app" 1 7] ∧
      ¬ Always (step "app") (Conserves "app") (start "app" freshStore)
        [spill 97 1, spill 98 3, .replay "app" 1 5, .replay "app" 1 7] := by
  refine ⟨by decide, fun h => ?_⟩
  have hlen := h.last.length_eq
  revert hlen
  decide

/-- What was returned, and then what is left, come in the order of the writes, with gaps. -/
def InOrder (source : String) (h : History) : Prop :=
  (h.returned ++ h.store.available source).Sublist h.written

theorem sublist_of_gap (gap : List Record) {xs ys zs : List Record}
    (h : (xs ++ (gap ++ ys)).Sublist zs) : (xs ++ ys).Sublist zs :=
  ((sublist_append_right gap ys).append_left xs).trans h

theorem step_inOrder (hwf : h.store.WellFormed source) (hio : h.InOrder source)
    (hs : h.Supported source op) : (h.step source op).InOrder source := by
  unfold InOrder at hio ⊢
  by_cases heq : op.source = source
  · obtain ⟨hown, -, hfault⟩ := hs
    cases op with
    | write s env line ts =>
      obtain rfl : s = source := heq
      have hav := (write_spec (r := (ts, line)) hwf (hown rfl).1 (hown rfl).2 hfault).2
      -- evicted records leave a gap in front of what is left
      refine sublist_of_gap (h.store.writeEvicts env s line ts s) ?_
      simp only [step, true_and]
      rw [← hav, ← append_assoc]
      split
      · exact hio.append_right _
      · rwa [append_nil]
    | rotate s now =>
      obtain rfl : s = source := heq
      rw [step, (rotateSource_spec hwf (hown rfl)).2]
      exact hio
    | check s => exact hio
    | replay s n now =>
      obtain rfl : s = source := heq
      obtain ⟨-, hout, hav, -⟩ := replayBatch_spec hwf (hown rfl) n
      rw [hav] at hio
      simp only [step, if_true, hout, append_assoc]
      exact (((take_sublist n _).append_right _).append_left _).trans hio
    | failed s left =>
      rw [step, (hfault left rfl).available]
      exact hio
  · obtain ⟨-, gone, hav⟩ := OverflowOp.apply_apart (hs.elsewhere heq) hwf
    rw [hav] at hio
    have hleft := sublist_of_gap gone hio
    clear hav hio
    cases op <;> simp_all [step, OverflowOp.source, OverflowOp.apply]

/-- Whatever is evicted or cut, replays return no record twice, none that was not written and none
out of order. -/
theorem replays_in_order (source : String) (store : Writer) (ops : List OverflowOp)
    (hwf : store.WellFormed source)
    (hops : Each (step source) (Supported source) (start source store) ops) :
    Always (step source) (InOrder source) (start source store) ops :=
  (always_of_each (I := fun h => h.store.WellFormed source ∧ h.InOrder source)
    (fun _ _ hI hs => ⟨step_wellFormed hI.1 hs, step_inOrder hI.1 hI.2 hs⟩)
    ⟨hwf, Sublist.refl _⟩ hops).mono fun _ hI => hI.2

theorem cut_run_in_order :
    Always (step "app") (InOrder "app") (start "app" freshStore)
      [spill 97 1, spill 98 3, .replay "app" 1 5, .replay "app" 1 7] :=
  replays_in_order "app" freshStore _ wellFormed_freshStore (by decide)

/-- Replays of `n` records leave none after as many calls as it takes to return them. -/
theorem replays_drain (source : String) (n : Nat) (times : List Nat) (h : History)
    (hwf : h.store.WellFormed source)
    (hops : Each (step source) (Supported source) h (times.map (.replay source n)))
    (hlen : (h.store.available source).length ≤ n * times.length) :
    ((times.map (.replay source n)).foldl (step source) h).store.available source = [] := by
  induction times generalizing h with
  | nil => exact eq_nil_of_length_eq_zero (Nat.le_zero.1 hlen)
  | cons now times ih =>
    obtain ⟨hs, hops⟩ := hops
    obtain ⟨hwf', -, hav, hdone⟩ := replayBatch_spec hwf (hs.1 rfl) n
    refine ih _ hwf' hops ?_
    have hgone := congrArg length hav
    rw [length_append] at hgone
    rw [length_cons, Nat.mul_succ] at hlen
    show ((h.store.replayBatch source n now).2.available source).length ≤ _
    -- a call opens `n` records, or all that are left
    rcases hdone with hfull | hnil
    · omega
    · rw [hnil]
      exact Nat.zero_le _

theorem two_lines_drained :
    ((List.map (.replay "app" 1) [5, 7]).foldl (step "app")
      (step "app" (step "app" (start "app" freshStore) (spill 97 1)) (spill 98 3))).store.available
        "app" = [] :=
  replays_drain "app" 1 [5, 7] _ (step_wellFormed (step_wellFormed wellFormed_freshStore
    (by decide)) (by decide)) (by decide) (by decide)

end History

end EdgePacer.Delivery
