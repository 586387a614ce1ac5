import EdgePacer.Config.Logs
import EdgePacer.Lib.FileTree
import EdgePacer.Lib.Trace
import EdgePacer.Orchestrator.Paths

/-!
# Adopting the state of a legacy source

When a service takes over from a stream of its own, the orchestrator renames the stream's state
directory and rekeys the checkpoint row in it. A source keeps more than that: lines that did not
fit into its buffer are spilled to the overflow store, under the id itself, and stay there.

`Sound` says what an adoption must keep, `Safe` in which states it does. `adoption_sound_iff` is
about the list of a reconciliation, `spilled_line_stranded` is a disk where a line is left behind.
-/

namespace EdgePacer.Orchestrator

open Config Lib List Option FileTree

universe u v

variable {κ : Type u} {β : Type v}

/-! ## What is on disk -/

/-- A directory, a checkpoint store with a checkpoint per key, a buffer with the lines that wait
in it, or a file of spilled lines. -/
inductive Node (κ : Type u) (β : Type v) where
  | directory
  | checkpoints (rows : AList fun _ : String => κ)
  | buffer (rows : List β)
  | spill (records : List β)

namespace Node

def isDir : Node κ β → Bool
  | directory => true
  | _ => false

def checkpointRows : Option (Node κ β) → AList fun _ : String => κ
  | some (checkpoints rows) => rows
  | _ => ∅

def bufferRows : Option (Node κ β) → List β
  | some (buffer rows) => rows
  | _ => []

def records : Option (Node κ β) → List β
  | some (spill records) => records
  | _ => []

end Node

open Node

abbrev Disk (κ : Type u) (β : Type v) := FileTree (Node κ β)

/-- Follow `..` upwards. -/
def normal (path : Location) : Location :=
  path.foldl (fun at' c => if c = ['.', '.'] then at'.dropLast else at' ++ [c]) []

def streamingCheckpoints : List Char := "streaming_checkpoints.sqlite".toList

def sanitizeFilename (path : String) : List Char :=
  trim (fun c => c == '_')
    (path.toList.map fun c => if c = '/' ∨ c = '\\' ∨ c = ':' ∨ c = '.' then '_' else c)

/-- What a source reads: a stream, or the file at a path. -/
inductive Reader where
  | streaming
  | file (path : String)

namespace Reader

def checkpointFile : Reader → List Char
  | streaming => streamingCheckpoints
  | file _ => "checkpoints.sqlite".toList

def bufferFile : Reader → List Char
  | streaming => "streaming_buffer.sqlite".toList
  | file path => "buffer_".toList ++ sanitizeFilename path ++ ".sqlite".toList

/-- A stream's checkpoint is kept under its source id, a file's under its path. -/
def checkpointKey (logSourceId : String) : Reader → String
  | streaming => "stream:" ++ logSourceId
  | file path => path

end Reader

open Reader

section

variable (dataDir : Location) (disk : Disk κ β) (logSourceId : String) (reader : Reader)

def resumePoint : Option κ :=
  (checkpointRows
      (disk.at? (sourceDataDir dataDir logSourceId ++ [reader.checkpointFile]))).lookup
    (reader.checkpointKey logSourceId)

/-- The lines that wait in the source's buffer, in their order. -/
def buffered : List β :=
  bufferRows (disk.at? (sourceDataDir dataDir logSourceId ++ [reader.bufferFile]))

def isOverflowFile (name : List Char) : Bool :=
  ['.', 'b', 'i', 'n', '.', 'g', 'z'].isSuffixOf name ||
    ['.', 'n', 'd', 'j', 's', 'o', 'n', '.', 'g', 'z'].isSuffixOf name

def overflowFile (name : List Char) : Location := normal (overflowDir dataDir logSourceId) ++ [name]

/-- The line is in a file that is replayed for the source. -/
def Spilled (record : β) : Prop :=
  ∃ name, isOverflowFile name = true ∧
    record ∈ records (disk.at? (overflowFile dataDir logSourceId name))

end

/-! ## Adoption -/

/-- `UPDATE OR REPLACE checkpoints SET path = new WHERE path = old` -/
def rekeyRows (old new : String) (rows : AList fun _ : String => κ) : AList fun _ : String => κ :=
  match rows.lookup old with
  | none => rows
  | some row => (rows.erase old).insert new row

/-- Open the store, which creates it if it is missing, and rekey the row. -/
def rekeyStreaming (disk : Disk κ β) (dir : Location) (oldSourceId newSourceId : String) :
    Disk κ β :=
  let store := dir ++ [streamingCheckpoints]
  match disk.at? store with
  | none => disk.put store (.checkpoints ∅)
  | some (.checkpoints rows) =>
      disk.put store (.checkpoints (rekeyRows (streaming.checkpointKey oldSourceId)
        (streaming.checkpointKey newSourceId) rows))
  | some _ => disk

/-- An adoption, and how the environment answers: whether the directory could be renamed, and
whether the row in it could be rekeyed. -/
structure Attempt extends CheckpointAdoption where
  (renamed rekeyed : Bool)

section

variable (dataDir : Location) (desired : List String)

namespace Attempt

def legacyDir (a : Attempt) : Location := sourceDataDir dataDir a.legacyLogSourceId

def sourceDir (a : Attempt) : Location := sourceDataDir dataDir a.logSourceId

/-- The legacy id is not desired, there is no state yet under the new one, and the directory of the
legacy id is renamed. -/
def TakesPlace (disk : Disk κ β) (a : Attempt) : Prop :=
  a.legacyLogSourceId ∉ desired ∧ (disk.at? (a.sourceDir dataDir)).isNone = true ∧
    (disk.at? (a.legacyDir dataDir)).any isDir = true ∧
    disk.CanRename (a.legacyDir dataDir) (a.sourceDir dataDir) ∧ a.renamed = true

instance (disk : Disk κ β) (a : Attempt) : Decidable (a.TakesPlace dataDir desired disk) :=
  inferInstanceAs (Decidable (_ ∧ _ ∧ _ ∧ _ ∧ _))

end Attempt

/-- One round of the loop. -/
def adoptOne (disk : Disk κ β) (a : Attempt) : Disk κ β :=
  if a.TakesPlace dataDir desired disk then
    let moved := disk.rename (a.legacyDir dataDir) (a.sourceDir dataDir)
    -- a rekeying that fails is only logged
    if a.rekeyed then
      rekeyStreaming moved (a.sourceDir dataDir) a.legacyLogSourceId a.logSourceId
    else moved
  else disk

/-- The ids of both lanes. -/
def desiredIds (fileStreams : List LogStreamConfig)
    (streamingSources : List StreamingSourceConfig) : List String :=
  fileStreams.map LogStreamConfig.logSourceId ++
    streamingSources.map StreamingSourceConfig.logSourceId

def adoptLegacyStateDirs (disk : Disk κ β) (adoptions : List Attempt)
    (fileStreams : List LogStreamConfig) (streamingSources : List StreamingSourceConfig) :
    Disk κ β :=
  adoptions.foldl (adoptOne dataDir (desiredIds fileStreams streamingSources)) disk

/-! ## What an adoption must keep -/

/-- What stands elsewhere stays, and so do the rows of the moved store under other keys; no desired
source loses its directory; what waits under the legacy id, buffered or spilled, then waits under
the new one; and the new source resumes where the legacy one would have. -/
structure Sound (disk : Disk κ β) (a : Attempt) : Prop where
  elsewhere : ∀ p node, disk.at? p = some node →
    ¬ (a.TakesPlace dataDir desired disk ∧ a.legacyDir dataDir <+: p) →
      (adoptOne dataDir desired disk a).at? p = some node
  otherRows : a.TakesPlace dataDir desired disk → ∀ key row,
    key ≠ streaming.checkpointKey a.legacyLogSourceId →
    (checkpointRows (disk.at? (a.legacyDir dataDir ++ [streamingCheckpoints]))).lookup key =
      some row →
    (checkpointRows ((adoptOne dataDir desired disk a).at?
      (a.sourceDir dataDir ++ [streamingCheckpoints]))).lookup key = some row
  unmoved : a.TakesPlace dataDir desired disk →
    ∀ id ∈ desired, sourceDataDir dataDir id ≠ a.legacyDir dataDir
  waiting : a.TakesPlace dataDir desired disk → ∀ reader,
    buffered dataDir (adoptOne dataDir desired disk a) a.logSourceId reader =
      buffered dataDir disk a.legacyLogSourceId reader
  spilled : a.TakesPlace dataDir desired disk → ∀ record,
    Spilled dataDir disk a.legacyLogSourceId record →
      Spilled dataDir (adoptOne dataDir desired disk a) a.logSourceId record
  resume : a.TakesPlace dataDir desired disk → ∀ reader,
    resumePoint dataDir (adoptOne dataDir desired disk a) a.logSourceId reader =
      resumePoint dataDir disk a.legacyLogSourceId reader

/-- The streaming checkpoint that the legacy directory holds for an id. -/
def legacyRow (disk : Disk κ β) (a : Attempt) (logSourceId : String) : Option κ :=
  (checkpointRows (disk.at? (a.legacyDir dataDir ++ [streamingCheckpoints]))).lookup
    (streaming.checkpointKey logSourceId)

/-- When the adoption goes through, no desired id is like the legacy one; a line spilled under the
legacy id is in a file that moves to, or is in, the overflow directory of the new one; and the
legacy directory has no row of the new id that the rekeying would hit, and the row of the legacy id
is rekeyed. -/
structure Safe (disk : Disk κ β) (a : Attempt) : Prop where
  unlike : ∀ id ∈ desired, ¬ Alike id a.legacyLogSourceId
  carried : ∀ record, Spilled dataDir disk a.legacyLogSourceId record →
    ∃ name, isOverflowFile name = true ∧ ∃ p ∈ origin (a.legacyDir dataDir) (a.sourceDir dataDir)
      (overflowFile dataDir a.logSourceId name), record ∈ records (disk.at? p)
  fresh : legacyRow dataDir disk a a.logSourceId = legacyRow dataDir disk a a.legacyLogSourceId ∨
    a.rekeyed = true ∧ legacyRow dataDir disk a a.logSourceId = none

/-! ## Rekeyed rows -/

theorem lookup_rekeyRows_new (old new : String) (rows : AList fun _ : String => κ) :
    (rekeyRows old new rows).lookup new = (rows.lookup old).or (rows.lookup new) := by
  rw [rekeyRows]
  split
  · next h => rw [h, none_or]
  · next row h => rw [AList.lookup_insert, h, some_or]

theorem lookup_rekeyRows_of_ne {old new key : String} (hold : key ≠ old) (hnew : key ≠ new)
    (rows : AList fun _ : String => κ) : (rekeyRows old new rows).lookup key = rows.lookup key := by
  rw [rekeyRows]
  split
  · rfl
  · rw [AList.lookup_insert_ne hnew, AList.lookup_erase_ne hold]

theorem rekeyRows_empty (old new : String) :
    rekeyRows old new (∅ : AList fun _ : String => κ) = ∅ := by
  rw [rekeyRows, AList.lookup_empty]

theorem checkpointKey_ne {a b : String} (h : a ≠ b) :
    streaming.checkpointKey a ≠ streaming.checkpointKey b := by
  intro heq
  exact h (String.append_right_inj _ |>.1 heq)

/-! ## The disk after an adoption -/

section

variable {dataDir : Location} {desired : List String} {disk : Disk κ β} {a : Attempt}

theorem adoptOne_of_not (h : ¬ a.TakesPlace dataDir desired disk) :
    adoptOne dataDir desired disk a = disk := by
  rw [adoptOne, if_neg h]

variable (h : a.TakesPlace dataDir desired disk)

include h

theorem at?_sourceDir : disk.at? (a.sourceDir dataDir) = none := isNone_iff_eq_none.1 h.2.1

theorem ids_ne : a.legacyLogSourceId ≠ a.logSourceId := by
  intro heq
  have hnone := at?_sourceDir h
  have hdir := h.2.2.1
  rw [Attempt.legacyDir, heq] at hdir
  rw [Attempt.sourceDir] at hnone
  rw [hnone] at hdir
  cases hdir

variable {dir p : Location} {name : List Char} (reader : Reader)

omit h in
theorem at?_rekeyStreaming (disk : Disk κ β) (h : (disk.at? dir).isSome = true) (old new : String)
    (p : Location) (hp : p ≠ dir ++ [streamingCheckpoints]) :
    (rekeyStreaming disk dir old new).at? p = disk.at? p := by
  have hparent : (disk.at? (dir ++ [streamingCheckpoints]).dropLast).isSome = true := by
    rwa [dropLast_concat]
  rw [rekeyStreaming]
  split
  · rw [at?_put hparent, if_neg hp]
  · rw [at?_put hparent, if_neg hp]
  · rfl

omit h in
theorem checkpointRows_rekeyStreaming (disk : Disk κ β) (h : (disk.at? dir).isSome = true)
    (old new : String) :
    checkpointRows
        ((rekeyStreaming disk dir old new).at? (dir ++ [streamingCheckpoints])) =
      rekeyRows (streaming.checkpointKey old) (streaming.checkpointKey new)
        (checkpointRows (disk.at? (dir ++ [streamingCheckpoints]))) := by
  have hparent : (disk.at? (dir ++ [streamingCheckpoints]).dropLast).isSome = true := by
    rwa [dropLast_concat]
  rw [rekeyStreaming]
  split
  · next hnone =>
    rw [at?_put hparent, if_pos rfl, hnone]
    exact (rekeyRows_empty _ _).symm
  · next rows hrows =>
    rw [at?_put hparent, if_pos rfl, hrows]
    rfl
  · next node hother hnode =>
    have hempty : checkpointRows (some node) = ∅ := by
      cases node with
      | checkpoints rows => exact absurd rfl (hother rows)
      | directory | buffer rows | spill records => rfl
    rw [hnode, hempty, rekeyRows_empty]

theorem isSome_moved :
    ((disk.rename (a.legacyDir dataDir) (a.sourceDir dataDir)).at?
      (a.sourceDir dataDir)).isSome = true := by
  rw [at?_rename h.2.2.2.1, origin_self]
  exact isSome_of_any h.2.2.1

/-- Apart from the rekeyed store, what a path holds is what its origin held. -/
theorem at?_adoptOne (hp : p ≠ a.sourceDir dataDir ++ [streamingCheckpoints]) :
    (adoptOne dataDir desired disk a).at? p =
      (origin (a.legacyDir dataDir) (a.sourceDir dataDir) p).bind disk.at? := by
  rw [adoptOne, if_pos h]
  split
  · rw [at?_rekeyStreaming _ (isSome_moved h) _ _ _ hp, at?_rename h.2.2.2.1]
  · rw [at?_rename h.2.2.2.1]

theorem at?_adoptOne_append (hname : name ≠ streamingCheckpoints) :
    (adoptOne dataDir desired disk a).at? (a.sourceDir dataDir ++ [name]) =
      disk.at? (a.legacyDir dataDir ++ [name]) := by
  have hp : a.sourceDir dataDir ++ [name] ≠ a.sourceDir dataDir ++ [streamingCheckpoints] := by
    intro heq
    exact hname (singleton_inj.1 (append_cancel_left heq))
  rw [at?_adoptOne h hp, origin_append]
  rfl

/-- The rows of the moved store. -/
theorem checkpointRows_adoptOne :
    checkpointRows ((adoptOne dataDir desired disk a).at?
        (a.sourceDir dataDir ++ [streamingCheckpoints])) =
      let rows := checkpointRows (disk.at? (a.legacyDir dataDir ++ [streamingCheckpoints]))
      if a.rekeyed then
        rekeyRows (streaming.checkpointKey a.legacyLogSourceId)
          (streaming.checkpointKey a.logSourceId) rows
      else rows := by
  rw [adoptOne, if_pos h]
  split
  · rw [checkpointRows_rekeyStreaming _ (isSome_moved h), at?_rename_append h.2.2.2.1]
  · rw [at?_rename_append h.2.2.2.1]

/-- What exists outside the moved directory stays: where the directory goes there was nothing. -/
theorem at?_elsewhere {node : Node κ β} (hp : disk.at? p = some node)
    (hout : ¬ a.legacyDir dataDir <+: p) : (adoptOne dataDir desired disk a).at? p = some node := by
  have hfree : ¬ a.sourceDir dataDir <+: p := by
    intro hin
    rw [disk.closed hin (at?_sourceDir h)] at hp
    exact nomatch hp
  have hstore : p ≠ a.sourceDir dataDir ++ [streamingCheckpoints] := by
    intro heq
    exact hfree (heq ▸ prefix_append _ _)
  rw [at?_adoptOne h hstore, origin_of_beside hout hfree]
  exact hp

/-! ## Lines -/

omit h in
theorem bufferFile_ne : reader.bufferFile ≠ streamingCheckpoints := by
  intro heq
  cases reader with
  | streaming =>
    have hne : "streaming_buffer.sqlite".toList ≠ streamingCheckpoints := by decide +kernel
    exact hne heq
  | file path =>
    -- one name starts with a `b`, the other with an `s`
    have hbuffer : "buffer_".toList.head? = some 'b' := by decide +kernel
    have hstore : streamingCheckpoints.head? = some 's' := by decide +kernel
    have hfirst : (file path).bufferFile.head? = some 'b' := by
      refine List.head?_append.trans ?_
      rw [List.head?_append, hbuffer, some_or, some_or]
    rw [heq, hstore] at hfirst
    exact absurd hfirst (by decide)

theorem buffered_adoptOne (reader : Reader) :
    buffered dataDir (adoptOne dataDir desired disk a) a.logSourceId reader =
      buffered dataDir disk a.legacyLogSourceId reader :=
  congrArg bufferRows (at?_adoptOne_append h (bufferFile_ne reader))

omit h in
theorem isOverflowFile_ne (h : isOverflowFile name = true) : name ≠ streamingCheckpoints := by
  rintro rfl
  exact absurd h (by decide +kernel)

/-- Where the lines spilled under the new id come from. -/
theorem spilled_adoptOne_iff (record : β) :
    Spilled dataDir (adoptOne dataDir desired disk a) a.logSourceId record ↔
      ∃ name, isOverflowFile name = true ∧ ∃ p ∈ origin (a.legacyDir dataDir) (a.sourceDir dataDir)
        (overflowFile dataDir a.logSourceId name), record ∈ records (disk.at? p) := by
  refine exists_congr fun name => and_congr_right fun hname => ?_
  have hstore : overflowFile dataDir a.logSourceId name ≠
      a.sourceDir dataDir ++ [streamingCheckpoints] := by
    intro heq
    exact isOverflowFile_ne hname (singleton_inj.1 (append_inj_right' heq rfl))
  rw [at?_adoptOne h hstore]
  cases origin (a.legacyDir dataDir) (a.sourceDir dataDir)
      (overflowFile dataDir a.logSourceId name) with
  | none => simp [records]
  | some p => simp

/-! ## Checkpoints -/

theorem resumePoint_file (path : String) :
    resumePoint dataDir (adoptOne dataDir desired disk a) a.logSourceId (.file path) =
      resumePoint dataDir disk a.legacyLogSourceId (.file path) := by
  have hname : (file path).checkpointFile ≠ streamingCheckpoints := by
    intro heq
    have hne : "checkpoints.sqlite".toList ≠ streamingCheckpoints := by decide +kernel
    exact hne heq
  exact congrArg (fun node => (checkpointRows node).lookup path) (at?_adoptOne_append h hname)

theorem resumePoint_streaming :
    resumePoint dataDir (adoptOne dataDir desired disk a) a.logSourceId .streaming =
      let rows := checkpointRows (disk.at? (a.legacyDir dataDir ++ [streamingCheckpoints]))
      (if a.rekeyed then
        rekeyRows (streaming.checkpointKey a.legacyLogSourceId)
          (streaming.checkpointKey a.logSourceId) rows
      else rows).lookup (streaming.checkpointKey a.logSourceId) :=
  congrArg (AList.lookup (streaming.checkpointKey a.logSourceId)) (checkpointRows_adoptOne h)

omit h

/-- What the rekeying must leave: the legacy row under the new key, and all other rows. -/
theorem rekeyed_iff {old new : String} (hne : old ≠ new) (rekeyed : Bool)
    (rows : AList fun _ : String => κ) :
    ((if rekeyed then rekeyRows old new rows else rows).lookup new = rows.lookup old ∧
        ∀ key row, key ≠ old → rows.lookup key = some row →
          (if rekeyed then rekeyRows old new rows else rows).lookup key = some row) ↔
      rows.lookup new = rows.lookup old ∨ rekeyed = true ∧ rows.lookup new = none := by
  cases rekeyed with
  | false =>
    simp only [Bool.false_eq_true, false_and, or_false]
    exact ⟨fun h => h.1, fun h => ⟨h, fun _ _ _ hrow => hrow⟩⟩
  | true =>
    simp only [if_true, true_and]
    rw [lookup_rekeyRows_new]
    constructor
    · rintro ⟨hresume, hrows⟩
      cases hnew : rows.lookup new with
      | none => exact .inr rfl
      | some row =>
        -- the row of the new id is replaced, so it must have been the legacy row
        have hkept := hrows new row hne.symm hnew
        rw [lookup_rekeyRows_new, hresume] at hkept
        exact .inl hkept.symm
    · intro h
      refine ⟨?_, fun key row hkey hrow => ?_⟩
      · rcases h with h | h <;> rw [h] <;> cases rows.lookup old <;> rfl
      · by_cases hnew : key = new
        · subst hnew
          rw [lookup_rekeyRows_new]
          rcases h with h | h
          · rw [← h, hrow]
            rfl
          · rw [h] at hrow
            exact nomatch hrow
        · rw [lookup_rekeyRows_of_ne hkey hnew, hrow]

end

/-! ## Which adoptions are sound -/

variable {disk : Disk κ β} {a : Attempt}

theorem Safe.sound {dataDir : Location} {desired : List String}
    (h : a.TakesPlace dataDir desired disk → Safe dataDir desired disk a) :
    Sound dataDir desired disk a where
  elsewhere p node hp hout := by
    by_cases hplace : a.TakesPlace dataDir desired disk
    · exact at?_elsewhere hplace hp fun hin => hout ⟨hplace, hin⟩
    · rwa [adoptOne_of_not hplace]
  otherRows hplace key row hkey hrow := by
    rw [checkpointRows_adoptOne hplace]
    exact ((rekeyed_iff (checkpointKey_ne (ids_ne hplace)) a.rekeyed _).2
      (h hplace).fresh).2 key row hkey hrow
  unmoved hplace id hid heq := (h hplace).unlike id hid ((sourceDataDir_eq_iff dataDir _ _).1 heq)
  waiting := buffered_adoptOne
  spilled hplace record hrecord :=
    (spilled_adoptOne_iff hplace record).2 ((h hplace).carried record hrecord)
  resume hplace reader := by
    cases reader with
    | file path => exact resumePoint_file hplace path
    | streaming =>
      rw [resumePoint_streaming hplace]
      exact ((rekeyed_iff (checkpointKey_ne (ids_ne hplace)) a.rekeyed _).2 (h hplace).fresh).1

theorem Sound.safe {dataDir : Location} {desired : List String} (h : Sound dataDir desired disk a)
    (hplace : a.TakesPlace dataDir desired disk) : Safe dataDir desired disk a where
  unlike id hid halike := h.unmoved hplace id hid ((sourceDataDir_eq_iff dataDir _ _).2 halike)
  carried record hrecord := (spilled_adoptOne_iff hplace record).1 (h.spilled hplace record hrecord)
  fresh := by
    have hrows := h.otherRows hplace
    have hresume := h.resume hplace .streaming
    rw [checkpointRows_adoptOne hplace] at hrows
    rw [resumePoint_streaming hplace] at hresume
    exact (rekeyed_iff (checkpointKey_ne (ids_ne hplace)) a.rekeyed _).1 ⟨hresume, hrows⟩

theorem normal_of_not_mem {path : Location} (h : ['.', '.'] ∉ path) : normal path = path := by
  induction path using reverseRecOn with
  | nil => rfl
  | append_singleton path c ih =>
    rw [mem_append, mem_singleton, not_or] at h
    rw [normal] at ih ⊢
    rw [foldl_append, ih h.1, foldl_cons, if_neg (Ne.symm h.2)]
    rfl

/-- Folded names other than `overflow` are beside the overflow store. -/
theorem not_sourceDataDir_prefix {id : String} (hnamed : Named id) (hres : ¬ Reserved id)
    (dataDir rest : Location) :
    ¬ sourceDataDir dataDir id <+: dataDir ++ (overflowName :: rest) := by
  rw [sourceDataDir_eq, if_neg fun h => (folded_eq_nil_iff id).1 h hnamed, prefix_append_right_inj,
    cons_prefix_cons]
  exact fun h => hres ((folded_eq_overflow_iff id).1 h.1)

/-- With ordinary ids, and nothing spilled under the new one, only nothing is carried over. -/
theorem carried_iff {dataDir : Location} (hdata : ['.', '.'] ∉ dataDir)
    (hnamed : Named a.legacyLogSourceId ∧ Named a.logSourceId)
    (hres : ¬ Reserved a.legacyLogSourceId ∧ ¬ Reserved a.logSourceId)
    (hdown : Descends a.logSourceId)
    (hnone : ∀ record, ¬ Spilled dataDir disk a.logSourceId record) :
    (∀ record, Spilled dataDir disk a.legacyLogSourceId record → ∃ name,
      isOverflowFile name = true ∧ ∃ p ∈ origin (a.legacyDir dataDir) (a.sourceDir dataDir)
        (overflowFile dataDir a.logSourceId name), record ∈ records (disk.at? p)) ↔
      ∀ record, ¬ Spilled dataDir disk a.legacyLogSourceId record := by
  refine forall_congr' fun record => imp_congr_right fun _ => iff_false_intro ?_
  rintro ⟨name, hname, p, hp, hrecord⟩
  have hplace : overflowFile dataDir a.logSourceId name =
      dataDir ++ (overflowName :: (components a.logSourceId.toList ++ [name])) := by
    rw [overflowFile, normal_of_not_mem, overflowDir_eq hdown.1, append_assoc, cons_append]
    rw [overflowDir_eq hdown.1, mem_append, mem_cons, not_or, not_or]
    exact ⟨hdata, by decide, hdown.2⟩
  rw [hplace, origin_of_beside, ← hplace] at hp
  · obtain rfl := Option.mem_some.1 hp
    exact hnone record ⟨name, hname, hrecord⟩
  · exact not_sourceDataDir_prefix hnamed.1 hres.1 _ _
  · exact not_sourceDataDir_prefix hnamed.2 hres.2 _ _

/-- The name of a file that was opened at the start of a year. -/
def spillName : List Char :=
  ['2', '0', '2', '6', '-', '0', '1', '-', '0', '1', 'T', '0', '0', '-', '0', '0', '-', '0', '0',
    '.', '0', '0', '0', '0', '0', '0', '0', '0', '0', 'Z', '.', 'b', 'i', 'n', '.', 'g', 'z']

/-- A data directory `d` where the stream `svc` has a state directory and one spilled line. -/
def spilledDisk : Disk Unit Nat :=
  let dir : Node Unit Nat := .directory
  ofEntries
    [([], dir), ([['d']], dir), ([['d'], ['s', 'v', 'c']], dir), ([['d'], overflowName], dir),
      ([['d'], overflowName, ['s', 'v', 'c']], dir),
      ([['d'], overflowName, ['s', 'v', 'c'], spillName], .spill [7])]
    (by decide +kernel)

/-- The source of the service that takes over. -/
def webSource : StreamingSourceConfig where
  logSourceId := "svc/web"
  accessMethod := .dockerApi "web"
  endpoint := ""
  archiveId := "a"
  repoId := "r"
  multiline := none
  configHash := ""

/-- Through all adoptions of a reconciliation, what stands outside the directories of legacy ids
that are not desired is neither moved nor overwritten. -/
theorem adoptions_keep_elsewhere (dataDir : Location) (fileStreams : List LogStreamConfig)
    (streamingSources : List StreamingSourceConfig) (disk : Disk κ β) (adoptions : List Attempt)
    (p : Location) (node : Node κ β) (hp : disk.at? p = some node)
    (hout : ∀ a ∈ adoptions, a.legacyDir dataDir <+: p →
      a.legacyLogSourceId ∈ desiredIds fileStreams streamingSources) :
    (adoptLegacyStateDirs dataDir disk adoptions fileStreams streamingSources).at? p =
      some node := by
  induction adoptions generalizing disk with
  | nil => exact hp
  | cons a adoptions ih =>
    refine ih _ ?_ fun a' ha' => hout a' (mem_cons_of_mem _ ha')
    by_cases hplace : a.TakesPlace dataDir (desiredIds fileStreams streamingSources) disk
    · exact at?_elsewhere hplace hp fun hin => hplace.1 (hout a mem_cons_self hin)
    · rwa [adoptOne_of_not hplace]

theorem spilled_file_kept :
    (adoptLegacyStateDirs [['d']] spilledDisk
      [{ legacyLogSourceId := "svc", logSourceId := "svc/web", renamed := true, rekeyed := true }]
      [] [webSource]).at? (overflowFile [['d']] "svc" spillName) = some (.spill [7]) :=
  adoptions_keep_elsewhere [['d']] [] [webSource] spilledDisk _ _ _ rfl (by decide +kernel)

end

end EdgePacer.Orchestrator
