import EdgePacer.FilePipeline.Model
import Mathlib.Algebra.Order.BigOperators.Group.List

/-!
# Bytes of the lines of a read

What a read gives comes with lengths: of its lines, and of the fragments that wait for the rest of
their line. For a file these are counted from the payloads, a payload and one byte for each line
read (`countedLen`), and add up exactly (`LogTailer.accounts`); a container's reader keeps the bytes
it consumed. `InPlace.accounts` compares them with the position for a read that starts where the
tailer stands.
-/

namespace EdgePacer.FilePipeline

open Source List LogTailer TailedLine

/-! ## File-backed tailers -/

variable (ps : RecordParsers) (raws : List Bytes) {n : Nat} {utf16 : Utf16Decoder}

theorem pushAll_sourceLen_pos :
    ∀ (r : DockerJsonReassembler), ∀ line ∈ (pushAll ps raws r).1, 0 < line.sourceLen := by
  induction raws with
  | nil => exact nofun
  | cons raw raws ih =>
    intro r line h
    rcases mem_append.1 h with hhere | hlater
    · exact DockerJsonReassembler.sourceLen_pos_of_push (Option.mem_toList.1 hhere)
    · exact ih _ line hlater

/-- The length the pipeline counts for a line of a file. -/
def countedLen (l : TailLine) : Nat := l.payload.length + 1

theorem sum_countedLen {ls : List TailLine} (h : ∀ x ∈ ls, countedLen x = x.consumed) :
    (ls.map countedLen).sum = (ls.map TailLine.consumed).sum :=
  congrArg List.sum (map_congr_left h)

theorem pushAll_accounts :
    ∀ r : DockerJsonReassembler,
      ((pushAll ps raws r).1.map DockerJsonLine.sourceLen).sum +
          (pushAll ps raws r).2.pendingBytes =
        r.pendingBytes + (raws.map fun raw => raw.length + 1).sum := by
  induction raws with
  | nil => exact fun r => Nat.add_comm _ _
  | cons raw raws ih =>
    intro r
    have hpush := r.push_accounts ps raw
    have hrest := ih (r.push ps raw).2
    have hhead : ((r.push ps raw).1.toList.map DockerJsonLine.sourceLen).sum =
        DockerJsonReassembler.emittedLen (r.push ps raw).1 := by
      cases (r.push ps raw).1 with
      | none => rfl
      | some line => exact Nat.add_zero _
    simp only [pushAll, map_append, sum_append, map_cons, sum_cons]
    omega

namespace LogTailer

/-- The file tailer of a source that tails one file. -/
def fileTailer : LogTailer → Option FileTailer
  | .file t | .dockerJson t _ => some t
  | .kubernetes _ => none

/-- A fresh tailer of a plain file or of a json-file log. -/
def ofFile (docker : Bool) (t : FileTailer) : LogTailer :=
  if docker then .dockerJson t .empty else .file t

variable {lt : LogTailer} {t : FileTailer} (h : lt.fileTailer = some t) (libs : Externals)
  (view : SourceView) (n : Nat)

include h

theorem position_of_fileTailer : lt.position = ⟨t.state.offset, t.state.inode⟩ := by
  cases lt with
  | file t' =>
    cases h
    rfl
  | dockerJson t' r =>
    cases h
    rfl
  | kubernetes t' => cases h

theorem fileTailer_readLines :
    (lt.readLines libs view n).2.fileTailer = some (t.readLines libs.utf16 view.file n).2 := by
  cases lt with
  | file t' =>
    cases h
    rfl
  | dockerJson t' r =>
    cases h
    rfl
  | kubernetes t' => cases h

theorem sourceLen_pos : ∀ line ∈ (lt.readLines libs view n).1, 0 < line.sourceLen := by
  intro line hline
  cases lt with
  | file t' =>
    obtain ⟨l, -, rfl⟩ := mem_map.1 hline
    exact Nat.succ_pos _
  | dockerJson t' r =>
    obtain ⟨l, hl, rfl⟩ := mem_map.1 hline
    exact pushAll_sourceLen_pos libs.parsers _ r l hl
  | kubernetes t' => cases h

/-- The lengths of the lines and of the fragments that wait add up to what is counted for the lines
read. -/
theorem accounts :
    ((lt.readLines libs view n).1.map sourceLen).sum +
        (lt.readLines libs view n).2.pendingPartialBytes =
      lt.pendingPartialBytes + ((t.readLines libs.utf16 view.file n).1.map countedLen).sum := by
  cases lt with
  | file t' =>
    cases h
    simp only [readLines, map_map, pendingPartialBytes, Nat.zero_add]
    rfl
  | dockerJson t' r =>
    cases h
    have hpush := pushAll_accounts libs.parsers
      ((t.readLines libs.utf16 view.file n).1.map TailLine.payload) r
    rw [map_map] at hpush
    simp only [readLines, map_map]
    exact hpush
  | kubernetes t' => cases h

end LogTailer

variable {lt : LogTailer} {t : FileTailer}

/-- A read that takes nothing from a rotated file gives contiguous lines, from where the preparation
left the offset. -/
theorem FileTailer.readLines_contiguous {view : FileView} (h : t.state.Aligned)
    (hdrained : t.drained utf16 view n = []) :
    (t.readLines utf16 view n).2.state.Aligned ∧
      ∃ inode, Contiguous inode (t.prepare view).2.state.offset (t.readLines utf16 view n).1
        (t.readLines utf16 view n).2.state.offset := by
  obtain ⟨cur, hlines, haligned, -, hcur⟩ := FileTailer.readLines_spec h utf16 view n
  rw [hdrained] at hlines
  refine ⟨haligned, ?_⟩
  rw [hlines]
  rcases hcur with ⟨r, -, hcontig⟩ | ⟨rfl, hoffset⟩
  · exact ⟨r.inode, hcontig⟩
  · exact ⟨0, hoffset.symm⟩

/-- What is counted for the lines of a read is at most the bytes it took, when every line took at
least the bytes counted for it. -/
theorem FileTailer.counted_le {view : FileView} (h : t.state.Aligned)
    (hdrained : t.drained utf16 view n = [])
    (hlen : ∀ l ∈ (t.readLines utf16 view n).1, countedLen l ≤ l.consumed) :
    (t.prepare view).2.state.offset + ((t.readLines utf16 view n).1.map countedLen).sum ≤
      (t.readLines utf16 view n).2.state.offset := by
  obtain ⟨-, inode, hcontig⟩ := FileTailer.readLines_contiguous h hdrained
  have hle := sum_le_sum hlen
  rw [hcontig.sum_consumed]
  exact Nat.add_le_add_left hle _

/-! ## Reads in place -/

/-- A read that starts where the tailer stands, takes nothing from a rotated file, and whose lines
took at least the bytes counted for them. -/
def InPlace (libs : Externals) (view : SourceView) (n : Nat) : LogTailer → Prop
  | .file t | .dockerJson t _ =>
      (t.prepare view.file).2.state.offset = t.state.offset ∧
        t.drained libs.utf16 view.file n = [] ∧
        ∀ l ∈ (t.readLines libs.utf16 view.file n).1, countedLen l ≤ l.consumed
  | .kubernetes t =>
      (t.checkRotation view.dir).2.offset = t.offset ∧
        (t.checkRotation view.dir).2.partialSourceLen = t.partialSourceLen

instance (libs : Externals) (view : SourceView) (n : Nat) :
    DecidablePred (InPlace libs view n)
  | .file _ | .dockerJson _ _ => inferInstanceAs (Decidable (_ ∧ _ ∧ _))
  | .kubernetes _ => inferInstanceAs (Decidable (_ ∧ _))

/-- The reader of a file stands at the offset the tailer reports. -/
def LogTailer.Aligned : LogTailer → Prop
  | .file t | .dockerJson t _ => t.state.Aligned
  | .kubernetes _ => True

/-- A tailer as a source is opened with it: no fragment waits. -/
structure LogTailer.Fresh (lt : LogTailer) : Prop where
  aligned : lt.Aligned
  pending : lt.pendingPartialBytes = 0

theorem LogTailer.readLines_aligned (h : lt.Aligned) (libs : Externals) (view : SourceView)
    (n : Nat) : (lt.readLines libs view n).2.Aligned := by
  have hfile : ∀ t : FileTailer, t.state.Aligned →
      (t.readLines libs.utf16 view.file n).2.state.Aligned := by
    intro t ht
    obtain ⟨cur, -, haligned, -⟩ := FileTailer.readLines_spec ht libs.utf16 view.file n
    exact haligned
  cases lt with
  | file t | dockerJson t r => exact hfile t h
  | kubernetes t => trivial

theorem InPlace.accounts_file {libs : Externals} {view : SourceView}
    (h : InPlace libs view n (.file t)) (hlt : lt.fileTailer = some t)
    (haligned : t.state.Aligned) :
    ((lt.readLines libs view n).1.map sourceLen).sum +
        (lt.readLines libs view n).2.pendingPartialBytes + lt.position.offset ≤
      lt.pendingPartialBytes + (lt.readLines libs view n).2.position.offset := by
  have haccounts := accounts hlt libs view n
  obtain ⟨hoffset, hdrained, hlen⟩ := h
  have hcounted := FileTailer.counted_le haligned hdrained hlen
  rw [position_of_fileTailer hlt, position_of_fileTailer (fileTailer_readLines hlt libs view n)]
  dsimp only
  omega

/-- The lengths of the lines and of the fragments that wait are at most the bytes read since the
fragments that waited before. -/
theorem InPlace.accounts {libs : Externals} {view : SourceView} (h : InPlace libs view n lt)
    (haligned : lt.Aligned) :
    ((lt.readLines libs view n).1.map sourceLen).sum +
        (lt.readLines libs view n).2.pendingPartialBytes + lt.position.offset ≤
      lt.pendingPartialBytes + (lt.readLines libs view n).2.position.offset := by
  cases lt with
  | file t | dockerJson t r => exact accounts_file h rfl haligned
  | kubernetes t =>
    have hmap : ∀ lines : List ContainerLine, (lines.map containerTailedLine).map
        sourceLen = lines.map ContainerLine.sourceLen := by
      intro lines
      rw [map_map]
      rfl
    simp only [readLines, hmap, position, pendingPartialBytes]
    rw [ContainerReader.readLines]
    split
    · have hacc := ContainerReader.readLoop_accounts libs.parsers view.dir.content n
        (t.checkRotation view.dir).2
      rw [h.1, h.2] at hacc
      omega
    · rw [h.1, h.2, map_nil, sum_nil]
      omega

end EdgePacer.FilePipeline
