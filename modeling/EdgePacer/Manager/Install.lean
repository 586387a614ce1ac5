import EdgePacer.Lib.Trace
import EdgePacer.Manager.Release

/-!
# Replacing a binary

An update downloads the new binary beside the old one, verifies it, copies the old one to a backup
and renames the new one into place; a new version that cannot be installed, does not start or is not
healthy is replaced by the backup. A self-update of the manager does the same without the agent's
process. Every operation is a phase of its own, and a crash is the end of a run: what holds
throughout every run holds at every crash.

The download is written through `tokio::fs::File`, which takes a write over and returns: the bytes
of the last one are `unwritten` until they have reached the file, which nobody waits for.

`swap_whole`: the binary's path holds a complete executable all the time, if the download's last
bytes are on disk when it is renamed and no rollback gets to remove the binary. `restore_backup`
removes before it renames, and in between there is no binary (`rollback_leaves_no_binary`).
-/

namespace EdgePacer.Manager

open Lib List Option

/-! ## Names -/

/-- `Path::file_stem`: the name without its last extension. A leading dot starts no extension. -/
def fileStem (name : List Char) : List Char :=
  match name.reverse.dropWhile (· ≠ '.') with
  | [] => name
  | _ :: rev => if rev.isEmpty then name else rev.reverse

/-- `Path::with_extension`, for the last component of a path. -/
@[irreducible] def withExtension (name extension : String) : String :=
  String.ofList (fileStem name.toList ++ '.' :: extension.toList)

theorem withExtension_injective {name a b : String}
    (h : withExtension name a = withExtension name b) : a = b := by
  have hlist := congrArg String.toList h
  rw [withExtension, withExtension, String.toList_ofList, String.toList_ofList] at hlist
  exact String.toList_injective (List.cons.inj (append_cancel_left hlist)).2

/-! ## The directory of the binary -/

/-- A file, and whether its mode lets it be executed. -/
structure File where
  content : Bytes
  executable : Bool
  deriving DecidableEq, Repr

/-- The files of a directory by name. No file has two names. -/
abbrev Directory := String → Option File

namespace Directory

variable (d : Directory)

def put (name : String) (file : Option File) : Directory :=
  fun other => if other = name then file else d other

@[simp] theorem put_same (name : String) (file : Option File) : d.put name file name = file :=
  if_pos rfl

variable {name other : String} {file : File} {source target : String}

theorem put_other (h : other ≠ name) (file : Option File) :
    d.put name file other = d other := if_neg h

/-- `File::create`: a file that is there keeps its mode. -/
def create (name : String) : Directory := d.put name (some ⟨[], (d name).any (·.executable)⟩)

def append (name : String) (bytes : Bytes) : Directory :=
  d.put name ((d name).map fun f => { f with content := f.content ++ bytes })

/-- `set_permissions` with mode `0o755`. -/
def makeExecutable (name : String) : Directory :=
  d.put name ((d name).map fun f => { f with executable := true })

def remove (name : String) : Directory := d.put name none

/-- Atomic. -/
def rename (source target : String) : Directory :=
  match d source with
  | none => d
  | some file => (d.put source none).put target (some file)

/-- `std::fs::copy`, up to `bytes` bytes: the target gets the mode of the source and is emptied
before the source is read. -/
def copy (source target : String) (bytes : Nat) : Directory :=
  match d source with
  | none => d
  | some file =>
      let emptied := d.put target (some ⟨[], file.executable⟩)
      emptied.put target
        (some ⟨((emptied source).map (·.content.take bytes)).getD [], file.executable⟩)

variable {d}

theorem append_same (h : d name = some file) (bytes : Bytes) :
    d.append name bytes name = some { file with content := file.content ++ bytes } := by
  rw [append, put_same, h, map_some]

theorem append_other (h : other ≠ name) (bytes : Bytes) :
    d.append name bytes other = d other := d.put_other h _

theorem makeExecutable_same (h : d name = some file) :
    d.makeExecutable name name = some { file with executable := true } := by
  rw [makeExecutable, put_same, h, map_some]

theorem makeExecutable_other (h : other ≠ name) :
    d.makeExecutable name other = d other := d.put_other h _

theorem remove_other (h : other ≠ name) : d.remove name other = d other := d.put_other h _

theorem create_same (name : String) :
    d.create name name = some ⟨[], (d name).any (·.executable)⟩ := d.put_same _ _

theorem create_other (h : other ≠ name) : d.create name other = d other := d.put_other h _

theorem append_nil (name : String) : d.append name [] = d := by
  funext other
  by_cases h : other = name
  · subst h
    rw [append, put_same]
    cases hf : d other with
    | none => rfl
    | some f => simp
  · exact d.put_other h _

theorem rename_target (h : d source = some file) : d.rename source target target = some file := by
  rw [rename, h]
  exact put_same ..

theorem rename_other (hs : other ≠ source) (ht : other ≠ target) :
    d.rename source target other = d other := by
  unfold rename
  cases d source with
  | none => rfl
  | some file => exact (put_other _ ht _).trans (put_other _ hs _)

theorem copy_other (h : other ≠ target) (bytes : Nat) :
    d.copy source target bytes other = d other := by
  unfold copy
  cases d source with
  | none => rfl
  | some file => exact (put_other _ h _).trans (put_other _ h _)

theorem copy_target (h : d source = some file) (hne : source ≠ target) :
    d.copy source target file.content.length target = some file := by
  rw [copy, h]
  dsimp only
  rw [put_same, put_other _ hne, h, map_some, getD_some, take_length]

end Directory

/-! ## The operations of an update -/

/-- Where an update stands. -/
inductive SwapPhase where
  /-- The URL and the request. -/
  | requesting
  | creating
  | receiving
  | verifying
  | discarding
  | settingPermissions
  | backingUp
  | stopping
  | installing
  | starting
  | checkingHealth
  | stoppingNew
  /-- `restore_backup`: the binary is removed. -/
  | removing
  /-- `restore_backup`: the backup is renamed. -/
  | replacing
  | cleaningUp
  | finished
  deriving DecidableEq, Repr

/-- The phases before the new file is created. -/
def SwapPhase.starts : SwapPhase → Bool
  | .requesting | .creating => true
  | _ => false

/-- The phases between the creation of the new file and its renaming. -/
def SwapPhase.downloads : SwapPhase → Bool
  | .receiving | .verifying | .discarding | .settingPermissions | .backingUp | .stopping
  | .installing => true
  | _ => false

/-- The phases that are reached with a verified download beside the binary. -/
def SwapPhase.verified : SwapPhase → Bool
  | .settingPermissions | .backingUp | .stopping | .installing => true
  | _ => false

/-- The phases that are reached with an executable download beside the binary. -/
def SwapPhase.executable : SwapPhase → Bool
  | .backingUp | .stopping | .installing => true
  | _ => false

/-- The phases of an update that has a backup. -/
def SwapPhase.backedUp : SwapPhase → Bool
  | .stopping | .installing | .starting | .checkingHealth | .stoppingNew | .removing | .replacing
  | .cleaningUp => true
  | _ => false

/-- What the stream of a download gives next. -/
inductive Chunk where
  | data (bytes : Bytes)
  | ends
  | fails
  deriving DecidableEq, Repr

/-- What becomes of an operation. -/
structure SwapAnswers where
  succeeds : Bool := true
  chunk : Chunk := .ends
  /-- Where a copy breaks off, if it does. -/
  breaksOff : Option Nat := none
  deriving DecidableEq, Repr

inductive SwapEvent where
  /-- Some of the unwritten bytes reach the file. -/
  | lands (bytes : Nat)
  | proceeds (a : SwapAnswers)
  deriving DecidableEq, Repr

/-- An update: which binary, under which name, and what passes the digest and the signature. -/
structure Swap where
  kind : ReleaseKind
  binary : String
  verified : Bytes → Bool

namespace Swap

/-- The operation that comes next, the directory, the bytes hashed so far, those of them that have
not reached the file, and the name the downloaded file has. -/
structure State where
  phase : SwapPhase := .requesting
  disk : Directory
  received : Bytes := []
  unwritten : Bytes := []
  downloadedAt : Option String := none

namespace State

variable (s : State)

def goTo (phase : SwapPhase) : State := { s with phase := phase }

/-- Unwritten bytes reach the downloaded file, wherever it is now. -/
def land (bytes : Nat) : State :=
  match s.downloadedAt with
  | none => s
  | some name =>
      { s with
        disk := s.disk.append name (s.unwritten.take bytes)
        unwritten := s.unwritten.drop bytes }

end State

variable (w : Swap)

def newPath : String := withExtension w.binary "new"

def backupPath : String := withExtension w.binary "backup"

/-- The next operation of `download_and_verify`, then of `perform_update` or of
`perform_self_update`. -/
def proceed (s : State) (a : SwapAnswers) : State :=
  match s.phase with
  | .requesting => s.goTo (if a.succeeds then .creating else .finished)
  | .creating =>
      if a.succeeds then
        { s with
          phase := .receiving
          disk := s.disk.create w.newPath
          downloadedAt := some w.newPath }
      else s.goTo .finished
  | .receiving =>
      match a.chunk with
      | .ends => s.goTo .verifying
      | .fails => s.goTo .finished
      | .data bytes =>
          -- a write waits for the one before, and fails if that one has failed
          if a.succeeds then
            { s.land s.unwritten.length with received := s.received ++ bytes, unwritten := bytes }
          else s.goTo .finished
  | .verifying => s.goTo (if w.verified s.received then .settingPermissions else .discarding)
  | .discarding =>
      if a.succeeds then
        { s with phase := .finished, disk := s.disk.remove w.newPath, downloadedAt := none }
      else s.goTo .finished
  | .settingPermissions =>
      if a.succeeds then
        { s with phase := .backingUp, disk := s.disk.makeExecutable w.newPath }
      else s.goTo .finished
  | .backingUp =>
      if a.succeeds then
        match a.breaksOff, s.disk w.binary with
        | some bytes, _ =>
            { s with phase := .finished, disk := s.disk.copy w.binary w.backupPath bytes }
        | none, none => s.goTo .finished
        | none, some file =>
            { s with
              phase := if w.kind = .agent then .stopping else .installing
              disk := s.disk.copy w.binary w.backupPath file.content.length }
      else s.goTo .finished
  | .stopping => s.goTo (if a.succeeds then .installing else .finished)
  | .installing =>
      if a.succeeds then
        { s with
          phase := if w.kind = .agent then .starting else .cleaningUp
          disk := s.disk.rename w.newPath w.binary
          downloadedAt := some w.binary }
      else s.goTo .removing
  | .starting => s.goTo (if a.succeeds then .checkingHealth else .removing)
  | .checkingHealth => s.goTo (if a.succeeds then .cleaningUp else .stoppingNew)
  | .stoppingNew => s.goTo (if a.succeeds then .removing else .finished)
  | .removing =>
      if a.succeeds then
        { s with
          phase := .replacing
          disk := s.disk.remove w.binary
          downloadedAt := s.downloadedAt.filter (· ≠ w.binary) }
      else s.goTo .replacing
  | .replacing =>
      if a.succeeds then
        { s with
          phase := .finished
          disk := s.disk.rename w.backupPath w.binary
          downloadedAt := s.downloadedAt.filter (· ≠ w.binary) }
      else s.goTo .finished
  | .cleaningUp =>
      if a.succeeds then { s with phase := .finished, disk := s.disk.remove w.backupPath }
      else s.goTo .finished
  | .finished => s

def step (s : State) : SwapEvent → State
  | .lands bytes => s.land bytes
  | .proceeds a => w.proceed s a

/-! ## A complete executable at all times -/

/-- A path holds an executable file with the previous content or one that has passed. -/
def Holds (previous : Bytes) (d : Directory) (path : String) : Prop :=
  ∃ content, d path = some ⟨content, true⟩ ∧ (content = previous ∨ w.verified content = true)

def Whole (previous : Bytes) (s : State) : Prop := w.Holds previous s.disk w.binary

/-- The two other names are not the binary's, the whole download is on disk when it is renamed, and
no rollback removes the binary. -/
def Safe (s : State) : SwapEvent → Prop
  | .lands _ => True
  | .proceeds a => a.succeeds = true →
      match s.phase with
      | .creating => w.newPath ≠ w.binary
      | .backingUp => w.backupPath ≠ w.binary
      | .installing => s.unwritten = []
      | .removing => False
      | _ => True

theorem newPath_ne_backupPath : w.newPath ≠ w.backupPath := fun h =>
  absurd (withExtension_injective h) (by decide +kernel)

/-- What holds in each phase of an update. -/
structure Inv (previous : Bytes) (s : State) : Prop where
  whole : w.Whole previous s
  start : s.phase.starts = true → s.received = [] ∧ s.unwritten = []
  /-- Bytes on their way reach the new file, and none are left once it is the binary. -/
  place : ∀ path, s.downloadedAt = some path →
    (path = w.newPath ∧ w.newPath ≠ w.binary) ∨ (path = w.binary ∧ s.unwritten = [])
  download : s.phase.downloads = true →
    s.downloadedAt = some w.newPath ∧ w.newPath ≠ w.binary ∧
      ∃ file, s.disk w.newPath = some file ∧ file.content ++ s.unwritten = s.received ∧
        (s.phase.executable = true → file.executable = true)
  verified : s.phase.verified = true → w.verified s.received = true
  backup : s.phase.backedUp = true → w.backupPath ≠ w.binary ∧ w.Holds previous s.disk w.backupPath

variable {w} {previous : Bytes} {s : State}

theorem Holds.of_eq {d d' : Directory} {path : String} (h : w.Holds previous d path)
    (heq : d' path = d path) : w.Holds previous d' path := by
  obtain ⟨content, hfile, hgood⟩ := h
  exact ⟨content, heq.trans hfile, hgood⟩

variable {phase : SwapPhase}

variable (h : w.Inv previous s)

include h

/-- A phase that asks for no more than the present one. -/
theorem Inv.goTo (hstart : phase.starts = true → s.phase.starts = true)
    (hdownloads : phase.downloads = true → s.phase.downloads = true)
    (hexecutable : phase.executable = true → s.phase.executable = true)
    (hverified : phase.verified = true → w.verified s.received = true)
    (hbackup : phase.backedUp = true → s.phase.backedUp = true) :
    w.Inv previous (s.goTo phase) where
  whole := h.whole
  start hphase := h.start (hstart hphase)
  place := h.place
  download hphase := by
    obtain ⟨hat, hne, file, hfile, hcontent, hmode⟩ := h.download (hdownloads hphase)
    exact ⟨hat, hne, file, hfile, hcontent, fun he => hmode (hexecutable he)⟩
  verified := hverified
  backup hphase := h.backup (hbackup hphase)

theorem Inv.finish : w.Inv previous (s.goTo .finished) := h.goTo nofun nofun nofun nofun nofun

theorem Inv.land (bytes : Nat) : w.Inv previous (s.land bytes) := by
  unfold State.land
  split
  · exact h
  · next path hat =>
    rcases h.place path hat with ⟨rfl, hne⟩ | ⟨rfl, hnone⟩
    · refine ⟨h.whole.of_eq (Directory.append_other hne.symm _), fun hphase => ?_,
        fun path hpath => ?_, fun hphase => ?_, h.verified, fun hphase => ?_⟩
      · obtain ⟨hreceived, hunwritten⟩ := h.start hphase
        exact ⟨hreceived, by rw [hunwritten, drop_nil]⟩
      · exact .inl ⟨(some.inj (hat.symm.trans hpath)).symm, hne⟩
      · obtain ⟨-, -, file, hfile, hcontent, hmode⟩ := h.download hphase
        refine ⟨hat, hne, _, Directory.append_same hfile _, ?_, hmode⟩
        rw [append_assoc, take_append_drop, hcontent]
      · obtain ⟨hbackup, hholds⟩ := h.backup hphase
        exact ⟨hbackup, hholds.of_eq (Directory.append_other w.newPath_ne_backupPath.symm _)⟩
    · -- the new file is the binary, and complete
      have hsame : ({ s with
          disk := s.disk.append w.binary (s.unwritten.take bytes)
          unwritten := s.unwritten.drop bytes } : State) = s := by
        rw [hnone, take_nil, drop_nil, Directory.append_nil, ← hnone]
      rw [hsame]
      exact h

/-! ### The operations that change the directory -/

/-- The new file is created beside the binary. -/
theorem Inv.create (hphase : s.phase.starts = true) (hne : w.newPath ≠ w.binary) :
    w.Inv previous
      { s with
        phase := .receiving
        disk := s.disk.create w.newPath
        downloadedAt := some w.newPath } where
  whole := h.whole.of_eq (Directory.create_other hne.symm)
  start := nofun
  place path hpath := .inl ⟨(some.inj hpath).symm, hne⟩
  download _ := by
    obtain ⟨hreceived, hunwritten⟩ := h.start hphase
    exact ⟨rfl, hne, _, Directory.create_same _, by rw [hreceived, hunwritten]; rfl, nofun⟩
  verified := nofun
  backup := nofun

/-- A chunk is handed over once the one before has reached the file. -/
theorem Inv.receive (hphase : s.phase = .receiving) (bytes : Bytes) :
    w.Inv previous
      { s.land s.unwritten.length with received := s.received ++ bytes, unwritten := bytes } := by
  have hland := h.land s.unwritten.length
  obtain ⟨hat, hne, -⟩ := h.download (by rw [hphase]; rfl)
  have hstate : s.land s.unwritten.length =
      { s with disk := s.disk.append w.newPath s.unwritten, unwritten := [] } := by
    rw [State.land, hat]
    rw [take_length, drop_length]
  rw [hstate] at hland ⊢
  have hkeep : ∀ {P : Prop}, s.phase.backedUp = true → P := fun hbackup => by
    rw [hphase] at hbackup
    cases hbackup
  refine ⟨hland.whole, fun hstart => ?_, fun path hpath => ?_, fun hdownload => ?_, fun hver => ?_,
    hkeep⟩
  · rw [show s.phase = .receiving from hphase] at hstart
    cases hstart
  · exact .inl ⟨(some.inj (hat.symm.trans hpath)).symm, hne⟩
  · obtain ⟨-, -, file, hfile, hcontent, hmode⟩ := hland.download hdownload
    rw [append_nil] at hcontent
    refine ⟨hat, hne, file, hfile, ?_, hmode⟩
    rw [hcontent]
  · rw [show s.phase = .receiving from hphase] at hver
    cases hver

theorem Inv.discard (hphase : s.phase = .discarding) :
    w.Inv previous
      { s with phase := .finished, disk := s.disk.remove w.newPath, downloadedAt := none } := by
  obtain ⟨-, hne, -⟩ := h.download (by rw [hphase]; rfl)
  exact ⟨h.whole.of_eq (Directory.remove_other hne.symm), nofun, nofun, nofun, nofun, nofun⟩

theorem Inv.setPermissions (hphase : s.phase = .settingPermissions) :
    w.Inv previous { s with phase := .backingUp, disk := s.disk.makeExecutable w.newPath } := by
  obtain ⟨hat, hne, file, hfile, hcontent, -⟩ := h.download (by rw [hphase]; rfl)
  exact ⟨h.whole.of_eq (Directory.makeExecutable_other hne.symm), nofun, h.place,
    fun _ => ⟨hat, hne, _, Directory.makeExecutable_same hfile, hcontent, fun _ => rfl⟩,
    fun _ => h.verified (by rw [hphase]; rfl), nofun⟩

/-- A copy to the backup, complete or not, changes neither the binary nor the new file. -/
theorem Inv.copyTo (hphase : s.phase = .backingUp) (hne : w.backupPath ≠ w.binary) (bytes : Nat)
    (hstart : phase.starts = false)
    (hbackup : phase.backedUp = true → w.Holds previous
    (s.disk.copy w.binary w.backupPath bytes) w.backupPath) :
    w.Inv previous { s with phase := phase, disk := s.disk.copy w.binary w.backupPath bytes } := by
  obtain ⟨hat, hnew, file, hfile, hcontent, hmode⟩ := h.download (by rw [hphase]; rfl)
  refine ⟨h.whole.of_eq (Directory.copy_other hne.symm bytes), fun hstarts => ?_, h.place,
    fun _ => ⟨hat, hnew, file, ?_, hcontent, fun _ => hmode (by rw [hphase]; rfl)⟩,
    fun _ => h.verified (by rw [hphase]; rfl), fun hb => ⟨hne, hbackup hb⟩⟩
  · cases hstart.symm.trans hstarts
  · exact (Directory.copy_other w.newPath_ne_backupPath bytes).trans hfile

/-- A download that is on disk is renamed into place. -/
theorem Inv.install (hphase : s.phase = .installing) (hwritten : s.unwritten = [])
    (hstart : phase.starts = false) (hdownloads : phase.downloads = false)
    (hverified : phase.verified = false) :
    w.Inv previous
      { s with
        phase := phase
        disk := s.disk.rename w.newPath w.binary
        downloadedAt := some w.binary } := by
  obtain ⟨hat, hne, ⟨content, executable⟩, hfile, hcontent, hmode⟩ :=
    h.download (by rw [hphase]; rfl)
  obtain rfl : executable = true := hmode (by rw [hphase]; rfl)
  rw [hwritten, append_nil] at hcontent
  obtain ⟨hbackup, hholds⟩ := h.backup (by rw [hphase]; rfl)
  refine ⟨⟨content, Directory.rename_target hfile, .inr ?_⟩, fun hs => ?_, fun path hpath => ?_,
    fun hd => ?_, fun hv => ?_, fun _ => ⟨hbackup, hholds.of_eq ?_⟩⟩
  · rw [show content = s.received from hcontent]
    exact h.verified (by rw [hphase]; rfl)
  · cases hstart.symm.trans hs
  · exact .inr ⟨(some.inj hpath).symm, hwritten⟩
  · cases hdownloads.symm.trans hd
  · cases hverified.symm.trans hv
  · exact Directory.rename_other w.newPath_ne_backupPath.symm hbackup

/-- The backup is renamed over a binary that was not removed. -/
theorem Inv.replace (hphase : s.phase = .replacing) :
    w.Inv previous
      { s with
        phase := .finished
        disk := s.disk.rename w.backupPath w.binary
        downloadedAt := s.downloadedAt.filter (· ≠ w.binary) } := by
  obtain ⟨-, content, hfile, hgood⟩ := h.backup (by rw [hphase]; rfl)
  refine ⟨⟨content, Directory.rename_target hfile, hgood⟩, nofun, fun path hpath => ?_, nofun,
    nofun, nofun⟩
  exact h.place path (filter_eq_some_iff.1 hpath).1

theorem Inv.cleanUp (hphase : s.phase = .cleaningUp) :
    w.Inv previous { s with phase := .finished, disk := s.disk.remove w.backupPath } := by
  obtain ⟨hne, -⟩ := h.backup (by rw [hphase]; rfl)
  exact ⟨h.whole.of_eq (Directory.remove_other hne.symm), nofun, h.place, nofun, nofun, nofun⟩

/-! ### Every operation -/

theorem Inv.proceed (a : SwapAnswers) (hsafe : w.Safe s (.proceeds a)) :
    w.Inv previous (w.proceed s a) := by
  -- an operation that fails ends the update, unless it leads to the rollback
  have hbackedUp : ∀ {phase : SwapPhase}, s.phase.backedUp = true → phase.starts = false →
      phase.downloads = false → w.Inv previous (s.goTo phase) := by
    intro phase hbacked hstarts hdownloads
    have hless : ∀ {p : SwapPhase}, p.downloads = false →
        p.executable = false ∧ p.verified = false := by
      intro p hp
      cases p <;> first | exact ⟨rfl, rfl⟩ | cases hp
    refine h.goTo (fun hs => ?_) (fun hd => ?_) (fun he => ?_) (fun hv => ?_) fun _ => hbacked
    · cases hstarts.symm.trans hs
    · cases hdownloads.symm.trans hd
    · cases (hless hdownloads).1.symm.trans he
    · cases (hless hdownloads).2.symm.trans hv
  unfold Swap.proceed
  cases hphase : s.phase <;> dsimp only
  case requesting =>
    split
    · exact h.goTo (fun _ => by rw [hphase]; rfl) nofun nofun nofun nofun
    · exact h.finish
  case creating =>
    split
    · next hok =>
      refine h.create (by rw [hphase]; rfl) ?_
      have hcond := hsafe hok
      rwa [hphase] at hcond
    · exact h.finish
  case receiving =>
    split
    · exact h.goTo nofun (fun _ => by rw [hphase]; rfl) nofun nofun nofun
    · exact h.finish
    · split
      · exact h.receive hphase _
      · exact h.finish
  case verifying =>
    split
    · next hverified =>
      exact h.goTo nofun (fun _ => by rw [hphase]; rfl) nofun (fun _ => hverified) nofun
    · exact h.goTo nofun (fun _ => by rw [hphase]; rfl) nofun nofun nofun
  case discarding =>
    split
    · exact h.discard hphase
    · exact h.finish
  case settingPermissions =>
    split
    · exact h.setPermissions hphase
    · exact h.finish
  case backingUp =>
    split
    · next hok =>
      have hne : w.backupPath ≠ w.binary := by
        have hcond := hsafe hok
        rwa [hphase] at hcond
      split
      · exact h.copyTo hphase hne _ rfl nofun
      · exact h.finish
      · next file hbreaks hfile =>
        obtain ⟨content, hbinary, hgood⟩ := h.whole
        obtain rfl := some.inj (hfile.symm.trans hbinary)
        refine h.copyTo hphase hne _ ?_ fun _ =>
          ⟨content, Directory.copy_target hbinary hne.symm, hgood⟩
        split <;> rfl
    · exact h.finish
  case stopping =>
    split
    · exact h.goTo nofun (fun _ => by rw [hphase]; rfl) (fun _ => by rw [hphase]; rfl)
        (fun _ => h.verified (by rw [hphase]; rfl)) fun _ => by rw [hphase]; rfl
    · exact h.finish
  case installing =>
    split
    · next hok =>
      refine h.install hphase ?_ ?_ ?_ ?_
      · have hcond := hsafe hok
        rwa [hphase] at hcond
      all_goals split <;> rfl
    · exact hbackedUp (by rw [hphase]; rfl) rfl rfl
  case starting => split <;> exact hbackedUp (by rw [hphase]; rfl) rfl rfl
  case checkingHealth => split <;> exact hbackedUp (by rw [hphase]; rfl) rfl rfl
  case stoppingNew => split <;> exact hbackedUp (by rw [hphase]; rfl) rfl rfl
  case removing =>
    split
    · next hok =>
      have hcond := hsafe hok
      rw [hphase] at hcond
      exact hcond.elim
    · exact hbackedUp (by rw [hphase]; rfl) rfl rfl
  case replacing =>
    split
    · exact h.replace hphase
    · exact h.finish
  case cleaningUp =>
    split
    · exact h.cleanUp hphase
    · exact h.finish
  case finished => exact h

theorem Inv.step (e : SwapEvent) (hsafe : w.Safe s e) : w.Inv previous (w.step s e) := by
  cases e with
  | lands bytes => exact h.land bytes
  | proceeds a => exact h.proceed a hsafe

end Swap

open Swap

/-- The update of a binary to what an answer announces. -/
def Updater.swap {Key : Type} (lib : Libraries Key) (u : Updater Key) (update : UpdateInfo)
    (kind : ReleaseKind) (binary : String) : Swap where
  kind := kind
  binary := binary
  verified content := (u.verifyContent lib update content).toBool

theorem Updater.swap_verified {Key : Type} {lib : Libraries Key} {u : Updater Key}
    {update : UpdateInfo} {kind : ReleaseKind} {binary : String} {content : Bytes}
    (h : u.verifyContent lib update content = .ok ()) :
    (u.swap lib update kind binary).verified content = true := by
  rw [Updater.swap]
  dsimp only
  rw [h]
  rfl

/-- **A complete executable at all times.** In every run of an update, crashes and failing
operations included, in which the download is on disk when it is renamed and no rollback removes the
binary, and whose two other files have names of their own: the binary's path holds, at every moment,
an executable file with the previous content or with one that passed digest and signature. -/
theorem swap_whole {Key : Type} (lib : Libraries Key) (u : Updater Key) (update : UpdateInfo)
    (kind : ReleaseKind) (binary : String) {previous : Bytes} {disk : Directory}
    (hbinary : disk binary = some ⟨previous, true⟩) (events : List SwapEvent)
    (h : Each (u.swap lib update kind binary).step (u.swap lib update kind binary).Safe
      { disk := disk } events) :
    Always (u.swap lib update kind binary).step ((u.swap lib update kind binary).Whole previous)
      { disk := disk } events := by
  have hstart : (u.swap lib update kind binary).Inv previous { disk := disk } :=
    ⟨⟨previous, hbinary, .inl rfl⟩, fun _ => ⟨rfl, rfl⟩, nofun, nofun, nofun, nofun⟩
  have hstep : ∀ s e, (u.swap lib update kind binary).Inv previous s →
      (u.swap lib update kind binary).Safe s e →
        (u.swap lib update kind binary).Inv previous ((u.swap lib update kind binary).step s e) :=
    fun s e hs hsafe => hs.step e hsafe
  exact (always_of_each hstep hstart h).mono fun s hs => hs.whole

/-! ## Runs -/

/-- The directory of an installed agent. -/
def installed : Directory := fun name => if name = "edgepacer" then some ⟨[9], true⟩ else none

/-- The served bytes are downloaded and reach the disk; the update goes on to its renaming. -/
def downloadRun : List SwapEvent :=
  [.proceeds {}, .proceeds {}, .proceeds { chunk := .data [1, 2, 3] }, .lands 3] ++
    List.replicate 5 (.proceeds {})

/-- The new agent is installed, starts and is healthy. -/
def updateRun : List SwapEvent := downloadRun ++ List.replicate 4 (.proceeds {})

/-- The new file cannot be renamed; the rollback removes the binary, and the manager crashes. -/
def rollbackRun : List SwapEvent := downloadRun ++ [.proceeds { succeeds := false }, .proceeds {}]

section

variable {w : Swap} (hkind : w.kind = .agent) (hbinary : w.binary = "edgepacer")
  (hverified : w.verified [1, 2, 3] = true)

include hkind hbinary hverified

theorem downloadRun_safe :
    Each w.step w.Safe { disk := installed } downloadRun ∧
      (downloadRun.foldl w.step { disk := installed }).phase = .installing ∧
      (downloadRun.foldl w.step { disk := installed }).unwritten = [] := by
  have hnew : w.newPath ≠ w.binary := by
    rw [newPath, hbinary]
    decide +kernel
  have hbackup : w.backupPath ≠ w.binary := by
    rw [backupPath, hbinary]
    decide +kernel
  have hfile : installed w.binary = some ⟨[9], true⟩ := by
    rw [hbinary]
    rfl
  simp [downloadRun, Each, step, proceed, Safe, State.goTo, State.land,
    Directory.create, Directory.append, Directory.makeExecutable,
    Directory.put_other _ (Ne.symm hnew), hverified, hnew, hbackup, hfile, hkind]

theorem updateRun_safe : Each w.step w.Safe { disk := installed } updateRun := by
  obtain ⟨hsafe, hphase, hunwritten⟩ := downloadRun_safe hkind hbinary hverified
  refine each_append hsafe ?_
  simp [Each, step, proceed, Safe, State.goTo, hphase, hunwritten, hkind]

theorem rollbackRun_disk :
    (rollbackRun.foldl w.step { disk := installed }).disk w.binary = none := by
  obtain ⟨-, hphase, -⟩ := downloadRun_safe hkind hbinary hverified
  rw [rollbackRun]
  simp [step, proceed, State.goTo, hphase, Directory.remove]

end

/-- The update of the agent to the release that the answer announces. -/
def agentSwap : Swap :=
  (updaterOn "linux-amd64").swap agentLibraries (answer "1.2.0" amd64Signature) .agent "edgepacer"

theorem agentSwap_verified : agentSwap.verified [1, 2, 3] = true :=
  Updater.swap_verified agentRelease_announced.verifyContent

theorem updateRun_whole :
    Always agentSwap.step (agentSwap.Whole [9]) { disk := installed } updateRun :=
  swap_whole agentLibraries (updaterOn "linux-amd64") (answer "1.2.0" amd64Signature) .agent
    "edgepacer" rfl updateRun (updateRun_safe rfl rfl agentSwap_verified)

/-- The rollback removes the binary before it renames the backup: a crash in between leaves none. -/
theorem rollback_leaves_no_binary :
    ¬ Always agentSwap.step (agentSwap.Whole [9]) { disk := installed } rollbackRun := by
  intro h
  obtain ⟨content, hfile, -⟩ := h.last
  cases hfile.symm.trans (rollbackRun_disk rfl rfl agentSwap_verified)

end EdgePacer.Manager
