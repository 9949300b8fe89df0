import Peerpaste.Storage.Index
import Peerpaste.Transfers.Paths

/-!
This module contains what is left on disk when the node dies in the middle of a call to the store,
and what the next process makes of it.
-/

namespace Peerpaste

open FileSystem

/--
One change of a file or of the database. A transaction changes the database at once.
-/
inductive Effect where
  | put (path : AbsPath) (bytes : List UInt8)
  | insertRow (fileName : String) (row : FileTransfer)
  | setBytesWritten (fileName : String) (bytesWritten : Nat)
  | deleteRow (fileName : String)
  deriving DecidableEq, Repr

namespace StaticStorage

def apply (s : StaticStorage) : Effect → StaticStorage
  | .put path bytes => s.withFs (s.fs.put path bytes)
  | .insertRow fileName row => { s with fileTransfer := s.fileTransfer.insertOrIgnore fileName row }
  | .setBytesWritten fileName bytesWritten => s.setBytesWritten fileName bytesWritten
  | .deleteRow fileName => { s with fileTransfer := s.fileTransfer.erase fileName }

def createEffects (s : StaticStorage) (fileInfo : FileInfo) : List Effect :=
  if s.existsInternal fileInfo.fileName || s.isBlockedInternal fileInfo.fileName then
    []
  else
    match s.openOutput fileInfo.fileName with
    | none => []
    | some opened =>
      let info := s.resumeInfo fileInfo
      let row := Effect.insertRow info.fileName ⟨info.sha256sum, info.fileSize, info.offset⟩
      if fileInfo.fileName ∈ s.fileTransfer then [row] else [.put opened.2.path [], row]

/--
The effects of `write`: the bytes of the chunk are flushed before its offset is recorded.
-/
def writeEffects (s : StaticStorage) (w : OfstreamWrapper) (chunk : FileChunk) : List Effect :=
  let o := w.ofstream.seekp chunk.offset
  let row := Effect.setBytesWritten w.fileInfo.fileName chunk.offset
  if o.fail then
    [row]
  else
    [.put o.path (overwrite (s.fs.content o.path) o.pos (chunk.data.take chunk.size)), row]

/--
The effects of `finalize_file`. Everything else that it does is in memory.
-/
def finalizeEffects (sha256 : List UInt8 → String) (s : StaticStorage) (fileInfo : FileInfo) :
    List Effect :=
  if (s.finalizeFile sha256 fileInfo).2 then [.deleteRow fileInfo.fileName] else []

structure SameDisk (s s' : StaticStorage) : Prop where
  id : s'.id = s.id
  fs : s'.fs = s.fs
  fileTransfer : s'.fileTransfer = s.fileTransfer

variable {s : StaticStorage} {name : String}

theorem createEffects_of_openOutput {fi : FileInfo} {opened : FileSystem × Ofstream}
    (hexists : s.existsInternal fi.fileName = false)
    (hblocked : s.isBlockedInternal fi.fileName = false)
    (hopen : s.openOutput fi.fileName = some opened) :
    s.createEffects fi =
      (if fi.fileName ∈ s.fileTransfer then [] else [.put opened.2.path []]) ++
        [.insertRow fi.fileName ⟨fi.sha256sum, fi.fileSize, (s.resumeInfo fi).offset⟩] := by
  simp only [createEffects, hexists, hblocked, Bool.or_self, Bool.false_eq_true, ↓reduceIte, hopen,
    resumeInfo_fileName, resumeInfo_sha256sum, resumeInfo_fileSize]
  split
  . rfl
  . rfl

theorem createEffects_of_refused {fi : FileInfo}
    (hrefused : s.existsInternal fi.fileName = true ∨ s.isBlockedInternal fi.fileName = true
      ∨ s.openOutput fi.fileName = none) : s.createEffects fi = [] := by
  unfold createEffects
  rcases hrefused with h | h | h
  . simp [h]
  . simp [h]
  . simp [h]

theorem createEffects_sameDisk (s : StaticStorage) (fi : FileInfo) :
    SameDisk (s.createFile fi).1 ((s.createEffects fi).foldl apply s) := by
  rcases s.createFile_cases fi with ⟨hrefused, hsame, _⟩ | ⟨hexists, hblocked, opened, hopen⟩
  . rw [createEffects_of_refused hrefused, hsame]
    exact ⟨rfl, rfl, rfl⟩
  . rw [createEffects_of_openOutput hexists hblocked hopen,
      createFile_of_openOutput hexists hblocked hopen]
    unfold openOutput at hopen
    split at hopen
    . next hrow =>
      rw [if_pos hrow]
      have hfs := (Ofstream.openInOut_eq_some.mp hopen).2.2.1
      simp only [register, hfs]
      exact ⟨rfl, rfl, by simp [apply]⟩
    . next hrow =>
      rw [if_neg hrow]
      have hfs := (Ofstream.openTrunc_eq_some.mp hopen).2.1
      simp only [register, hfs]
      exact ⟨rfl, rfl, by simp [apply, withFs]⟩

theorem writeEffects_sameDisk (s : StaticStorage) (w : OfstreamWrapper) (chunk : FileChunk) :
    SameDisk (w.write s chunk).1 ((s.writeEffects w chunk).foldl apply s) := by
  unfold writeEffects OfstreamWrapper.write Ofstream.write
  dsimp only
  split
  . exact ⟨rfl, rfl, rfl⟩
  . exact ⟨rfl, rfl, rfl⟩

theorem finalizeEffects_sameDisk (sha256 : List UInt8 → String) (s : StaticStorage)
    (fi : FileInfo) :
    SameDisk (s.finalizeFile sha256 fi).1 ((s.finalizeEffects sha256 fi).foldl apply s) := by
  unfold finalizeEffects
  cases hresult : (s.finalizeFile sha256 fi).2 with
  | false =>
    rw [(s.finalizeFile_checked sha256 fi).unchanged hresult]
    exact ⟨rfl, rfl, rfl⟩
  | true =>
    rcases finalizeFile_cases sha256 s fi with hsame | ⟨sha256sum, hcomplete⟩
    . have hfiles := ((s.finalizeFile_checked sha256 fi).checked hresult).2
      rw [hsame] at hfiles
      simp at hfiles
    . rw [hcomplete]
      exact ⟨rfl, rfl, rfl⟩

end StaticStorage

namespace OpenStorage

def effects (sha256 : List UInt8 → String) (t : OpenStorage) : Event → List Effect
  | .createFile fileInfo => t.storage.createEffects fileInfo
  | .write i chunk => (t.streams i).elim [] (t.storage.writeEffects · chunk)
  | .destroy _ => []
  | .finalizeFile fileInfo => t.storage.finalizeEffects sha256 fileInfo

/--
A call that returns, or one in which the node dies after some of the effects and is started again.
-/
inductive CrashEvent where
  | call (e : Event)
  | crash (e : Event) (k : Nat)
  deriving DecidableEq, Repr

def crashStep (sha256 : List UInt8 → String) (t : OpenStorage) : CrashEvent → Option OpenStorage
  | .call e => t.step sha256 e
  | .crash e k =>
    some (ofDisk sha256 (((t.effects sha256 e).take k).foldl StaticStorage.apply t.storage))

inductive Reception where
  | unfinished
  | passed
  deriving DecidableEq, Repr

abbrev Receptions := AbsPath → Option Reception

def opens (t : OpenStorage) (fileInfo : FileInfo) : Option AbsPath :=
  if t.storage.existsInternal fileInfo.fileName || t.storage.isBlockedInternal
    fileInfo.fileName then
    none
  else
    (t.storage.openOutput fileInfo.fileName).map (·.2.path)

def begin (t : OpenStorage) (η : Receptions) (fileInfo : FileInfo) : Receptions :=
  (t.opens fileInfo).elim η fun p => Function.update η p (some .unfinished)

def pass (sha256 : List UInt8 → String) (t : OpenStorage) (η : Receptions) (fileInfo : FileInfo) :
    Receptions :=
  if (t.storage.finalizeFile sha256 fileInfo).2 then
    (t.storage.fileOf fileInfo.fileName).elim η fun p => Function.update η p (some .passed)
  else
    η

/--
A file is received from its first effect on, and has passed the check once `finalize_file` has made
it.
-/
def recordReceptions (sha256 : List UInt8 → String) (t : OpenStorage) (η : Receptions) :
    CrashEvent → Receptions
  | .call (.createFile fileInfo) => t.begin η fileInfo
  | .crash (.createFile fileInfo) k => if k = 0 then η else t.begin η fileInfo
  | .call (.finalizeFile fileInfo) => t.pass sha256 η fileInfo
  | .crash (.finalizeFile fileInfo) _ => t.pass sha256 η fileInfo
  | _ => η

def stepWithReceptions (sha256 : List UInt8 → String) :
    OpenStorage × Receptions → CrashEvent → Option (OpenStorage × Receptions) :=
  Run.observe (crashStep sha256) (recordReceptions sha256)

def started (sha256 : List UInt8 → String) (disk : StaticStorage) : OpenStorage × Receptions :=
  (ofDisk sha256 disk, fun _ => none)

def Resumable (t : OpenStorage) (name : String) : Prop :=
  name ∈ t.storage.fileTransfer
    ∧ ∀ fileInfo : FileInfo, fileInfo.fileName = name → (t.storage.createFile fileInfo).2.2.isSome

structure CrashSafe (t : OpenStorage × Receptions) : Prop where
  unfinished : ∀ file ∈ t.1.storage.files,
    t.2 (t.1.storage.dir ++ [file.fileName]) ≠ some .unfinished
  passed : ∀ p, t.2 p = some .passed → ∃ name, t.1.storage.fileOf name = some p
    ∧ (t.1.storage.existsInternal name = true ∨ t.1.Resumable name)

def RowBeforeCrash (t : OpenStorage × Receptions) : CrashEvent → Prop
  | .call (.createFile fileInfo) => t.1.storage.Plain fileInfo.fileName
  | .crash (.createFile fileInfo) k =>
    t.1.storage.Plain fileInfo.fileName ∧ (k = 1 → fileInfo.fileName ∉ t.1.storage.fileTransfer →
      t.1.opens fileInfo = none)
  | _ => True

variable {sha256 : List UInt8 → String} {s s' : StaticStorage} {t t' : OpenStorage} {η : Receptions}
  {name : String}

structure Recorded (s : StaticStorage) (η : Receptions) : Prop where
  known : ∀ p r, η p = some r → ∃ name, p = s.dir ++ [name] ∧ s.fileOf name = some p
    ∧ name ∉ StaticStorage.databaseFiles ∧ p ∈ s.fs.files
  unfinished : ∀ name, η (s.dir ++ [name]) = some .unfinished → name ∈ s.fileTransfer

structure Recoverable (t : OpenStorage × Receptions) : Prop extends Recorded t.1.storage t.2 where
  passed : ∀ name, t.2 (t.1.storage.dir ++ [name]) = some .passed →
    t.1.storage.existsInternal name = true
      ∨ name ∈ t.1.storage.fileTransfer ∧ t.1.storage.isBlockedInternal name = false
  indexed : ∀ name, t.1.storage.existsInternal name = true → name ∉ t.1.storage.fileTransfer
  blocked : ∀ name, t.1.storage.isBlockedInternal name = true →
    t.1.storage.fileOf name = some (t.1.storage.dir ++ [name])
      ∧ t.2 (t.1.storage.dir ++ [name]) = some .unfinished

theorem Recorded.mono (h : Recorded s η) (hid : s'.id = s.id) (hdirs : s'.fs.dirs = s.fs.dirs)
    (hfiles : ∀ p ∈ s.fs.files, p ∈ s'.fs.files)
    (hrows : ∀ name ∈ s.fileTransfer, name ∈ s'.fileTransfer) :
    Recorded s' η := by
  -- more files and more rows do no harm
  have hdir : s'.dir = s.dir := by rw [StaticStorage.dir, StaticStorage.dir, hid]
  have hfileOf := StaticStorage.fileOf_congr hid hdirs
  constructor
  . intro p r hp
    rcases h.known p r hp with ⟨name, hname, hfile, hdatabase, hmem⟩
    rw [hdir, hfileOf]
    exact ⟨name, hname, hfile, hdatabase, hfiles p hmem⟩
  . intro name hname
    rw [hdir] at hname
    exact hrows name (h.unfinished name hname)

theorem Recorded.sameDisk (h : Recorded s η) (hdisk : StaticStorage.SameDisk s s') :
    Recorded s' η := by
  apply h.mono hdisk.id
  . rw [hdisk.fs]
  . rw [hdisk.fs]
    exact fun _ h => h
  . rw [hdisk.fileTransfer]
    exact fun _ h => h

theorem Recorded.apply (h : Recorded s η) {effect : Effect}
    (heffect : ∀ name, effect ≠ .deleteRow name) :
    Recorded (s.apply effect) η := by
  cases effect with
  | put path bytes =>
    refine h.mono rfl rfl ?_ (fun _ h => h)
    intro p hp
    exact mem_put_files.mpr (Or.inr hp)
  | insertRow name row =>
    refine h.mono rfl rfl (fun _ h => h) ?_
    intro name' hname'
    exact FileTransferTable.mem_insertOrIgnore.mpr (Or.inr hname')
  | setBytesWritten name n =>
    refine h.mono rfl rfl (fun _ h => h) ?_
    intro name' hname'
    exact FileTransferTable.mem_setBytesWritten.mpr hname'
  | deleteRow name => exact absurd rfl (heffect name)

theorem Recorded.foldl (h : Recorded s η) {effects : List Effect}
    (heffects : ∀ effect ∈ effects, ∀ name, effect ≠ .deleteRow name) :
    Recorded (effects.foldl StaticStorage.apply s) η := by
  induction effects generalizing s with
  | nil => exact h
  | cons effect effects ih =>
    apply ih (h.apply (heffects effect List.mem_cons_self))
    intro effect' heffect'
    exact heffects effect' (List.mem_cons_of_mem _ heffect')

theorem Recorded.ofDisk (h : Recorded s η) (sha256 : List UInt8 → String) :
    Recoverable (ofDisk sha256 s, η) := by
  rcases StaticStorage.restart_eq sha256 s with ⟨files, hrestart⟩
  have hexists := StaticStorage.restart_existsInternal_iff sha256 s
  have hindexed := StaticStorage.restart_indexed sha256 s
  change Recoverable ({ storage := s.restart sha256, streams := fun _ => none, next := 0 }, η)
  rw [hrestart] at hexists hindexed ⊢
  have hfree (name : String) :
      StaticStorage.isBlockedInternal { s with files := files, blockedFiles := [] } name
        = false := rfl
  constructor
  case toRecorded => exact h.mono rfl rfl (fun _ h => h) (fun _ h => h)
  case passed =>
    intro name hpassed
    by_cases hrow : name ∈ s.fileTransfer
    . exact Or.inr ⟨hrow, hfree name⟩
    . left
      rcases h.known _ _ hpassed with ⟨name', hname', hfile, hdatabase, hmem⟩
      have hname := dir_append_inj hname'
      subst hname
      rw [hexists]
      exact StaticStorage.mem_synced hfile hmem hdatabase hrow
  case indexed => exact hindexed
  case blocked =>
    intro name hname
    rw [hfree] at hname
    cases hname

theorem Recoverable.crashSafe {t : OpenStorage × Receptions} (h : Recoverable t) : CrashSafe t := by
  constructor
  . intro file hfile hunfinished
    apply h.indexed file.fileName
    . rw [StaticStorage.existsInternal_iff]
      exact ⟨file, hfile, rfl⟩
    . exact h.unfinished file.fileName hunfinished
  . intro p hp
    rcases h.known p _ hp with ⟨name, rfl, hfile, _, hmem⟩
    refine ⟨name, hfile, ?_⟩
    cases hexists : t.1.storage.existsInternal name with
    | true => exact Or.inl rfl
    | false =>
      right
      rcases h.passed name hp with hexists' | ⟨hrow, hblocked⟩
      . rw [hexists] at hexists'
        cases hexists'
      . refine ⟨hrow, ?_⟩
        intro fi hfi
        subst hfi
        have hopen : t.1.storage.Openable fi.fileName := ⟨_, hfile, fun _ => hmem⟩
        rw [StaticStorage.openable_iff] at hopen
        rcases hopen with ⟨opened, hopen⟩
        rw [StaticStorage.createFile_of_openOutput hexists hblocked hopen]
        rfl

theorem opens_of_openOutput {fi : FileInfo} {opened : FileSystem × Ofstream}
    (hexists : t.storage.existsInternal fi.fileName = false)
    (hblocked : t.storage.isBlockedInternal fi.fileName = false)
    (hopen : t.storage.openOutput fi.fileName = some opened) : t.opens fi = some opened.2.path := by
  simp [opens, hexists, hblocked, hopen]

theorem Recoverable.createFile (h : Recoverable (t, η)) {fi : FileInfo}
    (hplain : t.storage.Plain fi.fileName) : Recoverable (t.createFile fi, t.begin η fi) := by
  rcases t.createFile_cases fi with ⟨hrefused, hsame⟩ | ⟨hexists, hblocked, opened, hopen, hcreate⟩
  . have hopens : t.opens fi = none := by
      unfold opens
      rcases hrefused with h | h | h
      . simp [h]
      . simp [h]
      . simp [h]
    rw [hsame, begin, hopens]
    exact h
  . have hfile := StaticStorage.openOutput_path hopen
    have hname := hplain hexists hblocked (StaticStorage.openable_iff.mpr ⟨opened, hopen⟩)
    have hpath : opened.2.path = t.storage.dir ++ [fi.fileName] := by
      rw [hfile, Option.some.injEq] at hname
      exact hname.1
    have hfiles (p : AbsPath) (hp : p = opened.2.path ∨ p ∈ t.storage.fs.files) :
      p ∈ opened.1.files :=
      StaticStorage.mem_openOutput_files hopen hp
    have hne (name : String) (hname : name ≠ fi.fileName) :
        t.storage.dir ++ [name] ≠ t.storage.dir ++ [fi.fileName] :=
          fun heq => hname (dir_append_inj heq)
    simp only [hcreate, begin, opens_of_openOutput hexists hblocked hopen, Option.elim_some, hpath]
    constructor
    case toRecorded =>
      constructor
      . intro p r hp
        change ∃ name, p = t.storage.dir ++ [name] ∧ StaticStorage.fileOf _ name = some p
          ∧ name ∉ StaticStorage.databaseFiles ∧ p ∈ opened.1.files
        rw [StaticStorage.register_fileOf]
        dsimp only at hp
        rw [Function.update_apply] at hp
        split at hp
        . next heq =>
          exact ⟨fi.fileName, heq, heq ▸ hname.1, hname.2, hfiles p (Or.inl (heq.trans hpath.symm))⟩
        . rcases h.known p r hp with ⟨name, hp, hfile, hdatabase, hmem⟩
          exact ⟨name, hp, hfile, hdatabase, hfiles p (Or.inr hmem)⟩
      . intro name hunfinished
        change name ∈ t.storage.fileTransfer.insertOrIgnore (t.storage.resumeInfo fi).fileName _
        rw [FileTransferTable.mem_insertOrIgnore, StaticStorage.resumeInfo_fileName]
        by_cases heq : name = fi.fileName
        . exact Or.inl heq
        . right
          apply h.unfinished
          exact (Function.update_of_ne (hne name heq) _ _).symm.trans hunfinished
    case passed =>
      intro name hpassed
      have heq : name ≠ fi.fileName := by
        intro heq
        rw [heq] at hpassed
        have hself := Function.update_self (t.storage.dir ++ [fi.fileName])
          (some Reception.unfinished) η
        cases hself.symm.trans hpassed
      rcases h.passed name ((Function.update_of_ne (hne name heq) _ _).symm.trans hpassed) with
        hold | ⟨hrow, hfree⟩
      . exact Or.inl hold
      . right
        constructor
        . exact FileTransferTable.mem_insertOrIgnore.mpr (Or.inr hrow)
        . rw [StaticStorage.register_isBlockedInternal, StaticStorage.resumeInfo_fileName, hfree]
          simpa using heq.symm
    case indexed =>
      intro name hname'
      change name ∉ t.storage.fileTransfer.insertOrIgnore (t.storage.resumeInfo fi).fileName _
      rw [FileTransferTable.mem_insertOrIgnore, StaticStorage.resumeInfo_fileName, not_or]
      refine ⟨?_, h.indexed name hname'⟩
      rintro rfl
      rw [show t.storage.existsInternal fi.fileName = true from hname'] at hexists
      cases hexists
    case blocked =>
      intro name hname'
      rw [StaticStorage.register_fileOf]
      by_cases heq : name = fi.fileName
      . rw [heq]
        exact ⟨hname.1, Function.update_self _ _ _⟩
      . have hold : t.storage.isBlockedInternal name = true := by
          rw [StaticStorage.register_isBlockedInternal, StaticStorage.resumeInfo_fileName] at hname'
          simpa [Ne.symm heq] using hname'
        refine ⟨(h.blocked name hold).1, ?_⟩
        exact (Function.update_of_ne (hne name heq) _ _).trans (h.blocked name hold).2

theorem Recoverable.write (h : Recoverable (t, η)) {i : Nat} {chunk : FileChunk}
    (hstep : t.write i chunk = some t') : Recoverable (t', η) := by
  rcases write_eq_some hstep with ⟨w, _, rfl⟩
  have hrows (name : String) : name ∈ (w.write t.storage chunk).1.fileTransfer
    ↔ name ∈ t.storage.fileTransfer :=
    FileTransferTable.mem_setBytesWritten
  constructor
  case toRecorded =>
    exact h.toRecorded.mono rfl rfl (fun p => w.mem_write_files t.storage chunk)
      (fun name hname => (hrows name).mpr hname)
  case passed =>
    intro name hpassed
    rw [hrows]
    exact h.passed name hpassed
  case indexed =>
    intro name hname
    rw [hrows]
    exact h.indexed name hname
  case blocked =>
    intro name hname
    rw [OfstreamWrapper.write_fileOf]
    exact h.blocked name hname

theorem Recoverable.destroy (h : Recoverable (t, η)) {i : Nat} (hstep : t.destroy i = some t') :
    Recoverable (t', η) := by
  rcases destroy_eq_some hstep with ⟨w, _, rfl⟩
  constructor
  case toRecorded => exact h.toRecorded.mono rfl rfl (fun _ h => h) (fun _ h => h)
  case passed =>
    intro name hpassed
    rcases h.passed name hpassed with hexists | ⟨hrow, hblocked⟩
    . exact Or.inl hexists
    . right
      refine ⟨hrow, ?_⟩
      rw [Bool.eq_false_iff] at hblocked ⊢
      intro hname
      exact hblocked (StaticStorage.isBlockedInternal_of_destroy hname)
  case indexed => exact h.indexed
  case blocked =>
    intro name hname
    rw [OfstreamWrapper.destroy_fileOf]
    exact h.blocked name (StaticStorage.isBlockedInternal_of_destroy hname)

theorem Recoverable.pass_eq (h : Recoverable (t, η)) (sha256 : List UInt8 → String)
    (fi : FileInfo) :
    ((t.storage.finalizeFile sha256 fi).1 = t.storage ∧ t.pass sha256 η fi = η)
      ∨
    ∃ sha256sum, t.storage.existsInternal fi.fileName = false
      ∧ η (t.storage.dir ++ [fi.fileName]) = some .unfinished
      ∧ (t.storage.finalizeFile sha256 fi).1 = t.storage.complete fi.fileName sha256sum
      ∧ t.pass sha256 η fi = Function.update η (t.storage.dir ++ [fi.fileName]) (some .passed) := by
  cases hresult : (t.storage.finalizeFile sha256 fi).2 with
  | false =>
    left
    refine ⟨(t.storage.finalizeFile_checked sha256 fi).unchanged hresult, ?_⟩
    simp [pass, hresult]
  | true =>
    right
    rcases StaticStorage.finalizeFile_of_true hresult with ⟨hexists, hblocked, hcomplete⟩
    have hname := h.blocked fi.fileName hblocked
    have hfile : t.storage.fileOf fi.fileName = some (t.storage.dir ++ [fi.fileName]) := hname.1
    refine ⟨fi.sha256sum, hexists, hname.2, by rw [hcomplete], ?_⟩
    simp only [pass, hresult, ↓reduceIte, hfile, Option.elim_some]

theorem Recorded.pass (h : Recorded s η) (hname : η (s.dir ++ [name]) = some .unfinished) :
    Recorded s (Function.update η (s.dir ++ [name]) (some .passed)) := by
  -- with a file that passed there is less to be told than before
  constructor
  . intro p r hp
    rw [Function.update_apply] at hp
    split at hp
    . next heq =>
      rw [heq]
      exact h.known _ _ hname
    . exact h.known p r hp
  . intro name' hunfinished
    rw [Function.update_apply] at hunfinished
    split at hunfinished
    . cases hunfinished
    . exact h.unfinished name' hunfinished

theorem Recoverable.finalizeFile (h : Recoverable (t, η)) (sha256 : List UInt8 → String)
    (fi : FileInfo) :
    Recoverable
      ({ t with storage := (t.storage.finalizeFile sha256 fi).1 }, t.pass sha256 η fi) := by
  rcases h.pass_eq sha256 fi with
    ⟨hsame, hpass⟩ | ⟨sha256sum, hexists, hunfinished, hcomplete, hpass⟩
  . rw [hsame, hpass]
    exact h
  . rw [hcomplete, hpass]
    have hrecorded := h.toRecorded.pass hunfinished
    have hne (name : String) (hname : name ≠ fi.fileName) :
        t.storage.dir ++ [name] ≠ t.storage.dir ++ [fi.fileName] :=
          fun heq => hname (dir_append_inj heq)
    have hexists' := t.storage.complete_existsInternal_iff fi.fileName sha256sum
    constructor
    case toRecorded =>
      constructor
      . exact hrecorded.known
      . intro name hname
        change name ∈ t.storage.fileTransfer.erase fi.fileName
        rw [AList.mem_erase]
        refine ⟨?_, hrecorded.unfinished name hname⟩
        rintro rfl
        have hself := (Function.update_self (t.storage.dir ++ [fi.fileName]) (some Reception.passed)
          η).symm.trans hname
        cases hself
    case passed =>
      intro name hpassed
      change (t.storage.complete fi.fileName sha256sum).existsInternal name = true ∨ name ∈
        t.storage.fileTransfer.erase fi.fileName
          ∧ (t.storage.complete fi.fileName sha256sum).isBlockedInternal name = false
      rw [hexists', Bool.eq_false_iff, ne_eq, StaticStorage.complete_isBlockedInternal_iff,
        AList.mem_erase]
      by_cases heq : name = fi.fileName
      . exact Or.inl (Or.inr heq)
      . rcases h.passed name ((Function.update_of_ne (hne name heq) _ _).symm.trans hpassed) with
          hold | ⟨hrow, hfree⟩
        . exact Or.inl (Or.inl hold)
        . right
          refine ⟨⟨heq, hrow⟩, ?_⟩
          intro hblocked
          rw [hfree] at hblocked
          cases hblocked.1
    case indexed =>
      intro name hname
      change name ∉ t.storage.fileTransfer.erase fi.fileName
      rw [AList.mem_erase]
      rintro ⟨heq, hrow⟩
      rcases (hexists' name).mp hname with hold | rfl
      . exact h.indexed name hold hrow
      . exact heq rfl
    case blocked =>
      intro name hname
      have hblocked := StaticStorage.complete_isBlockedInternal_iff.mp hname
      rw [StaticStorage.complete_fileOf]
      refine ⟨(h.blocked name hblocked.1).1, ?_⟩
      exact (Function.update_of_ne (hne name hblocked.2) _ _).trans (h.blocked name hblocked.1).2

theorem take_writeEffects (s : StaticStorage) (w : OfstreamWrapper) (chunk : FileChunk) (k : Nat) :
    ∀ effect ∈ (s.writeEffects w chunk).take k, ∀ name, effect ≠ .deleteRow name := by
  intro effect heffect name heq
  have hmem := List.mem_of_mem_take heffect
  subst heq
  unfold StaticStorage.writeEffects at hmem
  dsimp only at hmem
  split at hmem
  . simp at hmem
  . simp at hmem

theorem Recoverable.crash_createFile (h : Recoverable (t, η)) {fi : FileInfo} {k : Nat}
    (hcond : RowBeforeCrash (t, η) (.crash (.createFile fi) k)) :
    Recorded (((t.storage.createEffects fi).take k).foldl StaticStorage.apply t.storage)
      (if k = 0 then η else t.begin η fi) := by
  -- if the row of a file is inserted before the node dies, the disk tells of it
  by_cases hk : k = 0
  . rw [if_pos hk, hk]
    exact h.toRecorded
  . rw [if_neg hk]
    have hdone : Recorded (t.storage.createFile fi).1 (t.begin η fi) := by
      have hstorage : (t.createFile fi).storage = (t.storage.createFile fi).1 := by
        unfold OpenStorage.createFile
        dsimp only
        split
        . rfl
        . rfl
      rw [← hstorage]
      exact (h.createFile hcond.1).toRecorded
    have hall : (t.storage.createEffects fi).take k = t.storage.createEffects fi := by
      rcases t.storage.createFile_cases fi with
        ⟨hrefused, _, _⟩ | ⟨hexists, hblocked, opened, hopen⟩
      . rw [StaticStorage.createEffects_of_refused hrefused, List.take_nil]
      . apply List.take_of_length_le
        rw [StaticStorage.createEffects_of_openOutput hexists hblocked hopen]
        split
        . simp only [List.nil_append, List.length_singleton]
          omega
        . next hrow =>
          have hk' : k ≠ 1 := by
            intro hk'
            have hnone := hcond.2 hk' hrow
            rw [opens_of_openOutput hexists hblocked hopen] at hnone
            cases hnone
          simp only [List.singleton_append, List.length_cons, List.length_nil]
          omega
    rw [hall]
    exact hdone.sameDisk (t.storage.createEffects_sameDisk fi)

theorem Recoverable.crash_finalizeFile (h : Recoverable (t, η)) (sha256 : List UInt8 → String)
    (fi : FileInfo) (k : Nat) :
    Recorded (((t.storage.finalizeEffects sha256 fi).take k).foldl StaticStorage.apply t.storage)
      (t.pass sha256 η fi) := by
  have hdone : Recorded (t.storage.finalizeFile sha256 fi).1 (t.pass sha256 η fi) :=
    (h.finalizeFile sha256 fi).toRecorded
  cases k with
  | zero =>
    rcases h.pass_eq sha256 fi with ⟨_, hpass⟩ | ⟨_, _, hunfinished, _, hpass⟩
    . rw [hpass]
      exact h.toRecorded
    . rw [hpass]
      exact h.toRecorded.pass hunfinished
  | succ k =>
    have hall : (t.storage.finalizeEffects sha256 fi).take (k + 1)
      = t.storage.finalizeEffects sha256 fi := by
      apply List.take_of_length_le
      unfold StaticStorage.finalizeEffects
      split
      . simp
      . simp
    rw [hall]
    exact hdone.sameDisk (t.storage.finalizeEffects_sameDisk sha256 fi)

theorem Recoverable.step {t t' : OpenStorage × Receptions} {e : CrashEvent} (h : Recoverable t)
    (hcond : RowBeforeCrash t e) (hstep : stepWithReceptions sha256 t e = some t') :
    Recoverable t' := by
  rw [stepWithReceptions, Run.observe_eq_some] at hstep
  rcases t' with ⟨u, η'⟩
  rcases t with ⟨t, η⟩
  rcases hstep with ⟨hstep, hrecord⟩
  dsimp only at hstep hrecord
  rw [hrecord]
  cases e with
  | call e =>
    cases e with
    | createFile fi =>
      simp only [crashStep, OpenStorage.step, Option.some.injEq] at hstep
      rw [← hstep]
      exact h.createFile hcond
    | write i chunk => exact h.write hstep
    | destroy i => exact h.destroy hstep
    | finalizeFile fi =>
      simp only [crashStep, OpenStorage.step, Option.some.injEq] at hstep
      rw [← hstep]
      exact h.finalizeFile sha256 fi
  | crash e k =>
    simp only [crashStep, Option.some.injEq] at hstep
    rw [← hstep]
    apply Recorded.ofDisk
    cases e with
    | createFile fi => exact h.crash_createFile hcond
    | write i chunk =>
      simp only [effects]
      cases t.streams i with
      | none =>
        simp only [Option.elim_none, List.take_nil, List.foldl_nil]
        exact h.toRecorded
      | some w => exact h.toRecorded.foldl (take_writeEffects t.storage w chunk k)
    | destroy i =>
      simp only [effects, List.take_nil, List.foldl_nil]
      exact h.toRecorded
    | finalizeFile fi => exact h.crash_finalizeFile sha256 fi k

theorem started_recoverable (sha256 : List UInt8 → String) (disk : StaticStorage) :
    Recoverable (started sha256 disk) := by
  apply Recorded.ofDisk
  constructor
  . intro p r hp
    cases hp
  . intro name hname
    cases hname

/--
Wherever a run stops that creates files under plain names and does not die between the creation of a
file and the insertion of its row, the index holds no unfinished file and no file that passed the
check is lost.
-/
theorem crashSafe_exec (sha256 : List UInt8 → String) (disk : StaticStorage)
    (events : List CrashEvent) (t : OpenStorage × Receptions)
    (hcond : Run.Along (stepWithReceptions sha256) RowBeforeCrash (started sha256 disk) events)
    (hexec : Run.exec (stepWithReceptions sha256) (started sha256 disk) events = some t) :
    CrashSafe t := by
  apply Recoverable.crashSafe
  exact Run.exec_of_along (fun _ _ _ h hcond hstep => h.step hcond hstep)
    (started_recoverable sha256 disk) hcond hexec

theorem crashSafe_exec_row :
    let disk := StaticStorage.init "n" (by decide)
    let file : FileInfo := { fileName := "a.txt", sha256sum := "d", fileSize := 1 }
    ∃ t, Run.exec (stepWithReceptions fun _ => "") (started (fun _ => "") disk)
        [.crash (.createFile file) 2] = some t
      ∧ CrashSafe t := by
  intro disk file
  have hplain : (started (fun _ => "") disk).1.storage.Plain file.fileName := by
    intro _ _ _
    decide
  refine ⟨_, rfl, crashSafe_exec (fun _ => "") disk [.crash (.createFile file) 2] _ ?_ rfl⟩
  refine ⟨⟨hplain, ?_⟩, fun _ _ => trivial⟩
  intro hk
  cases hk

/--
The node dies after it has created a file and offers the empty file when it is started again.
-/
theorem not_crashSafe_exec :
    let disk := StaticStorage.init "n" (by decide)
    let file : FileInfo := { fileName := "a.txt", sha256sum := "d", fileSize := 1 }
    ∃ t, Run.exec (stepWithReceptions fun _ => "") (started (fun _ => "") disk)
        [.crash (.createFile file) 1] = some t
      ∧ ¬ CrashSafe t := by
  intro disk file
  have hreached : (Run.exec (stepWithReceptions fun _ => "") (started (fun _ => "") disk)
      [.crash (.createFile file) 1]).map
        (fun t => (t.1.storage.files, t.2 (t.1.storage.dir ++ ["a.txt"]))) =
        some ([⟨"a.txt", "", 0, 0⟩], some .unfinished) := by
    decide
  rcases Option.map_eq_some_iff.mp hreached with ⟨t, ht, heq⟩
  simp only [Prod.mk.injEq] at heq
  refine ⟨t, ht, ?_⟩
  intro hsafe
  apply hsafe.unfinished ⟨"a.txt", "", 0, 0⟩
  . rw [heq.1]
    exact List.mem_singleton_self _
  . exact heq.2

end OpenStorage

end Peerpaste
