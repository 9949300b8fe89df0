import Peerpaste.FileSystem.Stream
import Peerpaste.Message.Basic

/-!
This module contains the file store of a node: its directory, the table of unfinished transfers, the
index of finished files and the list of names that are being written.
-/

namespace Peerpaste

open FileSystem

structure FileTransfer where
  sha256sum : String
  fileSize : Nat
  bytesWritten : Nat
  deriving DecidableEq, Repr

/--
The rows under their `file_name`, which is unique.
-/
abbrev FileTransferTable := AList (fun _ : String => FileTransfer)

namespace FileTransferTable

def insertOrIgnore (t : FileTransferTable) (fileName : String) (row : FileTransfer) :
    FileTransferTable :=
  if fileName ∈ t then t else t.insert fileName row

def setBytesWritten (t : FileTransferTable) (fileName : String) (bytesWritten : Nat) :
    FileTransferTable :=
  match t.lookup fileName with
  | none => t
  | some row => t.insert fileName { row with bytesWritten := bytesWritten }

end FileTransferTable

structure BlockedFile where
  fileName : String
  token : Nat
  writing : Bool
  deriving DecidableEq, Repr

structure OfstreamWrapper where
  ofstream : Ofstream
  fileInfo : FileInfo
  token : Nat
  deriving DecidableEq, Repr

namespace StaticStorage

def storagePath (id : String) : String :=
  "/tmp/peerpaste/" ++ id ++ "/"

def storageDir (id : String) : AbsPath :=
  ["tmp", "peerpaste", id]

/--
The files that SQLite keeps for the database of the node.
-/
def databaseFiles : List String :=
  ["db.sqlite", "db.sqlite-journal"]

end StaticStorage

/--
The constructor creates the directories, and an id is the hex digest of an address and so a name.
-/
structure StaticStorage where
  id : String
  fs : FileSystem
  files : List FileInfo
  blockedFiles : List BlockedFile
  fileTransfer : FileTransferTable
  nextToken : Nat
  isName_id : IsName id
  created : ∀ dir ∈ [["tmp"], ["tmp", "peerpaste"], StaticStorage.storageDir id], dir ∈ fs.dirs
  deriving DecidableEq

namespace StaticStorage

def init (id : String) (hid : IsName id) : StaticStorage where
  id := id
  fs := ⟨[["tmp"], ["tmp", "peerpaste"], storageDir id],
    AList.singleton (storageDir id ++ ["db.sqlite"]) []⟩
  files := []
  blockedFiles := []
  fileTransfer := ∅
  nextToken := 0
  isName_id := hid
  created := fun _ hdir => hdir

def withFs (s : StaticStorage) (fs : FileSystem) : StaticStorage :=
  { s with fs := { s.fs with files := fs.files }, created := s.created }

def setBytesWritten (s : StaticStorage) (fileName : String) (bytesWritten : Nat) : StaticStorage :=
  { s with fileTransfer := s.fileTransfer.setBytesWritten fileName bytesWritten }

def pathOf (s : StaticStorage) (fileName : String) : String :=
  storagePath s.id ++ fileName

def dir (s : StaticStorage) : AbsPath :=
  storageDir s.id

def fileOf (s : StaticStorage) (fileName : String) : Option AbsPath :=
  s.fs.resolve (s.pathOf fileName)

def existsInternal (s : StaticStorage) (fileName : String) : Bool :=
  s.files.any (·.fileName == fileName)

def isBlockedInternal (s : StaticStorage) (fileName : String) : Bool :=
  s.blockedFiles.any fun b => b.fileName == fileName && b.writing

def sha256FromFile (sha256 : List UInt8 → String) (s : StaticStorage) (fileName : String) :
    String :=
  sha256 ((s.fileOf fileName).elim [] s.fs.content)

def fileSize (s : StaticStorage) (fileName : String) : Nat :=
  ((s.fileOf fileName).elim [] s.fs.content).length

def resumeInfo (s : StaticStorage) (fileInfo : FileInfo) : FileInfo :=
  match s.fileTransfer.lookup fileInfo.fileName with
  | none => fileInfo
  | some row => { fileInfo with offset := row.bytesWritten }

/--
The stream that `create_file` opens. A file that has a row is not truncated.
-/
def openOutput (s : StaticStorage) (fileName : String) : Option (FileSystem × Ofstream) :=
  if fileName ∈ s.fileTransfer then
    Ofstream.openInOut s.fs (s.pathOf fileName)
  else
    Ofstream.openTrunc s.fs (s.pathOf fileName)

def register (s : StaticStorage) (info : FileInfo) (opened : FileSystem × Ofstream) :
    StaticStorage × OfstreamWrapper :=
  ({ s.withFs opened.1 with
      fileTransfer := s.fileTransfer.insertOrIgnore info.fileName
        ⟨info.sha256sum, info.fileSize, info.offset⟩
      blockedFiles := s.blockedFiles ++ [⟨info.fileName, s.nextToken, true⟩]
      nextToken := s.nextToken + 1 },
    ⟨opened.2.seekp info.offset, info, s.nextToken⟩)

/--
The file info is the one that the caller goes on with. The statements on the table are taken to
work, also when the file that was opened is the one that the table is in.
-/
def createFile (s : StaticStorage) (fileInfo : FileInfo) :
    StaticStorage × FileInfo × Option OfstreamWrapper :=
  if s.existsInternal fileInfo.fileName || s.isBlockedInternal fileInfo.fileName then
    (s, fileInfo, none)
  else
    let info := s.resumeInfo fileInfo
    match s.openOutput fileInfo.fileName with
    | none => (s, info, none)
    | some opened =>
      let registered := s.register info opened
      (registered.1, info, some registered.2)

def complete (s : StaticStorage) (fileName sha256sum : String) : StaticStorage :=
  { s with
    blockedFiles := s.blockedFiles.filter (·.fileName != fileName)
    files := s.files ++ [⟨fileName, sha256sum, s.fileSize fileName, 0⟩]
    fileTransfer := s.fileTransfer.erase fileName }

def finalizeFile (sha256 : List UInt8 → String) (s : StaticStorage) (fileInfo : FileInfo) :
    StaticStorage × Bool :=
  if s.existsInternal fileInfo.fileName then
    (s, false)
  else if !s.isBlockedInternal fileInfo.fileName then
    (s, false)
  else
    let sha256sum := s.sha256FromFile sha256 fileInfo.fileName
    if sha256sum != fileInfo.sha256sum then
      (s, false)
    else
      (s.complete fileInfo.fileName sha256sum, true)

def readFile (s : StaticStorage) (fileInfo : FileInfo) : Option Ifstream :=
  if s.existsInternal fileInfo.fileName then
    Ifstream.openAte s.fs (s.pathOf fileInfo.fileName)
  else
    none

def addFile (sha256 : List UInt8 → String) (s : StaticStorage) (fileName : String) :
    StaticStorage × Bool :=
  match Ifstream.openAte s.fs (s.pathOf fileName) with
  | none => (s, false)
  | some _ =>
    let file : FileInfo := ⟨fileName, s.sha256FromFile sha256 fileName, s.fileSize fileName, 0⟩
    ({ s with files := s.files ++ [file] }, true)

def entries (s : StaticStorage) : List String :=
  s.fs.files.keys.filterMap fun p => if p.dropLast = s.dir then p.getLast? else none

def syncFiles (sha256 : List UInt8 → String) (s : StaticStorage) : StaticStorage :=
  s.entries.foldl
    (fun s name =>
      if name ∈ databaseFiles then
        s
      else if name ∈ s.fileTransfer then
        s
      else
        (s.addFile sha256 name).1)
    s

/--
The store that the next process of the node constructs. The directory and the table outlive a
process.
-/
def restart (sha256 : List UInt8 → String) (s : StaticStorage) : StaticStorage :=
  syncFiles sha256 { s with files := [], blockedFiles := [] }

end StaticStorage

namespace OfstreamWrapper

/--
`write`, which ends with the offset of the chunk in the row, whatever the stream did.
-/
def write (s : StaticStorage) (w : OfstreamWrapper) (chunk : FileChunk) :
    StaticStorage × OfstreamWrapper :=
  let written := (w.ofstream.seekp chunk.offset).write s.fs (chunk.data.take chunk.size)
  ((s.withFs written.1).setBytesWritten w.fileInfo.fileName chunk.offset,
    { w with ofstream := written.2 })

/--
The destructor clears the flag that the stream shares with its entry, if there still is one.
-/
def destroy (s : StaticStorage) (w : OfstreamWrapper) : StaticStorage :=
  { s with
    blockedFiles := s.blockedFiles.map fun b =>
      if b.token = w.token then { b with writing := false } else b }

end OfstreamWrapper

namespace FileTransferTable

variable {t : FileTransferTable} {name name' : String} {row : FileTransfer} {n : Nat}

theorem lookup_insertOrIgnore (t : FileTransferTable) (name : String) (row : FileTransfer) :
    (t.insertOrIgnore name row).lookup name = some ((t.lookup name).getD row) := by
  unfold insertOrIgnore
  split
  . rename_i hmem
    rcases AList.lookup_isSome.mpr hmem |> Option.isSome_iff_exists.mp with ⟨row', hrow'⟩
    rw [hrow', Option.getD_some]
  . rename_i hmem
    rw [AList.lookup_insert, AList.lookup_eq_none.mpr hmem, Option.getD_none]

theorem lookup_insertOrIgnore_ne (h : name' ≠ name) :
    (t.insertOrIgnore name row).lookup name' = t.lookup name' := by
  unfold insertOrIgnore
  split
  . rfl
  . exact AList.lookup_insert_ne h

theorem lookup_setBytesWritten (t : FileTransferTable) (name : String) (n : Nat) :
    (t.setBytesWritten name n).lookup name =
      (t.lookup name).map fun row => { row with bytesWritten := n } := by
  unfold setBytesWritten
  cases hrow : t.lookup name with
  | none => simp [hrow]
  | some row => simp

theorem lookup_setBytesWritten_ne (h : name' ≠ name) :
    (t.setBytesWritten name n).lookup name' = t.lookup name' := by
  unfold setBytesWritten
  cases t.lookup name with
  | none => rfl
  | some row => exact AList.lookup_insert_ne h

theorem mem_insertOrIgnore :
    name' ∈ t.insertOrIgnore name row ↔ name' = name ∨ name' ∈ t := by
  unfold insertOrIgnore
  split
  . next hmem =>
    constructor
    . exact Or.inr
    . rintro (rfl | h)
      . exact hmem
      . exact h
  . exact AList.mem_insert t

theorem mem_setBytesWritten :
    name' ∈ t.setBytesWritten name n ↔ name' ∈ t := by
  unfold setBytesWritten
  cases hrow : t.lookup name with
  | none => exact Iff.rfl
  | some row =>
    rw [AList.mem_insert]
    constructor
    . rintro (rfl | h)
      . rw [← AList.lookup_isSome, hrow]
        rfl
      . exact h
    . exact Or.inr

end FileTransferTable

namespace StaticStorage

variable {sha256 : List UInt8 → String} {s : StaticStorage} {fi : FileInfo} {name : String}
  {p : AbsPath} {opened : FileSystem × Ofstream}

section Fields

variable (s : StaticStorage) (fs : FileSystem) (info : FileInfo) (opened : FileSystem × Ofstream)

@[simp]
theorem resumeInfo_fileName : (s.resumeInfo info).fileName = info.fileName := by
  unfold resumeInfo
  split <;> rfl

@[simp]
theorem resumeInfo_sha256sum : (s.resumeInfo info).sha256sum = info.sha256sum := by
  unfold resumeInfo
  split <;> rfl

@[simp]
theorem resumeInfo_fileSize : (s.resumeInfo info).fileSize = info.fileSize := by
  unfold resumeInfo
  split <;> rfl

@[simp]
theorem register_files : (s.register info opened).1.files = s.files := rfl

@[simp]
theorem register_content : (s.register info opened).1.fs.content = opened.1.content := rfl

theorem register_lookup :
    (s.register info opened).1.fileTransfer.lookup info.fileName =
      some ((s.fileTransfer.lookup info.fileName).getD
        ⟨info.sha256sum, info.fileSize, info.offset⟩) :=
  FileTransferTable.lookup_insertOrIgnore _ _ _

theorem register_lookup_ne {name : String} (h : name ≠ info.fileName) :
    (s.register info opened).1.fileTransfer.lookup name = s.fileTransfer.lookup name :=
  FileTransferTable.lookup_insertOrIgnore_ne h

theorem register_isBlockedInternal (name : String) :
    (s.register info opened).1.isBlockedInternal name =
      (s.isBlockedInternal name || info.fileName == name) := by
  simp [register, isBlockedInternal]

@[simp]
theorem register_path : (s.register info opened).2.ofstream.path = opened.2.path :=
  Ofstream.seekp_path _ _

end Fields

theorem fileOf_congr {s' : StaticStorage} (hid : s'.id = s.id) (hdirs : s'.fs.dirs = s.fs.dirs) :
    s'.fileOf = s.fileOf := by
  unfold fileOf pathOf
  rw [hid, resolve_congr hdirs]

@[simp]
theorem register_fileOf (s : StaticStorage) (info : FileInfo) (opened : FileSystem × Ofstream) :
    (s.register info opened).1.fileOf = s.fileOf :=
  fileOf_congr rfl rfl

@[simp]
theorem complete_fileOf (s : StaticStorage) (name sha256sum : String) :
    (s.complete name sha256sum).fileOf = s.fileOf :=
  fileOf_congr rfl rfl

theorem fileOf_eq (s : StaticStorage) (name : String) :
    s.fileOf name = (s.fs.walk s.dir (components name).dropLast).bind
      (s.fs.fileIn · (lastName name)) := by
  have hid := s.isName_id
  have hpath : s.pathOf name = "/tmp/peerpaste" ++ "/" ++ s.id ++ "/" ++ name := rfl
  have hprefix : components "/tmp/peerpaste" = ["", "tmp", "peerpaste"] := by decide
  have hnull : Char.ofNat 0 ∉ "/tmp/peerpaste".toList := by decide
  have hnull' : Char.ofNat 0 ∉ ("/tmp/peerpaste" ++ "/" ++ s.id).toList := by
    rw [String.toList_append, String.toList_append, List.mem_append, List.mem_append]
    rintro ((hmem | hmem) | hmem)
    . exact hnull hmem
    . exact absurd hmem (by decide)
    . exact hid.not_null_mem hmem
  have hwalk : s.fs.walk [] (components ("/tmp/peerpaste" ++ "/" ++ s.id)) = some s.dir := by
    have htmp := s.created ["tmp"] (by simp)
    have hpeerpaste := s.created ["tmp", "peerpaste"] (by simp)
    have hdir := s.created (storageDir s.id) (by simp)
    rw [components_append_slash hnull, hprefix, hid.1]
    simp only [List.cons_append, List.nil_append, walk_cons]
    rw [show s.fs.enter [] "" = some [] from rfl, Option.bind_some,
      enter_name (by decide) (by exact htmp), Option.bind_some,
      enter_name (by decide) (by exact hpeerpaste), Option.bind_some,
        enter_name hid (by exact hdir)]
    rfl
  unfold fileOf resolve
  rw [hpath, dropLast_components_append_slash hnull', lastName_append_slash hnull',
    walk_append, hwalk, Option.bind_some]

theorem openOutput_path (h : s.openOutput name = some opened) :
    s.fileOf name = some opened.2.path := by
  unfold openOutput at h
  split at h
  . exact (Ofstream.openInOut_eq_some.mp h).1
  . exact (Ofstream.openTrunc_eq_some.mp h).1

theorem existsInternal_iff :
    s.existsInternal name = true ↔ ∃ file ∈ s.files, file.fileName = name := by
  simp [existsInternal]

theorem isBlockedInternal_iff :
    s.isBlockedInternal name = true
      ↔
    ∃ b ∈ s.blockedFiles, b.fileName = name ∧ b.writing = true := by
  simp [isBlockedInternal]

theorem finalizeFile_of_sha256 (hexists : s.existsInternal fi.fileName = false)
    (hblocked : s.isBlockedInternal fi.fileName = true)
    (hsha256 : s.sha256FromFile sha256 fi.fileName = fi.sha256sum) :
    s.finalizeFile sha256 fi = (s.complete fi.fileName fi.sha256sum, true) := by
  simp [finalizeFile, hexists, hblocked, hsha256]

theorem complete_existsInternal (s : StaticStorage) (name sha256sum : String) :
    (s.complete name sha256sum).existsInternal name = true := by
  simp [complete, existsInternal]

theorem complete_existsInternal_iff (s : StaticStorage) (name sha256sum : String) (name' : String) :
    (s.complete name sha256sum).existsInternal name' = true
      ↔
    s.existsInternal name' = true ∨ name' = name := by
  simp only [complete, existsInternal, List.any_append, List.any_cons, List.any_nil, Bool.or_false,
    Bool.or_eq_true, beq_iff_eq]
  exact or_congr Iff.rfl eq_comm

theorem complete_lookup (s : StaticStorage) (name sha256sum : String) :
    (s.complete name sha256sum).fileTransfer.lookup name = none := by
  simp [complete]

theorem openOutput_pos (h : s.openOutput name = some opened) : opened.2.pos = 0 := by
  unfold openOutput at h
  split at h
  . rw [(Ofstream.openInOut_eq_some.mp h).2.2.2]
  . rw [(Ofstream.openTrunc_eq_some.mp h).2.2]

theorem mem_openOutput_files (h : s.openOutput name = some opened)
    (hp : p = opened.2.path ∨ p ∈ s.fs.files) : p ∈ opened.1.files := by
  unfold openOutput at h
  split at h
  . have hopened := Ofstream.openInOut_eq_some.mp h
    rw [hopened.2.2.1]
    rcases hp with rfl | hp
    . exact hopened.2.1
    . exact hp
  . rw [(Ofstream.openTrunc_eq_some.mp h).2.1]
    exact mem_put_files.mpr hp

theorem mem_openOutput_files_iff (h : s.openOutput name = some opened) :
    p ∈ opened.1.files ↔ p = opened.2.path ∨ p ∈ s.fs.files := by
  refine ⟨?_, mem_openOutput_files h⟩
  intro hp
  unfold openOutput at h
  split at h
  . rw [(Ofstream.openInOut_eq_some.mp h).2.2.1] at hp
    exact Or.inr hp
  . rw [(Ofstream.openTrunc_eq_some.mp h).2.1] at hp
    exact mem_put_files.mp hp

theorem openOutput_content_of_ne (h : s.openOutput name = some opened) (hp : p ≠ opened.2.path) :
    opened.1.content p = s.fs.content p := by
  unfold openOutput at h
  split at h
  . rw [(Ofstream.openInOut_eq_some.mp h).2.2.1]
  . rw [(Ofstream.openTrunc_eq_some.mp h).2.1]
    exact content_put_of_ne hp

theorem register_resumeInfo_lookup (s : StaticStorage) (fi : FileInfo)
    (opened : FileSystem × Ofstream) :
    ∃ row, (s.register (s.resumeInfo fi) opened).1.fileTransfer.lookup fi.fileName = some row
      ∧ row.bytesWritten = (s.resumeInfo fi).offset := by
  -- the row of a registered transfer records the offset that it starts at
  have hlookup := register_lookup s (s.resumeInfo fi) opened
  rw [resumeInfo_fileName] at hlookup
  refine ⟨_, hlookup, ?_⟩
  cases hrow : s.fileTransfer.lookup fi.fileName with
  | none => rfl
  | some row => simp [resumeInfo, hrow]

theorem createFile_of_openOutput (hexists : s.existsInternal fi.fileName = false)
    (hblocked : s.isBlockedInternal fi.fileName = false)
    (hopen : s.openOutput fi.fileName = some opened) :
    s.createFile fi =
      ((s.register (s.resumeInfo fi) opened).1, s.resumeInfo fi,
        some (s.register (s.resumeInfo fi) opened).2) := by
  simp [createFile, hexists, hblocked, hopen]

theorem createFile_cases (s : StaticStorage) (fi : FileInfo) :
    ((s.existsInternal fi.fileName = true ∨ s.isBlockedInternal fi.fileName = true
        ∨ s.openOutput fi.fileName = none)
      ∧ (s.createFile fi).1 = s ∧ (s.createFile fi).2.2 = none)
      ∨
    (s.existsInternal fi.fileName = false ∧ s.isBlockedInternal fi.fileName = false
      ∧ ∃ opened, s.openOutput fi.fileName = some opened) := by
  cases hexists : s.existsInternal fi.fileName with
  | true => simp [createFile, hexists]
  | false =>
    cases hblocked : s.isBlockedInternal fi.fileName with
    | true => simp [createFile, hexists, hblocked]
    | false =>
      cases hopen : s.openOutput fi.fileName with
      | none => simp [createFile, hexists, hblocked, hopen]
      | some opened => simp

theorem finalizeFile_cases (sha256 : List UInt8 → String) (s : StaticStorage) (fi : FileInfo) :
    (s.finalizeFile sha256 fi).1 = s
      ∨
    ∃ sha256sum, (s.finalizeFile sha256 fi).1 = s.complete fi.fileName sha256sum := by
  -- an unfinished file stays as it is, and a finished one leaves the table for the index
  unfold finalizeFile
  split
  . exact Or.inl rfl
  . split
    . exact Or.inl rfl
    . dsimp only
      split
      . exact Or.inl rfl
      . exact Or.inr ⟨_, rfl⟩

theorem finalizeFile_of_true (h : (s.finalizeFile sha256 fi).2 = true) :
    s.existsInternal fi.fileName = false
      ∧ s.isBlockedInternal fi.fileName = true
      ∧ s.finalizeFile sha256 fi = (s.complete fi.fileName fi.sha256sum, true) := by
  unfold finalizeFile at h
  split at h
  . cases h
  . next hexists =>
    split at h
    . cases h
    . next hblocked =>
      dsimp only at h
      split at h
      . cases h
      . next hsha256 =>
        rw [Bool.not_eq_true] at hexists
        rw [Bool.not_eq_true, Bool.not_eq_false'] at hblocked
        refine ⟨hexists, hblocked, finalizeFile_of_sha256 hexists hblocked ?_⟩
        simpa using hsha256

section Sync

def synced (s : StaticStorage) : List String :=
  s.entries.filter fun name =>
    name ∉ databaseFiles ∧ name ∉ s.fileTransfer ∧ (Ifstream.openAte s.fs (s.pathOf name)).isSome

def entryOf (sha256 : List UInt8 → String) (s : StaticStorage) (name : String) : FileInfo :=
  ⟨name, s.sha256FromFile sha256 name, s.fileSize name, 0⟩

theorem syncFiles_eq (sha256 : List UInt8 → String) (s : StaticStorage) :
    s.syncFiles sha256 = { s with files := s.files ++ s.synced.map (s.entryOf sha256) } := by
  -- adding to the index changes nothing that the loop looks at
  have hsync (names : List String) (files : List FileInfo) :
      names.foldl
        (fun s name =>
          if name ∈ databaseFiles then
            s
          else if name ∈ s.fileTransfer then
            s
          else
            (s.addFile sha256 name).1) { s with files := files } =
        { s with files := files ++ (names.filter fun name =>
          name ∉ databaseFiles ∧ name ∉ s.fileTransfer
            ∧ (Ifstream.openAte s.fs (s.pathOf name)).isSome).map (s.entryOf sha256) } := by
    induction names generalizing files with
    | nil => simp
    | cons name names ih =>
      rw [List.foldl_cons]
      by_cases hdatabase : name ∈ databaseFiles
      . rw [if_pos hdatabase, ih]
        simp [hdatabase]
      . rw [if_neg hdatabase]
        by_cases hrow : name ∈ s.fileTransfer
        . rw [if_pos hrow, ih]
          simp [hrow]
        . rw [if_neg hrow]
          have hpath : pathOf { s with files := files } name = s.pathOf name := rfl
          cases hopen : Ifstream.openAte s.fs (s.pathOf name) with
          | none =>
            have hadd : (addFile sha256 { s with files := files } name).1
              = { s with files := files } := by
              simp [addFile, hpath, hopen]
            rw [hadd, ih]
            simp [hopen]
          | some source =>
            have hadd : (addFile sha256 { s with files := files } name).1 =
                { s with files := files ++ [s.entryOf sha256 name] } := by
              simp only [addFile, hpath, hopen]
              rfl
            rw [hadd, ih]
            simp [hdatabase, hrow, hopen]
  exact hsync s.entries s.files

theorem restart_eq (sha256 : List UInt8 → String) (s : StaticStorage) :
    ∃ files, s.restart sha256 = { s with files := files, blockedFiles := [] } := by
  unfold restart
  rw [syncFiles_eq]
  exact ⟨_, rfl⟩

theorem restart_existsInternal_iff (sha256 : List UInt8 → String) (s : StaticStorage)
    (name : String) :
    (s.restart sha256).existsInternal name = true ↔ name ∈ s.synced := by
  unfold restart
  rw [syncFiles_eq, existsInternal_iff, List.nil_append]
  constructor
  . intro h
    rcases h with ⟨file, hfile, rfl⟩
    rw [List.mem_map] at hfile
    rcases hfile with ⟨name, hname, rfl⟩
    exact hname
  . intro h
    exact ⟨_, List.mem_map_of_mem h, rfl⟩

theorem restart_indexed (sha256 : List UInt8 → String) (s : StaticStorage) (name : String)
    (h : (s.restart sha256).existsInternal name = true) :
    name ∉ (s.restart sha256).fileTransfer := by
  rw [restart_existsInternal_iff, synced, List.mem_filter, decide_eq_true_eq] at h
  rcases restart_eq sha256 s with ⟨files, hrestart⟩
  rw [hrestart]
  exact h.2.2.1

theorem mem_synced (hfile : s.fileOf name = some (s.dir ++ [name]))
    (hmem : s.dir ++ [name] ∈ s.fs.files) (hdatabase : name ∉ databaseFiles)
    (hrow : name ∉ s.fileTransfer) : name ∈ s.synced := by
  have hdir : (s.dir ++ [name]).dropLast = s.dir := List.dropLast_concat
  have hlast : (s.dir ++ [name]).getLast? = some name := List.getLast?_concat
  have hentry : name ∈ s.entries := by
    rw [entries, List.mem_filterMap]
    exact ⟨_, hmem, (if_pos hdir).trans hlast⟩
  have hopen : (Ifstream.openAte s.fs (s.pathOf name)).isSome := by
    unfold fileOf at hfile
    unfold Ifstream.openAte
    rw [hfile, Option.bind_some, if_pos hmem]
    rfl
  simp only [synced, List.mem_filter, decide_eq_true_eq]
  exact ⟨hentry, hdatabase, hrow, hopen⟩

end Sync

end StaticStorage

namespace OfstreamWrapper

variable (s : StaticStorage) (w : OfstreamWrapper) (chunk : FileChunk)

@[simp]
theorem write_fileOf : (w.write s chunk).1.fileOf = s.fileOf :=
  StaticStorage.fileOf_congr rfl rfl

@[simp]
theorem write_path : (w.write s chunk).2.ofstream.path = w.ofstream.path := by
  simp [write]

theorem write_content_of_ne {p : AbsPath} (hp : p ≠ w.ofstream.path) :
    (w.write s chunk).1.fs.content p = s.fs.content p := by
  apply Ofstream.write_content_of_ne
  rw [Ofstream.seekp_path]
  exact hp

theorem mem_write_files {p : AbsPath} (hp : p ∈ s.fs.files) : p ∈ (w.write s chunk).1.fs.files :=
  Ofstream.mem_write_files hp _

@[simp]
theorem destroy_fileOf : (w.destroy s).fileOf = s.fileOf :=
  StaticStorage.fileOf_congr rfl rfl

theorem mem_destroy_blockedFiles {b : BlockedFile} (hb : b ∈ s.blockedFiles)
    (htoken : b.token ≠ w.token) :
    b ∈ (w.destroy s).blockedFiles :=
  List.mem_map.mpr ⟨b, hb, if_neg htoken⟩

theorem write_lookup :
    (w.write s chunk).1.fileTransfer.lookup w.fileInfo.fileName =
      (s.fileTransfer.lookup w.fileInfo.fileName).map fun row =>
        { row with bytesWritten := chunk.offset } :=
  FileTransferTable.lookup_setBytesWritten _ _ _

theorem write_lookup_ne {name : String} (h : name ≠ w.fileInfo.fileName) :
    (w.write s chunk).1.fileTransfer.lookup name = s.fileTransfer.lookup name :=
  FileTransferTable.lookup_setBytesWritten_ne h

end OfstreamWrapper

end Peerpaste
