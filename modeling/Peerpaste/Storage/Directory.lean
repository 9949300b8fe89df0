import Peerpaste.Storage.Index

/-!
This module contains the calls of the store that go to its directory without the table of transfers,
and when the index agrees with the directory whatever calls were made.
-/

namespace Peerpaste

open FileSystem

namespace StaticStorage

def put (s : StaticStorage) (data : List UInt8) (id : String) : StaticStorage :=
  match Ofstream.openTrunc s.fs (s.pathOf id) with
  | none => s
  | some (fs, out) => s.withFs (out.write fs data).1

/--
`std::remove` of a regular file. `exists` is asked for the path and not for the name.
-/
def remove (s : StaticStorage) (id : String) : StaticStorage :=
  if s.existsInternal (s.pathOf id) then
    (s.fileOf id).elim s fun p => s.withFs { s.fs with files := s.fs.files.erase p }
  else
    s

/--
`none` if the assertion fails.
-/
def get (s : StaticStorage) (id : String) : Option (List UInt8) :=
  (s.fileOf id).bind fun p => if p ∈ s.fs.files then some (s.fs.content p) else none

def IsPlain (s : StaticStorage) (name : String) : Prop :=
  IsName name ∧ name ∉ databaseFiles ∧ s.dir ++ [name] ∉ s.fs.dirs

instance (s : StaticStorage) (name : String) : Decidable (s.IsPlain name) :=
  inferInstanceAs (Decidable (_ ∧ _))

def InDirectory (s : StaticStorage) (name : String) : Prop :=
  s.dir ++ [name] ∈ s.fs.files

def IsComplete (s : StaticStorage) (name : String) : Prop :=
  s.InDirectory name ∧ name ∉ s.fileTransfer

def Agrees (s : StaticStorage) : Prop :=
  ∀ name, s.IsPlain name → (s.existsInternal name = true ↔ s.IsComplete name)
    ∧ ((s.files.map (·.fileName)).count name = 1 ↔ s.IsComplete name)

end StaticStorage

inductive StoreCall where
  | put (data : List UInt8) (id : String)
  | remove (id : String)
  | transfer (e : OpenStorage.Event)
  deriving DecidableEq, Repr

def StoreCall.name? : StoreCall → Option String
  | .put _ id => some id
  | .remove id => some id
  | .transfer (.createFile fileInfo) => some fileInfo.fileName
  | .transfer (.finalizeFile fileInfo) => some fileInfo.fileName
  | .transfer _ => none

namespace OpenStorage

def call (sha256 : List UInt8 → String) (t : OpenStorage) : StoreCall → Option OpenStorage
  | .put data id => some { t with storage := t.storage.put data id }
  | .remove id => some { t with storage := t.storage.remove id }
  | .transfer e => t.step sha256 e

def TakesEffect (t : OpenStorage) : StoreCall → Prop
  | .put data id => t.storage.existsInternal id = true ∧ t.storage.get id = some data
  | .remove id => ¬ t.storage.InDirectory id ∧ t.storage.existsInternal id = false
  | .transfer _ => True

def KeepsAgreement (sha256 : List UInt8 → String) (t : OpenStorage) (c : StoreCall) : Prop :=
  ∀ t', t.call sha256 c = some t' → t'.storage.Agrees ∧ t'.TakesEffect c

def ChangesNoEntry (t : OpenStorage) : StoreCall → Prop
  | .put _ id => t.storage.existsInternal id = true
  | .remove id => ¬ t.storage.InDirectory id
  | .transfer _ => True

end OpenStorage

namespace StaticStorage

variable {s : StaticStorage} {name id : String} {data : List UInt8}

section Plain

theorem IsPlain.fileOf (h : s.IsPlain name) : s.fileOf name = some (s.dir ++ [name]) := by
  rcases h with ⟨⟨hcomponents, hempty, hdot, hdots⟩, _, hdir⟩
  rw [fileOf_eq, hcomponents, List.dropLast_singleton, walk_nil, Option.bind_some, fileIn_eq_some]
  have hlast : lastName name = name := by simp [lastName, hcomponents]
  rw [hlast]
  exact ⟨⟨hempty, hdot, hdots, hdir⟩, rfl⟩

theorem isPlain_congr {s' : StaticStorage} (hid : s'.id = s.id) (hdirs : s'.fs.dirs = s.fs.dirs) :
    s'.IsPlain name ↔ s.IsPlain name := by
  unfold IsPlain dir
  rw [hid, hdirs]

theorem not_isName_pathOf (s : StaticStorage) (id : String) : ¬ IsName (s.pathOf id) := by
  intro h
  have hcomponents :=
    components_append_slash (a := "/tmp/peerpaste") (by decide) (s.id ++ "/" ++ id)
  have hpath : s.pathOf id = "/tmp/peerpaste" ++ "/" ++ (s.id ++ "/" ++ id) := by
    rw [← String.append_assoc, ← String.append_assoc]
    rfl
  rw [hpath] at h
  have hlength := congrArg List.length (hcomponents.symm.trans h.1)
  have hprefix : (components "/tmp/peerpaste").length = 3 := by decide
  rw [List.length_append, List.length_singleton, hprefix] at hlength
  omega

end Plain

section Put

theorem withFs_fileOf (s : StaticStorage) (fs : FileSystem) : (s.withFs fs).fileOf = s.fileOf :=
  fileOf_congr rfl rfl

theorem put_eq (h : s.IsPlain id) (data : List UInt8) :
    s.put data id = s.withFs (s.fs.put (s.dir ++ [id]) data) := by
  have hopen : Ofstream.openTrunc s.fs (s.pathOf id) =
      some (s.fs.put (s.dir ++ [id]) [], { path := s.dir ++ [id] }) := by
    have hresolve : s.fs.resolve (s.pathOf id) = some (s.dir ++ [id]) := h.fileOf
    rw [Ofstream.openTrunc, hresolve, Option.map_some]
  have hdata : overwrite [] 0 data = data := by
    unfold overwrite
    split
    . next hnil => exact hnil.symm
    . simp
  unfold put
  simp only [hopen]
  rw [Ofstream.write_of_not_fail rfl, put_content, hdata]
  simp [FileSystem.put, withFs]

theorem put_get (h : s.IsPlain id) (data : List UInt8) : (s.put data id).get id = some data := by
  rw [put_eq h, get, withFs_fileOf, h.fileOf]
  simp [withFs, content, FileSystem.put]

theorem put_inDirectory_iff (h : s.IsPlain id) (data : List UInt8) (name : String) :
    (s.put data id).InDirectory name ↔ name = id ∨ s.InDirectory name := by
  rw [put_eq h]
  exact mem_put_files.trans (or_congr_left dir_append_eq_iff)

theorem put_isComplete_iff (h : s.IsPlain id) (hcomplete : s.IsComplete id) (data : List UInt8)
    (name : String) :
    (s.put data id).IsComplete name ↔ s.IsComplete name := by
  have hrow : (s.put data id).fileTransfer = s.fileTransfer := by
    rw [put_eq h]
    rfl
  unfold IsComplete
  rw [put_inDirectory_iff h, hrow]
  constructor
  . rintro ⟨rfl | hname, hrow⟩
    . exact hcomplete
    . exact ⟨hname, hrow⟩
  . rintro ⟨hname, hrow⟩
    exact ⟨Or.inr hname, hrow⟩

theorem remove_eq (h : ∀ file ∈ s.files, IsName file.fileName) (id : String) : s.remove id = s := by
  -- no name is a path
  unfold remove
  apply if_neg
  rw [existsInternal_iff]
  rintro ⟨file, hfile, hname⟩
  exact s.not_isName_pathOf id (hname ▸ h file hfile)

end Put

theorem agrees_iff (hnodup : (s.files.map (·.fileName)).Nodup) :
    s.Agrees ↔ ∀ name, s.IsPlain name → (s.existsInternal name = true ↔ s.IsComplete name) := by
  have hcount (name : String) :
      (s.files.map (·.fileName)).count name = 1 ↔ s.existsInternal name = true := by
    rw [existsInternal_iff, hnodup.count, ite_eq_left_iff, List.mem_map]
    simp
  unfold Agrees
  apply forall_congr'
  intro name
  simp [hcount]

theorem mem_entries_iff : name ∈ s.entries ↔ s.InDirectory name := by
  rw [entries, List.mem_filterMap]
  constructor
  . rintro ⟨p, hp, hlast⟩
    rw [Option.ite_none_right_eq_some] at hlast
    have heq := List.dropLast_append_getLast? name hlast.2
    rw [hlast.1] at heq
    exact (show s.dir ++ [name] ∈ s.fs.files from heq ▸ hp)
  . intro hmem
    exact ⟨_, hmem, by simp⟩

theorem mem_synced_iff (h : s.IsPlain name) : name ∈ s.synced ↔ s.IsComplete name := by
  constructor
  . intro hmem
    simp only [synced, List.mem_filter, decide_eq_true_eq] at hmem
    exact ⟨mem_entries_iff.mp hmem.1, hmem.2.2.1⟩
  . intro hcomplete
    exact mem_synced h.fileOf hcomplete.1 h.2.1 hcomplete.2

section Register

variable {info : FileInfo} {opened : FileSystem × Ofstream}

theorem register_inDirectory_iff
    (hfiles : ∀ p, p ∈ opened.1.files ↔ p = s.dir ++ [info.fileName] ∨ p ∈ s.fs.files)
    (name : String) :
    (s.register info opened).1.InDirectory name ↔ name = info.fileName ∨ s.InDirectory name := by
  exact (hfiles _).trans (or_congr_left dir_append_eq_iff)

theorem register_isComplete_iff
    (hfiles : ∀ p, p ∈ opened.1.files ↔ p = s.dir ++ [info.fileName] ∨ p ∈ s.fs.files)
    (name : String) :
    (s.register info opened).1.IsComplete name ↔ name ≠ info.fileName ∧ s.IsComplete name := by
  have hrow : name ∈ (s.register info opened).1.fileTransfer ↔ name = info.fileName
    ∨ name ∈ s.fileTransfer :=
    FileTransferTable.mem_insertOrIgnore
  unfold IsComplete
  rw [register_inDirectory_iff hfiles, hrow]
  tauto

end Register

theorem complete_isComplete_iff {sha256sum : String} (h : s.InDirectory id) (name : String) :
    (s.complete id sha256sum).IsComplete name ↔ name = id ∨ s.IsComplete name := by
  have hdirectory : (s.complete id sha256sum).InDirectory name ↔ s.InDirectory name := Iff.rfl
  have hrow : name ∈ (s.complete id sha256sum).fileTransfer ↔ name ≠ id ∧ name ∈ s.fileTransfer :=
    AList.mem_erase
  unfold IsComplete
  rw [hdirectory, hrow]
  constructor
  . rintro ⟨hname, hrow⟩
    by_cases heq : name = id
    . exact Or.inl heq
    . exact Or.inr ⟨hname, fun hmem => hrow ⟨heq, hmem⟩⟩
  . rintro (rfl | ⟨hname, hrow⟩)
    . exact ⟨h, fun hmem => hmem.1 rfl⟩
    . exact ⟨hname, fun hmem => hrow hmem.2⟩

end StaticStorage

namespace OpenStorage

structure Kept (disk : StaticStorage) (t : OpenStorage) : Prop extends Blocks t where
  id : t.storage.id = disk.id
  dirs : t.storage.fs.dirs = disk.fs.dirs
  agrees : t.storage.Agrees
  isName : ∀ file ∈ t.storage.files, IsName file.fileName
  streams : ∀ i w, t.streams i = some w → w.ofstream.path ∈ t.storage.fs.files
  writing : ∀ name, t.storage.IsPlain name → t.storage.isBlockedInternal name = true →
    t.storage.InDirectory name

variable {sha256 : List UInt8 → String} {disk : StaticStorage} {t t' : OpenStorage}

theorem ofDisk_kept (sha256 : List UInt8 → String) (hdisk : ∀ name ∈ disk.entries, IsName name) :
    Kept disk (ofDisk sha256 disk) := by
  have hblocks := ofDisk_blocks sha256 disk
  have hindex := disk.restart_existsInternal_iff sha256
  rcases disk.restart_eq sha256 with ⟨files, hrestart⟩
  have hid : (ofDisk sha256 disk).storage.id = disk.id := by simp [ofDisk, hrestart]
  have hdirs : (ofDisk sha256 disk).storage.fs.dirs = disk.fs.dirs := by simp [ofDisk, hrestart]
  refine ⟨hblocks, hid, hdirs, ?_, ?_, ?_, ?_⟩
  . rw [StaticStorage.agrees_iff hblocks.nodup]
    intro name hplain
    have hplain' : disk.IsPlain name := (StaticStorage.isPlain_congr hid hdirs).mp hplain
    have hcomplete : (ofDisk sha256 disk).storage.IsComplete name ↔ disk.IsComplete name := by
      simp only [ofDisk, hrestart]
      rfl
    rw [hcomplete, ← StaticStorage.mem_synced_iff hplain']
    exact hindex name
  . intro file hfile
    have hexists := (hindex file.fileName).mp
      (StaticStorage.existsInternal_iff.mpr ⟨file, hfile, rfl⟩)
    exact hdisk _ (List.mem_of_mem_filter hexists)
  . intro i w hw
    cases hw
  . intro name _ hblocked
    simp [ofDisk, hrestart, StaticStorage.isBlockedInternal] at hblocked

theorem Kept.isPlain_iff (h : Kept disk t) {name : String} :
    t.storage.IsPlain name ↔ disk.IsPlain name :=
  StaticStorage.isPlain_congr h.id h.dirs

theorem Kept.exists_iff (h : Kept disk t) {name : String} (hplain : disk.IsPlain name) :
    t.storage.existsInternal name = true ↔ t.storage.IsComplete name :=
  (h.agrees name (h.isPlain_iff.mpr hplain)).1

section Call

theorem Kept.createFile (h : Kept disk t) {fi : FileInfo} (hfi : disk.IsPlain fi.fileName) :
    Kept disk (t.createFile fi) := by
  have hblocks := h.toBlocks.createFile fi
  rcases t.createFile_cases fi with ⟨_, hsame⟩ | ⟨hexists, hblocked, opened, hopen, hcreate⟩
  . rw [hsame]
    exact h
  . have hpath : opened.2.path = t.storage.dir ++ [fi.fileName] := by
      have hfile := StaticStorage.openOutput_path hopen
      rw [(h.isPlain_iff.mpr hfi).fileOf, Option.some.injEq] at hfile
      exact hfile.symm
    have hfiles (p : AbsPath) : p ∈ opened.1.files
        ↔ p = t.storage.dir ++ [(t.storage.resumeInfo fi).fileName] ∨ p ∈ t.storage.fs.files := by
      rw [StaticStorage.resumeInfo_fileName, ← hpath]
      exact StaticStorage.mem_openOutput_files_iff hopen
    rw [hcreate] at hblocks ⊢
    refine ⟨hblocks, h.id, h.dirs, ?_, h.isName, ?_, ?_⟩
    . rw [StaticStorage.agrees_iff hblocks.nodup]
      intro name hplain
      have hold : t.storage.existsInternal name = true ↔ t.storage.IsComplete name :=
        (h.agrees name hplain).1
      rw [StaticStorage.register_isComplete_iff hfiles, ← hold, StaticStorage.resumeInfo_fileName]
      constructor
      . intro hindexed
        refine ⟨?_, hindexed⟩
        rintro rfl
        exact absurd (hexists.symm.trans hindexed) Bool.false_ne_true
      . exact And.right
    . intro i w hw
      apply (hfiles w.ofstream.path).mpr
      rcases streams_update hw with ⟨_, hnew⟩ | ⟨_, hold⟩
      . rw [Option.some.injEq] at hnew
        rw [← hnew, StaticStorage.register_path, hpath, StaticStorage.resumeInfo_fileName]
        exact Or.inl rfl
      . exact Or.inr (h.streams i w hold)
    . intro name hplain hwriting
      rw [StaticStorage.register_isBlockedInternal, Bool.or_eq_true, beq_iff_eq] at hwriting
      rw [StaticStorage.register_inDirectory_iff hfiles]
      rcases hwriting with hold | hname
      . exact Or.inr (h.writing name hplain hold)
      . exact Or.inl hname.symm

theorem Kept.write (h : Kept disk t) {i : Nat} {chunk : FileChunk}
    (hwrite : t.write i chunk = some t') :
    Kept disk t' := by
  have hblocks := h.toBlocks.write hwrite
  rcases write_eq_some hwrite with ⟨w, hw, rfl⟩
  have hfiles (p : AbsPath) : p ∈ (w.write t.storage chunk).1.fs.files
    ↔ p ∈ t.storage.fs.files := by
    apply Ofstream.mem_write_files_iff
    rw [Ofstream.seekp_path]
    exact h.streams i w hw
  have hcomplete (name : String) :
      (w.write t.storage chunk).1.IsComplete name ↔ t.storage.IsComplete name := by
    apply and_congr (hfiles _)
    exact not_congr FileTransferTable.mem_setBytesWritten
  refine ⟨hblocks, h.id, h.dirs, ?_, h.isName, ?_, ?_⟩
  . rw [StaticStorage.agrees_iff hblocks.nodup]
    intro name hplain
    rw [hcomplete]
    exact (h.agrees name hplain).1
  . intro j w' hj
    apply (hfiles w'.ofstream.path).mpr
    rcases streams_update hj with ⟨_, hnew⟩ | ⟨_, hold⟩
    . rw [Option.some.injEq] at hnew
      rw [← hnew, OfstreamWrapper.write_path]
      exact h.streams i w hw
    . exact h.streams j w' hold
  . intro name hplain hwriting
    exact (hfiles _).mpr (h.writing name hplain hwriting)

theorem Kept.destroy (h : Kept disk t) {i : Nat} (hdestroy : t.destroy i = some t') :
    Kept disk t' := by
  have hblocks := h.toBlocks.destroy hdestroy
  rcases destroy_eq_some hdestroy with ⟨w, hw, rfl⟩
  refine ⟨hblocks, h.id, h.dirs, h.agrees, h.isName, ?_, ?_⟩
  . intro j w' hj
    rcases streams_update hj with ⟨_, hnew⟩ | ⟨_, hold⟩
    . cases hnew
    . exact h.streams j w' hold
  . intro name hplain hwriting
    exact h.writing name hplain (StaticStorage.isBlockedInternal_of_destroy hwriting)

theorem Kept.finalizeFile (h : Kept disk t) (sha256 : List UInt8 → String) {fi : FileInfo}
    (hfi : disk.IsPlain fi.fileName) :
    Kept disk { t with storage := (t.storage.finalizeFile sha256 fi).1 } := by
  have hblocks := h.toBlocks.finalizeFile sha256 fi
  cases hresult : (t.storage.finalizeFile sha256 fi).2 with
  | false =>
    rw [(t.storage.finalizeFile_checked sha256 fi).unchanged hresult]
    exact h
  | true =>
    rcases StaticStorage.finalizeFile_of_true hresult with ⟨hexists, hblocked, hfinalize⟩
    have hdirectory := h.writing _ (h.isPlain_iff.mpr hfi) hblocked
    rw [hfinalize] at hblocks ⊢
    refine ⟨hblocks, h.id, h.dirs, ?_, ?_, h.streams, ?_⟩
    . rw [StaticStorage.agrees_iff hblocks.nodup]
      intro name hplain
      dsimp only
      rw [StaticStorage.complete_isComplete_iff hdirectory,
        StaticStorage.complete_existsInternal_iff, (h.agrees name hplain).1]
      exact or_comm
    . intro file hfile
      rcases List.mem_append.mp hfile with hfile | hfile
      . exact h.isName file hfile
      . rw [List.mem_singleton] at hfile
        rw [hfile]
        exact hfi.1
    . intro name hplain hwriting
      exact h.writing name hplain (StaticStorage.complete_isBlockedInternal_iff.mp hwriting).1

theorem Kept.put (h : Kept disk t) {id : String} (hid : disk.IsPlain id)
    (hexists : t.storage.existsInternal id = true) (data : List UInt8) :
    Kept disk { t with storage := t.storage.put data id } := by
  have hplain := h.isPlain_iff.mpr hid
  have hcomplete := (h.exists_iff hid).mp hexists
  have hiff := StaticStorage.put_isComplete_iff hplain hcomplete data
  rw [StaticStorage.put_eq hplain] at hiff ⊢
  refine ⟨⟨⟨h.nodup, h.exclusive, h.disjoint⟩, h.blocked, h.token_lt, h.token_inj⟩,
    h.id, h.dirs, ?_, h.isName, ?_, ?_⟩
  . rw [StaticStorage.agrees_iff (by exact h.nodup)]
    intro name hplain
    rw [hiff]
    exact (h.agrees name hplain).1
  . intro i w hw
    exact mem_put_files.mpr (Or.inr (h.streams i w hw))
  . intro name hplain hwriting
    exact mem_put_files.mpr (Or.inr (h.writing name hplain hwriting))

theorem Kept.transfer (h : Kept disk t) {e : Event}
    (he : ∀ name ∈ (StoreCall.transfer e).name?, disk.IsPlain name)
    (hstep : t.step sha256 e = some t') :
    Kept disk t' := by
  cases e with
  | createFile fi =>
    simp only [step, Option.some.injEq] at hstep
    exact hstep ▸ h.createFile (he fi.fileName rfl)
  | write i chunk => exact h.write hstep
  | destroy i => exact h.destroy hstep
  | finalizeFile fi =>
    simp only [step, Option.some.injEq] at hstep
    exact hstep ▸ h.finalizeFile sha256 (he fi.fileName rfl)

theorem Kept.call (h : Kept disk t) {c : StoreCall} (hc : ∀ name ∈ c.name?, disk.IsPlain name)
    (hchanges : t.ChangesNoEntry c) (hcall : t.call sha256 c = some t') : Kept disk t' := by
  cases c with
  | put data id =>
    simp only [OpenStorage.call, Option.some.injEq] at hcall
    exact hcall ▸ h.put (hc id rfl) hchanges data
  | remove id =>
    simp only [OpenStorage.call, StaticStorage.remove_eq h.isName, Option.some.injEq] at hcall
    exact hcall ▸ h
  | transfer e => exact h.transfer hc hcall

theorem Kept.keepsAgreement_iff (h : Kept disk t) {c : StoreCall}
    (hc : ∀ name ∈ c.name?, disk.IsPlain name) :
    KeepsAgreement sha256 t c ↔ t.ChangesNoEntry c := by
  cases c with
  | put data id =>
    have hplain := h.isPlain_iff.mpr (hc id rfl)
    have hexists : (t.storage.put data id).existsInternal id = t.storage.existsInternal id := by
      rw [StaticStorage.put_eq hplain]
      rfl
    constructor
    . intro hkeeps
      have heffect := (hkeeps _ rfl).2
      dsimp only [TakesEffect] at heffect
      rw [hexists] at heffect
      exact heffect.1
    . intro (hindexed : t.storage.existsInternal id = true) t' hcall
      refine ⟨(h.call hc hindexed hcall).agrees, ?_⟩
      simp only [OpenStorage.call, Option.some.injEq] at hcall
      rw [← hcall]
      dsimp only [TakesEffect]
      rw [hexists]
      exact ⟨hindexed, StaticStorage.put_get hplain data⟩
  | remove id =>
    have hsame := StaticStorage.remove_eq h.isName id
    constructor
    . intro hkeeps
      have heffect := (hkeeps _ rfl).2.1
      rwa [hsame] at heffect
    . intro hchanges t' hcall
      refine ⟨(h.call hc hchanges hcall).agrees, ?_⟩
      simp only [OpenStorage.call, hsame, Option.some.injEq] at hcall
      rw [← hcall]
      refine ⟨hchanges, ?_⟩
      rw [Bool.eq_false_iff]
      intro hexists
      exact hchanges ((h.exists_iff (hc id rfl)).mp hexists).1
  | transfer e =>
    exact ⟨fun _ => trivial, fun _ t' hcall => ⟨(h.transfer hc hcall).agrees, trivial⟩⟩

end Call

/--
The index agrees with the directory after a start on any disk. It goes on to agree, and `put` and
`remove` do what they are for, if and only if `put` and `remove` have no entry to change.
-/
theorem keepsAgreement_iff_changesNoEntry (sha256 : List UInt8 → String) {disk : StaticStorage}
    (hdisk : ∀ name ∈ disk.entries, IsName name) {calls : List StoreCall}
    (hcalls : ∀ c ∈ calls, ∀ name ∈ c.name?, disk.IsPlain name) :
    (ofDisk sha256 disk).storage.Agrees
      ∧ (Run.Along (call sha256) (KeepsAgreement sha256) (ofDisk sha256 disk) calls
        ↔
      Run.Along (call sha256) ChangesNoEntry (ofDisk sha256 disk) calls) := by
  have hkept := ofDisk_kept sha256 hdisk
  refine ⟨hkept.agrees, ?_⟩
  symm
  refine Run.along_congr_of
    (fun t c t' (h : Kept disk t) (hc : ∀ name ∈ c.name?, disk.IsPlain name) => h.call hc) ?_
      hkept hcalls
  intro t c h hc
  exact (h.keepsAgreement_iff hc).symm

/--
A file that was received is put once more.
-/
theorem keepsAgreement_iff_oneTransfer :
    let sha256 : List UInt8 → String := fun _ => "d"
    let disk := StaticStorage.init "n" (by decide)
    let file : FileInfo := { fileName := "a.txt", sha256sum := "d", fileSize := 1 }
    let calls : List StoreCall := [.transfer (.createFile file),
      .transfer (.write 0 { size := 1, data := [97] }), .transfer (.finalizeFile file),
      .put [98] "a.txt", .remove "b.txt"]
    (ofDisk sha256 disk).storage.Agrees
      ∧ (Run.Along (call sha256) (KeepsAgreement sha256) (ofDisk sha256 disk) calls
        ↔
      Run.Along (call sha256) ChangesNoEntry (ofDisk sha256 disk) calls) := by
  intro sha256 disk file calls
  exact keepsAgreement_iff_changesNoEntry sha256 (by decide) (by decide)

/--
A file that is put into an empty store is there, and `exists` is false.
-/
theorem not_keepsAgreement_ofPut :
    let sha256 : List UInt8 → String := fun _ => "d"
    let disk := StaticStorage.init "n" (by decide)
    ¬ Run.Along (call sha256) (KeepsAgreement sha256) (ofDisk sha256 disk) [.put [97] "a.txt"] := by
  intro sha256 disk h
  have hexists := (h.1 _ rfl).2.1
  revert hexists
  decide

end OpenStorage

end Peerpaste
