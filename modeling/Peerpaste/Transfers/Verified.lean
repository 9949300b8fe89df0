import Peerpaste.Transfers.Crash

/-!
This module contains what happens to a file once `finalize_file` has returned true for it: which
steps could still change its bytes or the state of the object that fetched it.
-/

namespace Peerpaste

open FileSystem

namespace Transfers

structure Verified where
  files : AbsPath → Bool
  fetched : Nat → Bool

namespace Verified

def empty : Verified where
  files _ := false
  fetched _ := false

def add (η : Verified) (i : Nat) (file : Option AbsPath) : Verified where
  files := file.elim η.files fun p => Function.update η.files p true
  fetched := Function.update η.fetched i true

end Verified

/--
A response puts a name into the index exactly if `finalize_file` returns true.
-/
def recordVerified (sha256 : List UInt8 → String) (t : Transfers) (η : Verified) : Event → Verified
  | .response i response =>
    match (t.active i).bind (·.fileInfo), t.step sha256 (.response i response) with
    | some info, some t' =>
      if !t.storage.existsInternal info.fileName && t'.storage.existsInternal info.fileName then
        η.add i (t.storage.fileOf info.fileName)
      else
        η
    | _, _ => η
  | _ => η

def stepWithVerified (sha256 : List UInt8 → String) :
    Transfers × Verified → Event → Option (Transfers × Verified) :=
  Run.observe (step sha256) (recordVerified sha256)

def startedVerified (sha256 : List UInt8 → String) (disk : StaticStorage) : Transfers × Verified :=
  (ofStorage (disk.restart sha256), .empty)

def KeepsVerified (sha256 : List UInt8 → String) (t : Transfers × Verified) (e : Event) : Prop :=
  ∀ t', t.1.step sha256 e = some t' →
    (∀ p, t.2.files p = true → t'.storage.fs.content p = t.1.storage.fs.content p)
      ∧ ∀ i g, t.2.fetched i = true → t'.active i = some g → g.state = .done ∧ g.isDone = true

def NoneAfterDone (t : Transfers × Verified) : Event → Prop
  | .response i _ => ∀ g, t.1.active i = some g → g.state ≠ .done
  | .offer _ fileInfo _ => t.1.storage.Plain fileInfo.fileName
  | _ => True

def streams (t : Transfers) : OpenStorage where
  storage := t.storage
  streams i := (t.active i).bind (·.outputFile)
  next := t.next

section Streams

variable {sha256 : List UInt8 → String} {t t' : Transfers} {e : Event}

theorem streams_of_update {i : Nat} {x : Option GetFile}
    (h : t'.active = Function.update t.active i x) :
    t'.streams.streams = Function.update t.streams.streams i (x.bind (·.outputFile)) := by
  funext j
  simp only [streams, h]
  by_cases hj : j = i
  . rw [hj, Function.update_self, Function.update_self]
  . rw [Function.update_of_ne hj, Function.update_of_ne hj]

theorem streams_of_outputFile {i : Nat} {x : Option GetFile}
    (h : t'.active = Function.update t.active i x)
    (houtput : x.bind (·.outputFile) = t.streams.streams i) : t'.streams.streams =
    t.streams.streams := by
  rw [streams_of_update h, houtput, Function.update_eq_self]

theorem write_streams {i : Nat} {g : GetFile} {w : OfstreamWrapper} (hg : t.active i = some g)
    (houtput : g.outputFile = some w) (chunk : FileChunk) :
    t.streams.write i chunk = some { t.streams with
      storage := (w.write t.storage chunk).1
      streams := Function.update t.streams.streams i (some (w.write t.storage chunk).2) } := by
  have hstream : t.streams.streams i = some w := by simp [streams, hg, houtput]
  simp only [OpenStorage.write, hstream]
  rfl

theorem streams_offer (hfresh : t.Fresh) {target : Peer} {fileInfo : FileInfo}
    {transactionId : String}
    (hstep : t.step sha256 (.offer target fileInfo transactionId) = some t') :
    ∃ calls u, Run.exec (OpenStorage.step sha256) t.streams calls = some u
      ∧ u.storage = t'.storage ∧ u.streams = t'.streams.streams := by
  simp only [step, offer, Option.some.injEq] at hstep
  split at hstep
  . subst hstep
    exact ⟨[], _, rfl, rfl, rfl⟩
  . refine ⟨[.createFile fileInfo], _, rfl, ?_⟩
    have hactive := congrArg active hstep.symm
    have hstorage := congrArg storage hstep.symm
    rcases hcreate : t.storage.createFile fileInfo with ⟨s', info, output⟩
    have hsame : t.streams.storage.createFile fileInfo = (s', info, output) := hcreate
    simp only [OpenStorage.createFile, hsame]
    cases output with
    | none =>
      have hrequest := GetFile.createRequest_of_none target transactionId
        (by rw [hcreate] : (t.storage.createFile fileInfo).2.2 = none)
      constructor
      . rw [hstorage, hrequest.1, hcreate]
      . rw [streams_of_outputFile hactive]
        have hnone : t.streams.streams t.next = none := by
          simp [streams, hfresh t.next (Nat.le_refl _)]
        rw [hnone]
        exact hrequest.2
    | some w =>
      have hrequest := GetFile.createRequest_of_some target transactionId hcreate
      constructor
      . rw [hstorage, hrequest.1]
      . rw [streams_of_update hactive, Option.bind_some, hrequest.2.1]
        rfl

theorem streams_response {i : Nat} {response : RequestObject}
    (hstep : t.step sha256 (.response i response) = some t') :
    ∃ calls u, Run.exec (OpenStorage.step sha256) t.streams calls = some u
      ∧ u.storage = t'.storage ∧ u.streams = t'.streams.streams := by
  simp only [step, handleResponse, Option.bind_eq_bind, Option.bind_eq_some_iff, Option.pure_def,
    Option.some.injEq] at hstep
  rcases hstep with ⟨g, hg, handled, hhandled, hstep⟩
  have hactive := congrArg active hstep.symm
  have hstorage := congrArg storage hstep.symm
  cases GetFile.handleResponse_receives hhandled with
  | refused haccepts =>
    refine ⟨[], _, rfl, hstorage.symm, ?_⟩
    rw [streams_of_outputFile hactive]
    simp [streams, hg, GetFile.finish]
  | written w chunk haccepts =>
    have hwrite : Run.exec (OpenStorage.step sha256) t.streams [.write i chunk] =
        some { t.streams with
          storage := (w.write t.storage chunk).1
          streams :=
            Function.update t.streams.streams i (some (w.write t.storage chunk).2) } := by
      simp only [Run.exec, OpenStorage.step,
        write_streams hg (GetFile.accepts_outputFile haccepts)]
      rfl
    exact ⟨_, _, hwrite, hstorage.symm, (streams_of_update hactive).symm⟩
  | finalized w chunk info haccepts hinfo =>
    have hfinalize :
        Run.exec (OpenStorage.step sha256) t.streams [.write i chunk, .finalizeFile info] =
        some { t.streams with
          storage := ((w.write t.storage chunk).1.finalizeFile sha256 info).1
          streams :=
            Function.update t.streams.streams i (some (w.write t.storage chunk).2) } := by
      simp only [Run.exec, OpenStorage.step,
        write_streams hg (GetFile.accepts_outputFile haccepts)]
      rfl
    exact ⟨_, _, hfinalize, hstorage.symm, (streams_of_update hactive).symm⟩

theorem streams_destroy {i : Nat} (hstep : t.step sha256 (.destroy i) = some t') :
    ∃ calls u, Run.exec (OpenStorage.step sha256) t.streams calls = some u
      ∧ u.storage = t'.storage ∧ u.streams = t'.streams.streams := by
  simp only [step, destroy, Option.bind_eq_bind, Option.bind_eq_some_iff, Option.pure_def,
    Option.some.injEq] at hstep
  rcases hstep with ⟨g, hg, hstep⟩
  have hactive := congrArg active hstep.symm
  have hstorage := congrArg storage hstep.symm
  cases houtput : g.outputFile with
  | none =>
    refine ⟨[], _, rfl, ?_, ?_⟩
    . simp [streams, hstorage, houtput]
    . rw [streams_of_outputFile hactive]
      simp [streams, hg, houtput]
  | some w =>
    have hstream : t.streams.streams i = some w := by simp [streams, hg, houtput]
    have hdestroy : Run.exec (OpenStorage.step sha256) t.streams [.destroy i] =
        some { t.streams with
          storage := w.destroy t.storage
          streams := Function.update t.streams.streams i none } := by
      simp only [Run.exec, OpenStorage.step, OpenStorage.destroy, hstream]
      rfl
    refine ⟨[.destroy i], _, hdestroy, ?_, (streams_of_update hactive).symm⟩
    simp [hstorage, houtput]

theorem streams_step (hfresh : t.Fresh) (hstep : t.step sha256 e = some t') (he : e ≠ .restart) :
    ∃ calls u, Run.exec (OpenStorage.step sha256) t.streams calls = some u
      ∧ u.storage = t'.storage ∧ u.streams = t'.streams.streams := by
  cases e with
  | offer target fileInfo transactionId => exact streams_offer hfresh hstep
  | response i response => exact streams_response hstep
  | destroy i => exact streams_destroy hstep
  | restart => exact absurd rfl he

theorem streams_blocks (hblocks : t.streams.Blocks) (hfresh : t.Fresh)
    (hstep : t.step sha256 e = some t') :
    t'.streams.Blocks := by
  by_cases he : e = .restart
  . subst he
    cases hstep
    exact (OpenStorage.ofDisk_blocks sha256 t.storage).congr rfl rfl
  . rcases streams_step hfresh hstep he with ⟨calls, u, hexec, hstorage, hstreams⟩
    have h : u.Blocks := Run.exec_invariant (fun _ _ _ h hstep => h.step hstep) hblocks hexec
    exact h.congr hstorage.symm hstreams.symm

end Streams

end Transfers

structure StaticStorage.Stored (s : StaticStorage) (name : String) : Prop where
  fileOf : s.fileOf name = some (s.dir ++ [name])
  database : name ∉ StaticStorage.databaseFiles
  mem : s.dir ++ [name] ∈ s.fs.files

namespace Transfers

structure OwnFile (s : StaticStorage) (g : GetFile) (w : OfstreamWrapper) : Prop where
  fileInfo : g.fileInfo = some w.fileInfo
  path : w.ofstream.path = s.dir ++ [w.fileInfo.fileName]
  stored : s.Stored w.fileInfo.fileName

structure Sealed (t : Transfers × Verified) : Prop where
  fresh : t.1.Fresh
  blocks : t.1.streams.Blocks
  ownFile : ∀ i g w, t.1.active i = some g → g.outputFile = some w → OwnFile t.1.storage g w
  unfinished : ∀ i g w, t.1.active i = some g → g.outputFile = some w → g.state ≠ .done →
    t.1.storage.existsInternal w.fileInfo.fileName = false
  indexed : ∀ name, t.1.storage.existsInternal name = true → name ∉ t.1.storage.fileTransfer
  files : ∀ p, t.2.files p = true → ∃ name, p = t.1.storage.dir ++ [name] ∧ t.1.storage.Stored name
    ∧ t.1.storage.existsInternal name = true
  fetched_lt : ∀ i, t.2.fetched i = true → i < t.1.next
  fetched : ∀ i g, t.2.fetched i = true → t.1.active i = some g → g.state = .done ∧ g.isDone = true

section Sealed

variable {sha256 : List UInt8 → String} {s s' : StaticStorage} {t t' : Transfers} {η : Verified}

structure Extends (s s' : StaticStorage) : Prop where
  id : s'.id = s.id
  dirs : s'.fs.dirs = s.fs.dirs
  mem : ∀ p ∈ s.fs.files, p ∈ s'.fs.files

theorem Extends.dir (h : Extends s s') : s'.dir = s.dir := by
  rw [StaticStorage.dir, StaticStorage.dir, h.id]

theorem Extends.stored (h : Extends s s') {name : String} (hstored : s.Stored name) :
    s'.Stored name := by
  constructor
  . rw [StaticStorage.fileOf_congr h.id h.dirs, h.dir]
    exact hstored.fileOf
  . exact hstored.database
  . rw [h.dir]
    exact h.mem _ hstored.mem

theorem Extends.ownFile (h : Extends s s') {g : GetFile} {w : OfstreamWrapper}
    (hown : OwnFile s g w) :
    OwnFile s' g w := by
  constructor
  case fileInfo => exact hown.fileInfo
  case path =>
    rw [h.dir]
    exact hown.path
  case stored => exact h.stored hown.stored

theorem Sealed.update {i : Nat} {x : Option GetFile} (h : Sealed (t, η))
    (hactive : t'.active = Function.update t.active i x) (hnext : t.next ≤ t'.next)
    (hfresh : t'.Fresh)
    (hblocks : t'.streams.Blocks) (hextends : Extends t.storage t'.storage)
    (hfiles : t'.storage.files = t.storage.files)
    (hrows : ∀ name ∈ t'.storage.fileTransfer,
      name ∈ t.storage.fileTransfer ∨ t.storage.existsInternal name = false)
    (hx : ∀ g w, x = some g → g.outputFile = some w →
      OwnFile t'.storage g w
      ∧ (g.state ≠ .done → t.storage.existsInternal w.fileInfo.fileName = false))
    (hfetched : ∀ g, x = some g → η.fetched i = false) : Sealed (t', η) := by
  have hexists (name : String) :
    t'.storage.existsInternal name = t.storage.existsInternal name := by
    unfold StaticStorage.existsInternal
    rw [hfiles]
  have hother (j : Nat) (g : GetFile) (hj : t'.active j = some g) :
      (j = i ∧ x = some g) ∨ t.active j = some g := by
    rw [hactive, Function.update_apply] at hj
    split at hj
    . next heq => exact Or.inl ⟨heq, hj⟩
    . exact Or.inr hj
  constructor
  case fresh => exact hfresh
  case blocks => exact hblocks
  case ownFile =>
    intro j g w hj houtput
    rcases hother j g hj with ⟨_, hg⟩ | hg
    . exact (hx g w hg houtput).1
    . exact hextends.ownFile (h.ownFile j g w hg houtput)
  case unfinished =>
    intro j g w hj houtput hstate
    rw [hexists]
    rcases hother j g hj with ⟨_, hg⟩ | hg
    . exact (hx g w hg houtput).2 hstate
    . exact h.unfinished j g w hg houtput hstate
  case indexed =>
    intro name hname hrow
    rw [hexists] at hname
    rcases hrows name hrow with hrow | hnot
    . exact h.indexed name hname hrow
    . rw [hname] at hnot
      cases hnot
  case files =>
    intro p hp
    rcases h.files p hp with ⟨name, hname, hstored, hindex⟩
    rw [hextends.dir]
    exact ⟨name, hname, hextends.stored hstored, (hexists name).trans hindex⟩
  case fetched_lt =>
    intro j hj
    exact Nat.lt_of_lt_of_le (h.fetched_lt j hj) hnext
  case fetched =>
    intro j g hj hg
    rcases hother j g hg with ⟨rfl, hg⟩ | hg
    . rw [hfetched g hg] at hj
      cases hj
    . exact h.fetched j g hj hg

theorem startedVerified_sealed (sha256 : List UInt8 → String) (disk : StaticStorage) :
    Sealed (startedVerified sha256 disk) := by
  have hblocks := OpenStorage.ofDisk_blocks sha256 disk
  constructor
  case fresh =>
    intro i _
    rfl
  case blocks => exact hblocks
  case ownFile =>
    intro i g w hg
    cases hg
  case unfinished =>
    intro i g w hg
    cases hg
  case indexed => exact StaticStorage.restart_indexed sha256 disk
  case files =>
    intro p hp
    cases hp
  case fetched_lt =>
    intro i hi
    cases hi
  case fetched =>
    intro i g hi
    cases hi

theorem Sealed.restart (h : Sealed (t, η)) (hfresh : t'.Fresh) (hblocks : t'.streams.Blocks)
    (hstorage : t'.storage = t.storage.restart sha256) (hactive : ∀ i, t'.active i = none)
    (hnext : t'.next = t.next) : Sealed (t', η) := by
  have hnone {i : Nat} {g : GetFile} (hg : t'.active i = some g) : False := by
    rw [hactive] at hg
    cases hg
  constructor
  case fresh => exact hfresh
  case blocks => exact hblocks
  case ownFile =>
    intro i g w hg
    exact (hnone hg).elim
  case unfinished =>
    intro i g w hg
    exact (hnone hg).elim
  case indexed =>
    dsimp only
    rw [hstorage]
    exact StaticStorage.restart_indexed sha256 t.storage
  case files =>
    intro p hp
    rcases h.files p hp with ⟨name, hname, hstored, hindex⟩
    have hextends : Extends t.storage t'.storage := by
      rcases StaticStorage.restart_eq sha256 t.storage with ⟨files, hrestart⟩
      rw [hstorage, hrestart]
      exact ⟨rfl, rfl, fun _ h => h⟩
    refine ⟨name, hextends.dir.symm ▸ hname, hextends.stored hstored, ?_⟩
    dsimp only
    rw [hstorage, StaticStorage.restart_existsInternal_iff]
    exact StaticStorage.mem_synced hstored.fileOf hstored.mem hstored.database
      (h.indexed name hindex)
  case fetched_lt =>
    intro i hi
    dsimp only
    rw [hnext]
    exact h.fetched_lt i hi
  case fetched =>
    intro i g _ hg
    exact (hnone hg).elim

theorem Sealed.ne_path (h : Sealed (t, η)) {p : AbsPath} (hp : η.files p = true) {name : String}
    (hname : t.storage.existsInternal name = false) : p ≠ t.storage.dir ++ [name] := by
  -- no verified file is written where a file is that is not in the index
  rintro rfl
  rcases h.files _ hp with ⟨name', heq, _, hindex⟩
  have hsame := dir_append_inj heq
  dsimp only at hindex
  rw [← hsame, hname] at hindex
  cases hindex

theorem Sealed.complete (h : Sealed (t, η)) {i : Nat} {g : GetFile} {w : OfstreamWrapper}
    (hg : t.active i = some g) (houtput : g.outputFile = some w)
    (hdone : g.state = .done ∧ g.isDone = true)
    (hexists : t.storage.existsInternal w.fileInfo.fileName = false) (sha256sum : String) :
    Sealed ({ t with storage := t.storage.complete w.fileInfo.fileName sha256sum },
      η.add i (t.storage.fileOf w.fileInfo.fileName)) := by
  -- finalizing the file of an object that is DONE verifies it
  have hown : OwnFile t.storage g w := h.ownFile i g w hg houtput
  have hstreams (j : Nat) (g : GetFile) (w : OfstreamWrapper) (hg : t.active j = some g)
      (houtput : g.outputFile = some w) : t.streams.streams j = some w := by
    simp [streams, hg, houtput]
  have hexists' := t.storage.complete_existsInternal_iff w.fileInfo.fileName sha256sum
  have hextends : Extends t.storage (t.storage.complete w.fileInfo.fileName sha256sum) :=
    ⟨rfl, rfl, fun _ h => h⟩
  constructor
  case fresh => exact h.fresh
  case blocks => exact h.blocks.complete hexists sha256sum
  case ownFile =>
    intro j g w hj hout
    exact hextends.ownFile (h.ownFile j g w hj hout)
  case unfinished =>
    intro j g' w' hj hout hstate
    rw [Bool.eq_false_iff, ne_eq, hexists', not_or]
    have hexistsj := h.unfinished j g' w' hj hout hstate
    dsimp only at hexistsj
    refine ⟨by rw [hexistsj]; simp, ?_⟩
    -- no other stream of the file was left, and this one is DONE
    intro hname
    have hij := h.blocks.exclusive w.fileInfo.fileName i j
      ⟨w, hstreams i g w hg houtput, rfl, hexists⟩ ⟨w', hstreams j g' w' hj hout, hname, hexists⟩
    subst hij
    dsimp only at hj
    rw [hg, Option.some.injEq] at hj
    exact hstate (hj ▸ hdone.1)
  case indexed =>
    intro name hname
    change name ∉ t.storage.fileTransfer.erase w.fileInfo.fileName
    rw [AList.mem_erase]
    rintro ⟨hne, hrow⟩
    rcases (hexists' name).mp hname with hold | heq
    . exact h.indexed name hold hrow
    . exact hne heq
  case files =>
    intro p hp
    simp only [Verified.add, hown.stored.fileOf, Option.elim_some, Function.update_apply] at hp
    split at hp
    . next heq => exact ⟨_, heq, hextends.stored hown.stored, (hexists' _).mpr (Or.inr rfl)⟩
    . rcases h.files p hp with ⟨name, hname, hstored, hindex⟩
      exact ⟨name, hname, hextends.stored hstored, (hexists' name).mpr (Or.inl hindex)⟩
  case fetched_lt =>
    intro j hj
    simp only [Verified.add, Function.update_apply] at hj
    split at hj
    . next heq =>
      rw [heq]
      by_contra hlt
      have hnone := h.fresh i (Nat.not_lt.mp hlt)
      dsimp only at hnone
      rw [hnone] at hg
      cases hg
    . exact h.fetched_lt j hj
  case fetched =>
    intro j g' hj hg'
    simp only [Verified.add, Function.update_apply] at hj
    split at hj
    . next heq =>
      subst heq
      dsimp only at hg'
      rw [hg, Option.some.injEq] at hg'
      exact hg' ▸ hdone
    . exact h.fetched j g' hj hg'

theorem recordVerified_of_files {e : Event} (hstep : t.step sha256 e = some t')
    (hfiles : t'.storage.files = t.storage.files) : recordVerified sha256 t η e = η := by
  unfold recordVerified
  split
  . split
    . next info t'' _ ht'' =>
      rw [hstep, Option.some.injEq] at ht''
      rw [← ht'', StaticStorage.existsInternal, StaticStorage.existsInternal, hfiles,
        Bool.not_and_self]
      rfl
    . rfl
  . rfl

structure Leaves (t t' : Transfers) (η η' : Verified) : Prop where
  isSealed : Sealed (t', η')
  content : ∀ p, η.files p = true → t'.storage.fs.content p = t.storage.fs.content p
  fetched : ∀ i, η.fetched i = true → η'.fetched i = true

theorem Sealed.not_fetched_next (h : Sealed (t, η)) : η.fetched t.next = false := by
  rw [Bool.eq_false_iff]
  intro hfetched
  exact absurd (h.fetched_lt _ hfetched) (Nat.lt_irrefl _)

theorem Sealed.offer_refused (h : Sealed (t, η)) {g : GetFile} (houtput : g.outputFile = none)
    (hstorage : t'.storage = t.storage)
    (hactive : t'.active = Function.update t.active t.next (some g))
    (hnext : t.next ≤ t'.next) (hfresh : t'.Fresh) (hblocks : t'.streams.Blocks) :
    Leaves t t' η η := by
  refine ⟨?_, fun p _ => by rw [hstorage], fun _ h => h⟩
  apply h.update hactive hnext hfresh hblocks
  . rw [hstorage]
    exact ⟨rfl, rfl, fun _ h => h⟩
  . rw [hstorage]
  . intro name hname
    exact Or.inl (hstorage ▸ hname)
  . intro g' w hg hw
    rw [Option.some.injEq] at hg
    rw [← hg, houtput] at hw
    cases hw
  . exact fun _ _ => h.not_fetched_next

theorem Sealed.offer_opened (h : Sealed (t, η)) {fi : FileInfo} {opened : FileSystem × Ofstream}
    {g : GetFile} (hplain : t.storage.Plain fi.fileName)
    (hexists : t.storage.existsInternal fi.fileName = false)
    (hblocked : t.storage.isBlockedInternal fi.fileName = false)
    (hopen : t.storage.openOutput fi.fileName = some opened)
    (hinfo : g.fileInfo = some (t.storage.resumeInfo fi))
    (houtput : g.outputFile = some (t.storage.register (t.storage.resumeInfo fi) opened).2)
    (hstorage : t'.storage = (t.storage.register (t.storage.resumeInfo fi) opened).1)
    (hactive : t'.active = Function.update t.active t.next (some g)) (hnext : t.next ≤ t'.next)
    (hfresh : t'.Fresh) (hblocks : t'.streams.Blocks) : Leaves t t' η η := by
  have hname := hplain hexists hblocked (StaticStorage.openable_iff.mpr ⟨opened, hopen⟩)
  have hpath : opened.2.path = t.storage.dir ++ [fi.fileName] := by
    rw [StaticStorage.openOutput_path hopen, Option.some.injEq] at hname
    exact hname.1
  have hextends : Extends t.storage t'.storage := by
    rw [hstorage]
    exact ⟨rfl, rfl, fun p hp => StaticStorage.mem_openOutput_files hopen (Or.inr hp)⟩
  refine ⟨?_, ?_, fun _ h => h⟩
  . apply h.update hactive hnext hfresh hblocks hextends
    . rw [hstorage]
      rfl
    . intro name hrow
      rw [hstorage] at hrow
      rcases FileTransferTable.mem_insertOrIgnore.mp hrow with heq | hrow
      . right
        rw [heq, StaticStorage.resumeInfo_fileName]
        exact hexists
      . exact Or.inl hrow
    . intro g' w hg hw
      rw [Option.some.injEq] at hg
      rw [← hg, houtput, Option.some.injEq] at hw
      have hwinfo : w.fileInfo = t.storage.resumeInfo fi := by rw [← hw]; rfl
      have hfileName : w.fileInfo.fileName = fi.fileName := by
        rw [hwinfo, StaticStorage.resumeInfo_fileName]
      refine ⟨⟨?_, ?_, ?_⟩, fun _ => hfileName.symm ▸ hexists⟩
      . rw [← hg, hinfo, hwinfo]
      . rw [hextends.dir, hfileName, ← hpath, ← hw]
        exact Ofstream.seekp_path _ _
      . rw [hfileName]
        constructor
        case fileOf =>
          rw [StaticStorage.fileOf_congr hextends.id hextends.dirs, hextends.dir]
          exact hname.1
        case database => exact hname.2
        case mem =>
          rw [hextends.dir, ← hpath, hstorage]
          exact StaticStorage.mem_openOutput_files hopen (Or.inl rfl)
    . exact fun _ _ => h.not_fetched_next
  . intro p hp
    rw [hstorage, StaticStorage.register_content]
    apply StaticStorage.openOutput_content_of_ne hopen
    rw [hpath]
    exact h.ne_path hp hexists

theorem Sealed.offer (h : Sealed (t, η)) {target : Peer} {fi : FileInfo} {transactionId : String}
    (hplain : t.storage.Plain fi.fileName)
    (hstep : t.step sha256 (.offer target fi transactionId) = some t') : Leaves t t' η η := by
  have hfresh : t'.Fresh := Fresh.step h.fresh hstep
  have hblocks := streams_blocks h.blocks h.fresh hstep
  simp only [Transfers.step, Transfers.offer, Option.some.injEq] at hstep
  split at hstep
  . subst hstep
    exact ⟨h, fun _ _ => rfl, fun _ h => h⟩
  . have hactive := congrArg active hstep.symm
    have hstorage := congrArg storage hstep.symm
    have hnext : t.next ≤ t'.next := by
      rw [← hstep]
      exact Nat.le_succ _
    rcases t.storage.createFile_cases fi with ⟨_, hsame, hnone⟩ | ⟨hexists, hblocked, opened, hopen⟩
    . have hrequest := GetFile.createRequest_of_none target transactionId hnone
      rw [hrequest.1, hsame] at hstorage
      exact h.offer_refused hrequest.2 hstorage hactive hnext hfresh hblocks
    . have hrequest := GetFile.createRequest_of_some target transactionId
        (StaticStorage.createFile_of_openOutput hexists hblocked hopen)
      rw [hrequest.1] at hstorage
      exact h.offer_opened hplain hexists hblocked hopen hrequest.2.2 hrequest.2.1 hstorage
        hactive hnext hfresh hblocks

theorem Sealed.write (h : Sealed (t, η)) {i : Nat} {g : GetFile} {w : OfstreamWrapper}
    (hg : t.active i = some g) (houtput : g.outputFile = some w) (hstate : g.state ≠ .done)
    (chunk : FileChunk) (g' : GetFile) (hinfo : g'.fileInfo = g.fileInfo)
    (hwritten : g'.outputFile = some (w.write t.storage chunk).2) :
    Leaves t { t with
      storage := (w.write t.storage chunk).1
      active := Function.update t.active i (some g') } η η := by
  -- a chunk that goes to an object which is not DONE leaves the verified files
  have hown : OwnFile t.storage g w := h.ownFile i g w hg houtput
  have hexists : t.storage.existsInternal w.fileInfo.fileName = false :=
    h.unfinished i g w hg houtput hstate
  have hextends : Extends t.storage (w.write t.storage chunk).1 :=
    ⟨rfl, rfl, fun _ hp => w.mem_write_files t.storage chunk hp⟩
  refine ⟨?_, ?_, fun _ h => h⟩
  . refine h.update rfl (Nat.le_refl _) ?_ ?_ hextends rfl ?_ ?_ ?_
    . intro j hj
      have hij : j ≠ i := by
        rintro rfl
        rw [h.fresh j hj] at hg
        cases hg
      exact (Function.update_of_ne hij _ _).trans (h.fresh j hj)
    . refine OpenStorage.Blocks.congr (h.blocks.write (write_streams hg houtput chunk)) rfl ?_
      rw [streams_of_update (t := t) rfl, Option.bind_some, hwritten]
    . intro name hrow
      exact Or.inl (FileTransferTable.mem_setBytesWritten.mp hrow)
    . intro g'' w' hg'' houtput'
      cases hg''
      rw [hwritten, Option.some.injEq] at houtput'
      subst houtput'
      refine ⟨?_, fun _ => hexists⟩
      constructor
      case fileInfo =>
        rw [hinfo]
        exact hown.fileInfo
      case path =>
        rw [OfstreamWrapper.write_path, hextends.dir]
        exact hown.path
      case stored => exact hextends.stored hown.stored
    . intro g'' _
      rw [Bool.eq_false_iff]
      intro hfetched
      exact hstate (h.fetched i g hfetched hg).1
  . intro p hp
    apply w.write_content_of_ne
    rw [hown.path]
    exact h.ne_path hp hexists

theorem Sealed.handleResponse (h : Sealed (t, η)) {i : Nat} {response : RequestObject}
    (hcond : ∀ g, t.active i = some g → g.state ≠ .done)
    (hstep : t.step sha256 (.response i response) = some t') :
    Leaves t t' η (recordVerified sha256 t η (.response i response)) := by
  have hrecord := recordVerified_of_files (η := η) hstep
  have hstep' := hstep
  simp only [Transfers.step, Transfers.handleResponse, Option.bind_eq_bind, Option.bind_eq_some_iff,
    Option.pure_def, Option.some.injEq] at hstep'
  rcases hstep' with ⟨g, hg, handled, hhandled, hstep'⟩
  cases GetFile.handleResponse_receives hhandled with
  | refused haccepts =>
    have hfresh : t'.Fresh := Fresh.step h.fresh hstep
    have hblocks := streams_blocks h.blocks h.fresh hstep
    subst hstep'
    rw [hrecord rfl]
    refine ⟨?_, fun p _ => rfl, fun _ h => h⟩
    refine h.update rfl (Nat.le_refl _) hfresh hblocks ⟨rfl, rfl, fun _ h => h⟩ rfl ?_ ?_ ?_
    . intro name hrow
      exact Or.inl hrow
    . intro g' w hg' houtput
      cases hg'
      have hown := h.ownFile i g w hg houtput
      exact ⟨⟨hown.fileInfo, hown.path, hown.stored⟩,
        fun _ => h.unfinished i g w hg houtput (hcond g hg)⟩
    . intro _ _
      rw [Bool.eq_false_iff]
      intro hfetched
      exact hcond g hg (h.fetched i g hfetched hg).1
  | written w chunk haccepts =>
    subst hstep'
    rw [hrecord rfl]
    exact h.write hg (GetFile.accepts_outputFile haccepts) (hcond g hg) chunk _ rfl rfl
  | finalized w chunk info haccepts hinfo =>
    have houtput := GetFile.accepts_outputFile haccepts
    have hown : OwnFile t.storage g w := h.ownFile i g w hg houtput
    have hname : info = w.fileInfo := by
      rw [hown.fileInfo, Option.some.injEq] at hinfo
      exact hinfo.symm
    subst hname
    cases hresult : ((w.write t.storage chunk).1.finalizeFile sha256 w.fileInfo).2 with
    | false =>
      have hsame := ((w.write t.storage chunk).1.finalizeFile_checked sha256 w.fileInfo).unchanged
        hresult
      simp only [hresult, hsame] at hstep'
      subst hstep'
      rw [hrecord rfl]
      exact h.write hg houtput (hcond g hg) chunk _ rfl rfl
    | true =>
      rcases StaticStorage.finalizeFile_of_true hresult with ⟨hexists, _, hcomplete⟩
      simp only [hcomplete, if_true] at hstep'
      have hwrite := h.write hg houtput (hcond g hg) chunk
        ({ g with outputFile := some (w.write t.storage chunk).2 }.finish .done) rfl rfl
      have hcompleted :=
        hwrite.isSealed.complete (Function.update_self i _ _) rfl ⟨rfl, rfl⟩ hexists
        w.fileInfo.sha256sum
      have hrecorded : recordVerified sha256 t η (.response i response) =
          η.add i (t.storage.fileOf w.fileInfo.fileName) := by
        have hexists' : t'.storage.existsInternal w.fileInfo.fileName = true := by
          rw [← hstep']
          exact StaticStorage.complete_existsInternal _ _ _
        have hfree : t.storage.existsInternal w.fileInfo.fileName = false := hexists
        simp only [recordVerified, hg, Option.bind_some, hinfo, hstep, hfree, hexists',
          Bool.not_false, Bool.and_self, if_true]
      rw [hrecorded]
      subst hstep'
      refine ⟨?_, hwrite.content, ?_⟩
      . rw [← OfstreamWrapper.write_fileOf t.storage w chunk]
        exact hcompleted
      . intro j hj
        simp only [Verified.add, Function.update_apply]
        split
        . rfl
        . exact hj

theorem Sealed.destroy (h : Sealed (t, η)) {i : Nat}
    (hstep : t.step sha256 (.destroy i) = some t') :
    Leaves t t' η η := by
  have hfresh : t'.Fresh := Fresh.step h.fresh hstep
  have hblocks := streams_blocks h.blocks h.fresh hstep
  simp only [Transfers.step, Transfers.destroy, Option.bind_eq_bind, Option.bind_eq_some_iff,
    Option.pure_def, Option.some.injEq] at hstep
  rcases hstep with ⟨g, hg, rfl⟩
  have hstorage : ∃ blockedFiles, g.outputFile.elim t.storage (·.destroy t.storage) =
      { t.storage with blockedFiles := blockedFiles } := by
    cases g.outputFile with
    | none => exact ⟨_, rfl⟩
    | some w => exact ⟨_, rfl⟩
  rcases hstorage with ⟨blockedFiles, hstorage⟩
  simp only [hstorage] at hfresh hblocks ⊢
  refine ⟨?_, fun _ _ => rfl, fun _ h => h⟩
  refine h.update rfl (Nat.le_refl _) hfresh hblocks ⟨rfl, rfl, fun _ h => h⟩ rfl ?_ ?_ ?_
  . intro name hrow
    exact Or.inl hrow
  . intro _ _ hnone
    cases hnone
  . intro _ hnone
    cases hnone

theorem Sealed.step {e : Event} (h : Sealed (t, η)) (hcond : NoneAfterDone (t, η) e)
    (hstep : t.step sha256 e = some t') : Leaves t t' η (recordVerified sha256 t η e) := by
  cases e with
  | offer target fileInfo transactionId => exact h.offer hcond hstep
  | response i response => exact h.handleResponse hcond hstep
  | destroy i => exact h.destroy hstep
  | restart =>
    have hfresh : t'.Fresh := Fresh.step h.fresh hstep
    have hblocks := streams_blocks h.blocks h.fresh hstep
    cases hstep
    refine ⟨h.restart hfresh hblocks rfl (fun _ => rfl) rfl, ?_, fun _ h => h⟩
    intro p _
    rcases StaticStorage.restart_eq sha256 t.storage with ⟨files, hrestart⟩
    rw [hrestart]

theorem Sealed.keepsVerified {t : Transfers × Verified} {e : Event} (h : Sealed t)
    (hcond : NoneAfterDone t e) :
    KeepsVerified sha256 t e := by
  intro t' hstep
  have hleaves := h.step hcond hstep
  refine ⟨hleaves.content, ?_⟩
  intro i g hi
  exact hleaves.isSealed.fetched i g (hleaves.fetched i hi)

end Sealed

theorem keepsVerified_along (sha256 : List UInt8 → String) (disk : StaticStorage)
    (events : List Event)
    (hcond : Run.Along (stepWithVerified sha256) NoneAfterDone
      (startedVerified sha256 disk) events) :
    Run.Along (stepWithVerified sha256) (KeepsVerified sha256)
      (startedVerified sha256 disk) events := by
  have hsealed := startedVerified_sealed sha256 disk
  apply Run.along_invariant _ _ hsealed hcond
  . intro t e t' h hcond hstep
    rw [stepWithVerified, Run.observe_eq_some] at hstep
    rcases t' with ⟨t', η'⟩
    simp only at hstep
    rw [hstep.2]
    exact (h.step hcond hstep.1).isSealed
  . intro t e h hcond
    exact h.keepsVerified hcond

theorem keepsVerified_along_oneByte :
    let peer : Peer := ⟨"cd", "127.0.0.1", "1338"⟩
    let chunk : RequestObject :=
      ⟨⟨⟨false, 0, 0, "get_file", "", "", "", ""⟩, [], [], "", some ⟨1, 0, [104]⟩⟩, .peer peer⟩
    Run.Along (stepWithVerified fun _ => "") (KeepsVerified fun _ => "")
      (startedVerified (fun _ => "") (StaticStorage.init "ab" (by decide)))
      [.offer peer ⟨"note", "", 1, 0⟩ "t", .response 0 chunk, .destroy 0] := by
  intro peer chunk
  let start : Transfers × Verified :=
    startedVerified (fun _ => "") (StaticStorage.init "ab" (by decide))
  apply keepsVerified_along
  refine ⟨?_, fun t₁ h₁ => ⟨?_, fun _ _ => ⟨trivial, fun _ _ => trivial⟩⟩⟩
  . intro _ _ _
    decide
  . intro g hg
    have hstate : (stepWithVerified (fun _ => "") start (.offer peer ⟨"note", "", 1, 0⟩ "t")).map
        (fun t => (t.1.active 0).map (·.state)) = some (some .valid) := by
      decide
    rw [h₁, Option.map_some, hg, Option.map_some, Option.some.injEq, Option.some.injEq] at hstate
    rw [hstate]
    simp

/--
A peer that sends the chunk of a file a second time with another byte changes the file, which had
passed the check.
-/
theorem not_keepsVerified_along :
    let peer : Peer := ⟨"cd", "127.0.0.1", "1338"⟩
    let chunk (byte : UInt8) : RequestObject :=
      ⟨⟨⟨false, 0, 0, "get_file", "", "", "", ""⟩, [], [], "", some ⟨1, 0, [byte]⟩⟩, .peer peer⟩
    ¬ Run.Along (stepWithVerified fun _ => "") (KeepsVerified fun _ => "")
      (startedVerified (fun _ => "") (StaticStorage.init "ab" (by decide)))
      [.offer peer ⟨"note", "", 1, 0⟩ "t", .response 0 (chunk 104), .response 0 (chunk 105)] := by
  intro peer chunk hkeeps
  let note : AbsPath := ["tmp", "peerpaste", "ab", "note"]
  let start : Transfers × Verified :=
    startedVerified (fun _ => "") (StaticStorage.init "ab" (by decide))
  let events : List Event := [.offer peer ⟨"note", "", 1, 0⟩ "t", .response 0 (chunk 104)]
  have hreached : (Run.exec (stepWithVerified fun _ => "") start events).map
      (fun t => (t.2.files note, t.1.storage.fs.content note,
        (t.1.step (fun _ => "") (.response 0 (chunk 105))).map (·.storage.fs.content note))) =
        some (true, [104], some [105]) := by
    decide
  rcases Option.map_eq_some_iff.mp hreached with ⟨t, ht, heq⟩
  simp only [Prod.mk.injEq, Option.map_eq_some_iff] at heq
  rcases heq with ⟨hfiles, hbefore, t', hstep, hafter⟩
  have hsame := (Run.Along.of_exec events hkeeps ht t' hstep).1 note hfiles
  rw [hbefore, hafter] at hsame
  cases hsame

end Transfers

end Peerpaste
