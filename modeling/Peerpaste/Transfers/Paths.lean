import Peerpaste.Transfers.Basic

/-!
This module contains where the files that a node writes are: which names of files from a broadcast
stay in the directory of the store and off its database.
-/

namespace Peerpaste

open FileSystem

namespace StaticStorage

variable {s : StaticStorage} {fi : FileInfo} {name : String}

/--
A file that `create_file` opens lies directly in the directory of the store and is not part of the
database. Without a file nothing changes.
-/
def StaysInside (s : StaticStorage) (fi : FileInfo) : Prop :=
  match (s.createFile fi).2.2 with
  | none => (s.createFile fi).1 = s
  | some output => ∃ name, output.ofstream.path = s.dir ++ [name] ∧ name ∉ databaseFiles

def Openable (s : StaticStorage) (name : String) : Prop :=
  ∃ p, s.fileOf name = some p ∧ (name ∈ s.fileTransfer → p ∈ s.fs.files)

/--
The name does not leave the directory of the store before its last part, or comes back to it, and
that part is no file of the database.
-/
def LeadsInside (s : StaticStorage) (name : String) : Prop :=
  s.fs.walk s.dir (components name).dropLast = some s.dir ∧ lastName name ∉ databaseFiles

def Plain (s : StaticStorage) (name : String) : Prop :=
  s.existsInternal name = false → s.isBlockedInternal name = false → s.Openable name →
    s.fileOf name = some (s.dir ++ [name]) ∧ name ∉ databaseFiles

theorem leadsInside_of_isName (hname : IsName name) :
    s.LeadsInside name ↔ name ∉ databaseFiles := by
  unfold LeadsInside
  rw [hname.1, hname.lastName_eq]
  simp

theorem openable_iff : s.Openable name ↔ ∃ opened, s.openOutput name = some opened := by
  unfold Openable openOutput
  constructor
  . rintro ⟨p, hp, hrow⟩
    split
    . rename_i hmem
      exact ⟨(s.fs, { path := p }), Ofstream.openInOut_eq_some.mpr ⟨hp, hrow hmem, rfl, rfl⟩⟩
    . exact ⟨(s.fs.put p [], { path := p }), Ofstream.openTrunc_eq_some.mpr ⟨hp, rfl, rfl⟩⟩
  . rintro ⟨⟨fs, o⟩, hopen⟩
    split at hopen
    . have h := Ofstream.openInOut_eq_some.mp hopen
      exact ⟨o.path, h.1, fun _ => h.2.1⟩
    . rename_i hmem
      have h := Ofstream.openTrunc_eq_some.mp hopen
      exact ⟨o.path, h.1, fun hmem' => absurd hmem' hmem⟩

theorem fileOf_inside_iff {p : AbsPath} (hp : s.fileOf name = some p) :
    (∃ child, p = s.dir ++ [child] ∧ child ∉ databaseFiles) ↔ s.LeadsInside name := by
  rw [fileOf_eq, Option.bind_eq_some_iff] at hp
  rcases hp with ⟨dir, hwalk, hfile⟩
  rw [fileIn_eq_some] at hfile
  rcases hfile with ⟨-, rfl⟩
  unfold LeadsInside
  rw [hwalk, Option.some.injEq]
  constructor
  . rintro ⟨child, hpath, hchild⟩
    have hparts := List.append_inj' hpath rfl
    rw [List.singleton_inj] at hparts
    exact ⟨hparts.1, hparts.2 ▸ hchild⟩
  . rintro ⟨hdir, hchild⟩
    exact ⟨lastName name, by rw [hdir], hchild⟩

theorem staysInside_iff :
    s.StaysInside fi
      ↔
    (s.existsInternal fi.fileName = false → s.isBlockedInternal fi.fileName = false →
      s.Openable fi.fileName → s.LeadsInside fi.fileName) := by
  rw [openable_iff]
  rcases s.createFile_cases fi with ⟨hrefused, hstorage, hnone⟩ | ⟨hexists, hblocked, opened, hopen⟩
  . unfold StaysInside
    rw [hnone]
    simp only [hstorage, true_iff]
    intro hexists hblocked hopen
    rcases hopen with ⟨opened, hopen⟩
    rcases hrefused with h | h | h
    . simp [hexists] at h
    . simp [hblocked] at h
    . simp [hopen] at h
  . unfold StaysInside
    rw [createFile_of_openOutput hexists hblocked hopen]
    simp only [register_path]
    rw [fileOf_inside_iff (openOutput_path hopen)]
    simp [hexists, hblocked, hopen]

end StaticStorage

namespace Transfers

def StaysInside (t : Transfers) : Event → Prop
  | .offer _ fileInfo _ => t.storage.StaysInside fileInfo
  | _ => True

def OffersInside (t : Transfers) : Event → Prop
  | .offer _ fileInfo _ =>
    t.storage.existsInternal fileInfo.fileName = false →
      t.storage.isBlockedInternal fileInfo.fileName = false →
        t.storage.Openable fileInfo.fileName → t.storage.LeadsInside fileInfo.fileName
  | _ => True

theorem staysInside_along_iff (sha256 : List UInt8 → String) (t : Transfers) (events : List Event) :
    Run.Along (step sha256) StaysInside t events
    ↔ Run.Along (step sha256) OffersInside t events := by
  apply Run.along_congr (fun (_ : Transfers) _ _ _ _ => True.intro)
  . intro t e _
    cases e with
    | offer target fileInfo transactionId => exact StaticStorage.staysInside_iff
    | response i response => exact Iff.rfl
    | destroy i => exact Iff.rfl
    | restart => exact Iff.rfl
  . trivial

/--
A peer that names a file in the parent directory writes there.
-/
theorem not_staysInside_along :
    ¬ Run.Along (step fun _ => "") StaysInside (ofStorage (StaticStorage.init "ab" (by decide)))
      [.offer ⟨"cd", "127.0.0.1", "1338"⟩ ⟨"../note", "", 3, 0⟩ "t"] := by
  rintro ⟨h, -⟩
  have hpath :
      ((StaticStorage.init "ab" (by decide)).createFile ⟨"../note", "", 3, 0⟩).2.2.map
          (·.ofstream.path) = some ["tmp", "peerpaste", "note"] := by
    decide
  rw [Option.map_eq_some_iff] at hpath
  rcases hpath with ⟨output, houtput, hpath⟩
  simp only [StaysInside, StaticStorage.StaysInside, ofStorage, houtput, hpath] at h
  rcases h with ⟨name, hname, -⟩
  simp [StaticStorage.dir, StaticStorage.storageDir, StaticStorage.init] at hname

end Transfers

end Peerpaste
