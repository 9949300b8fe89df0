import Peerpaste.Transfers.History
import Peerpaste.Transfers.Paths

/-!
This module contains what the transfers of a node keep when none of them mixes versions: every
stream has its name and its file for itself and stands behind bytes of its own version.
-/

namespace Peerpaste

open FileSystem

namespace Transfers

def Live (t : Transfers) (i : Nat) (w : OfstreamWrapper) : Prop :=
  ∃ g, t.active i = some g ∧ g.outputFile = some w ∧ g.fileInfo = some w.fileInfo

def InUse (t : Transfers) (name : String) : Prop :=
  name ∈ t.storage.fileTransfer ∨ ∃ i w, t.Live i w ∧ w.fileInfo.fileName = name

def OwnsFile (t : Transfers) (name : String) : Prop :=
  ∀ p, t.storage.fileOf name = some p →
    (∀ db ∈ StaticStorage.databaseFiles, p ≠ t.storage.dir ++ [db])
      ∧ ∀ name', t.InUse name' → t.storage.fileOf name' = some p → name' = name

/--
An offer that would be accepted either starts a file at its beginning or goes on with the last
version of the name, and a chunk leaves no gap behind the bytes that the transfer has written.
-/
def GoesOn (t : Transfers × History) : Event → Prop
  | .offer _ fileInfo _ =>
    t.1.storage.existsInternal fileInfo.fileName = false →
      t.1.storage.isBlockedInternal fileInfo.fileName = false →
        t.1.storage.Openable fileInfo.fileName →
          t.1.OwnsFile fileInfo.fileName
            ∧
          match t.1.storage.fileTransfer.lookup fileInfo.fileName with
          | none => fileInfo.offset = 0
          | some row => 0 < row.bytesWritten →
            t.2.current fileInfo.fileName = some ⟨fileInfo.sha256sum, false⟩
  | .response i response =>
    ∀ g w chunk, t.1.active i = some g → g.accepts response = some (w, chunk) →
      chunk.offset ≤ w.ofstream.pos
  | _ => True

/--
What a run without the gaps and mixed versions keeps: every stream has its name and its file for
itself, and stands behind bytes of its version, as does every recorded offset.
-/
structure Tracked (t : Transfers × History) : Prop where
  live : ∀ i g w, t.1.active i = some g → g.outputFile = some w → t.1.Live i w
  fileOf : ∀ i w, t.1.Live i w → t.1.storage.fileOf w.fileInfo.fileName = some w.ofstream.path
  token_lt : ∀ i w, t.1.Live i w → w.token < t.1.storage.nextToken
  token_inj : ∀ i j w w', t.1.Live i w → t.1.Live j w' → w.token = w'.token → i = j
  name_inj : ∀ i j w w', t.1.Live i w → t.1.Live j w' → w.fileInfo.fileName = w'.fileInfo.fileName →
    i = j
  locked : ∀ i w, t.1.Live i w → t.1.storage.existsInternal w.fileInfo.fileName = true
    ∨ ⟨w.fileInfo.fileName, w.token, true⟩ ∈ t.1.storage.blockedFiles
  apart : ∀ name name' p, t.1.InUse name → t.1.InUse name' → t.1.storage.fileOf name = some p →
    t.1.storage.fileOf name' = some p → name = name'
  position : ∀ i w, t.1.Live i w →
    t.2.Backs w.ofstream.path w.fileInfo.fileName w.fileInfo.sha256sum w.ofstream.pos
  row : ∀ name row p, t.1.storage.fileTransfer.lookup name = some row →
    t.1.storage.fileOf name = some p →
    0 < row.bytesWritten → ∃ sha256sum, t.2.Backs p name sha256sum row.bytesWritten

variable {sha256 : List UInt8 → String} {t t' : Transfers × History} {e : Event}

theorem Live.fileInfo {t : Transfers} {i : Nat} {g : GetFile} {w : OfstreamWrapper} (h : t.Live i w)
    (hg : t.active i = some g) : g.fileInfo = some w.fileInfo := by
  rcases h with ⟨g', hg', -, hinfo⟩
  rw [hg] at hg'
  cases hg'
  exact hinfo

theorem inUse_of_lookup {t : Transfers} {name : String} {row : FileTransfer}
    (h : t.storage.fileTransfer.lookup name = some row) : t.InUse name := by
  left
  rw [← AList.lookup_isSome, h]
  rfl

theorem not_live_ofStorage (s : StaticStorage) (i : Nat) (w : OfstreamWrapper) :
    ¬ (ofStorage s).Live i w := by
  rintro ⟨g, hg, -⟩
  cases hg

theorem not_inUse_ofStorage {s : StaticStorage} (hrows : s.fileTransfer = ∅) (name : String) :
    ¬ (ofStorage s).InUse name := by
  rintro (hmem | ⟨i, w, hi, -⟩)
  . simp only [ofStorage, hrows] at hmem
    exact AList.notMem_empty name hmem
  . exact not_live_ofStorage s i w hi

theorem ofStorage_tracked {s : StaticStorage} (hrows : s.fileTransfer = ∅) :
    Tracked (ofStorage s, History.empty) := by
  have hlive := not_live_ofStorage s
  have huse := not_inUse_ofStorage hrows
  constructor
  case live => exact fun i g w hg => nomatch hg
  case fileOf => exact fun i w hi => absurd hi (hlive i w)
  case token_lt => exact fun i w hi => absurd hi (hlive i w)
  case token_inj => exact fun i j w w' hi => absurd hi (hlive i w)
  case name_inj => exact fun i j w w' hi => absurd hi (hlive i w)
  case locked => exact fun i w hi => absurd hi (hlive i w)
  case apart => exact fun name name' p hname => absurd hname (huse name)
  case position => exact fun i w hi => absurd hi (hlive i w)
  case row => exact fun name row p hrow => absurd (inUse_of_lookup hrow) (huse name)

theorem live_of_update {t t' : Transfers} {i j : Nat} {x : Option GetFile} {w : OfstreamWrapper}
    (hactive : t'.active = Function.update t.active i x) (h : t'.Live j w) :
    (j = i ∧ ∃ g, x = some g ∧ g.outputFile = some w ∧ g.fileInfo = some w.fileInfo)
      ∨
    (j ≠ i ∧ t.Live j w) := by
  rcases h with ⟨g, hg, houtput, hinfo⟩
  rw [hactive] at hg
  by_cases hj : j = i
  . subst hj
    rw [Function.update_self] at hg
    exact Or.inl ⟨rfl, g, hg, houtput, hinfo⟩
  . rw [Function.update_of_ne hj] at hg
    exact Or.inr ⟨hj, g, hg, houtput, hinfo⟩

theorem live_of_update_some {t t' : Transfers} {i j : Nat} {g : GetFile} {w w' : OfstreamWrapper}
    (hactive : t'.active = Function.update t.active i (some g)) (houtput : g.outputFile = some w)
    (h : t'.Live j w') : (j = i ∧ w' = w) ∨ (j ≠ i ∧ t.Live j w') := by
  rcases live_of_update hactive h with ⟨rfl, g', hg', hw, -⟩ | hold
  . cases hg'
    rw [houtput] at hw
    cases hw
    exact Or.inl ⟨rfl, rfl⟩
  . exact Or.inr hold

theorem live_update {t t' : Transfers} {i : Nat} {x : Option GetFile}
    (hactive : t'.active = Function.update t.active i x)
    (hlive : ∀ j g w, t.active j = some g → g.outputFile = some w → t.Live j w)
    (hnew : ∀ g w, x = some g → g.outputFile = some w → g.fileInfo = some w.fileInfo) :
    ∀ j g w, t'.active j = some g → g.outputFile = some w → t'.Live j w := by
  intro j g w hj hw
  have hold := hj
  rw [hactive] at hold
  by_cases hji : j = i
  . subst hji
    rw [Function.update_self] at hold
    exact ⟨g, hj, hw, hnew g w hold hw⟩
  . rw [Function.update_of_ne hji] at hold
    exact ⟨g, hj, hw, (hlive j g w hold hw).fileInfo hold⟩

theorem Tracked.of_update {t t' : Transfers} {η : History} {i : Nat} {x : Option GetFile}
    (h : Tracked (t, η)) (hstorage : t'.storage = t.storage)
    (hactive : t'.active = Function.update t.active i x)
    (hnew : ∀ g w, x = some g → g.outputFile = some w →
      ∃ g', t.active i = some g' ∧ g'.outputFile = some w ∧ g.fileInfo = g'.fileInfo) :
    Tracked (t', η) := by
  have hlive (j : Nat) (w : OfstreamWrapper) (hj : t'.Live j w) : t.Live j w := by
    rcases live_of_update hactive hj with ⟨rfl, g, hg, hw, hinfo⟩ | ⟨-, hold⟩
    . rcases hnew g w hg hw with ⟨g', hg', hw', hinfo'⟩
      exact ⟨g', hg', hw', hinfo'.symm.trans hinfo⟩
    . exact hold
  have huse (name : String) (hname : t'.InUse name) : t.InUse name := by
    rcases hname with hmem | ⟨j, w, hj, hw⟩
    . exact Or.inl (hstorage ▸ hmem)
    . exact Or.inr ⟨j, w, hlive j w hj, hw⟩
  constructor
  case live =>
    apply live_update hactive h.live
    intro g w hg hw
    rcases hnew g w hg hw with ⟨g', hg', hw', hinfo'⟩
    exact hinfo'.trans ((h.live i g' w hg' hw').fileInfo hg')
  case fileOf =>
    intro j w hj
    rw [hstorage]
    exact h.fileOf j w (hlive j w hj)
  case token_lt =>
    intro j w hj
    rw [hstorage]
    exact h.token_lt j w (hlive j w hj)
  case token_inj =>
    intro j k w w' hj hk
    exact h.token_inj j k w w' (hlive j w hj) (hlive k w' hk)
  case name_inj =>
    intro j k w w' hj hk
    exact h.name_inj j k w w' (hlive j w hj) (hlive k w' hk)
  case locked =>
    intro j w hj
    rw [hstorage]
    exact h.locked j w (hlive j w hj)
  case apart =>
    intro name name' p hname hname'
    rw [hstorage]
    exact h.apart name name' p (huse name hname) (huse name' hname')
  case position =>
    intro j w hj
    exact h.position j w (hlive j w hj)
  case row =>
    intro name row p
    rw [hstorage]
    exact h.row name row p

section Offer

variable {η : History} {fi : FileInfo} {opened : FileSystem × Ofstream}

def accepted (t : Transfers) (η : History) (fi : FileInfo) (p : AbsPath) : History :=
  (if fi.fileName ∈ t.storage.fileTransfer then η else η.truncate p).start (t.storage.resumeInfo fi)

theorem backs_accepted_of_ne {t : Transfers} {p p' : AbsPath} {name sha256sum : String} {k : Nat}
    (h : η.Backs p' name sha256sum k) (hname : name ≠ fi.fileName) (hp : p' ≠ p) :
    (accepted t η fi p).Backs p' name sha256sum k := by
  unfold accepted
  apply History.Backs.start _ (by rw [StaticStorage.resumeInfo_fileName]; exact hname)
  split
  . exact h
  . exact h.truncate hp

theorem Tracked.backs_accepted {t : Transfers} (h : Tracked (t, η))
    (hpath : t.storage.fileOf fi.fileName = some opened.2.path)
    (hoffset : match t.storage.fileTransfer.lookup fi.fileName with
      | none => fi.offset = 0
      | some row => 0 < row.bytesWritten → η.current fi.fileName = some ⟨fi.sha256sum, false⟩) :
    (accepted t η fi opened.2.path).Backs opened.2.path fi.fileName fi.sha256sum
      (t.storage.resumeInfo fi).offset := by
  -- the bytes before the offset that an accepted offer starts at belong to its version
  have hname := StaticStorage.resumeInfo_fileName t.storage fi
  have hsha256 := StaticStorage.resumeInfo_sha256sum t.storage fi
  have hzero (η : History) := History.backs_start_zero η opened.2.path (t.storage.resumeInfo fi)
  rw [hname, hsha256] at hzero
  cases hrow : t.storage.fileTransfer.lookup fi.fileName with
  | none =>
    rw [hrow] at hoffset
    have hresume : (t.storage.resumeInfo fi).offset = 0 := by
      rw [StaticStorage.resumeInfo, hrow]
      exact hoffset
    rw [hresume]
    exact hzero _
  | some row =>
    rw [hrow] at hoffset
    have hresume : (t.storage.resumeInfo fi).offset = row.bytesWritten := by
      rw [StaticStorage.resumeInfo, hrow]
    have hmem : fi.fileName ∈ t.storage.fileTransfer := by
      rw [← AList.lookup_isSome, hrow]
      rfl
    rw [hresume]
    by_cases hpos : 0 < row.bytesWritten
    . rcases h.row fi.fileName row _ hrow hpath hpos with ⟨sha256sum, hbacks⟩
      have hstart := History.Backs.start_self (t.storage.resumeInfo fi) (hname ▸ hbacks)
        (by rw [hname, hsha256]; exact hoffset hpos)
      rw [hname, hsha256] at hstart
      rw [accepted, if_pos hmem]
      exact hstart
    . rw [show row.bytesWritten = 0 by omega]
      exact hzero _

theorem Tracked.fileName_ne_of_live {t : Transfers} (h : Tracked (t, η))
    (hexists : t.storage.existsInternal fi.fileName = false)
    (hblocked : t.storage.isBlockedInternal fi.fileName = false) {i : Nat} {w : OfstreamWrapper}
    (hi : t.Live i w) : w.fileInfo.fileName ≠ fi.fileName := by
  intro hw
  rcases h.locked i w hi with hlocked | hlocked
  . rw [hw, hexists] at hlocked
    cases hlocked
  . rw [← Bool.not_eq_true, StaticStorage.isBlockedInternal_iff] at hblocked
    exact hblocked ⟨_, hlocked, hw, rfl⟩

structure Accepts (t t' : Transfers) (fi : FileInfo) (opened : FileSystem × Ofstream) : Prop where
  exists_eq : t.storage.existsInternal fi.fileName = false
  blocked_eq : t.storage.isBlockedInternal fi.fileName = false
  openOutput : t.storage.openOutput fi.fileName = some opened
  owns : t.OwnsFile fi.fileName
  storage : t'.storage = (t.storage.register (t.storage.resumeInfo fi) opened).1
  active : ∃ g, t'.active = Function.update t.active t.next (some g)
    ∧ g.outputFile = some (t.storage.register (t.storage.resumeInfo fi) opened).2
    ∧ g.fileInfo = some (t.storage.resumeInfo fi)

namespace Accepts

variable {t t' : Transfers}

theorem path (ha : Accepts t t' fi opened) : t.storage.fileOf fi.fileName = some opened.2.path :=
  StaticStorage.openOutput_path ha.openOutput

theorem fileOf_eq (ha : Accepts t t' fi opened) : t'.storage.fileOf = t.storage.fileOf := by
  rw [ha.storage, StaticStorage.register_fileOf]

theorem fileName_eq (t : Transfers) (fi : FileInfo) (opened : FileSystem × Ofstream) :
    (t.storage.register (t.storage.resumeInfo fi) opened).2.fileInfo.fileName = fi.fileName :=
  StaticStorage.resumeInfo_fileName t.storage fi

theorem live_cases (ha : Accepts t t' fi opened) {i : Nat} {w : OfstreamWrapper}
    (hi : t'.Live i w) :
    (i = t.next ∧ w = (t.storage.register (t.storage.resumeInfo fi) opened).2)
      ∨
    (i ≠ t.next ∧ t.Live i w) := by
  rcases ha.active with ⟨g, hactive, houtput, -⟩
  exact live_of_update_some hactive houtput hi

theorem lookup_ne (ha : Accepts t t' fi opened) {name : String} (hne : name ≠ fi.fileName) :
    t'.storage.fileTransfer.lookup name = t.storage.fileTransfer.lookup name := by
  rw [ha.storage]
  exact StaticStorage.register_lookup_ne _ _ _
    (StaticStorage.resumeInfo_fileName t.storage fi ▸ hne)

theorem inUse_cases (ha : Accepts t t' fi opened) {name : String} (hname : t'.InUse name) :
    name = fi.fileName ∨ t.InUse name := by
  by_cases heq : name = fi.fileName
  . exact Or.inl heq
  . right
    rcases hname with hmem | ⟨i, w, hi, hw⟩
    . left
      rw [← AList.lookup_isSome, ha.lookup_ne heq, AList.lookup_isSome] at hmem
      exact hmem
    . rcases ha.live_cases hi with ⟨-, rfl⟩ | ⟨-, hi⟩
      . exact absurd (hw.symm.trans (fileName_eq t fi opened)) heq
      . exact Or.inr ⟨i, w, hi, hw⟩

theorem path_ne (ha : Accepts t t' fi opened) {name : String} {p : AbsPath} (hname : t.InUse name)
    (hp : t.storage.fileOf name = some p) (hne : name ≠ fi.fileName) : p ≠ opened.2.path := by
  rintro rfl
  exact hne ((ha.owns _ ha.path).2 name hname hp)

theorem fileName_ne (ha : Accepts t t' fi opened) (h : Tracked (t, η)) {i : Nat}
    {w : OfstreamWrapper} (hi : t.Live i w) : w.fileInfo.fileName ≠ fi.fileName :=
  h.fileName_ne_of_live ha.exists_eq ha.blocked_eq hi

theorem live (ha : Accepts t t' fi opened) (h : Tracked (t, η)) :
    ∀ i g w, t'.active i = some g → g.outputFile = some w → t'.Live i w := by
  rcases ha.active with ⟨g, hactive, houtput, hinfo⟩
  apply live_update hactive h.live
  intro g' w hg' hw
  cases hg'
  rw [houtput] at hw
  cases hw
  exact hinfo

theorem fileOf (ha : Accepts t t' fi opened) (h : Tracked (t, η)) {i : Nat} {w : OfstreamWrapper}
    (hi : t'.Live i w) : t'.storage.fileOf w.fileInfo.fileName = some w.ofstream.path := by
  rw [ha.fileOf_eq]
  rcases ha.live_cases hi with ⟨-, rfl⟩ | ⟨-, hi⟩
  . rw [StaticStorage.register_path, fileName_eq]
    exact ha.path
  . exact h.fileOf i w hi

theorem token_lt (ha : Accepts t t' fi opened) (h : Tracked (t, η)) {i : Nat} {w : OfstreamWrapper}
    (hi : t'.Live i w) : w.token < t'.storage.nextToken := by
  rw [ha.storage]
  rcases ha.live_cases hi with ⟨-, rfl⟩ | ⟨-, hi⟩
  . exact Nat.lt_succ_self _
  . exact Nat.lt_succ_of_lt (h.token_lt i w hi)

theorem token_inj (ha : Accepts t t' fi opened) (h : Tracked (t, η)) {i j : Nat}
    {w w' : OfstreamWrapper} (hi : t'.Live i w) (hj : t'.Live j w') (htoken : w.token = w'.token) :
    i = j := by
  rcases ha.live_cases hi with ⟨hi', rfl⟩ | ⟨-, hi⟩
  . rcases ha.live_cases hj with ⟨hj', rfl⟩ | ⟨-, hj⟩
    . rw [hi', hj']
    . exact absurd htoken (Nat.ne_of_gt (h.token_lt j w' hj))
  . rcases ha.live_cases hj with ⟨-, rfl⟩ | ⟨-, hj⟩
    . exact absurd htoken (Nat.ne_of_lt (h.token_lt i w hi))
    . exact h.token_inj i j w w' hi hj htoken

theorem name_inj (ha : Accepts t t' fi opened) (h : Tracked (t, η)) {i j : Nat}
    {w w' : OfstreamWrapper} (hi : t'.Live i w) (hj : t'.Live j w')
    (hname : w.fileInfo.fileName = w'.fileInfo.fileName) : i = j := by
  rcases ha.live_cases hi with ⟨hi', rfl⟩ | ⟨-, hi⟩
  . rcases ha.live_cases hj with ⟨hj', rfl⟩ | ⟨-, hj⟩
    . rw [hi', hj']
    . exact absurd (hname.symm.trans (fileName_eq t fi opened)) (ha.fileName_ne h hj)
  . rcases ha.live_cases hj with ⟨-, rfl⟩ | ⟨-, hj⟩
    . exact absurd (hname.trans (fileName_eq t fi opened)) (ha.fileName_ne h hi)
    . exact h.name_inj i j w w' hi hj hname

theorem locked (ha : Accepts t t' fi opened) (h : Tracked (t, η)) {i : Nat} {w : OfstreamWrapper}
    (hi : t'.Live i w) : t'.storage.existsInternal w.fileInfo.fileName = true
      ∨ ⟨w.fileInfo.fileName, w.token, true⟩ ∈ t'.storage.blockedFiles := by
  rw [ha.storage]
  rcases ha.live_cases hi with ⟨-, rfl⟩ | ⟨-, hi⟩
  . exact Or.inr (List.mem_append_right _ (List.mem_singleton_self _))
  . rcases h.locked i w hi with hlocked | hlocked
    . exact Or.inl hlocked
    . exact Or.inr (List.mem_append_left _ hlocked)

theorem apart (ha : Accepts t t' fi opened) (h : Tracked (t, η)) {name name' : String} {p : AbsPath}
    (hname : t'.InUse name) (hname' : t'.InUse name') (hp : t'.storage.fileOf name = some p)
    (hp' : t'.storage.fileOf name' = some p) : name = name' := by
  rw [ha.fileOf_eq] at hp hp'
  rcases ha.inUse_cases hname with rfl | hname
  . rcases ha.inUse_cases hname' with rfl | hname'
    . rfl
    . exact ((ha.owns p hp).2 name' hname' hp').symm
  . rcases ha.inUse_cases hname' with rfl | hname'
    . exact (ha.owns p hp').2 name hname hp
    . exact h.apart name name' p hname hname' hp hp'

theorem position (ha : Accepts t t' fi opened) (h : Tracked (t, η))
    (hbacks : (accepted t η fi opened.2.path).Backs opened.2.path fi.fileName fi.sha256sum
      (t.storage.resumeInfo fi).offset) {i : Nat} {w : OfstreamWrapper} (hi : t'.Live i w) :
    (accepted t η fi opened.2.path).Backs w.ofstream.path w.fileInfo.fileName w.fileInfo.sha256sum
      w.ofstream.pos := by
  rcases ha.live_cases hi with ⟨-, rfl⟩ | ⟨-, hi⟩
  . rw [StaticStorage.register_path, fileName_eq]
    have hpos := Ofstream.seekp_pos_le opened.2 (t.storage.resumeInfo fi).offset
    rw [StaticStorage.openOutput_pos ha.openOutput, Nat.zero_max] at hpos
    change (accepted t η fi opened.2.path).Backs _ _ (t.storage.resumeInfo fi).sha256sum _
    rw [StaticStorage.resumeInfo_sha256sum]
    exact hbacks.mono hpos
  . have hw : t.InUse w.fileInfo.fileName := Or.inr ⟨i, w, hi, rfl⟩
    have hne := ha.fileName_ne h hi
    exact backs_accepted_of_ne (h.position i w hi) hne (ha.path_ne hw (h.fileOf i w hi) hne)

theorem row (ha : Accepts t t' fi opened) (h : Tracked (t, η))
    (hbacks : (accepted t η fi opened.2.path).Backs opened.2.path fi.fileName fi.sha256sum
      (t.storage.resumeInfo fi).offset) {name : String} {row : FileTransfer} {p : AbsPath}
    (hrow : t'.storage.fileTransfer.lookup name = some row) (hp : t'.storage.fileOf name = some p)
    (hpos : 0 < row.bytesWritten) :
    ∃ sha256sum, (accepted t η fi opened.2.path).Backs p name sha256sum row.bytesWritten := by
  rw [ha.fileOf_eq] at hp
  by_cases hne : name = fi.fileName
  . subst hne
    rcases StaticStorage.register_resumeInfo_lookup t.storage fi opened with ⟨row', hrow', hoffset'⟩
    rw [ha.storage, hrow'] at hrow
    rw [ha.path] at hp
    cases hrow
    cases hp
    rw [hoffset']
    exact ⟨_, hbacks⟩
  . rw [ha.lookup_ne hne] at hrow
    rcases h.row name row p hrow hp hpos with ⟨sha256sum, hbacks⟩
    exact ⟨sha256sum, backs_accepted_of_ne hbacks hne (ha.path_ne (inUse_of_lookup hrow) hp hne)⟩

end Accepts

theorem Tracked.accept {t t' : Transfers} (h : Tracked (t, η)) (ha : Accepts t t' fi opened)
    (hoffset : match t.storage.fileTransfer.lookup fi.fileName with
      | none => fi.offset = 0
      | some row => 0 < row.bytesWritten → η.current fi.fileName = some ⟨fi.sha256sum, false⟩) :
    Tracked (t', accepted t η fi opened.2.path) where
  live := ha.live h
  fileOf _ _ := ha.fileOf h
  token_lt _ _ := ha.token_lt h
  token_inj _ _ _ _ := ha.token_inj h
  name_inj _ _ _ _ := ha.name_inj h
  locked _ _ := ha.locked h
  apart _ _ _ := ha.apart h
  position _ _ := ha.position h (h.backs_accepted ha.path hoffset)
  row _ _ _ := ha.row h (h.backs_accepted ha.path hoffset)

end Offer

section Response

variable {η : History} {w : OfstreamWrapper} {chunk : FileChunk}

theorem lookup_of_response {sha256 : List UInt8 → String} {s s' : StaticStorage} {name : String}
    {row : FileTransfer}
    (hstorage : s' = (w.write s chunk).1
      ∨ s' = ((w.write s chunk).1.finalizeFile sha256 w.fileInfo).1)
    (hrow : s'.fileTransfer.lookup name = some row) :
    (name = w.fileInfo.fileName ∧ row.bytesWritten = chunk.offset)
      ∨
    (name ≠ w.fileInfo.fileName ∧ s.fileTransfer.lookup name = some row) := by
  have hwritten : (w.write s chunk).1.fileTransfer.lookup name = some row := by
    rcases hstorage with rfl | rfl
    . exact hrow
    . rcases StaticStorage.finalizeFile_cases sha256 (w.write s chunk).1 w.fileInfo with h | ⟨_, h⟩
      . rw [h] at hrow
        exact hrow
      . rw [h] at hrow
        by_cases hname : name = w.fileInfo.fileName
        . rw [hname, StaticStorage.complete_lookup] at hrow
          cases hrow
        . exact (AList.lookup_erase_ne hname).symm.trans hrow
  by_cases hname : name = w.fileInfo.fileName
  . left
    subst hname
    rw [OfstreamWrapper.write_lookup, Option.map_eq_some_iff] at hwritten
    rcases hwritten with ⟨row', -, rfl⟩
    exact ⟨rfl, rfl⟩
  . right
    rw [OfstreamWrapper.write_lookup_ne _ _ _ hname] at hwritten
    exact ⟨hname, hwritten⟩

theorem locked_of_response {sha256 : List UInt8 → String} {s s' : StaticStorage} {name : String}
    {token : Nat}
    (hstorage : s' = (w.write s chunk).1
      ∨ s' = ((w.write s chunk).1.finalizeFile sha256 w.fileInfo).1)
    (hlocked : s.existsInternal name = true ∨ ⟨name, token, true⟩ ∈ s.blockedFiles) :
    s'.existsInternal name = true ∨ ⟨name, token, true⟩ ∈ s'.blockedFiles := by
  have hwritten : (w.write s chunk).1.existsInternal name = true
      ∨ ⟨name, token, true⟩ ∈ (w.write s chunk).1.blockedFiles := hlocked
  rcases hstorage with rfl | rfl
  . exact hwritten
  . rcases StaticStorage.finalizeFile_cases sha256 (w.write s chunk).1 w.fileInfo with
      h | ⟨sha256sum, h⟩
    . rw [h]
      exact hwritten
    . rw [h]
      by_cases hname : name = w.fileInfo.fileName
      . left
        rw [hname]
        exact StaticStorage.complete_existsInternal _ _ _
      . rcases hwritten with hexists | hblocked
        . left
          rw [StaticStorage.existsInternal_iff] at hexists ⊢
          rcases hexists with ⟨file, hfile, hfileName⟩
          exact ⟨file, List.mem_append_left _ hfile, hfileName⟩
        . right
          refine List.mem_filter.mpr ⟨hblocked, ?_⟩
          simpa using hname

theorem frame_of_response {sha256 : List UInt8 → String} {s s' : StaticStorage}
    (hstorage : s' = (w.write s chunk).1
      ∨ s' = ((w.write s chunk).1.finalizeFile sha256 w.fileInfo).1) :
    s'.fileOf = s.fileOf ∧ s'.nextToken = s.nextToken := by
  rcases hstorage with hs | hs
  . rw [hs]
    exact ⟨OfstreamWrapper.write_fileOf _ _ _, rfl⟩
  . rcases StaticStorage.finalizeFile_cases sha256 (w.write s chunk).1 w.fileInfo with
      hf | ⟨sha256sum, hf⟩
    . rw [hs, hf]
      exact ⟨OfstreamWrapper.write_fileOf _ _ _, rfl⟩
    . rw [hs, hf, StaticStorage.complete_fileOf]
      exact ⟨OfstreamWrapper.write_fileOf _ _ _, rfl⟩

theorem Tracked.receive {sha256 : List UInt8 → String} {t t' : Transfers} {η' : History} {i : Nat}
    {g g' : GetFile} (h : Tracked (t, η)) (hg : t.active i = some g) (hw : g.outputFile = some w)
    (hoffset : chunk.offset ≤ w.ofstream.pos)
    (hstorage : t'.storage = (w.write t.storage chunk).1
      ∨ t'.storage = ((w.write t.storage chunk).1.finalizeFile sha256 w.fileInfo).1)
    (hactive : t'.active = Function.update t.active i (some g'))
    (hw' : g'.outputFile = some (w.write t.storage chunk).2) (hinfo' : g'.fileInfo = g.fileInfo)
    (hη : η' = η.write w chunk ∨ η' = (η.write w chunk).refute w) : Tracked (t', η') := by
  have hi := h.live i g w hg hw
  have hpath := h.fileOf i w hi
  have hframe := frame_of_response hstorage
  have hlive {j : Nat} {v : OfstreamWrapper} (hj : t'.Live j v) :
      (j = i ∧ v = (w.write t.storage chunk).2) ∨ (j ≠ i ∧ t.Live j v) :=
    live_of_update_some hactive hw' hj
  -- the stream after the write stands for the one before it
  have hbefore {j : Nat} {v : OfstreamWrapper} (hj : t'.Live j v) :
      ∃ v', t.Live j v' ∧ v'.fileInfo = v.fileInfo ∧ v'.token = v.token
        ∧ v'.ofstream.path = v.ofstream.path := by
    rcases hlive hj with ⟨rfl, rfl⟩ | ⟨-, hj⟩
    . exact ⟨w, hi, rfl, rfl, (OfstreamWrapper.write_path _ _ _).symm⟩
    . exact ⟨v, hj, rfl, rfl, rfl⟩
  have huse {name : String} (hname : t'.InUse name) : t.InUse name := by
    rcases hname with hmem | ⟨j, v, hj, hv⟩
    . rw [← AList.lookup_isSome] at hmem
      rcases Option.isSome_iff_exists.mp hmem with ⟨row, hrow⟩
      rcases lookup_of_response hstorage hrow with ⟨rfl, -⟩ | ⟨-, hrow⟩
      . exact Or.inr ⟨i, w, hi, rfl⟩
      . exact inUse_of_lookup hrow
    . rcases hbefore hj with ⟨v', hj', hinfo, -⟩
      exact Or.inr ⟨j, v', hj', hinfo ▸ hv⟩
  have hother {name : String} {p : AbsPath} (hname : t.InUse name)
      (hp : t.storage.fileOf name = some p) (hne : name ≠ w.fileInfo.fileName) :
      p ≠ w.ofstream.path := by
    rintro rfl
    exact hne (h.apart name _ _ hname (Or.inr ⟨i, w, hi, rfl⟩) hp hpath)
  have hbacks {name sha256sum : String} {p : AbsPath} {k : Nat} (hk : η.Backs p name sha256sum k)
      (hne : name ≠ w.fileInfo.fileName) (hp : p ≠ w.ofstream.path) :
      η'.Backs p name sha256sum k := by
    rcases hη with rfl | rfl
    . exact hk.write_of_ne hp
    . exact (hk.write_of_ne hp).refute_of_ne hp hne
  have hself : η'.Backs w.ofstream.path w.fileInfo.fileName w.fileInfo.sha256sum
      (max chunk.offset (w.write t.storage chunk).2.ofstream.pos) := by
    have hwrite := (h.position i w hi).write_self hoffset t.storage
    rcases hη with rfl | rfl
    . exact hwrite
    . exact hwrite.refute_self
  constructor
  case live =>
    apply live_update hactive h.live
    intro g'' v hg'' hv
    cases hg''
    rw [hw'] at hv
    cases hv
    exact hinfo'.trans (hi.fileInfo hg)
  case fileOf =>
    intro j v hj
    rcases hbefore hj with ⟨v', hj', hinfo, -, hp⟩
    rw [hframe.1, ← hinfo, ← hp]
    exact h.fileOf j v' hj'
  case token_lt =>
    intro j v hj
    rcases hbefore hj with ⟨v', hj', -, htoken, -⟩
    rw [hframe.2, ← htoken]
    exact h.token_lt j v' hj'
  case token_inj =>
    intro j k v u hj hk htoken
    rcases hbefore hj with ⟨v', hj', -, htokenv, -⟩
    rcases hbefore hk with ⟨u', hk', -, htokenu, -⟩
    exact h.token_inj j k v' u' hj' hk' (by rw [htokenv, htokenu, htoken])
  case name_inj =>
    intro j k v u hj hk hname
    rcases hbefore hj with ⟨v', hj', hinfov, -⟩
    rcases hbefore hk with ⟨u', hk', hinfou, -⟩
    exact h.name_inj j k v' u' hj' hk' (by rw [hinfov, hinfou, hname])
  case locked =>
    intro j v hj
    rcases hbefore hj with ⟨v', hj', hinfo, htoken, -⟩
    rw [← hinfo, ← htoken]
    exact locked_of_response hstorage (h.locked j v' hj')
  case apart =>
    intro name name' p hname hname'
    rw [hframe.1]
    exact h.apart name name' p (huse hname) (huse hname')
  case position =>
    intro j v hj
    rcases hlive hj with ⟨rfl, rfl⟩ | ⟨hji, hj⟩
    . rw [OfstreamWrapper.write_path]
      exact hself.mono (le_max_right _ _)
    . have hne : v.fileInfo.fileName ≠ w.fileInfo.fileName :=
        fun hname => hji (h.name_inj j i v w hj hi hname)
      exact hbacks (h.position j v hj) hne (hother (Or.inr ⟨j, v, hj, rfl⟩) (h.fileOf j v hj) hne)
  case row =>
    intro name row p hrow
    rw [hframe.1]
    intro hp hpos
    rcases lookup_of_response hstorage hrow with ⟨rfl, hbytes⟩ | ⟨hne, hrow⟩
    . rw [hpath] at hp
      cases hp
      rw [hbytes]
      exact ⟨_, hself.mono (le_max_left _ _)⟩
    . rcases h.row name row p hrow hp hpos with ⟨sha256sum, hk⟩
      exact ⟨sha256sum, hbacks hk hne (hother (inUse_of_lookup hrow) hp hne)⟩

end Response

section Step

variable {η : History}

theorem Tracked.destroy {t t' : Transfers} {i : Nat} {g : GetFile} {w : OfstreamWrapper}
    (h : Tracked (t, η)) (hg : t.active i = some g) (hw : g.outputFile = some w)
    (hstorage : t'.storage = w.destroy t.storage)
    (hactive : t'.active = Function.update t.active i none) : Tracked (t', η) := by
  -- the destructor frees the name of its own stream only
  have hi := h.live i g w hg hw
  have hfileOf : t'.storage.fileOf = t.storage.fileOf := by
    rw [hstorage]
    exact OfstreamWrapper.destroy_fileOf _ _
  have hlive {j : Nat} {v : OfstreamWrapper} (hj : t'.Live j v) : j ≠ i ∧ t.Live j v := by
    rcases live_of_update hactive hj with ⟨-, g', hg', -⟩ | hold
    . cases hg'
    . exact hold
  have hrows : t'.storage.fileTransfer = t.storage.fileTransfer := by
    rw [hstorage]
    rfl
  have huse {name : String} (hname : t'.InUse name) : t.InUse name := by
    rcases hname with hmem | ⟨j, v, hj, hv⟩
    . exact Or.inl (hrows ▸ hmem)
    . exact Or.inr ⟨j, v, (hlive hj).2, hv⟩
  constructor
  case live =>
    apply live_update hactive h.live
    intro g' v hg'
    cases hg'
  case fileOf =>
    intro j v hj
    rw [hfileOf]
    exact h.fileOf j v (hlive hj).2
  case token_lt =>
    intro j v hj
    rw [hstorage]
    exact h.token_lt j v (hlive hj).2
  case token_inj =>
    intro j k v u hj hk
    exact h.token_inj j k v u (hlive hj).2 (hlive hk).2
  case name_inj =>
    intro j k v u hj hk
    exact h.name_inj j k v u (hlive hj).2 (hlive hk).2
  case locked =>
    intro j v hj
    rw [hstorage]
    rcases h.locked j v (hlive hj).2 with hexists | hblocked
    . exact Or.inl hexists
    . right
      apply OfstreamWrapper.mem_destroy_blockedFiles _ _ hblocked
      intro htoken
      exact (hlive hj).1 (h.token_inj j i v w (hlive hj).2 hi htoken)
  case apart =>
    intro name name' p hname hname'
    rw [hfileOf]
    exact h.apart name name' p (huse hname) (huse hname')
  case position =>
    intro j v hj
    exact h.position j v (hlive hj).2
  case row =>
    intro name row p
    rw [hrows, hfileOf]
    exact h.row name row p

theorem Tracked.restart {t t' : Transfers} {sha256 : List UInt8 → String} (h : Tracked (t, η))
    (hstorage : t'.storage = t.storage.restart sha256) (hactive : ∀ i, t'.active i = none) :
    Tracked (t', η) := by
  rcases StaticStorage.restart_eq sha256 t.storage with ⟨files, hfiles⟩
  rw [hfiles] at hstorage
  have hlive (j : Nat) (v : OfstreamWrapper) : ¬ t'.Live j v := by
    rintro ⟨g, hg, -⟩
    rw [hactive] at hg
    cases hg
  have hfileOf : t'.storage.fileOf = t.storage.fileOf := by
    rw [hstorage]
    exact StaticStorage.fileOf_congr rfl rfl
  have hrows : t'.storage.fileTransfer = t.storage.fileTransfer := by
    rw [hstorage]
  have huse {name : String} (hname : t'.InUse name) : t.InUse name := by
    rcases hname with hmem | ⟨j, v, hj, -⟩
    . exact Or.inl (hrows ▸ hmem)
    . exact absurd hj (hlive j v)
  constructor
  case live =>
    intro i g w hg
    rw [hactive] at hg
    cases hg
  case fileOf => exact fun i w hi => absurd hi (hlive i w)
  case token_lt => exact fun i w hi => absurd hi (hlive i w)
  case token_inj => exact fun i j w w' hi => absurd hi (hlive i w)
  case name_inj => exact fun i j w w' hi => absurd hi (hlive i w)
  case locked => exact fun i w hi => absurd hi (hlive i w)
  case apart =>
    intro name name' p hname hname'
    rw [hfileOf]
    exact h.apart name name' p (huse hname) (huse hname')
  case position => exact fun i w hi => absurd hi (hlive i w)
  case row =>
    intro name row p
    rw [hrows, hfileOf]
    exact h.row name row p

theorem Tracked.offer {t : Transfers} (sha256 : List UInt8 → String) (target : Peer) (fi : FileInfo)
    (transactionId : String) (h : Tracked (t, η))
    (hcond : GoesOn (t, η) (.offer target fi transactionId)) :
    Tracked (t.offer target fi transactionId,
      record sha256 t η (.offer target fi transactionId)) := by
  unfold Transfers.offer
  by_cases hexists : t.storage.existsInternal fi.fileName = true
  . have hη : record sha256 t η (.offer target fi transactionId) = η := by
      simp [record, StaticStorage.createFile, hexists]
    rw [hη, if_pos hexists]
    exact h
  . rw [if_neg hexists]
    rcases t.storage.createFile_cases fi with ⟨-, hs, hnone⟩ | ⟨hexists, hblocked, opened, hopen⟩
    . have hη : record sha256 t η (.offer target fi transactionId) = η := by
        simp [record, hnone]
      have hcreate := GetFile.createRequest_of_none target transactionId hnone
      rw [hη]
      apply h.of_update (hcreate.1.trans hs) rfl
      intro g w hg hw
      cases hg
      rw [hcreate.2] at hw
      cases hw
    . have hcreated := StaticStorage.createFile_of_openOutput hexists hblocked hopen
      have hη : record sha256 t η (.offer target fi transactionId)
        = accepted t η fi opened.2.path := by
        simp [record, hcreated, accepted]
      have hcreate := GetFile.createRequest_of_some target transactionId hcreated
      rcases hcond hexists hblocked (StaticStorage.openable_iff.mpr ⟨opened, hopen⟩) with ⟨howns,
        hoffset⟩
      rw [hη]
      exact h.accept ⟨hexists, hblocked, hopen, howns, hcreate.1, _, rfl, hcreate.2⟩ hoffset

theorem Tracked.handleResponse {t t' : Transfers} {sha256 : List UInt8 → String} {i : Nat}
    {response : RequestObject} (h : Tracked (t, η)) (hcond : GoesOn (t, η) (.response i response))
    (hstep : t.handleResponse sha256 i response = some t') :
    Tracked (t', record sha256 t η (.response i response)) := by
  simp only [Transfers.handleResponse, Option.bind_eq_bind, Option.bind_eq_some_iff] at hstep
  rcases hstep with ⟨g, hg, handled, hhandled, ht'⟩
  cases ht'
  rcases GetFile.handleResponse_cases hhandled with
    ⟨hinfo, ⟨haccepts, hs, hw⟩ | ⟨w, chunk, haccepts, hw, hs⟩⟩
  . have hη : record sha256 t η (.response i response) = η := by
      simp [record, hg, haccepts]
    rw [hη]
    apply h.of_update hs rfl
    intro g' w hg' hw'
    cases hg'
    exact ⟨g, hg, hw ▸ hw', hinfo⟩
  . have houtput := GetFile.accepts_outputFile haccepts
    have hη : record sha256 t η (.response i response) = η.write w chunk
        ∨ record sha256 t η (.response i response) = (η.write w chunk).refute w := by
      simp only [record, hg, haccepts]
      split
      . exact Or.inr rfl
      . exact Or.inl rfl
    have hstorage : handled.storage = (w.write t.storage chunk).1
        ∨ handled.storage = ((w.write t.storage chunk).1.finalizeFile sha256 w.fileInfo).1 := by
      rcases hs with hs | ⟨info, hginfo, hs⟩
      . exact Or.inl hs
      . right
        have hlive := (h.live i g w hg houtput).fileInfo hg
        rw [hginfo] at hlive
        cases hlive
        exact hs
    exact h.receive hg houtput (hcond g w chunk hg haccepts) hstorage rfl hw hinfo hη

theorem Tracked.step (h : Tracked t) (hcond : GoesOn t e)
    (hstep : stepWithHistory sha256 t e = some t') :
    Tracked t' := by
  rcases t with ⟨t, η⟩
  rcases t' with ⟨t', η'⟩
  rw [stepWithHistory, Run.observe_eq_some] at hstep
  rcases hstep with ⟨hstep, hη⟩
  replace hη : η' = record sha256 t η e := hη
  subst hη
  cases e with
  | offer target fi transactionId =>
    cases hstep
    exact h.offer sha256 target fi transactionId hcond
  | response i response => exact h.handleResponse hcond hstep
  | destroy i =>
    simp only [Transfers.step, Transfers.destroy, Option.bind_eq_bind,
      Option.bind_eq_some_iff] at hstep
    rcases hstep with ⟨g, hg, ht'⟩
    cases ht'
    cases hw : g.outputFile with
    | some w => exact h.destroy hg hw rfl rfl
    | none =>
      refine h.of_update ?_ rfl ?_
      . rfl
      . intro g' w hg'
        cases hg'
  | restart =>
    cases hstep
    exact h.restart rfl fun _ => rfl

end Step

end Transfers

end Peerpaste
