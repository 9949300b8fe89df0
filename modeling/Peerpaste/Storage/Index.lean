import Mathlib.Logic.Function.Basic
import Peerpaste.Run.Basic
import Peerpaste.Storage.Basic

/-!
This module contains the store with the streams that its callers hold, the calls that they make in
any order, and what these keep of the index and of the list of names that are being written.
-/

namespace Peerpaste

open FileSystem

structure OpenStorage where
  storage : StaticStorage
  streams : Nat → Option OfstreamWrapper
  next : Nat

namespace OpenStorage

/--
What the callers of the store do. The stream that `create_file` returns is moved to its owner. A
stream that was moved from shares no flag any more, so that its destructor does nothing.
-/
inductive Event where
  | createFile (fileInfo : FileInfo)
  | write (i : Nat) (chunk : FileChunk)
  | destroy (i : Nat)
  | finalizeFile (fileInfo : FileInfo)
  deriving DecidableEq, Repr

def ofDisk (sha256 : List UInt8 → String) (disk : StaticStorage) : OpenStorage where
  storage := disk.restart sha256
  streams _ := none
  next := 0

def createFile (t : OpenStorage) (fileInfo : FileInfo) : OpenStorage :=
  let created := t.storage.createFile fileInfo
  match created.2.2 with
  | none => { t with storage := created.1 }
  | some w =>
    { storage := created.1
      streams := Function.update t.streams t.next (some w)
      next := t.next + 1 }

def write (t : OpenStorage) (i : Nat) (chunk : FileChunk) : Option OpenStorage := do
  let w ← t.streams i
  let written := w.write t.storage chunk
  return { t with storage := written.1, streams := Function.update t.streams i (some written.2) }

def destroy (t : OpenStorage) (i : Nat) : Option OpenStorage := do
  let w ← t.streams i
  return { t with storage := w.destroy t.storage, streams := Function.update t.streams i none }

def step (sha256 : List UInt8 → String) (t : OpenStorage) : Event → Option OpenStorage
  | .createFile fileInfo => some (t.createFile fileInfo)
  | .write i chunk => t.write i chunk
  | .destroy i => t.destroy i
  | .finalizeFile fileInfo => some { t with storage := (t.storage.finalizeFile sha256 fileInfo).1 }

def Writes (t : OpenStorage) (i : Nat) (name : String) : Prop :=
  ∃ w, t.streams i = some w ∧ w.fileInfo.fileName = name ∧ t.storage.existsInternal name = false

structure Indexed (t : OpenStorage) : Prop where
  nodup : (t.storage.files.map (·.fileName)).Nodup
  exclusive : ∀ name i j, t.Writes i name → t.Writes j name → i = j
  disjoint : ∀ name, t.storage.existsInternal name = true → t.storage.isBlockedInternal name = false

end OpenStorage

namespace StaticStorage

structure FinalizesChecked (sha256 : List UInt8 → String) (s : StaticStorage)
    (fileInfo : FileInfo) : Prop where
  checked : (s.finalizeFile sha256 fileInfo).2 = true →
    s.sha256FromFile sha256 fileInfo.fileName = fileInfo.sha256sum
      ∧ (s.finalizeFile sha256 fileInfo).1.files = s.files ++
        [⟨fileInfo.fileName, fileInfo.sha256sum, s.fileSize fileInfo.fileName, 0⟩]
  unchanged : (s.finalizeFile sha256 fileInfo).2 = false → (s.finalizeFile sha256 fileInfo).1 = s

theorem finalizeFile_checked (sha256 : List UInt8 → String) (s : StaticStorage)
    (fileInfo : FileInfo) :
    s.FinalizesChecked sha256 fileInfo := by
  cases hexists : s.existsInternal fileInfo.fileName with
  | true =>
    have heq : s.finalizeFile sha256 fileInfo = (s, false) := by simp [finalizeFile, hexists]
    constructor <;> simp [heq]
  | false =>
    cases hblocked : s.isBlockedInternal fileInfo.fileName with
    | false =>
      have heq : s.finalizeFile sha256 fileInfo = (s, false) := by
        simp [finalizeFile, hexists, hblocked]
      constructor <;> simp [heq]
    | true =>
      by_cases hsha256 : s.sha256FromFile sha256 fileInfo.fileName = fileInfo.sha256sum
      . have heq := finalizeFile_of_sha256 hexists hblocked hsha256
        constructor
        . intro _
          rw [heq]
          exact ⟨hsha256, rfl⟩
        . intro hfalse
          rw [heq] at hfalse
          cases hfalse
      . have heq : s.finalizeFile sha256 fileInfo = (s, false) := by
          simp [finalizeFile, hexists, hblocked, hsha256]
        constructor <;> simp [heq]

theorem isBlockedInternal_of_destroy {s : StaticStorage} {w : OfstreamWrapper} {name : String}
    (h : (w.destroy s).isBlockedInternal name = true) : s.isBlockedInternal name = true := by
  rw [isBlockedInternal_iff] at h ⊢
  rcases h with ⟨b, hb, hname, hwriting⟩
  simp only [OfstreamWrapper.destroy, List.mem_map] at hb
  rcases hb with ⟨b', hb', rfl⟩
  split at hwriting
  . cases hwriting
  . next htoken =>
    rw [if_neg htoken] at hname
    exact ⟨b', hb', hname, hwriting⟩

theorem complete_isBlockedInternal_iff {s : StaticStorage} {fileName sha256sum name : String} :
    (s.complete fileName sha256sum).isBlockedInternal name = true
      ↔
    s.isBlockedInternal name = true ∧ name ≠ fileName := by
  rw [isBlockedInternal_iff, isBlockedInternal_iff]
  simp only [complete, List.mem_filter, bne_iff_ne]
  constructor
  . rintro ⟨b, ⟨hb, hname⟩, rfl, hwriting⟩
    exact ⟨⟨b, hb, rfl, hwriting⟩, hname⟩
  . rintro ⟨⟨b, hb, rfl, hwriting⟩, hname⟩
    exact ⟨b, ⟨hb, hname⟩, rfl, hwriting⟩

theorem entries_nodup (s : StaticStorage) : s.entries.Nodup := by
  unfold entries
  apply List.Nodup.filterMap _ s.fs.files.keys_nodup
  intro p q name hp hq
  simp only [Option.mem_def, Option.ite_none_right_eq_some] at hp hq
  rw [← List.dropLast_append_getLast? name hp.2,
    ← List.dropLast_append_getLast? name hq.2, hp.1, hq.1]

end StaticStorage

namespace OpenStorage

variable {sha256 : List UInt8 → String} {t t' : OpenStorage} {e : Event}

structure Blocks (t : OpenStorage) : Prop extends Indexed t where
  blocked : ∀ i w, t.streams i = some w → t.storage.existsInternal w.fileInfo.fileName = false →
    ⟨w.fileInfo.fileName, w.token, true⟩ ∈ t.storage.blockedFiles
  token_lt : ∀ i w, t.streams i = some w → w.token < t.storage.nextToken
  token_inj : ∀ i j w w', t.streams i = some w → t.streams j = some w' → w.token = w'.token → i = j

theorem Blocks.congr (h : t.Blocks) (hstorage : t'.storage = t.storage)
    (hstreams : t'.streams = t.streams) :
    t'.Blocks := by
  rcases t' with ⟨storage, streams, next⟩
  simp only at hstorage hstreams
  subst hstorage hstreams
  exact ⟨⟨h.nodup, h.exclusive, h.disjoint⟩, h.blocked, h.token_lt, h.token_inj⟩

theorem ofDisk_blocks (sha256 : List UInt8 → String) (disk : StaticStorage) :
    (ofDisk sha256 disk).Blocks := by
  have hstreams (i : Nat) (w : OfstreamWrapper) : (ofDisk sha256 disk).streams i ≠ some w := by
    intro h
    cases h
  have hblocked : (disk.restart sha256).blockedFiles = [] := by
    rcases StaticStorage.restart_eq sha256 disk with ⟨files, hfiles⟩
    rw [hfiles]
  constructor
  case toIndexed =>
    constructor
    case nodup =>
      have hfiles : ((disk.restart sha256).files.map (·.fileName)) = disk.synced := by
        unfold StaticStorage.restart
        rw [StaticStorage.syncFiles_eq, List.nil_append, List.map_map]
        exact List.map_id _
      change ((disk.restart sha256).files.map (·.fileName)).Nodup
      rw [hfiles]
      apply List.Nodup.filter
      apply StaticStorage.entries_nodup
    case exclusive =>
      intro name i j hi
      rcases hi with ⟨w, hw, _⟩
      exact absurd hw (hstreams i w)
    case disjoint =>
      intro name _
      simp [ofDisk, StaticStorage.isBlockedInternal, hblocked]
  case blocked =>
    intro i w hw
    exact absurd hw (hstreams i w)
  case token_lt =>
    intro i w hw
    exact absurd hw (hstreams i w)
  case token_inj =>
    intro i j w w' hw
    exact absurd hw (hstreams i w)

theorem createFile_cases (t : OpenStorage) (fi : FileInfo) :
    ((t.storage.existsInternal fi.fileName = true ∨ t.storage.isBlockedInternal fi.fileName = true
        ∨ t.storage.openOutput fi.fileName = none)
      ∧ t.createFile fi = t)
      ∨
    (t.storage.existsInternal fi.fileName = false ∧ t.storage.isBlockedInternal fi.fileName = false
      ∧ ∃ opened, t.storage.openOutput fi.fileName = some opened
        ∧ t.createFile fi =
          { storage := (t.storage.register (t.storage.resumeInfo fi) opened).1
            streams := Function.update t.streams t.next
              (some (t.storage.register (t.storage.resumeInfo fi) opened).2)
            next := t.next + 1 }) := by
  rcases t.storage.createFile_cases fi with
    ⟨hrefused, hsame, hnone⟩ | ⟨hexists, hblocked, opened, hopen⟩
  . left
    simp [hrefused, createFile, hnone, hsame]
  . right
    refine ⟨hexists, hblocked, opened, hopen, ?_⟩
    simp [createFile, StaticStorage.createFile_of_openOutput hexists hblocked hopen]

theorem write_eq_some {i : Nat} {chunk : FileChunk} (h : t.write i chunk = some t') :
    ∃ w, t.streams i = some w
      ∧ t' = { t with
          storage := (w.write t.storage chunk).1
          streams := Function.update t.streams i (some (w.write t.storage chunk).2) } := by
  simp only [write, Option.bind_eq_bind, Option.bind_eq_some_iff, Option.pure_def,
    Option.some.injEq] at h
  rcases h with ⟨w, hw, rfl⟩
  exact ⟨w, hw, rfl⟩

theorem destroy_eq_some {i : Nat} (h : t.destroy i = some t') :
    ∃ w, t.streams i = some w
      ∧ t' = { t with
        storage := w.destroy t.storage, streams := Function.update t.streams i none } := by
  simp only [destroy, Option.bind_eq_bind, Option.bind_eq_some_iff, Option.pure_def,
    Option.some.injEq] at h
  rcases h with ⟨w, hw, rfl⟩
  exact ⟨w, hw, rfl⟩

theorem streams_update {i j : Nat} {x : Option OfstreamWrapper} {w : OfstreamWrapper}
    (h : Function.update t.streams i x j = some w) :
    (j = i ∧ x = some w) ∨ (j ≠ i ∧ t.streams j = some w) := by
  rw [Function.update_apply] at h
  split at h
  . next hj => exact Or.inl ⟨hj, h⟩
  . next hj => exact Or.inr ⟨hj, h⟩

theorem Blocks.isBlockedInternal (h : t.Blocks) {i : Nat} {name : String}
    (hwrites : t.Writes i name) :
    t.storage.isBlockedInternal name = true := by
  -- a file that is being written is blocked
  rcases hwrites with ⟨w, hw, rfl, hexists⟩
  rw [StaticStorage.isBlockedInternal_iff]
  exact ⟨_, h.blocked i w hw hexists, rfl, rfl⟩

theorem Blocks.createFile (h : t.Blocks) (fi : FileInfo) : (t.createFile fi).Blocks := by
  rcases t.createFile_cases fi with ⟨_, hsame⟩ | ⟨hexists, hblocked, opened, hopen, hcreate⟩
  . rw [hsame]
    exact h
  . generalize hw : (t.storage.register (t.storage.resumeInfo fi) opened).2 = new at hcreate
    have hname : new.fileInfo.fileName = fi.fileName := by
      rw [← hw]
      exact StaticStorage.resumeInfo_fileName _ _
    have htoken : new.token = t.storage.nextToken := by
      rw [← hw]
      rfl
    have hentries : (t.storage.register (t.storage.resumeInfo fi) opened).1.blockedFiles =
        t.storage.blockedFiles ++ [⟨new.fileInfo.fileName, new.token, true⟩] := by
      rw [← hw]
      rfl
    -- no stream of the same name is left
    have hother (i : Nat) : ¬ t.Writes i fi.fileName := by
      intro hwrites
      rw [h.isBlockedInternal hwrites] at hblocked
      cases hblocked
    rw [hcreate]
    constructor
    case toIndexed =>
      constructor
      case nodup => exact h.nodup
      case exclusive =>
        intro name i j hi hj
        rcases hi with ⟨w, hw, hwname, hi⟩
        rcases hj with ⟨w', hw', hwname', hj⟩
        rcases streams_update hw with ⟨rfl, hnew⟩ | ⟨hi', hold⟩
        . rcases streams_update hw' with ⟨rfl, _⟩ | ⟨hj', hold'⟩
          . rfl
          . cases hnew
            rw [hname] at hwname
            exact absurd ⟨w', hold', hwname' ▸ hwname.symm ▸ rfl, hexists⟩ (hother j)
        . rcases streams_update hw' with ⟨rfl, hnew⟩ | ⟨hj', hold'⟩
          . cases hnew
            rw [hname] at hwname'
            exact absurd ⟨w, hold, hwname ▸ hwname'.symm ▸ rfl, hexists⟩ (hother i)
          . exact h.exclusive name i j ⟨w, hold, hwname, hi⟩ ⟨w', hold', hwname', hj⟩
      case disjoint =>
        intro name hname'
        have hold := h.disjoint name hname'
        simp only [StaticStorage.isBlockedInternal, hentries, List.any_append, List.any_cons,
          List.any_nil,
          Bool.or_false, Bool.and_true, Bool.or_eq_false_iff, beq_eq_false_iff_ne, hname]
        refine ⟨hold, ?_⟩
        rintro rfl
        rw [show t.storage.existsInternal fi.fileName = true from hname'] at hexists
        cases hexists
    case blocked =>
      intro i w hwi hwexists
      rw [hentries, List.mem_append]
      rcases streams_update hwi with ⟨rfl, hnew⟩ | ⟨_, hold⟩
      . cases hnew
        exact Or.inr (by simp)
      . exact Or.inl (h.blocked i w hold hwexists)
    case token_lt =>
      intro i w hwi
      change w.token < t.storage.nextToken + 1
      rcases streams_update hwi with ⟨rfl, hnew⟩ | ⟨_, hold⟩
      . cases hnew
        omega
      . have := h.token_lt i w hold
        omega
    case token_inj =>
      intro i j w w' hwi hwj heq
      rcases streams_update hwi with ⟨rfl, hnew⟩ | ⟨hi', hold⟩
      . rcases streams_update hwj with ⟨rfl, _⟩ | ⟨_, hold'⟩
        . rfl
        . cases hnew
          have := h.token_lt j w' hold'
          omega
      . rcases streams_update hwj with ⟨rfl, hnew⟩ | ⟨_, hold'⟩
        . cases hnew
          have := h.token_lt i w hold
          omega
        . exact h.token_inj i j w w' hold hold' heq

theorem Blocks.write (h : t.Blocks) {i : Nat} {chunk : FileChunk}
    (hstep : t.write i chunk = some t') :
    t'.Blocks := by
  rcases write_eq_some hstep with ⟨w, hw, rfl⟩
  -- a written stream keeps its name and its flag
  have hold (j : Nat) (w' : OfstreamWrapper)
      (hj : Function.update t.streams i (some (w.write t.storage chunk).2) j = some w') :
      ∃ v, t.streams j = some v ∧ v.fileInfo = w'.fileInfo ∧ v.token = w'.token := by
    rcases streams_update hj with ⟨rfl, hnew⟩ | ⟨_, hold⟩
    . cases hnew
      exact ⟨w, hw, rfl, rfl⟩
    . exact ⟨w', hold, rfl, rfl⟩
  constructor
  case toIndexed =>
    constructor
    case nodup => exact h.nodup
    case exclusive =>
      intro name j k hj hk
      rcases hj with ⟨w₁, hw₁, hname₁, hj⟩
      rcases hk with ⟨w₂, hw₂, hname₂, hk⟩
      rcases hold j w₁ hw₁ with ⟨v₁, hv₁, hinfo₁, _⟩
      rcases hold k w₂ hw₂ with ⟨v₂, hv₂, hinfo₂, _⟩
      apply h.exclusive name j k ⟨v₁, hv₁, hinfo₁ ▸ hname₁, hj⟩ ⟨v₂, hv₂, hinfo₂ ▸ hname₂, hk⟩
    case disjoint => exact h.disjoint
  case blocked =>
    intro j w' hj hexists
    rcases hold j w' hj with ⟨v, hv, hinfo, htoken⟩
    rw [← hinfo, ← htoken]
    exact h.blocked j v hv (hinfo.symm ▸ hexists)
  case token_lt =>
    intro j w' hj
    rcases hold j w' hj with ⟨v, hv, _, htoken⟩
    rw [← htoken]
    exact h.token_lt j v hv
  case token_inj =>
    intro j k w₁ w₂ hj hk heq
    rcases hold j w₁ hj with ⟨v₁, hv₁, _, htoken₁⟩
    rcases hold k w₂ hk with ⟨v₂, hv₂, _, htoken₂⟩
    apply h.token_inj j k v₁ v₂ hv₁ hv₂
    rw [htoken₁, htoken₂, heq]

theorem Blocks.destroy (h : t.Blocks) {i : Nat} (hstep : t.destroy i = some t') : t'.Blocks := by
  rcases destroy_eq_some hstep with ⟨w, hw, rfl⟩
  have hold (j : Nat) (w' : OfstreamWrapper) (hj : Function.update t.streams i none j = some w') :
      j ≠ i ∧ t.streams j = some w' := by
    rcases streams_update hj with ⟨_, hnew⟩ | hold
    . cases hnew
    . exact hold
  constructor
  case toIndexed =>
    constructor
    case nodup => exact h.nodup
    case exclusive =>
      intro name j k hj hk
      rcases hj with ⟨w₁, hw₁, hname₁, hj⟩
      rcases hk with ⟨w₂, hw₂, hname₂, hk⟩
      exact h.exclusive name j k ⟨w₁, (hold j w₁ hw₁).2, hname₁, hj⟩
        ⟨w₂, (hold k w₂ hw₂).2, hname₂, hk⟩
    case disjoint =>
      intro name hname
      rw [Bool.eq_false_iff]
      intro hblocked
      have hold := StaticStorage.isBlockedInternal_of_destroy hblocked
      rw [h.disjoint name hname] at hold
      cases hold
  case blocked =>
    intro j w' hj hexists
    have hj := hold j w' hj
    apply OfstreamWrapper.mem_destroy_blockedFiles t.storage w (h.blocked j w' hj.2 hexists)
    intro heq
    exact hj.1 (h.token_inj j i w' w hj.2 hw heq)
  case token_lt =>
    intro j w' hj
    exact h.token_lt j w' (hold j w' hj).2
  case token_inj =>
    intro j k w₁ w₂ hj hk
    exact h.token_inj j k w₁ w₂ (hold j w₁ hj).2 (hold k w₂ hk).2

theorem Blocks.complete (h : t.Blocks) {name : String}
    (hexists : t.storage.existsInternal name = false) (sha256sum : String) :
    Blocks { t with storage := t.storage.complete name sha256sum } := by
  -- finalizing a file takes its entries away with it
  have hmore (name' : String)
      (hname' : (t.storage.complete name sha256sum).existsInternal name' = false) :
      t.storage.existsInternal name' = false ∧ name' ≠ name := by
    simp only [StaticStorage.complete, StaticStorage.existsInternal, List.any_append, List.any_cons,
      List.any_nil, Bool.or_false, Bool.or_eq_false_iff, beq_eq_false_iff_ne] at hname' ⊢
    exact ⟨hname'.1, hname'.2.symm⟩
  constructor
  case toIndexed =>
    constructor
    case nodup =>
      change ((t.storage.files ++ [_]).map _).Nodup
      rw [List.map_append, List.nodup_append]
      refine ⟨h.nodup, List.nodup_singleton _, ?_⟩
      intro a ha b hb heq
      rw [List.map_singleton, List.mem_singleton] at hb
      rw [List.mem_map] at ha
      rcases ha with ⟨file, hfile, rfl⟩
      have hexists' : t.storage.existsInternal name = true := by
        rw [StaticStorage.existsInternal_iff]
        exact ⟨file, hfile, heq.trans hb⟩
      rw [hexists'] at hexists
      cases hexists
    case exclusive =>
      intro name' i j hi hj
      rcases hi with ⟨w, hw, hwname, hi⟩
      rcases hj with ⟨w', hw', hwname', hj⟩
      apply h.exclusive name' i j ⟨w, hw, hwname, (hmore _ hi).1⟩ ⟨w', hw', hwname', (hmore _ hj).1⟩
    case disjoint =>
      intro name' hname'
      rw [Bool.eq_false_iff]
      intro hblocked
      rcases StaticStorage.complete_isBlockedInternal_iff.mp hblocked with ⟨hold, hne⟩
      rcases (t.storage.complete_existsInternal_iff name sha256sum name').mp hname' with
        hindexed | heq
      . rw [h.disjoint name' hindexed] at hold
        cases hold
      . exact hne heq
  case blocked =>
    intro i w hw hwexists
    have hwexists := hmore _ hwexists
    simp only [StaticStorage.complete, List.mem_filter, bne_iff_ne]
    exact ⟨h.blocked i w hw hwexists.1, hwexists.2⟩
  case token_lt => exact h.token_lt
  case token_inj => exact h.token_inj

theorem Blocks.finalizeFile (h : t.Blocks) (sha256 : List UInt8 → String) (fi : FileInfo) :
    Blocks { t with storage := (t.storage.finalizeFile sha256 fi).1 } := by
  cases hexists : t.storage.existsInternal fi.fileName with
  | true =>
    have heq : t.storage.finalizeFile sha256 fi = (t.storage, false) := by
      simp [StaticStorage.finalizeFile, hexists]
    rw [heq]
    exact h
  | false =>
    rcases StaticStorage.finalizeFile_cases sha256 t.storage fi with hsame | ⟨sha256sum, hcomplete⟩
    . rw [hsame]
      exact h
    . rw [hcomplete]
      exact h.complete hexists sha256sum

theorem Blocks.step (h : t.Blocks) (hstep : t.step sha256 e = some t') : t'.Blocks := by
  cases e with
  | createFile fi =>
    simp only [OpenStorage.step, Option.some.injEq] at hstep
    exact hstep ▸ h.createFile fi
  | write i chunk => exact h.write hstep
  | destroy i => exact h.destroy hstep
  | finalizeFile fi =>
    simp only [OpenStorage.step, Option.some.injEq] at hstep
    exact hstep ▸ h.finalizeFile sha256 fi

theorem step_files (hstep : t.step sha256 e = some t') :
    t'.storage.files = t.storage.files
      ∨
    ∃ fi, e = .finalizeFile fi ∧ (t.storage.finalizeFile sha256 fi).2 = true := by
  -- only a `finalize_file` that returns true adds to the index
  cases e with
  | createFile fi =>
    left
    simp only [OpenStorage.step, Option.some.injEq] at hstep
    rw [← hstep]
    rcases t.createFile_cases fi with ⟨_, hsame⟩ | ⟨_, _, opened, _, hcreate⟩
    . rw [hsame]
    . rw [hcreate]
      rfl
  | write i chunk =>
    left
    rcases write_eq_some hstep with ⟨w, _, rfl⟩
    rfl
  | destroy i =>
    left
    rcases destroy_eq_some hstep with ⟨w, _, rfl⟩
    rfl
  | finalizeFile fi =>
    simp only [OpenStorage.step, Option.some.injEq] at hstep
    cases hresult : (t.storage.finalizeFile sha256 fi).2 with
    | true => exact Or.inr ⟨fi, rfl, hresult⟩
    | false =>
      left
      rw [← hstep, (t.storage.finalizeFile_checked sha256 fi).unchanged hresult]

theorem indexed_exec (sha256 : List UInt8 → String) (disk : StaticStorage) (events : List Event)
    (t : OpenStorage) (hexec : Run.exec (step sha256) (ofDisk sha256 disk) events = some t) :
    t.Indexed
      ∧ (∀ fi, t.storage.FinalizesChecked sha256 fi)
      ∧ ∀ e t', t.step sha256 e = some t' → t'.storage.files = t.storage.files
        ∨ ∃ fi, e = .finalizeFile fi ∧ (t.storage.finalizeFile sha256 fi).2 = true := by
  have hblocks : t.Blocks :=
    Run.exec_invariant (fun _ _ _ h hstep => h.step hstep) (ofDisk_blocks sha256 disk) hexec
  exact ⟨hblocks.toIndexed, t.storage.finalizeFile_checked sha256, fun e t' hstep =>
    step_files hstep⟩

/--
A transfer that is given up and a second one of the same file that is finalized.
-/
theorem indexed_exec_twoTransfers :
    let file : FileInfo := { fileName := "a.txt", sha256sum := "d", fileSize := 1 }
    let chunk : FileChunk := { size := 1, data := [97] }
    ∃ t, Run.exec (step fun _ => "d") (ofDisk (fun _ => "d") (StaticStorage.init "n" (by decide)))
        [.createFile file, .destroy 0, .createFile file, .write 1 chunk, .finalizeFile file]
          = some t
      ∧ t.Indexed := by
  intro file chunk
  have hexec : (Run.exec (step fun _ => "d")
      (ofDisk (fun _ => "d") (StaticStorage.init "n" (by decide)))
      [.createFile file, .destroy 0, .createFile file, .write 1 chunk,
        .finalizeFile file]).isSome := by
    decide
  rcases Option.isSome_iff_exists.mp hexec with ⟨t, ht⟩
  exact ⟨t, ht, (indexed_exec _ _ _ t ht).1⟩

end OpenStorage

end Peerpaste
