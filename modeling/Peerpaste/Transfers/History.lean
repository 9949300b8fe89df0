import Peerpaste.Transfers.Basic

/-!
This module contains the history of a store: the version that each byte on disk was written for.
-/

namespace Peerpaste

open FileSystem

namespace Transfers

/--
A content that was offered under a name. It is refuted when a digest of the file has come out wrong.
-/
structure Version where
  sha256sum : String
  refuted : Bool
  deriving DecidableEq, Repr

/--
What a run tells about the store that the store does not remember: the version that each byte of a
file was written for since the file was opened empty, and the version of the last transfer of each
name.
-/
structure History where
  origin : AbsPath → Nat → Option Version
  current : String → Option Version

namespace History

def empty : History where
  origin _ _ := none
  current _ := none

def truncate (η : History) (p : AbsPath) : History :=
  { η with origin := Function.update η.origin p fun _ => none }

def start (η : History) (info : FileInfo) : History :=
  let refuted := decide (0 < info.offset) && (η.current info.fileName).elim false (·.refuted)
  { η with current := Function.update η.current info.fileName (some ⟨info.sha256sum, refuted⟩) }

def write (η : History) (w : OfstreamWrapper) (chunk : FileChunk) : History :=
  let o := w.ofstream.seekp chunk.offset
  let length := (chunk.data.take chunk.size).length
  { η with origin := fun p q =>
      if p = o.path ∧ o.fail = false ∧ o.pos ≤ q ∧ q < o.pos + length then
        some ⟨w.fileInfo.sha256sum, false⟩
      else
        η.origin p q }

def refute (η : History) (w : OfstreamWrapper) : History where
  origin := Function.update η.origin w.ofstream.path fun q =>
    (η.origin w.ofstream.path q).map ({ · with refuted := true })
  current := Function.update η.current w.fileInfo.fileName
    ((η.current w.fileInfo.fileName).map ({ · with refuted := true }))

end History

def refutes (sha256 : List UInt8 → String) (s : StaticStorage) (g : GetFile) (w : OfstreamWrapper)
    (chunk : FileChunk) : Bool :=
  let written := w.write s chunk
  let name := w.fileInfo.fileName
  !decide (written.2.ofstream.tellp < GetFile.streamsize g.fileSize)
    && !written.1.existsInternal name && written.1.isBlockedInternal name
    && written.1.sha256FromFile sha256 name != w.fileInfo.sha256sum

def record (sha256 : List UInt8 → String) (t : Transfers) (η : History) : Event → History
  | .offer _ fileInfo _ =>
    let created := t.storage.createFile fileInfo
    match created.2.2 with
    | none => η
    | some output =>
      let opened := if fileInfo.fileName ∈ t.storage.fileTransfer then
          η
        else
          η.truncate output.ofstream.path
      opened.start created.2.1
  | .response i response =>
    match t.active i with
    | none => η
    | some g =>
      match g.accepts response with
      | none => η
      | some (w, chunk) =>
        let written := η.write w chunk
        if refutes sha256 t.storage g w chunk then written.refute w else written
  | .destroy _ => η
  | .restart => η

def stepWithHistory (sha256 : List UInt8 → String) :
    Transfers × History → Event → Option (Transfers × History) :=
  Run.observe (step sha256) (record sha256)

namespace History

def Backs (η : History) (p : AbsPath) (name sha256sum : String) (k : Nat) : Prop :=
  ∃ refuted, η.current name = some ⟨sha256sum, refuted⟩
    ∧ ∀ q < k, ∃ r, η.origin p q = some ⟨sha256sum, r⟩ ∧ (r = true → refuted = true)

variable {η : History} {p p' : AbsPath} {name name' sha256sum : String} {k l : Nat}
  {w : OfstreamWrapper} {chunk : FileChunk} {info : FileInfo}

theorem Backs.mono (h : η.Backs p name sha256sum k) (hl : l ≤ k) : η.Backs p name sha256sum l := by
  rcases h with ⟨refuted, hcurrent, horigin⟩
  refine ⟨refuted, hcurrent, ?_⟩
  intro q hq
  exact horigin q (by omega)

theorem Backs.truncate (h : η.Backs p' name sha256sum k) (hp : p' ≠ p) :
    (η.truncate p).Backs p' name sha256sum k := by
  rcases h with ⟨refuted, hcurrent, horigin⟩
  refine ⟨refuted, hcurrent, ?_⟩
  intro q hq
  simp only [History.truncate]
  rw [Function.update_of_ne hp]
  exact horigin q hq

theorem Backs.start (h : η.Backs p name' sha256sum k) (hname : name' ≠ info.fileName) :
    (η.start info).Backs p name' sha256sum k := by
  rcases h with ⟨refuted, hcurrent, horigin⟩
  refine ⟨refuted, ?_, horigin⟩
  simp only [History.start]
  rw [Function.update_of_ne hname]
  exact hcurrent

theorem backs_start_zero (η : History) (p : AbsPath) (info : FileInfo) :
    (η.start info).Backs p info.fileName info.sha256sum 0 := by
  refine ⟨_, Function.update_self _ _ _, ?_⟩
  intro q hq
  omega

theorem Backs.start_self (info : FileInfo) (h : η.Backs p info.fileName sha256sum k)
    (hcurrent : η.current info.fileName = some ⟨info.sha256sum, false⟩) :
    (η.start info).Backs p info.fileName info.sha256sum k := by
  rcases h with ⟨refuted, hcurrent', horigin⟩
  rw [hcurrent] at hcurrent'
  cases hcurrent'
  refine ⟨false, ?_, horigin⟩
  simp only [History.start]
  rw [Function.update_self, hcurrent]
  simp

theorem Backs.write_of_ne (h : η.Backs p name sha256sum k) (hp : p ≠ w.ofstream.path) :
    (η.write w chunk).Backs p name sha256sum k := by
  rcases h with ⟨refuted, hcurrent, horigin⟩
  refine ⟨refuted, hcurrent, ?_⟩
  intro q hq
  simp only [History.write, Ofstream.seekp_path]
  rw [if_neg (by simp [hp])]
  exact horigin q hq

theorem Backs.write_self
    (h : η.Backs w.ofstream.path w.fileInfo.fileName w.fileInfo.sha256sum w.ofstream.pos)
    (hoffset : chunk.offset ≤ w.ofstream.pos) (s : StaticStorage) :
    (η.write w chunk).Backs w.ofstream.path w.fileInfo.fileName w.fileInfo.sha256sum
      (max chunk.offset (w.write s chunk).2.ofstream.pos) := by
  -- the stream stays behind bytes of its version when it writes one without a gap
  rcases h with ⟨refuted, hcurrent, horigin⟩
  refine ⟨refuted, hcurrent, ?_⟩
  intro q hq
  simp only [OfstreamWrapper.write, Ofstream.write] at hq
  simp only [History.write]
  cases hfail : (w.ofstream.seekp chunk.offset).fail with
  | true =>
    rw [hfail, if_pos rfl] at hq
    dsimp only at hq
    simp only [Bool.true_eq_false, false_and, and_false, if_false]
    have hpos := Ofstream.seekp_pos_of_fail hfail
    exact horigin q (by omega)
  | false =>
    rw [hfail, if_neg (by simp)] at hq
    rw [Ofstream.seekp_pos hfail] at hq ⊢
    dsimp only at hq
    split
    . exact ⟨false, rfl, by simp⟩
    . rename_i hnot
      simp only [Ofstream.seekp_path, true_and, not_and] at hnot
      exact horigin q (by omega)

theorem Backs.refute_of_ne (h : η.Backs p name sha256sum k) (hp : p ≠ w.ofstream.path)
    (hname : name ≠ w.fileInfo.fileName) : (η.refute w).Backs p name sha256sum k := by
  rcases h with ⟨refuted, hcurrent, horigin⟩
  refine ⟨refuted, ?_, ?_⟩
  . simp only [History.refute]
    rw [Function.update_of_ne hname]
    exact hcurrent
  . intro q hq
    simp only [History.refute]
    rw [Function.update_of_ne hp]
    exact horigin q hq

theorem Backs.refute_self (h : η.Backs w.ofstream.path w.fileInfo.fileName sha256sum k) :
    (η.refute w).Backs w.ofstream.path w.fileInfo.fileName sha256sum k := by
  rcases h with ⟨refuted, hcurrent, horigin⟩
  refine ⟨true, ?_, ?_⟩
  . simp only [History.refute]
    rw [Function.update_self, hcurrent]
    rfl
  . intro q hq
    rcases horigin q hq with ⟨r, hr, -⟩
    refine ⟨true, ?_, fun _ => rfl⟩
    simp only [History.refute]
    rw [Function.update_self, hr]
    rfl

end History

end Transfers

end Peerpaste
