import Mathlib.Algebra.Group.Nat.Defs
import Mathlib.Data.List.TakeDrop
import Peerpaste.FileSystem.Basic

/-!
This module contains file streams for output and for input, with the part of the state of a standard
stream that its caller sees: where it stands and whether it has failed.
-/

namespace FileSystem

/--
The largest offset that the system can seek to is below this.
-/
def maxOffset : Nat := 2 ^ 63

/--
Write at an offset. A gap behind the end of the file is filled with zeros.
-/
def overwrite (bytes : List UInt8) (offset : Nat) (data : List UInt8) : List UInt8 :=
  if data = [] then
    bytes
  else
    bytes.takeD offset 0 ++ data ++ bytes.drop (offset + data.length)

structure Ofstream where
  path : AbsPath
  pos : Nat := 0
  fail : Bool := false
  deriving DecidableEq, Repr

namespace Ofstream

/--
Open with `out | binary`. The file is empty afterwards.
-/
def openTrunc (fs : FileSystem) (path : String) : Option (FileSystem × Ofstream) :=
  (fs.resolve path).map fun p => (fs.put p [], { path := p })

/--
Open with `in | out | binary`. The file has to exist and stays as it is.
-/
def openInOut (fs : FileSystem) (path : String) : Option (FileSystem × Ofstream) :=
  (fs.resolve path).bind fun p => if p ∈ fs.files then some (fs, { path := p }) else none

def seekp (o : Ofstream) (offset : Nat) : Ofstream :=
  if o.fail then
    o
  else if offset < maxOffset then
    { o with pos := offset }
  else
    { o with fail := true }

def write (fs : FileSystem) (o : Ofstream) (data : List UInt8) : FileSystem × Ofstream :=
  if o.fail then
    (fs, o)
  else
    (fs.put o.path (overwrite (fs.content o.path) o.pos data),
      { o with pos := o.pos + data.length })

def tellp (o : Ofstream) : Int :=
  if o.fail then -1 else o.pos

end Ofstream

structure Ifstream where
  path : AbsPath
  pos : Nat := 0
  eof : Bool := false
  fail : Bool := false
  deriving DecidableEq, Repr

namespace Ifstream

def openAte (fs : FileSystem) (path : String) : Option Ifstream :=
  (fs.resolve path).bind fun p =>
    if p ∈ fs.files then some { path := p, pos := (fs.content p).length } else none

def seekEnd (fs : FileSystem) (i : Ifstream) : Ifstream :=
  if i.fail then
    { i with eof := false }
  else
    { i with eof := false, pos := (fs.content i.path).length }

def seekg (i : Ifstream) (offset : Nat) : Ifstream :=
  if i.fail then
    { i with eof := false }
  else if offset < maxOffset then
    { i with eof := false, pos := offset }
  else
    { i with eof := false, fail := true }

/--
Read `n` bytes. Reading fewer is the end of the file and fails, with the bytes that there were read.
-/
def read (fs : FileSystem) (i : Ifstream) (n : Nat) : Ifstream × List UInt8 :=
  if i.eof || i.fail then
    ({ i with fail := true }, [])
  else
    let data := ((fs.content i.path).drop i.pos).take n
    if data.length < n then
      ({ i with pos := i.pos + data.length, eof := true, fail := true }, data)
    else
      ({ i with pos := i.pos + data.length }, data)

end Ifstream

section Overwrite

variable {bytes data : List UInt8} {offset : Nat}

theorem getElem?_overwrite (hoffset : offset ≤ bytes.length) (p : Nat) :
    (overwrite bytes offset data)[p]? =
      if offset ≤ p ∧ p < offset + data.length then data[p - offset]? else bytes[p]? := by
  unfold overwrite
  by_cases hdata : data = []
  . subst hdata
    rw [if_pos rfl, if_neg (by simp only [List.length_nil]; omega)]
  . rw [if_neg hdata, List.takeD_eq_take _ hoffset, List.append_assoc]
    by_cases hbefore : p < offset
    . rw [List.getElem?_append_left (by simp; omega), List.getElem?_take_of_lt hbefore,
        if_neg (by omega)]
    . rw [List.getElem?_append_right (by simp; omega), List.length_take_of_le hoffset]
      by_cases hinside : p < offset + data.length
      . rw [List.getElem?_append_left (by omega), if_pos (by omega)]
      . rw [List.getElem?_append_right (by omega), List.getElem?_drop, if_neg (by omega)]
        congr 1
        omega

theorem overwrite_take (whole : List UInt8) {k : Nat} (hoffset : offset ≤ k) (hk : k ≤ whole.length)
    (n : Nat) :
    overwrite (whole.take k) offset ((whole.drop offset).take n)
      = whole.take (max k (offset + n)) := by
  -- writing the bytes of `whole` that belong at the offset over a beginning of `whole` leaves a
  -- beginning of `whole`
  apply List.ext_getElem?
  intro p
  rw [getElem?_overwrite (by simp; omega)]
  simp only [List.length_take, List.length_drop, List.getElem?_take, List.getElem?_drop]
  split
  . rename_i hp
    rw [if_pos (by omega), if_pos (by omega)]
    congr 1
    omega
  . rename_i hp
    by_cases hpk : p < k
    . rw [if_pos hpk, if_pos (by omega)]
    . rw [if_neg hpk]
      split
      . rw [List.getElem?_eq_none]
        omega
      . rfl

end Overwrite

namespace Ofstream

variable {fs fs' : FileSystem} {path : String} {o o' : Ofstream}

theorem openTrunc_eq_some :
    openTrunc fs path = some (fs', o)
      ↔
    fs.resolve path = some o.path ∧ fs' = fs.put o.path [] ∧ o = { path := o.path } := by
  unfold openTrunc
  rw [Option.map_eq_some_iff]
  constructor
  . rintro ⟨p, hp, h⟩
    cases h
    exact ⟨hp, rfl, rfl⟩
  . rintro ⟨hp, hfs, ho⟩
    refine ⟨o.path, hp, ?_⟩
    rw [hfs, ← ho]

theorem openInOut_eq_some :
    openInOut fs path = some (fs', o)
      ↔
    fs.resolve path = some o.path ∧ o.path ∈ fs.files ∧ fs' = fs ∧ o = { path := o.path } := by
  unfold openInOut
  rw [Option.bind_eq_some_iff]
  constructor
  . rintro ⟨p, hp, h⟩
    split at h
    . rename_i hmem
      cases h
      exact ⟨hp, hmem, rfl, rfl⟩
    . cases h
  . rintro ⟨hp, hmem, hfs, ho⟩
    refine ⟨o.path, hp, ?_⟩
    rw [if_pos hmem, hfs, ← ho]

@[simp]
theorem seekp_path (o : Ofstream) (offset : Nat) : (o.seekp offset).path = o.path := by
  unfold seekp
  split
  . rfl
  . split <;> rfl

theorem seekp_of_lt {offset : Nat} (hfail : o.fail = false) (hoffset : offset < maxOffset) :
    o.seekp offset = { o with pos := offset } := by
  unfold seekp
  rw [if_neg (by simp [hfail]), if_pos hoffset]

theorem seekp_pos {offset : Nat} (h : (o.seekp offset).fail = false) : (o.seekp offset).pos =
    offset := by
  unfold seekp at h ⊢
  split
  . rename_i hfail
    simp [hfail] at h
  . split
    . rfl
    . rename_i hfail hoffset
      simp [hfail, hoffset] at h

theorem seekp_pos_le (o : Ofstream) (offset : Nat) : (o.seekp offset).pos ≤ max o.pos offset := by
  unfold seekp
  split
  . omega
  . split
    . exact le_max_right _ _
    . exact le_max_left _ _

theorem seekp_pos_of_fail {offset : Nat} (h : (o.seekp offset).fail = true) :
    (o.seekp offset).pos = o.pos := by
  unfold seekp at h ⊢
  split
  . rfl
  . split
    . rename_i hfail hoffset
      simp [hfail, hoffset] at h
    . rfl

@[simp]
theorem write_path (fs : FileSystem) (o : Ofstream) (data : List UInt8) :
    (o.write fs data).2.path = o.path := by
  unfold write
  split <;> rfl

theorem write_of_not_fail (hfail : o.fail = false) (data : List UInt8) :
    o.write fs data =
      (fs.put o.path (overwrite (fs.content o.path) o.pos data),
        { o with pos := o.pos + data.length }) := by
  unfold write
  rw [if_neg (by simp [hfail])]

theorem write_content_of_ne {p : AbsPath} (hp : p ≠ o.path) (data : List UInt8) :
    (o.write fs data).1.content p = fs.content p := by
  unfold write
  split
  . rfl
  . exact content_put_of_ne hp

theorem mem_write_files {p : AbsPath} (hp : p ∈ fs.files) (data : List UInt8) :
    p ∈ (o.write fs data).1.files := by
  unfold write
  split
  . exact hp
  . exact mem_put_files.mpr (Or.inr hp)

theorem mem_write_files_iff (hpath : o.path ∈ fs.files) (data : List UInt8) {p : AbsPath} :
    p ∈ (o.write fs data).1.files ↔ p ∈ fs.files := by
  refine ⟨?_, fun hp => mem_write_files hp data⟩
  unfold write
  split
  . exact id
  . intro hp
    rcases mem_put_files.mp hp with rfl | hp
    . exact hpath
    . exact hp

end Ofstream

namespace Ifstream

variable {fs : FileSystem} {i : Ifstream}

theorem read_of_good (heof : i.eof = false) (hfail : i.fail = false) {n : Nat} {data : List UInt8}
    (hdata : ((fs.content i.path).drop i.pos).take n = data) :
    i.read fs n =
      (⟨i.path, i.pos + data.length, decide (data.length < n), decide (data.length < n)⟩,
        data) := by
  unfold read
  rw [if_neg (by simp [heof, hfail])]
  simp only [hdata]
  split
  . rename_i hshort
    simp [hshort]
  . rename_i hshort
    simp [hshort, heof, hfail]

end Ifstream

end FileSystem
