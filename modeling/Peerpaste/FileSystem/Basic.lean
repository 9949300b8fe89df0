import Mathlib.Data.List.AList
import Mathlib.Data.List.TakeWhile

/-!
This module contains a file system without links: directories, regular files and how a path is
resolved to one of them.
-/

abbrev AbsPath := List String

structure FileSystem where
  dirs : List AbsPath
  files : AList (fun _ : AbsPath => List UInt8)
  deriving DecidableEq

namespace FileSystem

theorem dir_append_inj {dir : AbsPath} {name name' : String} (h : dir ++ [name] = dir ++ [name']) :
    name = name' := by
  simpa using h

theorem dir_append_eq_iff {dir : AbsPath} {name name' : String} :
    dir ++ [name] = dir ++ [name'] ↔ name = name' :=
  ⟨dir_append_inj, fun heq => heq ▸ rfl⟩

/--
The parts of a path between its slashes. The path ends at the first null character, as a C string
does.
-/
def components (path : String) : List String :=
  ((path.toList.takeWhile (· != Char.ofNat 0)).splitOn '/').map String.ofList

theorem components_ne_nil (path : String) : components path ≠ [] := by
  simp [components]

def lastName (path : String) : String :=
  (components path).getLast (components_ne_nil path)

def IsName (s : String) : Prop :=
  components s = [s] ∧ s ≠ "" ∧ s ≠ "." ∧ s ≠ ".."

instance (s : String) : Decidable (IsName s) :=
  inferInstanceAs (Decidable (_ ∧ _))

def enter (fs : FileSystem) (dir : AbsPath) (name : String) : Option AbsPath :=
  if name = "" ∨ name = "." then
    some dir
  else if name = ".." then
    some dir.dropLast
  else if dir ++ [name] ∈ fs.dirs then
    some (dir ++ [name])
  else
    none

def walk (fs : FileSystem) (dir : AbsPath) (names : List String) : Option AbsPath :=
  names.foldlM fs.enter dir

def fileIn (fs : FileSystem) (dir : AbsPath) (name : String) : Option AbsPath :=
  if name = "" ∨ name = "." ∨ name = ".." ∨ dir ++ [name] ∈ fs.dirs then
    none
  else
    some (dir ++ [name])

def resolve (fs : FileSystem) (path : String) : Option AbsPath :=
  (fs.walk [] (components path).dropLast).bind (fs.fileIn · (lastName path))

def put (fs : FileSystem) (path : AbsPath) (bytes : List UInt8) : FileSystem :=
  { fs with files := fs.files.insert path bytes }

def content (fs : FileSystem) (path : AbsPath) : List UInt8 :=
  (fs.files.lookup path).getD []

section Components

variable {a b : String}

theorem components_append_slash (ha : Char.ofNat 0 ∉ a.toList) (b : String) :
    components (a ++ "/" ++ b) = components a ++ components b := by
  have htake : a.toList.takeWhile (· != Char.ofNat 0) = a.toList := by
    rw [List.takeWhile_eq_self_iff]
    intro c hc
    simp only [bne_iff_ne]
    rintro rfl
    exact ha hc
  have hslash : "/".toList = ['/'] := rfl
  have hne : ('/' != Char.ofNat 0) = true := rfl
  unfold components
  rw [String.toList_append, String.toList_append, hslash, List.append_assoc, List.takeWhile_append,
    if_pos (by rw [htake]), List.singleton_append, List.takeWhile_cons, if_pos hne,
    List.splitOn_append_cons_self, List.map_append, htake]

theorem lastName_append_slash (ha : Char.ofNat 0 ∉ a.toList) (b : String) :
    lastName (a ++ "/" ++ b) = lastName b := by
  unfold lastName
  simp only [components_append_slash ha b]
  rw [List.getLast_append_of_ne_nil _ (components_ne_nil b)]

theorem dropLast_components_append_slash (ha : Char.ofNat 0 ∉ a.toList) (b : String) :
    (components (a ++ "/" ++ b)).dropLast = components a ++ (components b).dropLast := by
  rw [components_append_slash ha b, List.dropLast_append_of_ne_nil (components_ne_nil b)]

end Components

namespace IsName

variable {s : String}

theorem not_null_mem (hs : IsName s) : Char.ofNat 0 ∉ s.toList := by
  have hparts : (s.toList.takeWhile (· != Char.ofNat 0)).splitOn '/' = [s.toList] := by
    have h := congrArg (List.map String.toList) hs.1
    simpa [components, Function.comp_def] using h
  have hself : ['/'].intercalate ((s.toList.takeWhile (· != Char.ofNat 0)).splitOn '/') = _ :=
    List.intercalate_splitOn '/'
  rw [hparts, List.intercalate_singleton] at hself
  intro hmem
  rw [hself] at hmem
  simpa using List.mem_takeWhile_imp hmem

theorem lastName_eq (hs : IsName s) : lastName s = s := by
  simp [lastName, hs.1]

end IsName

section Resolve

variable {fs : FileSystem} {dir p : AbsPath} {name : String} {names : List String}

@[simp]
theorem walk_nil (fs : FileSystem) (dir : AbsPath) : fs.walk dir [] = some dir := rfl

theorem walk_cons (fs : FileSystem) (dir : AbsPath) (name : String) (names : List String) :
    fs.walk dir (name :: names) = (fs.enter dir name).bind (fs.walk · names) := rfl

theorem walk_append (fs : FileSystem) (dir : AbsPath) (names names' : List String) :
    fs.walk dir (names ++ names') = (fs.walk dir names).bind (fs.walk · names') := by
  exact List.foldlM_append

theorem enter_name (hname : IsName name) (hdir : dir ++ [name] ∈ fs.dirs) :
    fs.enter dir name = some (dir ++ [name]) := by
  unfold enter
  rw [if_neg (not_or.mpr ⟨hname.2.1, hname.2.2.1⟩), if_neg hname.2.2.2, if_pos hdir]

theorem fileIn_eq_some :
    fs.fileIn dir name = some p
      ↔
    (name ≠ "" ∧ name ≠ "." ∧ name ≠ ".." ∧ dir ++ [name] ∉ fs.dirs) ∧ p = dir ++ [name] := by
  unfold fileIn
  split
  . rename_i h
    simp only [reduceCtorEq, false_iff]
    tauto
  . rename_i h
    simp only [Option.some.injEq]
    constructor
    . intro hp
      exact ⟨by tauto, hp.symm⟩
    . intro hp
      exact hp.2.symm

theorem resolve_congr {fs' : FileSystem} (h : fs'.dirs = fs.dirs) : fs'.resolve = fs.resolve := by
  have henter : fs'.enter = fs.enter := by
    unfold enter
    rw [h]
  have hfileIn : fs'.fileIn = fs.fileIn := by
    unfold fileIn
    rw [h]
  unfold resolve walk
  rw [henter, hfileIn]

end Resolve

section Put

variable {fs : FileSystem} {p q : AbsPath} {bytes : List UInt8}

@[simp]
theorem put_content (fs : FileSystem) (p : AbsPath) (bytes : List UInt8) :
    (fs.put p bytes).content p = bytes := by
  simp [content, put]

theorem content_put_of_ne (h : q ≠ p) : (fs.put p bytes).content q = fs.content q := by
  unfold content put
  rw [AList.lookup_insert_ne h]

theorem mem_put_files : q ∈ (fs.put p bytes).files ↔ q = p ∨ q ∈ fs.files := by
  simp [put]

end Put

end FileSystem
