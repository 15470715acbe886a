import SingBoxMini.Support.HashMap
import SingBoxMini.Support.Tasks

/-!
# Support — Files

A directory as the processes that use it see it: names of inodes, and the contents of the inodes.

An open file is an inode, whatever its name has become: a process that writes to a file another one
has renamed writes to the file under its new name.  Inodes are never reused here.  No inode has two
names.

* `Holds`: a file that is being written has its name still and what was written so far.
* `Holds.write`, `Holds.rename`: then a write adds to it, and a rename puts it in place at once.
-/

/-- A file, whatever its name. -/
abbrev InodeId := Nat

/-- A directory: the file each name is for, and the contents of all files ever made. -/
structure Files (Name : Type) [DecidableEq Name] where
  entries : HashMap Name InodeId
  inodes : List (List UInt8)
  live : ∀ name i, entries.lookup name = some i → i < inodes.length
  oneName : ∀ name name' i, entries.lookup name = some i → entries.lookup name' = some i →
    name = name'

namespace Files

variable {Name : Type} [DecidableEq Name]

/-- The contents of the file of a name. -/
def read (files : Files Name) (name : Name) : Option (List UInt8) :=
  (files.entries.lookup name).bind fun i => files.inodes[i]?

/-- The contents after `write` at an offset. -/
def overwrite (offset : Nat) (bytes contents : List UInt8) : List UInt8 :=
  contents.take offset ++ List.replicate (offset - contents.length) 0 ++ bytes ++
    contents.drop (offset + bytes.length)

/-- A change to the contents of a file. -/
def modify (files : Files Name) (i : InodeId) (f : List UInt8 → List UInt8) : Files Name where
  entries := files.entries
  inodes := files.inodes.modify i f
  live := by
    rw [List.length_modify]
    exact files.live
  oneName := files.oneName

/-- A new file under a name. -/
def insert (files : Files Name) (name : Name) : Files Name where
  entries := files.entries.insert name files.inodes.length
  inodes := files.inodes ++ [[]]
  live := by
    intro name' i hi
    rw [List.length_append]
    by_cases hname : name' = name
    · subst hname
      rw [AList.lookup_insert] at hi
      cases hi
      exact Nat.lt_succ_self _
    · rw [AList.lookup_insert_ne hname] at hi
      exact Nat.lt_add_right _ (files.live name' i hi)
  oneName := by
    intro a b i ha hb
    by_cases hane : a = name <;> by_cases hbne : b = name
    · rw [hane, hbne]
    · subst hane
      rw [AList.lookup_insert] at ha
      rw [AList.lookup_insert_ne hbne] at hb
      cases ha
      exact absurd (files.live b _ hb) (Nat.lt_irrefl _)
    · subst hbne
      rw [AList.lookup_insert] at hb
      rw [AList.lookup_insert_ne hane] at ha
      cases hb
      exact absurd (files.live a _ ha) (Nat.lt_irrefl _)
    · rw [AList.lookup_insert_ne hane] at ha
      rw [AList.lookup_insert_ne hbne] at hb
      exact files.oneName a b i ha hb

/-- `open` with `O_CREAT` and `O_TRUNC`. -/
def create (files : Files Name) (name : Name) : Files Name × InodeId :=
  match files.entries.lookup name with
  | some i => (files.modify i fun _ => [], i)
  | none => (files.insert name, files.inodes.length)

/-- `write` to an open file. -/
def write (files : Files Name) (i : InodeId) (offset : Nat) (bytes : List UInt8) : Files Name :=
  files.modify i (overwrite offset bytes)

/-- The names after a file has moved to another one. -/
theorem lookup_moved {entries : HashMap Name InodeId} (source target name : Name) (i : InodeId) :
    ((entries.erase source).insert target i).lookup name =
      if name = target then some i else if name = source then none else entries.lookup name := by
  by_cases htarget : name = target
  · rw [if_pos htarget, htarget, AList.lookup_insert]
  · rw [if_neg htarget, AList.lookup_insert_ne htarget, HashMap.lookup_erase_eq]

/-- `rename`; it fails if the file is not there. -/
def rename (files : Files Name) (source target : Name) : Option (Files Name) :=
  match h : files.entries.lookup source with
  | none => none
  | some i => some {
      entries := (files.entries.erase source).insert target i
      inodes := files.inodes
      live := by
        intro name j hj
        rw [lookup_moved] at hj
        split_ifs at hj
        · cases hj
          exact files.live source i h
        · exact files.live name j hj
      oneName := by
        intro a b j ha hb
        -- the names of the file that moved are `target` and nothing else
        have hother : ∀ c, c ≠ source → files.entries.lookup c ≠ some i :=
          fun c hc hci => hc (files.oneName c source i hci h)
        rw [lookup_moved] at ha hb
        split_ifs at ha hb with hat hbt hbs has hbt hbs
        · rw [hat, hbt]
        · cases ha
          exact absurd hb (hother b hbs)
        · cases hb
          exact absurd ha (hother a has)
        · exact files.oneName a b j ha hb }

/-! ### The names -/

variable {files files' : Files Name} {name other : Name} {i : InodeId}

theorem lookup_rename {source target : Name} (h : files.rename source target = some files') :
    ∃ i, files.entries.lookup source = some i ∧ files'.inodes = files.inodes ∧
      ∀ name, files'.entries.lookup name =
        if name = target then some i else if name = source then none
        else files.entries.lookup name := by
  unfold rename at h
  split at h
  · cases h
  · rename_i i hi
    cases h
    exact ⟨i, hi, rfl, fun name => lookup_moved source target name i⟩

theorem read_eq (h : files.entries.lookup name = some i) : files.read name = files.inodes[i]? := by
  rw [read, h, Option.bind_some]

/-- A change to the contents of one file. -/
theorem read_modify_of_ne {f : List UInt8 → List UInt8}
    (h : files.entries.lookup name ≠ some i) : (files.modify i f).read name = files.read name := by
  unfold read
  cases hname : files.entries.lookup name with
  | none => simp [modify, hname]
  | some j =>
      have hij : i ≠ j := by
        rintro rfl
        exact h hname
      simp [modify, hname, Tasks.getElem?_modified, hij]

theorem lookup_create (files : Files Name) (name : Name) :
    (files.create name).1.entries.lookup name = some (files.create name).2 := by
  unfold create
  cases h : files.entries.lookup name with
  | some i => exact h
  | none => exact AList.lookup_insert _

/-- An opened file was there, or it is new. -/
theorem create_inode (files : Files Name) (name : Name) :
    files.entries.lookup name = some (files.create name).2 ∨
      (files.create name).2 = files.inodes.length := by
  unfold create
  cases h : files.entries.lookup name with
  | some i => exact .inl rfl
  | none => exact .inr rfl

theorem lookup_create_of_ne (h : other ≠ name) :
    (files.create name).1.entries.lookup other = files.entries.lookup other := by
  unfold create
  cases files.entries.lookup name with
  | some i => rfl
  | none => exact AList.lookup_insert_ne h

/-- Opening a file leaves the others as they are. -/
theorem read_create_of_ne (h : other ≠ name) :
    (files.create name).1.read other = files.read other := by
  unfold create
  cases hname : files.entries.lookup name with
  | some i => exact read_modify_of_ne fun hother => h (files.oneName _ _ i hother hname)
  | none =>
      simp only [read, insert, AList.lookup_insert_ne h]
      cases hother : files.entries.lookup other with
      | none => rfl
      | some j =>
          have hlt := files.live other j hother
          simp [Tasks.getElem?_spawn, Nat.ne_of_lt hlt]

/-! ### A file that is being written -/

/-- A file that is being written: its inode, what it is to contain, and how much was written. -/
structure Writing where
  inode : InodeId
  contents : List UInt8
  written : Nat
deriving DecidableEq

/-- The next bytes to be written. -/
def Writing.next (w : Writing) (n : Nat) : List UInt8 := (w.contents.drop w.written).take n

/-- The file has its name and what was written so far. -/
structure Holds (files : Files Name) (name : Name) (w : Writing) : Prop where
  named : files.entries.lookup name = some w.inode
  contents : files.inodes[w.inode]? = some (w.contents.take w.written)

theorem holds_create (files : Files Name) (name : Name) (contents : List UInt8) :
    (files.create name).1.Holds name ⟨(files.create name).2, contents, 0⟩ := by
  refine ⟨lookup_create files name, ?_⟩
  unfold create
  cases h : files.entries.lookup name with
  | some i =>
      have hlt := files.live name i h
      simp [modify, List.getElem?_eq_getElem hlt]
  | none => simp [insert]

theorem overwrite_length (bytes contents : List UInt8) :
    overwrite contents.length bytes contents = contents ++ bytes := by
  simp [overwrite]

/-- **A write adds to the file.** -/
theorem Holds.write {w : Writing} {n : Nat} (h : files.Holds name w)
    (hw : w.written ≤ w.contents.length) : (files.write w.inode w.written (w.next n)).Holds name
      { w with written := w.written + n } := by
  refine ⟨h.named, ?_⟩
  have hlength : (w.contents.take w.written).length = w.written := List.length_take_of_le hw
  have happend : overwrite w.written (w.next n) (w.contents.take w.written) =
      w.contents.take w.written ++ w.next n := by
    nth_rewrite 1 [← hlength]
    exact overwrite_length _ _
  rw [Files.write, modify, Tasks.getElem?_modified, if_pos rfl, h.contents, Option.map_some,
    happend, Writing.next, List.take_add]

/-- A write to it leaves the other files as they are. -/
theorem Holds.read_write {w : Writing} {offset : Nat} {bytes : List UInt8}
    (h : files.Holds name w) (hne : other ≠ name) :
    (files.write w.inode offset bytes).read other = files.read other :=
  read_modify_of_ne fun hother => hne (files.oneName _ _ _ hother h.named)

/-- **A rename puts the file in place.** -/
theorem Holds.rename {w : Writing} {target : Name} (h : files.Holds name w)
    (hr : files.rename name target = some files') :
    files'.read target = some (w.contents.take w.written) := by
  obtain ⟨i, hi, hinodes, hlookup⟩ := lookup_rename hr
  cases h.named.symm.trans hi
  simp [read, hlookup, hinodes, h.contents]

end Files
