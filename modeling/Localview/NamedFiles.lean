import Mathlib.Logic.Function.Basic

/-! # Files by their names

A directory as a function from names to contents.  A file is put, moved over another or
erased, each in one step, and reading is application.
-/

/-- The contents of the names that have a file. -/
abbrev NamedFiles (π β : Type*) : Type _ := π → Option β

namespace NamedFiles
variable {π β : Type*} [DecidableEq π]

/-- A file under the name, whatever was there. -/
def put (files : NamedFiles π β) (name : π) (content : β) : NamedFiles π β :=
  Function.update files name (some content)

/-- The name has no file. -/
def erase (files : NamedFiles π β) (name : π) : NamedFiles π β := Function.update files name none

/-- What one name had is under the other. -/
def move (files : NamedFiles π β) (source destination : π) : NamedFiles π β :=
  Function.update (Function.update files destination (files source)) source none

section
variable {files : NamedFiles π β} {name name' other : π} {content : β}

@[simp] theorem put_self : files.put name content name = some content := by simp [put]

@[simp] theorem put_of_ne (h : other ≠ name) : files.put name content other = files other := by
  simp [put, h]

@[simp] theorem erase_self : files.erase name name = none := by simp [erase]

@[simp] theorem erase_of_ne (h : other ≠ name) : files.erase name other = files other := by
  simp [erase, h]

@[simp] theorem move_source : files.move name name' name = none := by simp [move]

@[simp] theorem move_destination (h : name' ≠ name) : files.move name name' name' = files name := by
  simp [move, h]

@[simp] theorem move_of_ne (h : other ≠ name) (h' : other ≠ name') :
    files.move name name' other = files other := by
  simp [move, h, h']

end
end NamedFiles
