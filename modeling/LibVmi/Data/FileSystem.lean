import LibVmi.Data.Checked
import Mathlib.Logic.Function.Basic

namespace LibVmi.Data

/-! A file system with hard links: names lead to files, and files have contents.
A file that is written or linked is known by its number, which is not used
again. -/

structure FileSystem (name : Type*) where
  entries : name → Option Nat
  contents : Nat → List UInt8
  next : Nat
  bounded : ∀ entry node, entries entry = some node → node < next

namespace FileSystem

variable {name : Type*}

def empty : FileSystem name := ⟨fun _ => none, fun _ => [], 0, by simp⟩

/-- What reading a name gives. -/
def read (files : FileSystem name) (entry : name) : Option (List UInt8) :=
  (files.entries entry).map files.contents

/-- Appending to an open file. -/
def append (files : FileSystem name) (node : Nat) (bytes : List UInt8) :
    FileSystem name :=
  { files with contents :=
      Function.update files.contents node (files.contents node ++ bytes) }

@[simp] theorem append_entries (files : FileSystem name) (node : Nat)
    (bytes : List UInt8) :
    (files.append node bytes).entries = files.entries := rfl

@[simp] theorem append_contents (files : FileSystem name) (node : Nat)
    (bytes : List UInt8) :
    (files.append node bytes).contents node =
      files.contents node ++ bytes := by
  simp [append]

theorem append_other (files : FileSystem name) {node other : Nat}
    (bytes : List UInt8) (different : other ≠ node) :
    (files.append node bytes).contents other = files.contents other := by
  simp [append, different]

variable [DecidableEq name]

theorem bounded_create (files : FileSystem name) (entry : name) :
    ∀ other node, Function.update files.entries entry (some files.next) other =
      some node → node < files.next + 1 := by
  intro other node found
  by_cases same : other = entry
  · subst other
    simp only [Function.update_self, Option.some.injEq] at found
    omega
  · rw [Function.update_of_ne same] at found
    exact Nat.lt_succ_of_lt (files.bounded other node found)

theorem bounded_link (files : FileSystem name) (target : name) {node : Nat}
    (known : node < files.next) :
    ∀ other linked, Function.update files.entries target (some node) other =
      some linked → linked < files.next := by
  intro other linked reached
  by_cases same : other = target
  · subst other
    simp only [Function.update_self, Option.some.injEq] at reached
    exact reached ▸ known
  · rw [Function.update_of_ne same] at reached
    exact files.bounded other linked reached

theorem bounded_remove (files : FileSystem name) (entry : name) :
    ∀ other node, Function.update files.entries entry none other = some node →
      node < files.next := by
  intro other node found
  by_cases same : other = entry
  · subst other
    simp at found
  · rw [Function.update_of_ne same] at found
    exact files.bounded other node found

/-- An empty file under a name that leads nowhere yet. -/
def create (files : FileSystem name) (entry : name) : FileSystem name where
  entries := Function.update files.entries entry (some files.next)
  contents := Function.update files.contents files.next []
  next := files.next + 1
  bounded := bounded_create files entry

/-- `create_new`: the file system and the number of the file, unless the name
leads somewhere. -/
def createNew (files : FileSystem name) (entry : name) :
    Option (FileSystem name × Nat) :=
  match files.entries entry with
  | some _ => none
  | none => some (files.create entry, files.next)

/-- A further name for a file. -/
def link (files : FileSystem name) (target : name) (node : Nat)
    (known : node < files.next) : FileSystem name :=
  { files with
    entries := Function.update files.entries target (some node)
    bounded := bounded_link files target known }

def hardLink (files : FileSystem name) (source target : name) :
    Option (FileSystem name) :=
  match found : files.entries source with
  | none => none
  | some node =>
      match files.entries target with
      | some _ => none
      | none => some (files.link target node (files.bounded source node found))

def remove (files : FileSystem name) (entry : name) : FileSystem name :=
  { files with
    entries := Function.update files.entries entry none
    bounded := bounded_remove files entry }

def removeFile (files : FileSystem name) (entry : name) :
    Option (FileSystem name) :=
  match files.entries entry with
  | some _ => some (files.remove entry)
  | none => none

theorem createNew_eq_some {files created : FileSystem name} {entry : name}
    {node : Nat} :
    files.createNew entry = some (created, node) ↔
      files.entries entry = none ∧ files.create entry = created ∧
        files.next = node := by
  unfold createNew
  cases files.entries entry <;> simp

theorem hardLink_eq_some {files linked : FileSystem name}
    {source target : name} (done : files.hardLink source target = some linked) :
    files.entries target = none ∧ ∃ node known,
      files.entries source = some node ∧ linked = files.link target node known := by
  unfold hardLink at done
  split at done
  · contradiction
  · rename_i node found
    split at done
    · contradiction
    · rename_i free
      exact ⟨free, node, files.bounded source node found, found,
        (Option.some.inj done).symm⟩

theorem removeFile_eq_some {files removed : FileSystem name} {entry : name} :
    files.removeFile entry = some removed ↔
      files.entries entry ≠ none ∧ files.remove entry = removed := by
  unfold removeFile
  cases files.entries entry <;> simp

theorem removeFile_eq_none {files : FileSystem name} {entry : name} :
    files.removeFile entry = none ↔ files.entries entry = none := by
  unfold removeFile
  cases files.entries entry <;> simp

/-! What the operations leave alone. -/

section Frame

variable (files : FileSystem name)

@[simp] theorem create_entry (entry : name) :
    (files.create entry).entries entry = some files.next := by
  simp [create]

theorem create_other {entry other : name} (different : other ≠ entry) :
    (files.create entry).entries other = files.entries other := by
  simp [create, different]

/-- No other name leads to a file that has just been created. -/
theorem create_elsewhere {entry other : name} (different : other ≠ entry) :
    (files.create entry).entries other ≠ some files.next := by
  rw [create_other files different]
  intro found
  exact Nat.lt_irrefl _ (files.bounded other files.next found)

@[simp] theorem create_new_contents (entry : name) :
    (files.create entry).contents files.next = [] := by
  simp [create]

theorem create_contents (entry : name) {node : Nat} (old : node < files.next) :
    (files.create entry).contents node = files.contents node := by
  simp [create, Nat.ne_of_lt old]

@[simp] theorem link_entry (target : name) (node : Nat)
    (known : node < files.next) :
    (files.link target node known).entries target = some node := by
  simp [link]

theorem link_other {target other : name} {node : Nat}
    (known : node < files.next) (different : other ≠ target) :
    (files.link target node known).entries other = files.entries other := by
  simp [link, different]

@[simp] theorem link_contents (target : name) (node : Nat)
    (known : node < files.next) :
    (files.link target node known).contents = files.contents := rfl

@[simp] theorem remove_entry (entry : name) :
    (files.remove entry).entries entry = none := by
  simp [remove]

theorem remove_other {entry other : name} (different : other ≠ entry) :
    (files.remove entry).entries other = files.entries other := by
  simp [remove, different]

@[simp] theorem remove_contents (entry : name) :
    (files.remove entry).contents = files.contents := rfl

end Frame

/-- The entry leads to the same file, which has not changed. -/
def Keeps (before after : FileSystem name) (entry : name) : Prop :=
  ∀ node, before.entries entry = some node →
    after.entries entry = some node ∧
      after.contents node = before.contents node

namespace Keeps

omit [DecidableEq name] in
theorem refl (files : FileSystem name) (entry : name) :
    Keeps files files entry :=
  fun _ found => ⟨found, rfl⟩

omit [DecidableEq name] in
theorem trans {first second third : FileSystem name} {entry : name}
    (early : Keeps first second entry) (late : Keeps second third entry) :
    Keeps first third entry := by
  intro node found
  obtain ⟨still, same⟩ := early node found
  obtain ⟨reached, unchanged⟩ := late node still
  exact ⟨reached, unchanged.trans same⟩

omit [DecidableEq name] in
theorem read {before after : FileSystem name} {entry : name}
    (keeps : Keeps before after entry) {content : List UInt8}
    (found : before.read entry = some content) :
    after.read entry = some content := by
  obtain ⟨node, reached, rfl⟩ := Option.map_eq_some_iff.mp found
  obtain ⟨still, same⟩ := keeps node reached
  simp [FileSystem.read, still, same]

omit [DecidableEq name] in
theorem append {files : FileSystem name} {entry : name} {node : Nat}
    (elsewhere : files.entries entry ≠ some node) (bytes : List UInt8) :
    Keeps files (files.append node bytes) entry := by
  intro other found
  refine ⟨found, files.append_other bytes ?_⟩
  intro same
  subst same
  exact elsewhere found

theorem create {files : FileSystem name} {created : name}
    (free : files.entries created = none) (entry : name) :
    Keeps files (files.create created) entry := by
  intro node found
  have different : entry ≠ created := by
    intro same
    subst same
    simp [free] at found
  exact ⟨(files.create_other different).trans found,
    files.create_contents created (files.bounded entry node found)⟩

theorem link {files : FileSystem name} {target : name}
    (free : files.entries target = none) {node : Nat}
    (known : node < files.next) (entry : name) :
    Keeps files (files.link target node known) entry := by
  intro other found
  have different : entry ≠ target := by
    intro same
    subst same
    simp [free] at found
  exact ⟨(files.link_other known different).trans found, rfl⟩

theorem remove {files : FileSystem name} {removed entry : name}
    (different : entry ≠ removed) :
    Keeps files (files.remove removed) entry :=
  fun _ found => ⟨(files.remove_other different).trans found, rfl⟩

end Keeps

/-- Nothing has happened to the entry: it has not come, gone or changed. -/
structure Spares (before after : FileSystem name) (entry : name) : Prop where
  kept : before.Keeps after entry
  absent : before.entries entry = none → after.entries entry = none

namespace Spares

omit [DecidableEq name] in
theorem refl (files : FileSystem name) (entry : name) :
    Spares files files entry :=
  ⟨.refl files entry, id⟩

omit [DecidableEq name] in
theorem trans {first second third : FileSystem name} {entry : name}
    (early : Spares first second entry) (late : Spares second third entry) :
    Spares first third entry :=
  ⟨early.kept.trans late.kept, late.absent ∘ early.absent⟩

omit [DecidableEq name] in
theorem read {before after : FileSystem name} {entry : name}
    (spares : Spares before after entry) :
    after.read entry = before.read entry := by
  cases found : before.entries entry with
  | none => simp [FileSystem.read, found, spares.absent found]
  | some node =>
      obtain ⟨still, same⟩ := spares.kept node found
      simp [FileSystem.read, found, still, same]

omit [DecidableEq name] in
theorem append {files : FileSystem name} {entry : name} {node : Nat}
    (elsewhere : files.entries entry ≠ some node) (bytes : List UInt8) :
    Spares files (files.append node bytes) entry :=
  ⟨.append elsewhere bytes, id⟩

omit [DecidableEq name] in
theorem absent_iff {before after : FileSystem name} {entry : name}
    (spares : Spares before after entry) :
    after.entries entry = none ↔ before.entries entry = none := by
  refine ⟨fun gone => ?_, spares.absent⟩
  cases found : before.entries entry with
  | none => rfl
  | some node =>
      rw [(spares.kept node found).1] at gone
      contradiction

theorem create {files : FileSystem name} {created entry : name}
    (free : files.entries created = none) (different : entry ≠ created) :
    Spares files (files.create created) entry :=
  ⟨.create free entry, fun absent =>
    (files.create_other different).trans absent⟩

theorem link {files : FileSystem name} {target entry : name}
    (free : files.entries target = none) {node : Nat}
    (known : node < files.next) (different : entry ≠ target) :
    Spares files (files.link target node known) entry :=
  ⟨.link free known entry, fun absent =>
    (files.link_other known different).trans absent⟩

theorem remove {files : FileSystem name} {removed entry : name}
    (different : entry ≠ removed) :
    Spares files (files.remove removed) entry :=
  ⟨.remove different, fun absent =>
    (files.remove_other different).trans absent⟩

end Spares

end FileSystem

end LibVmi.Data
