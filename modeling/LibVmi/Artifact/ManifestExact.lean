import LibVmi.Artifact.Agreement
import LibVmi.Profile.NumericText
import Mathlib.Data.List.Forall2

namespace LibVmi.Artifact

open Data Profile

/-! Which manifests are accepted, and what is read for them. -/

/-- The files that can be opened are those of a disk, and access to them does
not fail. -/
structure Host.Holds (host : Host) (disk : Path → Option Buffer) : Prop where
  opened : ∀ path file, host.openFile path = .ok file →
    ∃ contents, disk path = some contents ∧ file.Holds contents
  found : ∀ path contents, disk path = some contents →
    ∃ file, host.openFile path = .ok file

/-- What an entry of a manifest stands for. -/
structure ManifestRow where
  file : Path
  gpa : UInt64
  fileOffset : UInt64
  data : Buffer

def ManifestRow.segment (row : ManifestRow) : SnapshotSegment :=
  .new ⟨row.gpa⟩ row.data

/-- A number, or the text of one. -/
def IsNumber (value : Option Json) (number : UInt64) : Prop :=
  value = some (.number (.posInt number)) ∨
    ∃ text, value = some (.string text) ∧
      (StrictNumber text.toList number ∨ LooseNumber text.toList number)

structure Describes (host : Host) (disk : Path → Option Buffer) (base : Path)
    (entry : Json) (row : ManifestRow) : Prop where
  fields : ∃ fields file length, entry = .object fields ∧
    Json.field fields "file" = some (.string file) ∧
    ¬ (Path.parse file).isAbsolute ∧
    host.canonicalize (base.join (Path.parse file)) = .ok row.file ∧
    IsNumber (Json.field fields "gpa") row.gpa ∧
    IsNumber (Json.field fields "file_offset") row.fileOffset ∧
    IsNumber (Json.field fields "length") length ∧
    length.toNat = row.data.length
  below : base <+: row.file
  nonempty : 0 < row.data.length
  fits : row.gpa.toNat + row.data.length < 2 ^ 64
  stored : ∃ contents, disk row.file = some contents ∧
    slice contents.bytes row.fileOffset.toNat
      (row.fileOffset.toNat + row.data.length) = some row.data.bytes

theorem asU64_eq_some {value : Json} {number : UInt64} :
    value.asU64 = some number ↔ value = .number (.posInt number) := by
  unfold Json.asU64
  split
  · simp
  · rename_i other
    simp only [reduceCtorEq, false_iff]
    exact other number

theorem asArray_eq_some {value : Json} {values : List Json} :
    value.asArray = some values ↔ value = .array values := by
  cases value <;> simp [Json.asArray]

theorem asObject_eq_some {value : Json} {fields : List (String × Json)} :
    value.asObject = some fields ↔ value = .object fields := by
  cases value <;> simp [Json.asObject]

theorem manifestU64_isNumber {value : Option Json} {field : String}
    {index : Nat} {number : UInt64} :
    manifestU64 value field index = .ok number ↔ IsNumber value number := by
  unfold IsNumber
  cases value with
  | none => simp [manifestU64, okOr]
  | some value =>
      cases value with
      | string text =>
          rw [manifestU64_eq_ok]
          simp
      | number kind =>
          cases kind <;> simp [manifestU64, okOr, Json.asU64, Json.asStr]
      | _ => simp [manifestU64, okOr, Json.asU64, Json.asStr]

section Reading

variable {host : Host} {disk : Path → Option Buffer} (holds : host.Holds disk)

include holds

theorem readSlice_eq_ok {path : Path} {index : Nat}
    {fileOffset length stop : UInt64} {bytes : Buffer}
    (stopEq : stop.toNat = fileOffset.toNat + length.toNat) :
    readSlice host path index fileOffset length stop = .ok bytes ↔
      length.toNat = bytes.length ∧ ∃ contents, disk path = some contents ∧
        slice contents.bytes fileOffset.toNat
          (fileOffset.toNat + bytes.length) = some bytes.bytes := by
  constructor
  · intro read
    have lengths := readSlice_length read
    refine ⟨lengths.symm, ?_⟩
    simp only [readSlice, bind_eq_ok, mapError_eq_ok, okOr_eq_ok,
      rejectIf_eq_ok, Buffer.allocate_eq_some] at read
    obtain ⟨file, opened, size, sized, _, within, source, sought, _, _, taken,
      filled, bytesEq⟩ := read
    obtain ⟨contents, found, held⟩ := holds.opened path file opened
    obtain ⟨other, otherSought, otherBytes, reliable⟩ := held.seek fileOffset
    obtain rfl : source = other := Except.ok.inj (sought.symm.trans otherSought)
    rw [held.length] at sized
    have sizeEq : size.toNat = contents.length := by
      rw [← Except.ok.inj sized]
      exact UInt64.toNat_ofNat_of_lt' contents.length_lt_limit
    have enough : length.toNat ≤ source.bytes.length := by
      rw [otherBytes, List.length_drop]
      change _ ≤ contents.length - _
      omega
    rw [readExact_reliable reliable enough] at filled
    refine ⟨contents, found, ?_⟩
    have stopInside : stop.toNat ≤ contents.length := by omega
    rw [bytesEq, ← Except.ok.inj filled, otherBytes, lengths, slice,
      if_pos ⟨Nat.le_add_right _ _, stopEq ▸ stopInside⟩, Nat.add_sub_cancel_left]
  · rintro ⟨lengthEq, contents, found, stored⟩
    obtain ⟨file, opened⟩ := holds.found path contents found
    obtain ⟨other, same, held⟩ := holds.opened path file opened
    obtain rfl : contents = other := Option.some.inj (found.symm.trans same)
    exact readSlice_holds index opened held stored lengthEq stopEq

theorem manifestSegment_eq_ok {base : Path} {maxTotalBytes : UInt64}
    {index : Nat} {entry : Json} {totalBytes total : UInt64}
    {segment : SnapshotSegment} :
    manifestSegment host base maxTotalBytes index entry totalBytes =
        .ok (segment, total) ↔
      ∃ row, Describes host disk base entry row ∧ segment = row.segment ∧
        total.toNat = totalBytes.toNat + row.data.length ∧
        total.toNat ≤ maxTotalBytes.toNat := by
  simp only [manifestSegment, resolveEntry, bind_eq_ok, okOr_eq_ok,
    rejectIf_eq_ok, mapError_eq_ok, manifestU64_isNumber, checkedAdd_eq_some,
    unsigned_toNat_uint64, pure_eq_ok, Except.ok.injEq, Prod.mk.injEq]
  constructor
  · rintro ⟨fields, object, _, ⟨file, named, _, relative, path, canonical, _,
      below, rfl⟩, gpa, isGpa, fileOffset, isOffset, length, isLength, _,
      positive, stop, stopEq, sum, sumEq, _, within, bytes, read, last, lastEq,
      rfl, rfl⟩
    obtain ⟨lengthEq, stored⟩ := (readSlice_eq_ok holds stopEq).mp read
    obtain ⟨text, named, textual⟩ := Option.bind_eq_some_iff.mp named
    have lastBound := last.toNat_lt
    rw [← UInt64.toNat_inj] at positive
    change ¬ length.toNat = 0 at positive
    refine ⟨⟨path, gpa, fileOffset, bytes⟩, ⟨⟨fields, file, length,
      asObject_eq_some.mp object, ?_, relative, canonical, isGpa, isOffset,
      isLength, lengthEq⟩, not_not.mp below, ?_, ?_, stored⟩, rfl, ?_, ?_⟩
    · rw [named, Json.asStr_eq_some.mp textual]
    · dsimp only
      omega
    · dsimp only
      omega
    · dsimp only
      omega
    · omega
  · rintro ⟨row, ⟨⟨fields, file, length, rfl, named, relative, canonical, isGpa,
      isOffset, isLength, lengthEq⟩, below, nonempty, fits, contents, found,
      stored⟩, rfl, totalEq, within⟩
    have inside := (slice_length stored).2
    have small := contents.length_lt_limit
    have totalBound := total.toNat_lt
    change _ ≤ contents.length at inside
    have stopEq : (UInt64.ofNat (row.fileOffset.toNat + length.toNat)).toNat =
        row.fileOffset.toNat + length.toNat :=
      UInt64.toNat_ofNat_of_lt' (by
        change _ < Usize.limit
        omega)
    have lastEq : (UInt64.ofNat (row.gpa.toNat + length.toNat)).toNat =
        row.gpa.toNat + length.toNat :=
      UInt64.toNat_ofNat_of_lt' (by
        change _ < 2 ^ 64
        omega)
    refine ⟨fields, rfl, row.file, ⟨file, ?_, (), relative, _, canonical, (),
      not_not.mpr below, rfl⟩, row.gpa, isGpa, row.fileOffset, isOffset, length,
      isLength, (), ?_, _, stopEq, total, by omega, (), by omega, row.data,
      (readSlice_eq_ok holds stopEq).mpr ⟨lengthEq, contents, found, stored⟩, _,
      lastEq, rfl, rfl⟩
    · rw [named]
      rfl
    · intro zero
      rw [zero] at lengthEq
      change 0 = _ at lengthEq
      omega

/-- The entries are taken one after the other, and their lengths add up. -/
theorem manifestSegments_eq_ok {base : Path} {maxTotalBytes : UInt64}
    {entries : List Json} {index : Nat} {totalBytes : UInt64}
    {segments : List SnapshotSegment}
    (within : totalBytes.toNat ≤ maxTotalBytes.toNat) :
    manifestSegments host base maxTotalBytes entries index totalBytes =
        .ok segments ↔
      ∃ rows, List.Forall₂ (Describes host disk base) entries rows ∧
        segments = rows.map ManifestRow.segment ∧
        totalBytes.toNat + (rows.map fun row => row.data.length).sum ≤
          maxTotalBytes.toNat := by
  induction entries generalizing index totalBytes segments with
  | nil =>
      simp only [manifestSegments, Except.ok.injEq, List.forall₂_nil_left_iff,
        exists_eq_left, List.map_nil, List.sum_nil]
      exact ⟨fun same => ⟨same.symm, within⟩, fun same => same.1.symm⟩
  | cons entry rest induction =>
      simp only [manifestSegments, bind_eq_ok, pure_eq_ok, Except.ok.injEq,
        Prod.exists, manifestSegment_eq_ok holds,
        List.forall₂_cons_left_iff]
      constructor
      · rintro ⟨segment, total, ⟨row, describes, rfl, totalEq, fits⟩, others,
          loaded, rfl⟩
        obtain ⟨rows, described, rfl, sum⟩ := (induction fits).mp loaded
        refine ⟨row :: rows, ⟨row, rows, describes, described, rfl⟩, rfl, ?_⟩
        rw [List.map_cons, List.sum_cons]
        omega
      · rintro ⟨_, ⟨row, rows, describes, described, rfl⟩, rfl, sum⟩
        rw [List.map_cons, List.sum_cons] at sum
        have bound := maxTotalBytes.toNat_lt
        have totalEq : (UInt64.ofNat
            (totalBytes.toNat + row.data.length)).toNat =
              totalBytes.toNat + row.data.length :=
          UInt64.toNat_ofNat_of_lt' (by
            change _ < 2 ^ 64
            omega)
        exact ⟨row.segment, _, ⟨row, describes, rfl, totalEq, by omega⟩,
          rows.map ManifestRow.segment,
          (induction (by omega)).mpr ⟨rows, described, rfl, by omega⟩, rfl⟩

theorem readFileLimited_eq_ok {path : String} {maximum : UInt64}
    {description : String} {contents : Buffer} (positive : maximum ≠ 0) :
    readFileLimited host path maximum description = .ok contents ↔
      disk (Path.parse path) = some contents ∧
        contents.length ≤ maximum.toNat := by
  constructor
  · intro read
    obtain ⟨file, size, opened, sized, fits, same⟩ := readFileLimited_bytes read
    obtain ⟨held, found, whole⟩ := holds.opened _ file opened
    rw [whole.length] at sized
    have sizeEq : size.toNat = held.length := by
      rw [← Except.ok.inj sized]
      exact UInt64.toNat_ofNat_of_lt' held.length_lt_limit
    rw [whole.source.1] at same
    obtain rfl : contents = held := Buffer.ext same
    exact ⟨found, sizeEq ▸ fits⟩
  · rintro ⟨found, within⟩
    obtain ⟨file, opened⟩ := holds.found _ contents found
    obtain ⟨other, same, held⟩ := holds.opened _ file opened
    obtain rfl : contents = other := Option.some.inj (found.symm.trans same)
    exact readFileLimited_holds opened held positive within description

end Reading

theorem parseManifest_eq_ok {host : Host} {path : String} {contents : Buffer}
    {format : String} {entries : List Json} :
    parseManifest host path contents = .ok (format, entries) ↔
      ∃ text fields,
        String.fromUTF8? ⟨contents.bytes.toArray⟩ = some text ∧
        host.fromStr text = .ok (.object fields) ∧
        Json.field fields "version" = some (.number (.posInt 1)) ∧
        Json.field fields "format" = some (.string format) ∧
        Json.field fields "segments" = some (.array entries) := by
  simp only [parseManifest, bind_eq_ok, okOr_eq_ok, mapError_eq_ok,
    rejectIf_eq_ok, ne_eq, not_not, Option.bind_eq_some_iff, asU64_eq_some,
    Json.asStr_eq_some, asArray_eq_some, asObject_eq_some, pure_eq_ok,
    Except.ok.injEq, Prod.mk.injEq]
  constructor
  · rintro ⟨text, decoded, _, parsed, fields, rfl, _, ⟨_, version, rfl⟩, _,
      ⟨_, named, rfl⟩, _, ⟨_, listed, rfl⟩, rfl, rfl⟩
    exact ⟨text, fields, decoded, parsed, version, named, listed⟩
  · rintro ⟨text, fields, decoded, parsed, version, named, listed⟩
    exact ⟨text, decoded, _, parsed, fields, rfl, (), ⟨_, version, rfl⟩, format,
      ⟨_, named, rfl⟩, entries, ⟨_, listed, rfl⟩, rfl, rfl⟩

theorem described_nonempty {host : Host} {disk : Path → Option Buffer}
    {base : Path} {entries : List Json} {rows : List ManifestRow}
    (described : List.Forall₂ (Describes host disk base) entries rows) :
    ∀ row ∈ rows, 0 < row.data.length := by
  induction described with
  | nil => exact nofun
  | cons describes _ induction =>
      exact List.forall_mem_cons.mpr ⟨describes.nonempty, induction⟩

/-- A manifest as the loader wants it, and the rows that it lists. -/
structure Accepted (host : Host) (disk : Path → Option Buffer) (path : String)
    (maxSegments : Nat) (maxTotalBytes : UInt64) (format : String)
    (rows : List ManifestRow) : Prop where
  limits : maxSegments ≠ 0 ∧ maxTotalBytes ≠ 0
  listed : ∃ contents text fields entries base,
    disk (Path.parse path) = some contents ∧
    contents.length ≤ defaultMaxManifestSize.toNat ∧
    String.fromUTF8? ⟨contents.bytes.toArray⟩ = some text ∧
    host.fromStr text = .ok (.object fields) ∧
    Json.field fields "version" = some (.number (.posInt 1)) ∧
    Json.field fields "format" = some (.string format) ∧
    Json.field fields "segments" = some (.array entries) ∧
    host.canonicalize ((Path.parse path).parent.getD [.current]) = .ok base ∧
    List.Forall₂ (Describes host disk base) entries rows
  count : 0 < rows.length ∧ rows.length ≤ maxSegments
  total : (rows.map fun row => row.data.length).sum ≤ maxTotalBytes.toNat
  apart : (rows.map ManifestRow.segment).Pairwise Apart

/-- The directory with the manifest and its file, as a disk. -/
def snapDisk (manifest ram : Buffer) (path : Path) : Option Buffer :=
  if path = Path.parse manifestPath then some manifest
  else if path = Path.parse "/snap/ram.bin" then some ram
  else none

theorem snapHost_holds (text : String) (manifest ram : Buffer)
    (slices : List ManifestSlice) :
    (snapHost text manifest ram slices).Holds (snapDisk manifest ram) where
  opened := by
    intro path file opened
    simp only [snapHost] at opened
    simp only [snapDisk]
    split at opened
    · rename_i named
      cases opened
      exact ⟨manifest, if_pos named, diskFile_holds manifest⟩
    · rename_i other
      split at opened
      · rename_i named
        cases opened
        exact ⟨ram, (if_neg other).trans (if_pos named), diskFile_holds ram⟩
      · contradiction
  found := by
    intro path contents found
    simp only [snapDisk] at found
    simp only [snapHost]
    split at found
    · rename_i named
      exact ⟨_, if_pos named⟩
    · rename_i other
      split at found
      · rename_i named
        exact ⟨_, (if_neg other).trans (if_pos named)⟩
      · contradiction

def upperRow : ManifestRow :=
  ⟨Path.parse "/snap/ram.bin", 0x2000, 0, upperPiece.data⟩

def lowerRow : ManifestRow :=
  ⟨Path.parse "/snap/ram.bin", 0x1000, 1, lowerPiece.data⟩

theorem snapDisk_ram :
    snapDisk middleManifest middleRam (Path.parse "/snap/ram.bin") =
      some middleRam := by
  rw [snapDisk, if_neg (by decide), if_pos rfl]

theorem upperRow_described :
    Describes middleHost (snapDisk middleManifest middleRam)
      (Path.parse "/snap") (ManifestSlice.toJson ⟨"ram.bin", 0, upperPiece⟩)
      upperRow where
  fields := ⟨_, "ram.bin", 1, rfl, rfl, by decide,
    congrArg Except.ok (by decide), .inl rfl, .inl rfl, .inl rfl, rfl⟩
  below := by decide
  nonempty := by decide
  fits := by decide
  stored := ⟨middleRam, snapDisk_ram, rfl⟩

theorem lowerRow_described :
    Describes middleHost (snapDisk middleManifest middleRam)
      (Path.parse "/snap") (ManifestSlice.toJson ⟨"ram.bin", 1, lowerPiece⟩)
      lowerRow where
  fields := ⟨_, "ram.bin", 2, rfl, rfl, by decide,
    congrArg Except.ok (by decide), .inl rfl, .inl rfl, .inl rfl, rfl⟩
  below := by decide
  nonempty := by decide
  fits := by decide
  stored := ⟨middleRam, snapDisk_ram, rfl⟩

/-- An entry leads below the directory on neither of two hosts, and a load says
so. -/
inductive LeadsOut (index : Nat) (file : String) : VmiError → Prop
  | escapes : LeadsOut index file (.backend
      s!"snapshot manifest segment {index} escapes the manifest directory")
  | unresolved (cause : String) : LeadsOut index file (.backend
      s!"failed to resolve manifest file {file}: {cause}")

/-- The results are the same, but for why an entry that leads below the
directory on neither host is refused. -/
def Alike (left right : Result α) : Prop :=
  left = right ∨ ∃ index file leftError rightError,
    left = .error leftError ∧ right = .error rightError ∧
      LeadsOut index file leftError ∧ LeadsOut index file rightError

namespace Alike

theorem refl (result : Result α) : Alike result result := .inl rfl

theorem bind {left right : Result α} {leftRest rightRest : α → Result β}
    (first : Alike left right)
    (rest : ∀ value, left = .ok value →
      Alike (leftRest value) (rightRest value)) :
    Alike (left >>= leftRest) (right >>= rightRest) := by
  obtain rfl | ⟨index, file, leftError, rightError, rfl, rfl, outs⟩ := first
  · cases left with
    | error error => exact .refl _
    | ok value => exact rest value rfl
  · exact .inr ⟨index, file, leftError, rightError, rfl, rfl, outs⟩

theorem eq_ok_iff {left right : Result α} (alike : Alike left right)
    {value : α} : left = .ok value ↔ right = .ok value := by
  obtain rfl | ⟨_, _, _, _, rfl, rfl, _⟩ := alike
  · exact .rfl
  · simp

end Alike

/-- The hosts parse alike, and agree on the manifest and on what lies below its
directory: on the files there, and on the entries that lead there. -/
structure AgreeBelow (path : String) (left right : Host) : Prop where
  fromStr : left.fromStr = right.fromStr
  utf8Error : left.utf8Error = right.utf8Error
  manifest : left.openFile (Path.parse path) = right.openFile (Path.parse path)
  directory : left.canonicalize ((Path.parse path).parent.getD [.current]) =
    right.canonicalize ((Path.parse path).parent.getD [.current])
  resolved : ∀ base,
    left.canonicalize ((Path.parse path).parent.getD [.current]) = .ok base →
    ∀ file, ¬ (Path.parse file).isAbsolute → ∀ target, base <+: target →
      (left.canonicalize (base.join (Path.parse file)) = .ok target ↔
        right.canonicalize (base.join (Path.parse file)) = .ok target)
  below : ∀ base,
    left.canonicalize ((Path.parse path).parent.getD [.current]) = .ok base →
    ∀ file, base <+: file → left.openFile file = right.openFile file

variable {left right : Host} {base : Path}

theorem resolveEntry_below {host : Host} {index : Nat}
    {entry : List (String × Json)} {file : Path}
    (resolved : resolveEntry host base index entry = .ok file) :
    base <+: file := by
  simp only [resolveEntry, bind_eq_ok, rejectIf_eq_ok, not_not, pure_eq_ok,
    Except.ok.injEq] at resolved
  obtain ⟨_, _, _, _, _, _, _, below, rfl⟩ := resolved
  exact below

/-- Where a relative entry leads, once it is known to be one. -/
def resolveBelow (host : Host) (base : Path) (index : Nat) (file : String) :
    Result Path := do
  let filePath ← (host.canonicalize (base.join (Path.parse file))).mapError
    fun error => .backend s!"failed to resolve manifest file {file}: {error}"
  rejectIf (¬ base <+: filePath) (.backend
    s!"snapshot manifest segment {index} escapes the manifest directory")
  return filePath

/-- An entry that leads below on neither host is refused for one of the two
reasons. -/
theorem resolveBelow_cases (host : Host) (base : Path) (index : Nat)
    (file : String) :
    (∃ target, base <+: target ∧
        host.canonicalize (base.join (Path.parse file)) = .ok target ∧
        resolveBelow host base index file = .ok target) ∨
      (∀ target, base <+: target →
        host.canonicalize (base.join (Path.parse file)) ≠ .ok target) ∧
      ∃ error, resolveBelow host base index file = .error error ∧
        LeadsOut index file error := by
  unfold resolveBelow
  cases found : host.canonicalize (base.join (Path.parse file)) with
  | error cause =>
      exact .inr ⟨by simp, _, rfl, .unresolved cause⟩
  | ok target =>
      by_cases below : base <+: target
      · refine .inl ⟨target, below, rfl, ?_⟩
        change (rejectIf (¬ base <+: target) _ >>= fun _ => .ok target) = _
        rw [rejectIf_neg (not_not.mpr below), ok_bind]
      · refine .inr ⟨?_, _, ?_, .escapes⟩
        · rintro other inside ⟨⟩
          exact below inside
        · change (rejectIf (¬ base <+: target) _ >>= fun _ => .ok target) = _
          rw [rejectIf_pos below]
          rfl

theorem resolveBelow_alike {file : String}
    (resolve : ∀ target, base <+: target →
      (left.canonicalize (base.join (Path.parse file)) = .ok target ↔
        right.canonicalize (base.join (Path.parse file)) = .ok target))
    (index : Nat) :
    Alike (resolveBelow left base index file)
      (resolveBelow right base index file) := by
  rcases resolveBelow_cases left base index file with
    ⟨target, below, leads, returned⟩ | ⟨nowhere, error, failed, out⟩
  · rcases resolveBelow_cases right base index file with
      ⟨other, _, leadsOther, returnedOther⟩ | ⟨nowhere, _⟩
    · rw [(resolve target below).mp leads] at leadsOther
      cases leadsOther
      exact .inl (returned.trans returnedOther.symm)
    · exact absurd ((resolve target below).mp leads) (nowhere target below)
  · rcases resolveBelow_cases right base index file with
      ⟨target, below, leads, _⟩ | ⟨_, otherError, otherFailed, otherOut⟩
    · exact absurd ((resolve target below).mpr leads)
        (nowhere target below)
    · exact .inr ⟨index, file, error, otherError, failed, otherFailed, out,
        otherOut⟩

section Entries

variable
  (resolve : ∀ file, ¬ (Path.parse file).isAbsolute →
    ∀ target, base <+: target →
    (left.canonicalize (base.join (Path.parse file)) = .ok target ↔
      right.canonicalize (base.join (Path.parse file)) = .ok target))
  (below : ∀ file, base <+: file → left.openFile file = right.openFile file)

include resolve below

theorem manifestSegment_alike (maxTotalBytes : UInt64) (index : Nat)
    (entry : Json) (totalBytes : UInt64) :
    Alike (manifestSegment left base maxTotalBytes index entry totalBytes)
      (manifestSegment right base maxTotalBytes index entry totalBytes) := by
  unfold manifestSegment
  refine .bind (.refl _) fun fields _ => ?_
  have entryAlike : Alike (resolveEntry left base index fields)
      (resolveEntry right base index fields) := by
    unfold resolveEntry
    refine .bind (.refl _) fun file _ => .bind (.refl _) fun _ relative => ?_
    exact resolveBelow_alike (resolve file (rejectIf_eq_ok.mp relative)) index
  refine .bind entryAlike fun file found => ?_
  have same := below file (resolveEntry_below found)
  simp only [readSlice, same]
  exact .refl _

theorem manifestSegments_alike (maxTotalBytes : UInt64) (entries : List Json)
    (index : Nat) (totalBytes : UInt64) :
    Alike
      (manifestSegments left base maxTotalBytes entries index totalBytes)
      (manifestSegments right base maxTotalBytes entries index totalBytes) := by
  induction entries generalizing index totalBytes with
  | nil => exact .refl _
  | cons first rest induction =>
      unfold manifestSegments
      refine .bind (manifestSegment_alike resolve below maxTotalBytes index first
        totalBytes) fun pair _ => .bind (induction _ _) fun _ _ => .refl _

end Entries

/-- Loading a manifest does not depend on any file outside of the manifest's
directory, whatever the manifest says and whatever links there are. What is out
there shows at most in why an entry that leads there is refused. -/
theorem manifest_confined {path : String} (agree : AgreeBelow path left right)
    (maxSegments : Nat) (maxTotalBytes : UInt64) :
    Alike (manifestFileWithLimits left path maxSegments maxTotalBytes)
      (manifestFileWithLimits right path maxSegments maxTotalBytes) := by
  have contents : readFileLimited left path defaultMaxManifestSize
      "snapshot manifest" = readFileLimited right path defaultMaxManifestSize
        "snapshot manifest" := by
    unfold readFileLimited
    rw [agree.manifest]
  have parsed (contents : Buffer) : parseManifest left path contents =
      parseManifest right path contents := by
    unfold parseManifest
    rw [agree.fromStr, agree.utf8Error]
  unfold manifestFileWithLimits
  rw [contents]
  refine .bind (.refl _) fun _ _ => .bind (.refl _) fun data _ => ?_
  rw [parsed data]
  refine .bind (.refl _) fun pair _ => ?_
  dsimp only
  refine .bind (.refl _) fun _ _ => .bind (.refl _) fun _ _ => ?_
  rw [← agree.directory]
  cases found : left.canonicalize ((Path.parse path).parent.getD
      [.current]) with
  | error error => exact .refl _
  | ok base =>
      simp only [Except.mapError, ok_bind]
      exact .bind (manifestSegments_alike (agree.resolved base found)
        (agree.below base found) ..) fun _ _ => .refl _

/-- The same directory beside a file that may be there or not, to which an
entry can climb. -/
def hostWithShadow (shadow : Except String File) : Host :=
  { middleHost with
    canonicalize := fun path =>
      if path = Path.parse "/snap/../etc/shadow" then
        shadow.map fun _ => Path.parse "/etc/shadow"
      else middleHost.canonicalize path
    openFile := fun path =>
      if path = Path.parse "/etc/shadow" then shadow
      else middleHost.openFile path }

theorem hostWithShadow_canonicalize (shadow : Except String File) {path : Path}
    (elsewhere : path ≠ Path.parse "/snap/../etc/shadow") :
    (hostWithShadow shadow).canonicalize path = .ok path :=
  if_neg elsewhere

theorem hostWithShadow_openFile (shadow : Except String File) {path : Path}
    (below : Path.parse "/snap" <+: path) :
    (hostWithShadow shadow).openFile path = middleHost.openFile path := by
  refine if_neg ?_
  rintro rfl
  exact absurd below (by decide)

theorem hostWithShadow_stored (shadow : Except String File) :
    ManifestStored (hostWithShadow shadow) manifestPath "raw" middleSlices where
  manifest := middleHost_stored.manifest
  files := by
    obtain ⟨base, directory, stored⟩ := middleHost_stored.files
    cases directory
    refine ⟨_, hostWithShadow_canonicalize shadow (by decide),
      fun slice member => ?_⟩
    obtain ⟨relative, path, file, contents, canonical, below, opened, holds,
      inside⟩ := stored slice member
    have named : slice.file = "ram.bin" := by
      simp only [middleSlices, List.mem_cons, List.not_mem_nil, or_false]
        at member
      obtain rfl | rfl := member <;> rfl
    refine ⟨relative, path, file, contents, ?_, below, ?_, holds, inside⟩
    · rw [← canonical, named]
      exact hostWithShadow_canonicalize shadow (by decide)
    · rw [hostWithShadow_openFile shadow below, opened]

theorem hostWithShadow_agree (left right : Except String File) :
    AgreeBelow manifestPath (hostWithShadow left) (hostWithShadow right) where
  fromStr := rfl
  utf8Error := rfl
  manifest := rfl
  directory := rfl
  resolved := by
    rintro base ⟨⟩ file _ target below
    simp only [hostWithShadow]
    split
    · have outside (shadow : Except String File) :
          (shadow.map fun _ => Path.parse "/etc/shadow") ≠ .ok target := by
        cases shadow with
        | error error => exact nofun
        | ok found =>
            rintro ⟨⟩
            have climbs : ¬ Path.parse "/snap" <+: Path.parse "/etc/shadow" := by
              decide
            exact climbs below
      exact iff_of_false (outside left) (outside right)
    · exact .rfl
  below := by
    rintro base ⟨⟩ file below
    rw [hostWithShadow_openFile left below, hostWithShadow_openFile right below]

theorem manifest_confined_shared :
    ∃ bundle,
      manifestFileWithLimits (hostWithShadow (.ok (diskFile middleManifest)))
        manifestPath 65536 defaultMaxArtifactSize = .ok bundle ∧
      manifestFileWithLimits (hostWithShadow (.error "No such file"))
        manifestPath 65536 defaultMaxArtifactSize = .ok bundle := by
  have loaded : manifestFileWithLimits
      (hostWithShadow (.ok (diskFile middleManifest))) manifestPath 65536
        defaultMaxArtifactSize =
      .ok ⟨⟨"raw", manifestPath⟩, sortByStart [upperPiece, lowerPiece]⟩ :=
    (manifestFile_stored (hostWithShadow_stored _) (List.cons_ne_nil _ _)
      (by decide) pieces_apart (by decide) (by decide) (by decide)).mpr
        ⟨by decide, rfl⟩
  exact ⟨_, loaded, (manifest_confined (hostWithShadow_agree
    (.ok (diskFile middleManifest)) (.error "No such file")) 65536
      defaultMaxArtifactSize).eq_ok_iff.mp loaded⟩

end LibVmi.Artifact
