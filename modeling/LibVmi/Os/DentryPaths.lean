import LibVmi.Os.Linux

namespace LibVmi.Os.LinuxIntrospector

open Data Arch LibVmi.Core

/-! The two walks from a dentry up to the root, from what single dentries and
mounts hold. -/

/-- Roots are named "/" or not at all, and are left out of a path. -/
def component (name : String) : Option String :=
  if name = "" ∨ name = "/" then none else some name

/-- The names between slashes, and a slash in front. -/
def absolutePath (names : List String) : String :=
  "/" ++ "/".intercalate names

/-- The joined path is no longer than the largest allocation. -/
def PathFits (names : List String) : Prop :=
  1 + (names.length - 1) + (names.map String.utf8ByteSize).sum < 2 ^ 63

section Joining

theorem addedLengths_eq_ok {names : List String} {error : VmiError}
    {start total : Nat} (bounded : start < Usize.limit) :
    names.foldlM
        (fun length name =>
          okOr (Usize.checkedAdd length name.utf8ByteSize) error) start =
      .ok total ↔
      start + (names.map String.utf8ByteSize).sum < Usize.limit ∧
        total = start + (names.map String.utf8ByteSize).sum := by
  induction names generalizing start with
  | nil =>
      rw [List.foldlM_nil, List.map_nil, List.sum_nil, pure_eq_ok,
        Except.ok.injEq]
      exact ⟨fun same => ⟨bounded, same.symm⟩, fun given => given.2.symm⟩
  | cons name rest induction =>
      rw [List.foldlM_cons, List.map_cons, List.sum_cons, ← Nat.add_assoc,
        bind_eq_ok]
      simp only [okOr_eq_ok, Usize.checkedAdd_eq_some]
      constructor
      · intro given
        obtain ⟨next, ⟨rfl, small⟩, added⟩ := given
        exact (induction small).mp added
      · intro given
        have small : start + name.utf8ByteSize < Usize.limit := by omega
        exact ⟨_, ⟨rfl, small⟩, (induction small).mpr given⟩

theorem joinedNames_eq {names : List String} {lead joined : String}
    {start : Nat} :
    (names.zipIdx (start + 1)).foldl
        (fun path (name, index) =>
          (if index ≠ 0 then path.push '/' else path) ++ name)
        (lead ++ joined) =
      lead ++ "/".intercalate (joined :: names) := by
  induction names generalizing joined start with
  | nil => rw [String.intercalate_singleton, List.zipIdx_nil, List.foldl_nil]
  | cons name rest induction =>
      have appended : (lead ++ joined).push '/' ++ name =
          lead ++ (joined ++ "/" ++ name) := by
        apply String.toList_injective
        simp
      rw [List.zipIdx_cons, List.foldl_cons]
      simp only [ne_eq, Nat.add_one_ne_zero, not_false_eq_true, if_true]
      rw [appended, induction, String.intercalate_cons_append,
        String.intercalate_cons_cons]

theorem joinedPath_eq (names : List String) :
    names.zipIdx.foldl
        (fun path (name, index) =>
          (if index ≠ 0 then path.push '/' else path) ++ name) "/" =
      absolutePath names := by
  unfold absolutePath
  cases names with
  | nil => rw [String.intercalate_nil]; rfl
  | cons name rest =>
      rw [List.zipIdx_cons, List.foldl_cons]
      simp only [ne_eq, not_true_eq_false, if_false]
      exact joinedNames_eq

theorem joinAbsolutePath_eq_ok {names : List String} {description : String}
    {path : String} :
    joinAbsolutePath names description = .ok path ↔
      PathFits names ∧ path = absolutePath names := by
  unfold joinAbsolutePath PathFits
  have limit : Usize.limit = 2 ^ 64 := rfl
  simp only [bind_eq_ok, okOr_eq_ok, Usize.checkedAdd_eq_some,
    tryReserveExact_eq_ok, exists_const, pure_eq_ok, Except.ok.injEq,
    joinedPath_eq]
  constructor
  · intro given
    obtain ⟨separated, ⟨rfl, small⟩, capacity, added, fits, rfl⟩ := given
    rw [((addedLengths_eq_ok small).mp added).2] at fits
    exact ⟨fits, rfl⟩
  · intro given
    obtain ⟨fits, rfl⟩ := given
    have small : 1 + (names.length - 1) < Usize.limit := by omega
    exact ⟨_, ⟨rfl, small⟩, _,
      (addedLengths_eq_ok small).mpr ⟨by omega, rfl⟩, fits, rfl⟩

end Joining

variable {σ : Type} [Session σ] (self : LinuxIntrospector σ)

def readParent (offsets : LinuxDentryOffsets) (dentry : UInt64) :
    Result UInt64 := do
  self.readU64 (← add dentry offsets.parent "dentry parent")

def readMountRoot (offsets : LinuxMountOffsets) (mount : UInt64) :
    Result UInt64 := do
  self.readU64 (← add mount offsets.root "mount root")

def readMountParent (offsets : LinuxMountOffsets) (mount : UInt64) :
    Result UInt64 := do
  self.readU64 (← add mount offsets.parent "mount parent")

def readMountpoint (offsets : LinuxMountOffsets) (mount : UInt64) :
    Result UInt64 := do
  self.readU64 (← add mount offsets.mountpoint "mountpoint")

section Rounds

variable {self} {offsets : LinuxDentryOffsets} {limit : Nat}
  {components : List (Option String)}

/-- The name that a round of `dentry_path` collects is the one that
`read_dentry_name` reads, unless it is that of a root. -/
theorem dentryRound_eq (current : UInt64) :
    self.dentryRound offsets limit components current = (do
      let name ← self.readDentryName current offsets
      let parent ← self.readParent offsets current
      rejectIf (parent = 0)
        (.backend s!"Linux dentry {hex current.toNat} has null parent")
      if parent = current then
        return (component name, none)
      else do
        rejectIf
          (limit ≤ (collected (components ++ [component name])).length)
          (.backend s!"Linux dentry path exceeded component limit {limit}")
        return (component name, some parent)) := by
  unfold dentryRound readDentryName readParent
  simp only [bind_assoc]
  apply bind_congr_ok
  intro qstr _
  apply bind_congr_ok
  intro lengthAddress _
  apply bind_congr_ok
  intro length _
  apply bind_congr_ok
  intro _ _
  apply bind_congr_ok
  intro _ _
  apply bind_congr_ok
  intro pointerAddress _
  apply bind_congr_ok
  intro pointer _
  apply bind_congr_ok
  intro _ _
  by_cases empty : length = 0
  · simp [empty, component]
  · simp only [ne_eq, empty, not_false_eq_true, if_true, if_false, bind_assoc]
    apply bind_congr_ok
    intro bytes read
    apply bind_congr_ok
    intro name decoded
    have nonempty : name ≠ "" := by
      intro none
      subst name
      have short := readVirtual_length read
      rw [decodeGuestBytes_empty decoded, List.length_nil] at short
      apply empty
      rw [← UInt32.toNat_inj, ← short]
      rfl
    have collects : (if ¬ name = "/" then some name else none) =
        component name := by
      unfold component
      by_cases root : name = "/"
      · simp [root]
      · simp [root, nonempty]
    rw [pure_bind, collects]

theorem dentryRound_eq_ok {current : UInt64} {found : Option String}
    {onward : Option UInt64} :
    self.dentryRound offsets limit components current = .ok (found, onward) ↔
      ∃ name parent, self.readDentryName current offsets = .ok name ∧
        found = component name ∧
        self.readParent offsets current = .ok parent ∧ parent ≠ 0 ∧
        ((parent = current ∧ onward = none) ∨
          (parent ≠ current ∧
            (collected (components ++ [component name])).length < limit ∧
            onward = some parent)) := by
  rw [dentryRound_eq]
  simp only [bind_eq_ok, rejectIf_eq_ok]
  constructor
  · intro given
    obtain ⟨name, read, parent, up, _, present, ended⟩ := given
    by_cases own : parent = current
    · rw [if_pos own] at ended
      cases ended
      exact ⟨name, parent, read, rfl, up, present, .inl ⟨own, rfl⟩⟩
    · rw [if_neg own] at ended
      obtain ⟨_, room, ended⟩ := bind_eq_ok.mp ended
      rw [rejectIf_eq_ok, Nat.not_le] at room
      cases ended
      exact ⟨name, parent, read, rfl, up, present, .inr ⟨own, room, rfl⟩⟩
  · intro given
    obtain ⟨name, parent, read, rfl, up, present, ends⟩ := given
    refine ⟨name, read, parent, up, (), present, ?_⟩
    rcases ends with ⟨own, rfl⟩ | ⟨apart, room, rfl⟩
    · rw [if_pos own]
      rfl
    · rw [if_neg apart, rejectIf_neg (Nat.not_le.mpr room)]
      rfl

theorem mountedRound_eq {mountOffsets : LinuxMountOffsets}
    (dentry mount : UInt64) :
    self.mountedRound offsets mountOffsets limit components (dentry, mount) =
      (do
        let top ← self.readMountRoot mountOffsets mount
        rejectIf (top = 0) (.backend "Linux mount has null root")
        if dentry = top then do
          let parent ← self.readMountParent mountOffsets mount
          rejectIf (parent = 0) (.backend "Linux mount has null parent")
          if parent = mount then
            return (none, none)
          else do
            let point ← self.readMountpoint mountOffsets mount
            rejectIf (point = 0) (.backend "Linux mount has null mountpoint")
            return (none, some (point, parent))
        else do
          let name ← self.readDentryName dentry offsets
          rejectIf (limit ≤ (collected components).length + 1)
            (.backend s!"Linux mounted path exceeded component limit {limit}")
          let parent ← self.readParent offsets dentry
          rejectIf (parent = 0)
            (.backend s!"Linux dentry {hex dentry.toNat} has null parent")
          return (some name, some (parent, mount))) := by
  unfold mountedRound readMountRoot readMountParent readMountpoint readParent
  simp only [bind_assoc]

theorem mountedRound_eq_ok {mountOffsets : LinuxMountOffsets}
    {dentry mount : UInt64} {found : Option String}
    {onward : Option (UInt64 × UInt64)} :
    self.mountedRound offsets mountOffsets limit components (dentry, mount) =
        .ok (found, onward) ↔
      ∃ top, self.readMountRoot mountOffsets mount = .ok top ∧ top ≠ 0 ∧
        ((dentry = top ∧ found = none ∧
          ∃ parent, self.readMountParent mountOffsets mount = .ok parent ∧
            parent ≠ 0 ∧
            ((parent = mount ∧ onward = none) ∨
              (parent ≠ mount ∧
                ∃ point, self.readMountpoint mountOffsets mount = .ok point ∧
                  point ≠ 0 ∧ onward = some (point, parent)))) ∨
        (dentry ≠ top ∧
          ∃ name parent, self.readDentryName dentry offsets = .ok name ∧
            found = some name ∧ (collected components).length + 1 < limit ∧
            self.readParent offsets dentry = .ok parent ∧ parent ≠ 0 ∧
            onward = some (parent, mount))) := by
  rw [mountedRound_eq]
  simp only [bind_eq_ok, rejectIf_eq_ok]
  constructor
  · intro given
    obtain ⟨top, rooted, _, present, ended⟩ := given
    refine ⟨top, rooted, present, ?_⟩
    by_cases atRoot : dentry = top
    · rw [if_pos atRoot] at ended
      simp only [bind_eq_ok, rejectIf_eq_ok] at ended
      obtain ⟨parent, up, _, parentPresent, ended⟩ := ended
      by_cases own : parent = mount
      · rw [if_pos own] at ended
        cases ended
        exact .inl ⟨atRoot, rfl, parent, up, parentPresent, .inl ⟨own, rfl⟩⟩
      · rw [if_neg own] at ended
        simp only [bind_eq_ok, rejectIf_eq_ok] at ended
        obtain ⟨point, covers, _, pointPresent, ended⟩ := ended
        cases ended
        exact .inl ⟨atRoot, rfl, parent, up, parentPresent,
          .inr ⟨own, point, covers, pointPresent, rfl⟩⟩
    · rw [if_neg atRoot] at ended
      simp only [bind_eq_ok, rejectIf_eq_ok, Nat.not_le] at ended
      obtain ⟨name, read, _, room, parent, up, _, parentPresent, ended⟩ := ended
      cases ended
      exact .inr ⟨atRoot, name, parent, read, rfl, room, up, parentPresent, rfl⟩
  · intro given
    obtain ⟨top, rooted, present, ends⟩ := given
    refine ⟨top, rooted, (), present, ?_⟩
    rcases ends with ⟨atRoot, rfl, parent, up, parentPresent, stops⟩ |
      ⟨below, name, parent, read, rfl, room, up, parentPresent, rfl⟩
    · rw [if_pos atRoot, up, ok_bind, rejectIf_neg parentPresent, ok_bind]
      rcases stops with ⟨own, rfl⟩ | ⟨apart, point, covers, pointPresent, rfl⟩
      · rw [if_pos own]
        rfl
      · rw [if_neg apart, covers, ok_bind, rejectIf_neg pointPresent]
        rfl
    · rw [if_neg below, read, ok_bind, rejectIf_neg (Nat.not_le.mpr room),
        ok_bind, up, ok_bind, rejectIf_neg parentPresent]
      rfl

theorem dentryRound_steady : Steady (self.dentryRound offsets limit) := by
  intro before other current first second advances advancesToo
  obtain ⟨found, onward⟩ := first
  obtain ⟨foundToo, onwardToo⟩ := second
  obtain ⟨name, parent, read, rfl, up, _, ends⟩ := dentryRound_eq_ok.mp advances
  obtain ⟨nameToo, parentToo, readToo, rfl, upToo, _, endsToo⟩ :=
    dentryRound_eq_ok.mp advancesToo
  rw [read] at readToo
  rw [up] at upToo
  cases readToo
  cases upToo
  rcases ends with ⟨own, rfl⟩ | ⟨apart, _, rfl⟩
  · rcases endsToo with ⟨_, rfl⟩ | ⟨apart, _⟩
    · rfl
    · contradiction
  · rcases endsToo with ⟨own, _⟩ | ⟨_, _, rfl⟩
    · contradiction
    · rfl

theorem mountedRound_steady {mountOffsets : LinuxMountOffsets} :
    Steady (self.mountedRound offsets mountOffsets limit) := by
  intro before other position first second advances advancesToo
  obtain ⟨dentry, mount⟩ := position
  obtain ⟨found, onward⟩ := first
  obtain ⟨foundToo, onwardToo⟩ := second
  obtain ⟨top, rooted, _, ends⟩ := mountedRound_eq_ok.mp advances
  obtain ⟨topToo, rootedToo, _, endsToo⟩ := mountedRound_eq_ok.mp advancesToo
  rw [rooted] at rootedToo
  cases rootedToo
  rcases ends with ⟨atRoot, rfl, parent, up, _, stops⟩ |
    ⟨below, name, parent, read, rfl, _, up, _, rfl⟩
  · rcases endsToo with ⟨_, rfl, parentToo, upToo, _, stopsToo⟩ | ⟨below, _⟩
    · rw [up] at upToo
      cases upToo
      rcases stops with ⟨own, rfl⟩ | ⟨apart, point, covers, _, rfl⟩
      · rcases stopsToo with ⟨_, rfl⟩ | ⟨apart, _⟩
        · rfl
        · contradiction
      · rcases stopsToo with ⟨own, _⟩ | ⟨_, pointToo, coversToo, _, rfl⟩
        · contradiction
        · rw [covers] at coversToo
          cases coversToo
          rfl
    · contradiction
  · rcases endsToo with ⟨atRoot, _⟩ |
      ⟨_, nameToo, parentToo, readToo, rfl, _, upToo, _, rfl⟩
    · contradiction
    · rw [read] at readToo
      rw [up] at upToo
      cases readToo
      cases upToo
      rfl

end Rounds

section Gathering

variable {ν : Type}
  {advance : List (Option String) → ν → Result (Option String × Option ν)}

/-- The rounds from a node come to an end, and collect the names on the way. -/
def Gathers
    (advance : List (Option String) → ν → Result (Option String × Option ν))
    (before : List (Option String)) (node : ν) (names : List String) : Prop :=
  ∃ stretch, Walked advance before node stretch ∧
    collected (recordsOf stretch) = names

@[simp] theorem collected_nil : collected [] = [] := rfl

@[simp] theorem collected_cons (record : Option String)
    (records : List (Option String)) :
    collected (record :: records) = record.toList ++ collected records := by
  cases record <;> rfl

@[simp] theorem collected_append (first second : List (Option String)) :
    collected (first ++ second) = collected first ++ collected second :=
  List.filterMap_append

theorem gathers_iff {before : List (Option String)} {node : ν}
    {names : List String} :
    Gathers advance before node names ↔
      (∃ record, advance before node = .ok (record, none) ∧
        names = record.toList) ∨
      ∃ record next rest, advance before node = .ok (record, some next) ∧
        Gathers advance (before ++ [record]) next rest ∧
        names = record.toList ++ rest := by
  unfold Gathers
  constructor
  · intro given
    obtain ⟨stretch, walked, rfl⟩ := given
    cases walked with
    | last ends =>
        refine .inl ⟨_, ends, ?_⟩
        rw [recordsOf_cons, recordsOf_nil, collected_cons]
        exact List.append_nil _
    | step leads onward =>
        refine .inr ⟨_, _, _, leads, ⟨_, onward, rfl⟩, ?_⟩
        rw [recordsOf_cons, collected_cons]
  · intro given
    rcases given with ⟨record, ends, rfl⟩ |
      ⟨record, next, rest, leads, ⟨stretch, onward, rfl⟩, rfl⟩
    · refine ⟨_, .last ends, ?_⟩
      rw [recordsOf_cons, recordsOf_nil, collected_cons]
      exact List.append_nil _
    · refine ⟨_, .step leads onward, ?_⟩
      rw [recordsOf_cons, collected_cons]

theorem Gathers.first {before : List (Option String)} {node : ν}
    {names : List String} (gathers : Gathers advance before node names) :
    ∃ result, advance before node = .ok result := by
  obtain ⟨stretch, walked, _⟩ := gathers
  cases walked with
  | last ends => exact ⟨_, ends⟩
  | step leads _ => exact ⟨_, leads⟩

theorem gathers_of_last {before : List (Option String)} {node : ν}
    {record : Option String} (ends : advance before node = .ok (record, none))
    {names : List String} :
    Gathers advance before node names ↔ names = record.toList := by
  rw [gathers_iff, ends]
  simp

theorem gathers_of_step {before : List (Option String)} {node next : ν}
    {record : Option String}
    (leads : advance before node = .ok (record, some next))
    {names : List String} :
    Gathers advance before node names ↔
      ∃ rest, Gathers advance (before ++ [record]) next rest ∧
        names = record.toList ++ rest := by
  rw [gathers_iff, leads]
  simp

theorem gathers_of_error {before : List (Option String)} {node : ν}
    {error : VmiError} (failed : advance before node = .error error)
    {names : List String} : ¬ Gathers advance before node names := by
  rw [gathers_iff, failed]
  simp

/-- The walk goes on to the end from a node with a name when the names fit
below the limit. -/
theorem gathers_child {before : List (Option String)} {node next : ν}
    {name : String} {names : List String} {limit : Nat}
    (leads : (collected before).length + 1 < limit →
      advance before node = .ok (some name, some next))
    (refused : limit ≤ (collected before).length + 1 →
      ∃ error, advance before node = .error error)
    (onward : ∀ {found}, Gathers advance (before ++ [some name]) next found ↔
      (names = [] ∨
        (collected (before ++ [some name])).length + names.length < limit) ∧
        found = names)
    {found : List String} :
    Gathers advance before node found ↔
      (name :: names = [] ∨
        (collected before).length + (name :: names).length < limit) ∧
        found = name :: names := by
  have joined : (collected (before ++ [some name])).length =
      (collected before).length + 1 := by
    simp
  by_cases room : (collected before).length + 1 < limit
  · rw [gathers_of_step (leads room)]
    simp only [onward, joined, List.length_cons]
    constructor
    · intro given
      obtain ⟨rest, ⟨fits, rfl⟩, rfl⟩ := given
      refine ⟨.inr ?_, rfl⟩
      cases fits with
      | inl none =>
          subst rest
          simpa using room
      | inr fewer => omega
    · intro given
      obtain ⟨fits, rfl⟩ := given
      have fewer := fits.resolve_left (List.cons_ne_nil name names)
      exact ⟨names, ⟨.inr (by omega), rfl⟩, rfl⟩
  · obtain ⟨error, failed⟩ := refused (Nat.not_lt.mp room)
    simp only [gathers_of_error failed, List.cons_ne_nil, false_or,
      List.length_cons, false_iff]
    omega

end Gathering

section Paths

variable {self} {offsets : LinuxDentryOffsets} {limit : Nat}

/-- Both walks refuse other bounds on the length of a name. -/
def NameBoundAccepted (offsets : LinuxDentryOffsets) : Prop :=
  0 < offsets.maximumNameBytes ∧ offsets.maximumNameBytes ≤ 65536

theorem dentryPathStart_eq_ok {dentry : Gva} {start : UInt64} :
    dentryPathStart dentry offsets limit = .ok start ↔
      (dentry.raw ≠ 0 ∧ limit ≠ 0 ∧ NameBoundAccepted offsets) ∧ start = dentry.raw := by
  unfold dentryPathStart NameBoundAccepted
  simp only [bind_eq_ok, rejectIf_eq_ok, exists_const, pure_eq_ok,
    Except.ok.injEq, not_or, Nat.pos_iff_ne_zero, Nat.not_lt]
  exact and_congr_right fun _ => eq_comm

theorem mountedPathStart_eq_ok {dentry mount : Gva}
    {start : UInt64 × UInt64} :
    mountedPathStart dentry mount offsets limit = .ok start ↔
      ((dentry.raw ≠ 0 ∧ mount.raw ≠ 0) ∧ limit ≠ 0 ∧ NameBoundAccepted offsets) ∧
        start = (dentry.raw, mount.raw) := by
  unfold mountedPathStart NameBoundAccepted
  simp only [bind_eq_ok, rejectIf_eq_ok, exists_const, pure_eq_ok,
    Except.ok.injEq, not_or, Nat.pos_iff_ne_zero, Nat.not_lt, and_assoc]
  exact and_congr_right fun _ => and_congr_right fun _ =>
    and_congr_right fun _ => and_congr_right fun _ =>
      and_congr_right fun _ => eq_comm

theorem dentryPath_eq_ok {dentry : Gva} {path : String} :
    self.dentryPath dentry offsets limit = .ok path ↔
      (dentry.raw ≠ 0 ∧ limit ≠ 0 ∧ NameBoundAccepted offsets) ∧
      ∃ names, Gathers (self.dentryRound offsets limit) [] dentry.raw names ∧
        PathFits names.reverse ∧ path = absolutePath names.reverse := by
  unfold dentryPath Gathers
  simp only [bind_eq_ok, dentryPathStart_eq_ok, walk_nil_eq_ok
    dentryRound_steady, joinAbsolutePath_eq_ok]
  constructor
  · intro given
    obtain ⟨start, ⟨accepted, rfl⟩, trail, walked, fits, rfl⟩ := given
    exact ⟨accepted, _, ⟨trail, walked, rfl⟩, fits, rfl⟩
  · intro given
    obtain ⟨accepted, names, ⟨trail, walked, rfl⟩, fits, rfl⟩ := given
    exact ⟨_, ⟨accepted, rfl⟩, trail, walked, fits, rfl⟩

theorem mountedPath_eq_ok {dentry mount : Gva}
    {mountOffsets : LinuxMountOffsets} {path : String} :
    self.mountedPath dentry mount offsets mountOffsets limit = .ok path ↔
      ((dentry.raw ≠ 0 ∧ mount.raw ≠ 0) ∧ limit ≠ 0 ∧ NameBoundAccepted offsets) ∧
      ∃ names, Gathers (self.mountedRound offsets mountOffsets limit) []
          (dentry.raw, mount.raw) names ∧
        PathFits (retained names).reverse ∧
        path = absolutePath (retained names).reverse := by
  unfold mountedPath Gathers
  simp only [bind_eq_ok, mountedPathStart_eq_ok, walk_nil_eq_ok
    mountedRound_steady, joinAbsolutePath_eq_ok]
  constructor
  · intro given
    obtain ⟨start, ⟨accepted, rfl⟩, trail, walked, fits, rfl⟩ := given
    exact ⟨accepted, _, ⟨trail, walked, rfl⟩, fits, rfl⟩
  · intro given
    obtain ⟨accepted, names, ⟨trail, walked, rfl⟩, fits, rfl⟩ := given
    exact ⟨_, ⟨accepted, rfl⟩, trail, walked, fits, rfl⟩

theorem retained_eq_self {names : List String}
    (named : ∀ name ∈ names, name ≠ "" ∧ name ≠ "/") :
    retained names = names :=
  List.filter_eq_self.mpr fun name member => decide_eq_true (named name member)

end Paths

end LibVmi.Os.LinuxIntrospector
