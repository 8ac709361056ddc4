import LibVmi.Os.DentryPaths

namespace LibVmi.Os.LinuxIntrospector

open Data Arch LibVmi.Core

variable {σ : Type} [Session σ] (self : LinuxIntrospector σ)

theorem component_of_root {name : String} (unnamed : name = "" ∨ name = "/") :
    component name = none :=
  if_pos unnamed

theorem component_of_named {name : String} (named : name ≠ "" ∧ name ≠ "/") :
    component name = some name :=
  if_neg (not_or.mpr named)

/-! Ancestries: the names that are found on the way up, the last name first. -/

inductive DentryAncestry (offsets : LinuxDentryOffsets) :
    UInt64 → List String → Prop
  | root {dentry : UInt64} {name : String} (present : dentry ≠ 0)
      (read : self.readDentryName dentry offsets = .ok name)
      (unnamed : name = "" ∨ name = "/")
      (own : self.readParent offsets dentry = .ok dentry) :
      DentryAncestry offsets dentry []
  | child {dentry parent : UInt64} {name : String} {names : List String}
      (present : dentry ≠ 0)
      (read : self.readDentryName dentry offsets = .ok name)
      (named : name ≠ "" ∧ name ≠ "/")
      (up : self.readParent offsets dentry = .ok parent)
      (apart : parent ≠ dentry)
      (onward : DentryAncestry offsets parent names) :
      DentryAncestry offsets dentry (name :: names)

/-- Over any number of mounts, each of which is crossed at its root. -/
inductive MountedAncestry (dentryOffsets : LinuxDentryOffsets)
    (mountOffsets : LinuxMountOffsets) : UInt64 × UInt64 → List String → Prop
  | root {dentry mount : UInt64} (present : dentry ≠ 0 ∧ mount ≠ 0)
      (rooted : self.readMountRoot mountOffsets mount = .ok dentry)
      (own : self.readMountParent mountOffsets mount = .ok mount) :
      MountedAncestry dentryOffsets mountOffsets (dentry, mount) []
  | cross {dentry mount parent point : UInt64} {names : List String}
      (present : dentry ≠ 0 ∧ mount ≠ 0)
      (rooted : self.readMountRoot mountOffsets mount = .ok dentry)
      (above : self.readMountParent mountOffsets mount = .ok parent)
      (apart : parent ≠ mount)
      (covers : self.readMountpoint mountOffsets mount = .ok point)
      (onward : MountedAncestry dentryOffsets mountOffsets (point, parent)
        names) :
      MountedAncestry dentryOffsets mountOffsets (dentry, mount) names
  | child {dentry mount top parent : UInt64} {name : String}
      {names : List String} (present : dentry ≠ 0 ∧ mount ≠ 0)
      (rooted : self.readMountRoot mountOffsets mount = .ok top)
      (topPresent : top ≠ 0) (below : dentry ≠ top)
      (read : self.readDentryName dentry dentryOffsets = .ok name)
      (named : name ≠ "" ∧ name ≠ "/")
      (up : self.readParent dentryOffsets dentry = .ok parent)
      (onward : MountedAncestry dentryOffsets mountOffsets (parent, mount)
        names) :
      MountedAncestry dentryOffsets mountOffsets (dentry, mount) (name :: names)

section Ancestries

variable {self} {offsets : LinuxDentryOffsets} {mountOffsets : LinuxMountOffsets}
  {limit : Nat}

theorem DentryAncestry.present {dentry : UInt64} {names : List String}
    (ancestry : self.DentryAncestry offsets dentry names) : dentry ≠ 0 := by
  cases ancestry with
  | root present => exact present
  | child present => exact present

theorem MountedAncestry.present {position : UInt64 × UInt64}
    {names : List String}
    (ancestry : self.MountedAncestry offsets mountOffsets position names) :
    position.1 ≠ 0 ∧ position.2 ≠ 0 := by
  cases ancestry with
  | root present => exact present
  | cross present => exact present
  | child present => exact present

theorem MountedAncestry.named {position : UInt64 × UInt64}
    {names : List String}
    (ancestry : self.MountedAncestry offsets mountOffsets position names) :
    ∀ name ∈ names, name ≠ "" ∧ name ≠ "/" := by
  induction ancestry with
  | root => simp
  | cross _ _ _ _ _ _ induction => exact induction
  | child _ _ _ _ _ named _ _ induction =>
      exact List.forall_mem_cons.mpr ⟨named, induction⟩

theorem dentryRound_root {before : List (Option String)} {root : UInt64}
    {name : String} (present : root ≠ 0)
    (read : self.readDentryName root offsets = .ok name)
    (unnamed : name = "" ∨ name = "/")
    (own : self.readParent offsets root = .ok root) :
    self.dentryRound offsets limit before root = .ok (none, none) :=
  dentryRound_eq_ok.mpr ⟨name, root, read, (component_of_root unnamed).symm,
    own, present, .inl ⟨rfl, rfl⟩⟩

theorem mountedRound_root {before : List (Option String)}
    {root mount : UInt64} (present : root ≠ 0) (mountPresent : mount ≠ 0)
    (rooted : self.readMountRoot mountOffsets mount = .ok root)
    (own : self.readMountParent mountOffsets mount = .ok mount) :
    self.mountedRound offsets mountOffsets limit before (root, mount) =
      .ok (none, none) :=
  mountedRound_eq_ok.mpr ⟨root, rooted, present,
    .inl ⟨rfl, rfl, mount, own, mountPresent, .inl ⟨rfl, rfl⟩⟩⟩

/-- The walk comes to the root of an ancestry when it collects fewer names than
the limit, or none at all. -/
theorem DentryAncestry.gathers_iff {dentry : UInt64} {names : List String}
    (ancestry : self.DentryAncestry offsets dentry names)
    {before : List (Option String)} {found : List String} :
    Gathers (self.dentryRound offsets limit) before dentry found ↔
      (names = [] ∨ (collected before).length + names.length < limit) ∧
        found = names := by
  induction ancestry generalizing before found with
  | @root dentry name present read unnamed own =>
      rw [gathers_of_last (dentryRound_root present read unnamed own)]
      simp
  | @child dentry parent name names present read named up apart onward
      induction =>
      have kept := component_of_named named
      have joined : (collected (before ++ [some name])).length =
          (collected before).length + 1 := by
        simp
      refine gathers_child ?_ ?_ induction
      · intro room
        exact dentryRound_eq_ok.mpr ⟨name, parent, read, kept.symm, up,
          onward.present, .inr ⟨apart, by rwa [kept, joined], rfl⟩⟩
      · intro full
        rw [dentryRound_eq, read, ok_bind, up, ok_bind,
          rejectIf_neg onward.present, ok_bind, if_neg apart, kept, joined,
          rejectIf_pos full]
        exact ⟨_, rfl⟩

theorem MountedAncestry.gathers_iff {position : UInt64 × UInt64}
    {names : List String}
    (ancestry : self.MountedAncestry offsets mountOffsets position names)
    {before : List (Option String)} {found : List String} :
    Gathers (self.mountedRound offsets mountOffsets limit) before position
        found ↔
      (names = [] ∨ (collected before).length + names.length < limit) ∧
        found = names := by
  induction ancestry generalizing before found with
  | @root dentry mount present rooted own =>
      rw [gathers_of_last (mountedRound_root present.1 present.2 rooted own)]
      simp
  | @cross dentry mount parent point names present rooted above apart covers
      onward induction =>
      have leads : self.mountedRound offsets mountOffsets limit before
          (dentry, mount) = .ok (none, some (point, parent)) :=
        mountedRound_eq_ok.mpr ⟨dentry, rooted, present.1,
          .inl ⟨rfl, rfl, parent, above, onward.present.2,
            .inr ⟨apart, point, covers, onward.present.1, rfl⟩⟩⟩
      have skipped : collected (before ++ [none]) = collected before := by
        simp
      rw [gathers_of_step leads]
      simp only [induction, skipped, Option.toList_none, List.nil_append]
      exact ⟨fun ⟨_, found, same⟩ => same ▸ found, fun found => ⟨_, found, rfl⟩⟩
  | @child dentry mount top parent name names present rooted topPresent below
      read named up onward induction =>
      refine gathers_child ?_ ?_ induction
      · intro room
        exact mountedRound_eq_ok.mpr ⟨top, rooted, topPresent,
          .inr ⟨below, name, parent, read, rfl, room, up, onward.present.1,
            rfl⟩⟩
      · intro full
        rw [mountedRound_eq, rooted, ok_bind, rejectIf_neg topPresent, ok_bind,
          if_neg below, read, ok_bind, rejectIf_pos full]
        exact ⟨_, rfl⟩

theorem DentryAncestry.path_eq_ok {dentry : Gva} {names : List String}
    (ancestry : self.DentryAncestry offsets dentry.raw names) {path : String} :
    self.dentryPath dentry offsets limit = .ok path ↔
      (limit ≠ 0 ∧ NameBoundAccepted offsets) ∧
        (names = [] ∨ names.length < limit) ∧ PathFits names.reverse ∧
        path = absolutePath names.reverse := by
  simp only [dentryPath_eq_ok, ancestry.gathers_iff, collected_nil,
    List.length_nil, Nat.zero_add]
  constructor
  · intro given
    obtain ⟨⟨_, accepted⟩, _, ⟨room, rfl⟩, fits, rfl⟩ := given
    exact ⟨accepted, room, fits, rfl⟩
  · intro given
    obtain ⟨accepted, room, fits, rfl⟩ := given
    exact ⟨⟨ancestry.present, accepted⟩, _, ⟨room, rfl⟩, fits, rfl⟩

theorem MountedAncestry.path_eq_ok {dentry mount : Gva} {names : List String}
    (ancestry : self.MountedAncestry offsets mountOffsets
      (dentry.raw, mount.raw) names) {path : String} :
    self.mountedPath dentry mount offsets mountOffsets limit = .ok path ↔
      (limit ≠ 0 ∧ NameBoundAccepted offsets) ∧
        (names = [] ∨ names.length < limit) ∧ PathFits names.reverse ∧
        path = absolutePath names.reverse := by
  simp only [mountedPath_eq_ok, ancestry.gathers_iff, collected_nil,
    List.length_nil, Nat.zero_add]
  constructor
  · intro given
    obtain ⟨⟨_, accepted⟩, _, ⟨room, rfl⟩, fits, rfl⟩ := given
    rw [retained_eq_self ancestry.named] at fits ⊢
    exact ⟨accepted, room, fits, rfl⟩
  · intro given
    obtain ⟨accepted, room, fits, rfl⟩ := given
    refine ⟨⟨ancestry.present, accepted⟩, names, ⟨room, rfl⟩, ?_⟩
    rw [retained_eq_self ancestry.named]
    exact ⟨fits, rfl⟩

end Ancestries

/-- The path is whole for every limit that the names do not exceed, and there is
none for a limit that they do. -/
def Reconstructs (names : List String) (limit : Nat) (path : Result String) :
    Prop :=
  (max names.length 1 ≤ limit → path = .ok (absolutePath names.reverse)) ∧
    (1 ≤ limit → limit < names.length → ∃ error, path = .error error)

theorem reconstructs_iff {names : List String} {limit : Nat}
    {result : Result String} {accepted : Prop} (positive : 1 ≤ limit)
    (pathEq : ∀ path, result = .ok path ↔
      (limit ≠ 0 ∧ accepted) ∧ (names = [] ∨ names.length < limit) ∧
        PathFits names.reverse ∧ path = absolutePath names.reverse) :
    Reconstructs names limit result ↔
      limit < names.length ∨
        (names = [] ∨ names.length < limit) ∧ accepted ∧
          PathFits names.reverse := by
  unfold Reconstructs
  constructor
  · intro given
    by_cases exceeded : limit < names.length
    · exact .inl exceeded
    · have whole := given.1 (by omega)
      obtain ⟨⟨_, accepted⟩, room, fits, _⟩ := (pathEq _).mp whole
      exact .inr ⟨room, accepted, fits⟩
  · intro given
    cases given with
    | inl exceeded =>
        refine ⟨fun covered => by omega, fun _ _ => ?_⟩
        cases outcome : result with
        | error error => exact ⟨error, rfl⟩
        | ok path =>
            obtain ⟨_, room, _⟩ := (pathEq path).mp outcome
            cases room with
            | inl none =>
                subst names
                contradiction
            | inr fewer => omega
    | inr meets =>
        obtain ⟨room, accepted, fits⟩ := meets
        refine ⟨fun _ => (pathEq _).mpr
          ⟨⟨by omega, accepted⟩, room, fits, rfl⟩, fun _ exceeded => ?_⟩
        cases room with
        | inl none =>
            subst names
            contradiction
        | inr fewer => omega

/-- Both walks reconstruct a path unless it has as many names as the limit: they
test for the limit before they have seen that the root is next. -/
theorem paths_reconstructed_iff (offsets : LinuxDentryOffsets) {limit : Nat}
    (positive : 1 ≤ limit) (names : List String) :
    (∀ dentry : Gva, self.DentryAncestry offsets dentry.raw names →
      (Reconstructs names limit (self.dentryPath dentry offsets limit) ↔
        limit < names.length ∨
          (names = [] ∨ names.length < limit) ∧ NameBoundAccepted offsets ∧
            PathFits names.reverse)) ∧
    ∀ (mountOffsets : LinuxMountOffsets) (dentry mount : Gva),
      self.MountedAncestry offsets mountOffsets (dentry.raw, mount.raw) names →
      (Reconstructs names limit
          (self.mountedPath dentry mount offsets mountOffsets limit) ↔
        limit < names.length ∨
          (names = [] ∨ names.length < limit) ∧ NameBoundAccepted offsets ∧
            PathFits names.reverse) := by
  constructor
  · intro dentry ancestry
    exact reconstructs_iff positive fun _ => ancestry.path_eq_ok
  · intro mountOffsets dentry mount ancestry
    exact reconstructs_iff positive fun _ => ancestry.path_eq_ok

/-! A file "b" at 72 in a directory "a" at 48, which is in a root at 24, in the
mount at 104. -/

def nestedFile : List UInt8 :=
  List.replicate 24 0 ++ toLe 8 24 ++ toLe 8 0 ++ toLe 8 0 ++
    toLe 8 24 ++ toLe 8 1 ++ toLe 8 96 ++
    toLe 8 48 ++ toLe 8 1 ++ toLe 8 97 ++ toLe 8 0x6261 ++
    toLe 8 104 ++ toLe 8 0 ++ toLe 8 24

def nestedDentries : LinuxDentryOffsets := ⟨0, 8, 0, 8, 255⟩

def nestedMounts : LinuxMountOffsets := ⟨0, 8, 16⟩

theorem directory_ancestry :
    (inspector nestedFile).DentryAncestry nestedDentries 48 ["a"] := by
  have unnamed : (inspector nestedFile).readDentryName 24 nestedDentries =
      .ok "" := by
    decide +kernel
  have root : (inspector nestedFile).DentryAncestry nestedDentries 24 [] :=
    .root (by decide) unnamed (.inl rfl) (by decide +kernel)
  exact .child (by decide) (by decide +kernel) (by decide) (by decide +kernel)
    (by decide) root

theorem nestedFile_ancestry :
    (inspector nestedFile).DentryAncestry nestedDentries 72 ["b", "a"] :=
  .child (by decide) (by decide +kernel) (by decide) (by decide +kernel)
    (by decide) directory_ancestry

theorem nestedFile_rooted :
    (inspector nestedFile).readMountRoot nestedMounts 104 = .ok 24 := by
  decide +kernel

theorem directory_mountedAncestry :
    (inspector nestedFile).MountedAncestry nestedDentries nestedMounts
      (48, 104) ["a"] := by
  have root : (inspector nestedFile).MountedAncestry nestedDentries
      nestedMounts (24, 104) [] :=
    .root (by decide) nestedFile_rooted (by decide +kernel)
  exact .child (by decide) nestedFile_rooted (by decide) (by decide)
    (by decide +kernel) (by decide) (by decide +kernel) root

theorem nestedFile_mountedAncestry :
    (inspector nestedFile).MountedAncestry nestedDentries nestedMounts
      (72, 104) ["b", "a"] :=
  .child (by decide) nestedFile_rooted (by decide) (by decide)
    (by decide +kernel) (by decide) (by decide +kernel)
    directory_mountedAncestry

theorem paths_reconstructed_below_limit :
    let self := inspector nestedFile
    self.dentryPath ⟨72⟩ nestedDentries 3 = .ok "/a/b" ∧
      self.mountedPath ⟨72⟩ ⟨104⟩ nestedDentries nestedMounts 3 =
        .ok "/a/b" := by
  intro self
  have positive : 1 ≤ 3 := by decide
  have general := paths_reconstructed_iff self nestedDentries positive
    ["b", "a"]
  have meets : NameBoundAccepted nestedDentries ∧
      PathFits ["b", "a"].reverse := by
    unfold NameBoundAccepted PathFits
    decide
  have room : ["b", "a"] = [] ∨ ["b", "a"].length < 3 := .inr (by decide)
  exact ⟨((general.1 ⟨72⟩ nestedFile_ancestry).mpr (.inr ⟨room, meets⟩)).1
      (by decide),
    ((general.2 nestedMounts ⟨72⟩ ⟨104⟩ nestedFile_mountedAncestry).mpr
      (.inr ⟨room, meets⟩)).1 (by decide)⟩

/-- At the limit of one component neither walk reconstructs a path of one. -/
theorem one_component_refused :
    let self := inspector nestedFile
    self.DentryAncestry nestedDentries 48 ["a"] ∧
      ¬ Reconstructs ["a"] 1 (self.dentryPath ⟨48⟩ nestedDentries 1) ∧
      self.MountedAncestry nestedDentries nestedMounts (48, 104) ["a"] ∧
      ¬ Reconstructs ["a"] 1
        (self.mountedPath ⟨48⟩ ⟨104⟩ nestedDentries nestedMounts 1) := by
  intro self
  refine ⟨directory_ancestry, ?_, directory_mountedAncestry, ?_⟩
  · intro whole
    have reached : self.dentryPath ⟨48⟩ nestedDentries 1 = .ok "/a" :=
      whole.1 (by decide)
    have room := (directory_ancestry.path_eq_ok.mp reached).2.1
    exact absurd room (by decide)
  · intro whole
    have reached : self.mountedPath ⟨48⟩ ⟨104⟩ nestedDentries nestedMounts 1 =
        .ok "/a" :=
      whole.1 (by decide)
    have room := (directory_mountedAncestry.path_eq_ok.mp reached).2.1
    exact absurd room (by decide)

/-! A mount without one above it. -/

structure SingleMount (guest : LinuxIntrospector σ)
    (dentryOffsets : LinuxDentryOffsets) (mountOffsets : LinuxMountOffsets)
    (mount root : UInt64) : Prop where
  present : mount ≠ 0
  rooted : guest.readMountRoot mountOffsets mount = .ok root
  own : guest.readMountParent mountOffsets mount = .ok mount
  rootOwn : guest.readParent dentryOffsets root = .ok root
  rootUnnamed : ∃ name, guest.readDentryName root dentryOffsets = .ok name ∧
    (name = "" ∨ name = "/")

/-- The parents lead to the root, over dentries that have names if these can be
read. -/
inductive BelowRoot (offsets : LinuxDentryOffsets) (root : UInt64) :
    UInt64 → Prop
  | here : BelowRoot offsets root root
  | child {dentry parent : UInt64}
      (named : ∀ name, self.readDentryName dentry offsets = .ok name →
        name ≠ "" ∧ name ≠ "/")
      (up : self.readParent offsets dentry = .ok parent)
      (apart : parent ≠ dentry) (onward : BelowRoot offsets root parent) :
      BelowRoot offsets root dentry

section Agreement

variable {self} {offsets : LinuxDentryOffsets} {mountOffsets : LinuxMountOffsets}
  {limit : Nat} {mount root : UInt64}

/-- What either walk needs to go on from a dentry below the root. -/
def Climbs (self : LinuxIntrospector σ) (offsets : LinuxDentryOffsets)
    (limit : Nat) (before : List (Option String)) (dentry parent : UInt64)
    (record : Option String) : Prop :=
  ∃ name, self.readDentryName dentry offsets = .ok name ∧ record = some name ∧
    (collected before).length + 1 < limit ∧ parent ≠ 0

theorem dentryRound_climbs {before : List (Option String)}
    {dentry parent : UInt64}
    (named : ∀ name, self.readDentryName dentry offsets = .ok name →
      name ≠ "" ∧ name ≠ "/")
    (up : self.readParent offsets dentry = .ok parent)
    (apart : parent ≠ dentry) {record : Option String}
    {onward : Option UInt64} :
    self.dentryRound offsets limit before dentry = .ok (record, onward) ↔
      Climbs self offsets limit before dentry parent record ∧
        onward = some parent := by
  rw [dentryRound_eq_ok]
  unfold Climbs
  constructor
  · intro given
    obtain ⟨name, parentToo, read, rfl, upToo, present, ends⟩ := given
    rw [up] at upToo
    cases upToo
    rw [component_of_named (named name read)] at ends ⊢
    rcases ends with ⟨ownParent, _⟩ | ⟨_, room, rfl⟩
    · contradiction
    · exact ⟨⟨name, read, rfl, by simpa using room, present⟩, rfl⟩
  · intro given
    obtain ⟨⟨name, read, rfl, room, present⟩, rfl⟩ := given
    have kept := component_of_named (named name read)
    exact ⟨name, parent, read, kept.symm, up, present,
      .inr ⟨apart, by rw [kept]; simpa using room, rfl⟩⟩

theorem mountedRound_climbs {before : List (Option String)}
    {dentry parent : UInt64}
    (rooted : self.readMountRoot mountOffsets mount = .ok root)
    (rootPresent : root ≠ 0) (below : dentry ≠ root)
    (up : self.readParent offsets dentry = .ok parent)
    {record : Option String} {onward : Option (UInt64 × UInt64)} :
    self.mountedRound offsets mountOffsets limit before (dentry, mount) =
        .ok (record, onward) ↔
      Climbs self offsets limit before dentry parent record ∧
        onward = some (parent, mount) := by
  rw [mountedRound_eq_ok]
  unfold Climbs
  constructor
  · intro given
    obtain ⟨top, rootedToo, _, ends⟩ := given
    rw [rooted] at rootedToo
    cases rootedToo
    rcases ends with ⟨atRoot, _⟩ |
      ⟨_, name, parentToo, read, rfl, room, upToo, present, rfl⟩
    · contradiction
    · rw [up] at upToo
      cases upToo
      exact ⟨⟨name, read, rfl, room, present⟩, rfl⟩
  · intro given
    obtain ⟨⟨name, read, rfl, room, present⟩, rfl⟩ := given
    exact ⟨root, rooted, rootPresent,
      .inr ⟨below, name, parent, read, rfl, room, up, present, rfl⟩⟩

/-- Below the root of a single mount both walks collect the same names. -/
theorem BelowRoot.gathers_iff
    (single : self.SingleMount offsets mountOffsets mount root)
    (rootPresent : root ≠ 0) {dentry : UInt64}
    (below : self.BelowRoot offsets root dentry)
    {before : List (Option String)} {found : List String} :
    Gathers (self.dentryRound offsets limit) before dentry found ↔
      Gathers (self.mountedRound offsets mountOffsets limit) before
        (dentry, mount) found := by
  induction below generalizing before found with
  | here =>
      obtain ⟨name, read, unnamed⟩ := single.rootUnnamed
      rw [gathers_of_last
          (dentryRound_root rootPresent read unnamed single.rootOwn),
        gathers_of_last
          (mountedRound_root rootPresent single.present single.rooted
            single.own)]
  | @child dentry parent named up apart onward induction =>
      have notRoot : dentry ≠ root := by
        intro same
        subst dentry
        rw [single.rootOwn] at up
        cases up
        contradiction
      rw [LinuxIntrospector.gathers_iff, LinuxIntrospector.gathers_iff]
      simp only [dentryRound_climbs named up apart,
        mountedRound_climbs single.rooted rootPresent notRoot up,
        reduceCtorEq, and_false, false_and, exists_false, false_or,
        Option.some.injEq]
      constructor
      · intro given
        obtain ⟨record, _, rest, ⟨climbs, rfl⟩, rests, foundEq⟩ := given
        exact ⟨record, _, rest, ⟨climbs, rfl⟩, induction.mp rests, foundEq⟩
      · intro given
        obtain ⟨record, _, rest, ⟨climbs, rfl⟩, rests, foundEq⟩ := given
        exact ⟨record, _, rest, ⟨climbs, rfl⟩, induction.mpr rests, foundEq⟩

/-- A walk that ends has come to a root, and collected names on the way. -/
theorem BelowRoot.of_gathers
    (rootOwn : self.readParent offsets root = .ok root)
    (rootUnnamed : ∃ name, self.readDentryName root offsets = .ok name ∧
      (name = "" ∨ name = "/")) {dentry : UInt64}
    (below : self.BelowRoot offsets root dentry)
    {before : List (Option String)} {found : List String}
    (gathers : Gathers (self.dentryRound offsets limit) before dentry found) :
    root ≠ 0 ∧ ∀ name ∈ found, name ≠ "" ∧ name ≠ "/" := by
  induction below generalizing before found with
  | here =>
      obtain ⟨_, advanced⟩ := gathers.first
      obtain ⟨_, parent, _, _, up, present, _⟩ := dentryRound_eq_ok.mp advanced
      rw [rootOwn] at up
      cases up
      obtain ⟨name, read, unnamed⟩ := rootUnnamed
      rw [gathers_of_last (dentryRound_root present read unnamed rootOwn)]
        at gathers
      subst found
      exact ⟨present, by simp⟩
  | @child dentry parent named up apart onward induction =>
      rw [LinuxIntrospector.gathers_iff] at gathers
      simp only [dentryRound_climbs named up apart, reduceCtorEq, and_false,
        false_and, exists_false, false_or, Option.some.injEq] at gathers
      obtain ⟨record, _, rest, ⟨⟨name, read, rfl, _, _⟩, rfl⟩, rests, rfl⟩ :=
        gathers
      obtain ⟨rootPresent, restNamed⟩ := induction rests
      exact ⟨rootPresent, List.forall_mem_cons.mpr ⟨named name read, restNamed⟩⟩

theorem BelowRoot.path_iff
    (single : self.SingleMount offsets mountOffsets mount root) {dentry : Gva}
    (below : self.BelowRoot offsets root dentry.raw) {path : String} :
    self.dentryPath dentry offsets limit = .ok path ↔
      self.mountedPath dentry ⟨mount⟩ offsets mountOffsets limit = .ok path := by
  rw [dentryPath_eq_ok, mountedPath_eq_ok]
  constructor
  · intro given
    obtain ⟨⟨present, accepted⟩, names, gathers, fits, rfl⟩ := given
    obtain ⟨rootPresent, named⟩ :=
      below.of_gathers single.rootOwn single.rootUnnamed gathers
    refine ⟨⟨⟨present, single.present⟩, accepted⟩, names,
      (below.gathers_iff single rootPresent).mp gathers, ?_⟩
    rw [retained_eq_self named]
    exact ⟨fits, rfl⟩
  · intro given
    obtain ⟨⟨⟨present, _⟩, accepted⟩, names, gathers, rest⟩ := given
    have rootPresent : root ≠ 0 := by
      obtain ⟨_, advanced⟩ := gathers.first
      obtain ⟨_, rooted, rootPresent, _⟩ := mountedRound_eq_ok.mp advanced
      rw [single.rooted] at rooted
      cases rooted
      exact rootPresent
    have gathersToo := (below.gathers_iff single rootPresent).mpr gathers
    obtain ⟨_, named⟩ :=
      below.of_gathers single.rootOwn single.rootUnnamed gathersToo
    rw [retained_eq_self named] at rest
    exact ⟨⟨present, accepted⟩, names, gathersToo, rest⟩

end Agreement

/-- On a single mount both walks give the same path, or neither gives one. -/
theorem path_walks_agree (offsets : LinuxDentryOffsets)
    (mountOffsets : LinuxMountOffsets) {mount : Gva} {root : UInt64}
    (single : self.SingleMount offsets mountOffsets mount.raw root)
    {dentry : Gva} (below : self.BelowRoot offsets root dentry.raw)
    (limit : Nat) :
    ((∃ error, self.dentryPath dentry offsets limit = .error error) ∧
      ∃ error, self.mountedPath dentry mount offsets mountOffsets limit =
        .error error) ∨
    ∃ path, self.dentryPath dentry offsets limit = .ok path ∧
      self.mountedPath dentry mount offsets mountOffsets limit = .ok path := by
  cases first : self.dentryPath dentry offsets limit with
  | ok path => exact .inr ⟨path, rfl, (below.path_iff single).mp first⟩
  | error error =>
      cases second : self.mountedPath dentry mount offsets mountOffsets limit with
      | ok path =>
          rw [(below.path_iff single).mpr second] at first
          contradiction
      | error errorToo => exact .inl ⟨⟨error, rfl⟩, errorToo, rfl⟩

theorem path_walks_agree_nested_file :
    let self := inspector nestedFile
    (self.SingleMount nestedDentries nestedMounts 104 24 ∧
      self.BelowRoot nestedDentries 24 72) ∧
    self.dentryPath ⟨72⟩ nestedDentries 3 = .ok "/a/b" ∧
      self.mountedPath ⟨72⟩ ⟨104⟩ nestedDentries nestedMounts 3 =
        .ok "/a/b" := by
  intro self
  have unnamed : self.readDentryName 24 nestedDentries = .ok "" := by
    decide +kernel
  have single : self.SingleMount nestedDentries nestedMounts 104 24 :=
    ⟨by decide, nestedFile_rooted, by decide +kernel, by decide +kernel,
      "", unnamed, .inl rfl⟩
  have directory : self.readDentryName 48 nestedDentries = .ok "a" := by
    decide +kernel
  have file : self.readDentryName 72 nestedDentries = .ok "b" := by
    decide +kernel
  have below : self.BelowRoot nestedDentries 24 72 := by
    refine @BelowRoot.child _ _ self nestedDentries 24 72 48 ?_
      (by decide +kernel) (by decide)
      (@BelowRoot.child _ _ self nestedDentries 24 48 24 ?_
        (by decide +kernel) (by decide) .here)
    · intro name given
      rw [file] at given
      cases given
      decide
    · intro name given
      rw [directory] at given
      cases given
      decide
  have meets : NameBoundAccepted nestedDentries ∧
      PathFits ["b", "a"].reverse := by
    unfold NameBoundAccepted PathFits
    decide
  have found : self.dentryPath ⟨72⟩ nestedDentries 3 = .ok "/a/b" :=
    nestedFile_ancestry.path_eq_ok.mpr
      ⟨⟨by decide, meets.1⟩, .inr (by decide), meets.2, rfl⟩
  rcases path_walks_agree self nestedDentries nestedMounts single below 3 with
    ⟨⟨_, failed⟩, _⟩ | ⟨path, first, second⟩
  · rw [found] at failed
    contradiction
  · rw [found] at first
    cases first
    exact ⟨⟨single, below⟩, found, second⟩

end LibVmi.Os.LinuxIntrospector
