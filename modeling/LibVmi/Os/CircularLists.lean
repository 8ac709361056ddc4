import LibVmi.Os.Linux
import LibVmi.Os.Windows

namespace LibVmi.Os

open Data

/-! The circular lists of both systems, from the links and the records of single
nodes. -/

/-- Without a head the call fails as the search for it did. From a head it
enumerates the list, after the nodes that lead it. -/
def Enumerates {ρ : Type} (entry : Result UInt64)
    (lead : UInt64 → List UInt64) (first link : UInt64 → Result UInt64)
    (record : UInt64 → Result ρ) (limit : Nat) (result : Result (List ρ)) :
    Prop :=
  (∀ error, entry = .error error → result = .error error) ∧
    ∀ head, entry = .ok head →
      EnumeratesCircle (lead head) (first head) link head record limit result

theorem enumerates_of_loop {ρ : Type} {entry : Result UInt64}
    {first link : UInt64 → Result UInt64} {record : UInt64 → Result ρ}
    {limit : Nat} {exceeded : VmiError} {looped : UInt64 → VmiError}
    (positive : ∀ head, entry = .ok head → 0 < limit) :
    Enumerates entry (fun _ => []) first link record limit (do
      let head ← entry
      let node ← first head
      enumerateCircle record link head limit exceeded looped node) := by
  constructor
  · intro error missing
    rw [missing, error_bind]
  · intro head found
    rw [found, ok_bind]
    exact enumerateCircle_enumerates (positive head found) (first head)

namespace LinuxIntrospector

variable {σ : Type} [Session σ] (self : LinuxIntrospector σ)

/-- The process whose task holds a list node. -/
def processAt (node : UInt64) : Result LinuxProcess := do
  let task ← okOr (checkedSub node self.offsets.tasks)
    (.backend s!"invalid Linux task list pointer {hex node.toNat}")
  self.readProcess task

variable {self}

theorem checkedSub_eq_some_iff {node offset current : UInt64} :
    checkedSub node offset = some current ↔
      checkedAdd current offset = some node := by
  rw [checkedSub_eq_some, checkedAdd_eq_some, Nat.add_comm]

theorem processRound_follows (head : UInt64) (limit : Nat) :
    FollowsCircle (self.processRound head limit)
      (fun node => checkedSub node self.offsets.tasks) self.processAt
      self.readU64 head limit where
  placed := by
    intro node process read
    obtain ⟨task, found, _⟩ := bind_eq_ok.mp read
    exact ⟨task, okOr_eq_ok.mp found⟩
  covers := by
    intro output task out advanced
    obtain ⟨_, _, advanced⟩ := bind_eq_ok.mp advanced
    obtain ⟨node, found, _⟩ := bind_eq_ok.mp advanced
    exact ⟨node, checkedSub_eq_some_iff.mpr (okOr_eq_ok.mp found)⟩
  rounds := by
    intro output node task placed process onward
    have added := checkedSub_eq_some_iff.mp placed
    unfold processRound processAt
    rw [placed, added, okOr_some, okOr_some, ok_bind]
    simp only [ok_bind, bind_eq_ok]
    constructor
    · intro given
      obtain ⟨read, readEq, next, linked, ended⟩ := given
      by_cases same : next = head
      · rw [if_pos same] at ended
        cases ended
        exact ⟨readEq, next, linked, .inl ⟨same, rfl⟩⟩
      · rw [if_neg same] at ended
        simp only [bind_eq_ok, rejectIf_eq_ok, okOr_eq_ok] at ended
        obtain ⟨_, room, successor, subtracted, ended⟩ := ended
        cases ended
        exact ⟨readEq, next, linked,
          .inr ⟨same, Nat.lt_of_not_le room, successor, subtracted, rfl⟩⟩
    · intro given
      obtain ⟨readEq, next, linked, ends⟩ := given
      refine ⟨process, readEq, next, linked, ?_⟩
      rcases ends with ⟨same, rfl⟩ | ⟨apart, room, successor, subtracted, rfl⟩
      · rw [if_pos same]
        rfl
      · rw [if_neg apart, rejectIf_neg (Nat.not_le_of_lt room), subtracted]
        rfl

omit [Session σ] in
theorem processesHead_eq_ok {limit : Nat} {init head : UInt64}
    (found : self.processesHead limit = .ok (init, head)) :
    0 < limit ∧ checkedSub head self.offsets.tasks = some init := by
  unfold processesHead at found
  simp only [bind_eq_ok, rejectIf_eq_ok, okOr_eq_ok, pure_eq_ok,
    Except.ok.injEq, Prod.mk.injEq] at found
  obtain ⟨_, accepted, symbol, _, sum, added, rfl, rfl⟩ := found
  exact ⟨by omega, checkedSub_eq_some_iff.mpr added⟩

/-- The walk over the tasks lists what the chain of list nodes from the node of
the first task leads over, that node included. -/
theorem processes_enumerates (limit : Nat) :
    Enumerates ((self.processesHead limit).map Prod.snd) (fun head => [head])
      self.readU64 self.readU64 self.processAt limit
      (self.processes limit) := by
  unfold processes
  cases found : self.processesHead limit with
  | error error =>
      constructor
      · intro other same
        cases same
        rfl
      · intro head impossible
        cases impossible
  | ok start =>
      obtain ⟨init, head⟩ := start
      obtain ⟨positive, placed⟩ := processesHead_eq_ok found
      constructor
      · intro error impossible
        cases impossible
      · intro again same
        cases same
        have follows : FollowsCircle (self.processRound head limit)
            (fun node => checkedSub node self.offsets.tasks) self.processAt
            self.readU64 head limit :=
          processRound_follows head limit
        apply EnumeratesCircle.of_lists (.inr rfl)
        intro out
        simp only [ok_bind, bind_eq_ok, walk_nil_eq_ok follows.steady,
          pure_eq_ok, Except.ok.injEq]
        rw [follows.walked_iff (show ([] : List LinuxProcess).length < limit
          from positive) placed out]
        simp only [List.length_nil, Nat.zero_add, List.singleton_append]

theorem modules_enumerates (offsets : LinuxModuleOffsets) (limit : Nat) :
    Enumerates (self.modulesHead offsets limit) (fun _ => []) self.readU64
      self.readU64 (self.moduleAt offsets) limit
      (self.modules offsets limit) := by
  apply enumerates_of_loop
  intro head found
  have accepted := (rejectIf_bind_eq_ok.mp found).1
  omega

theorem socketsFromList_enumerates (head : Gva)
    (listOffsets : LinuxSocketListOffsets) (socketOffsets : LinuxSocketOffsets)
    (limit : Nat) :
    Enumerates (socketsListHead head limit) (fun _ => []) self.readU64
      (self.listNext listOffsets) (self.listedSock listOffsets socketOffsets)
      limit (self.socketsFromList head listOffsets socketOffsets limit) := by
  apply enumerates_of_loop
  intro head found
  have accepted := (rejectIf_bind_eq_ok.mp found).1
  omega

end LinuxIntrospector

namespace WindowsIntrospector

variable {σ : Type} [Session σ] {self : WindowsIntrospector σ}

theorem processes_enumerates (limit : Nat) :
    Enumerates (self.processesHead limit) (fun _ => []) self.readU64
      self.readU64 self.processAt limit (self.processes limit) := by
  apply enumerates_of_loop
  intro head found
  have accepted := (rejectIf_bind_eq_ok.mp found).1
  omega

theorem modules_enumerates (offsets : WindowsModuleOffsets) (limit : Nat) :
    Enumerates (self.modulesHead offsets limit) (fun _ => []) self.readU64
      self.readU64 (self.moduleAt offsets) limit
      (self.modules offsets limit) := by
  apply enumerates_of_loop
  intro head found
  have accepted := (rejectIf_bind_eq_ok.mp found).1
  omega

end WindowsIntrospector

end LibVmi.Os
