import LibVmi.Os.DentryPaths

namespace LibVmi.Os.LinuxIntrospector

open Data Arch LibVmi.Core

/-! How many dentries `dentry_path` visits. -/

variable {σ : Type} [Session σ] (self : LinuxIntrospector σ)

/-- The parents lead over dentries whose names are readable, none of them its
own parent. -/
inductive Ascends (offsets : LinuxDentryOffsets) :
    UInt64 → List (UInt64 × String) → UInt64 → Prop
  | here {dentry : UInt64} : Ascends offsets dentry [] dentry
  | step {dentry parent stop : UInt64} {name : String}
      {chain : List (UInt64 × String)}
      (read : self.readDentryName dentry offsets = .ok name)
      (up : self.readParent offsets dentry = .ok parent)
      (present : parent ≠ 0) (apart : parent ≠ dentry)
      (onward : Ascends offsets parent chain stop) :
      Ascends offsets dentry ((dentry, name) :: chain) stop

/-- The names that count towards the limit. -/
def countedNames (chain : List (UInt64 × String)) : List String :=
  chain.filterMap fun entry => component entry.2

/-- More dentries than the limit, and another one above them, are on the way to
the root, and fewer of them than the limit have names that count. -/
def EvadesLimit (offsets : LinuxDentryOffsets) (limit : Nat)
    (dentry : UInt64) : Prop :=
  ∃ chain stop, self.Ascends offsets dentry chain stop ∧
    chain.length = limit + 1 ∧ (nodesOf chain ++ [stop]).Nodup ∧
    (countedNames chain).length < limit

section Visits

variable {self} {offsets : LinuxDentryOffsets} {limit : Nat}

/-- What the rounds of `dentry_path` keep of a chain. -/
def componentsOf (chain : List (UInt64 × String)) :
    List (UInt64 × Option String) :=
  chain.map fun entry => (entry.1, component entry.2)

theorem nodesOf_componentsOf (chain : List (UInt64 × String)) :
    nodesOf (componentsOf chain) = nodesOf chain := by
  unfold nodesOf componentsOf
  rw [List.map_map]
  rfl

theorem countedNames_cons (dentry : UInt64) (name : String)
    (chain : List (UInt64 × String)) :
    countedNames ((dentry, name) :: chain) =
      (component name).toList ++ countedNames chain := by
  unfold countedNames
  rw [List.filterMap_cons]
  cases component name <;> rfl

/-- The rounds pass over a chain as long as its names do not fill the limit. -/
theorem dentryRounds_pass {before : List (Option String)} {dentry stop : UInt64}
    {stretch : List (UInt64 × Option String)} :
    Passes (self.dentryRound offsets limit) before dentry stretch stop ↔
      ∃ chain, self.Ascends offsets dentry chain stop ∧
        stretch = componentsOf chain ∧
        (chain = [] ∨
          (collected before).length + (countedNames chain).length < limit) := by
  constructor
  · intro passes
    induction passes with
    | here => exact ⟨[], .here, rfl, .inl rfl⟩
    | @step before dentry parent stop record rest leads _ induction =>
        obtain ⟨name, parentToo, read, rfl, up, present, ends⟩ :=
          dentryRound_eq_ok.mp leads
        rcases ends with ⟨_, onward⟩ | ⟨apart, room, onward⟩
        · contradiction
        · cases onward
          obtain ⟨chain, ascends, rfl, fits⟩ := induction
          refine ⟨(dentry, name) :: chain, .step read up present apart ascends,
            rfl, .inr ?_⟩
          rw [collected_append, List.length_append, collected_cons,
            collected_nil, List.append_nil] at room fits
          rw [countedNames_cons, List.length_append]
          cases fits with
          | inl none =>
              subst chain
              exact room
          | inr fewer => omega
  · intro given
    obtain ⟨chain, ascends, rfl, fits⟩ := given
    induction ascends generalizing before with
    | here => exact .here
    | @step dentry parent stop name chain read up present apart _ induction =>
        have fewer := fits.resolve_left (List.cons_ne_nil _ _)
        rw [countedNames_cons, List.length_append] at fewer
        have room : (collected (before ++ [component name])).length =
            (collected before).length + (component name).toList.length := by
          simp
        have onward : Passes (self.dentryRound offsets limit)
            (before ++ [component name]) parent (componentsOf chain) stop :=
          induction (.inr (by omega))
        exact .step (dentryRound_eq_ok.mpr ⟨name, parent, read, rfl, up,
          present, .inr ⟨apart, by omega, rfl⟩⟩) onward

theorem dentryVisits_exceed {dentry : Gva} :
    limit + 1 < (self.dentryVisits dentry offsets limit).length ↔
      (dentry.raw ≠ 0 ∧ limit ≠ 0 ∧ NameBoundAccepted offsets) ∧
        self.EvadesLimit offsets limit dentry.raw := by
  unfold dentryVisits
  cases started : dentryPathStart dentry offsets limit with
  | error error =>
      have refused : ¬ (dentry.raw ≠ 0 ∧ limit ≠ 0 ∧
          NameBoundAccepted offsets) := by
        intro accepted
        rw [dentryPathStart_eq_ok.mpr ⟨accepted, rfl⟩] at started
        contradiction
      simp [refused]
  | ok start =>
      obtain ⟨accepted, rfl⟩ := dentryPathStart_eq_ok.mp started
      rw [lt_visited_length]
      unfold EvadesLimit
      simp only [recordsOf_nil, nodesOf_nil, List.not_mem_nil,
        not_false_eq_true, implies_true, and_true, dentryRounds_pass,
        collected_nil, List.length_nil, Nat.zero_add]
      constructor
      · intro given
        obtain ⟨_, stop, ⟨chain, ascends, rfl, fits⟩, long, distinct⟩ := given
        rw [nodesOf_componentsOf] at distinct
        have longChain : chain.length = limit + 1 := by
          rwa [componentsOf, List.length_map] at long
        refine ⟨accepted, chain, stop, ascends, longChain, distinct,
          fits.resolve_left ?_⟩
        intro none
        subst chain
        contradiction
      · intro given
        obtain ⟨_, chain, stop, ascends, long, distinct, fewer⟩ := given
        refine ⟨_, stop, ⟨chain, ascends, rfl, .inr fewer⟩, ?_, ?_⟩
        · rw [componentsOf, List.length_map, long]
        · rw [nodesOf_componentsOf]
          exact distinct

end Visits

/-- The limit bounds the walk unless names that do not count let it run on: only
names that are collected bring it closer to the limit. -/
theorem dentry_visits_bounded_iff (dentry : Gva) (offsets : LinuxDentryOffsets)
    (limit : Nat) :
    (self.dentryVisits dentry offsets limit).length ≤ limit + 1 ↔
      ¬ ((dentry.raw ≠ 0 ∧ limit ≠ 0 ∧ NameBoundAccepted offsets) ∧
        self.EvadesLimit offsets limit dentry.raw) := by
  rw [← dentryVisits_exceed, Nat.not_lt]

/-- Three dentries with empty names, at 24, 48 and 72, the last of them its own
parent. -/
def unnamedDentries : List UInt8 :=
  List.replicate 24 0 ++ toLe 8 48 ++ toLe 8 0 ++ toLe 8 0 ++
    toLe 8 72 ++ toLe 8 0 ++ toLe 8 0 ++
    toLe 8 72 ++ toLe 8 0 ++ toLe 8 0

theorem unnamed_dentries_unbounded :
    1 + 1 < ((inspector unnamedDentries).dentryVisits ⟨24⟩ ⟨0, 8, 0, 8, 255⟩
      1).length := by
  have first : (inspector unnamedDentries).readDentryName 24
      ⟨0, 8, 0, 8, 255⟩ = .ok "" := by
    decide +kernel
  have second : (inspector unnamedDentries).readDentryName 48
      ⟨0, 8, 0, 8, 255⟩ = .ok "" := by
    decide +kernel
  rw [dentryVisits_exceed]
  refine ⟨⟨by decide, by decide, by decide, by decide⟩, [(24, ""), (48, "")],
    72, ?_, rfl, by decide, by decide⟩
  exact .step first (by decide +kernel) (by decide) (by decide)
    (.step second (by decide +kernel) (by decide) (by decide) .here)

end LibVmi.Os.LinuxIntrospector
