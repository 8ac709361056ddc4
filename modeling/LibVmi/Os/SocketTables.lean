import LibVmi.Os.Linux

namespace LibVmi.Os.LinuxIntrospector

open Data Arch LibVmi.Core

/-! Socket hash tables, from the chains of their buckets. -/

section Chains

variable {σ : Type} [Session σ] (self : LinuxIntrospector σ) (table : UInt64)
  (hashOffsets : LinuxSocketHashOffsets) (socketOffsets : LinuxSocketOffsets)

/-- The links lead from the bucket over the nodes to a null pointer. -/
def BucketLeads (bucket : Nat) (nodes : List UInt64) : Prop :=
  ∃ address start, bucketAddress table hashOffsets bucket = .ok address ∧
    self.readU64 address = .ok start ∧
    Leads (self.hashNext hashOffsets) 0 start nodes 0

def Decodes (chain : List (UInt64 × LinuxSocket)) : Prop :=
  ∀ entry ∈ chain, self.hashedSock hashOffsets socketOffsets entry.1 =
    .ok entry.2

/-- The chains of the buckets, with the sockets that their nodes decode to. No
node is in the table twice, and there are no more than the limit. -/
def HashTableHolds (bucketCount socketLimit : Nat) (out : List LinuxSocket) :
    Prop :=
  ∃ chains : List (List (UInt64 × LinuxSocket)),
    List.Forall₂
      (fun bucket chain =>
        self.BucketLeads table hashOffsets bucket (nodesOf chain))
      (List.range bucketCount) chains ∧
    self.Decodes hashOffsets socketOffsets chains.flatten ∧
    (nodesOf chains.flatten).Nodup ∧ chains.flatten.length ≤ socketLimit ∧
    out = recordsOf chains.flatten

variable {self table hashOffsets socketOffsets} {socketLimit : Nat}

theorem hashRound_eq_ok {output : List LinuxSocket} {node : UInt64}
    {socket : LinuxSocket} {onward : Option UInt64} :
    self.hashRound hashOffsets socketOffsets socketLimit output node =
        .ok (socket, onward) ↔
      self.hashedSock hashOffsets socketOffsets node = .ok socket ∧
        output.length < socketLimit ∧
        ∃ next, self.hashNext hashOffsets node = .ok next ∧
          onward = if next = 0 then none else some next := by
  unfold hashRound
  simp only [bind_eq_ok, rejectIf_eq_ok, pure_eq_ok, Except.ok.injEq,
    Prod.mk.injEq]
  constructor
  · intro given
    obtain ⟨value, read, _, room, next, linked, rfl, rfl⟩ := given
    exact ⟨read, by omega, next, linked, rfl⟩
  · intro given
    obtain ⟨read, room, next, linked, rfl⟩ := given
    exact ⟨socket, read, (), by omega, next, linked, rfl, rfl⟩

/-- The rounds in a bucket follow its chain while there is room. -/
theorem hashRounds_iff {before : List LinuxSocket} {node : UInt64}
    (present : node ≠ 0) {chain : List (UInt64 × LinuxSocket)} :
    Walked (self.hashRound hashOffsets socketOffsets socketLimit) before node
        chain ↔
      Leads (self.hashNext hashOffsets) 0 node (nodesOf chain) 0 ∧
        self.Decodes hashOffsets socketOffsets chain ∧
        before.length + chain.length ≤ socketLimit := by
  constructor
  · intro walked
    induction walked with
    | last ends =>
        obtain ⟨read, room, next, linked, stops⟩ := hashRound_eq_ok.mp ends
        have null : next = 0 := by
          by_contra apart
          rw [if_neg apart] at stops
          contradiction
        subst next
        exact ⟨.step present linked .here, by simpa [Decodes] using read, room⟩
    | step leads _ induction =>
        obtain ⟨read, room, next, linked, onward⟩ := hashRound_eq_ok.mp leads
        have apart : next ≠ 0 := by
          intro null
          rw [if_pos null] at onward
          contradiction
        rw [if_neg apart] at onward
        cases onward
        obtain ⟨back, decodes, short⟩ := induction apart
        rw [List.length_append, List.length_singleton] at short
        refine ⟨.step present linked back,
          List.forall_mem_cons.mpr ⟨read, decodes⟩, ?_⟩
        rw [List.length_cons]
        omega
  · intro given
    obtain ⟨leads, decodes, short⟩ := given
    induction chain generalizing before node with
    | nil =>
        cases leads
        contradiction
    | cons entry rest induction =>
        obtain ⟨first, socket⟩ := entry
        rw [nodesOf_cons] at leads
        rw [Decodes, List.forall_mem_cons] at decodes
        rw [List.length_cons] at short
        cases leads with
        | @step _ next _ _ _ linked onward =>
            by_cases null : next = 0
            · subst next
              have ended : rest = [] := List.map_eq_nil_iff.mp onward.of_head.1
              subst rest
              exact .last (hashRound_eq_ok.mpr
                ⟨decodes.1, by omega, 0, linked, rfl⟩)
            · refine .step (hashRound_eq_ok.mpr
                ⟨decodes.1, by omega, next, linked, (if_neg null).symm⟩) ?_
              apply induction null onward decodes.2
              rw [List.length_append, List.length_singleton]
              omega

theorem bucketSockets_eq_ok {trail final : List (UInt64 × LinuxSocket)}
    (distinct : (nodesOf trail).Nodup) (room : trail.length ≤ socketLimit)
    {bucket : Nat} :
    self.bucketSockets table hashOffsets socketOffsets socketLimit trail
        bucket = .ok final ↔
      ∃ chain, self.BucketLeads table hashOffsets bucket (nodesOf chain) ∧
        self.Decodes hashOffsets socketOffsets chain ∧
        (nodesOf final).Nodup ∧ final.length ≤ socketLimit ∧
        final = trail ++ chain := by
  unfold bucketSockets BucketLeads
  simp only [bind_eq_ok]
  constructor
  · intro given
    obtain ⟨address, computed, start, read, rest⟩ := given
    by_cases null : start = 0
    · subst start
      rw [if_pos rfl] at rest
      cases rest
      exact ⟨[], ⟨address, 0, computed, read, .here⟩, by simp [Decodes],
        distinct, room, (List.append_nil trail).symm⟩
    · rw [if_neg null, walk_eq_ok distinct] at rest
      obtain ⟨chain, walked, finalDistinct, rfl⟩ := rest
      obtain ⟨leads, decodes, short⟩ := (hashRounds_iff null).mp walked
      refine ⟨chain, ⟨address, start, computed, read, leads⟩, decodes,
        finalDistinct, ?_, rfl⟩
      rwa [List.length_append, ← recordsOf_length trail]
  · intro given
    obtain ⟨chain, ⟨address, start, computed, read, leads⟩, decodes,
      finalDistinct, short, rfl⟩ := given
    refine ⟨address, computed, start, read, ?_⟩
    by_cases null : start = 0
    · subst start
      rw [if_pos rfl]
      have ended : chain = [] := List.map_eq_nil_iff.mp leads.of_head.1
      subst chain
      rw [List.append_nil]
      rfl
    · rw [if_neg null, walk_eq_ok distinct]
      refine ⟨chain, (hashRounds_iff null).mpr ⟨leads, decodes, ?_⟩,
        finalDistinct, rfl⟩
      rwa [recordsOf_length, ← List.length_append]

theorem buckets_eq_ok {buckets : List Nat}
    {trail final : List (UInt64 × LinuxSocket)}
    (distinct : (nodesOf trail).Nodup) (room : trail.length ≤ socketLimit) :
    buckets.foldlM (self.bucketSockets table hashOffsets socketOffsets
        socketLimit) trail = .ok final ↔
      ∃ chains : List (List (UInt64 × LinuxSocket)),
        List.Forall₂
          (fun bucket chain =>
            self.BucketLeads table hashOffsets bucket (nodesOf chain))
          buckets chains ∧
        self.Decodes hashOffsets socketOffsets chains.flatten ∧
        (nodesOf final).Nodup ∧ final.length ≤ socketLimit ∧
        final = trail ++ chains.flatten := by
  induction buckets generalizing trail with
  | nil =>
      simp only [List.foldlM_nil, pure_eq_ok, Except.ok.injEq]
      constructor
      · intro same
        subst final
        exact ⟨[], .nil, by simp [Decodes], distinct, room, by simp⟩
      · intro given
        obtain ⟨chains, none, _, _, _, rfl⟩ := given
        cases none
        simp
  | cons bucket rest induction =>
      simp only [List.foldlM_cons, bind_eq_ok, bucketSockets_eq_ok distinct room]
      constructor
      · intro given
        obtain ⟨middle, ⟨chain, leads, decodes, middleDistinct, middleRoom,
          rfl⟩, others⟩ := given
        obtain ⟨chains, every, othersDecode, finalDistinct, short, rfl⟩ :=
          (induction middleDistinct middleRoom).mp others
        rw [List.append_assoc] at finalDistinct short ⊢
        exact ⟨chain :: chains, .cons leads every,
          List.forall_mem_append.mpr ⟨decodes, othersDecode⟩, finalDistinct,
          short, rfl⟩
      · intro given
        obtain ⟨chains, every, decodes, finalDistinct, short, finalEq⟩ := given
        cases every with
        | @cons _ chain _ chains leads every =>
            rw [List.flatten_cons] at decodes finalEq
            rw [← List.append_assoc] at finalEq
            obtain ⟨decodesChain, decodesOthers⟩ :=
              List.forall_mem_append.mp decodes
            have middleDistinct : (nodesOf (trail ++ chain)).Nodup := by
              rw [finalEq, nodesOf_append] at finalDistinct
              exact finalDistinct.of_append_left
            have middleRoom : (trail ++ chain).length ≤ socketLimit := by
              rw [finalEq, List.length_append] at short
              omega
            exact ⟨trail ++ chain, ⟨chain, leads, decodesChain, middleDistinct,
              middleRoom, rfl⟩, (induction middleDistinct middleRoom).mpr
                ⟨chains, every, decodesOthers, finalDistinct, short, finalEq⟩⟩

end Chains

end LibVmi.Os.LinuxIntrospector
