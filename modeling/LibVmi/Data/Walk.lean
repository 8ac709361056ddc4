import LibVmi.Data.Checked
import Mathlib.Data.Set.Card

namespace LibVmi.Data

/-! A walk that keeps what it has seen, and refuses to come to a node twice. Over
finitely many nodes it ends whatever the links are. -/

section Trails

variable {ν ρ : Type}

def nodesOf (trail : List (ν × ρ)) : List ν :=
  trail.map Prod.fst

def recordsOf (trail : List (ν × ρ)) : List ρ :=
  trail.map Prod.snd

@[simp] theorem nodesOf_nil : nodesOf ([] : List (ν × ρ)) = [] := rfl

@[simp] theorem recordsOf_nil : recordsOf ([] : List (ν × ρ)) = [] := rfl

@[simp] theorem nodesOf_cons (node : ν) (record : ρ) (trail : List (ν × ρ)) :
    nodesOf ((node, record) :: trail) = node :: nodesOf trail := rfl

@[simp] theorem recordsOf_cons (node : ν) (record : ρ)
    (trail : List (ν × ρ)) :
    recordsOf ((node, record) :: trail) = record :: recordsOf trail := rfl

@[simp] theorem nodesOf_append (first second : List (ν × ρ)) :
    nodesOf (first ++ second) = nodesOf first ++ nodesOf second :=
  List.map_append

@[simp] theorem recordsOf_append (first second : List (ν × ρ)) :
    recordsOf (first ++ second) = recordsOf first ++ recordsOf second :=
  List.map_append

@[simp] theorem recordsOf_length (trail : List (ν × ρ)) :
    (recordsOf trail).length = trail.length :=
  List.length_map _

theorem unseen_decreases [Finite ν] {trail : List (ν × ρ)} {node : ν}
    (fresh : node ∉ nodesOf trail) (record : ρ) :
    {other | other ∉ nodesOf (trail ++ [(node, record)])}.ncard <
      {other | other ∉ nodesOf trail}.ncard := by
  have fewer : {other | other ∉ nodesOf (trail ++ [(node, record)])} ⊆
      {other | other ∉ nodesOf trail} := by
    intro other unseen seen
    exact unseen (by simp [seen])
  exact Set.ncard_lt_ncard
    ((Set.ssubset_iff_of_subset fewer).mpr ⟨node, fresh, by simp⟩)
    (Set.toFinite _)

theorem nodup_extend {trail : List (ν × ρ)} {node : ν}
    (distinct : (nodesOf trail).Nodup) (fresh : node ∉ nodesOf trail)
    (record : ρ) : (nodesOf (trail ++ [(node, record)])).Nodup := by
  rw [nodesOf_append, nodesOf_cons, nodesOf_nil, List.nodup_append]
  refine ⟨distinct, List.nodup_singleton node, ?_⟩
  intro other earlier last isLast same
  rw [List.mem_singleton] at isLast
  subst last other
  exact fresh earlier

end Trails

section Walks

variable {ν ρ ε : Type} [DecidableEq ν]

/-- What a round does with a node depends on the records before it. It gives the
record of the node, and the next node unless the walk ends there. -/
def walk [Finite ν] (advance : List ρ → ν → Except ε (ρ × Option ν))
    (looped : ν → ε) (trail : List (ν × ρ)) (node : ν) :
    Except ε (List (ν × ρ)) :=
  if _ : node ∈ nodesOf trail then
    .error (looped node)
  else
    match advance (recordsOf trail) node with
    | .error error => .error error
    | .ok (record, none) => .ok (trail ++ [(node, record)])
    | .ok (record, some next) =>
        walk advance looped (trail ++ [(node, record)]) next
termination_by {other | other ∉ nodesOf trail}.ncard
decreasing_by exact unseen_decreases ‹_› record

/-- The nodes that the walk comes to, whether it succeeds or fails. -/
def visited [Finite ν] (advance : List ρ → ν → Except ε (ρ × Option ν))
    (trail : List (ν × ρ)) (node : ν) : List ν :=
  if _ : node ∈ nodesOf trail then
    []
  else
    node ::
      match advance (recordsOf trail) node with
      | .error _ => []
      | .ok (_, none) => []
      | .ok (record, some next) =>
          visited advance (trail ++ [(node, record)]) next
termination_by {other | other ∉ nodesOf trail}.ncard
decreasing_by exact unseen_decreases ‹_› record

end Walks

section Stretches

variable {ν ρ ε : Type} {advance : List ρ → ν → Except ε (ρ × Option ν)}

/-- The rounds from a node to the end, whether or not nodes are repeated. -/
inductive Walked (advance : List ρ → ν → Except ε (ρ × Option ν)) :
    List ρ → ν → List (ν × ρ) → Prop
  | last {before : List ρ} {node : ν} {record : ρ}
      (ends : advance before node = .ok (record, none)) :
      Walked advance before node [(node, record)]
  | step {before : List ρ} {node next : ν} {record : ρ}
      {rest : List (ν × ρ)}
      (leads : advance before node = .ok (record, some next))
      (onward : Walked advance (before ++ [record]) next rest) :
      Walked advance before node ((node, record) :: rest)

/-- Some of the rounds from a node on, and the node that they come to. -/
inductive Passes (advance : List ρ → ν → Except ε (ρ × Option ν)) :
    List ρ → ν → List (ν × ρ) → ν → Prop
  | here {before : List ρ} {node : ν} : Passes advance before node [] node
  | step {before : List ρ} {node next stop : ν} {record : ρ}
      {rest : List (ν × ρ)}
      (leads : advance before node = .ok (record, some next))
      (onward : Passes advance (before ++ [record]) next rest stop) :
      Passes advance before node ((node, record) :: rest) stop

/-- The record and the next node of a round depend on its node alone. -/
def Steady (advance : List ρ → ν → Except ε (ρ × Option ν)) : Prop :=
  ∀ before other node first second, advance before node = .ok first →
    advance other node = .ok second → first = second

theorem Walked.unique (steady : Steady advance) {before other : List ρ}
    {node : ν} {left right : List (ν × ρ)}
    (first : Walked advance before node left)
    (second : Walked advance other node right) : left = right := by
  induction first generalizing other right with
  | last ends =>
      cases second with
      | last endsToo =>
          cases steady _ _ _ _ _ ends endsToo
          rfl
      | step leads _ => cases steady _ _ _ _ _ ends leads
  | step leads _ induction =>
      cases second with
      | last ends => cases steady _ _ _ _ _ leads ends
      | step leadsToo onward =>
          cases steady _ _ _ _ _ leads leadsToo
          rw [induction onward]

theorem Walked.from_node {before : List ρ} {node other : ν}
    {stretch : List (ν × ρ)} (walked : Walked advance before node stretch)
    (passed : other ∈ nodesOf stretch) :
    ∃ earlier rest, Walked advance earlier other rest ∧
      rest.length ≤ stretch.length := by
  induction walked with
  | last ends =>
      rw [nodesOf_cons, nodesOf_nil, List.mem_singleton] at passed
      subst other
      exact ⟨_, _, .last ends, Nat.le_refl _⟩
  | step leads onward induction =>
      rw [nodesOf_cons, List.mem_cons] at passed
      cases passed with
      | inl same =>
          subst other
          exact ⟨_, _, .step leads onward, Nat.le_refl _⟩
      | inr later =>
          obtain ⟨earlier, rest, walked, shorter⟩ := induction later
          exact ⟨earlier, rest, walked, Nat.le_succ_of_le shorter⟩

/-- A steady walk that ends never comes to a node twice. -/
theorem Walked.nodup (steady : Steady advance) {before : List ρ} {node : ν}
    {stretch : List (ν × ρ)} (walked : Walked advance before node stretch) :
    (nodesOf stretch).Nodup := by
  induction walked with
  | last ends => simp
  | step leads onward induction =>
      rw [nodesOf_cons, List.nodup_cons]
      refine ⟨?_, induction⟩
      intro again
      obtain ⟨_, rest, walked, shorter⟩ := onward.from_node again
      rw [walked.unique steady (.step leads onward)] at shorter
      exact Nat.not_succ_le_self _ shorter

/-- Behind a new node whose round leads on, the stretches that come to no node
twice are those of the next node. -/
theorem passes_succ_iff {count : Nat} {trail : List (ν × ρ)} {node next : ν}
    {record : ρ} (fresh : node ∉ nodesOf trail)
    (leads : advance (recordsOf trail) node = .ok (record, some next)) :
    (∃ stretch stop, Passes advance (recordsOf trail) node stretch stop ∧
        stretch.length = count + 1 ∧ (nodesOf stretch ++ [stop]).Nodup ∧
        ∀ other ∈ nodesOf stretch ++ [stop], other ∉ nodesOf trail) ↔
      ∃ stretch stop, Passes advance (recordsOf (trail ++ [(node, record)]))
          next stretch stop ∧
        stretch.length = count ∧ (nodesOf stretch ++ [stop]).Nodup ∧
        ∀ other ∈ nodesOf stretch ++ [stop],
          other ∉ nodesOf (trail ++ [(node, record)]) := by
  constructor
  · intro given
    obtain ⟨stretch, stop, passes, long, distinct, apart⟩ := given
    cases passes with
    | here => contradiction
    | step leadsToo onward =>
        rw [leads] at leadsToo
        cases leadsToo
        rw [nodesOf_cons, List.cons_append, List.nodup_cons] at distinct
        refine ⟨_, stop, by rwa [recordsOf_append], Nat.succ_inj.mp long,
          distinct.2, ?_⟩
        intro other later seen
        rw [nodesOf_append, List.mem_append] at seen
        cases seen with
        | inl earlier => exact apart other (by simp [later]) earlier
        | inr same =>
            rw [nodesOf_cons, nodesOf_nil, List.mem_singleton] at same
            subst other
            exact distinct.1 later
  · intro given
    obtain ⟨stretch, stop, passes, long, distinct, apart⟩ := given
    rw [recordsOf_append] at passes
    refine ⟨(node, record) :: stretch, stop, .step leads passes,
      by rw [List.length_cons, long], ?_, ?_⟩
    · rw [nodesOf_cons, List.cons_append, List.nodup_cons]
      refine ⟨?_, distinct⟩
      intro again
      exact apart node again (by simp)
    · intro other member
      rw [nodesOf_cons, List.cons_append, List.mem_cons] at member
      cases member with
      | inl same =>
          subst other
          exact fresh
      | inr later =>
          intro seen
          exact apart other later (by simp [seen])

/-- Where a round does not lead on, no stretch is longer than its start. -/
theorem not_passes_succ {count : Nat} {before : List ρ} {node : ν}
    (ends : ∀ record next, advance before node ≠ .ok (record, some next)) :
    ¬ ∃ stretch stop, Passes advance before node stretch stop ∧
      stretch.length = count + 1 := by
  intro given
  obtain ⟨stretch, stop, passes, long⟩ := given
  cases passes with
  | here => contradiction
  | step leads onward => exact ends _ _ leads

end Stretches

section Results

variable {ν ρ ε : Type} [DecidableEq ν] [Finite ν]
  {advance : List ρ → ν → Except ε (ρ × Option ν)} {looped : ν → ε}

theorem Walked.walk_eq_ok {before : List ρ} {node : ν}
    {stretch : List (ν × ρ)} (walked : Walked advance before node stretch)
    {trail : List (ν × ρ)} (beforeEq : recordsOf trail = before)
    (distinct : (nodesOf (trail ++ stretch)).Nodup) :
    walk advance looped trail node = .ok (trail ++ stretch) := by
  induction walked generalizing trail with
  | last ends =>
      subst beforeEq
      have fresh := List.disjoint_of_nodup_append
        (nodesOf_append trail _ ▸ distinct)
      rw [walk, dif_neg (fun seen => fresh seen (by simp)), ends]
  | @step before node next record rest leads onward induction =>
      subst beforeEq
      have fresh := List.disjoint_of_nodup_append
        (nodesOf_append trail _ ▸ distinct)
      rw [walk, dif_neg (fun seen => fresh seen (by simp)), leads]
      simp only
      rw [List.append_cons trail (node, record) rest] at distinct ⊢
      exact induction (by simp) distinct

/-- A walk succeeds when its rounds come to an end without repeating a node. -/
theorem walk_eq_ok {trail final : List (ν × ρ)} {node : ν}
    (distinct : (nodesOf trail).Nodup) :
    walk advance looped trail node = .ok final ↔
      ∃ stretch, Walked advance (recordsOf trail) node stretch ∧
        (nodesOf final).Nodup ∧ final = trail ++ stretch := by
  constructor
  · induction trail, node using walk.induct advance with
    | case1 trail node seen =>
        rw [walk, dif_pos seen]
        intro failed
        contradiction
    | case2 trail node fresh error failed =>
        rw [walk, dif_neg fresh, failed]
        intro succeeded
        contradiction
    | case3 trail node fresh record ends =>
        rw [walk, dif_neg fresh, ends]
        intro finished
        rw [← Except.ok.inj finished]
        refine ⟨_, .last ends, ?_, rfl⟩
        exact nodup_extend distinct fresh record
    | case4 trail node fresh record next leads induction =>
        rw [walk, dif_neg fresh, leads]
        intro finished
        obtain ⟨stretch, walked, finalDistinct, rfl⟩ :=
          induction (nodup_extend distinct fresh record) finished
        rw [recordsOf_append] at walked
        exact ⟨_, .step leads walked, finalDistinct, List.append_assoc _ _ _⟩
  · intro given
    obtain ⟨stretch, walked, finalDistinct, rfl⟩ := given
    exact walked.walk_eq_ok rfl finalDistinct

theorem walk_nil_eq_ok (steady : Steady advance) {final : List (ν × ρ)}
    {node : ν} :
    walk advance looped [] node = .ok final ↔ Walked advance [] node final := by
  have start : (nodesOf ([] : List (ν × ρ))).Nodup := List.nodup_nil
  rw [walk_eq_ok start]
  constructor
  · intro given
    obtain ⟨stretch, walked, _, rfl⟩ := given
    exact walked
  · intro walked
    exact ⟨final, walked, walked.nodup steady, rfl⟩

/-- A walk comes to more nodes than a number when that many of its rounds pass
on to a node that is new. -/
theorem lt_visited_length {count : Nat} {trail : List (ν × ρ)} {node : ν} :
    count < (visited advance trail node).length ↔
      ∃ stretch stop, Passes advance (recordsOf trail) node stretch stop ∧
        stretch.length = count ∧ (nodesOf stretch ++ [stop]).Nodup ∧
        ∀ other ∈ nodesOf stretch ++ [stop], other ∉ nodesOf trail := by
  induction count generalizing trail node with
  | zero =>
      rw [visited]
      split
      · rename_i seen
        simp only [List.length_nil, Nat.lt_irrefl, false_iff]
        intro given
        obtain ⟨stretch, stop, passes, short, _, fresh⟩ := given
        rw [List.length_eq_zero_iff] at short
        subst stretch
        cases passes
        exact fresh node (by simp) seen
      · rename_i fresh
        simp only [List.length_cons, Nat.zero_lt_succ, true_iff]
        exact ⟨[], node, .here, rfl, by simp, by simpa using fresh⟩
  | succ count induction =>
      rw [visited]
      split
      · rename_i seen
        simp only [List.length_nil, Nat.not_lt_zero, false_iff]
        intro given
        obtain ⟨stretch, stop, passes, long, _, fresh⟩ := given
        cases passes with
        | here => contradiction
        | step leads onward => exact fresh node (by simp) seen
      · rename_i fresh
        rw [List.length_cons, Nat.add_lt_add_iff_right]
        split
        · rename_i failed
          simp only [List.length_nil, Nat.not_lt_zero, false_iff]
          intro given
          obtain ⟨stretch, stop, passes, long, _⟩ := given
          refine not_passes_succ ?_ ⟨stretch, stop, passes, long⟩
          intro record next leads
          rw [failed] at leads
          contradiction
        · rename_i ends
          simp only [List.length_nil, Nat.not_lt_zero, false_iff]
          intro given
          obtain ⟨stretch, stop, passes, long, _⟩ := given
          refine not_passes_succ ?_ ⟨stretch, stop, passes, long⟩
          intro record next leads
          rw [ends] at leads
          cases leads
        · rename_i record next leads
          rw [induction]
          exact (passes_succ_iff fresh leads).symm

end Results

end LibVmi.Data
