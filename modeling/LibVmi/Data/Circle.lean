import LibVmi.Data.Walk
import Mathlib.Data.List.Forall2

namespace LibVmi.Data

/-! Chains of links that end at a head, and walks along them. -/

section Links

variable {ν ε : Type} {link : ν → Except ε ν} {head : ν}

/-- The nodes, none of them the head, that the links lead over from one node to
another. -/
inductive Leads (link : ν → Except ε ν) (head : ν) : ν → List ν → ν → Prop
  | here {node : ν} : Leads link head node [] node
  | step {node next stop : ν} {rest : List ν} (apart : node ≠ head)
      (linked : link node = .ok next) (onward : Leads link head next rest stop) :
      Leads link head node (node :: rest) stop

theorem Leads.of_head {stop : ν} {nodes : List ν}
    (leads : Leads link head head nodes stop) : nodes = [] ∧ stop = head := by
  cases leads with
  | here => exact ⟨rfl, rfl⟩
  | step apart _ _ => contradiction

theorem Leads.append {first middle last : ν} {left right : List ν}
    (leads : Leads link head first left middle)
    (onward : Leads link head middle right last) :
    Leads link head first (left ++ right) last := by
  induction leads with
  | here => exact onward
  | step apart linked _ induction => exact .step apart linked (induction onward)

/-- Whatever the links lead over lies on the way back to the head. -/
theorem Leads.isPrefix {start stop : ν} {nodes steps : List ν}
    (circle : Leads link head start nodes head)
    (leads : Leads link head start steps stop) : steps <+: nodes := by
  induction leads generalizing nodes with
  | here => exact List.nil_prefix
  | step apart linked _ induction =>
      cases circle with
      | here => contradiction
      | step _ linkedToo onward =>
          rw [linked] at linkedToo
          cases linkedToo
          exact List.cons_prefix_cons.mpr ⟨rfl, induction onward⟩

theorem Leads.unique {start : ν} {left right : List ν}
    (first : Leads link head start left head)
    (second : Leads link head start right head) : left = right :=
  (second.isPrefix first).eq_of_length_le (first.isPrefix second).length_le

theorem Leads.ne_head {start stop : ν} {nodes : List ν}
    (leads : Leads link head start nodes stop) : ∀ node ∈ nodes, node ≠ head := by
  induction leads with
  | here => simp
  | step apart _ _ induction => exact List.forall_mem_cons.mpr ⟨apart, induction⟩

theorem Leads.from_node {start stop node : ν} {nodes : List ν}
    (leads : Leads link head start nodes stop) (passed : node ∈ nodes) :
    ∃ rest, Leads link head node rest stop ∧ rest.length ≤ nodes.length := by
  induction leads with
  | here => contradiction
  | step apart linked onward induction =>
      cases List.mem_cons.mp passed with
      | inl same =>
          subst node
          exact ⟨_, .step apart linked onward, Nat.le_refl _⟩
      | inr later =>
          obtain ⟨rest, leads, shorter⟩ := induction later
          exact ⟨rest, leads, Nat.le_succ_of_le shorter⟩

theorem Leads.nodup {start : ν} {nodes : List ν}
    (circle : Leads link head start nodes head) : nodes.Nodup := by
  induction nodes generalizing start with
  | nil => exact List.nodup_nil
  | cons node rest induction =>
      cases circle with
      | step apart linked onward =>
          rw [List.nodup_cons]
          refine ⟨?_, induction onward⟩
          intro again
          obtain ⟨later, leads, shorter⟩ := onward.from_node again
          rw [leads.unique (.step apart linked onward)] at shorter
          exact Nat.not_succ_le_self _ shorter

/-- Round a cycle the links lead over as many nodes as one likes. -/
theorem Leads.around {start node : ν} {before cycle : List ν}
    (enters : Leads link head start before node)
    (cycles : Leads link head node cycle node) (nonempty : cycle ≠ [])
    (count : Nat) :
    ∃ steps, Leads link head start steps node ∧ count ≤ steps.length := by
  induction count with
  | zero => exact ⟨before, enters, Nat.zero_le _⟩
  | succ count induction =>
      obtain ⟨steps, leads, long⟩ := induction
      have positive := List.length_pos_of_ne_nil nonempty
      refine ⟨steps ++ cycle, leads.append cycles, ?_⟩
      rw [List.length_append]
      omega

variable {ρ μ : Type}

/-- The result lists the records of the nodes on the way back to the head, where
there are no more than the limit. The leading nodes come before these. -/
structure EnumeratesCircle (lead : List ν) (first : Except ε ν)
    (link : ν → Except ε ν) (head : ν) (record : ν → Except ε ρ) (limit : Nat)
    (result : Except ε (List ρ)) : Prop where
  lists : ∀ out, result = .ok out ↔
    ∃ start nodes, first = .ok start ∧ Leads link head start nodes head ∧
      (lead ++ nodes).length ≤ limit ∧
      List.Forall₂ (fun node value => record node = .ok value) (lead ++ nodes)
        out
  distinct : ∀ start nodes, first = .ok start →
    Leads link head start nodes head → (lead ++ nodes).Nodup
  long : ∀ start nodes stop, first = .ok start →
    Leads link head start nodes stop → limit < (lead ++ nodes).length →
      ∃ error, result = .error error
  cyclic : ∀ start before node cycle, first = .ok start →
    Leads link head start before node → Leads link head node cycle node →
      cycle ≠ [] → ∃ error, result = .error error

theorem EnumeratesCircle.of_lists {lead : List ν} {first : Except ε ν}
    {record : ν → Except ε ρ} {limit : Nat} {result : Except ε (List ρ)}
    (leads : lead = [] ∨ lead = [head])
    (lists : ∀ out, result = .ok out ↔
      ∃ start nodes, first = .ok start ∧ Leads link head start nodes head ∧
        (lead ++ nodes).length ≤ limit ∧
        List.Forall₂ (fun node value => record node = .ok value)
          (lead ++ nodes) out) :
    EnumeratesCircle lead first link head record limit result := by
  have long : ∀ start nodes stop, first = .ok start →
      Leads link head start nodes stop → limit < (lead ++ nodes).length →
        ∃ error, result = .error error := by
    intro start nodes stop started onward longer
    cases outcome : result with
    | error error => exact ⟨error, rfl⟩
    | ok out =>
        obtain ⟨again, circle, startedToo, back, short, _⟩ :=
          (lists out).mp outcome
        rw [started] at startedToo
        cases startedToo
        have within := (back.isPrefix onward).length_le
        rw [List.length_append] at longer short
        omega
  refine ⟨lists, ?_, long, ?_⟩
  · intro start nodes _ back
    rcases leads with rfl | rfl
    · exact back.nodup
    · rw [List.singleton_append, List.nodup_cons]
      exact ⟨fun again => back.ne_head head again rfl, back.nodup⟩
  · intro start before node cycle started enters cycles nonempty
    obtain ⟨steps, onward, longer⟩ :=
      enters.around cycles nonempty (limit + 1)
    apply long start steps node started onward
    rw [List.length_append]
    omega

/-- The rounds of a walk follow the links of a circular list up to the limit. A
node is visited at its place, which the record of the node comes from. -/
structure FollowsCircle (advance : List ρ → μ → Except ε (ρ × Option μ))
    (place : ν → Option μ) (record : ν → Except ε ρ) (link : ν → Except ε ν)
    (head : ν) (limit : Nat) : Prop where
  placed : ∀ node value, record node = .ok value →
    ∃ current, place node = some current
  covers : ∀ before current out, advance before current = .ok out →
    ∃ node, place node = some current
  rounds : ∀ before node current, place node = some current →
    ∀ value onward, advance before current = .ok (value, onward) ↔
      record node = .ok value ∧ ∃ next, link node = .ok next ∧
        ((next = head ∧ onward = none) ∨
          (next ≠ head ∧ before.length + 1 < limit ∧
            ∃ successor, place next = some successor ∧
              onward = some successor))

section Circles

variable {advance : List ρ → μ → Except ε (ρ × Option μ)}
  {place : ν → Option μ} {record : ν → Except ε ρ} {limit : Nat}

theorem FollowsCircle.steady
    (follows : FollowsCircle advance place record link head limit) :
    Steady advance := by
  intro before other current first second advances advancesToo
  obtain ⟨value, onward⟩ := first
  obtain ⟨valueToo, onwardToo⟩ := second
  obtain ⟨node, placed⟩ := follows.covers before current _ advances
  obtain ⟨recorded, next, linked, ends⟩ :=
    (follows.rounds before node current placed value onward).mp advances
  obtain ⟨recordedToo, nextToo, linkedToo, endsToo⟩ :=
    (follows.rounds other node current placed valueToo onwardToo).mp advancesToo
  rw [recorded] at recordedToo
  rw [linked] at linkedToo
  cases recordedToo
  cases linkedToo
  rcases ends with ⟨same, rfl⟩ | ⟨apart, _, successor, placedNext, rfl⟩
  · rcases endsToo with ⟨_, rfl⟩ | ⟨apart, _⟩
    · rfl
    · contradiction
  · rcases endsToo with ⟨same, _⟩ | ⟨_, _, successorToo, placedToo, rfl⟩
    · contradiction
    · rw [placedNext] at placedToo
      cases placedToo
      rfl

theorem FollowsCircle.walked_iff
    (follows : FollowsCircle advance place record link head limit)
    {before : List ρ} (below : before.length < limit) {node : ν} {current : μ}
    (placed : place node = some current) (values : List ρ) :
    (∃ stretch, Walked advance before current stretch ∧
        recordsOf stretch = values) ↔
      ∃ next nodes, link node = .ok next ∧ Leads link head next nodes head ∧
        before.length + (node :: nodes).length ≤ limit ∧
        List.Forall₂ (fun node value => record node = .ok value)
          (node :: nodes) values := by
  constructor
  · intro given
    obtain ⟨stretch, walked, rfl⟩ := given
    induction walked generalizing node with
    | last ends =>
        obtain ⟨recorded, next, linked, stops⟩ :=
          (follows.rounds _ node _ placed _ _).mp ends
        rcases stops with ⟨rfl, _⟩ | ⟨_, _, successor, _, impossible⟩
        · exact ⟨next, [], linked, .here, below, .cons recorded .nil⟩
        · contradiction
    | step leads _ induction =>
        obtain ⟨recorded, next, linked, stops⟩ :=
          (follows.rounds _ node _ placed _ _).mp leads
        rcases stops with ⟨_, impossible⟩ | ⟨apart, room, successor, placedNext,
          onward⟩
        · contradiction
        · cases onward
          obtain ⟨later, nodes, linkedNext, back, short, records⟩ :=
            induction (by simpa using room) placedNext
          refine ⟨next, next :: nodes, linked, .step apart linkedNext back, ?_,
            .cons recorded records⟩
          rw [List.length_append, List.length_singleton] at short
          rw [List.length_cons]
          omega
  · intro given
    obtain ⟨next, nodes, linked, back, short, records⟩ := given
    induction nodes generalizing before node current next values with
    | nil =>
        cases back
        cases records with
        | @cons _ value _ _ recorded none =>
            cases none
            refine ⟨[(current, value)], .last ?_, rfl⟩
            exact (follows.rounds before node current placed value none).mpr
              ⟨recorded, head, linked, .inl ⟨rfl, rfl⟩⟩
    | cons later nodes induction =>
        cases back with
        | step apart linkedNext onward =>
            cases records with
            | @cons _ value _ rest recorded others =>
                obtain ⟨first, _, firstRecorded⟩ :
                    ∃ first, rest.head? = some first ∧
                      record later = .ok first := by
                  cases others with
                  | cons recordedNext _ => exact ⟨_, rfl, recordedNext⟩
                obtain ⟨successor, placedNext⟩ :=
                  follows.placed later first firstRecorded
                rw [List.length_cons, List.length_cons] at short
                have longer : (before ++ [value]).length = before.length + 1 := by
                  rw [List.length_append, List.length_singleton]
                obtain ⟨stretch, walked, rfl⟩ := induction
                  (show (before ++ [value]).length < limit by omega) placedNext
                  rest _ linkedNext onward
                  (by
                    rw [longer, List.length_cons]
                    omega)
                  others
                refine ⟨(current, value) :: stretch, .step ?_ walked, rfl⟩
                exact (follows.rounds before node current placed value _).mpr
                  ⟨recorded, later, linked,
                    .inr ⟨apart, by omega, successor, placedNext, rfl⟩⟩

end Circles

/-! The loop over a circular list: each round takes the record of a node before
it follows the link of the node, and asks for the head before the limit. -/

section Loops

variable [DecidableEq ν] (record : ν → Except ε ρ) (link : ν → Except ε ν)
  (head : ν) (limit : Nat) (exceeded : ε)

def circleRound (output : List ρ) (node : ν) : Except ε (ρ × Option ν) := do
  let value ← record node
  let next ← link node
  if next = head then
    return (value, none)
  else do
    rejectIf (limit ≤ output.length + 1) exceeded
    return (value, some next)

def enumerateCircle [Finite ν] (looped : ν → ε) (first : ν) :
    Except ε (List ρ) :=
  if first = head then
    .ok []
  else
    (walk (circleRound record link head limit exceeded) looped [] first).map
      recordsOf

theorem circleRound_follows :
    FollowsCircle (circleRound record link head limit exceeded) some record link
      head limit where
  placed := fun node _ _ => ⟨node, rfl⟩
  covers := fun _ current _ _ => ⟨current, rfl⟩
  rounds := by
    intro before node current placed value onward
    cases placed
    unfold circleRound
    simp only [bind_eq_ok]
    constructor
    · intro given
      obtain ⟨value', recorded, next, linked, ended⟩ := given
      by_cases same : next = head
      · rw [if_pos same] at ended
        cases ended
        exact ⟨recorded, next, linked, .inl ⟨same, rfl⟩⟩
      · rw [if_neg same] at ended
        obtain ⟨_, room, ended⟩ := bind_eq_ok.mp ended
        rw [rejectIf_eq_ok] at room
        cases ended
        exact ⟨recorded, next, linked,
          .inr ⟨same, by omega, next, rfl, rfl⟩⟩
    · intro given
      obtain ⟨recorded, next, linked, ends⟩ := given
      refine ⟨value, recorded, next, linked, ?_⟩
      rcases ends with ⟨same, rfl⟩ | ⟨apart, room, successor, placed, rfl⟩
      · rw [if_pos same]
        rfl
      · cases placed
        rw [if_neg apart, rejectIf_neg (by omega)]
        rfl

variable {record link head limit exceeded}

theorem enumerateCircle_lists [Finite ν] {looped : ν → ε} (positive : 0 < limit)
    {first : ν} (out : List ρ) :
    enumerateCircle record link head limit exceeded looped first = .ok out ↔
      ∃ nodes, Leads link head first nodes head ∧ nodes.length ≤ limit ∧
        List.Forall₂ (fun node value => record node = .ok value) nodes out := by
  have follows := circleRound_follows record link head limit exceeded
  unfold enumerateCircle
  by_cases same : first = head
  · rw [if_pos same]
    subst first
    constructor
    · intro finished
      cases finished
      exact ⟨[], .here, Nat.zero_le _, .nil⟩
    · intro given
      obtain ⟨nodes, back, _, records⟩ := given
      cases back with
      | here =>
          cases records
          rfl
      | step apart _ _ => contradiction
  · rw [if_neg same, map_eq_ok]
    simp only [walk_nil_eq_ok follows.steady]
    rw [follows.walked_iff (show ([] : List ρ).length < limit from positive)
      (show some first = some first from rfl) out]
    constructor
    · intro given
      obtain ⟨next, nodes, linked, back, short, records⟩ := given
      refine ⟨first :: nodes, .step same linked back, ?_, records⟩
      rwa [List.length_nil, Nat.zero_add] at short
    · intro given
      obtain ⟨nodes, back, short, records⟩ := given
      cases back with
      | here => contradiction
      | step _ linked onward =>
          refine ⟨_, _, linked, onward, ?_, records⟩
          rwa [List.length_nil, Nat.zero_add]

theorem enumerateCircle_enumerates [Finite ν] {looped : ν → ε}
    (positive : 0 < limit) (first : Except ε ν) :
    EnumeratesCircle [] first link head record limit (do
      let node ← first
      enumerateCircle record link head limit exceeded looped node) := by
  apply EnumeratesCircle.of_lists (.inl rfl)
  intro out
  simp only [bind_eq_ok, enumerateCircle_lists positive, List.nil_append,
    exists_and_left]

end Loops

end Links

end LibVmi.Data
