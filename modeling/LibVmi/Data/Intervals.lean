import Mathlib.Algebra.Order.Ring.Nat
import Mathlib.Data.List.Chain

namespace LibVmi.Data.Intervals

/-! Half-open intervals attached to the members of a list. Members may be
empty, and an empty member meets nothing even where the endpoint test says that
it overlaps. -/

variable {α ι : Type*} [LinearOrder ι] (lower upper : α → ι)

def Overlap (left right : α) : Prop :=
  lower left < upper right ∧ lower right < upper left

def Meet (left right : α) : Prop :=
  ∃ point, (lower left ≤ point ∧ point < upper left) ∧
    lower right ≤ point ∧ point < upper right

def Before (left right : α) : Prop :=
  upper left ≤ lower right

def Apart (left right : α) : Prop :=
  Before lower upper left right ∨ Before lower upper right left

/-- An empty member at the start of a nonempty one hides what that one meets
further on from a comparison of neighbours. -/
def Hidden (members : List α) : Prop :=
  ∃ first gap last, List.Sublist [first, gap, last] members ∧
    lower first < upper first ∧
    lower gap = lower first ∧ upper gap = lower gap ∧
    lower last < upper last ∧ lower last < upper first

variable {lower upper}

theorem Meet.overlap {left right : α} (meet : Meet lower upper left right) :
    Overlap lower upper left right := by
  obtain ⟨point, ⟨leftLower, leftUpper⟩, rightLower, rightUpper⟩ := meet
  exact ⟨lt_of_le_of_lt leftLower rightUpper,
    lt_of_le_of_lt rightLower leftUpper⟩

theorem Apart.not_overlap {left right : α}
    (apart : Apart lower upper left right) :
    ¬ Overlap lower upper left right := by
  intro given
  obtain ⟨leftFirst, rightFirst⟩ := given
  rcases apart with before | before
  · exact absurd rightFirst (not_lt.mpr before)
  · exact absurd leftFirst (not_lt.mpr before)

theorem Apart.symm {left right : α} (apart : Apart lower upper left right) :
    Apart lower upper right left :=
  Or.symm apart

theorem meet_of_ordered {left right : α} (ordered : lower left ≤ lower right)
    (nonempty : lower right < upper right)
    (reaches : lower right < upper left) :
    Meet lower upper left right :=
  ⟨lower right, ⟨ordered, reaches⟩, le_rfl, nonempty⟩

/-- Sorted members whose neighbours pass the endpoint test meet nowhere,
exactly when no empty member hides an overlap. -/
theorem pairwise_not_meet_iff {members : List α}
    (bounds : ∀ member ∈ members, lower member ≤ upper member)
    (sorted : members.Pairwise fun left right => lower left ≤ lower right)
    (neighbours : members.IsChain fun left right =>
      ¬ Overlap lower upper left right) :
    (members.Pairwise fun left right => ¬ Meet lower upper left right) ↔
      ¬ Hidden lower upper members := by
  constructor
  · rintro apart ⟨first, gap, last, sublist, _, _, _, nonempty, reaches⟩
    have pairSublist : List.Sublist [first, last] members :=
      List.Sublist.trans (by simp) sublist
    have notMeet : ¬ Meet lower upper first last := by
      simpa using apart.sublist pairSublist
    have ordered : lower first ≤ lower last := by
      simpa using sorted.sublist pairSublist
    exact notMeet (meet_of_ordered ordered nonempty reaches)
  · intro notHidden
    induction members with
    | nil => exact List.Pairwise.nil
    | cons head tail induction =>
        simp only [List.mem_cons, forall_eq_or_imp] at bounds
        rw [List.pairwise_cons] at sorted
        refine List.Pairwise.cons ?_ (induction bounds.2 sorted.2
          neighbours.tail ?_)
        · intro member inTail meet
          obtain ⟨headNonempty, memberNonempty, reaches⟩ :
              lower head < upper head ∧ lower member < upper member ∧
                lower member < upper head := by
            obtain ⟨point, ⟨headLower, headUpper⟩, memberLower, memberUpper⟩ :=
              meet
            exact ⟨lt_of_le_of_lt headLower headUpper,
              lt_of_le_of_lt memberLower memberUpper,
              lt_of_le_of_lt memberLower headUpper⟩
          cases tail with
          | nil => simp at inTail
          | cons next rest =>
              have notOverlap := (List.isChain_cons_cons.mp neighbours).1
              rcases List.mem_cons.mp inTail with rfl | inRest
              · exact notOverlap meet.overlap
              -- The neighbour starts no later than the member that is met, so
              -- passing the endpoint test leaves it empty at the head's start.
              · have nextLower : lower next ≤ lower member :=
                  (List.pairwise_cons.mp sorted.2).1 member inRest
                have headLower : lower head ≤ lower next :=
                  sorted.1 next (by simp)
                have nextUpper : upper next ≤ lower head := by
                  by_contra above
                  exact notOverlap ⟨not_le.mp above,
                    lt_of_le_of_lt nextLower reaches⟩
                have nextBounds := bounds.2 next (by simp)
                have lowerEq : lower next = lower head :=
                  le_antisymm (le_trans nextBounds nextUpper) headLower
                have upperEq : upper next = lower next :=
                  le_antisymm (le_trans nextUpper headLower) nextBounds
                exact notHidden ⟨head, next, member,
                  by simpa using inRest, headNonempty, lowerEq, upperEq,
                  memberNonempty, reaches⟩
        · intro given
          obtain ⟨first, gap, last, sublist, facts⟩ := given
          exact notHidden ⟨first, gap, last, sublist.cons head, facts⟩

theorem hidden_map {β : Type*} {convert : β → α} {members : List β} :
    Hidden lower upper (members.map convert) ↔
      Hidden (lower ∘ convert) (upper ∘ convert) members := by
  constructor
  · intro given
    obtain ⟨first, gap, last, sublist, facts⟩ := given
    obtain ⟨others, within, equality⟩ := List.sublist_map_iff.mp sublist
    match others, equality with
    | [first', gap', last'], equality =>
        simp only [List.map_cons, List.map_nil, List.cons.injEq] at equality
        obtain ⟨rfl, rfl, rfl, _⟩ := equality
        exact ⟨first', gap', last', within, facts⟩
  · intro given
    obtain ⟨first, gap, last, sublist, facts⟩ := given
    exact ⟨convert first, convert gap, convert last, sublist.map convert,
      facts⟩

theorem not_hidden_of_nonempty {members : List α}
    (nonempty : ∀ member ∈ members, lower member < upper member) :
    ¬ Hidden lower upper members := by
  intro given
  obtain ⟨first, gap, last, sublist, _, _, empty, _⟩ := given
  have inMembers : gap ∈ members := sublist.subset (by simp)
  exact absurd empty (ne_of_gt (nonempty gap inMembers))

/-- Comparing neighbours of a sorted list of nonempty members is enough. -/
theorem pairwise_before {members : List α}
    (nonempty : ∀ member ∈ members, lower member < upper member)
    (sorted : members.Pairwise fun left right => lower left ≤ lower right)
    (neighbours : members.IsChain fun left right =>
      ¬ Overlap lower upper left right) :
    members.Pairwise (Before lower upper) := by
  have apart := (pairwise_not_meet_iff (fun member inMembers =>
    le_of_lt (nonempty member inMembers)) sorted neighbours).mpr
      (not_hidden_of_nonempty nonempty)
  refine (apart.and sorted).imp_of_mem ?_
  intro left right _ inRight separate
  by_contra reaches
  exact separate.1 (meet_of_ordered separate.2 (nonempty right inRight)
    (not_le.mp reaches))

/-- Members that are apart in any order pass the neighbour test once sorted. -/
theorem neighbours_of_apart {members : List α}
    (apart : members.Pairwise (Apart lower upper)) :
    members.IsChain fun left right => ¬ Overlap lower upper left right :=
  (apart.imp fun separate => separate.not_overlap).isChain

theorem apart_of_before {members : List α}
    (before : members.Pairwise (Before lower upper)) :
    members.Pairwise (Apart lower upper) :=
  before.imp Or.inl

theorem pairwise_apart_of_perm {members others : List α}
    (permuted : members.Perm others)
    (apart : members.Pairwise (Apart lower upper)) :
    others.Pairwise (Apart lower upper) :=
  (permuted.pairwise_iff fun separate => separate.symm).mp apart

end LibVmi.Data.Intervals
