import Mathlib.Data.List.Induction

namespace LibVmi.Data

/-! What is known of a state by the calls that led to it. -/

section Histories

variable {σ ι : Type*} (step : σ → ι → σ) (start : σ)

def reached (calls : List ι) : σ :=
  calls.foldl step start

@[simp] theorem reached_nil : reached step start [] = start := rfl

@[simp] theorem reached_snoc (calls : List ι) (call : ι) :
    reached step start (calls ++ [call]) =
      step (reached step start calls) call := by
  rw [reached, List.foldl_append]
  rfl

/-- What a call sets, and no later call spoils, is what is found. -/
theorem observed_iff {ν : Type*} (observe : σ → Option ν)
    (sets : ι → ν → Prop) (spoils : σ → ι → Prop)
    (initial : observe start = none)
    (stepped : ∀ calls call value,
      observe (step (reached step start calls) call) = some value ↔
        sets call value ∨
          observe (reached step start calls) = some value ∧
            ¬ spoils (reached step start calls) call)
    (calls : List ι) (value : ν) :
    observe (reached step start calls) = some value ↔
      ∃ past call later, calls = past ++ call :: later ∧ sets call value ∧
        ∀ before next after, later = before ++ next :: after →
          ¬ spoils (reached step start (past ++ call :: before)) next := by
  induction calls using List.reverseRecOn with
  | nil =>
      rw [reached_nil, initial]
      constructor
      · intro impossible
        contradiction
      · rintro ⟨past, call, later, empty, _⟩
        simp at empty
  | append_singleton calls call induction =>
      rw [reached_snoc, stepped, induction]
      constructor
      · rintro (set | ⟨⟨past, setter, later, rfl, set, kept⟩, unspoiled⟩)
        · refine ⟨calls, call, [], rfl, set, ?_⟩
          intro before next after empty
          simp at empty
        · refine ⟨past, setter, later ++ [call], ?_, set, ?_⟩
          · rw [List.append_assoc, List.cons_append]
          · intro before next after splits
            induction after using List.reverseRecOn with
            | nil =>
                obtain ⟨rfl, rfl⟩ := List.append_singleton_inj.mp splits
                exact unspoiled
            | append_singleton after last =>
                rw [← List.cons_append, ← List.append_assoc] at splits
                exact kept before next after
                  (List.append_singleton_inj.mp splits).1
      · rintro ⟨past, setter, later, splits, set, kept⟩
        induction later using List.reverseRecOn with
        | nil =>
            obtain ⟨rfl, rfl⟩ := List.append_singleton_inj.mp splits
            exact .inl set
        | append_singleton later last =>
            rw [← List.cons_append, ← List.append_assoc] at splits
            obtain ⟨rfl, rfl⟩ := List.append_singleton_inj.mp splits
            refine .inr ⟨⟨past, setter, later, rfl, set, ?_⟩, ?_⟩
            · intro before next after within
              apply kept before next (after ++ [call])
              rw [within, List.append_assoc, List.cons_append]
            · exact kept later call [] rfl

variable {κ : Type*} (present : σ → κ → Prop)

/-- The younger was still absent at a time since when the elder is present. -/
def LongerPresent (calls : List ι) (elder younger : κ) : Prop :=
  ∃ past recent, calls = past ++ recent ∧
    ¬ present (reached step start past) younger ∧
    ∀ more, more <+: recent → present (reached step start (past ++ more)) elder

variable {step start present}

theorem LongerPresent.snoc {calls : List ι} {call : ι} {elder younger : κ}
    (longer : LongerPresent step start present calls elder younger)
    (stays : present (reached step start (calls ++ [call])) elder) :
    LongerPresent step start present (calls ++ [call]) elder younger := by
  obtain ⟨past, recent, rfl, absent, throughout⟩ := longer
  refine ⟨past, recent ++ [call], List.append_assoc _ _ _, absent, ?_⟩
  intro more within
  rcases List.prefix_concat_iff.mp within with rfl | within
  · rwa [List.append_assoc] at stays
  · exact throughout more within

theorem LongerPresent.of_absent {calls : List ι} {elder younger : κ}
    (absent : ¬ present (reached step start calls) younger)
    (there : present (reached step start calls) elder) :
    LongerPresent step start present calls elder younger := by
  refine ⟨calls, [], (List.append_nil _).symm, absent, ?_⟩
  intro more within
  rwa [List.prefix_nil.mp within, List.append_nil]

/-- A queue stays ordered by its presence while what it keeps stays present. -/
theorem LongerPresent.pairwise_snoc {calls : List ι} {call : ι}
    {queue kept : List κ}
    (ordered : queue.Pairwise (LongerPresent step start present calls))
    (part : kept.Sublist queue)
    (stay : ∀ key ∈ kept, present (reached step start (calls ++ [call])) key) :
    kept.Pairwise (LongerPresent step start present (calls ++ [call])) := by
  refine (ordered.sublist part).imp_of_mem ?_
  intro elder younger member _ longer
  exact longer.snoc (stay elder member)

/-- The same with a newcomer at the end. -/
theorem LongerPresent.pairwise_enter {calls : List ι} {call : ι}
    {queue kept : List κ} {key : κ}
    (ordered : queue.Pairwise (LongerPresent step start present calls))
    (were : ∀ elder ∈ queue, present (reached step start calls) elder)
    (absent : ¬ present (reached step start calls) key)
    (part : kept.Sublist queue)
    (stay : ∀ elder ∈ kept,
      present (reached step start (calls ++ [call])) elder) :
    (kept ++ [key]).Pairwise
      (LongerPresent step start present (calls ++ [call])) := by
  rw [List.pairwise_append]
  refine ⟨LongerPresent.pairwise_snoc ordered part stay, List.pairwise_singleton _ _, ?_⟩
  intro elder member younger isKey
  rw [List.mem_singleton.mp isKey]
  have longer : LongerPresent step start present calls elder key :=
    .of_absent absent (were elder (part.subset member))
  exact longer.snoc (stay elder member)

end Histories

end LibVmi.Data
