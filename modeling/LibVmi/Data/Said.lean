namespace LibVmi.Data

/-! A world in which everything that is said to a tool is noted. -/

structure Noted (ω message : Type) where
  world : ω
  said : List message

section Said

variable {ω message reply : Type}

def noted (execute : ω → message → ω × reply) (before : Noted ω message)
    (words : message) : Noted ω message × reply :=
  let (world, output) := execute before.world words
  (⟨world, before.said ++ [words]⟩, output)

/-- From one to the other, only what is admitted was said. -/
def SaysOnly (admitted : message → Prop) (before after : Noted ω message) :
    Prop :=
  ∃ more, after.said = before.said ++ more ∧ ∀ words ∈ more, admitted words

variable {admitted : message → Prop} {first middle last : Noted ω message}

namespace SaysOnly

theorem refl (admitted : message → Prop) (before : Noted ω message) :
    SaysOnly admitted before before :=
  ⟨[], (List.append_nil _).symm, nofun⟩

theorem trans (early : SaysOnly admitted first middle)
    (late : SaysOnly admitted middle last) : SaysOnly admitted first last := by
  obtain ⟨said, saidEq, earlier⟩ := early
  obtain ⟨more, moreEq, later⟩ := late
  refine ⟨said ++ more, ?_, ?_⟩
  · rw [moreEq, saidEq, List.append_assoc]
  · intro words member
    obtain inFirst | inSecond := List.mem_append.mp member
    · exact earlier words inFirst
    · exact later words inSecond

theorem weaken {other : message → Prop} (spoken : SaysOnly admitted first last)
    (wider : ∀ words, admitted words → other words) :
    SaysOnly other first last := by
  obtain ⟨more, same, all⟩ := spoken
  exact ⟨more, same, fun words member => wider words (all words member)⟩

theorem noted {execute : ω → message → ω × reply} {words : message}
    (admits : admitted words) (before : Noted ω message) :
    SaysOnly admitted before (Data.noted execute before words).1 :=
  ⟨[words], rfl, fun _ member => List.mem_singleton.mp member ▸ admits⟩

theorem of_silence {world : ω} (spoken : SaysOnly admitted ⟨world, []⟩ last) :
    ∀ words ∈ last.said, admitted words := by
  obtain ⟨more, same, all⟩ := spoken
  intro words member
  rw [same, List.nil_append] at member
  exact all words member

/-- What holds of one call holds of any number of them. -/
theorem foldl {call : Type} {perform : Noted ω message → call → Noted ω message}
    {calls : List call}
    (each : ∀ made ∈ calls, ∀ before,
      SaysOnly admitted before (perform before made))
    (before : Noted ω message) :
    SaysOnly admitted before (calls.foldl perform before) := by
  induction calls generalizing before with
  | nil => exact refl admitted before
  | cons made rest induction =>
      exact (each made List.mem_cons_self before).trans
        (induction (fun other member => each other
          (List.mem_cons_of_mem _ member)) _)

end SaysOnly

end Said

end LibVmi.Data
