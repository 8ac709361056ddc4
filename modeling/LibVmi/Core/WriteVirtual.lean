import LibVmi.Core.Coherence

namespace LibVmi.Core

open Data Arch

/-! The write loop step by step. A step asks for the translation of the address
it has come to, and writes a chunk there if it gets one. -/

structure WriteStep (τ : Type) where
  state : τ
  current : Gva
  written : Option (Gpa × List UInt8)

section Steps

variable {τ τ' : Type}

/-- The steps that the loop of `write_virtual` takes. -/
def stepsFrom (translateAt : τ → Gva → τ × Result Translation)
    (write : τ → Gpa → List UInt8 → τ × Result Unit) (address : UInt64)
    (data : List UInt8) (completed : Nat) (state : τ) : List (WriteStep τ) :=
  if unfinished : completed < data.length then
    match planned : chunkAt writeErrors address data.length completed with
    | .error _ => []
    | .ok (current, chunkEnd) =>
        match translateAt state ⟨current⟩ with
        | (_, .error _) => [⟨state, ⟨current⟩, none⟩]
        | (next, .ok translation) =>
            let chunk := (data.drop completed).take (chunkEnd - completed)
            ⟨state, ⟨current⟩, some (translation.physicalAddress, chunk)⟩ ::
              match write next translation.physicalAddress chunk with
              | (_, .error _) => []
              | (next, .ok _) =>
                  have := chunkAt_progress unfinished planned
                  stepsFrom translateAt write address data chunkEnd next
  else
    []
termination_by data.length - completed

/-- What reaches physical memory, in order. -/
def writesOf (steps : List (WriteStep τ)) : List (Gpa × List UInt8) :=
  steps.filterMap WriteStep.written

@[simp] theorem writesOf_cons_some (state : τ) (current : Gva)
    (write : Gpa × List UInt8) (steps : List (WriteStep τ)) :
    writesOf (⟨state, current, some write⟩ :: steps) =
      write :: writesOf steps := rfl

@[simp] theorem writesOf_cons_none (state : τ) (current : Gva)
    (steps : List (WriteStep τ)) :
    writesOf (⟨state, current, none⟩ :: steps) = writesOf steps := rfl

/-- Both translations send the address to the same place, or fail alike. -/
def SendsAlike (first second : τ → Gva → τ × Result Translation) (state : τ)
    (current : Gva) : Prop :=
  (first state current).2.map Translation.physicalAddress =
    (second state current).2.map Translation.physicalAddress

/-! The loops without the evidence of their progress. -/

theorem writeVirtualFrom_eq (translateAt : τ → Gva → τ × Result Translation)
    (write : τ → Gpa → List UInt8 → τ × Result Unit) (address : UInt64)
    (data : List UInt8) (completed : Nat) (state : τ) :
    writeVirtualFrom translateAt write address data completed state =
      if completed < data.length then
        match chunkAt writeErrors address data.length completed with
        | .error error => (state, .error error)
        | .ok (current, chunkEnd) =>
            match translateAt state ⟨current⟩ with
            | (next, .error error) => (next, .error error)
            | (next, .ok translation) =>
                match write next translation.physicalAddress
                    ((data.drop completed).take (chunkEnd - completed)) with
                | (next, .error error) => (next, .error error)
                | (next, .ok _) =>
                    writeVirtualFrom translateAt write address data chunkEnd
                      next
      else
        (state, .ok ()) := by
  rw [writeVirtualFrom]
  by_cases unfinished : completed < data.length
  · rw [dif_pos unfinished, if_pos unfinished]
    split
    · rename_i planned
      rw [planned]
    · rename_i planned
      simp only [planned] <;> rfl
  · rw [dif_neg unfinished, if_neg unfinished]

theorem stepsFrom_eq (translateAt : τ → Gva → τ × Result Translation)
    (write : τ → Gpa → List UInt8 → τ × Result Unit) (address : UInt64)
    (data : List UInt8) (completed : Nat) (state : τ) :
    stepsFrom translateAt write address data completed state =
      if completed < data.length then
        match chunkAt writeErrors address data.length completed with
        | .error _ => []
        | .ok (current, chunkEnd) =>
            match translateAt state ⟨current⟩ with
            | (_, .error _) => [⟨state, ⟨current⟩, none⟩]
            | (next, .ok translation) =>
                let chunk := (data.drop completed).take (chunkEnd - completed)
                ⟨state, ⟨current⟩, some (translation.physicalAddress, chunk)⟩ ::
                  match write next translation.physicalAddress chunk with
                  | (_, .error _) => []
                  | (next, .ok _) =>
                      stepsFrom translateAt write address data chunkEnd next
      else
        [] := by
  rw [stepsFrom]
  by_cases unfinished : completed < data.length
  · rw [dif_pos unfinished, if_pos unfinished]
    split
    · rename_i planned
      rw [planned]
    · rename_i planned
      simp only [planned]
  · rw [dif_neg unfinished, if_neg unfinished]

/-- Translations that leave the same state behind write alike exactly when they
send every address alike that the second is asked for, and then the loops leave
the same state behind. -/
theorem writeVirtualFrom_alike_iff
    (first second : τ → Gva → τ × Result Translation)
    (leaves : ∀ state current, (first state current).1 = (second state current).1)
    (write : τ → Gpa → List UInt8 → τ × Result Unit) (address : UInt64)
    (data : List UInt8) (completed : Nat) (state : τ) :
    ((∀ step ∈ stepsFrom second write address data completed state,
        SendsAlike first second step.state step.current) ↔
      (writeVirtualFrom first write address data completed state).2 =
          (writeVirtualFrom second write address data completed state).2 ∧
        writesOf (stepsFrom first write address data completed state) =
          writesOf (stepsFrom second write address data completed state)) ∧
    ((∀ step ∈ stepsFrom second write address data completed state,
        SendsAlike first second step.state step.current) →
      (writeVirtualFrom first write address data completed state).1 =
        (writeVirtualFrom second write address data completed state).1) := by
  induction distance : data.length - completed using Nat.strong_induction_on
    generalizing completed state with
  | _ distance induction =>
      subst distance
      rw [stepsFrom_eq, stepsFrom_eq, writeVirtualFrom_eq, writeVirtualFrom_eq]
      by_cases unfinished : completed < data.length
      · simp only [if_pos unfinished]
        cases planned : chunkAt writeErrors address data.length completed with
        | error error => simp
        | ok chunk =>
            obtain ⟨current, chunkEnd⟩ := chunk
            have progress := chunkAt_progress unfinished planned
            have leavesSame := leaves state ⟨current⟩
            cases firstStep : first state ⟨current⟩ with
            | mk next firstResult =>
            cases secondStep : second state ⟨current⟩ with
            | mk secondNext secondResult =>
            rw [firstStep, secondStep] at leavesSame
            simp only at leavesSame
            subst leavesSame
            have alike : SendsAlike first second state ⟨current⟩ ↔
                firstResult.map Translation.physicalAddress =
                  secondResult.map Translation.physicalAddress := by
              rw [SendsAlike, firstStep, secondStep]
            simp only [firstStep, secondStep]
            cases firstResult with
            | error error =>
                cases secondResult with
                | error other => simp [alike, Except.map]
                | ok translation => simp [alike, Except.map, writesOf]
            | ok translation =>
                cases secondResult with
                | error error => simp [alike, Except.map, writesOf]
                | ok other =>
                    have same : SendsAlike first second state ⟨current⟩ ↔
                        translation.physicalAddress =
                          other.physicalAddress := by
                      simp [alike, Except.map]
                    by_cases heads :
                        translation.physicalAddress = other.physicalAddress
                    · simp only [heads]
                      cases write next other.physicalAddress
                          ((data.drop completed).take (chunkEnd - completed))
                        with
                      | mk after result =>
                      cases result with
                      | error error => simp [same.mpr heads]
                      | ok done =>
                          have rest := induction (data.length - chunkEnd)
                            (by omega) chunkEnd after rfl
                          simp only [List.forall_mem_cons, same.mpr heads,
                            true_and, writesOf_cons_some, List.cons.injEq]
                          exact rest
                    · simp [same, heads]
      · simp [if_neg unfinished]

/-- A loop over states that stand for others runs as the loop over those. -/
theorem writeVirtualFrom_projects {project : τ → τ'}
    {first : τ → Gva → τ × Result Translation}
    {second : τ' → Gva → τ' × Result Translation}
    {firstWrite : τ → Gpa → List UInt8 → τ × Result Unit}
    {secondWrite : τ' → Gpa → List UInt8 → τ' × Result Unit}
    (translates : ∀ state current,
      second (project state) current =
        (project (first state current).1, (first state current).2))
    (writes : ∀ state physical chunk,
      secondWrite (project state) physical chunk =
        (project (firstWrite state physical chunk).1,
          (firstWrite state physical chunk).2))
    (address : UInt64) (data : List UInt8) (completed : Nat) (state : τ) :
    writeVirtualFrom second secondWrite address data completed
          (project state) =
        (project
            (writeVirtualFrom first firstWrite address data completed state).1,
          (writeVirtualFrom first firstWrite address data completed state).2) ∧
      writesOf (stepsFrom second secondWrite address data completed
          (project state)) =
        writesOf (stepsFrom first firstWrite address data completed state) := by
  induction distance : data.length - completed using Nat.strong_induction_on
    generalizing completed state with
  | _ distance induction =>
      subst distance
      rw [stepsFrom_eq, stepsFrom_eq, writeVirtualFrom_eq, writeVirtualFrom_eq]
      by_cases unfinished : completed < data.length
      · simp only [if_pos unfinished]
        cases planned : chunkAt writeErrors address data.length completed with
        | error error => exact ⟨rfl, rfl⟩
        | ok chunk =>
            obtain ⟨current, chunkEnd⟩ := chunk
            have progress := chunkAt_progress unfinished planned
            simp only [translates]
            cases first state ⟨current⟩ with
            | mk next result =>
            cases result with
            | error error => exact ⟨rfl, rfl⟩
            | ok translation =>
                simp only [writes]
                cases firstWrite next translation.physicalAddress
                    ((data.drop completed).take (chunkEnd - completed)) with
                | mk after result =>
                cases result with
                | error error => exact ⟨rfl, rfl⟩
                | ok done =>
                    obtain ⟨loops, rest⟩ := induction (data.length - chunkEnd)
                      (by omega) chunkEnd after rfl
                    simp only [writesOf_cons_some, loops, rest, and_self]
      · simp [unfinished, writesOf]

/-- What the start satisfies and every part of a step keeps, every state of the
loop satisfies. -/
theorem stepsFrom_invariant {holds : τ → Prop}
    {translateAt : τ → Gva → τ × Result Translation}
    {write : τ → Gpa → List UInt8 → τ × Result Unit} {address : UInt64}
    {data : List UInt8} {completed : Nat} {state : τ} (start : holds state)
    (translates : ∀ step ∈
        stepsFrom translateAt write address data completed state,
      holds step.state → holds (translateAt step.state step.current).1)
    (writes : ∀ state physical chunk, holds state →
      holds (write state physical chunk).1) :
    ∀ step ∈ stepsFrom translateAt write address data completed state,
      holds step.state := by
  induction distance : data.length - completed using Nat.strong_induction_on
    generalizing completed state with
  | _ distance induction =>
      subst distance
      rw [stepsFrom_eq] at translates ⊢
      by_cases unfinished : completed < data.length
      · rw [if_pos unfinished] at translates ⊢
        cases planned : chunkAt writeErrors address data.length completed with
        | error error => simp
        | ok chunk =>
            obtain ⟨current, chunkEnd⟩ := chunk
            have progress := chunkAt_progress unfinished planned
            simp only [planned] at translates ⊢
            cases translated : translateAt state ⟨current⟩ with
            | mk next result =>
            simp only [translated] at translates
            cases result with
            | error error =>
                intro step member
                rw [List.mem_singleton.mp member]
                exact start
            | ok translation =>
                simp only [List.forall_mem_cons, translated] at translates ⊢
                refine ⟨start, ?_⟩
                have nextHolds := translates.1 start
                have afterHolds := writes next translation.physicalAddress
                  ((data.drop completed).take (chunkEnd - completed)) nextHolds
                revert translates afterHolds
                cases write next translation.physicalAddress
                    ((data.drop completed).take (chunkEnd - completed)) with
                | mk after result =>
                cases result with
                | error error => simp
                | ok done =>
                    intro translates afterHolds
                    exact induction (data.length - chunkEnd) (by omega)
                      afterHolds translates.2 rfl
      · simp [unfinished]

end Steps

namespace VmiSession

variable {σ : Type} [Session σ]

/-! The write with the cache disabled, and the same write with the cache kept
beside it. -/

def writeVirtualUncached (session : σ) (translator : AddressTranslator)
    (root : TranslationRoot) (address : Gva) (data : List UInt8) :
    σ × Result Unit :=
  match Session.memoryWrite session with
  | .error error => (session, .error error)
  | .ok _ =>
      writeVirtualFrom
        (fun session current =>
          (session, translateUncached session translator root current))
        Session.write address.raw data 0 session

def writeChunk (self : VmiSession σ) (physical : Gpa) (chunk : List UInt8) :
    VmiSession σ × Result Unit :=
  let (session, result) := Session.write self.session physical chunk
  ({ self with session }, result)

/-- Walks afresh, and leaves the cache as a call of `translate` leaves it. -/
def translateAfresh (self : VmiSession σ) (translator : AddressTranslator)
    (root : TranslationRoot) (current : Gva) :
    VmiSession σ × Result Translation :=
  ((self.translate translator root current).1,
    translateUncached self.session translator root current)

/-- The steps of a write, over whatever translates an address. -/
def stepsWith (self : VmiSession σ)
    (translateAt : VmiSession σ → Gva → VmiSession σ × Result Translation)
    (address : Gva) (data : List UInt8) : List (WriteStep (VmiSession σ)) :=
  match Session.memoryWrite self.session with
  | .error _ => []
  | .ok _ => stepsFrom translateAt writeChunk address.raw data 0 self

/-- The physical writes of `write_virtual`. -/
def physicalWrites (self : VmiSession σ) (translator : AddressTranslator)
    (root : TranslationRoot) (address : Gva) (data : List UInt8) :
    List (Gpa × List UInt8) :=
  writesOf (self.stepsWith
    (fun self current => self.translate translator root current) address data)

def physicalWritesUncached (session : σ) (translator : AddressTranslator)
    (root : TranslationRoot) (address : Gva) (data : List UInt8) :
    List (Gpa × List UInt8) :=
  match Session.memoryWrite session with
  | .error _ => []
  | .ok _ =>
      writesOf (stepsFrom
        (fun session current =>
          (session, translateUncached session translator root current))
        Session.write address.raw data 0 session)

/-- At every page that the uncached write comes to, the cache as it is then
sends the address where the page tables of the moment do. -/
def Undisturbed (self : VmiSession σ) (translator : AddressTranslator)
    (root : TranslationRoot) (address : Gva) (data : List UInt8) : Prop :=
  ∀ step ∈ self.stepsWith
      (fun self current => self.translateAfresh translator root current)
      address data,
    (step.state.translate translator root step.current).2.map
        Translation.physicalAddress =
      (translateUncached step.state.session translator root step.current).map
        Translation.physicalAddress

/-- The cache kept beside an uncached write has no say in it. -/
theorem writeAfresh_eq (self : VmiSession σ) (translator : AddressTranslator)
    (root : TranslationRoot) (address : UInt64) (data : List UInt8) :
    let beside := writeVirtualFrom
      (fun self current => self.translateAfresh translator root current)
      writeChunk address data 0 self
    writeVirtualFrom
          (fun session current =>
            (session, translateUncached session translator root current))
          Session.write address data 0 self.session =
        (beside.1.session, beside.2) ∧
      writesOf (stepsFrom
          (fun session current =>
            (session, translateUncached session translator root current))
          Session.write address data 0 self.session) =
        writesOf (stepsFrom
          (fun self current => self.translateAfresh translator root current)
          writeChunk address data 0 self) := by
  apply writeVirtualFrom_projects
  · intro self current
    rw [translateAfresh, translate_session]
  · intro self physical chunk
    rfl

/-- The final clearing of the cache changes neither memory nor outcome. -/
theorem writeVirtual_eq (self : VmiSession σ) (translator : AddressTranslator)
    (root : TranslationRoot) (address : Gva) (data : List UInt8)
    (exposed : Session.memoryWrite self.session = .ok ()) :
    let loop := writeVirtualFrom
      (fun self current => self.translate translator root current)
      writeChunk address.raw data 0 self
    (self.writeVirtual translator root address data).2 = loop.2 ∧
      (self.writeVirtual translator root address data).1.session =
        loop.1.session := by
  intro loop
  unfold writeVirtual
  rw [exposed]
  constructor
  · change (do let _ ← loop.2; .ok ()) = loop.2
    cases loop.2 <;> rfl
  · rfl

/-- What the cache holds under a root is walked over the given memory. -/
def EntriesFrom (start : σ) (translator : AddressTranslator)
    (root : TranslationRoot) (self : VmiSession σ) : Prop :=
  ∀ page value,
    self.translations.get (translator.cacheTag, root.raw, page) = some value →
      walkPage start translator root.raw page = .ok value

theorem EntriesFrom.translate {start : σ} {translator : AddressTranslator}
    {root : TranslationRoot} {self : VmiSession σ}
    (entries : EntriesFrom start translator root self) (current : Gva)
    (unmoved : walkPage self.session translator root.raw
        (pageBase current.raw) =
      walkPage start translator root.raw (pageBase current.raw)) :
    EntriesFrom start translator root
        (self.translate translator root current).1 ∧
      (self.translate translator root current).2 =
        translateUncached self.session translator root current := by
  unfold VmiSession.translate translateUncached
  simp only
  split
  · exact ⟨entries, rfl⟩
  · split
    · rename_i value found
      rw [unmoved, entries _ value found]
      exact ⟨entries, rfl⟩
    · split
      · rename_i walked
        rw [walked]
        exact ⟨entries, rfl⟩
      · rename_i walked
        rw [walked]
        refine ⟨?_, rfl⟩
        intro page value found
        rcases TranslationCache.get_insert_some found with ⟨same, rfl⟩ | old
        · obtain ⟨_, _, rfl⟩ := same
          rw [← unmoved, walked]
        · exact entries page value old

/-- A write that moves none of the pages it comes to later leaves a coherent
cache good to its end. -/
theorem undisturbed_of_unmoved {translators : Set AddressTranslator}
    {self : VmiSession σ} (coherent : Coherent translators self)
    {translator : AddressTranslator} (known : translator ∈ translators)
    {root : TranslationRoot} {address : Gva} {data : List UInt8}
    (unmoved : ∀ step ∈ self.stepsWith
        (fun self current => self.translateAfresh translator root current)
        address data,
      walkPage step.state.session translator root.raw
          (pageBase step.current.raw) =
        walkPage self.session translator root.raw
          (pageBase step.current.raw)) :
    self.Undisturbed translator root address data := by
  have start : EntriesFrom self.session translator root self := by
    intro page value found
    exact (coherent _ _ _ value found).2 translator known rfl
  have entries : ∀ step ∈ self.stepsWith
      (fun self current => self.translateAfresh translator root current)
      address data,
      EntriesFrom self.session translator root step.state := by
    unfold stepsWith at unmoved ⊢
    cases exposed : Session.memoryWrite self.session with
    | error error => simp
    | ok done =>
        simp only [exposed] at unmoved
        refine stepsFrom_invariant start ?_ fun _ _ _ entries => entries
        intro step member entries
        exact (entries.translate _ (unmoved step member)).1
  intro step member
  rw [((entries step member).translate _ (unmoved step member)).2]

/-- With and without its cache a session writes the same bytes to the same
places, with the same memory and outcome in the end, exactly when no earlier
part of the write has moved a page that is still cached when it is reached. -/
theorem write_virtual_uncached_iff (self : VmiSession σ)
    (translator : AddressTranslator) (root : TranslationRoot) (address : Gva)
    (data : List UInt8) :
    self.Undisturbed translator root address data ↔
      (self.writeVirtual translator root address data).2 =
          (writeVirtualUncached self.session translator root address data).2 ∧
        (self.writeVirtual translator root address data).1.session =
          (writeVirtualUncached self.session translator root address data).1 ∧
        self.physicalWrites translator root address data =
          physicalWritesUncached self.session translator root address data := by
  cases exposed : Session.memoryWrite self.session with
  | error error =>
      simp [Undisturbed, stepsWith, physicalWrites, physicalWritesUncached,
        writeVirtual, writeVirtualUncached, clearTranslationCache, exposed,
        writesOf]
  | ok done =>
      have cached := self.writeVirtual_eq translator root address data exposed
      have beside := self.writeAfresh_eq translator root address.raw data
      have alike := writeVirtualFrom_alike_iff
        (fun self current => self.translate translator root current)
        (fun self current => self.translateAfresh translator root current)
        (fun _ _ => rfl) writeChunk address.raw data 0 self
      simp only at cached beside
      simp only [Undisturbed, stepsWith, physicalWrites,
        physicalWritesUncached, writeVirtualUncached, exposed, cached,
        beside]
      constructor
      · intro undisturbed
        obtain ⟨outcome, writes⟩ := alike.1.mp undisturbed
        exact ⟨outcome, congrArg session (alike.2 undisturbed), writes⟩
      · intro given
        obtain ⟨outcome, _, writes⟩ := given
        exact alike.1.mpr ⟨outcome, writes⟩

/-- Four levels of tables in one page, which the last but one of its pages
maps: its last entry maps the page as well. -/
def selfMapped : FlatMemory :=
  ⟨toLe 8 3 ++ (List.replicate 4072 0 ++ (toLe 8 3 ++ (toLe 8 3 ++ [0])))⟩

/-- The session once the last of its pages has been translated. -/
def warmed : VmiSession FlatMemory :=
  (translate ⟨selfMapped, ⟨4096, ∅, []⟩⟩ Amd64.amd64Translator ⟨0⟩
    ⟨0x1ff000⟩).1

/-- A write that moves the last page and goes on there. -/
theorem write_virtual_over_own_tables :
    let data := toLe 8 0x1003 ++ [0xff]
    Coherent {Amd64.amd64Translator} warmed ∧
      (warmed.writeVirtual Amd64.amd64Translator ⟨0⟩ ⟨0x1feff8⟩ data).2 =
        .ok () ∧
      (writeVirtualUncached warmed.session Amd64.amd64Translator ⟨0⟩
        ⟨0x1feff8⟩ data).2 = .ok () ∧
      (warmed.writeVirtual Amd64.amd64Translator ⟨0⟩ ⟨0x1feff8⟩ data).1.session ≠
        (writeVirtualUncached warmed.session Amd64.amd64Translator ⟨0⟩
          ⟨0x1feff8⟩ data).1 := by
  intro data
  refine ⟨?_, by decide +kernel, by decide +kernel, by decide +kernel⟩
  have sound : TagsSound {Amd64.amd64Translator} := by
    rintro left rfl right rfl _
    rfl
  have attached : attach selfMapped = .ok ⟨selfMapped, ⟨4096, ∅, []⟩⟩ := rfl
  exact coherent_translate sound (coherent_attach _ attached) rfl ⟨0⟩ ⟨0x1ff000⟩

end VmiSession

end LibVmi.Core
