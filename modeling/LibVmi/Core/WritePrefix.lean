import LibVmi.Core.VirtualBytes

namespace LibVmi.Core

open Data Arch

/-! What a virtual write stores, and where, in terms of single bytes. -/

/-- A backend over bytes, each of whose writes stores all of its data or
none. -/
structure Backend {σ : Type} [Session σ]
    (contents : σ → UInt64 → Option UInt8) : Prop where
  reads : ∀ session memory, Session.memory session = .ok memory →
    HoldsBytes memory (contents session)
  stores : ∀ session address data next,
    Session.write session address data = (next, .ok ()) →
      address.raw.toNat + data.length ≤ 2 ^ 64 ∧
        contents next = storeAll (contents session)
          ((wordsFrom address.raw.toNat data.length).zip data)
  keeps : ∀ session address data next error,
    Session.write session address data = (next, .error error) →
      contents next = contents session

/-- Over any memory that holds the same bytes in the tables, the walk of the
page finds the same. -/
def WalkUses (translator : AddressTranslator) (root page : UInt64)
    (contents : UInt64 → Option UInt8) (tables : Set UInt64) : Prop :=
  ∀ memory other contents', HoldsBytes memory contents →
    HoldsBytes other contents' →
    (∀ address ∈ tables, contents' address = contents address) →
      ∀ found, translator.translate other ⟨root⟩ ⟨page⟩ = .ok found ↔
        translator.translate memory ⟨root⟩ ⟨page⟩ = .ok found

theorem ByteStore.backend : Backend ByteStore.contents where
  reads := by
    intro store memory exposed
    rw [← Except.ok.inj exposed]
    exact store.holdsBytes
  stores := by
    intro store address data next written
    change store.write address data = _ at written
    unfold ByteStore.write at written
    split at written
    · rename_i buffer taken
      rw [Prod.mk.injEq] at written
      obtain ⟨rfl, _⟩ := written
      refine ⟨?_, rfl⟩
      cases data with
      | nil => exact address.raw.toNat_lt.le
      | cons first rest =>
          obtain ⟨value, held⟩ := readRange_exists_iff.mp ⟨buffer, taken⟩
            rest.length (Nat.lt_succ_self _)
          obtain ⟨word, wordEq, _⟩ := atAddress_eq_some.mp held
          have bound := word.toNat_lt
          rw [List.length_cons]
          omega
    · rw [Prod.mk.injEq] at written
      obtain ⟨_, failed⟩ := written
      contradiction
  keeps := by
    intro store address data next error written
    change store.write address data = _ at written
    unfold ByteStore.write at written
    split at written
    · rw [Prod.mk.injEq] at written
      obtain ⟨_, stored⟩ := written
      contradiction
    · rw [Prod.mk.injEq] at written
      rw [← written.1]

theorem singleFrame_walkUses (root page : UInt64)
    (contents : UInt64 → Option UInt8) :
    WalkUses VmiSession.singleFrame root page contents {root} := by
  intro memory other contents' holds holdsOther same found
  have range : readRange (atAddress contents') root.toNat 1 =
      readRange (atAddress contents) root.toNat 1 := by
    apply readRange_congr
    intro index below
    rw [show index = 0 by omega, Nat.add_zero, atAddress_toNat _ rfl,
      atAddress_toNat _ rfl]
    exact same root rfl
  have room : 1 < 2 ^ 63 := by decide
  simp only [VmiSession.singleFrame, readBytes_of_room _ _ room, bind_eq_ok,
    holds ⟨root⟩ 1, holdsOther ⟨root⟩ 1, range]

section Tables

variable {translator : AddressTranslator} {memory other : MemoryAccess}
  {contents contents' : UInt64 → Option UInt8}

/-- The bytes of the slots that a radix walk looks into. -/
def tableBytes (form : WalkForm translator) (memory : MemoryAccess)
    (root page : UInt64) : Set UInt64 :=
  {byte | ∃ visit ∈ RadixWalk.visits (fetchEntry memory) form.size page.toNat
      form.levels (form.rootTable ⟨root⟩),
    ∃ offset < 8, byte.toNat =
      (UInt64.ofNat (visit.1.toNat + visit.2 * 8)).toNat + offset}

theorem entryAt_congr (holds : HoldsBytes memory contents)
    (holdsOther : HoldsBytes other contents') {address : Gpa}
    (same : ∀ offset < 8, ∀ byte : UInt64,
      byte.toNat = address.raw.toNat + offset → contents' byte = contents byte)
    {entry : UInt64} :
    EntryAt memory address entry ↔ EntryAt other address entry := by
  have bytes : ∀ memory, EntryAt memory address entry ↔
      ∃ out, memory.bytes address 8 = .ok out ∧
        entry.toNat = fromLe out := by
    intro memory
    unfold EntryAt MemoryAccess.bytes
    cases memory.readInto address 8 <;> simp [pure, Except.pure]
  have range : readRange (atAddress contents) address.raw.toNat 8 =
      readRange (atAddress contents') address.raw.toNat 8 := by
    apply readRange_congr
    intro offset below
    by_cases inside : address.raw.toNat + offset < 2 ^ 64
    · have byteEq : (UInt64.ofNat (address.raw.toNat + offset)).toNat =
          address.raw.toNat + offset :=
        UInt64.toNat_ofNat_of_lt' inside
      rw [atAddress_toNat _ byteEq, atAddress_toNat _ byteEq,
        same offset below _ byteEq]
    · rw [atAddress_of_le _ (Nat.not_lt.mp inside),
        atAddress_of_le _ (Nat.not_lt.mp inside)]
  simp only [bytes, holds address 8, holdsOther address 8, range]

theorem translate_congr (form : WalkForm translator) {root : TranslationRoot}
    {va : Gva}
    (same : ∀ visit ∈ RadixWalk.visits (fetchEntry memory) form.size
        va.raw.toNat form.levels (form.rootTable root), ∀ found,
      fetchEntry memory visit.1 visit.2 = .ok found ↔
        fetchEntry other visit.1 visit.2 = .ok found)
    {found : Translation} :
    translator.translate memory root va = .ok found ↔
      translator.translate other root va = .ok found := by
  by_cases canonical : SignExtended va.raw form.bits.toNat
  · have resolved : ∀ leaf,
        RadixWalk.resolve (fetchEntry memory) form.size form.exhausted
            va.raw.toNat form.levels (form.rootTable root) = .ok leaf ↔
          RadixWalk.resolve (fetchEntry other) form.size form.exhausted
            va.raw.toNat form.levels (form.rootTable root) = .ok leaf :=
      fun leaf => RadixWalk.resolve_fetch_congr same
    rw [form.accepted memory root va canonical,
      form.accepted other root va canonical]
    revert resolved
    generalize RadixWalk.resolve (fetchEntry memory) form.size form.exhausted
      va.raw.toNat form.levels (form.rootTable root) = first
    generalize RadixWalk.resolve (fetchEntry other) form.size form.exhausted
      va.raw.toNat form.levels (form.rootTable root) = second
    intro resolved
    cases first with
    | ok leaf => rw [(resolved leaf).mp rfl]
    | error fault =>
        cases second with
        | ok leaf => cases (resolved leaf).mpr rfl
        | error fault => simp [conclude]
  · simp [form.rejected _ root va canonical]

/-- A radix walk uses the tables that it looks into, and no other memory. -/
theorem walkUses_tableBytes (form : WalkForm translator)
    (holds : HoldsBytes memory contents) (root page : UInt64) :
    WalkUses translator root page contents
      (tableBytes form memory root page) := by
  intro first second contents' holdsFirst holdsSecond same found
  have agree : ∀ {memory' : MemoryAccess} {values : UInt64 → Option UInt8},
      HoldsBytes memory' values →
      (∀ byte ∈ tableBytes form memory root page,
        values byte = contents byte) →
      (translator.translate memory ⟨root⟩ ⟨page⟩ = .ok found ↔
        translator.translate memory' ⟨root⟩ ⟨page⟩ = .ok found) := by
    intro memory' values holds' same'
    apply translate_congr form
    intro visit visited entry
    rw [fetchEntry_eq_ok, fetchEntry_eq_ok]
    apply entryAt_congr holds holds'
    intro offset below byte byteEq
    exact same' byte ⟨visit, visited, offset, below, byteEq⟩
  exact (agree holdsSecond same).symm.trans
    (agree holdsFirst fun _ _ => rfl)

end Tables

namespace VmiSession

variable {σ : Type} [Session σ]

/-- One of the writes that the backend has carried out stored at the byte. -/
def WritesByte (self : VmiSession σ) (translator : AddressTranslator)
    (root : TranslationRoot) (address : Gva) (data : List UInt8)
    (byte : UInt64) : Prop :=
  ∃ step ∈ self.stepsWith
      (fun self current => self.translate translator root current) address data,
    ∃ physical chunk, step.written = some (physical, chunk) ∧
      (Session.write step.state.session physical chunk).2 = .ok () ∧
      ∃ offset < chunk.length, byte.toNat = physical.raw.toNat + offset

/-- The memory is that of the start with the first bytes of the data stored at
their translations, one after the other. -/
def StoresPrefix (self : VmiSession σ) (translator : AddressTranslator)
    (root : TranslationRoot) (contents : σ → UInt64 → Option UInt8)
    (address : Gva) (data : List UInt8) (count : Nat)
    (finish : UInt64 → Option UInt8) : Prop :=
  ∃ targets : List UInt64, targets.length = count ∧
    (∀ (index : Nat) (target : UInt64), targets[index]? = some target →
      ∃ (current : UInt64) (found : Translation),
        current.toNat = address.raw.toNat + index ∧
        (self.translate translator root ⟨current⟩).2 = .ok found ∧
        found.physicalAddress.raw = target) ∧
    finish = storeAll (contents self.session) (targets.zip (data.take count))

/-- Nothing yet, or all up to the end of a page. -/
def PageEnd (address : Gva) (data : List UInt8) (count : Nat) : Prop :=
  count = 0 ∨ (count < data.length ∧ (address.raw.toNat + count) % 4096 = 0)

section Prefix

variable {self state : VmiSession σ} {translator : AddressTranslator}
  {root : TranslationRoot} {contents : σ → UInt64 → Option UInt8}
  {address : Gva} {data : List UInt8} {tables : Set UInt64}

theorem storesPrefix_zero (data : List UInt8) :
    self.StoresPrefix translator root contents address data 0
      (contents self.session) :=
  ⟨[], rfl, by simp, rfl⟩

/-- A chunk that the backend stores goes where its bytes translate to. -/
theorem StoresPrefix.extend
    (entries : EntriesFrom self.session translator root self)
    {completed length : Nat} {middle finish : UInt64 → Option UInt8}
    (stored : self.StoresPrefix translator root contents address data completed
      middle)
    {current : UInt64} {found : Translation}
    (currentEq : current.toNat = address.raw.toNat + completed)
    (translated : translateUncached self.session translator root ⟨current⟩ =
      .ok found)
    (near : current.toNat % 4096 + length ≤ 4096)
    (within : completed + length ≤ data.length)
    (fits : found.physicalAddress.raw.toNat + length ≤ 2 ^ 64)
    (finishEq : finish = storeAll middle
      ((wordsFrom found.physicalAddress.raw.toNat length).zip
        ((data.drop completed).take length))) :
    self.StoresPrefix translator root contents address data
      (completed + length) finish := by
  obtain ⟨targets, lengthEq, each, rfl⟩ := stored
  refine ⟨targets ++ wordsFrom found.physicalAddress.raw.toNat length, ?_, ?_,
    ?_⟩
  · rw [List.length_append, wordsFrom_length, lengthEq]
  · intro index target held
    by_cases earlier : index < targets.length
    · rw [List.getElem?_append_left earlier] at held
      exact each index target held
    · rw [List.getElem?_append_right (Nat.not_lt.mp earlier)] at held
      obtain ⟨below, targetEq⟩ := wordsFrom_getElem? held fits
      have bound := current.toNat_lt
      have nextEq : (UInt64.ofNat (address.raw.toNat + index)).toNat =
          address.raw.toNat + index :=
        UInt64.toNat_ofNat_of_lt' (by simp only [UInt64.size]; omega)
      refine ⟨_, ⟨⟨target⟩, found.pageSize⟩, nextEq, ?_, rfl⟩
      have moved : (UInt64.ofNat (address.raw.toNat + index)).toNat =
          current.toNat + (index - targets.length) := by
        omega
      rw [(entries.translate _ rfl).2]
      exact (translateUncached_near translated moved (by omega) _).mpr
        ⟨targetEq, rfl⟩
  · rw [finishEq, ← storeAll_append, List.take_add, List.zip_append]
    rw [lengthEq, List.length_take]
    omega

/-! The loop, over a cache that only ever holds walks of the memory of the
start. -/

theorem EntriesFrom.translate_ok {start : σ} {current : UInt64}
    {found : Translation} (entries : EntriesFrom start translator root state)
    (settled : ∀ value,
      walkPage state.session translator root.raw (pageBase current) =
          .ok value →
        walkPage start translator root.raw (pageBase current) = .ok value)
    (translated : (state.translate translator root ⟨current⟩).2 = .ok found) :
    EntriesFrom start translator root
        (state.translate translator root ⟨current⟩).1 ∧
      translateUncached start translator root ⟨current⟩ = .ok found := by
  unfold VmiSession.translate at translated ⊢
  unfold translateUncached
  simp only at translated ⊢
  split at translated
  · contradiction
  · split at translated
    · rename_i value cached
      rw [entries _ value cached]
      exact ⟨entries, translated⟩
    · split at translated
      · contradiction
      · rename_i value walked
        have walkedFirst := settled value walked
        rw [walkedFirst]
        refine ⟨?_, translated⟩
        intro page entry held
        rcases TranslationCache.get_insert_some held with ⟨same, rfl⟩ | old
        · obtain ⟨_, _, rfl⟩ := same
          exact walkedFirst
        · exact entries page entry old

/-- The walks that a write from the address on asks for use these tables. -/
def ConsultsTables (self : VmiSession σ) (translator : AddressTranslator)
    (root : TranslationRoot) (contents : σ → UInt64 → Option UInt8)
    (address : Gva) (data : List UInt8) (tables : Set UInt64) : Prop :=
  ∀ index < data.length, ∀ current : UInt64,
    current.toNat = address.raw.toNat + index →
      WalkUses translator root.raw (pageBase current) (contents self.session)
        tables

omit [Session σ] in
/-- A radix walk consults the tables that it looks into for the range. -/
theorem consultsTables_of_walkForm (form : WalkForm translator)
    {memory : MemoryAccess}
    (holds : HoldsBytes memory (contents self.session)) :
    self.ConsultsTables translator root contents address data
      {byte | ∃ index < data.length, ∃ current : UInt64,
        current.toNat = address.raw.toNat + index ∧
          byte ∈ tableBytes form memory root.raw (pageBase current)} := by
  intro index below current currentEq first second contents' holdsFirst
    holdsSecond same found
  apply walkUses_tableBytes form holds root.raw (pageBase current) first second
    contents' holdsFirst holdsSecond
  intro byte member
  exact same byte ⟨index, below, current, currentEq, member⟩

/-- How far a write has come. -/
structure Progress (start : VmiSession σ) (translator : AddressTranslator)
    (root : TranslationRoot) (contents : σ → UInt64 → Option UInt8)
    (address : Gva) (data : List UInt8) (tables : Set UInt64)
    (completed : Nat) (state : VmiSession σ) : Prop where
  entries : EntriesFrom start.session translator root state
  stored : start.StoresPrefix translator root contents address data completed
    (contents state.session)
  kept : ∀ byte ∈ tables, contents state.session byte =
    contents start.session byte
  exposed : state.session = start.session ∨
    ∃ memory, Session.memory start.session = .ok memory
  boundary : completed = 0 ∨ completed = data.length ∨
    (address.raw.toNat + completed) % 4096 = 0
  within : completed ≤ data.length

namespace Progress

variable {completed chunkEnd : Nat} {current : UInt64} {found : Translation}

theorem settled (backend : Backend contents)
    (consults : self.ConsultsTables translator root contents address data
      tables)
    (progress : self.Progress translator root contents address data tables
      completed state)
    (unfinished : completed < data.length)
    (currentEq : current.toNat = address.raw.toNat + completed)
    {value : Translation}
    (walked : walkPage state.session translator root.raw (pageBase current) =
      .ok value) :
    walkPage self.session translator root.raw (pageBase current) =
      .ok value := by
  rcases progress.exposed with same | ⟨memory, exposed⟩
  · rw [← same]
    exact walked
  · unfold walkPage at walked ⊢
    obtain ⟨later, laterExposed, walked⟩ := bind_eq_ok.mp walked
    rw [exposed, ok_bind]
    exact (consults completed unfinished current currentEq memory later _
      (backend.reads _ _ exposed) (backend.reads _ _ laterExposed)
      progress.kept value).mp walked

theorem translate (backend : Backend contents)
    (consults : self.ConsultsTables translator root contents address data
      tables)
    (progress : self.Progress translator root contents address data tables
      completed state)
    (unfinished : completed < data.length)
    (currentEq : current.toNat = address.raw.toNat + completed)
    (translated : (state.translate translator root ⟨current⟩).2 = .ok found) :
    self.Progress translator root contents address data tables completed
        (state.translate translator root ⟨current⟩).1 ∧
      translateUncached self.session translator root ⟨current⟩ = .ok found := by
  obtain ⟨entries, translatedFirst⟩ := progress.entries.translate_ok
    (fun value => progress.settled backend consults unfinished currentEq)
    translated
  refine ⟨⟨entries, ?_, ?_, ?_, progress.boundary, progress.within⟩,
    translatedFirst⟩
  · rw [translate_session]
    exact progress.stored
  · rw [translate_session]
    exact progress.kept
  · rw [translate_session]
    exact progress.exposed

/-- A chunk that is stored away from the tables. -/
theorem write (backend : Backend contents)
    (start : EntriesFrom self.session translator root self)
    (progress : self.Progress translator root contents address data tables
      completed state)
    (translated : translateUncached self.session translator root ⟨current⟩ =
      .ok found)
    (unfinished : completed < data.length)
    (currentEq : current.toNat = address.raw.toNat + completed)
    (chunkEq : chunkEnd = completed +
      min (4096 - current.toNat % 4096) (data.length - completed))
    {next : σ}
    (written : Session.write state.session found.physicalAddress
      ((data.drop completed).take (chunkEnd - completed)) = (next, .ok ()))
    (apart : ∀ offset < chunkEnd - completed, ∀ byte : UInt64,
      byte.toNat = found.physicalAddress.raw.toNat + offset →
        byte ∉ tables) :
    self.Progress translator root contents address data tables chunkEnd
      { state with session := next } := by
  obtain ⟨fits, nextEq⟩ := backend.stores _ _ _ _ written
  have lengthEq : ((data.drop completed).take (chunkEnd - completed)).length =
      chunkEnd - completed := by
    rw [List.length_take, List.length_drop]
    omega
  rw [lengthEq] at fits nextEq
  obtain ⟨value, walked, _⟩ := translateUncached_eq_ok.mp translated
  obtain ⟨memory, exposed, _⟩ := bind_eq_ok.mp walked
  have ends : chunkEnd = completed + (chunkEnd - completed) := by omega
  refine ⟨progress.entries, ?_, ?_, .inr ⟨memory, exposed⟩, by omega, by omega⟩
  · rw [ends]
    exact progress.stored.extend start currentEq translated (by omega)
      (by omega) fits nextEq
  · intro byte member
    have unstored : contents next byte = contents state.session byte := by
      rw [nextEq]
      apply storeAll_apart
      intro store inStores same
      obtain ⟨index, held⟩ := List.mem_iff_getElem?.mp
        (List.of_mem_zip (show (store.1, store.2) ∈ _ from inStores)).1
      obtain ⟨below, storeEq⟩ := wordsFrom_getElem? held fits
      exact apart index below store.1 storeEq (same ▸ member)
    rw [unstored]
    exact progress.kept byte member

theorem pageEnd
    (progress : self.Progress translator root contents address data tables
      completed state)
    (unfinished : completed < data.length) : PageEnd address data completed := by
  rcases progress.boundary with start | stop | aligned
  · exact .inl start
  · omega
  · exact .inr ⟨unfinished, aligned⟩

end Progress

/-- A write that the backend carries out stores at none of the tables. -/
def StoresApart (tables : Set UInt64) (step : WriteStep (VmiSession σ)) :
    Prop :=
  ∀ physical chunk, step.written = some (physical, chunk) →
    (Session.write step.state.session physical chunk).2 = .ok () →
      ∀ offset < chunk.length, ∀ byte : UInt64,
        byte.toNat = physical.raw.toNat + offset → byte ∉ tables

/-- All of the data is stored, or all up to the end of a page. -/
def EndsInPrefix (start : VmiSession σ) (translator : AddressTranslator)
    (root : TranslationRoot) (contents : σ → UInt64 → Option UInt8)
    (address : Gva) (data : List UInt8) (session : σ) (result : Result Unit) :
    Prop :=
  (result = .ok () →
    start.StoresPrefix translator root contents address data data.length
      (contents session)) ∧
  ∀ error, result = .error error →
    ∃ count, PageEnd address data count ∧
      start.StoresPrefix translator root contents address data count
        (contents session)

theorem Progress.endsInPrefix {completed : Nat}
    (progress : self.Progress translator root contents address data tables
      completed state)
    (unfinished : completed < data.length) (error : VmiError) :
    self.EndsInPrefix translator root contents address data state.session
      (.error error) :=
  ⟨fun finished => by contradiction,
    fun _ _ => ⟨completed, progress.pageEnd unfinished, progress.stored⟩⟩

theorem writeVirtualFrom_prefix (backend : Backend contents)
    (start : EntriesFrom self.session translator root self)
    (consults : self.ConsultsTables translator root contents address data
      tables)
    (fits : data.length < 2 ^ 64) {completed : Nat}
    (progress : self.Progress translator root contents address data tables
      completed state)
    (apart : ∀ step ∈ stepsFrom
        (fun self current => self.translate translator root current)
        writeChunk address.raw data completed state,
      StoresApart tables step) :
    let final := writeVirtualFrom
      (fun self current => self.translate translator root current)
      writeChunk address.raw data completed state
    self.EndsInPrefix translator root contents address data final.1.session
      final.2 := by
  intro final
  induction distance : data.length - completed using Nat.strong_induction_on
    generalizing completed state with
  | _ distance induction =>
      subst distance
      simp only [final] at induction ⊢
      rw [stepsFrom_eq] at apart
      rw [writeVirtualFrom_eq]
      by_cases unfinished : completed < data.length
      · rw [if_pos unfinished] at apart ⊢
        cases planned : chunkAt writeErrors address.raw data.length completed with
        | error error => exact progress.endsInPrefix unfinished error
        | ok chunk =>
            obtain ⟨current, chunkEnd⟩ := chunk
            obtain ⟨currentEq, chunkEq⟩ :=
              (chunkAt_eq_ok unfinished fits).mp planned
            have sameSession :=
              translate_session state translator root ⟨current⟩
            have advance : ∀ found,
                (state.translate translator root ⟨current⟩).2 = .ok found →
                self.Progress translator root contents address data tables
                    completed (state.translate translator root ⟨current⟩).1 ∧
                  translateUncached self.session translator root ⟨current⟩ =
                    .ok found :=
              fun _ => progress.translate backend consults unfinished currentEq
            simp only [planned] at apart ⊢
            revert sameSession advance apart
            cases state.translate translator root ⟨current⟩ with
            | mk next result =>
            intro sameSession advance apart
            simp only at sameSession
            cases result with
            | error error =>
                rw [sameSession]
                exact progress.endsInPrefix unfinished error
            | ok found =>
                obtain ⟨nextProgress, translated⟩ := advance found rfl
                simp only [List.forall_mem_cons] at apart ⊢
                cases written : Session.write next.session
                    found.physicalAddress
                    ((data.drop completed).take (chunkEnd - completed)) with
                | mk after result =>
                have wrote : next.writeChunk found.physicalAddress
                    ((data.drop completed).take (chunkEnd - completed)) =
                      ({ next with session := after }, result) := by
                  rw [writeChunk, written]
                rw [wrote] at apart ⊢
                cases result with
                | error error =>
                    simp only
                    have unchanged := backend.keeps _ _ _ _ _ written
                    have ended := nextProgress.endsInPrefix unfinished error
                    rwa [EndsInPrefix, ← unchanged] at ended
                | ok done =>
                    have lengthEq : ((data.drop completed).take
                        (chunkEnd - completed)).length =
                          chunkEnd - completed := by
                      rw [List.length_take, List.length_drop]
                      omega
                    have away := apart.1 found.physicalAddress _ rfl (by
                      rw [← sameSession, written])
                    rw [lengthEq] at away
                    exact induction (data.length - chunkEnd) (by omega)
                      (nextProgress.write backend start translated unfinished
                        currentEq chunkEq written away) apart.2 rfl
      · rw [if_neg unfinished]
        have finished : completed = data.length :=
          Nat.le_antisymm progress.within (Nat.not_lt.mp unfinished)
        refine ⟨fun _ => ?_, fun _ failed => by contradiction⟩
        rw [← finished]
        exact progress.stored

end Prefix

/-- A virtual write stores a run of its data from the beginning, all of it or
up to the end of a page, and leaves no translation behind. -/
theorem write_virtual_prefix {contents : σ → UInt64 → Option UInt8}
    (backend : Backend contents) {translators : Set AddressTranslator}
    {self : VmiSession σ} (coherent : Coherent translators self)
    {translator : AddressTranslator} (known : translator ∈ translators)
    (root : TranslationRoot) (address : Gva) (data : List UInt8)
    (fits : data.length < 2 ^ 64) (tables : Set UInt64)
    (consults : self.ConsultsTables translator root contents address data
      tables)
    (untouched : ∀ byte,
      self.WritesByte translator root address data byte → byte ∉ tables) :
    let final := self.writeVirtual translator root address data
    self.EndsInPrefix translator root contents address data final.1.session
        final.2 ∧
      final.1.translations.entries = ∅ ∧ final.1.translations.order = [] := by
  intro final
  have start := coherent.entriesFrom known root
  have progress : self.Progress translator root contents address data tables 0
      self :=
    ⟨start, storesPrefix_zero data, fun _ _ => rfl, .inl rfl, .inl rfl,
      Nat.zero_le _⟩
  refine ⟨?_, rfl, rfl⟩
  cases exposed : Session.memoryWrite self.session with
  | error error =>
      have failed : final = (self.clearTranslationCache.1, .error error) := by
        simp only [final, writeVirtual, exposed]
        rfl
      rw [failed]
      exact ⟨fun finished => by contradiction,
        fun _ _ => ⟨0, .inl rfl, progress.stored⟩⟩
  | ok done =>
      obtain ⟨outcome, session⟩ :=
        self.writeVirtual_eq translator root address data exposed
      rw [show final.2 = _ from outcome, show final.1.session = _ from session]
      apply writeVirtualFrom_prefix backend start consults fits progress
      intro step member physical chunk written stored offset below byte byteEq
      apply untouched
      refine ⟨step, ?_, physical, chunk, written, stored, offset, below, byteEq⟩
      rw [stepsWith, exposed]
      exact member

theorem WritesByte.physical {self : VmiSession σ}
    {translator : AddressTranslator} {root : TranslationRoot} {address : Gva}
    {data : List UInt8} {byte : UInt64}
    (writes : self.WritesByte translator root address data byte) :
    ∃ write ∈ self.physicalWrites translator root address data,
      ∃ offset < write.2.length, byte.toNat = write.1.raw.toNat + offset := by
  obtain ⟨step, member, physical, chunk, written, _, offset, below, byteEq⟩ :=
    writes
  exact ⟨(physical, chunk), List.mem_filterMap.mpr ⟨step, member, written⟩,
    offset, below, byteEq⟩

/-- One frame, and the table of a single frame that leads every page to it. -/
def aliasedFrame : ByteStore :=
  ⟨fun address =>
    if address = 0 then some 5
    else if 0x5000 ≤ address ∧ address < 0x6000 then some 0 else none⟩

theorem write_virtual_prefix_aliased :
    let self : VmiSession ByteStore := ⟨aliasedFrame, ⟨4096, ∅, []⟩⟩
    let final := self.writeVirtual singleFrame ⟨0⟩ ⟨0x1fff⟩ [1, 2]
    final.2 = .ok () ∧
      self.StoresPrefix singleFrame ⟨0⟩ ByteStore.contents ⟨0x1fff⟩ [1, 2] 2
        final.1.session.contents ∧
      final.1.translations.order = [] := by
  intro self final
  have attached : attach aliasedFrame = .ok self := rfl
  have finished : final.2 = .ok () := by
    decide +kernel
  have writes : self.physicalWrites singleFrame ⟨0⟩ ⟨0x1fff⟩ [1, 2] =
      [(⟨0x5fff⟩, [1]), (⟨0x5000⟩, [2])] := by
    decide +kernel
  have general := write_virtual_prefix ByteStore.backend
    (coherent_attach {singleFrame} attached) rfl ⟨0⟩ ⟨0x1fff⟩ [1, 2]
    (by decide) {0} (fun _ _ current _ => singleFrame_walkUses 0 _ _)
    (by
      intro byte written table
      obtain ⟨write, member, offset, _, byteEq⟩ := written.physical
      rw [writes] at member
      rw [Set.mem_singleton_iff.mp table] at byteEq
      simp only [List.mem_cons, List.not_mem_nil, or_false] at member
      rcases member with rfl | rfl
      · simp only [UInt64.reduceToNat] at byteEq
        omega
      · simp only [UInt64.reduceToNat] at byteEq
        omega)
  exact ⟨finished, general.1.1 finished, general.2.2⟩

end VmiSession

end LibVmi.Core
