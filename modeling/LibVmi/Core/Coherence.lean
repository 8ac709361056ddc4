import LibVmi.Arch.Aarch64
import LibVmi.Arch.Amd64
import LibVmi.Core.Session
import Mathlib.Data.Set.Insert

namespace LibVmi.Core

open Data Arch

/-! Two translations that agree step by step drive the read loop alike. -/

theorem readVirtualFrom_simulates {τ τ' : Type}
    (first : τ → Gva → τ × Result Translation)
    (second : τ' → Gva → τ' × Result Translation)
    (related : τ → τ' → Prop)
    (step : ∀ left right current, related left right →
      related (first left current).1 (second right current).1 ∧
        (first left current).2 = (second right current).2)
    (memory : MemoryAccess) (address : UInt64) (length completed : Nat)
    {left : τ} {right : τ'} (start : related left right) :
    related
        (readVirtualFrom first memory address length completed left).1
        (readVirtualFrom second memory address length completed right).1 ∧
      (readVirtualFrom first memory address length completed left).2 =
        (readVirtualFrom second memory address length completed right).2 := by
  induction distance : length - completed using Nat.strong_induction_on
    generalizing completed left right with
  | _ distance induction =>
      subst distance
      rw [readVirtualFrom, readVirtualFrom]
      by_cases unfinished : completed < length
      · simp only [unfinished, dite_true]
        split
        · exact ⟨start, rfl⟩
        · rename_i current chunkEnd planned
          have progress := chunkAt_progress unfinished planned
          obtain ⟨nextRelated, sameResult⟩ := step left right ⟨current⟩ start
          generalize first left ⟨current⟩ = leftStep at *
          generalize second right ⟨current⟩ = rightStep at *
          obtain ⟨leftNext, leftResult⟩ := leftStep
          obtain ⟨rightNext, rightResult⟩ := rightStep
          simp only at nextRelated sameResult
          subst sameResult
          cases leftResult with
          | error error => exact ⟨nextRelated, rfl⟩
          | ok translation =>
              simp only
              cases memory.readInto translation.physicalAddress
                  (chunkEnd - completed) with
              | error error => exact ⟨nextRelated, rfl⟩
              | ok chunk =>
                  simp only
                  have rest := induction (length - chunkEnd) (by omega) chunkEnd
                    nextRelated rfl
                  revert rest
                  generalize readVirtualFrom first memory address length
                    chunkEnd leftNext = leftRest
                  generalize readVirtualFrom second memory address length
                    chunkEnd rightNext = rightRest
                  obtain ⟨leftFinal, leftBytes⟩ := leftRest
                  obtain ⟨rightFinal, rightBytes⟩ := rightRest
                  intro given
                  obtain ⟨finalRelated, sameBytes⟩ := given
                  simp only at finalRelated sameBytes
                  subst sameBytes
                  cases leftBytes <;> exact ⟨finalRelated, rfl⟩
      · simp only [unfinished, dite_false]
        exact ⟨start, trivial⟩

namespace VmiSession

variable {σ : Type} [Session σ]

/-- Translators that share a tag behave alike. -/
def TagsSound (translators : Set AddressTranslator) : Prop :=
  ∀ left ∈ translators, ∀ right ∈ translators,
    left.cacheTag = right.cacheTag → left.translate = right.translate

/-- Every cached entry is the walk of its page over the current memory, for
whichever of the translators owns its tag. -/
def Coherent (translators : Set AddressTranslator) (self : VmiSession σ) :
    Prop :=
  ∀ tag root page value,
    self.translations.get (tag, root, page) = some value →
      (∃ translator ∈ translators, translator.cacheTag = tag) ∧
        ∀ translator ∈ translators, translator.cacheTag = tag →
          walkPage self.session translator root page = .ok value

theorem checkedSub_pageBase (address : UInt64) :
    ∃ offset, checkedSub address (pageBase address) = some offset := by
  have baseBound : (pageBase address).toNat ≤ address.toNat := by
    rw [pageBase_toNat]
    omega
  exact ⟨_, if_pos baseBound⟩

theorem translate_session (self : VmiSession σ)
    (translator : AddressTranslator) (root : TranslationRoot) (address : Gva) :
    (self.translate translator root address).1.session = self.session := by
  unfold translate
  simp only
  split
  · rfl
  · split
    · rfl
    · split <;> rfl

theorem walkPage_congr {translators : Set AddressTranslator}
    (sound : TagsSound translators) {left right : AddressTranslator}
    (inLeft : left ∈ translators) (inRight : right ∈ translators)
    (sameTag : left.cacheTag = right.cacheTag) (session : σ)
    (root page : UInt64) :
    walkPage session left root page = walkPage session right root page := by
  unfold walkPage
  rw [sound left inLeft right inRight sameTag]

/-- Inserting what the current memory walks to keeps a cache coherent. -/
theorem coherent_insert {translators : Set AddressTranslator}
    (sound : TagsSound translators) {self : VmiSession σ}
    (coherent : Coherent translators self) {translator : AddressTranslator}
    (known : translator ∈ translators) {root page : UInt64}
    {value : Translation}
    (walked : walkPage self.session translator root page = .ok value) :
    Coherent translators { self with
      translations :=
        self.translations.insert (translator.cacheTag, root, page) value } := by
  intro tag entryRoot entryPage entry found
  rcases TranslationCache.get_insert_some found with ⟨keyEq, rfl⟩ | old
  · simp only [Prod.mk.injEq] at keyEq
    obtain ⟨rfl, rfl, rfl⟩ := keyEq
    refine ⟨⟨translator, known, rfl⟩, ?_⟩
    intro other inOther sameTag
    rw [walkPage_congr sound inOther known sameTag]
    exact walked
  · exact coherent tag entryRoot entryPage entry old

theorem coherent_translate {translators : Set AddressTranslator}
    (sound : TagsSound translators) {self : VmiSession σ}
    (coherent : Coherent translators self) {translator : AddressTranslator}
    (known : translator ∈ translators) (root : TranslationRoot)
    (address : Gva) :
    Coherent translators (self.translate translator root address).1 := by
  unfold translate
  simp only
  split
  · exact coherent
  · split
    · exact coherent
    · split
      · exact coherent
      · rename_i walked
        exact coherent_insert sound coherent known walked

/-- A coherent cache answers with what the walk would have given. -/
theorem translate_eq_uncached {translators : Set AddressTranslator}
    {self : VmiSession σ} (coherent : Coherent translators self)
    {translator : AddressTranslator} (known : translator ∈ translators)
    (root : TranslationRoot) (address : Gva) :
    (self.translate translator root address).2 =
      translateUncached self.session translator root address := by
  unfold translate translateUncached
  simp only
  split
  · rfl
  · split
    · rename_i value found
      rw [(coherent _ _ _ value found).2 translator known rfl]
      rfl
    · split
      · rename_i walked
        rw [walked]
        rfl
      · rename_i walked
        rw [walked]
        rfl

theorem readVirtual_uncached {translators : Set AddressTranslator}
    (sound : TagsSound translators) {self : VmiSession σ}
    (coherent : Coherent translators self) {translator : AddressTranslator}
    (known : translator ∈ translators) (root : TranslationRoot) (address : Gva)
    (length : Nat) :
    Coherent translators
        (self.readVirtual translator root address length).1 ∧
      (self.readVirtual translator root address length).2 =
        readVirtualUncached self.session translator root address length := by
  unfold readVirtual readVirtualUncached
  cases reserveVirtual length with
  | error error => exact ⟨coherent, rfl⟩
  | ok room =>
      cases Session.memory self.session with
      | error error => exact ⟨coherent, rfl⟩
      | ok memory =>
          simp only [ok_bind]
          -- The cached state stays coherent over the one unchanging session that
          -- the uncached loop threads.
          have loops := readVirtualFrom_simulates
            (fun self current => self.translate translator root current)
            (fun session current =>
              (session, translateUncached session translator root current))
            (fun (self : VmiSession σ) session =>
              Coherent translators self ∧ self.session = session)
            (by
              rintro left right current ⟨leftCoherent, rfl⟩
              exact ⟨⟨coherent_translate sound leftCoherent known root current,
                translate_session left translator root current⟩,
                translate_eq_uncached leftCoherent known root current⟩)
            memory address.raw length 0 ⟨coherent, rfl⟩
          exact ⟨loops.1.1, loops.2⟩

theorem coherent_of_cleared {translators : Set AddressTranslator}
    (self : VmiSession σ) :
    Coherent translators self.clearTranslationCache.1 := by
  intro tag root page value found
  simp [clearTranslationCache] at found

/-! Whole runs. -/

inductive Call where
  | translate (translator : AddressTranslator) (root : TranslationRoot)
      (address : Gva)
  | readBytes (address : Gpa) (length : Nat)
  | readVirtual (translator : AddressTranslator) (root : TranslationRoot)
      (address : Gva) (length : Nat)
  | writeBytes (address : Gpa) (data : List UInt8)
  | writeVirtual (translator : AddressTranslator) (root : TranslationRoot)
      (address : Gva) (data : List UInt8)
  | clearTranslationCache

/-- The state that a call leaves behind, whether it succeeds or fails. -/
def perform (self : VmiSession σ) : Call → VmiSession σ
  | .translate translator root address =>
      (self.translate translator root address).1
  | .readBytes _ _ => self
  | .readVirtual translator root address length =>
      (self.readVirtual translator root address length).1
  | .writeBytes address data => (self.writeBytes address data).1
  | .writeVirtual translator root address data =>
      (self.writeVirtual translator root address data).1
  | .clearTranslationCache => self.clearTranslationCache.1

/-- The translator that a call walks with. -/
def Call.translator? : Call → Option AddressTranslator
  | .translate translator _ _ => some translator
  | .readVirtual translator _ _ _ => some translator
  | .writeVirtual translator _ _ _ => some translator
  | _ => none

theorem coherent_writeBytes {translators : Set AddressTranslator}
    {self : VmiSession σ} (coherent : Coherent translators self) (address : Gpa)
    (data : List UInt8) :
    Coherent translators (self.writeBytes address data).1 := by
  unfold writeBytes
  split
  · exact coherent
  · exact coherent_of_cleared _

theorem coherent_writeVirtual {translators : Set AddressTranslator}
    (self : VmiSession σ) (translator : AddressTranslator)
    (root : TranslationRoot) (address : Gva) (data : List UInt8) :
    Coherent translators
      (self.writeVirtual translator root address data).1 :=
  coherent_of_cleared _

theorem coherent_perform {translators : Set AddressTranslator}
    (sound : TagsSound translators) {self : VmiSession σ}
    (coherent : Coherent translators self) {call : Call}
    (known : ∀ translator ∈ call.translator?, translator ∈ translators) :
    Coherent translators (self.perform call) := by
  cases call with
  | translate translator root address =>
      exact coherent_translate sound coherent (known translator rfl) root address
  | readBytes address length => exact coherent
  | readVirtual translator root address length =>
      exact (readVirtual_uncached sound coherent (known translator rfl) root
        address length).1
  | writeBytes address data => exact coherent_writeBytes coherent address data
  | writeVirtual translator root address data =>
      exact coherent_writeVirtual self translator root address data
  | clearTranslationCache => exact coherent_of_cleared self

theorem coherent_run {translators : Set AddressTranslator}
    (sound : TagsSound translators) {self : VmiSession σ}
    (coherent : Coherent translators self) {calls : List Call}
    (known : ∀ call ∈ calls, ∀ translator ∈ call.translator?,
      translator ∈ translators) :
    Coherent translators (calls.foldl perform self) := by
  induction calls generalizing self with
  | nil => exact coherent
  | cons call rest induction =>
      simp only [List.mem_cons, forall_eq_or_imp] at known
      exact induction (coherent_perform sound coherent known.1) known.2

theorem coherent_attach (translators : Set AddressTranslator) {session : σ}
    {self : VmiSession σ} (attached : attach session = .ok self) :
    Coherent translators self := by
  unfold attach at attached
  obtain ⟨translations, created, attached⟩ := bind_eq_ok.mp attached
  rw [← Except.ok.inj attached]
  intro tag root page value found
  rw [TranslationCache.get_new created] at found
  contradiction

/-- Over any run of calls the cache stays coherent, so that a translation or a
virtual read is what the session would return with the cache disabled. -/
theorem cache_coherent_over_runs {translators : Set AddressTranslator}
    (sound : TagsSound translators) {session : σ} {start : VmiSession σ}
    (attached : attach session = .ok start) (calls : List Call)
    (known : ∀ call ∈ calls, ∀ translator ∈ call.translator?,
      translator ∈ translators) :
    Coherent translators (calls.foldl perform start) ∧
      ∀ translator ∈ translators, ∀ root address,
        ((calls.foldl perform start).translate translator root address).2 =
            translateUncached (calls.foldl perform start).session translator
              root address ∧
          ∀ length,
            ((calls.foldl perform start).readVirtual translator root address
                length).2 =
              readVirtualUncached (calls.foldl perform start).session
                translator root address length := by
  have coherent := coherent_run sound
    (coherent_attach translators attached) known
  refine ⟨coherent, ?_⟩
  intro translator inSet root address
  refine ⟨translate_eq_uncached coherent inSet root address, ?_⟩
  intro length
  exact (readVirtual_uncached sound coherent inSet root address length).2

/-- The smallest translator: the byte at the root is the frame of every
page. -/
def singleFrame : AddressTranslator where
  cacheTag := 1
  translate := fun memory root va => do
    let entry ← LibVmi.readBytes memory ⟨root.raw⟩ 1
    return ⟨⟨UInt64.ofNat (fromLe entry) * 4096 + (va.raw &&& 0xfff)⟩, 4096⟩

theorem singleFrame_tagsSound : TagsSound {singleFrame} := by
  rintro left rfl right rfl _
  rfl

theorem cache_coherent_after_remap :
    let calls : List Call := [.translate singleFrame ⟨0⟩ ⟨0x5008⟩,
      .writeBytes ⟨0⟩ [2], .readBytes ⟨0⟩ 1, .clearTranslationCache,
      .translate singleFrame ⟨0⟩ ⟨0x5008⟩]
    let final := calls.foldl perform
      (⟨⟨[1]⟩, ⟨4096, ∅, []⟩⟩ : VmiSession FlatMemory)
    Coherent {singleFrame} final ∧
      (final.translate singleFrame ⟨0⟩ ⟨0x5010⟩).2 =
        .ok ⟨⟨0x2010⟩, 4096⟩ := by
  intro calls final
  have attached : attach (⟨[1]⟩ : FlatMemory) = .ok ⟨⟨[1]⟩, ⟨4096, ∅, []⟩⟩ :=
    rfl
  have general := cache_coherent_over_runs singleFrame_tagsSound attached calls
    (by simp [calls, Call.translator?])
  refine ⟨general.1, ?_⟩
  exact (general.2 singleFrame rfl ⟨0⟩ ⟨0x5010⟩).1.trans (by decide)

/-! Page-granular caching of a consistent mapping. -/

/-- The translators that the architecture crates export. -/
inductive Supported : AddressTranslator → Prop
  | amd64 : Supported Amd64.amd64Translator
  | amd64La57 : Supported Amd64.amd64La57Translator
  | aarch64 {granule : Aarch64.TranslationGranule} {addressBits : UInt8}
      {translator : Aarch64.Aarch64Translator}
      (accepted : Aarch64.Aarch64Translator.new granule addressBits =
        .ok translator) :
      Supported translator.toAddressTranslator

theorem Supported.walkForm {translator : AddressTranslator}
    (supported : Supported translator) : Nonempty (WalkForm translator) := by
  cases supported with
  | amd64 => exact Amd64.amd64Translator_walkForm
  | amd64La57 => exact Amd64.amd64La57Translator_walkForm
  | aarch64 accepted => exact Aarch64.Aarch64Translator.walkForm_of_new accepted

theorem Supported.consistent {translator : AddressTranslator}
    (supported : Supported translator) : MappingConsistent translator := by
  obtain ⟨form⟩ := supported.walkForm
  exact form.mappingConsistent

private theorem div_page_multiple {left right bits : Nat} (large : 12 ≤ bits)
    (samePage : left / 4096 = right / 4096) :
    left / 2 ^ bits = right / 2 ^ bits :=
  RadixWalk.div_two_pow_eq_of_le large samePage

/-- Adding the page offset to the translation of the page base gives the
translation of the address, and does not overflow. -/
theorem translate_of_base {translator : AddressTranslator}
    (consistent : MappingConsistent translator) {memory : MemoryAccess}
    {root : TranslationRoot} {va : Gva} {value : Translation}
    {offset : UInt64}
    (walked : translator.translate memory root ⟨pageBase va.raw⟩ = .ok value)
    (subtracted : checkedSub va.raw (pageBase va.raw) = some offset) :
    ∃ physical,
      checkedAdd value.physicalAddress.raw offset = some physical ∧
        translator.translate memory root va =
          .ok ⟨⟨physical⟩, value.pageSize⟩ := by
  obtain ⟨⟨bits, large, sizeEq⟩, congruent⟩ :=
    consistent.aligned memory root ⟨pageBase va.raw⟩ value walked
  have sameRange := div_page_multiple large (pageBase_div va.raw)
  obtain ⟨physical, translated, physicalEq⟩ :=
    consistent.uniform memory root ⟨pageBase va.raw⟩ va value walked (by
      rw [sizeEq]
      exact sameRange)
  refine ⟨physical, checkedAdd_eq_some.mpr ?_, translated⟩
  have offsetEq := checkedSub_eq_some.mp subtracted
  simp only [unsigned_toNat_uint64] at offsetEq ⊢
  have split := Nat.div_add_mod va.raw.toNat (2 ^ bits)
  have baseSplit := Nat.div_add_mod (pageBase va.raw).toNat (2 ^ bits)
  have frameBound := Nat.mod_le value.physicalAddress.raw.toNat (2 ^ bits)
  rw [sizeEq] at physicalEq congruent
  simp only at physicalEq congruent sameRange
  rw [sameRange] at baseSplit
  omega

/-- With a consistent mapping the page-granular call and the translator agree
on success, and every failure is that of the walk itself. -/
theorem translateUncached_iff {translator : AddressTranslator}
    (consistent : MappingConsistent translator) (session : σ)
    (root : TranslationRoot) (address : Gva) :
    (∀ found, translateUncached session translator root address = .ok found ↔
        ∃ memory, Session.memory session = .ok memory ∧
          translator.translate memory root address = .ok found) ∧
      ∀ error, translateUncached session translator root address =
          .error error →
        walkPage session translator root.raw (pageBase address.raw) =
          .error error := by
  obtain ⟨offset, subtracted⟩ := checkedSub_pageBase address.raw
  unfold translateUncached walkPage
  simp only [subtracted]
  cases Session.memory session with
  | error error => simp
  | ok memory =>
      simp only [ok_bind, Except.ok.injEq, exists_eq_left']
      cases walked : translator.translate memory root
          ⟨pageBase address.raw⟩ with
      | error error =>
          refine ⟨fun found => ⟨by simp, fun translated => ?_⟩, by simp⟩
          obtain ⟨⟨bits, large, sizeEq⟩, _⟩ :=
            consistent.aligned memory root address found translated
          have sameRange := div_page_multiple large (pageBase_div address.raw)
          obtain ⟨_, baseTranslated, _⟩ := consistent.uniform memory root
            address ⟨pageBase address.raw⟩ found translated (by
              rw [sizeEq]
              exact sameRange.symm)
          rw [walked] at baseTranslated
          contradiction
      | ok value =>
          obtain ⟨physical, added, translated⟩ :=
            translate_of_base consistent walked subtracted
          simp [offsetTranslation, added, translated]

/-- Mappings are consistent, so a session that walks and caches 4 KiB page
bases agrees with the translator on every address. -/
theorem page_granular_translation {translator : AddressTranslator}
    (supported : Supported translator) :
    MappingConsistent translator ∧
      ∀ {translators : Set AddressTranslator}, TagsSound translators →
        translator ∈ translators →
        ∀ {session : σ} {start : VmiSession σ}, attach session = .ok start →
        ∀ calls : List Call,
          (∀ call ∈ calls, ∀ other ∈ call.translator?, other ∈ translators) →
          ∀ root address,
            (∀ found,
              ((calls.foldl perform start).translate translator root
                  address).2 = .ok found ↔
                ∃ memory,
                  Session.memory (calls.foldl perform start).session =
                    .ok memory ∧
                  translator.translate memory root address = .ok found) ∧
            ∀ error,
              ((calls.foldl perform start).translate translator root
                  address).2 = .error error →
                walkPage (calls.foldl perform start).session translator
                  root.raw (pageBase address.raw) = .error error := by
  have consistent := supported.consistent
  refine ⟨consistent, ?_⟩
  intro translators sound inSet session start attached calls known root address
  have coherent := coherent_run sound
    (coherent_attach translators attached) known
  rw [translate_eq_uncached coherent inSet root address]
  exact translateUncached_iff consistent _ root address

theorem page_granular_translation_amd64 :
    MappingConsistent Amd64.amd64Translator ∧
      ∀ root address,
        let calls : List Call := [.translate Amd64.amd64Translator ⟨0⟩ ⟨0x1234⟩,
          .writeBytes ⟨0⟩ [1, 0, 0, 0, 0, 0, 0, 0]]
        let final := calls.foldl perform
          (⟨⟨List.replicate 4096 0⟩, ⟨4096, ∅, []⟩⟩ : VmiSession FlatMemory)
        ∀ found, (final.translate Amd64.amd64Translator root address).2 =
            .ok found ↔
          ∃ memory, Session.memory final.session = .ok memory ∧
            Amd64.amd64Translator.translate memory root address =
              .ok found := by
  obtain ⟨consistent, general⟩ :=
    page_granular_translation (σ := FlatMemory) Supported.amd64
  refine ⟨consistent, ?_⟩
  intro root address calls final
  have sound : TagsSound {Amd64.amd64Translator} := by
    rintro left rfl right rfl _
    rfl
  have attached : attach (⟨List.replicate 4096 0⟩ : FlatMemory) =
      .ok ⟨⟨List.replicate 4096 0⟩, ⟨4096, ∅, []⟩⟩ := rfl
  exact (general sound rfl attached calls
    (by simp [calls, Call.translator?]) root address).1

end VmiSession

end LibVmi.Core
