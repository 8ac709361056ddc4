import LibVmi.Acquisition.GuestRanges
import LibVmi.Acquisition.InPlace

namespace LibVmi.Acquisition.Libvirt

open Data Artifact

variable {guest : Guest} {around : Surroundings} {disk : Disk}
  {destination : Destination} {target : Entry}

/-! libvirt publishes under the name of the destination itself, so that a
destination that cannot be taken away again may be incomplete. -/

/-- What is made of the destination. -/
structure Fills (faults : Faults) (before after : Files) (target : Entry)
    (bytes : List UInt8) (result : Result Unit) : Prop where
  others : ∀ entry, entry ≠ target → before.Spares after entry
  complete : faults.cleanup = none → before.Spares after target ∨
    before.entries target = none ∧ after.read target = some bytes
  done : result = .ok () →
    before.entries target = none ∧ after.read target = some bytes

theorem publishNew_fills (faults : Faults) (shown : String) (files : Files)
    (target : Entry) (bytes : List UInt8) :
    Fills faults files (publishNew faults shown files target bytes).1 target
      bytes (publishNew faults shown files target bytes).2 := by
  unfold publishNew
  cases created : attempt faults.create fileExists (files.createNew target) with
  | error error =>
      exact ⟨fun entry _ => .refl files entry,
        fun _ => .inl (.refl files target), nofun⟩
  | ok made =>
      obtain ⟨held, node⟩ := made
      obtain ⟨free, rfl, rfl⟩ :=
        FileSystem.createNew_eq_some.mp (attempt_eq_ok created)
      have written (entry : Entry) (apart : entry ≠ target) :
          files.Spares (writeAll faults.write (files.create target) files.next
            bytes).1 entry :=
        (FileSystem.Spares.create free apart).trans
          (writeAll_spares faults.write (files.create_elsewhere apart) bytes)
      have failed (error : VmiError) : Fills faults files
          (cleanUp faults (writeAll faults.write (files.create target)
            files.next bytes).1 target) target bytes (.error error) := by
        refine ⟨fun entry apart =>
          (written entry apart).trans (cleanUp_spares faults _ apart), ?_, nofun⟩
        intro cleans
        refine .inl ⟨?_, fun _ => cleanUp_removes cleans _ target⟩
        intro other found
        rw [free] at found
        contradiction
      dsimp only
      cases fails : faults.write with
      | some failure =>
          rw [fails] at failed
          exact failed _
      | none =>
          rw [fails] at written failed
          cases faults.sync with
          | some error => exact failed _
          | none =>
              have complete : (writeAll none (files.create target) files.next
                  bytes).1.read target = some bytes := by
                simp [writeAll, FileSystem.read]
              exact ⟨written, fun _ => .inr ⟨free, complete⟩,
                fun _ => ⟨free, complete⟩⟩

theorem publishNew_succeeds (shown : String) {files : Files} {target : Entry}
    (absent : files.entries target = none) (bytes : List UInt8) :
    (publishNew Publisher.noFaults shown files target bytes).2 = .ok () := by
  have created : files.createNew target =
      some (files.create target, files.next) :=
    FileSystem.createNew_eq_some.mpr ⟨absent, rfl, rfl⟩
  unfold publishNew
  rw [show Publisher.noFaults.create = none from rfl, attempt_willing created]
  rfl

theorem extractRange_cases (dumps : guest.Dumps around) {disk : Disk}
    {core : Entry} {content : List UInt8}
    (stored : Stored guest around disk core content)
    {start : Gpa} {length : Nat} (bounded : length < Usize.limit)
    (target : Entry) (shown : String) :
    (∃ error, extractRange around disk core target shown start length =
        (disk, .error error)) ∨
      ∃ bytes, guest.read start length = some bytes ∧
        extractRange around disk core target shown start length =
          ({ disk with files := (publishNew around.publication shown disk.files
              target bytes).1 },
            (publishNew around.publication shown disk.files target bytes).2) := by
  unfold extractRange
  cases loaded : elfVmcoreFile around disk.files core with
  | error error => exact .inl ⟨error, rfl⟩
  | ok bundle =>
      have shows := Guest.coreFile_shows dumps stored.isCore stored.read loaded
      dsimp only
      split
      · rename_i error _
        exact .inl ⟨error, rfl⟩
      · rename_i bytes read
        have held := ((Guest.rangeBytes_eq_ok shows _ bounded).mp read).2
        exact .inr ⟨bytes, held, rfl⟩

theorem extractRange_willing (dumps : guest.Dumps around)
    (willing : Willing around) {disk : Disk} {core : Entry}
    {content : List UInt8} (stored : Stored guest around disk core content)
    {start : Gpa} {length : Nat} (bounded : length < Usize.limit)
    (target : Entry) (shown : String) {bytes : List UInt8}
    (held : guest.read start length = some bytes) :
    extractRange around disk core target shown start length =
      ({ disk with files := (publishNew around.publication shown disk.files
          target bytes).1 },
        (publishNew around.publication shown disk.files target bytes).2) := by
  obtain ⟨bundle, loaded⟩ := willing.coreFile stored.written stored.read
    "ELF artifact" "elf-vmcore"
  have shows := Guest.coreFile_shows dumps stored.isCore stored.read loaded
  unfold extractRange elfVmcoreFile
  rw [loaded]
  dsimp only
  rw [(Guest.rangeBytes_eq_ok shows _ bounded).mpr ⟨willing.buffer, held⟩]

/-- The core that a call works with, if it gets as far as that. -/
def coreOf (around : Surroundings) (disk : Disk) (target : Entry) : Entry :=
  core around (around.clock.toOption.getD 0) disk.cores target

/-- The call comes as far as the command. -/
structure Asks (around : Surroundings) (disk : Disk) (target : Entry)
    (start : Gpa) (length : UInt64) : Prop where
  nonzero : length ≠ 0
  fits : start.raw.toNat + length.toNat < 2 ^ 64
  inspected : around.inspectDestination = none
  absent : disk.files.entries target = none
  nameIsUtf8 : around.nameIsUtf8 = true
  room : disk.cores + 1 < Usize.limit
  clock : ∃ nanos, around.clock = .ok nanos
  ready : Ready around disk.files (coreOf around disk target)

variable {start : Gpa} {length : UInt64}

theorem savePhysicalRange_asked (asks : Asks around disk target start length)
    (named : destination.entry = some target) {text : String}
    (done : around.dump.result = .ok text) {dumped : Disk}
    (dumping : dumped =
      ⟨around.dump.run disk.files (coreOf around disk target), disk.cores + 1,
        disk.publications⟩)
    (present : dumped.files.entries (coreOf around disk target) ≠ none) :
    savePhysicalRange around disk destination start length =
      ⟨(extractRange around dumped (coreOf around disk target) target
          destination.shown start length.toNat).1.remove
            (coreOf around disk target),
        some (coreOf around disk target),
        (extractRange around dumped (coreOf around disk target) target
          destination.shown start length.toNat).2⟩ := by
  obtain ⟨nanos, clock⟩ := asks.clock
  have checked : checkRange "libvirt" start length = .ok () :=
    checkRange_eq_ok.mpr ⟨asks.nonzero, asks.fits⟩
  have path : temporaryCorePath around disk target =
      ({ disk with cores := disk.cores + 1 },
        .ok (coreOf around disk target)) := by
    unfold temporaryCorePath
    rw [if_neg (not_not.mpr asks.nameIsUtf8),
      Usize.checkedAdd_eq_some.mpr ⟨rfl, asks.room⟩]
    simp only [clock, coreOf, Except.toOption, Option.getD_some]
  have asked := @dumpCore_ready "libvirt" around
    { disk with cores := disk.cores + 1 } _ asks.ready
  have saved : saveSnapshot around { disk with cores := disk.cores + 1 }
      (coreOf around disk target) =
        ⟨dumped, some (coreOf around disk target), .ok ()⟩ := by
    unfold saveSnapshot
    rw [asked, done]
    subst dumping
    exact congrArg (Outcome.mk _ _) (rejectIf_neg present _)
  unfold savePhysicalRange
  rw [checked, named]
  dsimp only
  rw [if_neg (by simp [asks.inspected, asks.absent]), path]
  dsimp only
  rw [saved]

theorem temporaryCorePath_cases (around : Surroundings) (disk : Disk)
    (target : Entry) :
    (∃ error after, temporaryCorePath around disk target =
        (after, .error error) ∧ after.files = disk.files) ∨
      around.nameIsUtf8 = true ∧ disk.cores + 1 < Usize.limit ∧
        (∃ nanos, around.clock = .ok nanos) ∧
        temporaryCorePath around disk target =
          ({ disk with cores := disk.cores + 1 },
            .ok (coreOf around disk target)) := by
  unfold temporaryCorePath coreOf
  cases utf8 : around.nameIsUtf8 with
  | false => exact .inl ⟨_, disk, rfl, rfl⟩
  | true =>
      rw [if_neg (not_not.mpr rfl)]
      cases room : Usize.checkedAdd disk.cores 1 with
      | none => exact .inl ⟨_, disk, rfl, rfl⟩
      | some next =>
          obtain ⟨rfl, fits⟩ := Usize.checkedAdd_eq_some.mp room
          cases clock : around.clock with
          | error error => exact .inl ⟨_, _, rfl, rfl⟩
          | ok nanos => exact .inr ⟨rfl, fits, ⟨nanos, rfl⟩, rfl⟩

theorem saveSnapshot_cases (around : Surroundings) (disk : Disk)
    (core : Entry) :
    (∃ error after asked, saveSnapshot around disk core =
        ⟨after, asked, .error error⟩ ∧
        ∀ entry, entry ≠ core → disk.files.Spares after.files entry) ∨
      Ready around disk.files core ∧
        ∃ text, around.dump.result = .ok text := by
  unfold saveSnapshot
  by_cases ready : Ready around disk.files core
  · rw [dumpCore_ready "libvirt" ready]
    cases done : around.dump.result with
    | error error =>
        exact .inl ⟨error, _, _, rfl, fun entry different =>
          dump_spares around.dump ready.absent different⟩
    | ok text => exact .inr ⟨ready, text, rfl⟩
  · obtain ⟨error, failed⟩ := dumpCore_unready "libvirt" ready
    rw [failed]
    exact .inl ⟨error, disk, none, rfl, fun entry _ => .refl disk.files entry⟩

/-- A call ends before there is a core, with nothing changed but what there is
under the name of the core, or comes to a core. -/
theorem savePhysicalRange_cases (around : Surroundings) (disk : Disk)
    (named : destination.entry = some target) (start : Gpa) (length : UInt64) :
    ((∃ error, (savePhysicalRange around disk destination start length).value =
        .error error) ∧
      ∀ entry, entry ≠ coreOf around disk target → disk.files.Spares
        (savePhysicalRange around disk destination start length).disk.files
        entry) ∨
    ∃ text, around.dump.result = .ok text ∧
      Asks around disk target start length := by
  unfold savePhysicalRange
  cases checked : checkRange "libvirt" start length with
  | error error =>
      exact .inl ⟨⟨error, rfl⟩, fun entry _ => .refl disk.files entry⟩
  | ok _ =>
      obtain ⟨nonzero, fits⟩ := checkRange_eq_ok.mp checked
      rw [named]
      dsimp only
      split
      · exact .inl ⟨⟨_, rfl⟩, fun entry _ => .refl disk.files entry⟩
      · rename_i usable
        obtain ⟨inspected, absent⟩ := not_or.mp usable
        rcases temporaryCorePath_cases around disk target with
          ⟨error, after, path, same⟩ | ⟨utf8, room, clock, path⟩
        · rw [path]
          exact .inl ⟨⟨error, rfl⟩, fun entry _ => by
            dsimp only
            rw [same]
            exact .refl disk.files entry⟩
        · rw [path]
          dsimp only
          rcases saveSnapshot_cases around { disk with cores := disk.cores + 1 }
              (coreOf around disk target) with
            ⟨error, after, asked, failed, spares⟩ | ⟨ready, text, done⟩
          · rw [failed]
            exact .inl ⟨⟨error, rfl⟩, fun entry apart =>
              (spares entry apart).trans (remove_spares after apart)⟩
          · exact .inr ⟨text, done, nonzero, fits,
              Option.not_isSome_iff_eq_none.mp inspected, not_not.mp absent,
              utf8, room, clock, ready⟩

/-- What a call that reaches the core comes to. -/
theorem savePhysicalRange_dumped (dumps : guest.Dumps around)
    (asks : Asks around disk target start length)
    (named : destination.entry = some target) {text : String}
    (done : around.dump.result = .ok text)
    {outcome : Outcome (Result Unit)}
    (saves : savePhysicalRange around disk destination start length =
      outcome) :
    (∀ entry, entry ≠ coreOf around disk target → entry ≠ target →
      disk.files.Spares outcome.disk.files entry) ∧
    (around.publication.cleanup = none →
      disk.files.Spares outcome.disk.files target ∨
        disk.files.entries target = none ∧
          ∃ bytes, guest.read start length.toNat = some bytes ∧
            outcome.disk.files.read target = some bytes) ∧
    (outcome.value = .ok () →
      ∃ bytes, guest.read start length.toNat = some bytes ∧
        outcome.disk.files.read target = some bytes) ∧
    (Willing around → ∀ bytes,
      guest.read start length.toNat = some bytes → outcome.value = .ok ()) := by
  have nameApart : coreOf around disk target ≠ target :=
    core_ne around _ disk.cores target
  obtain ⟨dumped, content, dumping, stored, early⟩ :=
    dumps.dumped done asks.ready.absent
  have present : dumped.files.entries (coreOf around disk target) ≠ none := by
    intro gone
    simpa [FileSystem.read, gone] using stored.read
  rw [savePhysicalRange_asked asks named done dumping present] at saves
  subst saves
  dsimp only
  rcases extractRange_cases dumps stored length.toNat_lt target
      destination.shown with ⟨error, failed⟩ | ⟨bytes, held, published⟩
  · rw [failed]
    have spares (entry : Entry) (apart : entry ≠ coreOf around disk target) :
        disk.files.Spares
          (dumped.remove (coreOf around disk target)).files entry :=
      (early entry apart).trans (remove_spares dumped apart)
    refine ⟨fun entry apart _ => spares entry apart,
      fun _ => .inl (spares target nameApart.symm), ?_, ?_⟩
    · intro saved
      cases saved
    intro willing bytes held
    have extracted := extractRange_willing dumps willing stored length.toNat_lt target
      destination.shown held
    rw [failed, willing.publication] at extracted
    have saved := publishNew_succeeds destination.shown
      ((early target nameApart.symm).absent asks.absent) bytes
    rw [← (Prod.mk.inj extracted).2] at saved
    contradiction
  · have fills := publishNew_fills around.publication destination.shown
      dumped.files target bytes
    have late (entry : Entry) (apart : entry ≠ coreOf around disk target) :=
      remove_spares { dumped with files := (publishNew around.publication
        destination.shown dumped.files target bytes).1 } apart
    rw [published]
    refine ⟨fun entry apart away => ((early entry apart).trans
      (fills.others entry away)).trans (late entry apart), ?_, ?_, ?_⟩
    · intro cleans
      rcases fills.complete cleans with kept | ⟨_, complete⟩
      · exact .inl (((early target nameApart.symm).trans kept).trans
          (late target nameApart.symm))
      · exact .inr ⟨asks.absent, bytes, held,
          (late target nameApart.symm).read.trans complete⟩
    · intro saved
      exact ⟨bytes, held, (late target nameApart.symm).read.trans
        (fills.done saved).2⟩
    · intro willing _ _
      rw [willing.publication]
      exact publishNew_succeeds destination.shown
        ((early target nameApart.symm).absent asks.absent) bytes

/-- A range that libvirt reports as saved is in the destination with the bytes
that the machine had when its core was dumped. Where the destination can be
taken away again it is as it was found or complete, and where nothing is in the
way the call succeeds exactly for the ranges of the machine. -/
theorem written_range_exact (dumps : guest.Dumps around) (disk : Disk)
    (named : destination.entry = some target) (start : Gpa) (length : UInt64)
    {outcome : Outcome (Result Unit)}
    (saves : savePhysicalRange around disk destination start length =
      outcome) :
    (∀ entry, entry ≠ coreOf around disk target → entry ≠ target →
      disk.files.Spares outcome.disk.files entry) ∧
    (around.publication.cleanup = none →
      disk.files.Spares outcome.disk.files target ∨
        disk.files.entries target = none ∧
          ∃ bytes, guest.read start length.toNat = some bytes ∧
            outcome.disk.files.read target = some bytes) ∧
    (outcome.value = .ok () → Asks around disk target start length ∧
      ∃ bytes, guest.read start length.toNat = some bytes ∧
        outcome.disk.files.read target = some bytes) ∧
    (Willing around → Asks around disk target start length →
      (outcome.value = .ok () ↔
        (guest.read start length.toNat).isSome)) := by
  have nameApart : coreOf around disk target ≠ target :=
    core_ne around _ disk.cores target
  rcases savePhysicalRange_cases around disk named start length with
    ⟨⟨error, failed⟩, spares⟩ | ⟨text, done, asks⟩
  · rw [saves] at failed spares
    refine ⟨fun entry apart _ => spares entry apart,
      fun _ => .inl (spares target nameApart.symm), ?_, ?_⟩
    · rw [failed]
      exact nofun
    · intro willing asks
      obtain ⟨text, done⟩ := willing.dumped
      have dumped := savePhysicalRange_dumped dumps asks named done saves
      refine ⟨fun saved => ?_, fun present => ?_⟩
      · rw [failed] at saved
        contradiction
      · obtain ⟨bytes, held⟩ := Option.isSome_iff_exists.mp present
        exact dumped.2.2.2 willing bytes held
  · have dumped := savePhysicalRange_dumped dumps asks named done saves
    refine ⟨dumped.1, dumped.2.1, fun saved => ⟨asks, dumped.2.2.1 saved⟩, ?_⟩
    intro willing _
    refine ⟨fun saved => ?_, fun present => ?_⟩
    · obtain ⟨bytes, held, _⟩ := dumped.2.2.1 saved
      exact Option.isSome_of_eq_some held
    · obtain ⟨bytes, held⟩ := Option.isSome_iff_exists.mp present
      exact dumped.2.2.2 willing bytes held

theorem written_range_exact_two_bytes :
    ∃ outcome : Outcome (Result Unit),
      savePhysicalRange (quietHost twoPiecesCore) ⟨.empty, 0, 0⟩ toOut ⟨0x3000⟩ 2 =
        outcome ∧
      outcome.value = .ok () ∧
      outcome.disk.files.read Publisher.outBin = some [5, 6] := by
  refine ⟨_, rfl, ?_⟩
  have all := written_range_exact twoPieces_dumps ⟨.empty, 0, 0⟩
    (show toOut.entry = some Publisher.outBin from rfl) ⟨0x3000⟩ 2 rfl
  have held : twoPiecesGuest.read ⟨0x3000⟩ (2 : UInt64).toNat = some [5, 6] := by
    decide
  have asks : Asks (quietHost twoPiecesCore) ⟨.empty, 0, 0⟩ Publisher.outBin ⟨0x3000⟩
      2 :=
    ⟨by decide, by decide, rfl, rfl, rfl, by decide, ⟨5, rfl⟩, rfl, rfl, rfl,
      rfl⟩
  have saved := (all.2.2.2 twoPieces_willing asks).mpr
    (Option.isSome_of_eq_some held)
  obtain ⟨_, bytes, same, found⟩ := all.2.2.1 saved
  rw [held] at same
  exact ⟨saved, found.trans same.symm⟩

end LibVmi.Acquisition.Libvirt
