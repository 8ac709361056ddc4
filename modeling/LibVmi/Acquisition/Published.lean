import LibVmi.Acquisition.Publish

namespace LibVmi.Acquisition

open Data

/-! What a publication comes to, for the destination and for everything that is
not its temporary. -/

/-- The destination is as it was found or holds all of the bytes. -/
structure Publishes (before after : Files) (temporary target : Entry)
    (bytes : List UInt8) (done : Prop) : Prop where
  others : ∀ entry, entry ≠ temporary → entry ≠ target →
    before.Spares after entry
  complete : before.Spares after target ∨
    before.entries target = none ∧ after.read target = some bytes
  done : done → before.entries target = none ∧
    after.read target = some bytes ∧ after.entries temporary = none

namespace Publishes

variable {before after : Files} {temporary target : Entry}
  {bytes : List UInt8}

/-- A call that has not come to the destination. -/
theorem of_spares {done : Prop} (undone : ¬ done)
    (spares : ∀ entry, entry ≠ temporary → before.Spares after entry)
    (different : temporary ≠ target) :
    Publishes before after temporary target bytes done where
  others := fun entry other _ => spares entry other
  complete := .inl (spares target different.symm)
  done := fun impossible => (undone impossible).elim

/-- What has been done before to the temporary alone. -/
theorem after_spares {middle : Files} {done : Prop}
    (spares : ∀ entry, entry ≠ temporary → before.Spares middle entry)
    (different : temporary ≠ target)
    (publishes : Publishes middle after temporary target bytes done) :
    Publishes before after temporary target bytes done where
  others := fun entry other apart =>
    (spares entry other).trans (publishes.others entry other apart)
  complete := by
    have early := spares target different.symm
    rcases publishes.complete with late | ⟨free, published⟩
    · exact .inl (early.trans late)
    · exact .inr ⟨early.absent_iff.mp free, published⟩
  done := by
    intro finished
    obtain ⟨free, published, gone⟩ := publishes.done finished
    exact ⟨(spares target different.symm).absent_iff.mp free, published, gone⟩

/-- What is done afterwards to the temporary alone. -/
theorem before_spares {later : Files} {done : Prop}
    (publishes : Publishes before after temporary target bytes done)
    (spares : ∀ entry, entry ≠ temporary → after.Spares later entry)
    (different : temporary ≠ target)
    (gone : done → later.entries temporary = none) :
    Publishes before later temporary target bytes done where
  others := fun entry other apart =>
    (publishes.others entry other apart).trans (spares entry other)
  complete := by
    have late := spares target different.symm
    rcases publishes.complete with early | ⟨free, published⟩
    · exact .inl (early.trans late)
    · exact .inr ⟨free, late.read.trans published⟩
  done := by
    intro finished
    obtain ⟨free, published, _⟩ := publishes.done finished
    exact ⟨free, (spares target different.symm).read.trans published,
      gone finished⟩

end Publishes

/-- A step that nothing makes fail. -/
theorem attempt_willing {reason : String} {done : Option α} {value : α}
    (willing : done = some value) : attempt none reason done = .ok value :=
  okOr_eq_ok.mpr willing

def Succeeds (outcome : Files × Except ε Unit) : Prop :=
  outcome.2 = .ok ()

theorem linkTemporary_publishes (faults : Faults) {files : Files}
    {temporary target : Entry} (different : temporary ≠ target)
    {node : Nat} (named : files.entries temporary = some node) :
    Publishes files (linkTemporary faults files temporary target).1 temporary
      target (files.contents node)
      (Succeeds (linkTemporary faults files temporary target)) := by
  unfold linkTemporary
  cases linked : attempt faults.link fileExists
      (files.hardLink temporary target) with
  | error error =>
      refine .of_spares ?_ (fun entry _ => .refl files entry) different
      intro done
      cases done
  | ok published =>
      obtain ⟨free, other, known, found, rfl⟩ :=
        FileSystem.hardLink_eq_some (attempt_eq_ok linked)
      obtain rfl : node = other := Option.some.inj (named.symm.trans found)
      have spared (entry : Entry) (apart : entry ≠ target) :
          files.Spares (files.link target node known) entry :=
        .link free known apart
      have complete : (files.link target node known).read target =
          some (files.contents node) := by
        simp [FileSystem.read]
      dsimp only
      cases removed : attempt faults.remove notFound
          ((files.link target node known).removeFile temporary) with
      | error error =>
          refine ⟨fun entry _ apart => spared entry apart,
            .inr ⟨free, complete⟩, ?_⟩
          intro done
          cases done
      | ok cleared =>
          obtain ⟨_, rfl⟩ :=
            FileSystem.removeFile_eq_some.mp (attempt_eq_ok removed)
          have kept : ((files.link target node known).remove temporary).read
              target = some (files.contents node) :=
            (FileSystem.Spares.remove different.symm).read.trans complete
          exact ⟨fun entry other apart =>
              (spared entry apart).trans (.remove other),
            .inr ⟨free, kept⟩,
            fun _ => ⟨free, kept, FileSystem.remove_entry _ temporary⟩⟩

theorem writeAll_spares (fault : Option (Nat × String)) {files : Files}
    {node : Nat} {entry : Entry} (elsewhere : files.entries entry ≠ some node)
    (bytes : List UInt8) :
    files.Spares (writeAll fault files node bytes).1 entry := by
  cases fault with
  | none => exact .append elsewhere bytes
  | some failure => exact .append elsewhere (bytes.take failure.1)

theorem assemble_publishes (faults : Faults) (files : Files)
    {temporary target : Entry} (different : temporary ≠ target)
    (bytes : List UInt8) :
    Publishes files (assemble faults files temporary target bytes).1 temporary
      target bytes
      (Succeeds (assemble faults files temporary target bytes)) := by
  unfold assemble
  cases created : attempt faults.create fileExists
      (files.createNew temporary) with
  | error error =>
      exact .of_spares nofun (fun entry _ => .refl files entry) different
  | ok made =>
      obtain ⟨held, node⟩ := made
      obtain ⟨free, rfl, rfl⟩ :=
        FileSystem.createNew_eq_some.mp (attempt_eq_ok created)
      have written (entry : Entry) (apart : entry ≠ temporary) :
          files.Spares (writeAll faults.write (files.create temporary)
            files.next bytes).1 entry :=
        (FileSystem.Spares.create free apart).trans
          (writeAll_spares faults.write (files.create_elsewhere apart) bytes)
      dsimp only
      unfold fillTemporary
      cases fails : faults.write with
      | some failure =>
          rw [fails] at written
          exact .of_spares nofun written different
      | none =>
          rw [fails] at written
          cases faults.sync with
          | some error => exact .of_spares nofun written different
          | none =>
              refine .after_spares written different ?_
              have named : ((files.create temporary).append files.next
                  bytes).entries temporary = some files.next := by
                simp
              have whole : ((files.create temporary).append files.next
                  bytes).contents files.next = bytes := by
                simp
              have linked := linkTemporary_publishes faults different named
              rw [whole] at linked
              exact linked

theorem cleanUp_spares (faults : Faults) (files : Files)
    {temporary entry : Entry} (different : entry ≠ temporary) :
    files.Spares (cleanUp faults files temporary) entry := by
  unfold cleanUp
  cases removed : attempt faults.cleanup notFound
      (files.removeFile temporary) with
  | error error => exact .refl files entry
  | ok cleared =>
      obtain ⟨_, rfl⟩ :=
        FileSystem.removeFile_eq_some.mp (attempt_eq_ok removed)
      exact .remove different

theorem finish_publishes (faults : Faults) {files : Files}
    {temporary target : Entry} (different : temporary ≠ target)
    {bytes : List UInt8} {outcome : Files × Except PublishError Unit}
    (publishes : Publishes files outcome.1 temporary target bytes
      (Succeeds outcome)) :
    Publishes files (finish faults temporary outcome).1 temporary target bytes
      (Succeeds (finish faults temporary outcome)) := by
  obtain ⟨after, result⟩ := outcome
  cases result with
  | ok _ => exact publishes
  | error error =>
      have undone : ¬ Succeeds (finish faults temporary
          (after, .error error)) := nofun
      have cleaned := publishes.before_spares
        (fun entry other => cleanUp_spares faults after other) different nofun
      exact ⟨cleaned.others, cleaned.complete, fun done => (undone done).elim⟩

namespace Publisher

variable (publisher : Publisher)

theorem publish_publishes (process : Nat) (faults : Faults) (files : Files)
    (counter : Nat) {destination : Destination} {target : Entry}
    (named : destination.entry = some target) (bytes : List UInt8) :
    Publishes files (publisher.publish process faults files counter destination
        bytes).1 (publisher.temporary process counter target) target bytes
      ((publisher.publish process faults files counter destination bytes).2.2 =
        .ok ()) := by
  have different := publisher.temporary_ne process counter target
  have refused (error : PublishError) :
      Publishes files files (publisher.temporary process counter target) target
        bytes ((.error error : Except PublishError Unit) = .ok ()) :=
    .of_spares nofun (fun entry _ => .refl files entry) different
  unfold publish
  rw [named]
  cases publisher.refuses files faults.inspect destination with
  | some message => exact refused _
  | none =>
      dsimp only
      unfold publishTo
      cases Usize.checkedAdd counter 1 with
      | none => exact refused _
      | some next =>
          cases faults.allocate with
          | some failure => exact refused _
          | none =>
              exact finish_publishes faults different
                (assemble_publishes faults files different bytes)

/-- A temporary file is moved to a free name where no step fails. -/
theorem linkTemporary_willing {held : Files} {temporary target : Entry}
    (different : temporary ≠ target) {node : Nat}
    (source : held.entries temporary = some node)
    (free : held.entries target = none) :
    ∃ after, linkTemporary noFaults held temporary target =
      (after, .ok ()) := by
  obtain ⟨linked, hard⟩ :
      ∃ linked, held.hardLink temporary target = some linked := by
    unfold FileSystem.hardLink
    split
    · rename_i none
      rw [source] at none
      contradiction
    · rw [free]
      exact ⟨_, rfl⟩
  obtain ⟨_, node, known, _, rfl⟩ := FileSystem.hardLink_eq_some hard
  have removed : (held.link target node known).removeFile temporary =
      some ((held.link target node known).remove temporary) := by
    refine FileSystem.removeFile_eq_some.mpr ⟨?_, rfl⟩
    rw [held.link_other known different, source]
    exact Option.some_ne_none _
  refine ⟨(held.link target node known).remove temporary, ?_⟩
  unfold linkTemporary
  rw [show noFaults.link = none from rfl, attempt_willing hard]
  dsimp only
  rw [show noFaults.remove = none from rfl, attempt_willing removed]

/-- Where nothing is in the way and no step fails, the call publishes. -/
theorem publish_succeeds (process : Nat) {files : Files} {counter : Nat}
    {destination : Destination} {target : Entry}
    (named : destination.entry = some target)
    (absent : files.entries target = none)
    (room : counter + 1 < Usize.limit)
    (free : files.entries (publisher.temporary process counter target) = none)
    (bytes : List UInt8) :
    (publisher.publish process noFaults files counter destination bytes).2.2 =
      .ok () := by
  have different := publisher.temporary_ne process counter target
  have missing : pathExists files destination = false := by
    unfold pathExists
    rw [named]
    simp [absent]
  have next : Usize.checkedAdd counter 1 = some (counter + 1) :=
    Usize.checkedAdd_eq_some.mpr ⟨rfl, room⟩
  have created : files.createNew (publisher.temporary process counter target) =
      some (files.create (publisher.temporary process counter target),
        files.next) :=
    FileSystem.createNew_eq_some.mpr ⟨free, rfl, rfl⟩
  have made : assemble noFaults files
      (publisher.temporary process counter target) target bytes =
        linkTemporary noFaults
          ((files.create (publisher.temporary process counter target)).append
            files.next bytes)
          (publisher.temporary process counter target) target := by
    unfold assemble
    rw [show noFaults.create = none from rfl, attempt_willing created]
    rfl
  have linkable : ((files.create (publisher.temporary process counter
      target)).append files.next bytes).entries target = none := by
    rw [FileSystem.append_entries, files.create_other different.symm, absent]
  have source : ((files.create (publisher.temporary process counter
      target)).append files.next bytes).entries
        (publisher.temporary process counter target) = some files.next := by
    simp
  obtain ⟨after, done⟩ := linkTemporary_willing different source linkable
  unfold publish
  rw [refuses_of_missing missing, named]
  dsimp only
  unfold publishTo
  rw [next, show noFaults.allocate = none from rfl]
  dsimp only
  rw [made, done]
  rfl

end Publisher

end LibVmi.Acquisition
