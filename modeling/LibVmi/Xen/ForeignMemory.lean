import LibVmi.Core.VirtualBytes
import LibVmi.Xen.ForeignPages
import Mathlib.Logic.Relation

namespace LibVmi.Xen

open LibVmi.Data LibVmi.Core Sparse

variable {ω : Type}

/-- A call of the process, and the state of the host that it leaves. -/
inductive NativeLibrary.Calls (library : NativeLibrary ω) : ω → ω → Prop
  | map {map : MapPages ω} (loaded : library.xcMapForeignPages = .ok map)
      (world : ω) (interface : UInt64) (domainId : UInt32) (write : Bool)
      (frame : UInt64) :
      Calls library world (map world interface domainId write frame).1
  | store (world : ω) (pointer : UInt64) (data : List UInt8) :
      Calls library world (library.store world pointer data)
  | munmap (world : ω) (mapping : UInt64) :
      Calls library world (library.munmap world mapping).1

def NativeLibrary.Reaches (library : NativeLibrary ω) : ω → ω → Prop :=
  Relation.ReflTransGen library.Calls

namespace XenCtrlMemory

section Refusals

variable (control : XenCtrlMemory ω) (view : HostView ω)

/-- The host does not map the page of a place, although the process has released
what it had mapped and the place still shows what it did. -/
def RefusesMap (host : ω) (place : Nat) (frame : UInt64) : Prop :=
  ∃ map world write, control.library.xcMapForeignPages = .ok map ∧
    control.library.Reaches host world ∧
    view.mapped world = view.mapped host ∧
    view.memory world control.domainId place =
      view.memory host control.domainId place ∧
    mappingFailed
      (map world control.interface.value control.domainId write frame).2

def RefusesUnmap (host : ω) (page : ForeignPage) : Prop :=
  ∃ world, control.library.Reaches host world ∧ page ∈ view.mapped world ∧
    (control.library.munmap world page.mapping).2 ≠ 0

/-- Why a transfer of a range fails, and what it says then. -/
inductive Failure (host : ω) (address : Gpa) (length : Nat) : VmiError → Prop
  | missing {reason : String}
      (absent : control.library.xcMapForeignPages = .error reason) :
      Failure host address length (missingSymbol reason)
  | poisoned (poison : control.interface.poisoned = true) :
      Failure host address length lockPoisoned
  | offset (long : 2 ^ 64 < length) :
      Failure host address length offsetOverflow
  | overflow (past : 2 ^ 64 < address.raw.toNat + length) :
      Failure host address length addressOverflow
  | mapping {place : Nat} {frame : UInt64}
      (inside : address.raw.toNat ≤ place ∧
        place < address.raw.toNat + length)
      (frameEq : frame.toNat = place / 4096)
      (refused : control.RefusesMap view host place frame) :
      Failure host address length (mapRefused frame)
  | unmapping {place : Nat} {page : ForeignPage}
      (inside : address.raw.toNat ≤ place ∧
        place < address.raw.toNat + length)
      (frameEq : page.frame.toNat = place / 4096)
      (refused : control.RefusesUnmap view host page) :
      Failure host address length (unmapRefused page.frame)

/-- A host that has the symbol, maps every page of which a byte is there, and
releases every mapping. -/
structure Willing (host : ω) : Prop where
  loaded : ∃ map, control.library.xcMapForeignPages = .ok map
  sound : control.interface.poisoned = false
  maps : ∀ place frame, frame.toNat = place / 4096 →
    control.RefusesMap view host place frame →
      view.memory host control.domainId place = none
  unmaps : ∀ page, ¬ control.RefusesUnmap view host page

end Refusals

theorem unmaps_of_reaches {host world : WindowHost}
    (reached : WindowHost.library.Reaches host world) :
    world.unmaps = host.unmaps := by
  induction reached with
  | refl => rfl
  | @tail middle last _ called induction =>
      rw [← induction]
      cases called with
      | map loaded _ interface domainId write frame =>
          cases loaded
          unfold WindowHost.map
          split <;> rfl
      | store _ pointer data =>
          change (middle.store pointer data).unmaps = middle.unmaps
          unfold WindowHost.store
          split <;> rfl
      | munmap _ mapping =>
          change (middle.munmap mapping).1.unmaps = middle.unmaps
          unfold WindowHost.munmap
          split <;> rfl

/-- A window that nothing is mapped at, and that can be released. -/
theorem Willing.window (domainId : UInt32) (interface : UInt64)
    {host : WindowHost} (free : host.window = none)
    (unmaps : host.unmaps = true) :
    (⟨WindowHost.library, ⟨interface, false⟩, domainId⟩ :
      XenCtrlMemory WindowHost).Willing WindowHost.view host where
  loaded := ⟨_, rfl⟩
  sound := rfl
  maps := by
    rintro place frame frameEq ⟨_, world, write, ⟨⟩, _, released, same, failed⟩
    rw [← same]
    by_contra held
    obtain ⟨byte, there⟩ := Option.ne_none_iff_exists'.mp held
    obtain ⟨word, wordEq, shown⟩ := atAddress_eq_some.mp there
    change (world.domains domainId).contents word = some byte at shown
    have wordBound := word.toNat_lt
    have sameFrame : word >>> 12 = frame := by
      rw [← UInt64.toNat_inj, frame_toNat, frameEq, wordEq]
    have populated : (world.domains domainId).populated frame = true := by
      unfold Domain.contents at shown
      rw [sameFrame] at shown
      exact (Option.ite_none_right_eq_some.mp shown).1
    have idle : world.window = none := by
      cases windowed : world.window with
      | none => rfl
      | some page =>
          have mapped : page ∈ WindowHost.view.mapped world := windowed
          rw [released] at mapped
          change host.window = some page at mapped
          rw [free] at mapped
          contradiction
    have maps : (world.map interface domainId write frame).2 = windowAddress := by
      unfold WindowHost.map
      rw [dif_pos ⟨idle, by omega, populated⟩]
    change mappingFailed (world.map interface domainId write frame).2 at failed
    rw [maps] at failed
    exact WindowHost.windowAddress_mapped failed
  unmaps := by
    rintro page ⟨world, reached, there, failed⟩
    have kept : world.unmaps = true := (unmaps_of_reaches reached).trans unmaps
    have place := (world.windowed page there).1
    change (world.munmap page.mapping).2 ≠ 0 at failed
    unfold WindowHost.munmap at failed
    rw [if_pos ⟨kept, place⟩] at failed
    exact failed rfl

section Transfers

variable (control : XenCtrlMemory ω) (view : HostView ω) (address : Gpa)
  (write : Bool) {length : Nat}

/-- The first bytes of a transfer have been moved, in whole pages, and nothing
else has changed but the host's own state. -/
structure Transferred (before after : ω) (buffer filled : Lent length)
    (count : Nat) : Prop where
  pages : count = 0 ∨ count = length ∨ (address.raw.toNat + count) % 4096 = 0
  moved : ∃ bytes,
    readRange (view.memory before control.domainId) address.raw.toNat count =
        some bytes ∧
      filled.val =
        if write then buffer.val else bytes ++ buffer.val.drop count
  memory : view.memory after control.domainId =
    if write then
      overlay address.raw.toNat (buffer.val.take count)
        (view.memory before control.domainId)
    else view.memory before control.domainId
  others : ∀ other, other ≠ control.domainId →
    view.contents after other = view.contents before other
  reached : control.library.Reaches before after

/-- How a transfer ends, and what is left mapped. -/
inductive Ending (length : Nat) (start final : ω) (count : Nat) :
    Result Unit → Prop
  | complete (all : count = length)
      (released : view.mapped final = view.mapped start) :
      Ending length start final count (.ok ())
  | failed {error : VmiError}
      (failure : control.Failure view start address length error)
      (released : view.mapped final = view.mapped start) :
      Ending length start final count (.error error)
  | stuck {page : ForeignPage}
      (failure : control.Failure view start address length
        (unmapRefused page.frame))
      (refused : control.RefusesUnmap view start page)
      (kept : view.mapped final = insert page (view.mapped start)) :
      Ending length start final count (.error (unmapRefused page.frame))

variable {control view address write} {before host : ω}
  {buffer filled : Lent length} {completed count : Nat} {current : UInt64}

theorem Transferred.start (host : ω) (buffer : Lent length) :
    control.Transferred view address write host host buffer buffer 0 where
  pages := .inl rfl
  moved := ⟨[], rfl, by simp⟩
  memory := by simp
  others := fun _ _ => rfl
  reached := .refl

/-- Mapping and releasing pages changes no memory. -/
theorem Transferred.of_contents
    (sofar : control.Transferred view address write before host buffer filled
      completed) {after : ω} (called : control.library.Calls host after)
    (same : view.contents after = view.contents host) :
    control.Transferred view address write before after buffer filled
      completed where
  pages := sofar.pages
  moved := sofar.moved
  memory := by
    rw [← sofar.memory, HostView.memory, HostView.memory, same]
  others := by
    rw [same]
    exact sofar.others
  reached := sofar.reached.tail called

/-- What lies ahead of a transfer is still what was there before it. -/
theorem Transferred.ahead
    (sofar : control.Transferred view address write before host buffer filled
      completed) {place : Nat} (after : address.raw.toNat + completed ≤ place) :
    view.memory host control.domainId place =
      view.memory before control.domainId place := by
  rw [sofar.memory]
  split
  · apply overlay_outside
    rw [List.length_take]
    omega
  · rfl

/-- The copy of one page carries a transfer on. -/
theorem Transferred.page (documented : Documented control.library view)
    (sofar : control.Transferred view address write before host buffer filled
      completed)
    (currentEq : current.toNat = address.raw.toNat + completed)
    (countEq : count = min (4096 - current.toNat % 4096) (length - completed))
    {mapping : UInt64}
    (there : (⟨mapping, control.domainId, current >>> 12, write⟩ :
      ForeignPage) ∈ view.mapped host)
    (part : completed + count ≤ length) {after : ω} {refilled : Lent length}
    (copied : control.copy host write (mapping + (current &&& 0xfff)) filled
      completed count part = (after, refilled)) :
    control.Transferred view address write before after buffer refilled
        (completed + count) ∧
      view.mapped after = view.mapped host := by
  obtain ⟨bytes, moved, filledEq⟩ := sofar.moved
  have placeEq : (current >>> 12).toNat * 4096 + (current &&& 0xfff).toNat =
      address.raw.toNat + completed := by
    rw [frame_toNat, pageOffset_toNat]
    omega
  have near : (current &&& 0xfff).toNat + count ≤ 4096 := by
    rw [pageOffset_toNat]
    omega
  have shown := documented.loads host _ there (current &&& 0xfff) count near
  simp only [placeEq] at shown
  rw [readRange_congr fun index _ => sofar.ahead (by omega)] at shown
  have more : readRange (view.memory before control.domainId) address.raw.toNat
      (completed + count) = some (bytes ++
        (control.library.load host (mapping + (current &&& 0xfff))
          count).val) := by
    rw [readRange_add, moved, shown]
    rfl
  have pages : completed + count = 0 ∨ completed + count = length ∨
      (address.raw.toNat + (completed + count)) % 4096 = 0 := by omega
  cases write with
  | false =>
      cases copied
      refine ⟨⟨pages, ⟨_, more, ?_⟩, sofar.memory, sofar.others,
        sofar.reached⟩, rfl⟩
      have bytesLength := readRange_length moved
      change filled.val = bytes ++ buffer.val.drop completed at filledEq
      change filled.val.take completed ++ (_ ++ filled.val.drop _) = _
      rw [filledEq, List.take_left' bytesLength, List.append_assoc,
        ← List.drop_drop, List.drop_left' bytesLength, List.drop_drop]
      rfl
  | true =>
      cases copied
      change filled.val = buffer.val at filledEq
      have chunkLength : ((buffer.val.drop completed).take count).length =
          count := by
        rw [List.length_take, List.length_drop, buffer.property]
        omega
      have takenLength : (buffer.val.take completed).length = completed := by
        rw [List.length_take, buffer.property]
        omega
      have stored := documented.stores host _ there rfl (current &&& 0xfff)
        ((buffer.val.drop completed).take count) (by rwa [chunkLength])
      simp only [placeEq] at stored
      refine ⟨⟨pages, ⟨_, more, filledEq⟩, ?_, ?_,
        sofar.reached.tail (.store _ _ _)⟩, documented.store_mapped _ _ _⟩
      · have joined : _ = overlay address.raw.toNat
            (buffer.val.take completed ++ (buffer.val.drop completed).take count)
            (view.memory before control.domainId) := overlay_append
        have sofarMemory : view.memory host control.domainId =
            overlay address.raw.toNat (buffer.val.take completed)
              (view.memory before control.domainId) := sofar.memory
        rw [takenLength, ← List.take_add, ← sofarMemory] at joined
        rw [if_pos rfl, ← joined, filledEq]
        exact stored.1
      · intro other different
        rw [filledEq]
        exact (stored.2 other different).trans (sofar.others other different)

theorem pagePart_error {error : VmiError} (unfinished : completed < length)
    (planned : pagePart address length completed = .error error) :
    control.Failure view host address length error := by
  by_cases long : 2 ^ 64 ≤ completed
  · have progress : (tryFrom completed : Option UInt64) = none :=
      if_neg (Nat.not_lt.mpr long)
    rw [pagePart, progress] at planned
    cases planned
    exact .offset (by omega)
  · have wordEq : (UInt64.ofNat completed).toNat = completed :=
      UInt64.toNat_ofNat_of_lt' (Nat.not_le.mp long)
    have progress : tryFrom completed = some (UInt64.ofNat completed) :=
      tryFrom_eq_some.mpr wordEq
    cases moved : checkedAdd address.raw (UInt64.ofNat completed) with
    | none =>
        simp only [pagePart, progress, okOr, ok_bind, moved] at planned
        cases planned
        refine .overflow ?_
        by_contra inside
        have currentEq : (UInt64.ofNat (address.raw.toNat + completed)).toNat =
            address.raw.toNat + completed :=
          UInt64.toNat_ofNat_of_lt' (by simp only [UInt64.size]; omega)
        rw [checkedAdd_eq_some.mpr (by
          simpa only [unsigned_toNat_uint64, wordEq] using currentEq)] at moved
        contradiction
    | some current =>
        have currentEq := checkedAdd_eq_some.mp moved
        simp only [unsigned_toNat_uint64, wordEq] at currentEq
        rw [(pagePart_eq_ok unfinished.le).mpr ⟨currentEq, rfl⟩] at planned
        cases planned

/-- Releasing a page that has just been mapped leaves what was mapped. -/
theorem insert_unmapped {mapped : Set ForeignPage} {page : ForeignPage}
    {mapping : UInt64} (fresh : ∀ other ∈ mapped, other.mapping ≠ mapping)
    (own : page.mapping = mapping) :
    {other ∈ insert page mapped | other.mapping ≠ mapping} = mapped := by
  ext other
  constructor
  · rintro ⟨rfl | there, apart⟩
    · exact absurd own apart
    · exact there
  · intro there
    exact ⟨.inr there, fresh other there⟩

/-- What one page of a transfer comes to: the host does not map it, does not
release it, or the transfer goes on behind it. -/
theorem accessPages_page (documented : Documented control.library view)
    {map : MapPages ω} (loaded : control.library.xcMapForeignPages = .ok map)
    {start : ω} (unfinished : completed < length)
    (planned : pagePart address length completed = .ok (current, count))
    (sofar : control.Transferred view address write start host buffer filled
      completed)
    (released : view.mapped host = view.mapped start) :
    (∃ final,
        control.accessPages map address write completed host filled =
          (final, filled, .error (mapRefused (current >>> 12))) ∧
        control.Transferred view address write start final buffer filled
          completed ∧
        control.RefusesMap view start (address.raw.toNat + completed)
          (current >>> 12) ∧
        view.mapped final = view.mapped start) ∨
      ∃ next refilled page,
        control.Transferred view address write start next buffer refilled
            (completed + count) ∧
          page.frame = current >>> 12 ∧
          (control.accessPages map address write completed host filled =
              (next, refilled, .error (unmapRefused page.frame)) ∧
              control.RefusesUnmap view start page ∧
              view.mapped next = insert page (view.mapped start) ∨
            control.accessPages map address write completed host filled =
              control.accessPages map address write (completed + count) next
                refilled ∧
              view.mapped next = view.mapped start) := by
  obtain ⟨currentEq, countEq⟩ := (pagePart_eq_ok unfinished.le).mp planned
  have part := pagePart_positive unfinished planned
  obtain ⟨⟨shown, mapping⟩, mapped⟩ : ∃ outcome, map host
    control.interface.value control.domainId write (current >>> 12) = outcome :=
      ⟨_, rfl⟩
  have sofarShown : control.Transferred view address write start shown buffer
      filled completed := by
    have called := NativeLibrary.Calls.map loaded host control.interface.value
      control.domainId write (current >>> 12)
    have kept := documented.map_contents map loaded host
      control.interface.value control.domainId write (current >>> 12)
    rw [mapped] at called kept
    exact sofar.of_contents called kept
  by_cases failed : mappingFailed mapping
  · refine .inl ⟨shown, ?_, sofarShown, ?_, ?_⟩
    · rw [accessPages, dif_pos unfinished]
      split
      · rename_i refused
        rw [planned] at refused
        cases refused
      · rename_i plannedToo
        rw [planned] at plannedToo
        cases plannedToo
        simp only [mapped, if_pos failed]
    · exact ⟨map, host, write, loaded, sofar.reached, released,
        sofar.ahead (Nat.le_refl _), by rwa [mapped]⟩
    · have kept := documented.map_fails map loaded host
        control.interface.value control.domainId write (current >>> 12)
      rw [mapped] at kept
      exact (kept failed).trans released
  obtain ⟨fresh, mappedEq⟩ := documented.map_maps map loaded host
    control.interface.value control.domainId write (current >>> 12) shown
    mapping mapped failed
  obtain ⟨page, pageEq⟩ : ∃ page : ForeignPage, page =
    ⟨mapping, control.domainId, current >>> 12, write⟩ := ⟨_, rfl⟩
  rw [released] at fresh
  rw [← pageEq, released] at mappedEq
  have there : page ∈ view.mapped shown := by
    rw [mappedEq]
    exact Set.mem_insert page _
  obtain ⟨⟨after, refilled⟩, copied⟩ : ∃ outcome, control.copy shown write
    (mapping + (current &&& 0xfff)) filled completed count part.2 = outcome :=
      ⟨_, rfl⟩
  obtain ⟨further, kept⟩ := sofarShown.page documented currentEq countEq
    (by rwa [← pageEq]) part.2 copied
  obtain ⟨⟨next, answer⟩, unmapped⟩ : ∃ outcome,
    control.library.munmap after mapping = outcome := ⟨_, rfl⟩
  have onward : control.Transferred view address write start next buffer
      refilled (completed + count) := by
    have called := @NativeLibrary.Calls.munmap _ control.library after mapping
    have same := documented.unmap_contents after mapping
    rw [unmapped] at called same
    exact further.of_contents called same
  have paged : control.accessPages map address write completed host filled =
      if answer ≠ 0 then
        (next, refilled, .error (unmapRefused (current >>> 12)))
      else
        control.accessPages map address write (completed + count) next
          refilled := by
    rw [accessPages, dif_pos unfinished]
    split
    · rename_i refused
      rw [planned] at refused
      cases refused
    · rename_i plannedToo
      rw [planned] at plannedToo
      cases plannedToo
      simp only [mapped, if_neg failed, copied, unmapped]
  refine .inr ⟨next, refilled, page, onward, by rw [pageEq], ?_⟩
  by_cases stuck : answer ≠ 0
  · refine .inl ⟨?_, ⟨after, further.reached, by rwa [kept], ?_⟩, ?_⟩
    · rw [paged, if_pos stuck, pageEq]
    · rw [pageEq, unmapped]
      exact stuck
    · have same := documented.unmap_fails after mapping
      rw [unmapped] at same
      rw [same stuck, kept, mappedEq]
  · refine .inr ⟨by rw [paged, if_neg stuck], ?_⟩
    have gone := documented.unmaps after mapping
    rw [unmapped] at gone
    rw [gone (not_not.mp stuck), kept, mappedEq]
    exact insert_unmapped fresh (by rw [pageEq])

/-- A transfer that has started ends as one of the endings says. -/
theorem accessPages_transfers (documented : Documented control.library view)
    {map : MapPages ω} (loaded : control.library.xcMapForeignPages = .ok map)
    {start : ω} (within : completed ≤ length)
    (sofar : control.Transferred view address write start host buffer filled
      completed)
    (released : view.mapped host = view.mapped start) {final : ω}
    {last : Lent length} {result : Result Unit}
    (ended : control.accessPages map address write completed host filled =
      (final, last, result)) :
    ∃ count ≤ length,
      control.Transferred view address write start final buffer last count ∧
        control.Ending view address length start final count result := by
  induction distance : length - completed using Nat.strong_induction_on
    generalizing completed host filled with
  | _ distance induction =>
      subst distance
      by_cases unfinished : completed < length
      · cases planned : pagePart address length completed with
        | error error =>
            rw [accessPages, dif_pos unfinished] at ended
            split at ended
            · rename_i refused
              rw [planned] at refused
              cases refused
              cases ended
              exact ⟨completed, within, sofar,
                .failed (pagePart_error unfinished planned) released⟩
            · rename_i plannedToo
              rw [planned] at plannedToo
              cases plannedToo
        | ok part =>
            obtain ⟨current, count⟩ := part
            have progress := pagePart_positive unfinished planned
            have inside : address.raw.toNat ≤ address.raw.toNat + completed ∧
                address.raw.toNat + completed < address.raw.toNat + length := by
              omega
            have frameEq : (current >>> 12).toNat =
                (address.raw.toNat + completed) / 4096 := by
              rw [frame_toNat, ((pagePart_eq_ok within).mp planned).1]
            rcases accessPages_page documented loaded unfinished planned sofar
                released with ⟨shown, refused, same, refusal, kept⟩ |
              ⟨next, refilled, page, further, pageEq, stuck | onward⟩
            · rw [refused] at ended
              cases ended
              exact ⟨completed, within, same,
                .failed (.mapping inside frameEq refusal) kept⟩
            · obtain ⟨refused, refusal, kept⟩ := stuck
              rw [refused] at ended
              cases ended
              rw [← pageEq] at frameEq
              exact ⟨completed + count, progress.2, further,
                .stuck (.unmapping inside frameEq refusal) refusal kept⟩
            · rw [onward.1] at ended
              exact induction (length - (completed + count)) (by omega)
                progress.2 further onward.2 ended rfl
      · rw [accessPages, dif_neg unfinished] at ended
        cases ended
        exact ⟨completed, within, sofar, .complete (by omega) released⟩

theorem access_transfers (documented : Documented control.library view)
    (host : ω) (buffer : Lent length) {final : ω} {last : Lent length}
    {result : Result Unit}
    (ended : control.access host address write buffer = (final, last, result)) :
    ∃ count ≤ length,
      control.Transferred view address write host final buffer last count ∧
        control.Ending view address length host final count result := by
  unfold access at ended
  cases loaded : control.library.xcMapForeignPages with
  | error reason =>
      rw [loaded] at ended
      cases ended
      exact ⟨0, Nat.zero_le _, .start host buffer, .failed (.missing loaded) rfl⟩
  | ok map =>
      rw [loaded] at ended
      simp only at ended
      by_cases poison : control.interface.poisoned = true
      · rw [if_pos poison] at ended
        cases ended
        exact ⟨0, Nat.zero_le _, .start host buffer, .failed (.poisoned poison)
          rfl⟩
      · rw [if_neg poison] at ended
        exact accessPages_transfers documented loaded (Nat.zero_le _)
          (.start host buffer) rfl ended

/-- A failed transfer leaves at most the page that it could not release. -/
theorem Ending.left_mapped {start final : ω} {count : Nat} {error : VmiError}
    (ending : control.Ending view address length start final count
      (.error error)) :
    control.Failure view start address length error ∧
      (view.mapped final = view.mapped start ∨
        ∃ page, error = unmapRefused page.frame ∧
          control.RefusesUnmap view start page ∧
          view.mapped final = insert page (view.mapped start)) := by
  cases ending with
  | failed failure released => exact ⟨failure, .inl released⟩
  | stuck failure refused kept => exact ⟨failure, .inr ⟨_, rfl, refused, kept⟩⟩

theorem Failure.absent {error : VmiError} (willing : control.Willing view host)
    (failure : control.Failure view host address length error) :
    readRange (view.memory host control.domainId) address.raw.toNat length =
      none := by
  have missing {place : Nat}
      (inside : address.raw.toNat ≤ place ∧ place < address.raw.toNat + length)
      (absent : view.memory host control.domainId place = none) :
      readRange (view.memory host control.domainId) address.raw.toNat length =
        none := by
    have below : place - address.raw.toNat < length := by omega
    refine readRange_of_absent below ?_
    rwa [Nat.add_sub_of_le inside.1]
  have addressBound := address.raw.toNat_lt
  cases failure with
  | missing absent =>
      obtain ⟨map, loaded⟩ := willing.loaded
      rw [absent] at loaded
      contradiction
  | poisoned poison =>
      rw [willing.sound] at poison
      contradiction
  | offset long =>
      exact missing ⟨addressBound.le, by omega⟩
        (atAddress_of_le _ (Nat.le_refl _))
  | overflow past =>
      exact missing ⟨addressBound.le, past⟩
        (atAddress_of_le _ (Nat.le_refl _))
  | mapping inside frameEq refused =>
      exact missing inside (willing.maps _ _ frameEq refused)
  | unmapping _ _ refused => exact absurd refused (willing.unmaps _)

end Transfers

section Reads

variable {control : XenCtrlMemory ω} {view : HostView ω}

theorem readInto_transfers (documented : Documented control.library view)
    (host : ω) (address : Gpa) (length : Nat) :
    ∃ filled, ∃ count ≤ length, ∃ result,
      control.Transferred view address false host
          (control.readInto host address length).1
          (⟨List.replicate length 0, List.length_replicate⟩ : Lent length)
          filled count ∧
        control.Ending view address length host
          (control.readInto host address length).1 count result ∧
        (control.readInto host address length).2 =
          result.map fun _ => filled := by
  generalize ended : control.access host address false
    (⟨List.replicate length 0, List.length_replicate⟩ : Lent length) = outcome
  obtain ⟨final, filled, result⟩ := outcome
  obtain ⟨count, within, moved, ending⟩ :=
    access_transfers documented host _ ended
  refine ⟨filled, count, within, result, ?_⟩
  rw [readInto, ended]
  exact ⟨moved, ending, rfl⟩

theorem readInto_keeps (documented : Documented control.library view)
    (host : ω) (address : Gpa) (length : Nat) (domainId : UInt32) :
    view.contents (control.readInto host address length).1 domainId =
      view.contents host domainId := by
  obtain ⟨_, _, _, _, moved, _⟩ :=
    readInto_transfers documented host address length
  by_cases other : domainId = control.domainId
  · subst other
    funext place
    have same := congrFun moved.memory place.toNat
    rwa [if_neg (by decide), HostView.memory, HostView.memory,
      atAddress_toNat _ rfl, atAddress_toNat _ rfl] at same
  · rw [moved.others domainId other]

theorem readInto_ok (documented : Documented control.library view) {host : ω}
    {address : Gpa} {length : Nat} {buffer : Lent length}
    (succeeded : (control.readInto host address length).2 = .ok buffer) :
    readRange (view.memory host control.domainId) address.raw.toNat length =
        some buffer.val ∧
      view.mapped (control.readInto host address length).1 =
        view.mapped host := by
  obtain ⟨filled, count, _, outcome, moved, ending, resultEq⟩ :=
    readInto_transfers documented host address length
  rw [resultEq] at succeeded
  cases ending with
  | complete all released =>
      subst all
      obtain ⟨bytes, read, filledEq⟩ := moved.moved
      cases succeeded
      refine ⟨?_, released⟩
      rw [read, filledEq, if_neg (by decide), List.drop_replicate,
        Nat.sub_self, List.replicate_zero, List.append_nil]
  | failed | stuck => contradiction

theorem readInto_error (documented : Documented control.library view)
    {host : ω} {address : Gpa} {length : Nat} {error : VmiError}
    (failed : (control.readInto host address length).2 = .error error) :
    control.Failure view host address length error ∧
      (view.mapped (control.readInto host address length).1 =
          view.mapped host ∨
        ∃ page, error = unmapRefused page.frame ∧
          control.RefusesUnmap view host page ∧
          view.mapped (control.readInto host address length).1 =
            insert page (view.mapped host)) := by
  obtain ⟨_, count, within, outcome, _, ending, resultEq⟩ :=
    readInto_transfers documented host address length
  rw [resultEq] at failed
  cases outcome with
  | ok => contradiction
  | error reason =>
      cases failed
      exact ending.left_mapped

theorem readInto_of_bytes {host : ω} {address : Gpa} {length : Nat}
    {out : List UInt8}
    (shown : (⟨fun address length => (control.readInto host address length).2⟩ :
      MemoryAccess).bytes address length = .ok out) :
    (control.readInto host address length).2.map Subtype.val = .ok out := by
  change ((control.readInto host address length).2 >>= fun buffer =>
    .ok buffer.val) = .ok out at shown
  cases read : (control.readInto host address length).2 with
  | ok buffer =>
      rw [read] at shown
      exact shown
  | error error =>
      rw [read] at shown
      contradiction

/-- Over a willing host reads show the memory of the domain byte by byte. -/
theorem holdsBytes_of_willing (documented : Documented control.library view)
    {host : ω} (willing : control.Willing view host) :
    HoldsBytes ⟨fun address length => (control.readInto host address length).2⟩
      (view.contents host control.domainId) := by
  intro address length out
  change ((control.readInto host address length).2 >>= fun buffer =>
    .ok buffer.val) = .ok out ↔ _
  cases read : (control.readInto host address length).2 with
  | ok buffer =>
      rw [ok_bind, Except.ok.injEq, ← HostView.memory,
        (readInto_ok documented read).1, Option.some.injEq]
  | error error =>
      rw [error_bind, ← HostView.memory,
        (readInto_error documented read).1.absent willing]
      simp

/-- A guest with two pages, each byte the low one of its address. -/
def twoPages : Domain :=
  ⟨fun address => address.toUInt8, fun frame => frame = 1 ∨ frame = 2⟩

def twoPagesHost (unmaps : Bool) : WindowHost :=
  ⟨fun _ => twoPages, none, unmaps, nofun⟩

def windowControl : XenCtrlMemory WindowHost :=
  ⟨WindowHost.library, ⟨0, false⟩, 3⟩

end Reads

section Writes

variable {control : XenCtrlMemory ω} {view : HostView ω}

theorem write_transfers (documented : Documented control.library view)
    (host : ω) (address : Gpa) {data : List UInt8}
    (room : data.length < 2 ^ 63) :
    ∃ filled, ∃ count ≤ data.length,
      control.Transferred view address true host
          (control.write host address data).1 (⟨data, rfl⟩ : Lent data.length)
          filled count ∧
        control.Ending view address data.length host
          (control.write host address data).1 count
          (control.write host address data).2 := by
  have reserved : tryReserveExact data.length
      "failed to allocate Xen write buffer" = .ok () :=
    tryReserveExact_eq_ok.mpr room
  generalize ended : control.access host address true
    (⟨data, rfl⟩ : Lent data.length) = outcome
  obtain ⟨final, filled, result⟩ := outcome
  obtain ⟨count, within, moved, ending⟩ :=
    access_transfers documented host _ ended
  refine ⟨filled, count, within, ?_⟩
  rw [write, reserved, ended]
  exact ⟨moved, ending⟩

end Writes

end XenCtrlMemory

end LibVmi.Xen
