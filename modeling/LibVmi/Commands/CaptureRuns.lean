import LibVmi.Commands.Capture

namespace LibVmi.Commands

open Data

variable {status : Type} {limits : Limits}

/-! What one step of a reader does. -/

inductive Effect (limits : Limits) (shared : Shared) :
    Reader → Shared → Reader → Option Nat → Prop
  | read {bytes chunk rest : List UInt8} :
      Effect limits shared ⟨bytes, chunk ++ rest, .reading⟩
        shared ⟨bytes, rest, .loading chunk⟩ none
  | ended {bytes : List UInt8} :
      Effect limits shared ⟨bytes, [], .reading⟩
        shared ⟨bytes, [], .finished (.ok ())⟩ none
  | readFailed {bytes rest : List UInt8} {error : String} :
      Effect limits shared ⟨bytes, rest, .reading⟩
        shared ⟨bytes, rest, .finished (.error error)⟩ none
  | loaded {bytes chunk rest : List UInt8} :
      Effect limits shared ⟨bytes, rest, .loading chunk⟩
        shared ⟨bytes, rest, .exchanging chunk shared.captured⟩ none
  | observed {bytes chunk rest : List UInt8} {current : Nat} :
      Effect limits shared ⟨bytes, rest, .exchanging chunk current⟩
        shared ⟨bytes, rest, .exchanging chunk shared.captured⟩ none
  | granted {bytes chunk rest : List UInt8} {current : Nat}
      (fits : shared.captured + chunk.length ≤ limits.capacity) :
      Effect limits shared ⟨bytes, rest, .exchanging chunk current⟩
        ⟨shared.captured + chunk.length, shared.exceeded⟩
        ⟨bytes, rest, .granted chunk⟩ (some chunk.length)
  | refused {bytes chunk rest : List UInt8} {current : Nat}
      (past : limits.capacity < current + chunk.length) :
      Effect limits shared ⟨bytes, rest, .exchanging chunk current⟩
        shared ⟨bytes, rest, .exceeding⟩ none
  | extended {bytes chunk rest : List UInt8} :
      Effect limits shared ⟨bytes, rest, .granted chunk⟩
        shared ⟨bytes ++ chunk, rest, .reading⟩ none
  | extendFailed {bytes chunk rest : List UInt8} {error : String} :
      Effect limits shared ⟨bytes, rest, .granted chunk⟩
        shared ⟨bytes, rest, .finished (.error error)⟩ none
  | stored {bytes rest : List UInt8} :
      Effect limits shared ⟨bytes, rest, .exceeding⟩
        ⟨shared.captured, true⟩ ⟨bytes, rest, .finished (.ok ())⟩ none

theorem Reader.step_effect {shared after : Shared} {reader next : Reader}
    {action : ReaderStep} {granted : Option Nat}
    (stepped : reader.step limits shared action = some (after, next, granted)) :
    Effect limits shared reader after next granted := by
  obtain ⟨bytes, rest, phase⟩ := reader
  unfold step at stepped
  simp only at stepped
  split at stepped
  · rename_i count
    split at stepped
    · obtain ⟨rfl, rfl, rfl⟩ := by simpa using stepped
      have parts := List.take_append_drop count rest
      have effect : Effect limits shared
          ⟨bytes, rest.take count ++ rest.drop count, .reading⟩ shared
          ⟨bytes, rest.drop count, .loading (rest.take count)⟩ none := .read
      rwa [parts] at effect
    · contradiction
  · split at stepped
    · rename_i empty
      obtain ⟨rfl, rfl, rfl⟩ := by simpa using stepped
      subst empty
      exact .ended
    · contradiction
  · obtain ⟨rfl, rfl, rfl⟩ := by simpa using stepped
    exact .readFailed
  · obtain ⟨rfl, rfl, rfl⟩ := by simpa using stepped
    exact .loaded
  · split at stepped
    · rename_i turn
      obtain ⟨rfl, rfl, rfl⟩ := by simpa using stepped
      obtain ⟨rfl, fits⟩ := Budget.turn_granted turn
      exact .granted fits
    · rename_i turn
      obtain ⟨rfl, rfl, rfl⟩ := by simpa using stepped
      obtain rfl := Budget.turn_observed turn
      exact .observed
    · rename_i turn
      obtain ⟨rfl, rfl, rfl⟩ := by simpa using stepped
      exact .refused (Budget.turn_refused limits.representable turn)
  · split at stepped
    · obtain ⟨rfl, rfl, rfl⟩ := by simpa using stepped
      exact .extended
    · obtain ⟨rfl, rfl, rfl⟩ := by simpa using stepped
      exact .extendFailed
  · obtain ⟨rfl, rfl, rfl⟩ := by simpa using stepped
    exact .stored
  · contradiction

/-! What a reader holds of the budget and what it may still ask for. -/

def Reader.kept (reader : Reader) : Nat :=
  match reader.phase with
  | .granted chunk => reader.bytes.length + chunk.length
  | _ => reader.bytes.length

def Reader.left (reader : Reader) : Nat :=
  match reader.phase with
  | .reading => reader.rest.length
  | .loading chunk => chunk.length + reader.rest.length
  | .exchanging chunk _ => chunk.length + reader.rest.length
  | .granted _ => reader.rest.length
  | .exceeding => 0
  | .finished _ => 0

/-- `whole` is all that the pipe of the reader gives, and `total` what both pipes
give. -/
def Reader.Sound (capacity total : Nat) (shared : Shared) (whole : List UInt8)
    (reader : Reader) : Prop :=
  match reader.phase with
  | .reading => reader.bytes ++ reader.rest = whole
  | .loading chunk => reader.bytes ++ (chunk ++ reader.rest) = whole
  | .exchanging chunk current =>
      reader.bytes ++ (chunk ++ reader.rest) = whole ∧
        current ≤ shared.captured
  | .granted chunk => reader.bytes ++ (chunk ++ reader.rest) = whole
  | .exceeding => capacity < total
  | .finished (.ok ()) => reader.bytes = whole ∨ shared.exceeded = true
  | .finished (.error _) => True

structure Shared.Grows (shared after : Shared) : Prop where
  captured : shared.captured ≤ after.captured
  exceeded : shared.exceeded = true → after.exceeded = true

theorem Shared.Grows.refl (shared : Shared) : shared.Grows shared :=
  ⟨Nat.le_refl _, id⟩

/-- What one reader does leaves the other reader sound. -/
theorem Reader.Sound.grows {capacity total : Nat} {shared after : Shared}
    {whole : List UInt8} {reader : Reader}
    (sound : reader.Sound capacity total shared whole)
    (grows : shared.Grows after) :
    reader.Sound capacity total after whole := by
  obtain ⟨bytes, rest, phase⟩ := reader
  cases phase with
  | exchanging chunk current =>
      exact ⟨sound.1, Nat.le_trans sound.2 grows.captured⟩
  | finished result =>
      cases result with
      | ok done => exact sound.imp_right grows.exceeded
      | error error => trivial
  | _ => exact sound

namespace Effect

variable {shared after : Shared} {reader next : Reader} {granted : Option Nat}

theorem not_finished (effect : Effect limits shared reader after next granted)
    (result : Except String Unit) : reader.phase ≠ .finished result := by
  cases effect <;> exact nofun

theorem grows (effect : Effect limits shared reader after next granted) :
    shared.Grows after := by
  cases effect with
  | granted fits => exact ⟨Nat.le_add_right _ _, id⟩
  | stored => exact ⟨Nat.le_refl _, fun _ => rfl⟩
  | _ => exact .refl shared

theorem captured (effect : Effect limits shared reader after next granted) :
    after.captured = shared.captured + granted.getD 0 := by
  cases effect <;> rfl

theorem bounded (effect : Effect limits shared reader after next granted)
    (bound : shared.captured ≤ limits.capacity) :
    after.captured ≤ limits.capacity := by
  cases effect with
  | granted fits => exact fits
  | _ => exact bound

theorem kept_le (effect : Effect limits shared reader after next granted) :
    next.kept ≤ reader.kept + granted.getD 0 := by
  cases effect <;> simp [Reader.kept]

theorem left_le (effect : Effect limits shared reader after next granted) :
    next.left + granted.getD 0 ≤ reader.left := by
  cases effect <;> simp [Reader.left, Nat.add_comm]

/-- The reservation is refused only where all that has been read is more than
the capacity, however old the value is that the reader saw. -/
theorem sound {total : Nat} {whole : List UInt8}
    (effect : Effect limits shared reader after next granted)
    (sound : reader.Sound limits.capacity total shared whole)
    (room : shared.captured + reader.left ≤ total) :
    next.Sound limits.capacity total after whole := by
  cases effect with
  | read => simpa [Reader.Sound] using sound
  | ended => exact .inl (by simpa [Reader.Sound] using sound)
  | readFailed => trivial
  | loaded => exact ⟨sound, Nat.le_refl _⟩
  | observed => exact ⟨sound.1, Nat.le_refl _⟩
  | granted fits => exact sound.1
  | refused past =>
      have seen := sound.2
      simp only [Reader.left] at room
      simp only [Reader.Sound]
      omega
  | extended => simpa [Reader.Sound] using sound
  | extendFailed => trivial
  | stored => exact .inr rfl

theorem exceeded {total : Nat} {whole : List UInt8}
    (effect : Effect limits shared reader after next granted)
    (sound : reader.Sound limits.capacity total shared whole)
    (flagged : shared.exceeded = true → limits.capacity < total) :
    after.exceeded = true → limits.capacity < total := by
  cases effect with
  | stored => exact fun _ => sound
  | granted fits => exact flagged
  | _ => exact flagged

end Effect

/-! What the main thread has learned. -/

def Reader.Ended (reader : Reader) (bytes : List UInt8) : Prop :=
  reader.phase = .finished (.ok ()) ∧ reader.bytes = bytes

def Main.Sound (limits : Limits) (total : Nat) (pipes : Stream → List UInt8)
    (readers : Stream → Reader) : Main status → Prop
  | .polling => True
  | .checking => True
  | .joiningStdout _ => True
  | .joiningStderr _ stdout => (readers .stdout).Ended stdout
  | .verifying _ stdout stderr =>
      (readers .stdout).Ended stdout ∧ (readers .stderr).Ended stderr
  | .returned (.ok (_, stdout, stderr)) =>
      stdout = pipes .stdout ∧ stderr = pipes .stderr ∧ total ≤ limits.capacity
  | .returned (.error failure) =>
      failure = .outputExceeded → limits.capacity < total

def totalOf (pipes : Stream → List UInt8) : Nat :=
  (pipes .stdout).length + (pipes .stderr).length

structure System.Sound (limits : Limits) (pipes : Stream → List UInt8)
    (system : System status) : Prop where
  bounded : system.shared.captured ≤ limits.capacity
  kept : (system.readers .stdout).kept + (system.readers .stderr).kept ≤
    system.shared.captured
  left : system.shared.captured + ((system.readers .stdout).left +
    (system.readers .stderr).left) ≤ totalOf pipes
  readers : ∀ stream, (system.readers stream).Sound limits.capacity
    (totalOf pipes) system.shared (pipes stream)
  flagged : system.shared.exceeded = true → limits.capacity < totalOf pipes
  main : system.main.Sound limits (totalOf pipes) pipes system.readers

theorem System.sound_initial (pipes : Stream → List UInt8) :
    (System.initial pipes : System status).Sound limits pipes where
  bounded := Nat.zero_le _
  kept := Nat.le_refl 0
  left := by simp [System.initial, Reader.left, totalOf]
  readers := fun stream => rfl
  flagged := nofun
  main := trivial

/-- A reader that has ended is not the one that takes a step. -/
theorem Reader.Ended.update {readers : Stream → Reader} {stream other : Stream}
    {bytes : List UInt8} (ended : (readers other).Ended bytes)
    (running : ∀ result, (readers stream).phase ≠ .finished result)
    (next : Reader) :
    (if other = stream then next else readers other).Ended bytes := by
  by_cases same : other = stream
  · subst same
    exact absurd ended.1 (running _)
  · rw [if_neg same]
    exact ended

theorem Main.Sound.update {total : Nat} {pipes : Stream → List UInt8}
    {readers : Stream → Reader} {main : Main status} {stream : Stream}
    (sound : main.Sound limits total pipes readers)
    (running : ∀ result, (readers stream).phase ≠ .finished result)
    (next : Reader) :
    main.Sound limits total pipes fun other =>
      if other = stream then next else readers other := by
  cases main with
  | joiningStderr exit stdout =>
      exact Reader.Ended.update sound running next
  | verifying exit stdout stderr =>
      exact ⟨sound.1.update running next, sound.2.update running next⟩
  | returned result =>
      cases result with
      | ok captured => exact sound
      | error failure => exact sound
  | _ => trivial

theorem System.Sound.reader {pipes : Stream → List UInt8}
    {system : System status} (sound : system.Sound limits pipes)
    {stream : Stream} {after : Shared} {next : Reader} {granted : Option Nat}
    (effect : Effect limits system.shared (system.readers stream) after next
      granted) :
    (system.update after stream next).Sound limits pipes := by
  have keptLe := effect.kept_le
  have leftLe := effect.left_le
  have capturedEq := effect.captured
  have kept := sound.kept
  have left := sound.left
  have room : system.shared.captured + (system.readers stream).left ≤
      totalOf pipes := by
    cases stream <;> omega
  constructor
  · exact effect.bounded sound.bounded
  · cases stream <;> simp [System.update] <;> omega
  · cases stream <;> simp [System.update] <;> omega
  · intro other
    by_cases same : other = stream
    · subst same
      simpa [System.update] using effect.sound (sound.readers other) room
    · simpa [System.update, same] using
        (sound.readers other).grows effect.grows
  · exact effect.exceeded (sound.readers stream) sound.flagged
  · exact sound.main.update effect.not_finished next

theorem System.Sound.goTo {pipes : Stream → List UInt8}
    {system : System status} (sound : system.Sound limits pipes)
    {main : Main status}
    (next : main.Sound limits (totalOf pipes) pipes system.readers) :
    (system.goTo main).Sound limits pipes :=
  ⟨sound.bounded, sound.kept, sound.left, sound.readers, sound.flagged, next⟩

/-- A reader that has ended without the flag being set has read its pipe. -/
theorem System.Sound.complete {pipes : Stream → List UInt8}
    {system : System status} (sound : system.Sound limits pipes)
    {stream : Stream} {bytes : List UInt8}
    (ended : (system.readers stream).Ended bytes)
    (clear : system.shared.exceeded = false) :
    bytes = pipes stream ∧ (system.readers stream).kept = bytes.length := by
  obtain ⟨phase, same⟩ := ended
  have holds := sound.readers stream
  simp only [Reader.Sound, phase] at holds
  rw [same, clear] at holds
  refine ⟨holds.resolve_right nofun, ?_⟩
  simp only [Reader.kept, phase, same]

theorem validateLengths_exceeded {stdout stderr : Nat}
    (refused : validateLengths limits stdout stderr = .error .outputExceeded) :
    limits.capacity < stdout + stderr := by
  obtain overflow | ⟨total, added, past⟩ := bind_eq_error.mp refused
  · exact absurd (okOr_eq_error.mp overflow).2 nofun
  · obtain ⟨totalEq, _⟩ := Usize.checkedAdd_eq_some.mp (okOr_eq_ok.mp added)
    have bound := (rejectIf_eq_error.mp past).1
    omega

theorem System.Sound.finish {pipes : Stream → List UInt8}
    {system : System status} (sound : system.Sound limits pipes)
    {exit : status} {stdout stderr : List UInt8}
    (stdoutEnded : (system.readers .stdout).Ended stdout)
    (stderrEnded : (system.readers .stderr).Ended stderr) :
    (Main.returned (system.finish limits exit stdout stderr)).Sound limits
      (totalOf pipes) pipes system.readers := by
  cases flag : system.shared.exceeded with
  | true =>
      simp only [System.finish, flag]
      exact fun _ => sound.flagged flag
  | false =>
      obtain ⟨stdoutEq, stdoutKept⟩ := sound.complete stdoutEnded flag
      obtain ⟨stderrEq, stderrKept⟩ := sound.complete stderrEnded flag
      have kept := sound.kept
      have bounded := sound.bounded
      have total : totalOf pipes = stdout.length + stderr.length := by
        rw [totalOf, stdoutEq, stderrEq]
      have fits : totalOf pipes ≤ limits.capacity := by omega
      simp only [System.finish, flag, Bool.false_eq_true,
        rejectIf_neg not_false, ok_bind]
      cases limits.validated with
      | false => exact ⟨stdoutEq, stderrEq, fits⟩
      | true =>
          cases valid : validateLengths limits stdout.length stderr.length with
          | ok done => exact ⟨stdoutEq, stderrEq, fits⟩
          | error failure =>
              intro same
              subst same
              rw [total]
              exact validateLengths_exceeded valid

/-! Every step of the system. -/

inductive Moves (limits : Limits) (system : System status) :
    Main status → Prop
  | waitFailed {error : String} :
      Moves limits system (.returned (.error (.wait error)))
  | running : Moves limits system .checking
  | exited {exit : status} : Moves limits system (.joiningStdout exit)
  | exceeded (flag : system.shared.exceeded = true) :
      Moves limits system (.returned (.error .outputExceeded))
  | timedOut : Moves limits system (.returned (.error .timedOut))
  | again : Moves limits system .polling
  | readFailed {stream : Stream} {error : String} :
      Moves limits system (.returned (.error (.read stream error)))
  | stdoutEnded {exit : status}
      (ended : (system.readers .stdout).phase = .finished (.ok ())) :
      Moves limits system
        (.joiningStderr exit (system.readers .stdout).bytes)
  | stderrEnded {exit : status} {stdout : List UInt8}
      (joining : system.main = .joiningStderr exit stdout)
      (ended : (system.readers .stderr).phase = .finished (.ok ())) :
      Moves limits system
        (.verifying exit stdout (system.readers .stderr).bytes)
  | verified {exit : status} {stdout stderr : List UInt8}
      (verifying : system.main = .verifying exit stdout stderr) :
      Moves limits system
        (.returned (system.finish limits exit stdout stderr))

theorem System.act_cases {system next : System status}
    {action : Action status} {granted : Option Nat}
    (acted : system.act limits action = some (next, granted)) :
    (∃ stream after reader,
      Effect limits system.shared (system.readers stream) after reader
        granted ∧ next = system.update after stream reader) ∨
    ∃ main, Moves limits system main ∧ next = system.goTo main ∧
      granted = none := by
  cases action with
  | reader stream step =>
      obtain ⟨⟨after, reader, response⟩, stepped, same⟩ :=
        Option.bind_eq_some_iff.mp acted
      obtain ⟨rfl, rfl⟩ := Prod.mk.inj (Option.some.inj same)
      exact .inl ⟨stream, after, reader, Reader.step_effect stepped, rfl⟩
  | wait outcome =>
      simp only [act] at acted
      split at acted
      · obtain ⟨rfl, rfl⟩ := Prod.mk.inj (Option.some.inj acted)
        exact .inr ⟨_, .waitFailed, rfl, rfl⟩
      · obtain ⟨rfl, rfl⟩ := Prod.mk.inj (Option.some.inj acted)
        exact .inr ⟨_, .running, rfl, rfl⟩
      · obtain ⟨rfl, rfl⟩ := Prod.mk.inj (Option.some.inj acted)
        exact .inr ⟨_, .exited, rfl, rfl⟩
      · contradiction
  | check expired =>
      simp only [act] at acted
      split at acted
      · split at acted
        · rename_i flag
          obtain ⟨rfl, rfl⟩ := Prod.mk.inj (Option.some.inj acted)
          exact .inr ⟨_, .exceeded flag, rfl, rfl⟩
        · split at acted
          · obtain ⟨rfl, rfl⟩ := Prod.mk.inj (Option.some.inj acted)
            exact .inr ⟨_, .timedOut, rfl, rfl⟩
          · obtain ⟨rfl, rfl⟩ := Prod.mk.inj (Option.some.inj acted)
            exact .inr ⟨_, .again, rfl, rfl⟩
      · contradiction
  | join =>
      simp only [act] at acted
      split at acted
      · split at acted
        · rename_i ended
          obtain ⟨rfl, rfl⟩ := Prod.mk.inj (Option.some.inj acted)
          exact .inr ⟨_, .stdoutEnded ended, rfl, rfl⟩
        · obtain ⟨rfl, rfl⟩ := Prod.mk.inj (Option.some.inj acted)
          exact .inr ⟨_, .readFailed, rfl, rfl⟩
        · contradiction
      · rename_i joining
        split at acted
        · rename_i ended
          obtain ⟨rfl, rfl⟩ := Prod.mk.inj (Option.some.inj acted)
          exact .inr ⟨_, .stderrEnded joining ended, rfl, rfl⟩
        · obtain ⟨rfl, rfl⟩ := Prod.mk.inj (Option.some.inj acted)
          exact .inr ⟨_, .readFailed, rfl, rfl⟩
        · contradiction
      · contradiction
  | verify =>
      simp only [act] at acted
      split at acted
      · rename_i verifying
        obtain ⟨rfl, rfl⟩ := Prod.mk.inj (Option.some.inj acted)
        exact .inr ⟨_, .verified verifying, rfl, rfl⟩
      · contradiction

theorem System.Sound.moves {pipes : Stream → List UInt8}
    {system : System status} {main : Main status}
    (sound : system.Sound limits pipes) (moved : Moves limits system main) :
    main.Sound limits (totalOf pipes) pipes system.readers := by
  have learned := sound.main
  cases moved with
  | waitFailed => exact nofun
  | running => trivial
  | exited => trivial
  | exceeded flag => exact fun _ => sound.flagged flag
  | timedOut => exact nofun
  | again => trivial
  | readFailed => exact nofun
  | stdoutEnded ended => exact ⟨ended, rfl⟩
  | stderrEnded joining ended =>
      rw [joining] at learned
      exact ⟨learned, ended, rfl⟩
  | verified verifying =>
      rw [verifying] at learned
      exact sound.finish learned.1 learned.2

theorem System.Sound.act {pipes : Stream → List UInt8}
    {system next : System status} {action : Action status}
    {granted : Option Nat} (sound : system.Sound limits pipes)
    (acted : system.act limits action = some (next, granted)) :
    next.Sound limits pipes := by
  obtain ⟨stream, after, reader, effect, same⟩ | ⟨main, moved, same, _⟩ :=
    act_cases acted
  · subst same
    exact sound.reader effect
  · subst same
    exact sound.goTo (sound.moves moved)

theorem System.act_captured {system next : System status}
    {action : Action status} {granted : Option Nat}
    (acted : system.act limits action = some (next, granted)) :
    next.shared.captured = system.shared.captured + granted.getD 0 := by
  obtain ⟨stream, after, reader, effect, same⟩ |
    ⟨main, _, same, nothing⟩ := act_cases acted
  · subst same
    exact effect.captured
  · subst same nothing
    rfl

/-- The reservations granted in a history. -/
def grants (labels : List (Action status × Option Nat)) : List Nat :=
  labels.filterMap Prod.snd

theorem sum_grants_append (labels : List (Action status × Option Nat))
    (label : Action status × Option Nat) :
    (grants (labels ++ [label])).sum =
      (grants labels).sum + label.2.getD 0 := by
  obtain ⟨action, granted⟩ := label
  cases granted <;> simp [grants]

theorem System.result_eq_ok {system : System status}
    {captured : status × List UInt8 × List UInt8} :
    system.result limits = some (.ok captured) →
      system.main = .returned (.ok captured) := by
  intro returned
  unfold result at returned
  split at returned
  · rename_i outcome main
    rw [main, mapError_eq_ok.mp (Option.some.inj returned)]
  · contradiction

theorem System.result_eq_error {system : System status} {error : VmiError} :
    system.result limits = some (.error error) →
      ∃ failure, system.main = .returned (.error failure) ∧
        failure.error limits = error := by
  intro returned
  unfold result at returned
  split at returned
  · rename_i outcome main
    obtain ⟨failure, same, rendered⟩ :=
      mapError_eq_error.mp (Option.some.inj returned)
    exact ⟨failure, by rw [main, same], rendered⟩
  · contradiction

theorem System.start_eq_ok {timeout : Nat} {pipes : Stream → List UInt8}
    {started : System status}
    (start : System.start limits timeout pipes = .ok started) :
    started = initial pipes := by
  unfold System.start at start
  split at start
  · obtain ⟨_, _, start⟩ := bind_eq_ok.mp start
    obtain ⟨_, _, start⟩ := bind_eq_ok.mp start
    exact (Except.ok.inj start).symm
  · exact (Except.ok.inj start).symm

theorem sound_of_run {pipes : Stream → List UInt8} {final : System status}
    {labels : List (Action status × Option Nat)}
    (run : Run (Answers (System.act limits)) (System.initial pipes) labels
      final) : final.Sound limits pipes :=
  run.invariant (System.Sound limits pipes) (fun _ => True)
    (fun _ _ _ sound _ step => sound.act step) (System.sound_initial pipes)
    fun _ _ => trivial

theorem captured_of_run {pipes : Stream → List UInt8} {final : System status}
    {labels : List (Action status × Option Nat)}
    (run : Run (Answers (System.act limits)) (System.initial pipes) labels
      final) : final.shared.captured = (grants labels).sum := by
  have kept : ∀ past (current : System status) label next,
      current.shared.captured = (grants past).sum →
        Answers (System.act limits) current label next →
          next.shared.captured = (grants (past ++ [label])).sum := by
    intro past current label next counted step
    rw [sum_grants_append, ← counted]
    exact System.act_captured step
  have nothing : (System.initial pipes : System status).shared.captured =
      (grants ([] : List (Action status × Option Nat))).sum := rfl
  exact run.history
    (fun past (current : System status) =>
      current.shared.captured = (grants past).sum) kept nothing

/-- The capture is exact, however the pipes are cut into reads and the steps
interleave. -/
theorem capture_exact {timeout : Nat} {pipes : Stream → List UInt8}
    {started final : System status}
    {labels : List (Action status × Option Nat)}
    (start : System.start limits timeout pipes = .ok started)
    (run : Run (Answers (System.act limits)) started labels final) :
    final.shared.captured = (grants labels).sum ∧
    final.shared.captured ≤ limits.capacity ∧
    (∀ exit stdout stderr,
      final.result limits = some (.ok (exit, stdout, stderr)) →
        stdout = pipes .stdout ∧ stderr = pipes .stderr) ∧
    (limits.capacity < (pipes .stdout).length + (pipes .stderr).length →
      ∀ result, final.result limits = some result →
        ∃ error, result = .error error) ∧
    ((pipes .stdout).length + (pipes .stderr).length ≤ limits.capacity →
      final.result limits ≠
        some (.error (Failure.outputExceeded.error limits))) := by
  obtain rfl := System.start_eq_ok start
  have sound := sound_of_run run
  have learned := sound.main
  refine ⟨captured_of_run run, sound.bounded, ?_, ?_, ?_⟩
  · intro exit stdout stderr returned
    rw [System.result_eq_ok returned] at learned
    exact ⟨learned.1, learned.2.1⟩
  · intro past result returned
    cases result with
    | error error => exact ⟨error, rfl⟩
    | ok captured =>
        rw [System.result_eq_ok returned] at learned
        exact absurd learned.2.2 (Nat.not_le.mpr past)
  · intro fits returned
    obtain ⟨failure, main, rendered⟩ := System.result_eq_error returned
    obtain rfl := Failure.error_eq_exceeded rendered
    rw [main] at learned
    exact absurd (learned rfl) (Nat.not_lt.mpr fits)

/-- Two readers that see the counter before either has changed it, and an
exchange that fails although nothing has moved. -/
def racingReaders : List (Action Nat × Option Nat) :=
  [(.reader .stdout (.read 2), none), (.reader .stderr (.read 1), none),
    (.reader .stdout .load, none), (.reader .stderr .load, none),
    (.reader .stdout (.exchange false), some 2),
    (.reader .stderr (.exchange false), none),
    (.reader .stderr (.exchange true), none),
    (.reader .stderr (.exchange false), some 1),
    (.wait (.ok none), none), (.check false, none),
    (.reader .stdout (.extend (.ok ())), none),
    (.reader .stderr (.extend (.ok ())), none),
    (.wait (.ok (some 0)), none), (.reader .stdout .readEnd, none),
    (.reader .stderr .readEnd, none), (.join, none), (.join, none),
    (.verify, none)]

def smallPipes : Stream → List UInt8
  | .stdout => [1, 2]
  | .stderr => [3]

def smallLimits : Limits := xen "xl" 3 (by decide)

theorem racingReaders_run : ∃ final : System Nat,
    Run (Answers (System.act smallLimits)) (System.initial smallPipes)
        racingReaders final ∧
      final.result smallLimits = some (.ok (0, [1, 2], [3])) :=
  ⟨_, .cons rfl (.cons rfl (.cons rfl (.cons rfl (.cons rfl (.cons rfl
    (.cons rfl (.cons rfl (.cons rfl (.cons rfl (.cons rfl (.cons rfl
    (.cons rfl (.cons rfl (.cons rfl (.cons rfl (.cons rfl (.cons rfl
    .nil))))))))))))))))), rfl⟩

theorem racingReaders_run_libvirt : ∃ final : System Nat,
    Run (Answers (System.act libvirt)) (System.initial smallPipes)
        racingReaders final ∧
      final.result libvirt = some (.ok (0, [1, 2], [3])) :=
  ⟨_, .cons rfl (.cons rfl (.cons rfl (.cons rfl (.cons rfl (.cons rfl
    (.cons rfl (.cons rfl (.cons rfl (.cons rfl (.cons rfl (.cons rfl
    (.cons rfl (.cons rfl (.cons rfl (.cons rfl (.cons rfl (.cons rfl
    .nil))))))))))))))))), rfl⟩

/-- The readers fill a budget of three bytes, and a part of the one that the
libvirt driver has. -/
theorem capture_exact_racing_readers :
    (∃ final : System Nat,
      Run (Answers (System.act smallLimits)) (System.initial smallPipes)
          racingReaders final ∧
        final.shared.captured = 3 ∧
        final.result smallLimits = some (.ok (0, [1, 2], [3]))) ∧
      ∃ final : System Nat,
        Run (Answers (System.act libvirt)) (System.initial smallPipes)
            racingReaders final ∧
          final.shared.captured ≤ 1024 * 1024 ∧
          final.result libvirt = some (.ok (0, [1, 2], [3])) := by
  obtain ⟨small, smallRun, smallReturned⟩ := racingReaders_run
  obtain ⟨large, largeRun, largeReturned⟩ := racingReaders_run_libvirt
  have smallStarted : System.start smallLimits 30 smallPipes =
      .ok (System.initial smallPipes : System Nat) := rfl
  have largeStarted : System.start libvirt 30 smallPipes =
      .ok (System.initial smallPipes : System Nat) := rfl
  exact ⟨⟨small, smallRun, (capture_exact smallStarted smallRun).1,
      smallReturned⟩,
    large, largeRun, (capture_exact largeStarted largeRun).2.1, largeReturned⟩

end LibVmi.Commands
