import LibVmi.Data.Runs
import LibVmi.VirtualBox.Texts
import Mathlib.Logic.Relation

namespace LibVmi.VirtualBox

open Data
open Relation (ReflTransGen)
open Xen (ExecutionState)

/-! The machine behind the tool, and what the provider makes of it. Its guest
moves on its own, also while a command is carried out. -/

structure Machine where
  state : String
  register : UInt32 → List Char → Option UInt64

def Machine.store (machine : Machine) (vcpu : UInt32) (name : List Char)
    (value : UInt64) : Machine :=
  { machine with
    register := fun other given =>
      if other = vcpu ∧ given = name then some value
      else machine.register other given }

@[simp] theorem Machine.store_register (machine : Machine) (vcpu : UInt32)
    (name : List Char) (value : UInt64) :
    (machine.store vcpu name value).register vcpu name = some value :=
  if_pos ⟨rfl, rfl⟩

/-- A tool that keeps to its documentation, of a machine whose guest moves step
by step. A write leaves in a register what the register keeps of the value, and
a command that fails has done nothing. -/
structure Obeys (transport : VBoxManageTransport ω) (vm : String)
    (keeps : UInt32 → List Char → UInt64 → UInt64)
    (guest : Machine → Machine → Prop) (machine : ω → Machine) : Prop where
  showvminfo : ∀ world,
    let (after, output) :=
      transport.execute world ["showvminfo", vm, "--machinereadable"]
    ∃ seen, ReflTransGen guest (machine world) seen ∧
      ReflTransGen guest seen (machine after) ∧
      ∀ text, output = .ok text → ShowsState seen.state text
  getregisters : ∀ world cpu vcpu register,
    Denotes 10 cpu.toList (vcpu : UInt32) → register.toList ≠ [] →
    (∀ char ∈ register.toList, char.isAlphanum) →
    let (after, output) := transport.execute world
      ["debugvm", vm, "getregisters", "--cpu", cpu, register]
    ∃ seen, ReflTransGen guest (machine world) seen ∧
      ReflTransGen guest seen (machine after) ∧
      ∀ text, output = .ok text → ∃ value,
        seen.register vcpu (lower register.toList) = some value ∧
          ShowsRegister register.toList value text
  setregisters : ∀ world cpu vcpu assignment register digits value,
    Denotes 10 cpu.toList (vcpu : UInt32) → register ≠ [] →
    (∀ char ∈ register, char.isAlphanum) →
    assignment.toList = register ++ '=' :: '0' :: 'x' :: digits →
    Denotes 16 digits (value : UInt64) →
    let (after, output) := transport.execute world
      ["debugvm", vm, "setregisters", "--cpu", cpu, assignment]
    ∃ seen, ReflTransGen guest (machine world) seen ∧
      (∀ text, output = .ok text → ReflTransGen guest
        (seen.store vcpu (lower register) (keeps vcpu (lower register) value))
        (machine after)) ∧
      ∀ error, output = .error error →
        ReflTransGen guest seen (machine after)
  controlvm : ∀ world command state,
    (command, state) ∈ [("pause", "paused"), ("resume", "running")] →
    let (after, output) := transport.execute world ["controlvm", vm, command]
    ∃ seen, ReflTransGen guest (machine world) seen ∧
      (∀ text, output = .ok text →
        ReflTransGen guest { seen with state := state } (machine after)) ∧
      ∀ error, output = .error error →
        ReflTransGen guest seen (machine after)
  dumpvmcore : ∀ world path, ReflTransGen guest (machine world)
    (machine (transport.execute world
      ["debugvm", vm, "dumpvmcore", "--filename=" ++ path]).1)

/-- A tool that refuses nothing about a register that the machine has. The guest
does not lose registers. -/
structure Answers (transport : VBoxManageTransport ω) (vm : String)
    (guest : Machine → Machine → Prop) (machine : ω → Machine) : Prop where
  present : ∀ before after, guest before after → ∀ vcpu name,
    before.register vcpu name ≠ none → after.register vcpu name ≠ none
  showvminfo : ∀ world, ∃ text,
    (transport.execute world ["showvminfo", vm, "--machinereadable"]).2 =
      .ok text
  debugvm : ∀ world command cpu vcpu last register,
    Denotes 10 cpu.toList (vcpu : UInt32) → register ≠ [] →
    (∀ char ∈ register, char.isAlphanum) →
    (command = "getregisters" ∧ last.toList = register ∨
      command = "setregisters" ∧ ∃ digits,
        last.toList = register ++ '=' :: '0' :: 'x' :: digits ∧
        ∃ value : UInt64, Denotes 16 digits value) →
    (machine world).register vcpu (lower register) ≠ none →
    ∃ text, (transport.execute world
      ["debugvm", vm, command, "--cpu", cpu, last]).2 = .ok text
  controlvm : ∀ world, ∀ command ∈ ["pause", "resume"], ∃ text,
    (transport.execute world ["controlvm", vm, command]).2 = .ok text

theorem Answers.stays {transport : VBoxManageTransport ω} {vm : String}
    {guest : Machine → Machine → Prop} {machine : ω → Machine}
    (answers : Answers transport vm guest machine) {before after : Machine}
    (moved : ReflTransGen guest before after) {vcpu : UInt32}
    {name : List Char} (present : before.register vcpu name ≠ none) :
    after.register vcpu name ≠ none := by
  induction moved with
  | refl => exact present
  | tail _ step induction => exact answers.present _ _ step _ _ induction

/-! The calls of a session, and what each may find and do. -/

inductive Call : Type → Type
  | executionState : Call ExecutionState
  | pause : Call Unit
  | resume : Call Unit
  | readRegister (vcpu : UInt32) (register : String) : Call UInt64
  | writeRegister (vcpu : UInt32) (register : String) (value : UInt64) :
      Call Unit
  | saveSnapshot (destination : Destination) : Call Unit

structure Answered : Type 1 where
  {α : Type}
  call : Call α
  answer : Result α

namespace Call

def perform (session : VirtualBoxSession ω) (world : ω) :
    Call α → ω × Result α
  | .executionState => session.executionState world
  | .pause => session.pause world
  | .resume => session.resume world
  | .readRegister vcpu register => session.readRegister world vcpu register
  | .writeRegister vcpu register value =>
      session.writeRegister world vcpu register value
  | .saveSnapshot destination => session.saveSnapshot world destination

variable (keeps : UInt32 → List Char → UInt64 → UInt64)
  (guest : Machine → Machine → Prop)

/-- What a write makes of the machine it comes to. -/
def written (vcpu : UInt32) (register : String) (value : UInt64)
    (machine : Machine) : Machine :=
  machine.store vcpu (lower register.toList)
    (keeps vcpu (lower register.toList) value)

/-- A call that succeeds has found or done what it says, at some moment between
its start and its end. Of those that fail, only a write may have done anything,
which then did not stay as written or could not be read back. -/
def Right (before after : Machine) : Call α → Result α → Prop
  | .executionState, .ok state => ∃ seen, ReflTransGen guest before seen ∧
      ReflTransGen guest seen after ∧ state = stateOf seen.state
  | .pause, .ok _ => ∃ seen, ReflTransGen guest before seen ∧
      ReflTransGen guest { seen with state := "paused" } after
  | .resume, .ok _ => ∃ seen, ReflTransGen guest before seen ∧
      ReflTransGen guest { seen with state := "running" } after
  | .readRegister vcpu register, .ok value =>
      ∃ seen, ReflTransGen guest before seen ∧ ReflTransGen guest seen after ∧
        seen.register vcpu (lower register.toList) = some value
  | .writeRegister vcpu register value, .ok _ =>
      ∃ seen later, ReflTransGen guest before seen ∧
        ReflTransGen guest (written keeps vcpu register value seen) later ∧
        ReflTransGen guest later after ∧
        later.register vcpu (lower register.toList) = some value
  | .writeRegister vcpu register value, .error _ =>
      ReflTransGen guest before after ∨
        ∃ seen, ReflTransGen guest before seen ∧
          ReflTransGen guest (written keeps vcpu register value seen) after
  | .saveSnapshot _, _ => ReflTransGen guest before after
  | _, .error _ => ReflTransGen guest before after

/-- What is answered where the tool refuses nothing. A write succeeds where what
is found after it is what was to be written. -/
def Served (writable : Prop) (before after : Machine) :
    Call α → Result α → Prop
  | .executionState, answer => ∃ state, answer = .ok state
  | .pause, answer => answer = .ok ()
  | .resume, answer => answer = .ok ()
  | .readRegister vcpu register, answer =>
      validateRegister register = .ok () →
        before.register vcpu (lower register.toList) ≠ none →
          ∃ value, answer = .ok value
  | .writeRegister vcpu register value, answer =>
      writable → validateRegister register = .ok () →
        before.register vcpu (lower register.toList) ≠ none →
          ∃ seen later found, ReflTransGen guest before seen ∧
            ReflTransGen guest (written keeps vcpu register value seen) later ∧
            ReflTransGen guest later after ∧
            later.register vcpu (lower register.toList) = some found ∧
            (answer = .ok () ↔ found = value)
  | .saveSnapshot _, _ => True

end Call

def Performs (session : VirtualBoxSession ω) (world : ω) (answered : Answered)
    (next : ω) : Prop :=
  answered.call.perform session world = (next, answered.answer)

/-- A call is made, or the guest moves while none is. -/
inductive Happens (session : VirtualBoxSession ω)
    (guest : Machine → Machine → Prop) (machine : ω → Machine) :
    ω → Option Answered → ω → Prop
  | call {world next : ω} {answered : Answered}
      (performs : Performs session world answered next) :
      Happens session guest machine world (some answered) next
  | meanwhile {world next : ω}
      (moved : ReflTransGen guest (machine world) (machine next)) :
      Happens session guest machine world none next

def VirtualBoxSession.Writable (session : VirtualBoxSession ω) : Prop :=
  session.descriptor.capabilities.containsCapability .registerWrite = true

/-- What this is to the machine itself. -/
def MachineStep (keeps : UInt32 → List Char → UInt64 → UInt64)
    (guest : Machine → Machine → Prop) (writable reliable : Prop)
    (before : Machine) : Option Answered → Machine → Prop
  | none, after => ReflTransGen guest before after
  | some answered, after =>
      answered.call.Right keeps guest before after answered.answer ∧
        (reliable →
          answered.call.Served keeps guest writable before after
            answered.answer)

section Steps

variable {session : VirtualBoxSession ω} {machine : ω → Machine}
  {keeps : UInt32 → List Char → UInt64 → UInt64}
  {guest : Machine → Machine → Prop}

theorem validateRegister_valid {register : String}
    (valid : validateRegister register = .ok ()) :
    register.toList ≠ [] ∧ ∀ char ∈ register.toList, char.isAlphanum := by
  have given := rejectIf_eq_ok.mp valid
  rwa [not_or, Bool.not_eq_false, List.all_eq_true] at given

theorem executionState_step
    (obeys : Obeys session.transport session.target.id keeps guest machine)
    {world next : ω} {answer : Result ExecutionState}
    (performed : session.executionState world = (next, answer)) :
    Call.executionState.Right keeps guest (machine world) (machine next)
        answer ∧
      (Answers session.transport session.target.id guest machine →
        Call.executionState.Served keeps guest session.Writable
          (machine world) (machine next) answer) := by
  have told := obeys.showvminfo world
  have whole := fun answers : Answers session.transport session.target.id
    guest machine => answers.showvminfo world
  unfold VirtualBoxSession.executionState at performed
  generalize session.transport.execute world
    ["showvminfo", session.target.id, "--machinereadable"] = run at *
  obtain ⟨after, output⟩ := run
  cases performed
  obtain ⟨seen, early, late, shown⟩ := told
  have parsed : ∀ text, output = .ok text →
      output.bind parseState = .ok (stateOf seen.state) := by
    rintro text rfl
    exact parseState_shown (shown text rfl)
  cases output with
  | error error =>
      refine ⟨early.trans late, fun answers => ?_⟩
      obtain ⟨text, none⟩ := whole answers
      cases none
  | ok text =>
      rw [parsed text rfl]
      exact ⟨⟨seen, early, late, rfl⟩, fun _ => ⟨_, rfl⟩⟩

theorem control_step
    (obeys : Obeys session.transport session.target.id keeps guest machine)
    {command state : String}
    (known : (command, state) ∈ [("pause", "paused"), ("resume", "running")])
    {world next : ω} {answer : Result Unit}
    (performed : (match session.transport.execute world
        ["controlvm", session.target.id, command] with
      | (world, output) => (world, output.map fun _ => ())) =
        (next, answer)) :
    (∀ done, answer = .ok done → ∃ seen,
        ReflTransGen guest (machine world) seen ∧
          ReflTransGen guest { seen with state := state } (machine next)) ∧
      (∀ error, answer = .error error →
        ReflTransGen guest (machine world) (machine next)) ∧
      (Answers session.transport session.target.id guest machine →
        answer = .ok ()) := by
  have told := obeys.controlvm world command state known
  have whole := fun answers : Answers session.transport session.target.id
    guest machine => answers.controlvm world command (by
      simp only [List.mem_cons, Prod.mk.injEq, List.not_mem_nil, or_false]
        at known ⊢
      exact known.imp And.left And.left)
  generalize session.transport.execute world
    ["controlvm", session.target.id, command] = run at *
  obtain ⟨after, output⟩ := run
  cases performed
  obtain ⟨seen, early, done, failed⟩ := told
  cases output with
  | error error =>
      refine ⟨nofun, fun _ _ => early.trans (failed error rfl),
        fun answers => ?_⟩
      obtain ⟨text, none⟩ := whole answers
      cases none
  | ok text =>
      exact ⟨fun _ _ => ⟨seen, early, done text rfl⟩, nofun, fun _ => rfl⟩

theorem readRegister_valid {register : String}
    (valid : validateRegister register = .ok ()) (world : ω) (vcpu : UInt32) :
    session.readRegister world vcpu register =
      match session.transport.execute world ["debugvm", session.target.id,
        "getregisters", "--cpu", tryDecimalU32 vcpu, register] with
      | (world, output) => (world, output.bind (parseRegister · register)) := by
  unfold VirtualBoxSession.readRegister
  rw [valid]

theorem readRegister_step
    (obeys : Obeys session.transport session.target.id keeps guest machine)
    {vcpu : UInt32} {register : String} {world next : ω}
    {answer : Result UInt64}
    (performed : session.readRegister world vcpu register = (next, answer)) :
    (∃ seen, ReflTransGen guest (machine world) seen ∧
        ReflTransGen guest seen (machine next) ∧
        ∀ value, answer = .ok value →
          seen.register vcpu (lower register.toList) = some value) ∧
      (Answers session.transport session.target.id guest machine →
        (Call.readRegister vcpu register).Served keeps guest session.Writable
          (machine world) (machine next) answer) := by
  cases valid : validateRegister register with
  | error error =>
      unfold VirtualBoxSession.readRegister at performed
      rw [valid] at performed
      cases performed
      refine ⟨⟨_, .refl, .refl, nofun⟩, fun _ accepted => ?_⟩
      rw [valid] at accepted
      cases accepted
  | ok _ =>
      rw [readRegister_valid valid] at performed
      obtain ⟨nonempty, plain⟩ := validateRegister_valid valid
      have told := obeys.getregisters world (tryDecimalU32 vcpu) vcpu register
        (denotes_decimal vcpu) nonempty plain
      have whole := fun answers : Answers session.transport session.target.id
        guest machine => answers.debugvm world "getregisters"
          (tryDecimalU32 vcpu) vcpu register register.toList
          (denotes_decimal vcpu) nonempty plain (.inl ⟨rfl, rfl⟩)
      generalize session.transport.execute world ["debugvm",
        session.target.id, "getregisters", "--cpu", tryDecimalU32 vcpu,
        register] = run at *
      obtain ⟨after, output⟩ := run
      cases performed
      obtain ⟨seen, early, late, shown⟩ := told
      refine ⟨⟨seen, early, late, ?_⟩, ?_⟩
      · intro value answered
        obtain ⟨text, told, parsed⟩ := bind_eq_ok.mp answered
        obtain ⟨held, present, shows⟩ := shown text told
        rw [parseRegister_shown nonempty shows] at parsed
        rw [present, Except.ok.inj parsed]
      · intro answers _ present
        obtain ⟨text, rfl⟩ := whole answers present
        obtain ⟨held, _, shows⟩ := shown text rfl
        exact ⟨held, parseRegister_shown nonempty shows⟩

theorem assignment_text (register : String) (value : UInt64) :
    (tryRegisterAssignment register value).toList =
      register.toList ++ '=' :: '0' :: 'x' ::
        (Nat.toDigits 16 value.toNat).leftpad 16 '0' := by
  rw [tryRegisterAssignment, String.toList_ofList, List.append_assoc]
  rfl

theorem verify_eq_ok {value actual : UInt64} {done : Unit} :
    VirtualBoxSession.verify value actual = .ok done ↔ actual = value := by
  rw [VirtualBoxSession.verify, rejectIf_eq_ok, not_not]

/-- What a write comes to once the tool has taken it. -/
theorem verified_step
    (obeys : Obeys session.transport session.target.id keeps guest machine)
    {vcpu : UInt32} {register : String} {value : UInt64} {world after : ω}
    {seen : Machine} (early : ReflTransGen guest (machine world) seen)
    (stored : ReflTransGen guest
      (Call.written keeps vcpu register value seen) (machine after)) :
    let (next, actual) := session.readRegister after vcpu register
    let answer := actual.bind (VirtualBoxSession.verify value)
    (Call.writeRegister vcpu register value).Right keeps guest (machine world)
        (machine next) answer ∧
      (Answers session.transport session.target.id guest machine →
        (Call.writeRegister vcpu register value).Served keeps guest
          session.Writable (machine world) (machine next) answer) := by
  generalize performed : session.readRegister after vcpu register = run
  obtain ⟨next, actual⟩ := run
  obtain ⟨⟨later, found, late, shown⟩, served⟩ :=
    readRegister_step obeys performed
  have there := stored.trans found
  refine ⟨?_, fun answers _ valid _ => ?_⟩
  · cases answered : actual.bind (VirtualBoxSession.verify value) with
    | error error => exact .inr ⟨seen, early, there.trans late⟩
    | ok done =>
        obtain ⟨held, read, same⟩ := bind_eq_ok.mp answered
        rw [verify_eq_ok.mp same] at read
        exact ⟨seen, later, early, there, late, shown value read⟩
  · have present : (Call.written keeps vcpu register value seen).register vcpu
        (lower register.toList) ≠ none := by
      rw [Call.written, Machine.store_register]
      exact Option.some_ne_none _
    obtain ⟨held, read⟩ := served answers valid (answers.stays stored present)
    refine ⟨seen, later, held, early, there, late, shown held read, ?_⟩
    rw [read]
    exact verify_eq_ok

theorem writeRegister_valid {register : String} (writable : session.Writable)
    (valid : validateRegister register = .ok ()) (world : ω) (vcpu : UInt32)
    (value : UInt64) :
    session.writeRegister world vcpu register value =
      match session.transport.execute world ["debugvm", session.target.id,
        "setregisters", "--cpu", tryDecimalU32 vcpu,
        tryRegisterAssignment register value] with
      | (world, output) =>
          match output with
          | .error error => (world, .error error)
          | .ok _ =>
              match session.readRegister world vcpu register with
              | (world, actual) =>
                  (world, actual.bind (VirtualBoxSession.verify value)) := by
  unfold VirtualBoxSession.Writable at writable
  unfold VirtualBoxSession.writeRegister
  rewrite [writable, if_neg (by decide), valid]
  rfl

theorem writeRegister_step
    (obeys : Obeys session.transport session.target.id keeps guest machine)
    {vcpu : UInt32} {register : String} {value : UInt64} {world next : ω}
    {answer : Result Unit}
    (performed : session.writeRegister world vcpu register value =
      (next, answer)) :
    (Call.writeRegister vcpu register value).Right keeps guest (machine world)
        (machine next) answer ∧
      (Answers session.transport session.target.id guest machine →
        (Call.writeRegister vcpu register value).Served keeps guest
          session.Writable (machine world) (machine next) answer) := by
  by_cases writable : session.Writable
  · cases valid : validateRegister register with
    | error error =>
        unfold VirtualBoxSession.Writable at writable
        unfold VirtualBoxSession.writeRegister at performed
        rw [writable, if_neg (by decide), valid] at performed
        cases performed
        refine ⟨.inl .refl, fun _ _ accepted => ?_⟩
        rw [valid] at accepted
        cases accepted
    | ok _ =>
        rw [writeRegister_valid writable valid] at performed
        obtain ⟨nonempty, plain⟩ := validateRegister_valid valid
        have told := obeys.setregisters world (tryDecimalU32 vcpu) vcpu
          (tryRegisterAssignment register value) register.toList _ value
          (denotes_decimal vcpu) nonempty plain
          (assignment_text register value) (denotes_padded value)
        have whole := fun answers : Answers session.transport
          session.target.id guest machine => answers.debugvm world
            "setregisters" (tryDecimalU32 vcpu) vcpu
            (tryRegisterAssignment register value) register.toList
            (denotes_decimal vcpu) nonempty plain
            (.inr ⟨rfl, _, assignment_text register value, value,
              denotes_padded value⟩)
        generalize session.transport.execute world ["debugvm",
          session.target.id, "setregisters", "--cpu", tryDecimalU32 vcpu,
          tryRegisterAssignment register value] = run at *
        obtain ⟨after, output⟩ := run
        obtain ⟨seen, early, done, failed⟩ := told
        cases output with
        | error error =>
            cases performed
            refine ⟨.inl (early.trans (failed error rfl)),
              fun answers _ _ present => ?_⟩
            obtain ⟨text, none⟩ := whole answers present
            cases none
        | ok text =>
            have verified := verified_step obeys early (done text rfl)
            change (match session.readRegister after vcpu register with
              | (world, actual) => (world, actual.bind
                  (VirtualBoxSession.verify value))) = (next, answer)
              at performed
            generalize session.readRegister after vcpu register = run at *
            obtain ⟨last, actual⟩ := run
            cases performed
            exact verified
  · have missing := Bool.not_eq_true _ ▸ writable
    unfold VirtualBoxSession.writeRegister at performed
    rw [if_pos missing] at performed
    cases performed
    exact ⟨.inl .refl, fun _ given => absurd given writable⟩

theorem saveSnapshot_step
    (obeys : Obeys session.transport session.target.id keeps guest machine)
    {destination : Destination} {world next : ω} {answer : Result Unit}
    (performed : session.saveSnapshot world destination = (next, answer)) :
    ReflTransGen guest (machine world) (machine next) := by
  unfold VirtualBoxSession.saveSnapshot at performed
  split at performed
  · cases performed
    exact .refl
  · split at performed
    · cases performed
      exact .refl
    · rename_i path _
      have kept := obeys.dumpvmcore world path
      generalize session.transport.execute world ["debugvm",
        session.target.id, "dumpvmcore", "--filename=" ++ path] = run at *
      cases performed
      exact kept

/-- Every call is what it says to the machine. -/
theorem performs_step
    (obeys : Obeys session.transport session.target.id keeps guest machine)
    {world next : ω} {answered : Answered}
    (performs : Performs session world answered next) :
    MachineStep keeps guest session.Writable
      (Answers session.transport session.target.id guest machine)
      (machine world) (some answered) (machine next) := by
  obtain ⟨call, answer⟩ := answered
  unfold Performs at performs
  cases call with
  | executionState => exact executionState_step obeys performs
  | pause =>
      obtain ⟨done, failed, served⟩ :=
        control_step obeys List.mem_cons_self performs
      refine ⟨?_, served⟩
      cases answer with
      | error error => exact failed error rfl
      | ok answer => exact done answer rfl
  | resume =>
      obtain ⟨done, failed, served⟩ := control_step obeys
        (List.mem_cons_of_mem _ List.mem_cons_self) performs
      refine ⟨?_, served⟩
      cases answer with
      | error error => exact failed error rfl
      | ok answer => exact done answer rfl
  | readRegister vcpu register =>
      obtain ⟨⟨seen, early, late, shown⟩, served⟩ :=
        readRegister_step obeys performs
      refine ⟨?_, served⟩
      cases answer with
      | error error => exact early.trans late
      | ok value => exact ⟨seen, early, late, shown value rfl⟩
  | writeRegister vcpu register value => exact writeRegister_step obeys performs
  | saveSnapshot destination =>
      exact ⟨saveSnapshot_step obeys performs, fun _ => trivial⟩

/-- A run of a session is a run of the machine with the same answers. -/
theorem machine_run
    (obeys : Obeys session.transport session.target.id keeps guest machine)
    {world final : ω} {labels : List (Option Answered)}
    (run : Run (Happens session guest machine) world labels final) :
    Run (MachineStep keeps guest session.Writable
        (Answers session.transport session.target.id guest machine))
      (machine world) labels (machine final) := by
  induction run with
  | nil => exact .nil
  | cons happens _ induction =>
      cases happens with
      | call performs => exact .cons (performs_step obeys performs) induction
      | meanwhile moved => exact .cons moved induction

end Steps

theorem connect_session {connector : VirtualBoxConnector ω} {world next : ω}
    {request : Xen.AttachRequest} {session : VirtualBoxSession ω}
    (connected : connector.connect world request = (next, .ok session)) :
    session = ⟨connector.descriptor, connector.target, connector.transport,
        connector.memory⟩ ∧
      ∃ state, session.executionState world = (next, .ok state) := by
  have opened : connector.openSession world = (next, .ok session) := by
    unfold VirtualBoxConnector.connect at connected
    split at connected
    · cases connected
    · dsimp only at connected
      split at connected
      · cases connected
      · split at connected
        · split at connected
          · cases connected
          · exact connected
        · exact connected
  unfold VirtualBoxConnector.openSession at opened
  dsimp only at opened
  generalize told : VirtualBoxSession.executionState
    (⟨connector.descriptor, connector.target, connector.transport,
      connector.memory⟩ : VirtualBoxSession ω) world = run at opened
  obtain ⟨after, answer⟩ := run
  cases answer with
  | error error => cases opened
  | ok state =>
      cases opened
      exact ⟨rfl, state, told⟩

/-- The flags only keep their lower half. -/
def flagsKeep (_ : UInt32) (name : List Char) (value : UInt64) : UInt64 :=
  if name = "eflags".toList then value &&& 0xffffffff else value

inductive Ticks : Machine → Machine → Prop
  | tick {machine : Machine} {value : UInt64}
      (running : machine.state = "running")
      (counter : machine.register 0 "rip".toList = some value) :
      Ticks machine (machine.store 0 "rip".toList (value + 1))

abbrev ToolMachine :=
  { machine : Machine // machine.state ∈ ["running", "paused"] }

namespace ToolMachine

def store (machine : ToolMachine) (vcpu : UInt32) (name : List Char)
    (value : UInt64) : ToolMachine :=
  ⟨machine.val.store vcpu name value, machine.property⟩

def tick (machine : ToolMachine) : ToolMachine :=
  if machine.val.state = "running" then
    match machine.val.register 0 "rip".toList with
    | some value => machine.store 0 "rip".toList (value + 1)
    | none => machine
  else machine

theorem tick_moves (machine : ToolMachine) :
    ReflTransGen Ticks machine.val machine.tick.val := by
  unfold tick
  split
  · rename_i running
    split
    · rename_i value counter
      exact .single (.tick running counter)
    · exact .refl
  · exact .refl

end ToolMachine

def registerText (name : List Char) (value : UInt64) : String :=
  String.ofList (["CPU registers:".toList,
    name ++ " = 0X".toList ++ Nat.toDigits 16 value.toNat].flatMap
      (· ++ ['\n']))

def shownRegister (machine : Machine) (cpu register : String) :
    Result String := do
  let vcpu ← (unsignedFromStr 10 cpu.toList : Except String UInt32).mapError
    .backend
  let value ← okOr (machine.register vcpu (lower register.toList))
    (.backend "no such register")
  return registerText register.toList value

def assigned (machine : ToolMachine) (cpu assignment : String) :
    Result ToolMachine := do
  let vcpu ← (unsignedFromStr 10 cpu.toList : Except String UInt32).mapError
    .backend
  let (name, value) ← okOr (splitOnce '=' assignment.toList)
    (.backend "not an assignment")
  let value ← (fromStrRadix 16 (stripHexPrefix value)).mapError .backend
  return machine.store vcpu (lower name) (flagsKeep vcpu (lower name) value)

def infoText (state : List Char) : String :=
  String.ofList (["name=\"guest\"".toList,
    "VMState=".toList ++ (['"'] ++ state ++ ['"'])].flatMap (· ++ ['\n']))

def documentedTool : VBoxManageTransport ToolMachine where
  execute := fun machine arguments =>
    match arguments with
    | ["showvminfo", _, "--machinereadable"] =>
        (machine, .ok (infoText machine.val.state.toList))
    | ["debugvm", _, "getregisters", "--cpu", cpu, register] =>
        (machine, shownRegister machine.val cpu register)
    | ["debugvm", _, "setregisters", "--cpu", cpu, assignment] =>
        match assigned machine cpu assignment with
        | .ok after => (after.tick, .ok "")
        | .error error => (machine, .error error)
    | ["controlvm", _, "pause"] =>
        (⟨{ machine.val with state := "paused" },
          List.mem_cons_of_mem _ List.mem_cons_self⟩, .ok "")
    | ["controlvm", _, "resume"] =>
        (⟨{ machine.val with state := "running" }, List.mem_cons_self⟩, .ok "")
    | _ => (machine, .ok "")

theorem lines_infoText {state : List Char} (plain : '\n' ∉ state) :
    lines (infoText state).toList = ["name=\"guest\"".toList,
      "VMState=".toList ++ (['"'] ++ state ++ ['"'])] := by
  have unbroken : '\n' ∉ "VMState=".toList ++ (['"'] ++ state ++ ['"']) := by
    simp only [List.mem_append, not_or]
    exact ⟨by decide, ⟨by decide, plain⟩, by decide⟩
  have unreturned : ("VMState=".toList ++ (['"'] ++ state ++ ['"'])
      ).getLast? ≠ some '\r' := by
    rw [← List.append_assoc, List.getLast?_concat]
    decide
  unfold infoText
  rw [String.toList_ofList]
  exact lines_flatMap
    (List.forall_mem_cons.mpr ⟨by decide,
      List.forall_mem_singleton.mpr unbroken⟩)
    (List.forall_mem_cons.mpr ⟨by decide,
      List.forall_mem_singleton.mpr unreturned⟩)

theorem infoText_shows {state : String} (plain : '\n' ∉ state.toList)
    (word : '"' ∉ state.toList) :
    ShowsState state (infoText state.toList) where
  shown :=
    have others : ¬ "VMState=".toList <+: "name=\"guest\"".toList := by decide
    ⟨["name=\"guest\"".toList], [], ['"'],
      List.mem_cons_of_mem _ List.mem_cons_self, lines_infoText plain,
      List.forall_mem_singleton.mpr others⟩
  word := word

theorem registerText_shows {register : String} (value : UInt64)
    (plain : ∀ char ∈ register.toList, char.isAlphanum) :
    ShowsRegister register.toList value
      (registerText register.toList value) := by
  have denotes : Denotes 16 (Nat.toDigits 16 value.toNat) value :=
    denotes_toDigits (by decide) (by decide) value
  unfold registerText
  generalize Nat.toDigits 16 value.toNat = digits at *
  have others : ¬ IsAbout register.toList "CPU registers:".toList := by
    rintro ⟨left, name, right, rest, same, _⟩
    have member : '=' ∈ "CPU registers:".toList := by
      rw [same]
      simp
    exact absurd member (by decide)
  have blank : ∀ char ∈ [' '], isWhitespace char :=
    List.forall_mem_singleton.mpr rfl
  refine ⟨["CPU registers:".toList], _, [], ?_,
    List.forall_mem_singleton.mpr others, [], register.toList, [' '], [' '],
    "0X".toList ++ digits, [], rfl, rfl, plain, blank, blank, [], by simp,
    "0X".toList, by simp, digits, ?_, denotes⟩
  · have line : register.toList ++ " = 0X".toList ++ digits = [] ++
        register.toList ++ [' '] ++ '=' :: ([' '] ++ ("0X".toList ++ digits) ++
          []) := by
      simp
    rw [String.toList_ofList, ← line]
    apply lines_flatMap
    · rw [List.forall_mem_cons, List.forall_mem_singleton]
      refine ⟨by decide, ?_⟩
      simp only [List.mem_append, not_or]
      refine ⟨⟨?_, by decide⟩, ?_⟩
      · exact fun member => absurd (plain _ member) (by decide)
      · exact fun member => absurd (denotes.digits_only _ member) (by decide)
    · rw [List.forall_mem_cons, List.forall_mem_singleton]
      refine ⟨by decide, fun last => ?_⟩
      exact absurd (last_isDigit denotes _ '\r' last) (by decide)
  · simp

/-- What the tool takes a command about a register for. -/
theorem assigned_ok (machine : ToolMachine) {cpu assignment : String}
    {vcpu : UInt32} {register digits : List Char} {value : UInt64}
    (cpuDenotes : Denotes 10 cpu.toList vcpu)
    (plain : ∀ char ∈ register, char.isAlphanum)
    (split : assignment.toList = register ++ '=' :: '0' :: 'x' :: digits)
    (denotes : Denotes 16 digits value) :
    assigned machine cpu assignment = .ok (machine.store vcpu (lower register)
      (flagsKeep vcpu (lower register) value)) := by
  have parsed : unsignedFromStr 10 cpu.toList = .ok vcpu :=
    (unsignedFromStr_eq_ok (by decide) (by decide) _ _).mpr (.inl cpuDenotes)
  have absent : '=' ∉ register := fun member =>
    absurd (plain '=' member) (by decide)
  have number : fromStrRadix 16 digits = .ok value :=
    (fromStrRadix_eq_ok (by decide) (by decide) _ _).mpr (.inl denotes)
  unfold assigned
  rw [parsed, split, splitOnce_append absent]
  simp only [Except.mapError, ok_bind, okOr_some, stripHexPrefix, number]
  rfl

theorem documentedTool_obeys (vm : String) :
    Obeys documentedTool vm flagsKeep Ticks Subtype.val where
  showvminfo := by
    intro world
    refine ⟨_, .refl, .refl, fun text told => ?_⟩
    cases told
    have known := world.property
    simp only [List.mem_cons, List.not_mem_nil, or_false] at known
    apply infoText_shows
    · obtain state | state := known <;> rw [state] <;> decide
    · obtain state | state := known <;> rw [state] <;> decide
  getregisters := by
    intro world cpu vcpu register denotes _ plain
    refine ⟨_, .refl, .refl, fun text told => ?_⟩
    have parsed : unsignedFromStr 10 cpu.toList = .ok vcpu :=
      (unsignedFromStr_eq_ok (by decide) (by decide) _ _).mpr (.inl denotes)
    change shownRegister world.val cpu register = .ok text at told
    simp only [shownRegister, parsed, Except.mapError, ok_bind, bind_eq_ok,
      okOr_eq_ok, pure_eq_ok, Except.ok.injEq] at told
    obtain ⟨value, present, rfl⟩ := told
    exact ⟨value, present, registerText_shows value plain⟩
  setregisters := by
    intro world cpu vcpu assignment register digits value cpuDenotes _ plain
      split denotes
    have executed : documentedTool.execute world
        ["debugvm", vm, "setregisters", "--cpu", cpu, assignment] =
          ((world.store vcpu (lower register)
            (flagsKeep vcpu (lower register) value)).tick, .ok "") := by
      simp only [documentedTool,
        assigned_ok world cpuDenotes plain split denotes]
    rw [executed]
    refine ⟨_, .refl, fun _ _ => ToolMachine.tick_moves (world.store vcpu
      (lower register) (flagsKeep vcpu (lower register) value)), ?_⟩
    intro _ refused
    cases refused
  controlvm := by
    intro world command state known
    simp only [List.mem_cons, Prod.mk.injEq, List.not_mem_nil, or_false]
      at known
    obtain ⟨rfl, rfl⟩ | ⟨rfl, rfl⟩ := known
    · refine ⟨_, .refl, fun _ _ => .refl, ?_⟩
      intro _ refused
      cases refused
    · refine ⟨_, .refl, fun _ _ => .refl, ?_⟩
      intro _ refused
      cases refused
  dumpvmcore := fun _ _ => .refl

theorem documentedTool_answers (vm : String) :
    Answers documentedTool vm Ticks Subtype.val where
  present := by
    intro before after moved vcpu name present
    cases moved with
    | tick running counter =>
        unfold Machine.store
        dsimp only
        split
        · exact Option.some_ne_none _
        · exact present
  showvminfo := fun _ => ⟨_, rfl⟩
  debugvm := by
    intro world command cpu vcpu last register cpuDenotes _ plain asked present
    obtain ⟨rfl, rfl⟩ | ⟨rfl, digits, split, value, denotes⟩ := asked
    · have parsed : unsignedFromStr 10 cpu.toList = .ok vcpu :=
        (unsignedFromStr_eq_ok (by decide) (by decide) _ _).mpr
          (.inl cpuDenotes)
      obtain ⟨value, held⟩ := Option.ne_none_iff_exists'.mp present
      refine ⟨registerText last.toList value, ?_⟩
      change shownRegister world.val cpu last = _
      simp only [shownRegister, parsed, Except.mapError, ok_bind, held,
        okOr_some, pure_eq_ok]
    · refine ⟨"", ?_⟩
      simp only [documentedTool,
        assigned_ok world cpuDenotes plain split denotes]
  controlvm := by
    intro world command known
    simp only [List.mem_cons, List.not_mem_nil, or_false] at known
    obtain rfl | rfl := known
    · exact ⟨"", rfl⟩
    · exact ⟨"", rfl⟩

def writableConnector : VirtualBoxConnector ToolMachine :=
  (VirtualBoxConnector.withTransport "guest" .amd64
    documentedTool).withRegisterWrite

def writableSession : VirtualBoxSession ToolMachine :=
  ⟨writableConnector.descriptor, writableConnector.target, documentedTool,
    none⟩

def guestMachine : ToolMachine where
  val := {
    state := "running"
    register := fun vcpu name =>
      if vcpu = 0 ∧
          name ∈ ["rax".toList, "rip".toList, "eflags".toList] then some 0
      else none }
  property := List.mem_cons_self

theorem performs_of_answer {session : VirtualBoxSession ω}
    {guest : Machine → Machine → Prop} {machine : ω → Machine} {world : ω}
    {α : Type} {call : Call α} {answer : Result α}
    (answered : (call.perform session world).2 = answer) :
    Happens session guest machine world (some ⟨call, answer⟩)
      (call.perform session world).1 :=
  .call (Prod.ext rfl answered)

end LibVmi.VirtualBox
