import LibVmi.Data.Sections
import LibVmi.Qemu.PhysicalReads

namespace LibVmi.Qemu

open Data

/-! A session used by several callers. The client is behind one lock: a memory
read takes it for each of its commands, a register read once for both of its
own. -/

def registerName (quoted : String → String) (register : String) :
    Result String := do
  rejectIf (register.toList = [] ∨
      register.toList.all Char.isAlphanum = false)
    (.backend ("invalid register name " ++ quoted register))
  tryReserve register.utf8ByteSize
    "failed to allocate normalized register name"
  return String.ofList (register.toList.map Char.toUpper)

def registerAliases (register : String) : List String :=
  match register with
  | "RIP" => ["RIP", "EIP"]
  | "RFLAGS" => ["RFLAGS", "EFLAGS", "EFL"]
  | _ => [register]

def stripHexPrefix : List Char → List Char
  | '0' :: 'x' :: digits => digits
  | '0' :: 'X' :: digits => digits
  | digits => digits

def registerToken (register : String) (token : List Char) : Option UInt64 := do
  let (name, value) ← splitOnce '=' token
  if (registerAliases register).any fun candidate =>
      name.map Char.toLower == candidate.toList.map Char.toLower then
    (fromStrRadix 16 (stripHexPrefix value)).toOption
  else none

def parseHmpRegister (text register : String) : Option UInt64 :=
  (splitWhitespace text.toList).findSome? (registerToken register)

def decodeRegister (vcpu : UInt32) (register : String) (response : Json) :
    Result UInt64 := do
  let text ← okOr response.asStr
    (.backend "QEMU register response was not text")
  okOr (parseHmpRegister text register) (.backend ("register " ++ register ++
    " was not reported for vCPU " ++ toString vcpu.toNat))

def selectCpu (vcpu : UInt32) : String :=
  String.ofList ("cpu ".toList ++ Nat.toDigits 10 vcpu.toNat)

variable {ω ρ : Type}

section Calls

variable (hmp : ω → String → ω × Result Json) (next : Result UInt64 → Code ω ρ)

/-- The section in which a register is read: the CPU is selected and its
registers are shown. -/
def registerSection (vcpu : UInt32) (register : String) : Section ω ρ :=
  match tryFormatCommand 14 ("cpu ".toList ++ Nat.toDigits 10 vcpu.toNat)
      "QEMU CPU selection" with
  | .error error => .unlock (next (.error error))
  | .ok command =>
      .perform (hmp · command) fun selected =>
        match selected with
        | .error error => .unlock (next (.error error))
        | .ok _ =>
            .perform (hmp · "info registers") fun response =>
              .unlock (next (response.bind (decodeRegister vcpu register)))

/-- A register read that the stub does not serve. -/
def readRegisterCode (quoted : String → String) (vcpu : UInt32)
    (register : String) : Code ω ρ :=
  match registerName quoted register with
  | .error error => next (.error error)
  | .ok register => .lock (registerSection hmp next vcpu register)

def chunkSection (command : String) (next : Result Json → Code ω ρ) :
    Section ω ρ :=
  .perform (hmp · command) fun response => .unlock (next response)

/-- The chunks of a memory read, each in a section of its own. -/
def chunkCode (address : Gpa) (total : Nat) : (index : Nat) →
    (lengths : List Nat) → (Result (List UInt8) → Code ω ρ) → Code ω ρ
  | _, [], next => next (.ok [])
  | index, count :: lengths, next =>
      match chunkCommand address total index count with
      | .error error => next (.error error)
      | .ok (chunkAddress, command) =>
          .lock (chunkSection hmp command fun response =>
            match decodeChunk chunkAddress count response with
            | .error error => next (.error error)
            | .ok bytes =>
                chunkCode address total (index + 1) lengths fun others =>
                  next (others.map (bytes ++ ·)))

def readMemoryCode (address : Gpa) (length : Nat)
    (next : Result (List UInt8) → Code ω ρ) : Code ω ρ :=
  chunkCode hmp address length 0 (chunkLengths length) next

end Calls

/-! Registers. -/

section Registers

variable {hmp : ω → String → ω × Result Json}

/-- Both commands of a register read with nothing in between. -/
def registerAtOnce (hmp : ω → String → ω × Result Json) (vcpu : UInt32)
    (register : String) (world : ω) : Result UInt64 :=
  match hmp world (selectCpu vcpu) with
  | (_, .error error) => .error error
  | (world, .ok _) =>
      (hmp world "info registers").2.bind (decodeRegister vcpu register)

theorem registerSection_run (next : Result UInt64 → Code ω ρ) (vcpu : UInt32)
    (register : String) (world : ω) :
    ((registerSection hmp next vcpu register).run world).2 =
      next (registerAtOnce hmp vcpu register world) := by
  have command : tryFormatCommand 14
      ("cpu ".toList ++ Nat.toDigits 10 vcpu.toNat) "QEMU CPU selection" =
        .ok (selectCpu vcpu) := rfl
  rw [registerSection, command, registerAtOnce]
  simp only [Section.run]
  generalize hmp world (selectCpu vcpu) = answered
  obtain ⟨after, selected⟩ := answered
  cases selected <;> rfl

/-- What a value was read out of. -/
theorem registerAtOnce_prints {vcpu : UInt32} {register : String} {world : ω}
    {value : UInt64}
    (read : registerAtOnce hmp vcpu register world = .ok value) :
    ∃ text, (hmp (hmp world (selectCpu vcpu)).1 "info registers").2 =
        .ok (.string text) ∧ parseHmpRegister text register = some value := by
  unfold registerAtOnce at read
  split at read
  · cases read
  · rename_i after answer asked
    obtain ⟨response, shown, decoded⟩ := bind_eq_ok.mp read
    obtain ⟨text, same, parsed⟩ := bind_eq_ok.mp decoded
    rw [okOr_eq_ok] at same parsed
    rw [asked, shown, Json.asStr_eq_some.mp same]
    exact ⟨text, rfl, parsed⟩

/-- A monitor that still has what was selected when the next command comes, and
then prints what it has to show for it. Whether one does is not for the session
to say: QEMU gives each of these commands a monitor of its own, and answers a
number that no CPU has with a text as well. -/
structure ShowsSelected (hmp : ω → String → ω × Result Json)
    (selected : ω → Option UInt32) (shows : ω → UInt32 → String) : Prop where
  selects : ∀ world vcpu after answer,
    hmp world (selectCpu vcpu) = (after, .ok answer) →
      selected after = some vcpu
  reports : ∀ world vcpu after answer, selected world = some vcpu →
    hmp world "info registers" = (after, .ok answer) →
      answer = .string (shows world vcpu)

theorem registerAtOnce_shows {selected : ω → Option UInt32}
    {shows : ω → UInt32 → String} (monitor : ShowsSelected hmp selected shows)
    {vcpu : UInt32} {register : String} {world : ω} {value : UInt64}
    (read : registerAtOnce hmp vcpu register world = .ok value) :
    parseHmpRegister (shows (hmp world (selectCpu vcpu)).1 vcpu) register =
      some value := by
  obtain ⟨text, printed, parsed⟩ := registerAtOnce_prints read
  unfold registerAtOnce at read
  split at read
  · cases read
  · rename_i after answer asked
    have chosen := monitor.selects world vcpu after answer asked
    rw [asked] at printed ⊢
    cases monitor.reports after vcpu _ _ chosen (Prod.ext rfl printed)
    exact parsed

/-- Whatever other calls do on the session, and in whatever order the steps of
all of them come, a register read returns what its own two commands give back
to back: what was printed in answer to the second, right after the first. -/
theorem register_read_at_once (quoted : String → String) (vcpu : UInt32)
    (register : String) (wrap : Result UInt64 → ρ) {start : Calls ω ρ}
    {caller : Nat}
    (calls : start.codes caller = readRegisterCode hmp
      (fun result => .finish (wrap result)) quoted vcpu register)
    {moves : List Move} {final : Locked ω ρ}
    (run : Run Locked.Interleaved start.free moves final) {result : ρ}
    (finished : final.codes caller = .finish result) :
    (∃ error, registerName quoted register = .error error ∧
        result = wrap (.error error)) ∨
      ∃ name earlier before later,
        registerName quoted register = .ok name ∧
          moves.filterMap Move.released = earlier ++ caller :: later ∧
          Run Calls.Serially start earlier before ∧
          result = wrap (registerAtOnce hmp vcpu name before.value) ∧
          ∀ value, registerAtOnce hmp vcpu name before.value = .ok value →
            (∃ text,
              (hmp (hmp before.value (selectCpu vcpu)).1 "info registers").2 =
                .ok (.string text) ∧
              parseHmpRegister text name = some value) ∧
            ∀ selected shows, ShowsSelected hmp selected shows →
              parseHmpRegister
                (shows (hmp before.value (selectCpu vcpu)).1 vcpu) name =
                  some value := by
  obtain ⟨serial, order, settles⟩ := Locked.serializes run
  rw [settles.codes] at finished
  unfold readRegisterCode at calls
  cases named : registerName quoted register with
  | error error =>
      rw [named] at calls
      exact .inl ⟨error, rfl, Calls.finished_unique order calls finished⟩
  | ok name =>
      rw [named] at calls
      obtain ⟨earlier, before, later, split, early, returned⟩ :=
        Calls.result_of_turn order calls
          (registerSection_run (fun result => .finish (wrap result)) vcpu name)
          finished
      exact .inr ⟨name, earlier, before, later, rfl, split, early, returned,
        fun value read => ⟨registerAtOnce_prints read,
          fun _ _ monitor => registerAtOnce_shows monitor read⟩⟩

/-- A monitor of CPUs whose registers hold the number of the CPU. -/
def numberedMonitor (chosen : Option UInt32) (command : String) :
    Option UInt32 × Result Json :=
  if command = "info registers" then
    (chosen, .ok (.string (match chosen with
      | some vcpu => "RIP=" ++ String.ofList (Nat.toDigits 16 vcpu.toNat)
      | none => "No CPU selected")))
  else
    match (unsignedFromStr 10 (command.toList.drop 4) :
        Except String UInt64) with
    | .ok vcpu => (some (UInt32.ofNat vcpu.toNat), .ok (.string ""))
    | .error error => (chosen, .error (.backend error))

theorem numberedMonitor_selectCpu (chosen : Option UInt32) (vcpu : UInt32) :
    numberedMonitor chosen (selectCpu vcpu) =
      (some vcpu, .ok (.string "")) := by
  have other : selectCpu vcpu ≠ "info registers" := by
    intro same
    have letters := congrArg (fun text => text.toList.head?) same
    rw [selectCpu, String.toList_ofList] at letters
    cases letters
  have small : vcpu.toNat < 2 ^ 64 := by
    have bound := vcpu.toNat_lt
    omega
  have numberEq : (UInt64.ofNat vcpu.toNat).toNat = vcpu.toNat :=
    UInt64.toNat_ofNat_of_lt' small
  have printed : (unsignedFromStr 10 ((selectCpu vcpu).toList.drop 4) :
      Except String UInt64) = .ok (UInt64.ofNat vcpu.toNat) := by
    have denotes := denotes_toDigits (by decide : 1 < 10) (by decide)
      (UInt64.ofNat vcpu.toNat)
    rw [unsigned_toNat_uint64, numberEq] at denotes
    rw [selectCpu, String.toList_ofList]
    exact (unsignedFromStr_eq_ok (by decide) (by decide) _ _).mpr
      (.inl denotes)
  rw [numberedMonitor.eq_def, if_neg other, printed]
  simp only [numberEq, UInt32.ofNat_toNat]

theorem numberedMonitor_showsSelected :
    ShowsSelected numberedMonitor id fun _ vcpu =>
      "RIP=" ++ String.ofList (Nat.toDigits 16 vcpu.toNat) where
  selects := by
    intro world vcpu after answer asked
    rw [numberedMonitor_selectCpu] at asked
    cases asked
    rfl
  reports := by
    intro world vcpu after answer chosen asked
    change world = some vcpu at chosen
    subst chosen
    cases asked
    rfl

/-- Callers of whom each asks for the register of the CPU of its number. -/
def registerReaders : Calls (Option UInt32) (Result UInt64) where
  value := none
  codes := fun caller => readRegisterCode numberedMonitor .finish id
    (UInt32.ofNat caller) "rip"

theorem registerReaders_codes (caller : Nat) :
    registerReaders.codes caller = .lock (registerSection numberedMonitor
      .finish (UInt32.ofNat caller) "RIP") := by
  have named : registerName id "rip" = .ok "RIP" := by decide +kernel
  change readRegisterCode numberedMonitor .finish id (UInt32.ofNat caller)
    "rip" = _
  rw [readRegisterCode, named]

/-- The second caller is first. -/
theorem register_read_at_once_overtaken :
    ∃ moves final,
      Run Locked.Interleaved registerReaders.free moves final ∧
      moves.filterMap Move.released = [1, 0] ∧
      ((∃ error, registerName id "rip" = .error error ∧
          (.ok 0 : Result UInt64) = .error error) ∨
        ∃ name earlier before later, registerName id "rip" = .ok name ∧
          moves.filterMap Move.released = earlier ++ 0 :: later ∧
          Run Calls.Serially registerReaders earlier before ∧
          .ok 0 = registerAtOnce numberedMonitor 0 name before.value ∧
          parseHmpRegister ("RIP=" ++ String.ofList (Nat.toDigits 16 0)) name =
            some 0) := by
  have first := Calls.Serially.turn (registerReaders_codes 1)
  generalize middleEq : registerReaders.settle 1 _ = middle at first
  have waits : middle.codes 0 = .lock (registerSection numberedMonitor .finish
      (UInt32.ofNat 0) "RIP") := by
    rw [← middleEq, Calls.settle_other _ (by decide), registerReaders_codes]
  have second := Calls.Serially.turn waits
  obtain ⟨moves, run, released⟩ :=
    Locked.of_serial (.cons first (.cons second .nil))
  have finished : (middle.settle 0 ((registerSection numberedMonitor .finish
      (UInt32.ofNat 0) "RIP").run middle.value)).codes 0 = .finish (.ok 0) := by
    rw [Calls.settle_same, registerSection_run, registerAtOnce,
      numberedMonitor_selectCpu]
    apply congrArg Code.finish
    decide +kernel
  refine ⟨moves, _, run, released, ?_⟩
  obtain refused | ⟨name, earlier, before, later, named, split, early, same,
    rest⟩ := register_read_at_once id 0 "rip" id rfl run finished
  · exact .inl refused
  · exact .inr ⟨name, earlier, before, later, named, split, early, same,
      (rest 0 same.symm).2 _ _ numberedMonitor_showsSelected⟩

end Registers

/-! Memory. -/

section Memory

variable {hmp : ω → String → ω × Result Json}

/-- A monitor that finds the given worlds, one for each command. -/
def sampled (hmp : ω → String → ω × Result Json) :
    List ω → String → List ω × Result Json
  | [], _ => ([], .error (.backend "QMP connection closed"))
  | world :: worlds, command => (worlds, (hmp world command).2)

/-- The worlds are those that the commands of a read find, and no others. -/
def ReadsOver (hmp : ω → String → ω × Result Json) (address : Gpa)
    (total index : Nat) (lengths : List Nat) (worlds : List ω)
    (result : Result (List UInt8)) : Prop :=
  ∀ spare, (readChunks (sampled hmp) address total index lengths
      (worlds ++ spare)).1 = spare ∧
    (readChunks (sampled hmp) address total index lengths
      (worlds ++ spare)).2.map Subtype.val = result

theorem ReadsOver.next {address : Gpa} {total index count : Nat}
    {lengths : List Nat} {world : ω} {worlds : List ω} {current : UInt64}
    {command : String} {bytes : List UInt8} {result : Result (List UInt8)}
    (planned : chunkCommand address total index count = .ok (current, command))
    (decoded : decodeChunk current count (hmp world command).2 = .ok bytes)
    (rest : ReadsOver hmp address total (index + 1) lengths worlds result) :
    ReadsOver hmp address total index (count :: lengths) (world :: worlds)
      (result.map (bytes ++ ·)) := by
  intro spare
  obtain ⟨spared, returned⟩ := rest spare
  have asked : sampled hmp (world :: worlds ++ spare) command =
      (worlds ++ spare, (hmp world command).2) := rfl
  obtain ⟨worldEq, resultEq⟩ := readChunks_next lengths planned asked decoded
  refine ⟨by rw [worldEq, spared], ?_⟩
  rw [resultEq, ← returned]
  cases (readChunks (sampled hmp) address total (index + 1) lengths
    (worlds ++ spare)).2 <;> rfl

theorem ReadsOver.stop {address : Gpa} {total index count : Nat}
    {lengths : List Nat} {world : ω} {current : UInt64} {command : String}
    {error : VmiError}
    (planned : chunkCommand address total index count = .ok (current, command))
    (failed : decodeChunk current count (hmp world command).2 =
      .error error) :
    ReadsOver hmp address total index (count :: lengths) [world]
      (.error error) := by
  intro spare
  have asked : sampled hmp ([world] ++ spare) command =
      (spare, (hmp world command).2) := rfl
  rw [readChunks_stop lengths planned asked failed]
  exact ⟨rfl, rfl⟩

theorem chunkCode_cons (hmp : ω → String → ω × Result Json) {address : Gpa}
    {current : UInt64} {total index count : Nat} {command : String}
    (lengths : List Nat)
    (next : Result (List UInt8) → Code ω ρ)
    (planned : chunkCommand address total index count =
      .ok (current, command)) :
    ∃ go, chunkCode hmp address total index (count :: lengths) next =
        .lock (chunkSection hmp command go) ∧
      (∀ response error, decodeChunk current count response = .error error →
        go response = next (.error error)) ∧
      ∀ response bytes, decodeChunk current count response = .ok bytes →
        go response = chunkCode hmp address total (index + 1) lengths
          fun others => next (others.map (bytes ++ ·)) := by
  rw [chunkCode, planned]
  refine ⟨_, rfl, ?_, ?_⟩
  · intro response error failed
    simp only [failed]
  · intro response bytes decoded
    simp only [decoded]

theorem chunkCode_turns (address : Gpa) (total : Nat) {caller : Nat}
    {final : Calls ω ρ} {returned : ρ}
    (finished : final.codes caller = .finish returned) (lengths : List Nat)
    (index : Nat) {start : Calls ω ρ} (wrap : Result (List UInt8) → ρ)
    (calls : start.codes caller = chunkCode hmp address total index lengths
      fun result => .finish (wrap result))
    {order : List Nat} (run : Run Calls.Serially start order final) :
    ∃ worlds result, Calls.Turns caller start worlds ∧
      ReadsOver hmp address total index lengths worlds result ∧
      returned = wrap result := by
  induction lengths generalizing index start wrap order with
  | nil =>
      refine ⟨[], .ok [], .none, fun spare => ⟨rfl, rfl⟩, ?_⟩
      exact Calls.finished_unique run calls finished
  | cons count lengths induction =>
      cases planned : chunkCommand address total index count with
      | error error =>
          rw [chunkCode, planned] at calls
          refine ⟨[], .error error, .none, fun spare => ?_,
            Calls.finished_unique run calls finished⟩
          rw [readChunks, planned]
          exact ⟨rfl, rfl⟩
      | ok found =>
          obtain ⟨current, command⟩ := found
          obtain ⟨go, code, stops, goes⟩ :=
            chunkCode_cons hmp lengths (fun result => .finish (wrap result)) planned
          rw [code] at calls
          obtain ⟨earlier, before, later, _, early, wants, late⟩ :=
            Calls.turn_of_run run calls finished
          have after : (before.settle caller
              ((chunkSection hmp command go).run before.value)).codes caller =
                go (hmp before.value command).2 := Calls.settle_same ..
          cases decoded : decodeChunk current count
              (hmp before.value command).2 with
          | error error =>
              rw [stops _ error decoded] at after
              exact ⟨[before.value], .error error,
                .more early (.turn wants) .none, .stop planned decoded,
                Calls.finished_unique late after finished⟩
          | ok bytes =>
              rw [goes _ bytes decoded] at after
              obtain ⟨worlds, result, turns, reads, same⟩ :=
                induction (index + 1)
                  (fun others => wrap (others.map (bytes ++ ·))) after late
              exact ⟨before.value :: worlds, result.map (bytes ++ ·),
                .more early (.turn wants) turns, reads.next planned decoded,
                same⟩

def oneRow : DumpLayout where
  rows := fun address bytes => [(address, bytes)]
  complete := by
    intro address bytes
    simp

/-- One caller reads two bytes, the others set the time. -/
def memoryReaders : Calls Nat (Result (List UInt8)) where
  value := 0
  codes := fun caller =>
    if caller = 0 then
      readMemoryCode (dumpingMonitor oneRow ageing) ⟨0x1000⟩ 2 .finish
    else
      .lock (.perform (fun _ => (7, ())) fun _ => .unlock (.finish (.ok [])))

end Memory

end LibVmi.Qemu
