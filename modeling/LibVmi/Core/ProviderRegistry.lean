import LibVmi.Data.SharedSections
import LibVmi.Data.SortedMap
import LibVmi.Xen.Connector
import Mathlib.Data.String.Basic

namespace LibVmi.Core

open Data
open Xen (ProviderDescriptor AttachRequest)

/-! The registry of providers. A connector is a handle; what runs when it is
asked for its descriptor or connects may call the registry again. -/

variable {κ : Type}

abbrev Providers (κ : Type) := SortedMap String κ

/-- `register` refuses an empty ID before it looks at the map. -/
abbrev ProviderId := { id : String // id ≠ "" }

/-- What is done under the lock, with the type of its answer. -/
inductive Operation (κ : Type) : Type → Type 1
  | register (id : ProviderId) (connector : κ) : Operation κ (Result Unit)
  | unregister (id : String) : Operation κ (Result κ)
  | connector (id : String) : Operation κ (Result κ)
  | connectors : Operation κ (List κ)
  | len : Operation κ Nat

def notRegistered (id : String) : VmiError :=
  .backend ("provider " ++ id ++ " is not registered")

namespace Operation

def act : Operation κ γ → Providers κ → Providers κ × γ
  | .register id handle, providers =>
      if (providers.get id.val).isSome then
        (providers, .error (.backend
          ("provider " ++ id.val ++ " is already registered")))
      else (providers.insert id.val handle, .ok ())
  | .unregister id, providers =>
      match providers.get id with
      | none => (providers, .error (notRegistered id))
      | some handle => (providers.remove id, .ok handle)
  | .connector id, providers =>
      (providers, okOr (providers.get id) (notRegistered id))
  | .connectors, providers => (providers, providers.entries.map Prod.snd)
  | .len, providers => (providers, providers.entries.length)

end Operation

/-- Code that uses the registry through its operations, each in a section of
its own, and holds no lock in between. -/
inductive Program (κ ρ : Type) : Type 1
  | finish (result : ρ)
  | call {γ : Type} (operation : Operation κ γ) (next : γ → Program κ ρ)

def Program.code {ρ : Type} : Program κ ρ → Code (Providers κ) ρ
  | .finish result => .finish result
  | .call operation next =>
      .lock (.perform operation.act fun answer => .unlock (next answer).code)

/-- The operations whose methods take the guard for reading. -/
def Operation.Looks : Operation κ γ → Prop
  | .register _ _ | .unregister _ => False
  | .connector _ | .connectors | .len => True

theorem reads_iff_looks {ρ : Type} [Nonempty κ] (operation : Operation κ γ)
    (next : γ → Code (Providers κ) ρ) :
    (Section.perform operation.act fun answer => .unlock (next answer)).Reads ↔
      operation.Looks := by
  rw [Section.reads_perform_iff]
  cases operation with
  | register id handle =>
      refine iff_of_false (fun unchanged => ?_) not_false
      have found : ((SortedMap.empty : Providers κ).insert id.val handle).get
          id.val = some handle := by
        rw [SortedMap.get_insert, if_pos rfl]
      have same : (SortedMap.empty : Providers κ).insert id.val handle =
        .empty := unchanged .empty
      rw [same] at found
      cases found
  | unregister id =>
      refine iff_of_false (fun unchanged => ?_) not_false
      obtain ⟨handle⟩ := ‹Nonempty κ›
      have found : ((SortedMap.empty : Providers κ).insert id handle).get id =
          some handle := by
        rw [SortedMap.get_insert, if_pos rfl]
      have same := unchanged ((SortedMap.empty : Providers κ).insert id handle)
      rw [Operation.act, found] at same
      rw [← same, SortedMap.get_remove, if_pos rfl] at found
      cases found
  | connector id => exact iff_of_true (fun _ => rfl) trivial
  | connectors => exact iff_of_true (fun _ => rfl) trivial
  | len => exact iff_of_true (fun _ => rfl) trivial

/-! The methods. -/

section Methods

variable {ρ τ : Type}

/-- The code of a connector, up to what is done with its answer. -/
structure ConnectorCode (κ ρ τ : Type) : Type 1 where
  descriptor : (ProviderDescriptor → Program κ ρ) → Program κ ρ
  connect : AttachRequest → (Result τ → Program κ ρ) → Program κ ρ

variable (behaves : κ → ConnectorCode κ ρ τ)

def register (connector : κ) (next : Result Unit → Program κ ρ) :
    Program κ ρ :=
  (behaves connector).descriptor fun descriptor =>
    if nonempty : descriptor.id ≠ "" then
      .call (.register ⟨descriptor.id, nonempty⟩ connector) next
    else next (.error (.backend "provider ID must not be empty"))

def unregister (id : String) (next : Result κ → Program κ ρ) : Program κ ρ :=
  .call (.unregister id) next

def connectorOf (id : String) (next : Result κ → Program κ ρ) : Program κ ρ :=
  .call (.connector id) next

/-- The descriptors are asked for after the lock has been given back. -/
def describe : List κ → (List ProviderDescriptor → Program κ ρ) → Program κ ρ
  | [], next => next []
  | connector :: rest, next =>
      (behaves connector).descriptor fun descriptor =>
        describe rest fun others => next (descriptor :: others)

def descriptors (next : List ProviderDescriptor → Program κ ρ) :
    Program κ ρ :=
  .call .connectors fun connectors => describe behaves connectors next

def attach (id : String) (request : AttachRequest)
    (next : Result τ → Program κ ρ) : Program κ ρ :=
  connectorOf id fun found =>
    match found with
    | .error error => next (.error error)
    | .ok connector => (behaves connector).connect request next

def len (next : Nat → Program κ ρ) : Program κ ρ :=
  .call .len next

def isEmpty (next : Bool → Program κ ρ) : Program κ ρ :=
  len fun count => next (count == 0)

end Methods

/-! What the operations of any number of callers come to. -/

/-- An operation that has been performed, with its answer. -/
structure Entry (κ : Type) : Type 1 where
  {γ : Type}
  operation : Operation κ γ
  answer : γ

def Performs (providers : Providers κ) (entry : Entry κ)
    (next : Providers κ) : Prop :=
  entry.operation.act providers = (next, entry.answer)

/-- What an operation leaves under an ID, where it changes that. -/
def Operation.sets (id : String) : Operation κ γ → γ → Option (Option κ)
  | .register other handle, .ok _ =>
      if other.val = id then some (some handle) else none
  | .unregister other, .ok _ => if other = id then some none else none
  | _, _ => none

def Entry.sets (id : String) (entry : Entry κ) : Option (Option κ) :=
  entry.operation.sets id entry.answer

/-- The connector that was registered last under an ID and not unregistered
since. -/
def registered (history : List (Entry κ)) (id : String) : Option κ :=
  ((history.filterMap (Entry.sets id)).getLast?).join

theorem get_performs {providers next : Providers κ} {entry : Entry κ}
    (performs : Performs providers entry next) (id : String) :
    next.get id = ((entry.sets id).getD (providers.get id)) := by
  obtain ⟨operation, answer⟩ := entry
  unfold Performs at performs
  cases operation with
  | register other connector =>
      rw [Operation.act] at performs
      split at performs
      · cases performs
        rfl
      · cases performs
        rw [SortedMap.get_insert]
        change _ = (if other.val = id then some (some connector)
          else none).getD (providers.get id)
        by_cases same : id = other.val
        · rw [if_pos same, if_pos same.symm]
          rfl
        · rw [if_neg same, if_neg (Ne.symm same)]
          rfl
  | unregister other =>
      rw [Operation.act] at performs
      split at performs
      · cases performs
        rfl
      · cases performs
        rw [SortedMap.get_remove]
        change _ = (if other = id then some none else none).getD
          (providers.get id)
        by_cases same : id = other
        · rw [if_pos same, if_pos same.symm]
          rfl
        · rw [if_neg same, if_neg (Ne.symm same)]
          rfl
  | connector other =>
      cases performs
      rfl
  | connectors =>
      cases performs
      rfl
  | len =>
      cases performs
      rfl

/-- The map holds what the history says. -/
theorem get_of_history {history : List (Entry κ)} {providers : Providers κ}
    (run : Run Performs SortedMap.empty history providers) (id : String) :
    providers.get id = registered history id := by
  have begun : ∀ id, (SortedMap.empty : Providers κ).get id =
      registered [] id := fun _ => rfl
  refine run.history (fun past current => ∀ id,
    current.get id = registered past id) ?_ begun id
  intro past current entry next held performs id
  rw [get_performs performs id, held id, registered, registered,
    List.filterMap_append]
  cases set : entry.sets id with
  | none =>
      rw [List.filterMap_cons_none set, List.filterMap_nil, List.append_nil]
      rfl
  | some value =>
      rw [List.filterMap_cons_some set, List.filterMap_nil,
        List.getLast?_concat]
      rfl

/-- The entries are all that is registered, in the order of the IDs. -/
structure ListsAll (holds : String → Option κ) (entries : List (String × κ)) :
    Prop where
  ascending : entries.Pairwise fun left right => left.1 < right.1
  all : ∀ id handle, (id, handle) ∈ entries ↔ holds id = some handle

/-- The answer that what is registered calls for. -/
def Operation.Right (holds : String → Option κ) : Operation κ γ → γ → Prop
  | .register id _, .ok _ => holds id.val = none
  | .register id _, .error _ => ∃ other, holds id.val = some other
  | .unregister id, .ok handle => holds id = some handle
  | .unregister id, .error _ => holds id = none
  | .connector id, .ok handle => holds id = some handle
  | .connector id, .error _ => holds id = none
  | .connectors, handles =>
      ∃ entries, ListsAll holds entries ∧ handles = entries.map Prod.snd
  | .len, count =>
      ∃ entries, ListsAll holds entries ∧ count = entries.length

theorem listsAll_entries {providers : Providers κ}
    {holds : String → Option κ} (same : ∀ id, providers.get id = holds id) :
    ListsAll holds providers.entries where
  ascending := providers.sorted
  all := by
    intro id handle
    rw [← same, SortedMap.get_eq_some]

theorem right_of_performs {providers next : Providers κ} {entry : Entry κ}
    (performs : Performs providers entry next) {holds : String → Option κ}
    (same : ∀ id, providers.get id = holds id) :
    entry.operation.Right holds entry.answer := by
  obtain ⟨operation, answer⟩ := entry
  unfold Performs at performs
  cases operation with
  | register id handle =>
      rw [Operation.act] at performs
      split at performs
      · rename_i there
        cases performs
        rw [same] at there
        exact Option.isSome_iff_exists.mp there
      · rename_i absent
        cases performs
        rwa [same, Bool.not_eq_true, Option.isSome_eq_false_iff,
          Option.isNone_iff_eq_none] at absent
  | unregister id =>
      rw [Operation.act] at performs
      split at performs
      · rename_i absent
        cases performs
        rwa [same] at absent
      · rename_i there
        cases performs
        rwa [same] at there
  | connector id =>
      cases performs
      rw [same]
      cases held : holds id with
      | none => exact held
      | some handle => exact held
  | connectors =>
      cases performs
      exact ⟨_, listsAll_entries same, rfl⟩
  | len =>
      cases performs
      exact ⟨_, listsAll_entries same, rfl⟩

/-- Callers that use one registry, empty at first. -/
def usedBy {ρ : Type} (programs : Nat → Program κ ρ) : Calls (Providers κ) ρ where
  value := .empty
  codes := fun caller => (programs caller).code

theorem history_of_serial {ρ : Type} {programs : Nat → Program κ ρ}
    {order : List Nat} {serial : Calls (Providers κ) ρ}
    (run : Run Calls.Serially (usedBy programs) order serial) :
    ∃ history : List (Entry κ), history.length = order.length ∧
      Run Performs SortedMap.empty history serial.value ∧
      ∀ caller, ∃ program : Program κ ρ,
        serial.codes caller = program.code := by
  have begun : ∃ history : List (Entry κ), history.length = ([] : List Nat).length ∧
      Run Performs SortedMap.empty history (usedBy programs).value ∧
      ∀ caller, ∃ program : Program κ ρ,
        (usedBy programs).codes caller = program.code :=
    ⟨[], rfl, .nil, fun caller => ⟨programs caller, rfl⟩⟩
  refine run.history (fun past current => ∃ history : List (Entry κ),
    history.length = past.length ∧
      Run Performs SortedMap.empty history current.value ∧
      ∀ caller, ∃ program : Program κ ρ,
        current.codes caller = program.code) ?_ begun
  intro past current caller next given stepped
  obtain ⟨history, lengths, performed, coded⟩ := given
  cases stepped with
  | @turn body wants =>
      obtain ⟨program, code⟩ := coded caller
      rw [wants] at code
      cases program with
      | finish result => cases code
      | call operation goes =>
          cases code
          have performs : Performs current.value
              ⟨operation, (operation.act current.value).2⟩
              (operation.act current.value).1 := rfl
          refine ⟨history ++ [⟨operation, (operation.act current.value).2⟩],
            ?_, performed.append (.cons performs .nil), ?_⟩
          · rw [List.length_append, List.length_append, lengths]
            rfl
          · intro other
            by_cases same : other = caller
            · subst same
              exact ⟨_, Calls.settle_same ..⟩
            · rw [Calls.settle_other _ same]
              exact coded other

theorem right_of_history {history : List (Entry κ)}
    {providers : Providers κ}
    (run : Run Performs SortedMap.empty history providers)
    {before after : List (Entry κ)} {entry : Entry κ}
    (split : history = before ++ entry :: after) :
    entry.operation.Right (registered before) entry.answer := by
  subst split
  obtain ⟨middle, early, late⟩ := run.split
  cases late with
  | cons performs _ => exact right_of_performs performs (get_of_history early)

/-- A connector that asks the registry for its length while it connects. -/
def countingConnector (handle : Nat) : ConnectorCode Nat (Result Nat) Nat where
  descriptor := fun next => next ⟨"qemu", "QEMU", none, .preview, .empty⟩
  connect := fun _ next => len fun count => next (.ok (handle + count))

/-- The first caller registers, the others attach. -/
def qemuCallers : Nat → Program Nat (Result Nat)
  | 0 => register countingConnector 5 fun answer =>
      .finish (answer.map fun _ => 0)
  | _ + 1 => attach countingConnector "qemu" ⟨.any, .empty⟩ .finish

/-- After the registration two callers are inside at once, and the first of
them comes back while the other still reads. -/
def overlappingMoves : List Move :=
  [.acquire 0, .perform 0, .release 0, .acquire 1, .acquire 2, .perform 2,
    .perform 1, .release 1, .acquire 1, .perform 1, .release 1, .release 2]

theorem qemuCallers_run :
    ∃ final, Run Shared.Interleaved (usedBy qemuCallers).shared
        overlappingMoves final ∧
      final.holder = none ∧ final.codes 1 = .finish (.ok 6) := by
  have writes : ∀ {next : Result Unit → Program Nat (Result Nat)},
      ¬ (Section.perform (Operation.register ⟨"qemu", by decide⟩ 5).act
        fun answer => .unlock (next answer).code).Reads :=
    mt (reads_iff_looks _ _).mp id
  refine ⟨_, .cons (.acquire rfl (fun _ => rfl) rfl writes)
    (.cons (.perform rfl) (.cons (.release rfl)
    (.cons (.enter rfl rfl rfl ((reads_iff_looks _ _).mpr trivial))
    (.cons (.enter rfl rfl rfl ((reads_iff_looks _ _).mpr trivial))
    (.cons (.observe rfl) (.cons (.observe rfl) (.cons (.leave rfl)
    (.cons (.enter rfl rfl rfl ((reads_iff_looks _ _).mpr trivial))
    (.cons (.observe rfl) (.cons (.leave rfl) (.cons (.leave rfl)
    .nil))))))))))), rfl, rfl⟩

/-- How an attachment goes on from what is registered. -/
def connectTo {ρ τ : Type} (behaves : κ → ConnectorCode κ ρ τ) (id : String)
    (request : AttachRequest) (next : Result τ → Program κ ρ) :
    Option κ → Program κ ρ
  | none => next (.error (notRegistered id))
  | some handle => (behaves handle).connect request next

end LibVmi.Core
