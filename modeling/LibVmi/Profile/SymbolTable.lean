import LibVmi.Types
import LibVmi.Data.Checked
import LibVmi.Data.Keyed
import Mathlib.Data.List.AList
import Mathlib.Data.List.MinMax

namespace LibVmi.Profile

open Data

structure Symbol where
  name : String
  address : UInt64
  kind : Option Char
  deriving DecidableEq, Repr

/-- Symbols under their names, and their names under their addresses. -/
structure SymbolTable where
  byName : AList fun _ : String => Symbol
  byAddress : AList fun _ : UInt64 => List String

namespace SymbolTable

/-- The table of no symbols. -/
def new : SymbolTable := ⟨∅, ∅⟩

def symbol (self : SymbolTable) (name : String) : Option Symbol :=
  self.byName.lookup name

def len (self : SymbolTable) : Nat := self.byName.entries.length

def isEmpty (self : SymbolTable) : Bool := self.byName.entries.isEmpty

def symbolsAt (self : SymbolTable) (address : UInt64) : List Symbol :=
  ((self.byAddress.lookup address).getD []).filterMap self.byName.lookup

/-- The last entry of the address index in the range up to an address. -/
def lastUpTo (self : SymbolTable) (address : UInt64) :
    Option (UInt64 × List String) :=
  ((self.byAddress.entries.filter fun entry => entry.1 ≤ address).argmax
    fun entry => entry.1.toNat).map fun entry => (entry.1, entry.2)

def nearestSymbol (self : SymbolTable) (address : UInt64) :
    Option (Symbol × UInt64) := do
  let (base, names) ← self.lastUpTo address
  let name ← names.head?
  let symbol ← self.byName.lookup name
  let offset ← checkedSub address base
  return (symbol, offset)

/-- The indexes are assumed to find the memory that they reserve. -/
def insert (self : SymbolTable) (symbol : Symbol) :
    SymbolTable × Result Unit :=
  if (self.byName.lookup symbol.name).isSome then
    (self, .error (.backend s!"duplicate symbol {symbol.name}"))
  else
    let byAddress :=
      match self.byAddress.lookup symbol.address with
      | some names =>
          self.byAddress.insert symbol.address (names ++ [symbol.name])
      | none => self.byAddress.insert symbol.address [symbol.name]
    (⟨self.byName.insert symbol.name symbol, byAddress⟩, .ok ())

/-- A sequence of insertions, each made whatever became of those before. -/
def insertAll (self : SymbolTable) (attempts : List Symbol) : SymbolTable :=
  attempts.foldl (fun table symbol => (table.insert symbol).1) self

end SymbolTable

/-! The symbols a history of insertions leaves, and what it means for both
indexes of a table to stand for one list of symbols. -/

def accepted (attempts : List Symbol) : List Symbol :=
  firstsBy Symbol.name attempts

def locatedAt (held : List Symbol) (address : UInt64) : List Symbol :=
  held.filter fun symbol => symbol.address = address

structure Indexes (table : SymbolTable) (held : List Symbol) : Prop where
  named : ∀ name,
    table.byName.lookup name = held.find? fun symbol => symbol.name = name
  located : ∀ address names, table.byAddress.lookup address = some names ↔
    names ≠ [] ∧ names = (locatedAt held address).map Symbol.name
  distinct : (held.map Symbol.name).Nodup

/-- The symbol inserted first at the greatest address that a query reaches. -/
structure Nearest (held : List Symbol) (query : UInt64) (symbol : Symbol)
    (offset : UInt64) : Prop where
  first : (locatedAt held symbol.address).head? = some symbol
  below : symbol.address ≤ query
  greatest : ∀ other ∈ held, other.address ≤ query →
    other.address ≤ symbol.address
  offset_eq : query.toNat = symbol.address.toNat + offset.toNat

theorem mem_locatedAt {held : List Symbol} {address : UInt64}
    {symbol : Symbol} :
    symbol ∈ locatedAt held address ↔
      symbol ∈ held ∧ symbol.address = address := by
  rw [locatedAt, List.mem_filter, decide_eq_true_eq]

theorem locatedAt_concat (held : List Symbol) (symbol : Symbol)
    (address : UInt64) :
    locatedAt (held ++ [symbol]) address =
      if symbol.address = address then locatedAt held address ++ [symbol]
      else locatedAt held address := by
  unfold locatedAt
  rw [List.filter_append]
  split
  · rename_i here
    have kept : [symbol].filter (fun other => other.address = address) =
        [symbol] := by simp [here]
    rw [kept]
  · rename_i elsewhere
    have dropped : [symbol].filter (fun other => other.address = address) =
        [] := by simp [elsewhere]
    rw [dropped, List.append_nil]

theorem Nearest.unique {held : List Symbol} {query : UInt64}
    {symbol other : Symbol} {offset distance : UInt64}
    (nearest : Nearest held query symbol offset)
    (given : Nearest held query other distance) :
    symbol = other ∧ offset = distance := by
  have known := (mem_locatedAt.mp (List.mem_of_head? nearest.first)).1
  have given_known := (mem_locatedAt.mp (List.mem_of_head? given.first)).1
  have address : symbol.address = other.address :=
    UInt64.le_antisymm (given.greatest symbol known nearest.below)
      (nearest.greatest other given_known given.below)
  constructor
  · have first := nearest.first
    rw [address, given.first] at first
    exact (Option.some.inj first).symm
  · apply UInt64.toNat_inj.mp
    have left := nearest.offset_eq
    have right := given.offset_eq
    rw [address] at left
    omega

namespace Indexes

theorem new : Indexes SymbolTable.new [] where
  named := fun _ => rfl
  located := by
    intro address names
    constructor
    · intro found
      cases found
    · intro given
      exact absurd given.2 given.1
  distinct := List.nodup_nil

variable {table : SymbolTable} {held : List Symbol}
  (indexes : Indexes table held)
include indexes

theorem lookup_eq_some {name : String} {symbol : Symbol} :
    table.byName.lookup name = some symbol ↔
      symbol ∈ held ∧ symbol.name = name := by
  rw [indexes.named, find?_key_eq_some Symbol.name indexes.distinct]

theorem lookup_isSome {name : String} :
    (table.byName.lookup name).isSome ↔
      name ∈ held.map Symbol.name := by
  rw [Option.isSome_iff_exists, List.mem_map]
  simp only [indexes.lookup_eq_some]

theorem lookup_of_mem {symbol : Symbol} (member : symbol ∈ held) :
    table.byName.lookup symbol.name = some symbol :=
  indexes.lookup_eq_some.mpr ⟨member, rfl⟩

theorem located_getD (address : UInt64) :
    (table.byAddress.lookup address).getD [] =
      (locatedAt held address).map Symbol.name := by
  cases found : table.byAddress.lookup address with
  | some names => exact ((indexes.located address names).mp found).2
  | none =>
      by_contra different
      have known := (indexes.located address _).mpr ⟨Ne.symm different, rfl⟩
      rw [found] at known
      cases known

/-- The name index holds one entry for each symbol. -/
theorem len_eq : table.len = held.length := by
  have same : table.byName.keys.Perm (held.map Symbol.name) := by
    rw [List.perm_ext_iff_of_nodup table.byName.keys_nodup indexes.distinct]
    intro name
    rw [← AList.mem_keys, ← AList.lookup_isSome, indexes.lookup_isSome]
  have lengths := same.length_eq
  rw [AList.keys, List.keys, List.length_map, List.length_map] at lengths
  exact lengths

theorem isEmpty_eq : table.isEmpty = held.isEmpty := by
  rw [Bool.eq_iff_iff, SymbolTable.isEmpty, List.isEmpty_iff_length_eq_zero,
    List.isEmpty_iff_length_eq_zero, ← indexes.len_eq, SymbolTable.len]

/-- A name that is new is put behind the others of its address. -/
theorem insert_new {symbol : Symbol}
    (unknown : symbol.name ∉ held.map Symbol.name) :
    (table.insert symbol).2 = .ok () ∧
      Indexes (table.insert symbol).1 (held ++ [symbol]) := by
  have absent : ¬ (table.byName.lookup symbol.name).isSome :=
    fun found => unknown (indexes.lookup_isSome.mp found)
  have grown : (table.insert symbol).1.byAddress =
      table.byAddress.insert symbol.address
        ((locatedAt held symbol.address).map Symbol.name ++ [symbol.name]) := by
    rw [← indexes.located_getD]
    unfold SymbolTable.insert
    rw [if_neg absent]
    cases table.byAddress.lookup symbol.address <;> simp
  refine ⟨by simp [SymbolTable.insert, absent], ?_, ?_, ?_⟩
  · intro name
    rw [SymbolTable.insert, if_neg absent, List.find?_append]
    dsimp only
    by_cases same : name = symbol.name
    · subst same
      have missing : held.find? (fun other => other.name = symbol.name) = none := by
        rw [← indexes.named, Option.eq_none_iff_forall_ne_some]
        intro other found
        exact absent (by rw [found]; rfl)
      rw [AList.lookup_insert, missing]
      simp
    · rw [AList.lookup_insert_ne same, indexes.named,
        List.find?_cons_of_neg (by simpa using Ne.symm same)]
      simp
  · intro address names
    rw [grown, locatedAt_concat]
    by_cases here : symbol.address = address
    · subst here
      rw [AList.lookup_insert, if_pos rfl, List.map_append, Option.some.injEq]
      constructor
      · intro same
        subst same
        exact ⟨by simp, rfl⟩
      · intro given
        exact given.2.symm
    · rw [AList.lookup_insert_ne (Ne.symm here), if_neg here]
      exact indexes.located address names
  · rw [List.map_append, List.nodup_append]
    refine ⟨indexes.distinct, List.nodup_singleton _, ?_⟩
    intro name known other last same
    rw [List.map_singleton, List.mem_singleton] at last
    exact unknown (by rw [← last, ← same]; exact known)

theorem insert_known {symbol : Symbol}
    (known : symbol.name ∈ held.map Symbol.name) :
    table.insert symbol =
      (table, .error (.backend s!"duplicate symbol {symbol.name}")) :=
  if_pos (indexes.lookup_isSome.mpr known)

/-- One insertion: it fails and changes nothing, or adds its symbol. -/
theorem insert (symbol : Symbol) :
    Indexes (table.insert symbol).1
      (if symbol.name ∈ held.map Symbol.name then held else held ++ [symbol]) := by
  by_cases known : symbol.name ∈ held.map Symbol.name
  · rw [indexes.insert_known known, if_pos known]
    exact indexes
  · rw [if_neg known]
    exact (indexes.insert_new known).2

theorem insert_eq_ok {symbol : Symbol} :
    (table.insert symbol).2 = .ok () ↔
      symbol.name ∉ held.map Symbol.name := by
  constructor
  · intro inserted known
    rw [indexes.insert_known known] at inserted
    cases inserted
  · intro unknown
    exact (indexes.insert_new unknown).1

theorem symbolsAt (address : UInt64) :
    table.symbolsAt address = locatedAt held address := by
  rw [SymbolTable.symbolsAt, indexes.located_getD, List.filterMap_map]
  calc
    (locatedAt held address).filterMap
        (table.byName.lookup ∘ Symbol.name) =
        (locatedAt held address).filterMap some := by
      apply List.filterMap_congr
      intro symbol member
      exact indexes.lookup_of_mem (mem_locatedAt.mp member).1
    _ = locatedAt held address := List.filterMap_some

theorem lastUpTo_eq_none {query : UInt64} :
    table.lastUpTo query = none ↔
      ∀ symbol ∈ held, query < symbol.address := by
  rw [SymbolTable.lastUpTo, Option.map_eq_none_iff, List.argmax_eq_none,
    List.filter_eq_nil_iff]
  constructor
  · intro beyond symbol member
    have here : symbol ∈ locatedAt held symbol.address :=
      mem_locatedAt.mpr ⟨member, rfl⟩
    have found := (indexes.located symbol.address _).mpr
      ⟨List.ne_nil_of_mem (List.mem_map_of_mem here), rfl⟩
    have later := beyond _ (AList.mem_lookup_iff.mp found)
    exact UInt64.not_le.mp (by simpa using later)
  · intro beyond entry member
    have found := AList.mem_lookup_iff.mpr member
    obtain ⟨occupied, named⟩ := (indexes.located _ _).mp found
    rw [named, ne_eq, List.map_eq_nil_iff] at occupied
    obtain ⟨symbol, here⟩ := List.exists_mem_of_ne_nil _ occupied
    obtain ⟨known, address⟩ := mem_locatedAt.mp here
    have later := beyond symbol known
    rw [address] at later
    simpa using later

theorem lastUpTo_eq_some {query base : UInt64} {names : List String}
    (last : table.lastUpTo query = some (base, names)) :
    names = (locatedAt held base).map Symbol.name ∧ names ≠ [] ∧
      base ≤ query ∧
      ∀ symbol ∈ held, symbol.address ≤ query → symbol.address ≤ base := by
  obtain ⟨entry, greatest, same⟩ := Option.map_eq_some_iff.mp last
  cases same
  obtain ⟨member, below⟩ := List.mem_filter.mp (List.argmax_mem greatest)
  have found := AList.mem_lookup_iff.mpr member
  obtain ⟨occupied, named⟩ := (indexes.located _ _).mp found
  refine ⟨named, occupied, of_decide_eq_true below, ?_⟩
  intro symbol known reached
  have here : symbol ∈ locatedAt held symbol.address :=
    mem_locatedAt.mpr ⟨known, rfl⟩
  have other := (indexes.located symbol.address _).mpr
    ⟨List.ne_nil_of_mem (List.mem_map_of_mem here), rfl⟩
  have candidate :
      ⟨symbol.address, (locatedAt held symbol.address).map Symbol.name⟩ ∈
        table.byAddress.entries.filter fun entry => entry.1 ≤ query :=
    List.mem_filter.mpr ⟨AList.mem_lookup_iff.mp other, decide_eq_true reached⟩
  have ordered := List.le_of_mem_argmax candidate greatest
  exact UInt64.le_iff_toNat_le.mpr ordered

/-- Where the range holds an entry, every later step of the search succeeds. -/
theorem nearestSymbol_eq {query base : UInt64} {names : List String}
    (last : table.lastUpTo query = some (base, names)) :
    ∃ symbol, table.nearestSymbol query = some (symbol, query - base) ∧
      Nearest held query symbol (query - base) := by
  obtain ⟨named, occupied, below, greatest⟩ := indexes.lastUpTo_eq_some last
  rw [named, ne_eq, List.map_eq_nil_iff] at occupied
  obtain ⟨symbol, rest, here⟩ := List.exists_cons_of_ne_nil occupied
  have first : symbol ∈ locatedAt held base := by
    rw [here]
    exact List.mem_cons_self
  obtain ⟨known, address⟩ := mem_locatedAt.mp first
  have difference : query.toNat = base.toNat + (query - base).toNat := by
    have ordered := UInt64.le_iff_toNat_le.mp below
    rw [UInt64.toNat_sub_of_le _ _ below]
    omega
  have subtracted : checkedSub query base = some (query - base) :=
    checkedSub_eq_some.mpr difference
  refine ⟨symbol, ?_, ?_, ?_, ?_, ?_⟩
  · rw [SymbolTable.nearestSymbol, last]
    simp [named, here, indexes.lookup_of_mem known, subtracted]
  · rw [address, here]
    rfl
  · rw [address]
    exact below
  · rw [address]
    exact greatest
  · rw [address]
    exact difference

theorem nearestSymbol_eq_none {query : UInt64} :
    table.nearestSymbol query = none ↔
      ∀ symbol ∈ held, query < symbol.address := by
  rw [← indexes.lastUpTo_eq_none]
  constructor
  · intro missing
    rw [Option.eq_none_iff_forall_ne_some]
    intro entry last
    obtain ⟨symbol, found, _⟩ := indexes.nearestSymbol_eq last
    rw [missing] at found
    cases found
  · intro missing
    rw [SymbolTable.nearestSymbol, missing]
    rfl

theorem nearestSymbol_eq_some {query : UInt64} {symbol : Symbol}
    {offset : UInt64} :
    table.nearestSymbol query = some (symbol, offset) ↔
      Nearest held query symbol offset := by
  cases last : table.lastUpTo query with
  | none =>
      have missing : table.nearestSymbol query = none := by
        rw [SymbolTable.nearestSymbol, last]
        rfl
      rw [missing]
      constructor
      · intro found
        cases found
      · intro nearest
        have known := (mem_locatedAt.mp (List.mem_of_head? nearest.first)).1
        have beyond := indexes.lastUpTo_eq_none.mp last symbol known
        exact absurd nearest.below (UInt64.not_le.mpr beyond)
  | some entry =>
      obtain ⟨other, found, nearest⟩ := indexes.nearestSymbol_eq last
      rw [found]
      constructor
      · intro same
        cases same
        exact nearest
      · intro given
        obtain ⟨rfl, rfl⟩ := nearest.unique given
        rfl

end Indexes

theorem indexes_run (attempts : List Symbol) :
    Indexes (SymbolTable.new.insertAll attempts) (accepted attempts) := by
  induction attempts using List.reverseRecOn with
  | nil => exact Indexes.new
  | append_singleton attempts symbol induction =>
      have step := induction.insert symbol
      rw [SymbolTable.insertAll, List.foldl_concat, accepted, firstsBy_concat]
      rw [accepted] at step
      simp only [mem_map_firstsBy] at step
      exact step

/-- Whatever was inserted, and whichever insertions failed, both indexes stand
for the first symbol under each name, and answer every query from that list. -/
theorem symbolTable_indexes_agree (attempts : List Symbol) :
    let table := SymbolTable.new.insertAll attempts
    let held := accepted attempts
    (∀ name symbol, table.symbol name = some symbol ↔
      symbol ∈ held ∧ symbol.name = name) ∧
    (∀ address names, table.byAddress.lookup address = some names ↔
      names ≠ [] ∧ names = (locatedAt held address).map Symbol.name) ∧
    (held.map Symbol.name).Nodup ∧
    (∀ query, table.symbolsAt query = locatedAt held query) ∧
    (∀ query, table.nearestSymbol query = none ↔
      ¬ ∃ symbol ∈ held, symbol.address ≤ query) ∧
    (∀ query symbol offset,
      table.nearestSymbol query = some (symbol, offset) ↔
        Nearest held query symbol offset) ∧
    (∀ symbol, ((table.insert symbol).2 = .ok () ↔
      symbol.name ∉ held.map Symbol.name) ∧
      ((table.insert symbol).2 ≠ .ok () →
        (table.insert symbol).1 = table)) := by
  intro table held
  have indexes : Indexes table held := indexes_run attempts
  refine ⟨?_, indexes.located, indexes.distinct, indexes.symbolsAt, ?_, ?_, ?_⟩
  · intro name symbol
    exact indexes.lookup_eq_some
  · intro query
    rw [indexes.nearestSymbol_eq_none]
    simp only [not_exists, not_and, UInt64.not_le]
  · intro query symbol offset
    exact indexes.nearestSymbol_eq_some
  · intro symbol
    refine ⟨indexes.insert_eq_ok, ?_⟩
    intro failed
    have known := not_not.mp (mt indexes.insert_eq_ok.mpr failed)
    rw [indexes.insert_known known]

end LibVmi.Profile
