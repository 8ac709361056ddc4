import LibVmi.Profile.NumericText

namespace LibVmi.Profile

open Data

/-! One list of names and addresses in both formats. -/

def systemMapLine (pair : String × UInt64) : List Char :=
  Nat.toDigits 16 pair.2.toNat ++ ' ' :: 'T' :: ' ' :: pair.1.toList

def renderSystemMap (pairs : List (String × UInt64)) : String :=
  String.ofList ((pairs.map systemMapLine).flatMap (· ++ ['\n']))

def escapeJson (char : Char) : List Char :=
  if char = '"' ∨ char = '\\' then ['\\', char]
  else if char.toNat < 0x20 then
    ['\\', 'u', '0', '0', Nat.digitChar (char.toNat / 16),
      Nat.digitChar (char.toNat % 16)]
  else [char]

def jsonMember (pair : String × UInt64) : List Char :=
  '"' :: pair.1.toList.flatMap escapeJson ++
    '"' :: ':' :: Nat.toDigits 10 pair.2.toNat

def renderJson (pairs : List (String × UInt64)) : String :=
  String.ofList ("\x7b\"symbols\":\x7b".toList ++
    [','].intercalate (pairs.map jsonMember) ++
    "\x7d,\"offsets\":\x7b\x7d\x7d".toList)

def jsonFields (pairs : List (String × UInt64)) : List (String × Json) :=
  pairs.map fun pair => (pair.1, .number (.posInt pair.2))

/-- What a JSON parser makes of the rendering: of the members under one key it
keeps the last, in an order of its own. -/
def KeepsLast (fromStr : String → Except String Json)
    (pairs : List (String × UInt64)) : Prop :=
  ∃ root kept, fromStr (renderJson pairs) = .ok (.object root) ∧
    Json.field root "symbols" = some (.object (jsonFields kept)) ∧
    Json.field root "offsets" = some (.object []) ∧
    List.Perm kept (firstsBy Prod.fst pairs.reverse)

/-- Both readers accept exactly the lists that repeat no name, and then answer
alike. -/
structure Agree (json : Result Profile) (map : Result SymbolTable)
    (pairs : List (String × UInt64)) : Prop where
  together : (∃ profile, json = .ok profile) ↔ ∃ table, map = .ok table
  distinct : (∃ table, map = .ok table) ↔ (pairs.map Prod.fst).Nodup
  symbol : ∀ profile table, json = .ok profile → map = .ok table →
    ∀ name, (profile.symbols.symbol name).map Symbol.address =
      (table.symbol name).map Symbol.address
  symbolsAt : ∀ profile table, json = .ok profile → map = .ok table →
    ∀ query name, name ∈ (profile.symbols.symbolsAt query).map Symbol.name ↔
      name ∈ (table.symbolsAt query).map Symbol.name

def tagged (kind : Option Char) (pair : String × UInt64) : Symbol :=
  ⟨pair.1, pair.2, kind⟩

namespace Indexes

variable {table : SymbolTable} {kind : Option Char}
  {pairs : List (String × UInt64)}
  (indexes : Indexes table (pairs.map (tagged kind)))
include indexes

theorem symbol_address {name : String} {address : UInt64} :
    (table.symbol name).map Symbol.address = some address ↔
      (name, address) ∈ pairs := by
  rw [SymbolTable.symbol, Option.map_eq_some_iff]
  simp only [indexes.lookup_eq_some, List.mem_map]
  constructor
  · intro given
    obtain ⟨_, ⟨⟨pair, member, rfl⟩, rfl⟩, rfl⟩ := given
    exact member
  · intro member
    exact ⟨_, ⟨⟨_, member, rfl⟩, rfl⟩, rfl⟩

theorem mem_symbolsAt {name : String} {query : UInt64} :
    name ∈ (table.symbolsAt query).map Symbol.name ↔ (name, query) ∈ pairs := by
  rw [indexes.symbolsAt, List.mem_map]
  simp only [mem_locatedAt, List.mem_map]
  constructor
  · intro given
    obtain ⟨_, ⟨⟨pair, member, rfl⟩, rfl⟩, rfl⟩ := given
    exact member
  · intro member
    exact ⟨_, ⟨⟨_, member, rfl⟩, rfl⟩, rfl⟩

end Indexes

/-! A rendered line is read back as its pair. -/

structure PlainName (name : String) : Prop where
  nonempty : name ≠ ""
  plain : ∀ char ∈ name.toList, isWhitespace char = false

theorem denotes_address (pair : String × UInt64) :
    Denotes 16 (Nat.toDigits 16 pair.2.toNat) pair.2 :=
  denotes_toDigits (by decide) (Nat.le_refl 16) pair.2

/-- The line starts with a digit. -/
theorem systemMapLine_head (pair : String × UInt64) :
    ∃ digit, (systemMapLine pair).head? = some digit ∧
      (digitOf 16 digit).isSome := by
  have denotes := denotes_address pair
  obtain ⟨digit, rest, same⟩ := List.exists_cons_of_ne_nil denotes.nonempty
  refine ⟨digit, by rw [systemMapLine, same]; rfl, ?_⟩
  apply denotes.digits_only
  rw [same]
  exact List.mem_cons_self

theorem skipped_systemMapLine (pair : String × UInt64) :
    skipped (systemMapLine pair) = false := by
  obtain ⟨digit, first, accepted⟩ := systemMapLine_head pair
  have occupied : systemMapLine pair ≠ [] := by
    intro empty
    rw [empty] at first
    cases first
  have other : digit ≠ '#' := by
    rintro rfl
    exact absurd accepted (by decide)
  simp [skipped, first, occupied, other]

section Line

variable {pair : String × UInt64} (named : PlainName pair.1)
include named

theorem PlainName.toList_ne_nil : pair.1.toList ≠ [] := by
  intro empty
  exact named.nonempty (String.toList_eq_nil_iff.mp empty)

theorem splitWhitespace_systemMapLine :
    splitWhitespace (systemMapLine pair) =
      [Nat.toDigits 16 pair.2.toNat, ['T'], pair.1.toList] := by
  have digits := denotes_address pair
  have address := splitWhitespace_cons digits.nonempty
    (fun char member => digitOf_plain (digits.digits_only char member))
    (show isWhitespace ' ' from rfl) ('T' :: ' ' :: pair.1.toList)
  have kind := splitWhitespace_cons (List.cons_ne_nil 'T' [])
    (by simp [isWhitespace]) (show isWhitespace ' ' from rfl) pair.1.toList
  rw [List.singleton_append] at kind
  rw [systemMapLine, address, kind,
    splitWhitespace_single named.toList_ne_nil named.plain]

theorem systemMapLine_last (char : Char)
    (last : char ∈ (systemMapLine pair).getLast?) :
    isWhitespace char = false := by
  apply named.plain
  obtain ⟨final, found⟩ :=
    Option.ne_none_iff_exists'.mp (mt List.getLast?_eq_none_iff.mp
      named.toList_ne_nil)
  rw [systemMapLine, List.append_cons, List.append_cons, List.append_cons,
    List.getLast?_append, found, Option.some_or, Option.mem_some] at last
  rw [← last]
  exact List.mem_of_getLast? found

theorem trim_systemMapLine : trim (systemMapLine pair) = systemMapLine pair := by
  apply trim_eq_self
  · intro char first
    obtain ⟨digit, found, accepted⟩ := systemMapLine_head pair
    rw [found, Option.mem_some] at first
    rw [← first]
    exact digitOf_plain accepted
  · exact systemMapLine_last named

theorem newline_not_mem : '\n' ∉ systemMapLine pair := by
  have digits := denotes_address pair
  intro member
  rw [systemMapLine] at member
  simp only [List.mem_append, List.mem_cons, Char.reduceEq, false_or] at member
  obtain early | late := member
  · have plain := digitOf_plain (digits.digits_only _ early)
    cases plain
  · have plain := named.plain _ late
    cases plain

theorem systemMapSymbol_systemMapLine (lineNumber : Nat) :
    systemMapSymbol lineNumber (splitWhitespace (systemMapLine pair)) =
      .ok (tagged (some 'T') pair) := by
  have address : systemMapAddress (Nat.toDigits 16 pair.2.toNat) lineNumber =
      .ok pair.2 :=
    systemMapAddress_eq_ok.mpr (.inl (.inl (denotes_address pair)))
  rw [splitWhitespace_systemMapLine named, systemMapSymbol, address, ok_bind,
    String.ofList_toList]
  rfl

end Line

/-- A rendered line is inserted, or refused for its name. -/
theorem insertLine_systemMapLine {table : SymbolTable} {held : List Symbol}
    (indexes : Indexes table held) (room : held.length < maxProfileEntries)
    {pair : String × UInt64} (named : PlainName pair.1) (lineNumber : Nat) :
    table.insertLine lineNumber (systemMapLine pair) =
      if pair.1 ∈ held.map Symbol.name then
        .error (.backend
          s!"duplicate System.map symbol {pair.1} on line {lineNumber}")
      else .ok (table.insert (tagged (some 'T') pair)).1 := by
  have space : ¬ table.len = maxProfileEntries := by
    rw [indexes.len_eq]
    exact Nat.ne_of_lt room
  rw [SymbolTable.insertLine, rejectIf_neg space, ok_bind,
    systemMapSymbol_systemMapLine named, ok_bind]
  dsimp only
  split
  · rename_i known
    rw [indexes.insert_known known]
    rfl
  · rename_i unknown
    rw [(indexes.insert_new unknown).1]
    rfl

/-- The rendered lines are read to the end exactly where they bring no name
that is there already. -/
theorem insertLines_systemMapLine (pairs : List (String × UInt64))
    (named : ∀ pair ∈ pairs, PlainName pair.1) (index : Nat)
    (numbered : index + pairs.length < Usize.limit) {table : SymbolTable}
    {held : List Symbol} (indexes : Indexes table held)
    (room : held.length + pairs.length ≤ maxProfileEntries) :
    (held.map Symbol.name ++ pairs.map Prod.fst).Nodup ∧
      (∃ filled, SymbolTable.insertLines index (pairs.map systemMapLine) table =
        .ok filled ∧ Indexes filled (held ++ pairs.map (tagged (some 'T')))) ∨
    ¬ (held.map Symbol.name ++ pairs.map Prod.fst).Nodup ∧
      ∃ error, SymbolTable.insertLines index (pairs.map systemMapLine) table =
        .error error := by
  induction pairs generalizing index table held with
  | nil =>
      left
      simp only [List.map_nil, List.append_nil]
      exact ⟨indexes.distinct, table, rfl, indexes⟩
  | cons pair rest induction =>
      rw [List.length_cons] at numbered room
      have number : Usize.checkedAdd index 1 = some (index + 1) :=
        Usize.checkedAdd_eq_some.mpr ⟨rfl, by omega⟩
      have here := named pair List.mem_cons_self
      simp only [List.map_cons]
      rw [SymbolTable.insertLines, number, okOr_some, ok_bind]
      dsimp only
      rw [trim_systemMapLine here, skipped_systemMapLine,
        insertLine_systemMapLine indexes (by omega) here]
      by_cases known : pair.1 ∈ held.map Symbol.name
      · right
        rw [if_pos known]
        refine ⟨?_, _, rfl⟩
        intro distinct
        rw [List.nodup_append] at distinct
        exact distinct.2.2 pair.1 known pair.1 List.mem_cons_self rfl
      · have unknown : (tagged (some 'T') pair).name ∉ held.map Symbol.name :=
          known
        have step := (indexes.insert_new unknown).2
        have later := induction
          (fun other member => named other (List.mem_cons_of_mem _ member))
          (index + 1) (by omega) step
          (by rw [List.length_append, List.length_singleton]; omega)
        rw [if_neg known]
        rw [List.map_append, List.map_singleton, List.append_assoc,
          List.append_assoc] at later
        exact later

theorem lines_renderSystemMap {pairs : List (String × UInt64)}
    (named : ∀ pair ∈ pairs, PlainName pair.1) :
    lines (renderSystemMap pairs).toList = pairs.map systemMapLine := by
  rw [renderSystemMap, String.toList_ofList]
  apply lines_flatMap
  · intro line member
    obtain ⟨pair, held, rfl⟩ := List.mem_map.mp member
    exact newline_not_mem (named pair held)
  · intro line member last
    obtain ⟨pair, held, rfl⟩ := List.mem_map.mp member
    have plain := systemMapLine_last (named pair held) '\r' last
    cases plain

theorem fromSystemMap_render {pairs : List (String × UInt64)}
    (nonempty : pairs ≠ []) (bounded : pairs.length ≤ maxProfileEntries)
    (named : ∀ pair ∈ pairs, PlainName pair.1) :
    (pairs.map Prod.fst).Nodup ∧
      (∃ table, SymbolTable.fromSystemMap (renderSystemMap pairs) = .ok table ∧
        Indexes table (pairs.map (tagged (some 'T')))) ∨
    ¬ (pairs.map Prod.fst).Nodup ∧
      ∃ error, SymbolTable.fromSystemMap (renderSystemMap pairs) =
        .error error := by
  have limit : maxProfileEntries < Usize.limit := by decide
  rw [SymbolTable.fromSystemMap, lines_renderSystemMap named]
  obtain ⟨distinct, table, filled, indexes⟩ | ⟨repeated, error, failed⟩ :=
    insertLines_systemMapLine pairs named 0 (by omega) Indexes.new
      (by simpa using bounded)
  · left
    refine ⟨distinct, table, ?_, indexes⟩
    rw [filled, ok_bind, rejectIf_neg, ok_bind]
    · rfl
    · rw [indexes.isEmpty_eq]
      simpa using nonempty
  · right
    refine ⟨repeated, error, ?_⟩
    rw [failed, error_bind]

theorem insertSymbols_jsonFields (pairs : List (String × UInt64))
    {table : SymbolTable} {held : List Symbol} (indexes : Indexes table held)
    (distinct : (held.map Symbol.name ++ pairs.map Prod.fst).Nodup) :
    ∃ filled, Profile.insertSymbols (jsonFields pairs) table = .ok filled ∧
      Indexes filled (held ++ pairs.map (tagged none)) := by
  induction pairs generalizing table held with
  | nil =>
      rw [List.map_nil, List.append_nil]
      exact ⟨table, rfl, indexes⟩
  | cons pair rest induction =>
      have unknown : (tagged none pair).name ∉ held.map Symbol.name := by
        intro known
        rw [List.nodup_append] at distinct
        exact distinct.2.2 pair.1 known pair.1 List.mem_cons_self rfl
      obtain ⟨inserted, step⟩ := indexes.insert_new unknown
      obtain ⟨filled, later, final⟩ := induction step (by
        rw [List.map_append, List.map_singleton, List.append_assoc]
        exact distinct)
      rw [List.append_assoc] at final
      refine ⟨filled, ?_, final⟩
      have number : profileNumber (.number (.posInt pair.2)) pair.1 =
          .ok pair.2 := rfl
      rw [jsonFields, List.map_cons, Profile.insertSymbols, number, ok_bind]
      dsimp only
      rw [show table.insert ⟨pair.1, pair.2, none⟩ =
        table.insert (tagged none pair) from rfl, inserted, ok_bind]
      exact later

/-- The JSON reader sees one member under each name, so it refuses none. -/
theorem fromJson_render {fromStr : String → Except String Json}
    {pairs : List (String × UInt64)} (keeps : KeepsLast fromStr pairs)
    (nonempty : pairs ≠ []) (bounded : pairs.length ≤ maxProfileEntries) :
    ∃ profile kept, Profile.fromJson fromStr (renderJson pairs) = .ok profile ∧
      List.Perm kept (firstsBy Prod.fst pairs.reverse) ∧
      Indexes profile.symbols (kept.map (tagged none)) := by
  obtain ⟨root, kept, parsed, symbols, offsets, permuted⟩ := keeps
  have distinct : (kept.map Prod.fst).Nodup :=
    (permuted.map Prod.fst).nodup_iff.mpr (nodup_map_firstsBy Prod.fst _)
  have occupied : kept ≠ [] := by
    rintro rfl
    have empty := (firstsBy_eq_nil Prod.fst).mp permuted.nil_eq.symm
    exact nonempty (List.reverse_eq_nil_iff.mp empty)
  have few : kept.length ≤ maxProfileEntries := by
    have shorter := length_firstsBy_le Prod.fst pairs.reverse
    rw [← permuted.length_eq, List.length_reverse] at shorter
    exact Nat.le_trans shorter bounded
  obtain ⟨table, filled, indexes⟩ :=
    insertSymbols_jsonFields kept Indexes.new distinct
  rw [List.nil_append] at indexes
  refine ⟨⟨table, ∅⟩, kept, ?_, permuted, indexes⟩
  have within : ¬ (maxProfileEntries < (jsonFields kept).length ∨
      maxProfileEntries < ([] : List (String × Json)).length) := by
    rw [jsonFields, List.length_map, List.length_nil]
    omega
  have used : ¬ table.isEmpty = true := by
    rw [indexes.isEmpty_eq]
    simpa using occupied
  rw [Profile.fromJson, parsed]
  simp only [Except.mapError, ok_bind, Json.asObject, okOr_some, symbols,
    offsets, Option.bind_some, rejectIf_neg within, filled, rejectIf_neg used,
    Profile.insertOffsets]
  rfl

/-- The two formats agree about a list exactly where it repeats no name. -/
theorem formats_agree_iff_distinct {fromStr : String → Except String Json}
    {pairs : List (String × UInt64)} (nonempty : pairs ≠ [])
    (bounded : pairs.length ≤ maxProfileEntries)
    (named : ∀ pair ∈ pairs, PlainName pair.1)
    (keeps : KeepsLast fromStr pairs) :
    Agree (Profile.fromJson fromStr (renderJson pairs))
      (SymbolTable.fromSystemMap (renderSystemMap pairs)) pairs ↔
      (pairs.map Prod.fst).Nodup := by
  obtain ⟨profile, kept, read, permuted, json⟩ :=
    fromJson_render keeps nonempty bounded
  obtain ⟨distinct, table, filled, map⟩ | ⟨repeated, error, failed⟩ :=
    fromSystemMap_render nonempty bounded named
  · have same : ∀ pair, pair ∈ kept ↔ pair ∈ pairs := by
      have reversed : (pairs.reverse.map Prod.fst).Nodup := by
        rw [List.map_reverse, List.nodup_reverse]
        exact distinct
      intro pair
      rw [permuted.mem_iff, firstsBy_eq_self Prod.fst reversed,
        List.mem_reverse]
    rw [read, filled]
    refine iff_of_true ⟨?_, ?_, ?_, ?_⟩ distinct
    · exact iff_of_true ⟨profile, rfl⟩ ⟨table, rfl⟩
    · exact iff_of_true ⟨table, rfl⟩ distinct
    · intro _ _ jsonRead mapRead name
      cases jsonRead
      cases mapRead
      apply Option.ext
      intro address
      rw [json.symbol_address, map.symbol_address]
      exact same _
    · intro _ _ jsonRead mapRead query name
      cases jsonRead
      cases mapRead
      rw [json.mem_symbolsAt, map.mem_symbolsAt]
      exact same _
  · rw [read, failed]
    refine iff_of_false ?_ repeated
    intro agree
    obtain ⟨table, found⟩ := agree.together.mp ⟨profile, rfl⟩
    cases found

/-- A parser that knows one text. -/
def knownText (known : String) (value : Json) (text : String) :
    Except String Json :=
  if text = known then .ok value else .error "expected value"

theorem keepsLast_knownText {pairs kept : List (String × UInt64)}
    (permuted : List.Perm kept (firstsBy Prod.fst pairs.reverse)) :
    KeepsLast (knownText (renderJson pairs) (.object
      [("offsets", .object []), ("symbols", .object (jsonFields kept))]))
      pairs :=
  ⟨_, kept, if_pos rfl, rfl, rfl, permuted⟩

theorem plainName_a : PlainName "a" where
  nonempty := by decide
  plain := by
    rw [show "a".toList = ['a'] from rfl]
    exact List.forall_mem_singleton.mpr (by decide)

theorem plainName_b : PlainName "b" where
  nonempty := by decide
  plain := by
    rw [show "b".toList = ['b'] from rfl]
    exact List.forall_mem_singleton.mpr (by decide)

/-- What the parser makes of the pairs need not be in their order. -/
theorem formats_agree_two_names :
    Agree (Profile.fromJson (knownText (renderJson [("b", 7), ("a", 1)])
        (.object [("offsets", .object []),
          ("symbols", .object (jsonFields [("a", 1), ("b", 7)]))]))
        (renderJson [("b", 7), ("a", 1)]))
      (SymbolTable.fromSystemMap (renderSystemMap [("b", 7), ("a", 1)]))
      [("b", 7), ("a", 1)] := by
  have kept : List.Perm [("a", (1 : UInt64)), ("b", 7)]
      (firstsBy Prod.fst [("b", (7 : UInt64)), ("a", 1)].reverse) := by
    decide
  have named : ∀ pair ∈ [("b", (7 : UInt64)), ("a", 1)], PlainName pair.1 :=
    List.forall_mem_cons.mpr
      ⟨plainName_b, List.forall_mem_singleton.mpr plainName_a⟩
  exact (formats_agree_iff_distinct (List.cons_ne_nil _ _) (by decide) named
    (keepsLast_knownText kept)).mpr (by decide)

/-- A repeated name is an error in one format and replaced in the other. -/
theorem formats_differ_on_repeated :
    KeepsLast (knownText (renderJson [("a", 1), ("a", 2)]) (.object
      [("offsets", .object []), ("symbols", .object (jsonFields [("a", 2)]))]))
      [("a", 1), ("a", 2)] ∧
    ¬ Agree (Profile.fromJson (knownText (renderJson [("a", 1), ("a", 2)])
          (.object [("offsets", .object []),
            ("symbols", .object (jsonFields [("a", 2)]))]))
        (renderJson [("a", 1), ("a", 2)]))
      (SymbolTable.fromSystemMap (renderSystemMap [("a", 1), ("a", 2)]))
      [("a", 1), ("a", 2)] := by
  have last : List.Perm [("a", (2 : UInt64))]
      (firstsBy Prod.fst [("a", (1 : UInt64)), ("a", 2)].reverse) := by decide
  have keeps := keepsLast_knownText last
  refine ⟨keeps, ?_⟩
  obtain ⟨profile, kept, read, _⟩ := fromJson_render keeps (by simp) (by decide)
  have plain : ∀ pair ∈ [("a", (1 : UInt64)), ("a", 2)], PlainName pair.1 := by
    simpa using plainName_a
  intro agree
  obtain ⟨distinct, _⟩ | ⟨_, error, failed⟩ :=
    fromSystemMap_render (by simp) (by decide) plain
  · exact absurd distinct (by decide)
  · rw [read, failed] at agree
    obtain ⟨table, found⟩ := agree.together.mp ⟨profile, rfl⟩
    cases found

end LibVmi.Profile
