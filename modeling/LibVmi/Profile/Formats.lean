import LibVmi.Data.Json
import LibVmi.Data.Text
import LibVmi.Profile.SymbolTable

namespace LibVmi.Profile

open Data

/-! The two text formats of a profile. The line counter and the growing tables
are assumed to find the memory that they reserve; parsed JSON comes from the
parser that is given. -/

def maxProfileEntries : Nat := 1_000_000

def malformed (line : Nat) : VmiError :=
  .backend s!"malformed System.map line {line}"

/-- A text without the `0x` that it starts with, as often as it does. -/
def trimStartHex : List Char → List Char
  | '0' :: 'x' :: rest => trimStartHex rest
  | text => text

def systemMapAddress (addressText : List Char) (lineNumber : Nat) :
    Result UInt64 :=
  (fromStrRadix 16 (trimStartHex addressText)).mapError fun error => .backend
    s!"invalid System.map address on line {lineNumber}: {error}"

/-- The symbol of a line with exactly three fields, one character between. -/
def systemMapSymbol (lineNumber : Nat) : List (List Char) → Result Symbol
  | [addressText, [kind], name] => do
      let address ← systemMapAddress addressText lineNumber
      return ⟨String.ofList name, address, some kind⟩
  | _ => .error (malformed lineNumber)

def skipped (line : List Char) : Bool :=
  line.isEmpty || line.head? = some '#'

namespace SymbolTable

def insertLine (self : SymbolTable) (lineNumber : Nat) (line : List Char) :
    Result SymbolTable := do
  rejectIf (self.len = maxProfileEntries)
    (.backend s!"System.map exceeds {maxProfileEntries} symbols")
  let symbol ← systemMapSymbol lineNumber (splitWhitespace line)
  let (table, inserted) := self.insert symbol
  inserted.mapError fun _ => .backend
    s!"duplicate System.map symbol {symbol.name} on line {lineNumber}"
  return table

def insertLines : (index : Nat) → List (List Char) → SymbolTable →
    Result SymbolTable
  | _, [], table => .ok table
  | index, line :: rest, table => do
      let lineNumber ← okOr (Usize.checkedAdd index 1)
        (.backend "System.map line number overflow")
      let line := trim line
      if skipped line then
        insertLines lineNumber rest table
      else do
        let table ← table.insertLine lineNumber line
        insertLines lineNumber rest table

def fromSystemMap (contents : String) : Result SymbolTable := do
  let table ← insertLines 0 (lines contents.toList) new
  rejectIf table.isEmpty (.backend "System.map contains no symbols")
  return table

end SymbolTable

def profileNumber (value : Json) (field : String) : Result UInt64 :=
  match value.asU64 with
  | some number => .ok number
  | none => do
      let text ← okOr value.asStr (.backend
        s!"profile value {field} must be an unsigned number or string")
      let parsed := match text.toList with
        | '0' :: 'x' :: hex => fromStrRadix 16 hex
        | digits => fromStrRadix 10 digits
      parsed.mapError fun error => .backend
        s!"invalid profile value {field}: {error}"

end LibVmi.Profile

namespace LibVmi

open Data Profile

structure Profile where
  symbols : SymbolTable
  offsets : AList fun _ : String => UInt64

namespace Profile

def insertSymbols : List (String × Json) → SymbolTable → Result SymbolTable
  | [], symbols => .ok symbols
  | (name, value) :: rest, symbols => do
      let address ← profileNumber value name
      let (symbols, inserted) := symbols.insert ⟨name, address, none⟩
      inserted
      insertSymbols rest symbols

def insertOffsets : List (String × Json) →
    (AList fun _ : String => UInt64) →
      Result (AList fun _ : String => UInt64)
  | [], offsets => .ok offsets
  | (name, value) :: rest, offsets => do
      let offset ← profileNumber value name
      insertOffsets rest (offsets.insert name offset)

def fromJson (fromStr : String → Except String Json) (contents : String) :
    Result Profile := do
  let root ← (fromStr contents).mapError fun error =>
    .backend s!"invalid profile JSON: {error}"
  let root ← okOr root.asObject (.backend "profile root must be an object")
  let symbolValues ← okOr ((Json.field root "symbols").bind Json.asObject)
    (.backend "profile symbols must be an object")
  let offsetValues ← okOr ((Json.field root "offsets").bind Json.asObject)
    (.backend "profile offsets must be an object")
  rejectIf (maxProfileEntries < symbolValues.length ∨
      maxProfileEntries < offsetValues.length)
    (.backend
      s!"profile symbols or offsets exceed {maxProfileEntries} entries")
  let symbols ← insertSymbols symbolValues .new
  rejectIf symbols.isEmpty (.backend "profile contains no symbols")
  let offsets ← insertOffsets offsetValues ∅
  return ⟨symbols, offsets⟩

def offset (self : Profile) (name : String) : Option UInt64 :=
  self.offsets.lookup name

def requireOffset (self : Profile) (name : String) : Result UInt64 :=
  okOr (self.offset name) (.backend s!"profile offset {name} not found")

end Profile

end LibVmi
