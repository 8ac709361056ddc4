import LibVmi.Artifact.Fields
import LibVmi.Artifact.Files

namespace LibVmi.Artifact

open Data

/-! Reads that are bounded by a maximum size: files, and what decoders give. -/

def kdmpRefusals (encoding : String) (maxDecodedSize : UInt64) :
    Refusals VmiError where
  read := fun error =>
    .backend s!"failed to decode {encoding}-compressed KDMP: {error}"
  grow := .backend
    s!"failed to grow decoded {encoding} KDMP buffer: {capacityOverflow}"
  exceeds := .backend (s!"decoded {encoding} KDMP exceeds configured limit of " ++
    s!"{maxDecodedSize} bytes")

def decodeCompressedKdmp (decoder : Source) (encoding : String)
    (maxDecodedSize : UInt64) : Result Buffer := do
  let decoded ← capture (kdmpRefusals encoding maxDecodedSize) 65536
    (captureLimit maxDecodedSize) maxDecodedSize.toNat decoder .empty
  rejectIf (¬ ascii "PAGEDU64" <+: decoded.bytes)
    (.backend s!"{encoding} payload is not an AMD64 KDMP")
  return decoded

theorem decodeCompressedKdmp_ok {decoder : Source} {encoding : String}
    {maxDecodedSize : UInt64} {data : Buffer} :
    decodeCompressedKdmp decoder encoding maxDecodedSize = .ok data ↔
      capture (kdmpRefusals encoding maxDecodedSize) 65536
          (captureLimit maxDecodedSize) maxDecodedSize.toNat decoder .empty =
        .ok data ∧
      ascii "PAGEDU64" <+: data.bytes := by
  unfold decodeCompressedKdmp
  simp only [bind_eq_ok, rejectIf_eq_ok, not_not]
  constructor
  · rintro ⟨_, captured, _, signed, returned⟩
    cases returned
    exact ⟨captured, signed⟩
  · rintro ⟨captured, signed⟩
    exact ⟨data, captured, (), signed, rfl⟩

/-- From its start on, the loop holds no more than the bound before a turn and
after it. -/
def HoldsAtMost (bound : Nat) (refusals : Refusals VmiError)
    (maximum : UInt64) (source : Source) : Prop :=
  ∀ state, Relation.ReflTransGen
      (Onward refusals 65536 (captureLimit maximum) maximum.toNat)
      (source, .empty) state →
    state.2.length ≤ bound ∧
      (captureTurn refusals 65536 (captureLimit maximum) maximum.toNat state.1
        state.2).held.length ≤ bound

/-- Both readers give the whole of a source that does not fail, exactly where it
is not longer than the maximum, and hold one byte more at most on the way. -/
theorem bounded_reads_exact {maximum : UInt64} (positive : maximum ≠ 0)
    {source : Source} (reliable : source.Reliable) :
    (∀ host path file size description,
      host.openFile (Path.parse path) = .ok file → file.length = .ok size →
      size ≤ maximum → size.toNat < 2 ^ 63 → file.source = source →
      (∀ data, readFileLimited host path maximum description = .ok data ↔
        data.bytes = source.bytes ∧ source.bytes.length ≤ maximum.toNat) ∧
      (maximum.toNat < source.bytes.length →
        ∃ error, readFileLimited host path maximum description =
          .error error) ∧
      readFileLimited host path maximum description =
        capture (fileRefusals path description maximum) 65536
          (captureLimit maximum) maximum.toNat source .empty) ∧
    (∀ encoding,
      (∀ data, decodeCompressedKdmp source encoding maximum = .ok data ↔
        data.bytes = source.bytes ∧ source.bytes.length ≤ maximum.toNat ∧
          ascii "PAGEDU64" <+: source.bytes) ∧
      (maximum.toNat < source.bytes.length ∨
          ¬ ascii "PAGEDU64" <+: source.bytes →
        ∃ error, decodeCompressedKdmp source encoding maximum =
          .error error)) ∧
    ∀ refusals, HoldsAtMost (maximum.toNat + 1) refusals maximum source := by
  obtain ⟨covers, limited⟩ := captureLimit_bounds maximum
  have captured (refusals : Refusals VmiError) (data : Buffer) :
      capture refusals 65536 (captureLimit maximum) maximum.toNat source
          .empty = .ok data ↔
        data.bytes = source.bytes ∧ source.bytes.length ≤ maximum.toNat := by
    rw [capture_ok_iff reliable (by decide) covers (Nat.zero_le _)]
    constructor
    · rintro ⟨joined, fits⟩
      have whole : data.bytes = source.bytes := joined
      refine ⟨whole, ?_⟩
      rw [← whole]
      exact fits
    · rintro ⟨whole, fits⟩
      rw [← whole] at fits
      exact ⟨whole, fits⟩
  refine ⟨?_, ?_, ?_⟩
  · intro host path file size description opened reported within allocates rfl
    rw [readFileLimited_opened opened reported positive within allocates]
    refine ⟨captured _, ?_, rfl⟩
    intro longer
    cases returned : capture (fileRefusals path description maximum) 65536
        (captureLimit maximum) maximum.toNat file.source .empty with
    | error error => exact ⟨error, rfl⟩
    | ok data =>
        have fits := ((captured _ data).mp returned).2
        exact absurd fits (Nat.not_le.mpr longer)
  · intro encoding
    have decoded (data : Buffer) :
        decodeCompressedKdmp source encoding maximum = .ok data ↔
          data.bytes = source.bytes ∧ source.bytes.length ≤ maximum.toNat ∧
            ascii "PAGEDU64" <+: source.bytes := by
      rw [decodeCompressedKdmp_ok, captured, and_assoc]
      constructor
      · rintro ⟨whole, fits, signed⟩
        exact ⟨whole, fits, whole ▸ signed⟩
      · rintro ⟨whole, fits, signed⟩
        exact ⟨whole, fits, whole ▸ signed⟩
    refine ⟨decoded, ?_⟩
    intro refused
    cases returned : decodeCompressedKdmp source encoding maximum with
    | error error => exact ⟨error, rfl⟩
    | ok data =>
        obtain ⟨_, fits, signed⟩ := (decoded data).mp returned
        rcases refused with longer | unsigned
        · exact absurd fits (Nat.not_le.mpr longer)
        · exact absurd signed unsigned
  · intro refusals state reached
    obtain ⟨between, after, _⟩ :=
      onward_reached covers (Nat.zero_le _) reached
    exact ⟨between.trans (Nat.le_succ _), after.trans limited⟩

/-- A file that grows to the maximum after its size is looked up. -/
theorem bounded_reads_exact_grown :
    let source : Source := ⟨[1, 2, 3], [.interrupted, .ready 0]⟩
    let host : Host := ⟨.ok, fun _ => .ok ⟨.ok 2, source, fun _ => .ok source⟩,
      fun _ => .ok .null, fun _ => ""⟩
    readFileLimited host "image" 3 "raw artifact" =
      .ok ⟨[1, 2, 3], by decide⟩ :=
  (((bounded_reads_exact (by decide)
    (by simp [Source.Reliable])).1 _ "image" _ 2 "raw artifact" rfl rfl
    (by decide) (by decide) rfl).1 _).mpr ⟨rfl, by decide⟩

end LibVmi.Artifact
