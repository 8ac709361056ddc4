import LibVmi.Qemu.Monitor

namespace LibVmi.Qemu

open Data

/-! An escaped path is read back whole, whatever follows its closing quote. -/

def escapedLength (path : List Char) : Nat :=
  utf8Length path +
    path.countP fun character => character = '\\' ∨ character = '"'

theorem quotedBody_escapeCharacter (character : Char) (tail : List Char) :
    quotedBody (escapeCharacter character ++ tail) =
      (quotedBody tail).map fun (text, after) => (character :: text, after) := by
  unfold escapeCharacter
  split
  · rename_i special
    obtain rfl | rfl := special
    · rfl
    · rfl
  · rename_i plain
    obtain ⟨backslash, quote⟩ := not_or.mp plain
    rw [List.singleton_append, quotedBody]
    · exact quote
    · exact fun _ escape _ => backslash escape
    · exact fun _ escape _ => backslash escape

theorem quotedBody_escaped (path rest : List Char) :
    quotedBody (path.flatMap escapeCharacter ++ '"' :: rest) =
      some (path, rest) := by
  induction path with
  | nil => rfl
  | cons character path induction =>
      rw [List.flatMap_cons, List.append_assoc, quotedBody_escapeCharacter,
        induction]
      rfl

theorem tryReserve_eq_ok {capacity : Nat} {failure : String} {result : Unit} :
    tryReserve capacity failure = .ok result ↔ capacity < 2 ^ 63 := by
  rw [tryReserve, rejectIf_eq_ok, Nat.not_le]

theorem tryEscapeMonitorPath_eq_ok {path escaped : List Char} :
    tryEscapeMonitorPath path = .ok escaped ↔
      escapedLength path < 2 ^ 63 ∧ path.flatMap escapeCharacter = escaped := by
  unfold tryEscapeMonitorPath
  simp only [bind_eq_ok, okOr_eq_ok, Usize.checkedAdd_eq_some,
    tryReserve_eq_ok, pure_eq_ok, Except.ok.injEq, Usize.limit]
  constructor
  · intro given
    obtain ⟨_, ⟨rfl, _⟩, _, small, same⟩ := given
    exact ⟨small, same⟩
  · intro given
    obtain ⟨small, same⟩ := given
    refine ⟨_, ⟨rfl, ?_⟩, (), small, same⟩
    exact Nat.lt_trans small (by decide)

/-- A path that is escaped at all is read back from its quotes, with nothing
of what follows them; so no two paths are escaped alike, and the argument of
the command ends where the command does. -/
theorem escaped_path_read_back (path : List Char) :
    (∀ escaped rest, tryEscapeMonitorPath path = .ok escaped →
      quotedArgument ('"' :: escaped ++ '"' :: rest) = some (path, rest)) ∧
    ((∃ escaped, tryEscapeMonitorPath path = .ok escaped) ↔
      escapedLength path < 2 ^ 63) ∧
    (∀ other escaped, tryEscapeMonitorPath path = .ok escaped →
      tryEscapeMonitorPath other = .ok escaped → other = path) ∧
    ∀ start length escaped, tryEscapeMonitorPath path = .ok escaped →
      ∃ command, pmemsave start length escaped =
          command ++ ('"' :: escaped ++ ['"']) ∧
        '"' ∉ command ∧
        quotedArgument ('"' :: escaped ++ ['"']) = some (path, []) := by
  have readBack : ∀ escaped rest, tryEscapeMonitorPath path = .ok escaped →
      quotedArgument ('"' :: escaped ++ '"' :: rest) = some (path, rest) := by
    intro escaped rest accepted
    obtain ⟨_, rfl⟩ := tryEscapeMonitorPath_eq_ok.mp accepted
    exact quotedBody_escaped path rest
  refine ⟨readBack, ?_, ?_, ?_⟩
  · simp only [tryEscapeMonitorPath_eq_ok, exists_and_left, exists_eq',
      and_true]
  · intro other escaped accepted same
    obtain ⟨_, rfl⟩ := tryEscapeMonitorPath_eq_ok.mp same
    have first : quotedBody (other.flatMap escapeCharacter ++ ['"']) =
        some (path, []) := readBack _ [] accepted
    rw [quotedBody_escaped other []] at first
    exact (Prod.mk.inj (Option.some.inj first)).1
  · intro start length escaped accepted
    have verb : '"' ∉ "pmemsave ".toList := by decide
    unfold pmemsave
    generalize "pmemsave ".toList = lead at verb ⊢
    refine ⟨lead ++ Nat.toDigits 10 start.toNat ++ ' ' ::
      Nat.toDigits 10 length.toNat ++ [' '], ?_, ?_,
      readBack escaped [] accepted⟩
    · simp only [List.append_assoc, List.cons_append, List.nil_append]
    · have digits : ∀ number : Nat, '"' ∉ Nat.toDigits 10 number := by
        intro number member
        have digit := Nat.isDigit_of_mem_toDigits (by decide) (by decide) member
        exact absurd digit (by decide)
      simp only [List.mem_append, List.mem_cons, verb, digits, Char.reduceEq,
        List.not_mem_nil, or_self, not_false_eq_true]

/-! The text that the monitor gets, and the destination that was checked. -/

section Host

variable {ν : Type} {host : MonitorHost ν}

/-- The path behind the working directory. -/
def resolved (host : MonitorHost ν) (path : List Char) : List Char :=
  match host.currentDir with
  | .ok (.utf8 current) => joinText current path
  | _ => path

/-- The host reports the working directory as an absolute path without links. -/
def ReportsDirectory (host : MonitorHost ν) : Prop :=
  ∀ current, host.currentDir = .ok (.utf8 current) →
    FileTree.NamesDirectory host.tree current host.workingDirectory

/-- Two absolute paths with one entry, whatever the file system holds. -/
def SameEntry (left right : List Char) : Prop :=
  ∀ (ν : Type) (tree : FileTree ν) (directory : ν),
    tree.locate directory left = tree.locate directory right

theorem resolved_of_absolute {path : List Char} (absolute : absolutePath path) :
    resolved host path = path := by
  unfold resolved
  split
  · exact if_pos absolute
  · rfl

/-- What is accepted is the resolved path, rewritten and free of control
characters. -/
theorem monitorPath_eq_ok {path text : List Char}
    (accepted : monitorPath host path = .ok text) :
    text = (resolved host path).map normalized ∧
      text.any isControl = false ∧
      (absolutePath path ∨ ∃ current, host.currentDir = .ok (.utf8 current)) := by
  unfold monitorPath at accepted
  obtain ⟨owned, first, accepted⟩ := bind_eq_ok.mp accepted
  obtain ⟨whole, read, accepted⟩ := bind_eq_ok.mp accepted
  simp only [bind_eq_ok, rejectIf_eq_ok, pure_eq_ok, Except.ok.injEq,
    Bool.not_eq_true] at accepted
  obtain ⟨_, _, _, printable, rfl⟩ := accepted
  have resolvedEq : whole = resolved host path ∧ (absolutePath path ∨
      ∃ current, host.currentDir = .ok (.utf8 current)) := by
    unfold resolvePath at first
    split at first
    · rename_i absolute
      unfold tryOwnedPath at first
      obtain ⟨_, _, same⟩ := bind_eq_ok.mp first
      cases same
      cases read
      exact ⟨(resolved_of_absolute absolute).symm, .inl absolute⟩
    · obtain ⟨current, reported, joined⟩ := bind_eq_ok.mp first
      rw [mapError_eq_ok] at reported
      unfold tryJoinPath at joined
      simp only [bind_eq_ok, pure_eq_ok, Except.ok.injEq] at joined
      obtain ⟨_, _, _, _, rfl⟩ := joined
      cases current with
      | bytes raw => cases read
      | utf8 current =>
          cases read
          refine ⟨?_, .inr ⟨current, reported⟩⟩
          rw [resolved, reported]
  obtain ⟨rfl, source⟩ := resolvedEq
  exact ⟨rfl, printable, source⟩

theorem monitorDestination_eq_ok {path text : List Char}
    (accepted : monitorDestination host path = .ok text) :
    host.tree.lstat host.workingDirectory path = .error .notFound ∧
      monitorPath host path = .ok text := by
  unfold monitorDestination at accepted
  split at accepted
  · cases accepted
  · rename_i missing
    exact ⟨missing, accepted⟩
  · cases accepted

theorem monitorDestination_of_missing {path : List Char}
    (missing : host.tree.lstat host.workingDirectory path =
      .error .notFound) :
    monitorDestination host path = monitorPath host path := by
  rw [monitorDestination, missing]

/-- The text names the entry that was checked, in the file system at hand and
in every other, and that entry holds nothing. -/
structure WritesChecked (host : MonitorHost ν) (path text : List Char) :
    Prop where
  sameEntry : SameEntry text (resolved host path)
  checked : host.tree.locate host.tree.root text =
    host.tree.locate host.workingDirectory path
  absent : host.tree.lstat host.tree.root text = .error .notFound

theorem not_mem_map_normalized (path : List Char) :
    '\\' ∉ path.map normalized := by
  intro member
  obtain ⟨character, _, same⟩ := List.mem_map.mp member
  unfold normalized at same
  split at same
  · cases same
  · rename_i other
    exact other same

theorem map_normalized_eq_self {path : List Char} (plain : '\\' ∉ path) :
    path.map normalized = path := by
  calc
    path.map normalized = path.map id :=
      List.map_congr_left fun character member =>
        if_neg (by rintro rfl; exact plain member)
    _ = path := List.map_id path

/-- Without its control characters a path holds no zero byte. -/
theorem nul_not_mem {text : List Char} (printable : text.any isControl = false) :
    '\x00' ∉ text := by
  intro member
  exact absurd (List.any_eq_false.mp printable _ member) (by decide)

theorem physicalRangeCommand_eq_ok {path text : List Char}
    (accepted : monitorDestination host path = .ok text) {start : Gpa}
    {length : UInt64} {command : String}
    (built : physicalRangeCommand host path start length = .ok command) :
    ∃ escaped, tryEscapeMonitorPath text = .ok escaped ∧
      command = String.ofList (pmemsave start.raw length escaped) := by
  obtain ⟨_, _, rest⟩ := bind_eq_ok.mp built
  obtain ⟨_, _, rest⟩ := bind_eq_ok.mp rest
  rw [accepted, ok_bind] at rest
  obtain ⟨escaped, escapes, rest⟩ := bind_eq_ok.mp rest
  obtain ⟨_, _, rest⟩ := bind_eq_ok.mp rest
  obtain ⟨_, _, same⟩ := bind_eq_ok.mp rest
  cases same
  exact ⟨escaped, escapes, rfl⟩

theorem snapshotProtocol_eq_ok {path text : List Char}
    (accepted : monitorDestination host path = .ok text) {protocol : String}
    (built : snapshotProtocol host path = .ok protocol) :
    protocol = String.ofList ("file:".toList ++ text) := by
  rw [snapshotProtocol, accepted, ok_bind] at built
  obtain ⟨_, _, rest⟩ := bind_eq_ok.mp built
  obtain ⟨_, _, same⟩ := bind_eq_ok.mp rest
  cases same
  rfl

/-- A backslash that became a slash names something else. -/
theorem not_sameEntry_of_backslash {path : List Char} (marked : '\\' ∈ path) :
    ¬ SameEntry (path.map normalized) path := by
  have differs := FileTree.exists_locate_ne (by decide) (by decide) marked
    (not_mem_map_normalized path)
    (by simpa using List.ne_nil_of_mem marked) []
  intro same
  exact differs (same _ _ _)

variable (reports : ReportsDirectory host)
include reports

theorem locate_resolved {path : List Char} (occupied : path ≠ [])
    (source : absolutePath path ∨
      ∃ current, host.currentDir = .ok (.utf8 current)) :
    host.tree.locate host.tree.root (resolved host path) =
      host.tree.locate host.workingDirectory path := by
  by_cases absolute : absolutePath path
  · rw [resolved_of_absolute absolute, FileTree.locate, FileTree.locate,
      FileTree.start, FileTree.start, if_pos absolute, if_pos absolute]
  · obtain ⟨current, reported⟩ := source.resolve_left absolute
    rw [resolved, reported]
    exact FileTree.locate_join (reports current reported) occupied _

/-- Behind a slash the working directory itself is named. -/
theorem locate_resolved_nil {current : List Char}
    (reported : host.currentDir = .ok (.utf8 current)) :
    ∃ entry, host.tree.locate host.tree.root (resolved host []) = .ok entry := by
  have names := reports current reported
  have joined : absolutePath (joinText current []) :=
    absolutePath_joinText names.absolute []
  have split : components (joinText current []) =
      pathNames current ++ [['.']] := by
    have slash : (joinText current []).getLast? = some '/' := by
      rw [joinText, if_neg (by decide)]
      split
      · rename_i closed
        rw [List.append_nil]
        refine closed.resolve_left ?_
        rintro rfl
        exact absurd names.absolute (by decide)
      · exact List.getLast?_concat
    rw [components, slash, if_pos rfl,
      pathNames_joinText names.absolute (by decide)]
    exact congrArg (· ++ [['.']]) (List.append_nil _)
  refine ⟨(host.workingDirectory, ['.']), ?_⟩
  rw [resolved, reported]
  dsimp only
  rw [FileTree.locate_eq _ _ split, FileTree.start, if_pos joined,
    names.reached, ok_bind, rejectIf_neg (by simp [names.directory_kind]),
    ok_bind]

/-- The empty path names no entry, and its text names the working directory. -/
theorem not_writesChecked_nil {text : List Char}
    (accepted : monitorDestination host [] = .ok text) :
    ¬ WritesChecked host [] text := by
  intro writes
  obtain ⟨_, _, source⟩ :=
    monitorPath_eq_ok (monitorDestination_eq_ok accepted).2
  obtain ⟨current, reported⟩ := source.resolve_left (by decide)
  obtain ⟨entry, found⟩ := locate_resolved_nil reports reported
  have nothing : host.tree.locate host.workingDirectory [] =
      .error .notFound := rfl
  have checked := writes.checked
  rw [writes.sameEntry, found, nothing] at checked
  cases checked

/-- A text that was not rewritten names the entry that was checked. -/
theorem writesChecked_of_plain {path text : List Char}
    (accepted : monitorDestination host path = .ok text)
    (occupied : path ≠ []) (plain : '\\' ∉ resolved host path) :
    WritesChecked host path text := by
  obtain ⟨missing, given⟩ := monitorDestination_eq_ok accepted
  obtain ⟨textEq, printable, source⟩ := monitorPath_eq_ok given
  rw [map_normalized_eq_self plain] at textEq
  have checked := locate_resolved reports occupied source
  rw [← textEq] at checked
  refine ⟨?_, checked, ?_⟩
  · intro ν tree directory
    rw [textEq]
  · have noNul := nul_not_mem printable
    have pathNul : '\x00' ∉ path := by
      intro member
      rw [FileTree.lstat, rejectIf_pos member, error_bind] at missing
      cases missing
    rw [FileTree.lstat, rejectIf_neg pathNul, ok_bind] at missing
    rw [FileTree.lstat, rejectIf_neg noNul, ok_bind, checked]
    exact missing

/-- The monitor writes to the entry that was checked exactly where the path is
not empty and its resolved text holds no backslash. -/
theorem destination_checked_iff {path text : List Char}
    (accepted : monitorDestination host path = .ok text) :
    (WritesChecked host path text ↔
      path ≠ [] ∧ '\\' ∉ resolved host path) ∧
    (∀ start length command,
      physicalRangeCommand host path start length = .ok command →
      ∃ escaped, tryEscapeMonitorPath text = .ok escaped ∧
        command = String.ofList (pmemsave start.raw length escaped)) ∧
    ∀ protocol, snapshotProtocol host path = .ok protocol →
      protocol = String.ofList ("file:".toList ++ text) := by
  refine ⟨⟨?_, ?_⟩, ?_, ?_⟩
  · intro writes
    constructor
    · rintro rfl
      exact not_writesChecked_nil reports accepted writes
    · intro marked
      obtain ⟨textEq, _⟩ :=
        monitorPath_eq_ok (monitorDestination_eq_ok accepted).2
      have same := writes.sameEntry
      rw [textEq] at same
      exact not_sameEntry_of_backslash marked same
  · intro conditions
    exact writesChecked_of_plain reports accepted conditions.1 conditions.2
  · intro start length command built
    exact physicalRangeCommand_eq_ok accepted built
  · intro protocol built
    exact snapshotProtocol_eq_ok accepted built

end Host

/-! A root with a directory "a" and, in it, a file "b". -/

inductive SampleNode where
  | root
  | a
  | b
  deriving DecidableEq, Repr

def sampleTree : FileTree SampleNode where
  root := .root
  kind
    | .b => .file
    | _ => .directory
  parent := fun _ => .root
  child
    | .root, ['a'] => some .a
    | .a, ['b'] => some .b
    | _, _ => none

def sampleHost : MonitorHost SampleNode :=
  ⟨sampleTree, .root, .ok (.utf8 ['/'])⟩

theorem sampleHost_reports : ReportsDirectory sampleHost := by
  intro current reported
  cases reported
  refine ⟨rfl, ?_, rfl⟩
  intro links
  have none : pathNames ['/'] = [] := by decide
  rw [none, FileTree.walk]
  rfl

/-- A name without links behind it is looked up in the directory. -/
theorem sampleTree_lstat {name : List Char} (plain : '\x00' ∉ name)
    (single : components name = [] ++ [name]) (relative : ¬ absolutePath name) :
    sampleTree.lstat .root name = sampleTree.entry .root name := by
  rw [FileTree.lstat, rejectIf_neg plain, ok_bind,
    FileTree.locate_eq _ _ single, FileTree.start, if_neg relative,
    FileTree.walk]
  rfl

theorem sample_destination :
    monitorDestination sampleHost ['c'] = .ok ['/', 'c'] := by
  have missing : sampleHost.tree.lstat sampleHost.workingDirectory ['c'] =
      .error .notFound :=
    sampleTree_lstat (by decide) (by decide) (by decide)
  rw [monitorDestination_of_missing missing]
  decide

theorem sample_destination_checked :
    (WritesChecked sampleHost ['c'] ['/', 'c'] ↔
      ['c'] ≠ [] ∧ '\\' ∉ resolved sampleHost ['c']) ∧
    (∀ start length command,
      physicalRangeCommand sampleHost ['c'] start length = .ok command →
      ∃ escaped, tryEscapeMonitorPath ['/', 'c'] = .ok escaped ∧
        command = String.ofList (pmemsave start.raw length escaped)) ∧
    ∀ protocol, snapshotProtocol sampleHost ['c'] = .ok protocol →
      protocol = String.ofList ("file:".toList ++ ['/', 'c']) :=
  destination_checked_iff sampleHost_reports sample_destination

/-- The absent file "a\b" is checked, and the existing file "/a/b" written. -/
theorem backslash_destination_overwrites :
    ReportsDirectory sampleHost ∧
      monitorDestination sampleHost ['a', '\\', 'b'] =
        .ok ['/', 'a', '/', 'b'] ∧
      sampleTree.lstat .root ['/', 'a', '/', 'b'] = .ok .b ∧
      ¬ WritesChecked sampleHost ['a', '\\', 'b'] ['/', 'a', '/', 'b'] := by
  have present : sampleTree.lstat .root ['/', 'a', '/', 'b'] = .ok .b := by
    have split : components ['/', 'a', '/', 'b'] = [['a']] ++ [['b']] := by
      decide
    rw [FileTree.lstat, rejectIf_neg (by decide), ok_bind,
      FileTree.locate_eq _ _ split, FileTree.walk]
    have first : sampleTree.entry (sampleTree.start .root
        ['/', 'a', '/', 'b']) ['a'] = .ok .a := by decide
    rw [first]
    dsimp only
    have directory : (sampleTree.kind .a).target = none := rfl
    rw [directory]
    dsimp only
    rw [FileTree.walk]
    rfl
  refine ⟨sampleHost_reports, ?_, present, ?_⟩
  · have missing : sampleHost.tree.lstat sampleHost.workingDirectory
        ['a', '\\', 'b'] = .error .notFound :=
      sampleTree_lstat (by decide) (by decide) (by decide)
    rw [monitorDestination_of_missing missing]
    decide
  · intro writes
    have absent := writes.absent
    change sampleTree.lstat .root _ = _ at absent
    rw [present] at absent
    cases absent

end LibVmi.Qemu
