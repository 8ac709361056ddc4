import LibVmi.Data.Checked
import Mathlib.Data.List.Basic

namespace LibVmi.Data

/-! Path names of a Unix host and the tree of directories they are looked up
in. A path is a list of characters; a lookup follows symbolic links up to a
limit and reports what the first component that fails it reports. -/

inductive LookupError where
  | notFound
  | notDirectory
  | tooManyLinks
  | interiorNul
  deriving DecidableEq, Repr

inductive NodeKind where
  | directory
  | file
  | link (target : List Char)
  deriving DecidableEq, Repr

def NodeKind.target : NodeKind → Option (List Char)
  | .link target => some target
  | _ => none

structure FileTree (ν : Type) where
  root : ν
  kind : ν → NodeKind
  parent : ν → ν
  child : ν → List Char → Option ν

def absolutePath (path : List Char) : Bool :=
  path.head? = some '/'

/-- The names in a path, without the empty ones between slashes. -/
def pathNames (path : List Char) : List (List Char) :=
  (path.splitOnP (· == '/')).filter fun name => !name.isEmpty

/-- A slash at the end stands for one more component, the directory itself. -/
def components (path : List Char) : List (List Char) :=
  pathNames path ++ if path.getLast? = some '/' then [['.']] else []

/-- A path put behind a directory, with one slash between them. -/
def joinText (directory path : List Char) : List Char :=
  if absolutePath path then path
  else if directory = [] ∨ directory.getLast? = some '/' then directory ++ path
  else directory ++ '/' :: path

def linkLimit : Nat := 40

namespace FileTree

variable {ν : Type} (tree : FileTree ν)

def start (directory : ν) (path : List Char) : ν :=
  if absolutePath path then tree.root else directory

def entry (directory : ν) (name : List Char) : Except LookupError ν :=
  match tree.kind directory with
  | .directory =>
      if name = ['.'] then .ok directory
      else if name = ['.', '.'] then .ok (tree.parent directory)
      else okOr (tree.child directory name) .notFound
  | _ => .error .notDirectory

/-- The node at the end of the components, and the links that may still be
followed. -/
def walk (links : Nat) (directory : ν) :
    List (List Char) → Except LookupError (Nat × ν)
  | [] => .ok (links, directory)
  | name :: rest =>
      match tree.entry directory name with
      | .error error => .error error
      | .ok node =>
          match (tree.kind node).target with
          | none => walk links node rest
          | some target =>
              match links with
              | 0 => .error .tooManyLinks
              | links + 1 => walk links (tree.start directory target)
                  (components target ++ rest)
termination_by names => (links, names.length)

/-- The directory entry that a path names: a directory and a name in it. -/
def locate (directory : ν) (path : List Char) :
    Except LookupError (ν × List Char) :=
  match (components path).getLast? with
  | none => .error .notFound
  | some name => do
      let (_, node) ← tree.walk linkLimit (tree.start directory path)
        (components path).dropLast
      rejectIf (tree.kind node ≠ .directory) .notDirectory
      return (node, name)

/-- What the entry holds, without following it. -/
def lstat (directory : ν) (path : List Char) : Except LookupError ν := do
  rejectIf ('\x00' ∈ path) .interiorNul
  let (node, name) ← tree.locate directory path
  tree.entry node name

theorem walk_append (links : Nat) (directory : ν)
    (left right : List (List Char)) :
    tree.walk links directory (left ++ right) =
      tree.walk links directory left >>= fun reached =>
        tree.walk reached.1 reached.2 right := by
  induction links, directory, left using FileTree.walk.induct tree with
  | case1 links directory =>
      rw [List.nil_append]
      conv => rhs; arg 1; rw [walk]
      rfl
  | case2 links directory name rest error failed =>
      rw [List.cons_append, walk, walk, failed]
      rfl
  | case3 links directory name rest node found kind induction =>
      rw [List.cons_append, walk, walk, found]
      dsimp only
      rw [kind]
      exact induction
  | case4 directory name rest node found target kind =>
      rw [List.cons_append, walk, walk, found]
      dsimp only
      rw [kind]
      rfl
  | case5 directory name rest node found target kind links induction =>
      rw [List.cons_append, walk, walk, found]
      dsimp only
      rw [kind]
      dsimp only
      rw [← List.append_assoc]
      exact induction

end FileTree

/-! Names and joined texts. -/

theorem mem_splitOnP {separates : Char → Bool} {char : Char}
    {text : List Char} (inside : char ∈ text)
    (plain : separates char = false) :
    ∃ part ∈ text.splitOnP separates, char ∈ part := by
  induction text with
  | nil => cases inside
  | cons first rest induction =>
      obtain ⟨head, tail, split⟩ :=
        List.exists_cons_of_ne_nil (List.splitOnP_ne_nil separates rest)
      rw [List.splitOnP_cons_eq_if_modifyHead]
      rw [split] at induction ⊢
      obtain rfl | later := List.mem_cons.mp inside
      · rw [if_neg (by simp [plain])]
        exact ⟨char :: head, List.mem_cons_self, List.mem_cons_self⟩
      · obtain ⟨part, member, held⟩ := induction later
        split
        · exact ⟨part, List.mem_cons_of_mem _ member, held⟩
        · obtain rfl | other := List.mem_cons.mp member
          · exact ⟨first :: part, List.mem_cons_self,
              List.mem_cons_of_mem _ held⟩
          · exact ⟨part, List.mem_cons_of_mem _ other, held⟩

theorem mem_of_mem_splitOnP {separates : Char → Bool} {char : Char}
    {text part : List Char} (member : part ∈ text.splitOnP separates)
    (held : char ∈ part) : char ∈ text := by
  induction text generalizing part with
  | nil =>
      rw [List.splitOnP_nil, List.mem_singleton] at member
      rw [member] at held
      exact held
  | cons first rest induction =>
      obtain ⟨head, tail, split⟩ :=
        List.exists_cons_of_ne_nil (List.splitOnP_ne_nil separates rest)
      rw [List.splitOnP_cons_eq_if_modifyHead] at member
      rw [split] at induction member
      split at member
      · obtain rfl | later := List.mem_cons.mp member
        · cases held
        · exact List.mem_cons_of_mem _ (induction later held)
      · obtain rfl | later := List.mem_cons.mp member
        · obtain rfl | inside := List.mem_cons.mp held
          · exact List.mem_cons_self
          · exact List.mem_cons_of_mem _
              (induction List.mem_cons_self inside)
        · exact List.mem_cons_of_mem _
            (induction (List.mem_cons_of_mem _ later) held)

theorem mem_pathNames {char : Char} {path : List Char} (inside : char ∈ path)
    (plain : char ≠ '/') : ∃ name ∈ pathNames path, char ∈ name := by
  obtain ⟨part, member, held⟩ :=
    @mem_splitOnP (· == '/') char path inside (by simpa using plain)
  refine ⟨part, List.mem_filter.mpr ⟨member, ?_⟩, held⟩
  simpa using List.ne_nil_of_mem held

theorem not_mem_of_mem_pathNames {char : Char} {path name : List Char}
    (member : name ∈ pathNames path) (outside : char ∉ path) :
    char ∉ name := by
  intro held
  exact outside (mem_of_mem_splitOnP (List.mem_filter.mp member).1 held)

theorem pathNames_slash (left right : List Char) :
    pathNames (left ++ '/' :: right) = pathNames left ++ pathNames right := by
  rw [pathNames, List.splitOnP_append_cons _ _ (by rfl), List.filter_append]
  rfl

theorem pathNames_joinText {directory path : List Char}
    (absolute : absolutePath directory) (relative : ¬ absolutePath path) :
    pathNames (joinText directory path) =
      pathNames directory ++ pathNames path := by
  have occupied : directory ≠ [] := by
    rintro rfl
    cases absolute
  rw [joinText, if_neg relative]
  by_cases slash : directory.getLast? = some '/'
  · rw [if_pos (.inr slash)]
    obtain ⟨front, rfl⟩ := List.getLast?_eq_some_iff.mp slash
    rw [List.append_assoc, List.singleton_append, pathNames_slash,
      pathNames_slash]
    exact congrArg (· ++ pathNames path) (List.append_nil _).symm
  · rw [if_neg (by simp [occupied, slash]), pathNames_slash]

theorem absolutePath_joinText {directory : List Char}
    (absolute : absolutePath directory) (path : List Char) :
    absolutePath (joinText directory path) := by
  obtain ⟨rest, rfl⟩ : ∃ rest, directory = '/' :: rest := by
    cases directory with
    | nil => cases absolute
    | cons first rest =>
        have slash : first = '/' := by simpa [absolutePath] using absolute
        exact ⟨rest, by rw [slash]⟩
  unfold joinText
  split
  · assumption
  · split <;> rfl

theorem getLast?_joinText {directory path : List Char}
    (occupied : path ≠ []) :
    (joinText directory path).getLast? = path.getLast? := by
  obtain ⟨last, found⟩ := Option.ne_none_iff_exists'.mp
    (mt List.getLast?_eq_none_iff.mp occupied)
  unfold joinText
  split
  · rfl
  · split
    · rw [List.getLast?_append, found, Option.some_or]
    · rw [List.append_cons, List.getLast?_append, found, Option.some_or]

theorem components_joinText {directory path : List Char}
    (absolute : absolutePath directory) (relative : ¬ absolutePath path)
    (occupied : path ≠ []) :
    components (joinText directory path) =
      pathNames directory ++ components path := by
  rw [components, getLast?_joinText occupied,
    pathNames_joinText absolute relative, components, List.append_assoc]

theorem components_ne_nil {path : List Char} (occupied : path ≠ []) :
    components path ≠ [] := by
  obtain ⟨last, found⟩ := Option.ne_none_iff_exists'.mp
    (mt List.getLast?_eq_none_iff.mp occupied)
  rw [components, found]
  by_cases slash : last = '/'
  · rw [slash, if_pos rfl]
    simp
  · obtain ⟨name, member, _⟩ :=
      mem_pathNames (List.mem_of_getLast? found) slash
    exact List.append_ne_nil_of_left_ne_nil (List.ne_nil_of_mem member) _

/-! A path behind the working directory. -/

namespace FileTree

variable {ν : Type} {tree : FileTree ν}

/-- An absolute text of a directory that leads to it through no link. -/
structure NamesDirectory (tree : FileTree ν) (text : List Char)
    (directory : ν) : Prop where
  absolute : absolutePath text
  reached : ∀ links,
    tree.walk links tree.root (pathNames text) = .ok (links, directory)
  directory_kind : tree.kind directory = .directory

theorem locate_join {text path : List Char} {directory : ν}
    (names : NamesDirectory tree text directory) (occupied : path ≠ [])
    (other : ν) :
    tree.locate other (joinText text path) = tree.locate directory path := by
  by_cases absolute : absolutePath path
  · rw [joinText, if_pos absolute, locate, locate, start, start,
      if_pos absolute, if_pos absolute]
  · have joined := absolutePath_joinText names.absolute path
    rw [locate, locate,
      components_joinText names.absolute absolute occupied,
      List.getLast?_append_of_ne_nil _ (components_ne_nil occupied)]
    cases (components path).getLast? with
    | none => rfl
    | some name =>
        dsimp only
        rw [List.dropLast_append_of_ne_nil (components_ne_nil occupied),
          walk_append, start, if_pos joined, names.reached, ok_bind, start,
          if_neg absolute]

/-- A tree with every directory whose name does not hold a mark, and with no
other node. -/
def unmarked (mark : Char) : FileTree (List (List Char)) where
  root := []
  kind := fun _ => .directory
  parent := List.dropLast
  child := fun directory name =>
    if mark ∈ name then none else some (directory ++ [name])

variable {mark : Char} (ordinary : mark ≠ '.')

theorem unmarked_entry {directory : List (List Char)} {name : List Char}
    (plain : mark ∉ name) :
    ∃ node, (unmarked mark).entry directory name = .ok node := by
  unfold entry
  simp only [unmarked, if_neg plain]
  split
  · exact ⟨_, rfl⟩
  · split
    · exact ⟨_, rfl⟩
    · exact ⟨_, rfl⟩

include ordinary in
theorem unmarked_entry_marked {directory : List (List Char)}
    {name : List Char} (marked : mark ∈ name) :
    (unmarked mark).entry directory name = .error .notFound := by
  have other : name ≠ ['.'] ∧ name ≠ ['.', '.'] := by
    constructor <;> rintro rfl <;> simp [ordinary] at marked
  unfold entry
  simp only [unmarked, if_neg other.1, if_neg other.2, if_pos marked]
  rfl

theorem unmarked_walk (links : Nat) {names : List (List Char)}
    (plain : ∀ name ∈ names, mark ∉ name) (directory : List (List Char)) :
    ∃ node, (unmarked mark).walk links directory names = .ok (links, node) := by
  induction names generalizing directory with
  | nil => exact ⟨directory, by rw [walk]⟩
  | cons name rest induction =>
      obtain ⟨first, later⟩ := List.forall_mem_cons.mp plain
      obtain ⟨node, found⟩ := @unmarked_entry mark directory name first
      obtain ⟨last, reached⟩ := induction later node
      refine ⟨last, ?_⟩
      rw [walk, found]
      exact reached

include ordinary in
theorem unmarked_walk_marked (links : Nat) {names : List (List Char)}
    (marked : ∃ name ∈ names, mark ∈ name) (directory : List (List Char)) :
    (unmarked mark).walk links directory names = .error .notFound := by
  induction names generalizing directory with
  | nil =>
      obtain ⟨_, member, _⟩ := marked
      cases member
  | cons name rest induction =>
      rw [walk]
      by_cases here : mark ∈ name
      · rw [unmarked_entry_marked ordinary here]
      · obtain ⟨node, found⟩ := @unmarked_entry mark directory name here
        rw [found]
        apply induction
        obtain ⟨other, member, held⟩ := marked
        obtain rfl | later := List.mem_cons.mp member
        · exact absurd held here
        · exact ⟨other, later, held⟩

theorem components_split {path : List Char} (occupied : path ≠ []) :
    ∃ front last, components path = front ++ [last] := by
  obtain ⟨front, last, split⟩ :=
    (List.eq_nil_or_concat' (components path)).resolve_left
      (components_ne_nil occupied)
  exact ⟨front, last, split⟩

theorem locate_eq {ν : Type} (tree : FileTree ν) (directory : ν)
    {path last : List Char} {front : List (List Char)}
    (split : components path = front ++ [last]) :
    tree.locate directory path =
      tree.walk linkLimit (tree.start directory path) front >>= fun reached =>
        rejectIf (tree.kind reached.2 ≠ .directory) .notDirectory >>= fun _ =>
          .ok (reached.2, last) := by
  rw [locate, split, List.getLast?_concat, List.dropLast_concat]
  rfl

theorem components_unmarked {mark : Char} (dotless : mark ≠ '.')
    {path : List Char} (plain : mark ∉ path) :
    ∀ name ∈ components path, mark ∉ name := by
  intro name member
  rw [components] at member
  obtain inside | final := List.mem_append.mp member
  · exact not_mem_of_mem_pathNames inside plain
  · split at final
    · rw [List.mem_singleton.mp final]
      simpa using dotless
    · cases final

/-- Rewriting a mark that a path holds changes the entry it names in some
tree. -/
theorem exists_locate_ne (separate : mark ≠ '/') (dotless : mark ≠ '.')
    {path other : List Char} (marked : mark ∈ path) (plain : mark ∉ other)
    (occupied : other ≠ []) (directory : List (List Char)) :
    (unmarked mark).locate directory other ≠
      (unmarked mark).locate directory path := by
  obtain ⟨front, last, split⟩ := components_split occupied
  obtain ⟨otherFront, otherLast, otherSplit⟩ :=
    components_split (List.ne_nil_of_mem marked)
  have unmarkedNames := components_unmarked dotless plain
  rw [split] at unmarkedNames
  obtain ⟨node, reached⟩ := unmarked_walk linkLimit
    (fun name member => unmarkedNames name (List.mem_append_left _ member))
    ((unmarked mark).start directory other)
  rw [locate_eq _ _ split, locate_eq _ _ otherSplit, reached]
  obtain ⟨name, member, held⟩ := mem_pathNames marked separate
  have listed : name ∈ otherFront ++ [otherLast] := by
    rw [← otherSplit]
    exact List.mem_append_left _ member
  intro same
  obtain early | final := List.mem_append.mp listed
  · rw [unmarked_walk_marked dotless linkLimit ⟨name, early, held⟩] at same
    cases same
  · rw [List.mem_singleton.mp final] at held
    cases walked : (unmarked mark).walk linkLimit
        ((unmarked mark).start directory path) otherFront with
    | error error =>
        rw [walked] at same
        cases same
    | ok reached =>
        rw [walked] at same
        have names : last = otherLast := (Prod.mk.inj (Except.ok.inj same)).2
        rw [← names] at held
        exact unmarkedNames last (List.mem_append_right _
          (List.mem_singleton_self _)) held

end FileTree

end LibVmi.Data
