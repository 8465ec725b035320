import StoreLint.Proofs.Glob.Spelling

/-!
# What a pattern names below a directory

`Reaches` tells which places below a directory a pattern leads to.  It knows nothing of where
the directory is, and the expansion of the pattern gives the paths of just these places, as
long as the pattern does not lead out of the directory.
-/

namespace StoreLint.Glob

open FileTree (follow)

/-- The least depth that a component may lead to, unless it may lead out at the top.  After a
component that stands for any number of directories (`isBelow`) the next one is a name. -/
def Component.lowest? (component : Component) (isBelow : Bool) (depth : Nat) : Option Nat :=
  if component.isRecursive then some depth
  else if isBelow then some (depth + 1)
  else
    match component.plain? with
    | some name => Path.depthFrom depth [name]
    | none => if component.specials.isEmpty then some (depth + 1) else Path.depthFrom depth [".."]

/-- Whether a pattern stays inside a directory, from a depth on. -/
def staysInside (isBelow : Bool) (depth : Nat) : List Component → Bool
  | [] => true
  | component :: rest =>
      match component.lowest? isBelow depth with
      | some lower => staysInside component.isRecursive lower rest
      | none => false

/-- Whether the first component that leads on from a directory is not the empty name. -/
def opens : List Component → Bool
  | [] => true
  | component :: rest =>
      match component.plain? with
      | some name => if name == "." then opens rest else name != ""
      | none => true

/-- A component with a name of its own leads to something below a directory. -/
def Present (node : FileTree) (pieces : List String) (name : String) : Prop :=
  if name == "." || name == ".." then ∃ entries, follow [] node pieces = .ok (.directory entries)
  else ∃ found, follow [] node (pieces ++ [name]) = .ok found

/-- The pieces that components lead to below a directory, from the pieces that have been followed
already. -/
inductive Reaches (node : FileTree) : Bool → List String → List Component → List String → Prop where
  | done {isBelow : Bool} {pieces : List String} : Reaches node isBelow pieces [] pieces
  | again {pieces found : List String} {component : Component} {rest : List Component}
      (isRecursive : component.isRecursive = true) (reaches : Reaches node true pieces rest found) :
      Reaches node true pieces (component :: rest) found
  | anywhere {pieces names : List String} {component : Component} {rest : List Component}
      {first : FileTree} {entries : List (String × FileTree)}
      (isRecursive : component.isRecursive = true) (isLast : rest.all Component.isRecursive = true)
      (isFirst : follow [] node pieces = .ok first)
      (isPlace : first.node? names = some (.directory entries)) (isLower : names ≠ []) :
      Reaches node false pieces (component :: rest) (pieces ++ names)
  | further {pieces names found : List String} {component : Component} {rest : List Component}
      {first : FileTree} {entries : List (String × FileTree)}
      (isRecursive : component.isRecursive = true) (goesOn : rest.all Component.isRecursive = false)
      (isFirst : follow [] node pieces = .ok first)
      (isPlace : first.node? names = some (.directory entries))
      (reaches : Reaches node true (pieces ++ names) rest found) :
      Reaches node false pieces (component :: rest) found
  | plain {pieces found : List String} {name : String} {component : Component}
      {rest : List Component} (isSingle : component.isRecursive = false)
      (isPlain : component.plain? = some name) (isPresent : Present node pieces name)
      (reaches : Reaches node false (pieces ++ [name]) rest found) :
      Reaches node false pieces (component :: rest) found
  | entry {isBelow : Bool} {pieces found : List String} {name : String} {component : Component}
      {rest : List Component} {entries : List (String × FileTree)} {child : FileTree}
      (isSingle : component.isRecursive = false)
      (isPattern : isBelow = true ∨ component.plain? = none)
      (isDirectory : follow [] node pieces = .ok (.directory entries))
      (isEntry : (name, child) ∈ entries) (fits : component.fits name = true)
      (goesOn : rest = [] ∨ child.isDirectory = true)
      (reaches : Reaches node false (pieces ++ [name]) rest found) :
      Reaches node isBelow pieces (component :: rest) found
  | special {pieces found : List String} {name : String} {component : Component}
      {rest : List Component} {entries : List (String × FileTree)}
      (isSingle : component.isRecursive = false) (isPattern : component.plain? = none)
      (isDirectory : follow [] node pieces = .ok (.directory entries))
      (isSpecial : name ∈ component.specials)
      (reaches : Reaches node false (pieces ++ [name]) rest found) :
      Reaches node false pieces (component :: rest) found

namespace Reaches

variable {node : FileTree} {isBelow : Bool} {pieces found : List String} {component : Component}
  {rest : List Component} {name : String}

/-- Any number of directories lead to each directory below.  The pattern goes on from there, unless
nothing else follows. -/
theorem recursive_iff (isRecursive : component.isRecursive = true) :
    Reaches node false pieces (component :: rest) found ↔
      ∃ first names entries, follow [] node pieces = .ok first ∧
        first.node? names = some (.directory entries) ∧
        ((rest.all Component.isRecursive = true ∧ names ≠ [] ∧ found = pieces ++ names) ∨
          (rest.all Component.isRecursive = false ∧
            Reaches node true (pieces ++ names) rest found)) := by
  have notSingle : component.isRecursive ≠ false := by simp [isRecursive]
  constructor
  · intro reaches
    cases reaches with
    | anywhere _ isLast isFirst isPlace isLower =>
        exact ⟨_, _, _, isFirst, isPlace, .inl ⟨isLast, isLower, rfl⟩⟩
    | further _ goesOn isFirst isPlace reaches =>
        exact ⟨_, _, _, isFirst, isPlace, .inr ⟨goesOn, reaches⟩⟩
    | plain isSingle => exact absurd isSingle notSingle
    | entry isSingle => exact absurd isSingle notSingle
    | special isSingle => exact absurd isSingle notSingle
  · rintro ⟨first, names, entries, isFirst, isPlace, ⟨isLast, isLower, rfl⟩ | ⟨goesOn, reaches⟩⟩
    · exact .anywhere isRecursive isLast isFirst isPlace isLower
    · exact .further isRecursive goesOn isFirst isPlace reaches

theorem plain_iff (isSingle : component.isRecursive = false)
    (isPlain : component.plain? = some name) :
    Reaches node false pieces (component :: rest) found ↔
      Present node pieces name ∧ Reaches node false (pieces ++ [name]) rest found := by
  constructor
  · intro reaches
    cases reaches with
    | anywhere isRecursive => simp [isSingle] at isRecursive
    | further isRecursive => simp [isSingle] at isRecursive
    | plain _ isName isPresent reaches =>
        cases isPlain.symm.trans isName
        exact ⟨isPresent, reaches⟩
    | entry _ isPattern => simp [isPlain] at isPattern
    | special _ isPattern => simp [isPlain] at isPattern
  · rintro ⟨isPresent, reaches⟩
    exact .plain isSingle isPlain isPresent reaches

/-- A pattern leads to the entries that fit it, and to the directory itself or the one above it if
it names them. -/
theorem pattern_iff (isSingle : component.isRecursive = false)
    (isPattern : isBelow = true ∨ component.plain? = none) :
    Reaches node isBelow pieces (component :: rest) found ↔
      ∃ entries, follow [] node pieces = .ok (.directory entries) ∧
        ((∃ name child, (name, child) ∈ entries ∧ component.fits name = true ∧
            (rest = [] ∨ child.isDirectory = true) ∧
              Reaches node false (pieces ++ [name]) rest found) ∨
          (isBelow = false ∧ ∃ name ∈ component.specials,
            Reaches node false (pieces ++ [name]) rest found)) := by
  constructor
  · intro reaches
    cases reaches with
    | again isRecursive => simp [isSingle] at isRecursive
    | anywhere isRecursive => simp [isSingle] at isRecursive
    | further isRecursive => simp [isSingle] at isRecursive
    | plain _ isPlain => simp [isPlain] at isPattern
    | entry _ _ isDirectory isEntry fits goesOn reaches =>
        exact ⟨_, isDirectory, .inl ⟨_, _, isEntry, fits, goesOn, reaches⟩⟩
    | special _ _ isDirectory isSpecial reaches =>
        exact ⟨_, isDirectory, .inr ⟨rfl, _, isSpecial, reaches⟩⟩
  · rintro ⟨entries, isDirectory, ⟨name, child, isEntry, fits, goesOn, reaches⟩ |
      ⟨rfl, name, isSpecial, reaches⟩⟩
    · exact .entry isSingle isPattern isDirectory isEntry fits goesOn reaches
    · exact .special isSingle (isPattern.resolve_left Bool.false_ne_true) isDirectory isSpecial
        reaches

end Reaches

/-- In the file system the front leads to the node, and pieces lead on from there. -/
structure Holds (system : FileSystem) (front : List String) (node : FileTree) : Prop where
  isFront : front ≠ []
  leads : ∀ pieces, Path.Writable (front ++ pieces) → Path.Inside pieces →
    system.lookup (spell (front ++ pieces)) = follow [] node pieces

/-- After the front the pieces can be written in a path and stay inside, and so do the components
from there on. -/
structure Steady (front : List String) (isBelow : Bool) (pieces : List String)
    (components : List Component) : Prop where
  writable : Path.Writable (front ++ pieces)
  stays : ∃ depth, Path.depthFrom 0 pieces = some depth ∧
    staysInside isBelow depth components = true
  noSeparator : ∀ component ∈ components, ∀ name, component.plain? = some name →
    '/' ∉ name.toList
  opens : Path.Leads (front ++ pieces) ∨ isBelow = true ∨ opens components = true

section Depth

variable {isBelow : Bool} {depth : Nat} {front pieces names : List String} {name : String}
  {component : Component} {components rest : List Component}

theorem depthFrom_succ {lower : Nat} (isDepth : Path.depthFrom depth pieces = some lower) :
    Path.depthFrom (depth + 1) pieces = some (lower + 1) := by
  fun_induction Path.depthFrom depth pieces with
  | case1 depth =>
      cases isDepth
      rfl
  | case2 depth piece pieces stays induction =>
      rw [Path.depthFrom, if_pos stays]
      exact induction isDepth
  | case3 depth piece pieces stays goesUp isTop => cases isDepth
  | case4 depth piece pieces stays goesUp isLower induction =>
      have notTop : depth ≠ 0 := by simpa using isLower
      have isNext : depth - 1 + 1 = depth := by omega
      rw [Path.depthFrom, if_neg stays, if_pos goesUp, if_neg (by simp), Nat.add_sub_cancel]
      rw [isNext] at induction
      exact induction isDepth
  | case5 depth piece pieces moves goesDown induction =>
      rw [Path.depthFrom, if_neg moves, if_neg goesDown]
      exact induction isDepth

theorem Component.lowest?_succ {lower : Nat}
    (isLowest : component.lowest? isBelow depth = some lower) :
    component.lowest? isBelow (depth + 1) = some (lower + 1) := by
  rw [Component.lowest?] at isLowest ⊢
  split at isLowest
  · next isRecursive =>
    cases isLowest
    rw [if_pos isRecursive]
  · next isSingle =>
    rw [if_neg isSingle]
    split at isLowest
    · next isBelow =>
      cases isLowest
      rw [if_pos isBelow]
    · next notBelow =>
      rw [if_neg notBelow]
      cases isPlain : component.plain? with
      | some name =>
          simp only [isPlain] at isLowest ⊢
          exact depthFrom_succ isLowest
      | none =>
          simp only [isPlain] at isLowest ⊢
          split at isLowest
          · next isEmpty =>
            cases isLowest
            rw [if_pos isEmpty]
          · next isSpecial => rw [if_neg isSpecial]; exact depthFrom_succ isLowest

theorem staysInside_succ (stays : staysInside isBelow depth components = true) :
    staysInside isBelow (depth + 1) components = true := by
  induction components generalizing isBelow depth with
  | nil => rfl
  | cons component rest induction =>
      rw [staysInside] at stays ⊢
      split at stays
      · next lower isLowest =>
        rw [Component.lowest?_succ isLowest]
        exact induction stays
      · cases stays

theorem staysInside_add (stays : staysInside isBelow depth components = true) (more : Nat) :
    staysInside isBelow (depth + more) components = true := by
  induction more with
  | zero => exact stays
  | succ more induction => exact staysInside_succ induction

theorem Component.lowest?_of_plain (isSingle : component.isRecursive = false)
    (isPlain : component.plain? = some name) :
    component.lowest? false depth = Path.depthFrom depth [name] := by
  simp [Component.lowest?, isSingle, isPlain]

theorem Component.lowest?_of_pattern (isSingle : component.isRecursive = false)
    (isPattern : component.plain? = none) :
    component.lowest? false depth =
      if component.specials.isEmpty then some (depth + 1) else Path.depthFrom depth [".."] := by
  simp [Component.lowest?, isSingle, isPattern]

theorem depthFrom_up {lower : Nat} (isLower : Path.depthFrom depth [".."] = some lower) :
    depth = lower + 1 := by
  simp [Path.depthFrom] at isLower
  omega

theorem depthFrom_idle (areIdle : ∀ piece ∈ pieces, Path.isStep piece = false) :
    Path.depthFrom depth pieces = some depth := by
  induction pieces with
  | nil => rfl
  | cons piece pieces induction =>
      have isIdle := areIdle piece List.mem_cons_self
      rw [Path.isStep, ← Bool.not_eq_true', Bool.not_and, bne, bne, Bool.not_not, Bool.not_not]
        at isIdle
      rw [Path.depthFrom, if_pos isIdle]
      apply induction
      intro piece isLater
      exact areIdle piece (List.mem_cons_of_mem _ isLater)

theorem eq_of_mem_specials (isSpecial : name ∈ component.specials) : name = "." ∨ name = ".." := by
  rw [Component.specials] at isSpecial
  split at isSpecial
  · simpa using List.mem_of_mem_filter isSpecial
  · cases isSpecial

namespace Steady

theorem inside (steady : Steady front isBelow pieces components) : Path.Inside pieces := by
  obtain ⟨depth, isDepth, _⟩ := steady.stays
  rw [Path.Inside, isDepth]
  rfl

theorem lowest? (steady : Steady front isBelow pieces (component :: rest)) :
    ∃ depth lower, Path.depthFrom 0 pieces = some depth ∧
      component.lowest? isBelow depth = some lower ∧
      staysInside component.isRecursive lower rest = true := by
  obtain ⟨depth, isDepth, stays⟩ := steady.stays
  rw [staysInside] at stays
  split at stays
  · next lower isLowest => exact ⟨depth, lower, isDepth, isLowest, stays⟩
  · cases stays

/-- Pieces after which it is at least as deep as the next component may lead. -/
theorem add (steady : Steady front isBelow pieces (component :: rest))
    (writable : Path.Writable (front ++ pieces ++ names))
    (deep : ∀ depth lower, component.lowest? isBelow depth = some lower →
      ∃ more, Path.depthFrom depth names = some (lower + more))
    (isOpen : Path.Leads (front ++ pieces ++ names) ∨ component.isRecursive = true ∨
      Glob.opens rest = true) :
    Steady front component.isRecursive (pieces ++ names) rest := by
  obtain ⟨depth, lower, isDepth, isLowest, stays⟩ := steady.lowest?
  obtain ⟨more, isDeeper⟩ := deep depth lower isLowest
  rw [List.append_assoc] at writable isOpen
  refine ⟨writable, ⟨lower + more, ?_, staysInside_add stays more⟩, ?_, isOpen⟩
  · rw [Path.depthFrom_append, isDepth, Option.bind_some, isDeeper]
  · intro component isComponent
    exact steady.noSeparator component (List.mem_cons_of_mem _ isComponent)

theorem recursive (steady : Steady front isBelow pieces (component :: rest))
    (isRecursive : component.isRecursive = true) (areNames : ∀ name ∈ names, Path.IsName name) :
    Steady front true (pieces ++ names) rest := by
  rw [← isRecursive]
  apply steady.add (steady.writable.append_names areNames)
  · intro depth lower isLowest
    rw [Component.lowest?, if_pos isRecursive, Option.some.injEq] at isLowest
    exact ⟨names.length, isLowest ▸ Path.depthFrom_names areNames⟩
  · exact .inr (.inl isRecursive)

theorem entry (steady : Steady front isBelow pieces (component :: rest))
    (isSingle : component.isRecursive = false)
    (isPattern : isBelow = true ∨ component.plain? = none)
    (isName : Path.IsName name) : Steady front false (pieces ++ [name]) rest := by
  have areNames : ∀ other ∈ [name], Path.IsName other := by simpa using isName
  rw [← isSingle]
  apply steady.add (steady.writable.append_names areNames)
  · intro depth lower isLowest
    rw [Path.depthFrom_names areNames]
    cases isBelow with
    | true =>
        refine ⟨0, ?_⟩
        simpa [Component.lowest?, isSingle] using isLowest
    | false =>
        have isPattern : component.plain? = none := by simpa using isPattern
        rw [Component.lowest?_of_pattern isSingle isPattern] at isLowest
        split at isLowest
        · exact ⟨0, isLowest⟩
        · have isUp := depthFrom_up isLowest
          exact ⟨2, congrArg some (by rw [isUp, List.length_singleton])⟩
  · exact .inl (.inr ⟨name, by simp, isName.isStep_eq_true⟩)

theorem plain (steady : Steady front false pieces (component :: rest))
    (isSingle : component.isRecursive = false) (isPlain : component.plain? = some name) :
    Steady front false (pieces ++ [name]) rest := by
  have noSeparator := steady.noSeparator component List.mem_cons_self name isPlain
  -- Only before the first step it matters that the name is not empty.
  have isOpen : Path.Leads (front ++ pieces) ∨ name = "." ∧ Glob.opens rest = true ∨
      Path.isStep name = true := by
    cases steady.opens with
    | inl leads => exact .inl leads
    | inr isOpen =>
        have isOpen : Glob.opens (component :: rest) = true := by simpa using isOpen
        simp only [Glob.opens, isPlain] at isOpen
        split at isOpen
        · next isHere => exact .inr (.inl ⟨eq_of_beq isHere, isOpen⟩)
        · next notHere => exact .inr (.inr (by simpa [Path.isStep, isOpen] using notHere))
  rw [← isSingle]
  apply steady.add
  · apply steady.writable.append (by simpa using noSeparator)
    rw [List.mem_singleton]
    cases isOpen with
    | inl leads => exact .inl leads
    | inr isOpen =>
        right
        intro isEmpty
        simp [← isEmpty] at isOpen
  · intro depth lower isLowest
    rw [Component.lowest?_of_plain isSingle isPlain] at isLowest
    exact ⟨0, isLowest⟩
  · cases isOpen with
    | inl leads => exact .inl (leads.append [name])
    | inr isOpen =>
        cases isOpen with
        | inl isHere => exact .inr (.inr isHere.2)
        | inr leads => exact .inl (.inr ⟨name, by simp, leads⟩)

theorem special (steady : Steady front false pieces (component :: rest))
    (isSingle : component.isRecursive = false) (isPattern : component.plain? = none)
    (isSpecial : name ∈ component.specials) :
    Path.Leads (front ++ pieces) ∧ Steady front false (pieces ++ [name]) rest := by
  have hasSpecials : ¬component.specials.isEmpty = true := by
    intro isEmpty
    rw [List.isEmpty_iff.mp isEmpty] at isSpecial
    cases isSpecial
  have leads : Path.Leads (front ++ pieces) := by
    obtain ⟨depth, lower, isDepth, isLowest, _⟩ := steady.lowest?
    rw [Component.lowest?_of_pattern isSingle isPattern, if_neg hasSpecials] at isLowest
    by_contra noneLower
    have areIdle : ∀ piece ∈ pieces, Path.isStep piece = false := by
      intro piece isPiece
      apply Bool.eq_false_iff.mpr
      intro leads
      exact noneLower (.inr ⟨piece, List.mem_append_right _ isPiece, leads⟩)
    rw [depthFrom_idle areIdle, depthFrom_up isLowest] at isDepth
    cases isDepth
  refine ⟨leads, ?_⟩
  rw [← isSingle]
  apply steady.add
  · apply steady.writable.append _ (.inl leads)
    intro piece isPiece
    rw [List.mem_singleton.mp isPiece]
    cases eq_of_mem_specials isSpecial with
    | inl isHere => rw [isHere]; simp
    | inr isUp => rw [isUp]; simp
  · intro depth lower isLowest
    rw [Component.lowest?_of_pattern isSingle isPattern, if_neg hasSpecials] at isLowest
    cases eq_of_mem_specials isSpecial with
    | inl isHere =>
        refine ⟨1, ?_⟩
        rw [isHere, depthFrom_up isLowest]
        rfl
    | inr isUp => exact ⟨0, isUp ▸ isLowest⟩
  · exact .inl (leads.append [name])

end Steady

end Depth

section Paths

variable {system : FileSystem} {tree node first : FileTree} {front pieces : List String}
  {path : String}

theorem namesDirectory_iff :
    namesDirectory system path = true ↔
      ∃ entries, system.lookup path = .ok (.directory entries) := by
  rw [namesDirectory]
  cases system.lookup path with
  | error error => simp
  | ok node =>
      cases node with
      | file content => simp [FileTree.isDirectory]
      | directory entries => simp [FileTree.isDirectory]

theorem mem_childrenOf_iff {entries : List (String × FileTree)} {child : String × String}
    (isDirectory : system.lookup path = .ok (.directory entries)) :
    child ∈ childrenOf system path ↔
      ∃ entry ∈ entries, child = (childPath path entry.1, entry.1) := by
  rw [childrenOf, isDirectory]
  simp [eq_comm]

theorem childrenOf_eq_nil (notDirectory : ¬namesDirectory system path = true) :
    childrenOf system path = [] := by
  rw [childrenOf]
  split
  · next entries isDirectory =>
    exact absurd (namesDirectory_iff.mpr ⟨entries, isDirectory⟩) notDirectory
  · rfl

theorem depthOf_pos : 0 < depthOf node := by
  cases node with
  | file content => exact Nat.one_pos
  | directory entries => exact Nat.succ_pos _

theorem depthOf_le_of_mem {entries : List (String × FileTree)} {entry : String × FileTree}
    (isEntry : entry ∈ entries) : depthOf entry.2 ≤ depthOfEntries entries := by
  induction entries with
  | nil => cases isEntry
  | cons other entries induction =>
      rw [depthOfEntries]
      cases List.mem_cons.mp isEntry with
      | inl isFirst => exact isFirst ▸ Nat.le_max_left _ _
      | inr isLater => exact (induction isLater).trans (Nat.le_max_right _ _)

theorem depthOf_le_of_node? {names : List String} (isNode : tree.node? names = some node) :
    depthOf node ≤ depthOf tree := by
  induction names generalizing tree with
  | nil =>
      cases isNode
      exact Nat.le_refl _
  | cons name names induction =>
      cases tree with
      | file content => cases isNode
      | directory entries =>
          obtain ⟨child, isChild, isBelow⟩ := Option.bind_eq_some_iff.mp isNode
          have isLess := depthOf_le_of_mem (FileTree.mem_of_child? isChild)
          have isLess := (induction isBelow).trans isLess
          rw [depthOf]
          omega

theorem node?_file_ne_directory {content : FileContent} (names : List String)
    (entries : List (String × FileTree)) :
    (FileTree.file content).node? names ≠ some (.directory entries) := by
  intro isNode
  cases names with
  | nil => cases isNode
  | cons name names => cases isNode

/-- What is listed below each entry of a directory are the places below the directory, without the
directory itself. -/
theorem mem_flatMap_childrenOf_iff {entries : List (String × FileTree)} {directory : String}
    (distinct : (entries.map Prod.fst).Nodup)
    (isDirectory : system.lookup directory = .ok (.directory entries))
    {below : String → List String} {spelled : List String → String}
    (each : ∀ entry ∈ entries, (path ∈ below (childPath directory entry.1) ↔
      ∃ names content, entry.2.node? names = some (.directory content) ∧
        path = spelled (entry.1 :: names))) :
    (path ∈ (childrenOf system directory).flatMap fun child => below child.1) ↔
      ∃ names content, (FileTree.directory entries).node? names = some (.directory content) ∧
        names ≠ [] ∧ path = spelled names := by
  rw [List.mem_flatMap]
  constructor
  · rintro ⟨child, isChild, isBelow⟩
    obtain ⟨entry, isEntry, rfl⟩ := (mem_childrenOf_iff isDirectory).mp isChild
    obtain ⟨names, content, isNode, isPath⟩ := (each entry isEntry).mp isBelow
    refine ⟨entry.1 :: names, content, ?_, List.cons_ne_nil _ _, isPath⟩
    rw [FileTree.node?, FileTree.child?_of_mem distinct isEntry]
    exact isNode
  · rintro ⟨names, content, isNode, isLower, isPath⟩
    obtain ⟨name, names, rfl⟩ := List.exists_cons_of_ne_nil isLower
    obtain ⟨child, isChild, isNode⟩ := Option.bind_eq_some_iff.mp isNode
    have isEntry := FileTree.mem_of_child? isChild
    refine ⟨_, (mem_childrenOf_iff isDirectory).mpr ⟨_, isEntry, rfl⟩, ?_⟩
    exact (each _ isEntry).mpr ⟨names, content, isNode, isPath⟩

theorem Holds.childPath_spell (holds : Holds system front node) (pieces : List String)
    (name : String) :
    childPath (spell (front ++ pieces)) name = spell (front ++ (pieces ++ [name])) := by
  have isMore := List.append_ne_nil_of_left_ne_nil holds.isFront pieces
  rw [Glob.childPath_spell (.inl isMore), List.append_assoc]

/-- The directories below a path are those at the places below, whatever the bound, if it is large
enough. -/
theorem mem_directoriesBelow (holds : Holds system front node) (isNamed : first.WellNamed)
    (writable : Path.Writable (front ++ pieces)) (inside : Path.Inside pieces)
    (isFirst : follow [] node pieces = .ok first) {bound : Nat} (isBound : depthOf first ≤ bound) :
    (path ∈ directoriesBelow system bound (spell (front ++ pieces)) ↔
      ∃ names entries, first.node? names = some (.directory entries) ∧
        path = spell (front ++ (pieces ++ names))) ∧
      (path ∈ (directoriesBelow system bound (spell (front ++ pieces))).drop 1 ↔
        ∃ names entries, first.node? names = some (.directory entries) ∧ names ≠ [] ∧
          path = spell (front ++ (pieces ++ names))) := by
  induction bound generalizing first pieces with
  | zero => exact absurd (@depthOf_pos first) (by omega)
  | succ bound induction =>
      have isLookup := (holds.leads pieces writable inside).trans isFirst
      rw [directoriesBelow]
      cases isNamed with
      | file content =>
          have notDirectory : ¬namesDirectory system (spell (front ++ pieces)) = true := by
            simp [namesDirectory, isLookup, FileTree.isDirectory]
          rw [if_neg notDirectory]
          simp [node?_file_ne_directory]
      | @directory entries distinct areNames nodes =>
          -- The entries of the directory are one level less deep.
          have isLower : (path ∈ (childrenOf system (spell (front ++ pieces))).flatMap fun child =>
              directoriesBelow system bound child.1) ↔
              ∃ names content,
                (FileTree.directory entries).node? names = some (.directory content) ∧ names ≠ [] ∧
                  path = spell (front ++ (pieces ++ names)) := by
            apply mem_flatMap_childrenOf_iff distinct isLookup
            intro entry isEntry
            have isName := areNames entry isEntry
            have isChild := FileTree.child?_of_mem distinct isEntry
            have isLess := depthOf_le_of_mem isEntry
            have below :
                path ∈ directoriesBelow system bound (spell (front ++ (pieces ++ [entry.1]))) ↔
                ∃ names content, entry.2.node? names = some (.directory content) ∧
                  path = spell (front ++ (pieces ++ [entry.1] ++ names)) := by
              refine (induction (nodes entry isEntry) ?_ ?_ ?_ ?_).1
              · rw [← List.append_assoc]
                exact writable.append_names (by simpa using isName)
              · exact inside.append_names (by simpa using isName)
              · apply FileTree.follow_append_names isFirst (by simpa using isName)
                simp [FileTree.node?, isChild]
              · rw [depthOf] at isBound
                omega
            simpa [holds.childPath_spell] using below
          rw [if_pos (namesDirectory_iff.mpr ⟨entries, isLookup⟩)]
          refine ⟨?_, isLower⟩
          rw [List.mem_cons, isLower]
          constructor
          · intro isMember
            cases isMember with
            | inl isHere => exact ⟨[], entries, rfl, by simpa using isHere⟩
            | inr isBelow =>
                obtain ⟨names, content, isNode, _, isPath⟩ := isBelow
                exact ⟨names, content, isNode, isPath⟩
          · intro isPlace
            obtain ⟨names, content, isNode, isPath⟩ := isPlace
            by_cases isHere : names = []
            · exact .inl (by simpa [isHere] using isPath)
            · exact .inr ⟨names, content, isNode, isHere, isPath⟩

theorem directoriesBelow_eq_nil (notDirectory : ¬namesDirectory system path = true) (bound : Nat) :
    directoriesBelow system bound path = [] := by
  cases bound with
  | zero => rfl
  | succ bound => rw [directoriesBelow, if_neg notDirectory]

section Step

variable {isBelow : Bool} {component : Component} {rest : List Component} {name : String}
  (holds : Holds system front node) (isNamed : node.WellNamed)
  (next : ∀ {isBelow pieces}, Steady front isBelow pieces rest →
    (path ∈ pathsFrom system isBelow (spell (front ++ pieces)) rest ↔
      ∃ found, Reaches node isBelow pieces rest found ∧ path = spell (front ++ found)))

include holds in
theorem namesDirectory_spell_iff (steady : Steady front isBelow pieces (component :: rest)) :
    namesDirectory system (spell (front ++ pieces)) = true ↔
      ∃ entries, follow [] node pieces = .ok (.directory entries) := by
  rw [namesDirectory_iff, holds.leads pieces steady.writable steady.inside]

include holds isNamed in
theorem mem_directoriesBelow_of_follow (steady : Steady front isBelow pieces (component :: rest))
    (isFirst : follow [] node pieces = .ok first) :
    (path ∈ directoriesBelow system (depthOf system.root) (spell (front ++ pieces)) ↔
      ∃ names entries, first.node? names = some (.directory entries) ∧
        path = spell (front ++ (pieces ++ names))) ∧
      (path ∈ (directoriesBelow system (depthOf system.root) (spell (front ++ pieces))).drop 1 ↔
        ∃ names entries, first.node? names = some (.directory entries) ∧ names ≠ [] ∧
          path = spell (front ++ (pieces ++ names))) := by
  have isLookup := (holds.leads pieces steady.writable steady.inside).trans isFirst
  exact mem_directoriesBelow holds (isNamed.follow (by simp) isFirst) steady.writable steady.inside
    isFirst (depthOf_le_of_node? (FileSystem.node?_route isLookup))

include holds isNamed next in
theorem mem_pathsFrom_recursive_iff (steady : Steady front false pieces (component :: rest))
    (isRecursive : component.isRecursive = true) :
    path ∈ pathsFrom system false (spell (front ++ pieces)) (component :: rest) ↔
      ∃ found, Reaches node false pieces (component :: rest) found ∧
        path = spell (front ++ found) := by
  rw [pathsFrom, if_pos isRecursive, if_neg Bool.false_ne_true]
  simp only [Reaches.recursive_iff isRecursive]
  cases isFirst : follow [] node pieces with
  | error error =>
      have notDirectory : ¬namesDirectory system (spell (front ++ pieces)) = true := by
        rw [namesDirectory_spell_iff holds steady, isFirst]
        simp
      simp [directoriesBelow_eq_nil notDirectory]
  | ok first =>
      have isSteady := fun {names entries}
          (isNode : first.node? names = some (.directory entries)) =>
        steady.recursive isRecursive ((isNamed.follow (by simp) isFirst).node? isNode).2
      by_cases isLast : rest.all Component.isRecursive = true
      · rw [if_pos isLast, (mem_directoriesBelow_of_follow holds isNamed steady isFirst).2]
        constructor
        · rintro ⟨names, entries, isNode, isLower, isPath⟩
          exact ⟨_, ⟨first, names, entries, rfl, isNode, .inl ⟨isLast, isLower, rfl⟩⟩, isPath⟩
        · rintro ⟨found, ⟨_, names, entries, ⟨⟩, isNode, ⟨_, isLower, rfl⟩ | ⟨goesOn, _⟩⟩, isPath⟩
          · exact ⟨names, entries, isNode, isLower, isPath⟩
          · exact absurd isLast (by simp [goesOn])
      · rw [if_neg isLast, List.mem_flatMap]
        constructor
        · rintro ⟨directory, isBelow, isMember⟩
          obtain ⟨names, entries, isNode, rfl⟩ :=
            (mem_directoriesBelow_of_follow holds isNamed steady isFirst).1.mp isBelow
          obtain ⟨found, reaches, isPath⟩ := (next (isSteady isNode)).mp isMember
          have goesOn := Bool.eq_false_iff.mpr isLast
          exact ⟨found, ⟨first, names, entries, rfl, isNode, .inr ⟨goesOn, reaches⟩⟩, isPath⟩
        · rintro ⟨found, ⟨_, names, entries, ⟨⟩, isNode, ⟨isAll, _⟩ | ⟨_, reaches⟩⟩, isPath⟩
          · exact absurd isAll isLast
          · have isBelow := (mem_directoriesBelow_of_follow holds isNamed steady isFirst).1.mpr
              ⟨names, entries, isNode, rfl⟩
            exact ⟨_, isBelow, (next (isSteady isNode)).mpr ⟨found, reaches, isPath⟩⟩

include holds in
theorem isPresent_iff (steady : Steady front false pieces (component :: rest))
    (isSingle : component.isRecursive = false) (isPlain : component.plain? = some name) :
    (if name == "." || name == ".." then namesDirectory system (spell (front ++ pieces))
      else system.holds (childPath (spell (front ++ pieces)) name)) = true ↔
      Present node pieces name := by
  rw [Present]
  split
  · exact namesDirectory_spell_iff holds steady
  · have isSteady := steady.plain isSingle isPlain
    rw [holds.childPath_spell, FileSystem.holds,
      holds.leads _ isSteady.writable isSteady.inside]
    cases follow [] node (pieces ++ [name]) with
    | error error => simp [Except.isOk, Except.toBool]
    | ok found => simp [Except.isOk, Except.toBool]

include holds next in
theorem mem_pathsFrom_plain_iff (steady : Steady front false pieces (component :: rest))
    (isSingle : component.isRecursive = false) (isPlain : component.plain? = some name) :
    path ∈ pathsFrom system false (spell (front ++ pieces)) (component :: rest) ↔
      ∃ found, Reaches node false pieces (component :: rest) found ∧
        path = spell (front ++ found) := by
  have isNext := next (steady.plain isSingle isPlain)
  have isPresent := isPresent_iff holds steady isSingle isPlain
  rw [← holds.childPath_spell] at isNext
  rw [pathsFrom, if_neg (by simp [isSingle]), if_neg Bool.false_ne_true, isPlain]
  simp only [Reaches.plain_iff isSingle isPlain]
  by_cases present : Present node pieces name
  · rw [if_pos (isPresent.mpr present), isNext]
    simp [present]
  · rw [if_neg (mt isPresent.mp present)]
    simp [present]

include holds isNamed next in
theorem mem_entries_iff (steady : Steady front isBelow pieces (component :: rest))
    (isSingle : component.isRecursive = false)
    (isPattern : isBelow = true ∨ component.plain? = none)
    {entries : List (String × FileTree)}
    (isDirectory : follow [] node pieces = .ok (.directory entries)) :
    (path ∈ ((childrenOf system (spell (front ++ pieces))).filter fun child =>
        component.fits child.2).flatMap fun child =>
          if rest.isEmpty || namesDirectory system child.1 then pathsFrom system false child.1 rest
          else []) ↔
      ∃ name child found, (name, child) ∈ entries ∧ component.fits name = true ∧
        (rest = [] ∨ child.isDirectory = true) ∧ Reaches node false (pieces ++ [name]) rest found ∧
        path = spell (front ++ found) := by
  have isLookup := (holds.leads pieces steady.writable steady.inside).trans isDirectory
  have areNamed := isNamed.follow (by simp) isDirectory
  cases areNamed with
  | directory distinct areNames nodes =>
      have isChild : ∀ entry ∈ entries,
          Steady front false (pieces ++ [entry.1]) rest ∧
            system.lookup (spell (front ++ (pieces ++ [entry.1]))) = .ok entry.2 := by
        intro entry isEntry
        have isName := areNames entry isEntry
        have isSteady := steady.entry isSingle isPattern isName
        refine ⟨isSteady, (holds.leads _ isSteady.writable isSteady.inside).trans ?_⟩
        apply FileTree.follow_append_names isDirectory (by simpa using isName)
        simp [FileTree.node?, FileTree.child?_of_mem distinct isEntry]
      have goesOn : ∀ entry ∈ entries,
          (rest.isEmpty || namesDirectory system (spell (front ++ (pieces ++ [entry.1])))) = true ↔
            rest = [] ∨ entry.2.isDirectory = true := by
        intro entry isEntry
        rw [namesDirectory, (isChild entry isEntry).2]
        simp
      rw [List.mem_flatMap]
      constructor
      · intro isMember
        obtain ⟨child, isFitting, isMember⟩ := isMember
        obtain ⟨isMemberChild, fits⟩ := List.mem_filter.mp isFitting
        obtain ⟨entry, isEntry, rfl⟩ := (mem_childrenOf_iff isLookup).mp isMemberChild
        rw [holds.childPath_spell] at isMember
        split at isMember
        · next isOpen =>
          obtain ⟨found, reaches, isPath⟩ := (next (isChild entry isEntry).1).mp isMember
          exact ⟨entry.1, entry.2, found, isEntry, fits, (goesOn entry isEntry).mp isOpen, reaches,
            isPath⟩
        · cases isMember
      · intro isReached
        obtain ⟨name, child, found, isEntry, fits, isOpen, reaches, isPath⟩ := isReached
        have isChildMember := (mem_childrenOf_iff isLookup).mpr ⟨_, isEntry, rfl⟩
        refine ⟨_, List.mem_filter.mpr ⟨isChildMember, fits⟩, ?_⟩
        rw [holds.childPath_spell, if_pos ((goesOn _ isEntry).mpr isOpen)]
        exact (next (isChild _ isEntry).1).mpr ⟨found, reaches, isPath⟩

include holds in
theorem join_spell (writable : Path.Writable (front ++ pieces))
    (leads : Path.Leads (front ++ pieces)) :
    Path.join (spell (front ++ pieces)) name = spell (front ++ (pieces ++ [name])) := by
  rw [← holds.childPath_spell]
  cases spell_cases writable with
  | inl isHere => exact absurd leads (Path.not_leads_here isHere.2)
  | inr isWritten =>
      obtain ⟨_, first, more, _, _, notHere, _, isFirst⟩ := isWritten
      exact (childPath_eq_join isFirst notHere name).symm

include holds next in
theorem mem_specials_iff (steady : Steady front false pieces (component :: rest))
    (isSingle : component.isRecursive = false) (isPattern : component.plain? = none)
    {entries : List (String × FileTree)}
    (isDirectory : follow [] node pieces = .ok (.directory entries)) :
    (path ∈ component.specials.flatMap fun name =>
        if namesDirectory system (spell (front ++ pieces)) then
          pathsFrom system false (Path.join (spell (front ++ pieces)) name) rest
        else []) ↔
      ∃ name found, name ∈ component.specials ∧ Reaches node false (pieces ++ [name]) rest found ∧
        path = spell (front ++ found) := by
  have isNamed := (namesDirectory_spell_iff holds steady).mpr ⟨entries, isDirectory⟩
  simp only [isNamed, if_true, List.mem_flatMap]
  have isNext : ∀ name ∈ component.specials,
      (path ∈ pathsFrom system false (Path.join (spell (front ++ pieces)) name) rest ↔
        ∃ found, Reaches node false (pieces ++ [name]) rest found ∧
          path = spell (front ++ found)) := by
    intro name isSpecial
    obtain ⟨leads, isSteady⟩ := steady.special isSingle isPattern isSpecial
    rw [join_spell holds steady.writable leads]
    exact next isSteady
  constructor
  · intro isMember
    obtain ⟨name, isSpecial, isMember⟩ := isMember
    obtain ⟨found, isReached⟩ := (isNext name isSpecial).mp isMember
    exact ⟨name, found, isSpecial, isReached⟩
  · intro isReached
    obtain ⟨name, found, isSpecial, isReached⟩ := isReached
    exact ⟨name, isSpecial, (isNext name isSpecial).mpr ⟨found, isReached⟩⟩

include holds isNamed next in
theorem mem_pathsFrom_pattern_iff (steady : Steady front isBelow pieces (component :: rest))
    (isSingle : component.isRecursive = false)
    (isPattern : isBelow = true ∨ component.plain? = none) :
    path ∈ pathsFrom system isBelow (spell (front ++ pieces)) (component :: rest) ↔
      ∃ found, Reaches node isBelow pieces (component :: rest) found ∧
        path = spell (front ++ found) := by
  have isNone : (if isBelow = true then none else component.plain?) = none := by
    cases isPattern with
    | inl isBelow => rw [if_pos isBelow]
    | inr isPattern => rw [isPattern, ite_self]
  rw [pathsFrom, if_neg (by simp [isSingle]), isNone]
  simp only [Reaches.pattern_iff isSingle isPattern, List.mem_append]
  by_cases isDirectory : ∃ entries, follow [] node pieces = .ok (.directory entries)
  · obtain ⟨entries, isDirectory⟩ := isDirectory
    rw [mem_entries_iff holds isNamed next steady isSingle isPattern isDirectory]
    constructor
    · intro isMember
      cases isMember with
      | inl isEntry =>
          obtain ⟨name, child, found, isEntry, fits, goesOn, reaches, isPath⟩ := isEntry
          exact ⟨found, ⟨entries, isDirectory, .inl ⟨name, child, isEntry, fits, goesOn, reaches⟩⟩,
            isPath⟩
      | inr isSpecial =>
          cases isBelow with
          | true => cases isSpecial
          | false =>
              have isPattern : component.plain? = none := by simpa using isPattern
              obtain ⟨name, found, isSpecial, reaches, isPath⟩ :=
                (mem_specials_iff holds next steady isSingle isPattern isDirectory).mp isSpecial
              exact ⟨found, ⟨entries, isDirectory, .inr ⟨rfl, name, isSpecial, reaches⟩⟩, isPath⟩
    · rintro ⟨found, ⟨_, isOther, ⟨name, child, isEntry, fits, goesOn, reaches⟩ |
        ⟨rfl, name, isSpecial, reaches⟩⟩, isPath⟩
      · cases isDirectory.symm.trans isOther
        exact .inl ⟨name, child, found, isEntry, fits, goesOn, reaches, isPath⟩
      · have isPattern : component.plain? = none := by simpa using isPattern
        exact .inr ((mem_specials_iff holds next steady isSingle isPattern isDirectory).mpr
          ⟨name, found, isSpecial, reaches, isPath⟩)
  · have notDirectory := mt (namesDirectory_spell_iff holds steady).mp isDirectory
    constructor
    · intro isMember
      simp [childrenOf_eq_nil notDirectory, notDirectory] at isMember
    · rintro ⟨found, ⟨entries, isOther, _⟩, _⟩
      exact absurd ⟨entries, isOther⟩ isDirectory

end Step

/-- The expansion of components gives the paths of the places that they reach. -/
theorem mem_pathsFrom_iff (holds : Holds system front node) (isNamed : node.WellNamed)
    {isBelow : Bool} {components : List Component}
    (steady : Steady front isBelow pieces components) :
    path ∈ pathsFrom system isBelow (spell (front ++ pieces)) components ↔
      ∃ found, Reaches node isBelow pieces components found ∧ path = spell (front ++ found) := by
  induction components generalizing isBelow pieces with
  | nil =>
      rw [pathsFrom, List.mem_singleton]
      constructor
      · intro isPath
        exact ⟨pieces, .done, isPath⟩
      · intro isReached
        obtain ⟨found, reaches, isPath⟩ := isReached
        cases reaches
        exact isPath
  | cons component rest induction =>
      by_cases isRecursive : component.isRecursive = true
      · cases isBelow with
        | false => exact mem_pathsFrom_recursive_iff holds isNamed induction steady isRecursive
        | true =>
            have isSteady := @Steady.recursive _ _ _ [] _ _ steady isRecursive (by simp)
            rw [List.append_nil] at isSteady
            rw [pathsFrom, if_pos isRecursive, if_pos rfl, induction isSteady]
            constructor
            · intro isReached
              obtain ⟨found, reaches, isPath⟩ := isReached
              exact ⟨found, .again isRecursive reaches, isPath⟩
            · intro isReached
              obtain ⟨found, reaches, isPath⟩ := isReached
              cases reaches with
              | again _ reaches => exact ⟨found, reaches, isPath⟩
              | entry isSingle => simp [isRecursive] at isSingle
      · have isSingle := Bool.eq_false_iff.mpr isRecursive
        cases isPlain : component.plain? with
        | none =>
            exact mem_pathsFrom_pattern_iff holds isNamed induction steady isSingle (.inr isPlain)
        | some name =>
            cases isBelow with
            | false => exact mem_pathsFrom_plain_iff holds induction steady isSingle isPlain
            | true =>
                exact mem_pathsFrom_pattern_iff holds isNamed induction steady isSingle (.inl rfl)

/-- What components reach can be written in a path and stays inside. -/
theorem Reaches.steady (isNamed : node.WellNamed) {isBelow : Bool} {components : List Component}
    {found : List String} (reaches : Reaches node isBelow pieces components found)
    (steady : Steady front isBelow pieces components) :
    Path.Writable (front ++ found) ∧ Path.Inside found := by
  induction reaches with
  | done => exact ⟨steady.writable, steady.inside⟩
  | again isRecursive reaches induction =>
      have isSteady := @Steady.recursive _ _ _ [] _ _ steady isRecursive (by simp)
      rw [List.append_nil] at isSteady
      exact induction isSteady
  | anywhere isRecursive _ isFirst isPlace _ =>
      have areNames := ((isNamed.follow (by simp) isFirst).node? isPlace).2
      have isSteady := steady.recursive isRecursive areNames
      exact ⟨isSteady.writable, isSteady.inside⟩
  | further isRecursive _ isFirst isPlace _ induction =>
      have areNames := ((isNamed.follow (by simp) isFirst).node? isPlace).2
      exact induction (steady.recursive isRecursive areNames)
  | plain isSingle isPlain _ _ induction => exact induction (steady.plain isSingle isPlain)
  | entry isSingle isPattern isDirectory isEntry _ _ _ induction =>
      cases isNamed.follow (by simp) isDirectory with
      | directory _ areNames _ =>
          exact induction (steady.entry isSingle isPattern (areNames _ isEntry))
  | special isSingle isPattern _ isSpecial _ induction =>
      exact induction (steady.special isSingle isPattern isSpecial).2

end Paths

end StoreLint.Glob
