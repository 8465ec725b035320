import StoreLint.Proofs.Project.Depth

/-!
# The nearest configuration file

The search looks into the directories that the text of a path goes through, and takes the
first one that has something with the name of the configuration file.  For an absolute
path without `..` these are all the directories above, so the nearest configuration file
is found, unless a directory with its name comes first.  A relative path goes through
none of the directories above the current one, and a path with `..` goes through
directories that are not above it at all.
-/

namespace StoreLint

namespace FileSystem

def locate? (system : FileSystem) (path : String) : Option (List String) :=
  if system.holds path then some (system.route path) else none

/-- Whether there is something with the name at the place. -/
def has (system : FileSystem) (place : List String) (name : String) : Bool :=
  (system.root.node? (place ++ [name])).isSome

/-- Whether the place has a configuration file. -/
def hasConfig (system : FileSystem) (place : List String) : Bool :=
  match system.root.node? (place ++ [configFileName]) with
  | some (.file _) => true
  | _ => false

/-- The first of the places that are looked for, unless a repository is before it. -/
def firstPlace (system : FileSystem) (isLooked : List String → Bool) :
    List (List String) → Option (List String)
  | [] => none
  | place :: places =>
      if isLooked place then some place
      else if system.has place repositoryMark then none
      else system.firstPlace isLooked places

/-- The first of the places with a configuration file, unless a repository is before it. -/
def firstConfig (system : FileSystem) (places : List (List String)) : Option (List String) :=
  system.firstPlace system.hasConfig places

/-- The first of the places with something that has the name of a configuration file, unless a
repository is before it. -/
def firstNamed (system : FileSystem) (places : List (List String)) : Option (List String) :=
  system.firstPlace (fun place => system.has place configFileName) places

/-- The places that the text of a path goes through, the last one first. -/
def passed (system : FileSystem) (path : String) : List (List String) :=
  (Path.steps path).inits.reverse.map (Path.routeFrom (system.origin path))

/-- A place at or above another one has a configuration file, and between them there is neither a
configuration file nor a repository. -/
structure IsNearest (system : FileSystem) (start place : List String) : Prop where
  isAbove : place <+: start
  isConfigured : system.hasConfig place = true
  nothingNearer : ∀ nearer, place <+: nearer → nearer <+: start → nearer ≠ place →
    system.hasConfig nearer = false ∧ system.has nearer repositoryMark = false

/-- The answer for a directory is its nearest configuration file, if there is one. -/
def Answers (system : FileSystem) (start : List String) : Option String → Prop
  | some path => ∃ place, system.IsNearest start place ∧
      system.locate? path = some (place ++ [configFileName])
  | none => ∀ place, ¬system.IsNearest start place

end FileSystem

namespace FileTree

variable {tree : FileTree} {outer : List FileTree} {current : FileTree} {pieces : List String}
  {name : String}

theorem follow_file {content : FileContent} (isSomething : pieces ≠ []) :
    follow outer (.file content) pieces = .error .notDirectory := by
  cases pieces with
  | nil => exact absurd rfl isSomething
  | cons piece pieces => rfl

theorem follow_filter :
    follow outer current (pieces.filter Path.isStep ++ [name]) =
      follow outer current (pieces ++ [name]) := by
  induction pieces generalizing outer current with
  | nil => rfl
  | cons piece pieces induction =>
      cases current with
      | file content => rw [follow_file (by simp), follow_file (by simp)]
      | directory entries =>
          have isIdle := Path.not_isStep piece
          by_cases isStep : Path.isStep piece = true
          · rw [List.filter_cons_of_pos isStep, List.cons_append, List.cons_append]
            simp only [follow, induction]
          · rw [Bool.not_eq_true] at isStep
            rw [isStep] at isIdle
            rw [List.filter_cons_of_neg (by simp [isStep]), induction]
            simp only [List.cons_append, follow, ← isIdle]
            rfl

/-- What leads on from a place that pieces lead to. -/
theorem follow_name_of_prefix {front : List String} {entries : List (String × FileTree)}
    (isDirectory : follow [] tree pieces = .ok (.directory entries)) (isFront : front <+: pieces)
    (isName : Path.IsName name) :
    (follow [] tree (front ++ [name])).isOk =
      (tree.node? (Path.routeFrom [] front ++ [name])).isSome := by
  obtain ⟨inner, around, isAround, leads⟩ := follow_prefix isDirectory isFront
  obtain ⟨outer, isStacked⟩ := Stacked.root.follow isAround
  rw [leads, node?_append, isStacked.node?]
  cases isChild : child? name around with
  | none =>
      simp [follow, node?, isName.notEmpty, isName.notHere, isName.notUp, isChild, Except.isOk,
        Except.toBool]
  | some child =>
      simp [follow, node?, isName.notEmpty, isName.notHere, isName.notUp, isChild, Except.isOk,
        Except.toBool]

end FileTree

namespace FileSystem

variable {system : FileSystem} {start path name : String}
  {place found : List String}

theorem isName_configFileName : Path.IsName configFileName := by
  constructor <;> simp [configFileName]

theorem isName_repositoryMark : Path.IsName repositoryMark := by
  constructor <;> simp [repositoryMark]

/-- The path goes through the first of the directories that lead to the start. -/
structure IsPassed (start path : String) : Prop where
  starts_eq : Path.isAbsolute path = Path.isAbsolute start
  isFront : Path.steps path <+: Path.steps start

theorem IsPassed.parent {parent : String} (isPassed : IsPassed start path)
    (isParent : Path.IsParent path parent) : IsPassed start parent := by
  refine ⟨isParent.starts_eq.trans isPassed.starts_eq, ?_⟩
  rw [isParent.steps_eq]
  exact (List.dropLast_prefix _).trans isPassed.isFront

theorem passed_of_steps_eq_nil (isTop : Path.steps path = []) :
    system.passed path = [system.origin path] := by
  simp [passed, isTop, Path.routeFrom]

theorem passed_eq_cons {parent : String} (isParent : Path.IsParent path parent)
    (isLower : Path.steps path ≠ []) :
    system.passed path =
      system.route path :: system.passed parent := by
  have isLast := List.dropLast_append_getLast isLower
  rw [passed, passed, route_eq, isParent.steps_eq, origin, origin, before, before,
    isParent.starts_eq]
  generalize (Path.steps path).dropLast = front at isLast
  rw [← isLast, List.inits_append]
  simp

theorem exists_passed_eq_cons (system : FileSystem) (path : String) :
    ∃ places, system.passed path =
      system.route path :: places := by
  by_cases isTop : Path.steps path = []
  · exact ⟨[], by rw [passed_of_steps_eq_nil isTop, route_eq, isTop]; rfl⟩
  · cases @Path.parent?_cases path with
    | inl isRoot => exact absurd isRoot.2 isTop
    | inr isLower =>
        obtain ⟨parent, _, isParent⟩ := isLower
        exact ⟨_, passed_eq_cons isParent isTop⟩

/-- Where nothing is found the search goes on with what the parent goes through. -/
theorem firstNamed_passed {parent : String} (isParent : Path.IsParent path parent)
    (noConfig : ¬system.has (system.route path) configFileName = true)
    (noRepository : ¬system.has (system.route path) repositoryMark = true) :
    system.firstNamed (system.passed path) = system.firstNamed (system.passed parent) := by
  by_cases isTop : Path.steps path = []
  · have isParentTop : Path.steps parent = [] := by rw [isParent.steps_eq, isTop]; rfl
    rw [passed_of_steps_eq_nil isTop, passed_of_steps_eq_nil isParentTop, origin, origin,
      before, before, isParent.starts_eq]
  · rw [passed_eq_cons isParent isTop, firstNamed, firstPlace, if_neg noConfig,
      if_neg noRepository, firstNamed]

section Directory

variable {entries : List (String × FileTree)}
  (isDirectory : system.lookup start = .ok (.directory entries))

include isDirectory

/-- A path that the start goes through holds a name if there is something at its place. -/
theorem IsPassed.holds_join (isPassed : IsPassed start path) (isName : Path.IsName name) :
    system.holds (Path.join path name) = system.has (system.route path) name := by
  have isFollowed := @follow_pieces_append _ _ _ [] isDirectory rfl
  rw [List.append_nil, fromRoot_pieces] at isFollowed
  obtain ⟨more, isFiltered⟩ := isPassed.isFront
  rw [← @Path.filter_pieces start] at isFiltered
  obtain ⟨front, last, isPieces, isFront, _⟩ := List.filter_eq_append_iff.mp isFiltered.symm
  have isPrefix : system.before start ++ front <+: system.before start ++ Path.pieces start :=
    (List.prefix_append_right_inj _).mpr ⟨last, isPieces.symm⟩
  -- The path and the first pieces of the start have the same steps.
  have areSteps : (system.fromRoot (Path.pieces path)).filter Path.isStep =
      (system.before start ++ front).filter Path.isStep := by
    rw [fromRoot_pieces, List.filter_append, List.filter_append, Path.filter_pieces, isFront,
      before, before, isPassed.starts_eq]
  calc system.holds (Path.join path name)
      = (FileTree.follow [] system.root
          (system.fromRoot (Path.pieces path) ++ [name])).isOk := by
        rw [holds, lookup_of_ne_empty (Path.join_name_ne_empty isName),
          Path.segments_join_name isName, ← Path.pieces_join isName,
          fromRoot_pieces_join isName.isAbsolute_eq_false, isName.pieces_eq]
    _ = (FileTree.follow [] system.root (system.before start ++ front ++ [name])).isOk := by
        rw [← FileTree.follow_filter, areSteps, FileTree.follow_filter]
    _ = system.has (system.route path) name := by
        rw [FileTree.follow_name_of_prefix isFollowed isPrefix isName, has, route,
          ← Path.routeFrom_filter, ← areSteps, Path.routeFrom_filter]

theorem IsPassed.locate?_join (isPassed : IsPassed start path) (isName : Path.IsName name) :
    system.locate? (Path.join path name) =
      if system.has (system.route path) name then some (system.route path ++ [name]) else none := by
  have isRoute := @route_below system path [name] (by simpa using isName)
  rw [locate?, isPassed.holds_join isDirectory isName]
  exact congrArg (if system.has _ name then some · else none) isRoute

/-- The search finds what has the name of a configuration file at the first place that the path
goes through. -/
theorem IsPassed.search (isPassed : IsPassed start path) :
    (system.findConfig path).bind system.locate? =
      (system.firstNamed (system.passed path)).map fun place => place ++ [configFileName] := by
  induction path using Path.parent_induction with
  | _ path induction =>
      have isConfig := isPassed.locate?_join isDirectory isName_configFileName
      rw [findConfig, searchConfig_eq, isPassed.holds_join isDirectory isName_configFileName,
        isPassed.holds_join isDirectory isName_repositoryMark]
      obtain ⟨places, isFirst⟩ := exists_passed_eq_cons system path
      split
      · next hasConfig =>
        rw [Option.bind_some, isConfig, isFirst, firstNamed, firstPlace, if_pos hasConfig,
          if_pos hasConfig]
        rfl
      · next noConfig =>
        split
        · next hasRepository =>
          rw [isFirst, firstNamed, firstPlace, if_neg noConfig, if_pos hasRepository]
          rfl
        · next noRepository =>
          cases @Path.parent?_cases path with
          | inl isTop =>
              rw [route_eq, isTop.2, Path.routeFrom] at noConfig noRepository
              rw [isTop.1, passed_of_steps_eq_nil isTop.2]
              simp [firstNamed, firstPlace, noConfig, noRepository]
          | inr isLower =>
              obtain ⟨parent, isParent, related⟩ := isLower
              rw [isParent, Option.bind_some, firstNamed_passed related noConfig noRepository]
              exact induction parent related (isPassed.parent related)

end Directory

theorem isNearest_self (isConfigured : system.hasConfig place = true) :
    system.IsNearest place place := by
  refine ⟨List.prefix_refl _, isConfigured, ?_⟩
  intro nearer isBelow isAbove isOther
  exact absurd (isBelow.eq_of_length_le isAbove.length_le).symm isOther

theorem isNearest_concat_iff {front : List String} :
    system.IsNearest (front ++ [name]) place ↔
      if system.hasConfig (front ++ [name]) then place = front ++ [name]
      else system.has (front ++ [name]) repositoryMark = false ∧ system.IsNearest front place := by
  have notFront : ∀ place, place <+: front → front ++ [name] ≠ place := by
    intro place isAbove same
    have shorter := isAbove.length_le
    rw [← same, List.length_append, List.length_singleton] at shorter
    omega
  split
  · next hasConfig =>
    constructor
    · intro isNearest
      cases List.prefix_concat_iff.mp isNearest.isAbove with
      | inl same => exact same
      | inr isAbove =>
          have nothing := isNearest.nothingNearer (front ++ [name])
            (isAbove.trans (List.prefix_append _ _)) (List.prefix_refl _) (notFront place isAbove)
          exact absurd hasConfig (by simp [nothing.1])
    · intro same
      rw [same]
      exact isNearest_self hasConfig
  · next noConfig =>
    constructor
    · intro isNearest
      cases List.prefix_concat_iff.mp isNearest.isAbove with
      | inl same => exact absurd (same ▸ isNearest.isConfigured) noConfig
      | inr isAbove =>
          have nothing := isNearest.nothingNearer (front ++ [name])
            (isAbove.trans (List.prefix_append _ _)) (List.prefix_refl _) (notFront place isAbove)
          refine ⟨nothing.2, isAbove, isNearest.isConfigured, ?_⟩
          intro nearer isBelow isFront
          exact isNearest.nothingNearer nearer isBelow (isFront.trans (List.prefix_append _ _))
    · intro isNearest
      obtain ⟨noRepository, isNearest⟩ := isNearest
      refine ⟨isNearest.isAbove.trans (List.prefix_append _ _), isNearest.isConfigured, ?_⟩
      intro nearer isBelow isAbove isOther
      cases List.prefix_concat_iff.mp isAbove with
      | inl same => exact same ▸ ⟨Bool.eq_false_iff.mpr noConfig, noRepository⟩
      | inr isFront => exact isNearest.nothingNearer nearer isBelow isFront isOther

/-- The first configuration file from a place up to another one above it is the nearest one, if
this is not further above. -/
theorem firstConfig_eq_some_iff {above names : List String} :
    system.firstConfig (names.inits.reverse.map fun front => above ++ front) = some place ↔
      above <+: place ∧ system.IsNearest (above ++ names) place := by
  induction names using List.reverseRecOn with
  | nil =>
      have isList : ([].inits.reverse.map fun front => above ++ front) = [above] := by simp
      rw [isList, List.append_nil]
      constructor
      · intro isFirst
        simp only [firstConfig, firstPlace, ite_self] at isFirst
        split at isFirst
        · next hasConfig =>
          cases isFirst
          exact ⟨List.prefix_refl _, isNearest_self hasConfig⟩
        · cases isFirst
      · intro isNearest
        obtain ⟨isBelow, isNearest⟩ := isNearest
        cases isNearest.isAbove.eq_of_length_le isBelow.length_le
        rw [firstConfig, firstPlace, if_pos isNearest.isConfigured]
  | append_singleton names name induction =>
      have isList : ((names ++ [name]).inits.reverse.map fun front => above ++ front) =
          (above ++ names ++ [name]) :: names.inits.reverse.map fun front => above ++ front := by
        simp [List.inits_append]
      rw [firstConfig, isList, firstPlace, ← firstConfig, ← List.append_assoc,
        isNearest_concat_iff]
      split
      · rw [Option.some.injEq, eq_comm]
        refine ⟨fun same => ⟨?_, same⟩, fun isNearest => isNearest.2⟩
        rw [same, List.append_assoc]
        exact List.prefix_append _ _
      · split
        · next hasRepository =>
          rw [hasRepository]
          simp
        · next noRepository =>
          rw [induction, Bool.eq_false_iff.mpr noRepository]
          simp

theorem ancestors_eq_some_iff :
    system.firstConfig (place.inits.reverse) = some found ↔ system.IsNearest place found := by
  have isFirst := @firstConfig_eq_some_iff system found [] place
  simpa using isFirst

/-- The answer of the search is right just if it comes to the place with the first configuration
file above the directory. -/
theorem answers_iff {entries : List (String × FileTree)}
    (isDirectory : system.lookup start = .ok (.directory entries)) :
    system.Answers place (system.findConfig start) ↔
      system.firstNamed (system.passed start) = system.firstConfig place.inits.reverse := by
  have isSearch := IsPassed.search isDirectory ⟨rfl, List.prefix_refl _⟩
  cases isAnswer : system.findConfig start with
  | none =>
      rw [isAnswer, Option.bind_none, eq_comm, Option.map_eq_none_iff] at isSearch
      rw [isSearch, eq_comm, Option.eq_none_iff_forall_ne_some]
      simp only [ne_eq, ancestors_eq_some_iff]
      rfl
  | some path =>
      have isTarget : system.locate? path = some (system.route path) :=
        if_pos (holds_of_searchConfig isAnswer)
      rw [isAnswer, Option.bind_some, isTarget, eq_comm, Option.map_eq_some_iff] at isSearch
      obtain ⟨found, isFirst, isPlace⟩ := isSearch
      rw [← isPlace] at isTarget
      rw [isFirst, eq_comm, ancestors_eq_some_iff]
      constructor
      · intro answers
        obtain ⟨nearest, isNearest, isLocated⟩ := answers
        rw [isTarget, Option.some.injEq] at isLocated
        rw [List.append_cancel_right isLocated]
        exact isNearest
      · intro isNearest
        exact ⟨found, isNearest, isTarget⟩

theorem isName_of_mem_steps {piece : String} (noParent : ".." ∉ Path.segments start)
    (isStep : piece ∈ Path.steps start) : Path.IsName piece := by
  obtain ⟨isPiece, isStep⟩ := List.mem_filter.mp isStep
  simp only [Path.isStep, Bool.and_eq_true, bne_iff_ne] at isStep
  refine ⟨isStep.1, isStep.2, ?_, Path.separator_not_mem_of_mem_segments isPiece⟩
  intro isParent
  exact noParent (isParent ▸ isPiece)

theorem passed_eq_map (noParent : ".." ∉ Path.segments start) :
    system.passed start =
      (Path.steps start).inits.reverse.map fun front => system.origin start ++ front := by
  apply List.map_congr_left
  intro front isFront
  have isPrefix := (List.mem_inits _ _).mp (List.mem_reverse.mp isFront)
  apply Path.routeFrom_names
  intro name isName
  exact isName_of_mem_steps noParent (isPrefix.subset isName)

theorem firstNamed_eq_firstConfig {places : List (List String)}
    (areFiles : ∀ place ∈ places, system.has place configFileName = system.hasConfig place) :
    system.firstNamed places = system.firstConfig places := by
  induction places with
  | nil => rfl
  | cons place places induction =>
      have rest := induction fun other isOther => areFiles other (List.mem_cons_of_mem _ isOther)
      rw [firstNamed, firstConfig] at rest ⊢
      rw [firstPlace, firstPlace, areFiles place List.mem_cons_self, rest]

/-- For a path without `..`, on which all that has the name of a configuration file is one, the
answer is right just if the nearest configuration file is not above the place where the path
starts. -/
theorem answers_iff_of_no_parent {entries : List (String × FileTree)}
    (isDirectory : system.lookup start = .ok (.directory entries))
    (noParent : ".." ∉ Path.segments start)
    (areFiles : ∀ passed ∈ system.passed start,
      system.has passed configFileName = system.hasConfig passed) :
    system.Answers (system.route start) (system.findConfig start) ↔
      ∀ found, system.IsNearest (system.route start) found → system.origin start <+: found := by
  have isRoute := @route_eq system start
  rw [Path.routeFrom_names fun _ isStep => isName_of_mem_steps noParent isStep] at isRoute
  rw [answers_iff isDirectory, firstNamed_eq_firstConfig areFiles, Option.ext_iff,
    passed_eq_map noParent]
  apply forall_congr'
  intro found
  rw [firstConfig_eq_some_iff, ancestors_eq_some_iff, ← isRoute]
  exact and_iff_right_iff_imp

/-- The search for a configuration file comes to an end.  Its answer is right just if the first of
the places that the path goes through which has something with the name is the first of the places
above the directory which has a file with it.  Without `..`, and without a directory of that name on
the way, this is so just if the path is absolute or the nearest configuration file is not above the
current directory. -/
theorem findConfig_answers_iff (system : FileSystem) {start : String}
    {entries : List (String × FileTree)}
    (isDirectory : system.lookup start = .ok (.directory entries)) :
    (system.findConfig start =
      if system.holds (Path.join start configFileName) then some (Path.join start configFileName)
      else if system.holds (Path.join start repositoryMark) then none
      else (Path.parent? start).bind system.findConfig) ∧
      (system.Answers (system.route start) (system.findConfig start) ↔
        system.firstNamed (system.passed start) =
          system.firstConfig (system.route start).inits.reverse) ∧
      (".." ∉ Path.segments start →
        (∀ passed ∈ system.passed start,
          system.has passed configFileName = system.hasConfig passed) →
        (system.Answers (system.route start) (system.findConfig start) ↔
          Path.isAbsolute start = true ∨
            ∀ found, system.IsNearest (system.route start) found → system.here <+: found)) := by
  refine ⟨searchConfig_eq, answers_iff isDirectory, ?_⟩
  intro noParent areFiles
  rw [answers_iff_of_no_parent isDirectory noParent areFiles, origin, before]
  by_cases isAbsolute : Path.isAbsolute start = true
  · simp [isAbsolute, Path.routeFrom]
  · simp [isAbsolute, here]

section Missed

/-- A project without a configuration file in a directory with one. -/
def nestedProject : FileSystem :=
  { root := .directory [("home", .directory
      [(configFileName, .file (.text "\x7b\x7d")), ("project", .directory [])])]
    current := ["home", "project"] }

/-- A project with a configuration file and a directory in which a directory has its name. -/
def occupiedProject : FileSystem :=
  { root := .directory
      [(configFileName, .file (.text "\x7b\x7d")),
        ("src", .directory [(configFileName, .directory [])])]
    current := [] }

theorem lookup_nestedProject : nestedProject.lookup "." = .ok (.directory []) := by
  rw [lookup_eq_follow _ (by simp)]
  rfl

theorem lookup_occupiedProject :
    occupiedProject.lookup "src" = .ok (.directory [(configFileName, .directory [])]) := by
  rw [lookup_eq_follow _ (by simp)]
  rfl

theorem route_missed :
    nestedProject.route "." = ["home", "project"] ∧ occupiedProject.route "src" = ["src"] := by
  simp only [route, Path.pieces, Path.segments_eq_map]
  decide +kernel

/-- The configuration file above the current directory is not found, and a directory with its name
is taken for one. -/
theorem not_answers_missed :
    ¬nestedProject.Answers ["home", "project"] (nestedProject.findConfig ".") ∧
      ¬occupiedProject.Answers ["src"] (occupiedProject.findConfig "src") := by
  rw [← route_missed.1, ← route_missed.2]
  constructor
  · have noParent : ".." ∉ Path.segments "." := by
      rw [Path.segments_eq_map]
      decide +kernel
    have isNearest : nestedProject.IsNearest (nestedProject.route ".") ["home"] := by
      rw [route_missed.1]
      exact ancestors_eq_some_iff.mp rfl
    have areFiles : ∀ passed ∈ nestedProject.passed ".",
        nestedProject.has passed configFileName = nestedProject.hasConfig passed := by
      rw [passed, Path.steps, Path.segments_eq_map]
      decide +kernel
    rw [(findConfig_answers_iff nestedProject lookup_nestedProject).2.2 noParent areFiles]
    intro isRight
    cases isRight with
    | inl isAbsolute => exact absurd isAbsolute (by simp [Path.isAbsolute])
    | inr isInside => exact absurd (isInside _ isNearest) (by decide +kernel)
  · obtain ⟨_, isRight, _⟩ := findConfig_answers_iff occupiedProject lookup_occupiedProject
    rw [isRight, route_missed.2, passed, Path.steps, Path.segments_eq_map]
    decide +kernel

end Missed

end FileSystem

end StoreLint
