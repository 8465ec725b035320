import Mathlib.Tactic.MkIffOfInductiveProp
import StoreLint.Config.Decode
import StoreLint.Proofs.Rule.Findings

/-!
# The members of a configuration

An object is read member by member, and each member fills one field.  On the whole, a
field is read from the only member with one of its names, and has its default if there
is none (`Sets`).  So reading an object succeeds just if every member has a name that it
may have and each field is set by the members; in which order they stand does not matter
(`sections_map_iff`, `options_map_iff`, `config_map_iff`).
-/

namespace StoreLint.Decode

/-- The values of the members with one of the names. -/
def valuesOf (names : List String) (members : List (Option String × Reading)) : List Reading :=
  (members.filter fun member => member.1 ∈ names.map some).map Prod.snd

/-- What a field is after the members, if it was read as `read` before them. -/
inductive Reads {α : Type} (names : List String) (decode : Reading → Except ConfigError α)
    (members : List (Option String × Reading)) : (read result : Option α) → Prop where
  | kept {read : Option α} (absent : valuesOf names members = []) :
      Reads names decode members read read
  | taken {reading : Reading} {value : α} (once : valuesOf names members = [reading])
      (decodes : decode reading = .ok value) : Reads names decode members none (some value)

/-- The value that the members give to a field with a default. -/
def Sets {α : Type} (names : List String) (decode : Reading → Except ConfigError α)
    (members : List (Option String × Reading)) (default value : α) : Prop :=
  ∃ result, Reads names decode members none result ∧ value = result.getD default

section Fields

variable {α : Type} {names : List String} {decode : Reading → Except ConfigError α}
  {members others : List (Option String × Reading)} {member : Option String × Reading}
  {read result : Option α} {default value : α}

theorem valuesOf_cons_of_mem (named : member.1 ∈ names.map some) :
    valuesOf names (member :: members) = member.2 :: valuesOf names members := by
  rw [valuesOf, List.filter_cons_of_pos (by simpa using named), List.map_cons, valuesOf]

theorem valuesOf_cons_of_not_mem (other : member.1 ∉ names.map some) :
    valuesOf names (member :: members) = valuesOf names members := by
  rw [valuesOf, List.filter_cons_of_neg (by simpa using other), valuesOf]

theorem fresh_eq_ok_iff {name : String} {reading : Reading} :
    fresh name read decode reading = .ok result ↔
      read = none ∧ ∃ value, decode reading = .ok value ∧ result = some value := by
  cases read with
  | some value => simp [fresh]
  | none =>
      rw [fresh, bind_eq_ok_iff]
      simp [pure, Except.pure, eq_comm]

theorem reads_nil_iff : Reads names decode [] read result ↔ result = read := by
  constructor
  · intro reads
    cases reads with
    | kept => rfl
    | taken once => cases once
  · rintro rfl
    exact .kept rfl

theorem Reads.of_valuesOf_eq (reads : Reads names decode members read result)
    (same : valuesOf names members = valuesOf names others) :
    Reads names decode others read result := by
  cases reads with
  | kept absent => exact .kept (same ▸ absent)
  | taken once decodes => exact .taken (same ▸ once) decodes

/-- A field is read from the first members and then from the others. -/
theorem reads_append_iff : Reads names decode (members ++ others) read result ↔
    ∃ middle, Reads names decode members read middle ∧ Reads names decode others middle result := by
  have values : valuesOf names (members ++ others) =
      valuesOf names members ++ valuesOf names others := by
    simp [valuesOf]
  constructor
  · intro reads
    cases reads with
    | kept absent =>
        rw [values, List.append_eq_nil_iff] at absent
        exact ⟨_, .kept absent.1, .kept absent.2⟩
    | taken once decodes =>
        -- The only value stands among the first members or among the others.
        rw [values, List.append_eq_singleton_iff] at once
        rcases once with ⟨absent, once⟩ | ⟨once, absent⟩
        · exact ⟨_, .kept absent, .taken once decodes⟩
        · exact ⟨_, .taken once decodes, .kept absent⟩
  · rintro ⟨middle, first, second⟩
    cases first with
    | kept absent => exact second.of_valuesOf_eq (by rw [values, absent, List.nil_append])
    | taken once decodes =>
        cases second with
        | kept absent => exact .taken (by rw [values, once, absent, List.append_nil]) decodes

theorem reads_other_iff (other : member.1 ∉ names.map some) :
    Reads names decode [member] read result ↔ result = read := by
  have values : valuesOf names [member] = valuesOf names [] := valuesOf_cons_of_not_mem other
  have same : Reads names decode [member] read result ↔ Reads names decode [] read result :=
    ⟨fun reads => reads.of_valuesOf_eq values, fun reads => reads.of_valuesOf_eq values.symm⟩
  exact same.trans reads_nil_iff

/-- A member with a name of the field is taken if none was before. -/
theorem reads_named_iff (named : member.1 ∈ names.map some) (name : String) :
    Reads names decode [member] read result ↔ fresh name read decode member.2 = .ok result := by
  have values : valuesOf names [member] = [member.2] := valuesOf_cons_of_mem named
  rw [fresh_eq_ok_iff]
  constructor
  · intro reads
    cases reads with
    | kept absent => simp [values] at absent
    | taken once decodes =>
        rw [values, List.cons.injEq] at once
        obtain ⟨rfl, _⟩ := once
        exact ⟨rfl, _, decodes, rfl⟩
  · rintro ⟨rfl, value, decodes, rfl⟩
    exact .taken values decodes

/-- A member with a name of the field changes that field. -/
theorem update_eq_ok_iff (names : List String) {σ : Type} {name : String}
    {put : Option α → σ} {next : σ} (named : member.1 ∈ names.map some) :
    (fresh name read decode member.2 >>= fun field => pure (put field)) = .ok next ↔
      ∃ field, Reads names decode [member] read field ∧ next = put field := by
  rw [bind_eq_ok_iff]
  simp only [reads_named_iff named name, pure, Except.pure, Except.ok.injEq, eq_comm]

theorem Sets.of_valuesOf_eq (sets : Sets names decode members default value)
    (same : valuesOf names members = valuesOf names others) :
    Sets names decode others default value := by
  obtain ⟨result, reads, isValue⟩ := sets
  exact ⟨result, reads.of_valuesOf_eq same, isValue⟩

/-- The order of the members does not matter. -/
theorem Sets.perm (sets : Sets names decode members default value)
    (isPerm : members.Perm others) : Sets names decode others default value := by
  obtain ⟨result, reads, isValue⟩ := sets
  have values : (valuesOf names members).Perm (valuesOf names others) :=
    (isPerm.filter _).map _
  refine ⟨result, ?_, isValue⟩
  cases reads with
  | kept absent => exact .kept (absent ▸ values).nil_eq.symm
  | taken once decodes => exact .taken (List.singleton_perm.mp (once ▸ values)).symm decodes

/-- A member of the field is the only one and is read. -/
theorem sets_cons_iff (named : member.1 ∈ names.map some) :
    Sets names decode (member :: members) default value ↔
      valuesOf names members = [] ∧ decode member.2 = .ok value := by
  have values : valuesOf names (member :: members) = member.2 :: valuesOf names members :=
    valuesOf_cons_of_mem named
  constructor
  · rintro ⟨result, reads, rfl⟩
    cases reads with
    | kept absent => simp [values] at absent
    | taken once decodes =>
        rw [values, List.cons.injEq] at once
        obtain ⟨rfl, absent⟩ := once
        exact ⟨absent, decodes⟩
  · rintro ⟨absent, decodes⟩
    exact ⟨some value, .taken (by rw [values, absent]) decodes, rfl⟩

/-- A member that is read as the default can be left out. -/
theorem Sets.of_cons_default (sets : Sets names decode (member :: members) default value)
    (isDefault : member.1 ∈ names.map some → decode member.2 = .ok default) :
    Sets names decode members default value := by
  by_cases named : member.1 ∈ names.map some
  · obtain ⟨absent, decodes⟩ := (sets_cons_iff named).mp sets
    obtain rfl : value = default := Except.ok.inj (decodes.symm.trans (isDefault named))
    exact ⟨none, .kept absent, rfl⟩
  · exact sets.of_valuesOf_eq (valuesOf_cons_of_not_mem named)

/-- A member can be replaced by one of the same field that is read as the same. -/
theorem Sets.replace {replaced : Option String × Reading}
    (sets : Sets names decode (member :: members) default value)
    (sameField : member.1 ∈ names.map some ↔ replaced.1 ∈ names.map some)
    (sameValue : member.1 ∈ names.map some → ∀ {value}, decode member.2 = .ok value →
      decode replaced.2 = .ok value) :
    Sets names decode (replaced :: members) default value := by
  by_cases named : member.1 ∈ names.map some
  · obtain ⟨absent, decodes⟩ := (sets_cons_iff named).mp sets
    exact (sets_cons_iff (sameField.mp named)).mpr ⟨absent, sameValue named decodes⟩
  · refine sets.of_valuesOf_eq ?_
    rw [valuesOf_cons_of_not_mem named, valuesOf_cons_of_not_mem (mt sameField.mpr named)]

theorem Sets.exists_decode (sets : Sets names decode members default value)
    (isMember : member ∈ members) (named : member.1 ∈ names.map some) :
    ∃ decoded, decode member.2 = .ok decoded := by
  obtain ⟨before, after, rfl⟩ := List.append_of_mem isMember
  exact ⟨value, ((sets_cons_iff named).mp (sets.perm List.perm_middle)).2⟩

end Fields

theorem ifClosed_eq_ok_iff {α : Type} {closed : Bool} {value result : α} :
    ifClosed closed value = .ok result ↔ closed = true ∧ result = value := by
  cases closed with
  | false => simp [ifClosed]
  | true => simp [ifClosed, eq_comm]

/-- What every single step does, a run over all members does. -/
theorem foldlM_eq_ok_iff {σ μ : Type} {step : σ → μ → Except ConfigError σ}
    {Fills : List μ → σ → σ → Prop}
    (nil_iff : ∀ {read next}, Fills [] read next ↔ next = read)
    (append_iff : ∀ {first second read next}, Fills (first ++ second) read next ↔
      ∃ middle, Fills first read middle ∧ Fills second middle next)
    (step_iff : ∀ {member read next}, step read member = .ok next ↔ Fills [member] read next)
    {members : List μ} {read next : σ} :
    members.foldlM step read = .ok next ↔ Fills members read next := by
  induction members generalizing read with
  | nil =>
      rw [List.foldlM_nil, nil_iff]
      simp [pure, Except.pure, eq_comm]
  | cons member members induction =>
      rw [List.foldlM_cons, bind_eq_ok_iff, ← List.singleton_append, append_iff]
      simp only [step_iff, induction]

/-! ## Sections -/

/-- The names that a member of a choice of sections may have. -/
def sectionsNames : List String := ["VueProps", "VuexActions", "VuexAction", "VuexState"]

/-- The members lead from one reading of a choice of sections to another. -/
@[mk_iff]
structure FillsSections (members : List (Option String × Reading))
    (read next : PartialSections) : Prop where
  known : ∀ member ∈ members, member.1 ∈ sectionsNames.map some
  props : Reads ["VueProps"] boolean members read.props next.props
  actions : Reads ["VuexActions", "VuexAction"] boolean members read.actions next.actions
  state : Reads ["VuexState"] boolean members read.state next.state

theorem sectionsMember_eq_ok_iff {member : Option String × Reading}
    {read next : PartialSections} :
    sectionsMember read member = .ok next ↔ FillsSections [member] read next := by
  obtain ⟨name?, reading⟩ := member
  obtain ⟨props, actions, state⟩ := next
  rw [fillsSections_iff]
  unfold sectionsMember
  -- A member is taken by the field that it names, and the other fields stay.
  split
  next isNone =>
    cases isNone
    simp [sectionsNames]
  next isProps =>
    cases isProps
    rw [update_eq_ok_iff ["VueProps"] (by simp)]
    simp (disch := simp) only [reads_other_iff]
    grind [sectionsNames]
  next isActions =>
    cases isActions
    rw [update_eq_ok_iff ["VuexActions", "VuexAction"] (by simp)]
    simp (disch := simp) only [reads_other_iff]
    grind [sectionsNames]
  next isAction =>
    cases isAction
    rw [update_eq_ok_iff ["VuexActions", "VuexAction"] (by simp)]
    simp (disch := simp) only [reads_other_iff]
    grind [sectionsNames]
  next isState =>
    cases isState
    rw [update_eq_ok_iff ["VuexState"] (by simp)]
    simp (disch := simp) only [reads_other_iff]
    grind [sectionsNames]
  next name notProps notActions notAction notState isName =>
    cases isName
    simp_all [sectionsNames]

theorem fillsSections_nil_iff {read next : PartialSections} :
    FillsSections [] read next ↔ next = read := by
  obtain ⟨props, actions, state⟩ := next
  obtain ⟨readProps, readActions, readState⟩ := read
  simp [fillsSections_iff, reads_nil_iff]

theorem fillsSections_append_iff {first second : List (Option String × Reading)}
    {read next : PartialSections} :
    FillsSections (first ++ second) read next ↔
      ∃ middle, FillsSections first read middle ∧ FillsSections second middle next := by
  constructor
  · rintro ⟨known, props, actions, state⟩
    obtain ⟨knownFirst, knownSecond⟩ := List.forall_mem_append.mp known
    obtain ⟨middleProps, firstProps, secondProps⟩ := reads_append_iff.mp props
    obtain ⟨middleActions, firstActions, secondActions⟩ := reads_append_iff.mp actions
    obtain ⟨middleState, firstState, secondState⟩ := reads_append_iff.mp state
    exact ⟨⟨middleProps, middleActions, middleState⟩,
      ⟨knownFirst, firstProps, firstActions, firstState⟩,
      ⟨knownSecond, secondProps, secondActions, secondState⟩⟩
  · rintro ⟨middle, atFirst, atSecond⟩
    exact ⟨List.forall_mem_append.mpr ⟨atFirst.known, atSecond.known⟩,
      reads_append_iff.mpr ⟨_, atFirst.props, atSecond.props⟩,
      reads_append_iff.mpr ⟨_, atFirst.actions, atSecond.actions⟩,
      reads_append_iff.mpr ⟨_, atFirst.state, atSecond.state⟩⟩

/-- When an object is read as a choice of sections. -/
structure SetsSections (members : List (Option String × Reading)) (value : DocSections) :
    Prop where
  known : ∀ member ∈ members, member.1 ∈ sectionsNames.map some
  props : Sets ["VueProps"] boolean members true value.props
  actions : Sets ["VuexActions", "VuexAction"] boolean members false value.actions
  state : Sets ["VuexState"] boolean members false value.state

theorem sections_map_iff {members : List (Option String × Reading)} {closed : Bool}
    {value : DocSections} :
    sections (.map members closed) = .ok value ↔ closed = true ∧ SetsSections members value := by
  rw [sections, bind_eq_ok_iff]
  simp only [ifClosed_eq_ok_iff, foldlM_eq_ok_iff fillsSections_nil_iff fillsSections_append_iff
    sectionsMember_eq_ok_iff]
  constructor
  · rintro ⟨read, fills, isClosed, rfl⟩
    exact ⟨isClosed, fills.known, ⟨_, fills.props, rfl⟩, ⟨_, fills.actions, rfl⟩,
      ⟨_, fills.state, rfl⟩⟩
  · rintro ⟨isClosed, known, ⟨props, readsProps, isProps⟩, ⟨actions, readsActions, isActions⟩,
      ⟨state, readsState, isState⟩⟩
    refine ⟨⟨props, actions, state⟩, ⟨known, readsProps, readsActions, readsState⟩, isClosed, ?_⟩
    rw [← isProps, ← isActions, ← isState]

/-! ## Documentation options -/

/-- The names that a member of the documentation options may have. -/
def optionsNames : List String := ["require"]

/-- The members lead from one reading of the documentation options to another. -/
@[mk_iff]
structure FillsOptions (members : List (Option String × Reading))
    (read next : Option DocSections) : Prop where
  known : ∀ member ∈ members, member.1 ∈ optionsNames.map some
  require : Reads ["require"] sections members read next

theorem optionsMember_eq_ok_iff {member : Option String × Reading}
    {read next : Option DocSections} :
    optionsMember read member = .ok next ↔ FillsOptions [member] read next := by
  obtain ⟨name?, reading⟩ := member
  rw [fillsOptions_iff]
  unfold optionsMember
  split
  next isNone =>
    cases isNone
    simp [optionsNames]
  next isRequire =>
    cases isRequire
    rw [reads_named_iff (by simp) "require"]
    simp [optionsNames]
  next name notRequire isName =>
    cases isName
    simp_all [optionsNames]

theorem fillsOptions_nil_iff {read next : Option DocSections} :
    FillsOptions [] read next ↔ next = read := by
  simp [fillsOptions_iff, reads_nil_iff]

theorem fillsOptions_append_iff {first second : List (Option String × Reading)}
    {read next : Option DocSections} :
    FillsOptions (first ++ second) read next ↔
      ∃ middle, FillsOptions first read middle ∧ FillsOptions second middle next := by
  simp only [fillsOptions_iff, reads_append_iff, List.forall_mem_append]
  grind

/-- When an object is read as the documentation options. -/
structure SetsOptions (members : List (Option String × Reading)) (value : DocSections) :
    Prop where
  known : ∀ member ∈ members, member.1 ∈ optionsNames.map some
  require : Sets ["require"] sections members {} value

theorem options_map_iff {members : List (Option String × Reading)} {closed : Bool}
    {value : DocSections} :
    options (.map members closed) = .ok value ↔ closed = true ∧ SetsOptions members value := by
  rw [options, bind_eq_ok_iff]
  simp only [ifClosed_eq_ok_iff, foldlM_eq_ok_iff fillsOptions_nil_iff fillsOptions_append_iff
    optionsMember_eq_ok_iff]
  constructor
  · rintro ⟨read, fills, isClosed, isValue⟩
    exact ⟨isClosed, fills.known, _, fills.require, isValue⟩
  · rintro ⟨isClosed, known, read, reads, isValue⟩
    exact ⟨read, ⟨known, reads⟩, isClosed, isValue⟩

/-! ## Configurations -/

/-- The names of the members that a configuration knows. -/
def configNames : List String := ["includes", "ignores", "ignoreTestFiles", "requireJsdoc"]

/-- A member that a configuration reads, or one that it can skip. -/
def Passes (member : Option String × Reading) : Prop :=
  member.1 ∈ configNames.map some ∨ member.1 ≠ none ∧ member.2.isComplete = true

/-- The members lead from one reading of a configuration to another. -/
@[mk_iff]
structure FillsConfig (members : List (Option String × Reading))
    (read next : PartialConfig) : Prop where
  passes : ∀ member ∈ members, Passes member
  includes : Reads ["includes"] strings members read.includes next.includes
  ignores : Reads ["ignores"] strings members read.ignores next.ignores
  ignoreTestFiles :
    Reads ["ignoreTestFiles"] boolean members read.ignoreTestFiles next.ignoreTestFiles
  requireJsdoc : Reads ["requireJsdoc"] options members read.sections next.sections

theorem configMember_eq_ok_iff {member : Option String × Reading} {read next : PartialConfig} :
    configMember read member = .ok next ↔ FillsConfig [member] read next := by
  obtain ⟨name?, reading⟩ := member
  obtain ⟨includes, ignores, ignoreTestFiles, options⟩ := next
  rw [fillsConfig_iff]
  unfold configMember
  split
  next isNone =>
    cases isNone
    simp [Passes, configNames]
  next isIncludes =>
    cases isIncludes
    rw [update_eq_ok_iff ["includes"] (by simp)]
    simp (disch := simp) only [reads_other_iff]
    grind [Passes, configNames]
  next isIgnores =>
    cases isIgnores
    rw [update_eq_ok_iff ["ignores"] (by simp)]
    simp (disch := simp) only [reads_other_iff]
    grind [Passes, configNames]
  next isIgnoreTestFiles =>
    cases isIgnoreTestFiles
    rw [update_eq_ok_iff ["ignoreTestFiles"] (by simp)]
    simp (disch := simp) only [reads_other_iff]
    grind [Passes, configNames]
  next isRequireJsdoc =>
    cases isRequireJsdoc
    rw [update_eq_ok_iff ["requireJsdoc"] (by simp)]
    simp (disch := simp) only [reads_other_iff]
    grind [Passes, configNames]
  next name notIncludes notIgnores notIgnoreTestFiles notRequireJsdoc isName =>
    cases isName
    -- The member is skipped, so the text of its value has to be complete.
    simp (disch := simp_all) only [reads_other_iff]
    obtain ⟨readIncludes, readIgnores, readIgnoreTestFiles, readOptions⟩ := read
    by_cases isComplete : reading.isComplete = true
    · have passes : Passes (some name, reading) := .inr ⟨Option.some_ne_none name, isComplete⟩
      simp [isComplete, passes, eq_comm]
    · simp_all [Passes, configNames]

theorem fillsConfig_nil_iff {read next : PartialConfig} :
    FillsConfig [] read next ↔ next = read := by
  obtain ⟨includes, ignores, ignoreTestFiles, options⟩ := next
  obtain ⟨readIncludes, readIgnores, readIgnoreTestFiles, readOptions⟩ := read
  simp [fillsConfig_iff, reads_nil_iff]

theorem fillsConfig_append_iff {first second : List (Option String × Reading)}
    {read next : PartialConfig} :
    FillsConfig (first ++ second) read next ↔
      ∃ middle, FillsConfig first read middle ∧ FillsConfig second middle next := by
  constructor
  · rintro ⟨passes, includes, ignores, ignoreTestFiles, requireJsdoc⟩
    obtain ⟨passFirst, passSecond⟩ := List.forall_mem_append.mp passes
    obtain ⟨middleIncludes, firstIncludes, secondIncludes⟩ := reads_append_iff.mp includes
    obtain ⟨middleIgnores, firstIgnores, secondIgnores⟩ := reads_append_iff.mp ignores
    obtain ⟨middleTests, firstTests, secondTests⟩ := reads_append_iff.mp ignoreTestFiles
    obtain ⟨middleOptions, firstOptions, secondOptions⟩ := reads_append_iff.mp requireJsdoc
    exact ⟨⟨middleIncludes, middleIgnores, middleTests, middleOptions⟩,
      ⟨passFirst, firstIncludes, firstIgnores, firstTests, firstOptions⟩,
      ⟨passSecond, secondIncludes, secondIgnores, secondTests, secondOptions⟩⟩
  · rintro ⟨middle, atFirst, atSecond⟩
    exact ⟨List.forall_mem_append.mpr ⟨atFirst.passes, atSecond.passes⟩,
      reads_append_iff.mpr ⟨_, atFirst.includes, atSecond.includes⟩,
      reads_append_iff.mpr ⟨_, atFirst.ignores, atSecond.ignores⟩,
      reads_append_iff.mpr ⟨_, atFirst.ignoreTestFiles, atSecond.ignoreTestFiles⟩,
      reads_append_iff.mpr ⟨_, atFirst.requireJsdoc, atSecond.requireJsdoc⟩⟩

/-- When an object is read as a configuration. -/
structure SetsConfig (members : List (Option String × Reading)) (value : Config) : Prop where
  passes : ∀ member ∈ members, Passes member
  includes : Sets ["includes"] strings members [] value.includes
  ignores : Sets ["ignores"] strings members defaultIgnores value.ignores
  ignoreTestFiles : Sets ["ignoreTestFiles"] boolean members true value.ignoreTestFiles
  requireJsdoc : Sets ["requireJsdoc"] options members {} value.sections

theorem config_map_iff {members : List (Option String × Reading)} {closed : Bool}
    {value : Config} :
    config (.map members closed) = .ok value ↔ closed = true ∧ SetsConfig members value := by
  rw [config, bind_eq_ok_iff]
  simp only [ifClosed_eq_ok_iff, foldlM_eq_ok_iff fillsConfig_nil_iff fillsConfig_append_iff
    configMember_eq_ok_iff]
  constructor
  · rintro ⟨read, fills, isClosed, rfl⟩
    exact ⟨isClosed, fills.passes, ⟨_, fills.includes, rfl⟩, ⟨_, fills.ignores, rfl⟩,
      ⟨_, fills.ignoreTestFiles, rfl⟩, ⟨_, fills.requireJsdoc, rfl⟩⟩
  · rintro ⟨isClosed, passes, ⟨includes, readsIncludes, isIncludes⟩,
      ⟨ignores, readsIgnores, isIgnores⟩, ⟨tests, readsTests, isTests⟩,
      ⟨options, readsOptions, isOptions⟩⟩
    refine ⟨⟨includes, ignores, tests, options⟩,
      ⟨passes, readsIncludes, readsIgnores, readsTests, readsOptions⟩, isClosed, ?_⟩
    rw [← isIncludes, ← isIgnores, ← isTests, ← isOptions]

end StoreLint.Decode
