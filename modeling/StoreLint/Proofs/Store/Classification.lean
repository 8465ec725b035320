import Mathlib.Data.List.Permutation
import StoreLint.Store.Section

/-!
# What the names of a literal say

An object literal is taken for a store or a component by the bag of its names alone, so
the answer is the same for all its entries and in every order.  A store stays a store
with more names of its vocabulary and is none with any other entry, a component stays a
component whatever is added, and nothing is both (`classified_by_names`).
-/

namespace StoreLint

namespace Node

/-- The key of an entry that is written with one. -/
def entryKey? : Node → Option Node
  | .keyValue key _ => some key
  | .getter _ key _ _ => some key
  | .setter _ key _ _ _ => some key
  | .methodEntry key _ => some key
  | _ => none

/-- The spelling of the entry fixes its name. -/
inductive HasName : Node → String → Prop where
  | shorthand (id : Identifier) : HasName (.shorthand id) id.name
  | initialized (span : Span) (id : Identifier) (value : Node) :
      HasName (.initialized span id value) id.name
  | identifierKey {entry : Node} {span : Span} {name : String}
      (hasKey : entry.entryKey? = some (.plainKey span (.identifier name))) : HasName entry name
  | stringKey {entry : Node} {span : Span} {name : String}
      (hasKey : entry.entryKey? = some (.plainKey span (.string (some name)))) :
      HasName entry name

/-- The entry has a name of the vocabulary. -/
def NamedIn (vocabulary : List String) (entry : Node) : Prop :=
  ∃ name ∈ vocabulary, entry.HasName name

/-- The entries that have no name of the vocabulary. -/
inductive IsForeign (vocabulary : List String) : Node → Prop where
  | spread (span : Span) (inner : Node) : IsForeign vocabulary (.spread span inner)
  | computed {entry : Node} {span : Span} {inner : Node}
      (hasKey : entry.entryKey? = some (.computedKey span inner)) : IsForeign vocabulary entry
  | number {entry : Node} {span : Span}
      (hasKey : entry.entryKey? = some (.plainKey span .unnamed)) : IsForeign vocabulary entry
  /-- A string key with half of a surrogate pair. -/
  | broken {entry : Node} {span : Span}
      (hasKey : entry.entryKey? = some (.plainKey span (.string none))) :
      IsForeign vocabulary entry
  | other {entry : Node} {name : String} (hasName : entry.HasName name)
      (unknown : name ∉ vocabulary) : IsForeign vocabulary entry

theorem entryName?_of_entryKey? {entry key : Node} (hasKey : entry.entryKey? = some key) :
    entry.entryName? = key.keyName? := by
  cases entry <;> simp_all [entryKey?, entryName?]

theorem keyName?_eq_some_iff {key : Node} {name : String} :
    key.keyName? = some name ↔ ∃ span, key = .plainKey span (.identifier name) ∨
      key = .plainKey span (.string (some name)) := by
  constructor
  · intro isName
    unfold keyName? at isName
    split at isName
    next span text =>
      cases text with
      | identifier spelled => exact ⟨span, .inl (by simp_all [KeyText.name?])⟩
      | string value => exact ⟨span, .inr (by simp_all [KeyText.name?])⟩
      | unnamed => cases isName
    next => cases isName
  · rintro ⟨span, rfl | rfl⟩ <;> rfl

theorem entryName?_eq_some_iff {entry : Node} {name : String} :
    entry.entryName? = some name ↔ entry.HasName name := by
  constructor
  · intro isName
    cases hasKey : entry.entryKey? with
    | some key =>
        rw [entryName?_of_entryKey? hasKey, keyName?_eq_some_iff] at isName
        obtain ⟨span, rfl | rfl⟩ := isName
        · exact .identifierKey hasKey
        · exact .stringKey hasKey
    | none =>
        -- Without a key only a name by itself is left.
        cases entry with
        | shorthand id => cases isName; exact .shorthand id
        | initialized span id value => cases isName; exact .initialized span id value
        | _ => simp_all [entryName?, entryKey?]
  · intro hasName
    cases hasName with
    | shorthand id => rfl
    | initialized span id value => rfl
    | identifierKey hasKey => exact entryName?_of_entryKey? hasKey
    | stringKey hasKey => exact entryName?_of_entryKey? hasKey

theorem namedIn_iff {vocabulary : List String} {entry : Node} :
    entry.NamedIn vocabulary ↔ isNamedIn vocabulary entry.entryName? = true := by
  cases isName : entry.entryName? with
  | none =>
      have nameless : ∀ name, ¬entry.HasName name := by
        intro name hasName
        simp [entryName?_eq_some_iff.mpr hasName] at isName
      simp [NamedIn, nameless, isNamedIn]
  | some name =>
      have unique : ∀ other, entry.HasName other ↔ name = other := by
        intro other
        rw [← entryName?_eq_some_iff, isName, Option.some.injEq]
      simp [NamedIn, unique, isNamedIn]

theorem IsForeign.not_namedIn {vocabulary : List String} {entry : Node}
    (isForeign : entry.IsForeign vocabulary) : ¬entry.NamedIn vocabulary := by
  rw [namedIn_iff]
  cases isForeign with
  | spread span inner => simp [entryName?, isNamedIn]
  | computed hasKey => simp [entryName?_of_entryKey? hasKey, keyName?, isNamedIn]
  | number hasKey => simp [entryName?_of_entryKey? hasKey, keyName?, KeyText.name?, isNamedIn]
  | broken hasKey => simp [entryName?_of_entryKey? hasKey, keyName?, KeyText.name?, isNamedIn]
  | other hasName unknown => simp [entryName?_eq_some_iff.mpr hasName, isNamedIn, unknown]

end Node

/-! ## Bags of names -/

theorem isAmbiguous_iff {keys : List (Option String)} :
    isAmbiguous keys = true ↔ keys.Perm [some "state", some "getters"] := by
  simp [isAmbiguous, List.perm_pair]

theorem countMatching_eq_countP (vocabulary : List String) (keys : List (Option String)) :
    countMatching vocabulary keys = keys.countP (isNamedIn vocabulary) :=
  List.countP_eq_length_filter.symm

theorem isStore_iff {keys : List (Option String)} :
    isStore keys = true ↔ 2 ≤ keys.length ∧ (∀ key ∈ keys, isNamedIn storeKeys key = true) ∧
      ¬keys.Perm [some "state", some "getters"] := by
  have counted : (∀ key ∈ keys, isNamedIn storeKeys key = true) →
      countMatching storeKeys keys = keys.length := by
    rw [countMatching_eq_countP]
    exact List.countP_eq_length.mpr
  rw [← isAmbiguous_iff, isStore, minMatchingKeys]
  simp only [Bool.and_eq_true, Bool.not_eq_true', decide_eq_true_eq, List.all_eq_true,
    Bool.not_eq_true]
  constructor
  · rintro ⟨⟨unambiguous, named⟩, enough⟩
    exact ⟨counted named ▸ enough, named, unambiguous⟩
  · rintro ⟨enough, named, unambiguous⟩
    exact ⟨⟨unambiguous, named⟩, (counted named).symm ▸ enough⟩

theorem isStore_perm {keys others : List (Option String)} (reordered : keys.Perm others) :
    isStore keys = isStore others := by
  rw [Bool.eq_iff_iff, isStore_iff, isStore_iff, reordered.length_eq]
  have sameNames : (∀ key ∈ keys, isNamedIn storeKeys key = true) ↔
      ∀ key ∈ others, isNamedIn storeKeys key = true :=
    forall_congr' fun key => by rw [reordered.mem_iff]
  rw [sameNames, reordered.congr_left]

/-- More names of the vocabulary make at least three, which are never ambiguous. -/
theorem isStore_append {keys added : List (Option String)} (store : isStore keys = true)
    (named : ∀ key ∈ added, isNamedIn storeKeys key = true) : isStore (keys ++ added) = true := by
  obtain ⟨enough, all, unambiguous⟩ := isStore_iff.mp store
  cases added with
  | nil => rwa [List.append_nil]
  | cons key added =>
      refine isStore_iff.mpr ⟨?_, ?_, ?_⟩
      · rw [List.length_append]
        omega
      · intro other member
        exact (List.mem_append.mp member).elim (all other) (named other)
      · intro ambiguous
        have three := ambiguous.length_eq
        simp only [List.length_append, List.length_cons, List.length_nil] at three
        omega

theorem isComponent_perm {keys others : List (Option String)} (reordered : keys.Perm others) :
    isComponent keys = isComponent others := by
  rw [isComponent, isComponent, countMatching_eq_countP, countMatching_eq_countP,
    reordered.countP_eq]

theorem isComponent_append {keys : List (Option String)} (component : isComponent keys = true)
    (added : List (Option String)) : isComponent (keys ++ added) = true := by
  rw [isComponent, countMatching_eq_countP, decide_eq_true_eq] at component ⊢
  rw [List.countP_append]
  omega

/-- The two vocabularies have no name in common. -/
theorem not_isNamedIn_componentKeys {key : Option String}
    (named : isNamedIn storeKeys key = true) : isNamedIn componentKeys key = false := by
  cases key with
  | none => rfl
  | some name =>
      have apart : ∀ name ∈ storeKeys, componentKeys.contains name = false := by decide
      exact apart name (List.contains_iff_mem.mp named)

theorem not_isComponent_of_isStore {keys : List (Option String)} (store : isStore keys = true) :
    isComponent keys = false := by
  obtain ⟨_, named, _⟩ := isStore_iff.mp store
  have none : countMatching componentKeys keys = 0 := by
    rw [countMatching_eq_countP, List.countP_eq_zero]
    intro key member
    simp [not_isNamedIn_componentKeys (named key member)]
  simp [isComponent, none, minMatchingKeys]

/-! ## Entries of a literal -/

theorem siblings_of_mem_placedEntries {entries : List Node} {placed : PlacedEntry}
    (isEntry : placed ∈ Node.placedEntries entries) : placed.siblings = entries := by
  obtain ⟨entry, _, rfl⟩ := List.mem_map.mp isEntry
  rfl

theorem inStore_of_mem {entries : List Node} {placed : PlacedEntry}
    (isEntry : placed ∈ Node.placedEntries entries) :
    placed.inStore = isStore (entries.map Node.entryName?) := by
  rw [PlacedEntry.inStore, PlacedEntry.siblingKeys, siblings_of_mem_placedEntries isEntry]

theorem inComponent_of_mem {entries : List Node} {placed : PlacedEntry}
    (isEntry : placed ∈ Node.placedEntries entries) :
    placed.inComponent = isComponent (entries.map Node.entryName?) := by
  rw [PlacedEntry.inComponent, PlacedEntry.siblingKeys, siblings_of_mem_placedEntries isEntry]

theorem forall_isNamedIn_iff {vocabulary : List String} {entries : List Node} :
    (∀ key ∈ entries.map Node.entryName?, isNamedIn vocabulary key = true) ↔
      ∀ entry ∈ entries, entry.NamedIn vocabulary := by
  simp only [List.forall_mem_map, Node.namedIn_iff]

/-- The sections have different names, so an entry is in at most one of them. -/
theorem PlacedEntry.count_sections_le (placed : PlacedEntry) :
    [placed.isActions, placed.isState, placed.isGetters, placed.isProps].count true ≤ 1 := by
  simp only [isActions, isState, isGetters, isProps]
  generalize placed.inStore = store
  generalize placed.inComponent = component
  cases placed.entry.entryName? with
  | none => simp
  | some name =>
      by_cases isActions : name = "actions"
      · subst isActions
        revert store component
        decide
      · by_cases isState : name = "state"
        · subst isState
          revert store component
          decide
        · by_cases isGetters : name = "getters"
          · subst isGetters
            revert store component
            decide
          · have notActions : (some name == some "actions") = false := by simpa using isActions
            have notState : (some name == some "state") = false := by simpa using isState
            have notGetters : (some name == some "getters") = false := by simpa using isGetters
            rw [notActions, notState, notGetters]
            generalize (some name == some "props") = isProps
            revert store component isProps
            decide

/-- Whether the entries of a literal belong to a store or a component depends on the bag of its
names only.  In a store all entries have names of the vocabulary, at least two and not just `state`
and `getters`.  More such names keep it a store and any other entry makes it none; a component
stays one.  No entry belongs to both, or to more than one section. -/
theorem classified_by_names (entries : List Node) :
    (∀ reordered, entries.Perm reordered →
      ∀ placed ∈ Node.placedEntries entries, ∀ other ∈ Node.placedEntries reordered,
        placed.inStore = other.inStore ∧ placed.inComponent = other.inComponent) ∧
    (∀ placed ∈ Node.placedEntries entries, placed.inStore = true ↔
      2 ≤ entries.length ∧ (∀ entry ∈ entries, entry.NamedIn storeKeys) ∧
        ¬(entries.map Node.entryName?).Perm [some "state", some "getters"]) ∧
    (∀ added larger, (entries ++ added).Perm larger →
      ∀ placed ∈ Node.placedEntries entries, ∀ other ∈ Node.placedEntries larger,
        (placed.inStore = true → (∀ entry ∈ added, entry.NamedIn storeKeys) →
          other.inStore = true) ∧
        (∀ entry ∈ added, entry.IsForeign storeKeys → other.inStore = false) ∧
        (placed.inComponent = true → other.inComponent = true)) ∧
    ∀ placed ∈ Node.placedEntries entries,
      ¬(placed.inStore = true ∧ placed.inComponent = true) ∧
        [placed.isActions, placed.isState, placed.isGetters, placed.isProps].count true ≤ 1 := by
  refine ⟨?_, ?_, ?_, ?_⟩
  · intro reordered isPerm placed isEntry other isOther
    have names := isPerm.map Node.entryName?
    rw [inStore_of_mem isEntry, inStore_of_mem isOther, inComponent_of_mem isEntry,
      inComponent_of_mem isOther]
    exact ⟨isStore_perm names, isComponent_perm names⟩
  · intro placed isEntry
    rw [inStore_of_mem isEntry, isStore_iff, List.length_map, forall_isNamedIn_iff]
  · intro added larger isPerm placed isEntry other isOther
    have names := isPerm.map Node.entryName?
    rw [List.map_append] at names
    rw [inStore_of_mem isEntry, inStore_of_mem isOther, inComponent_of_mem isEntry,
      inComponent_of_mem isOther, ← isStore_perm names, ← isComponent_perm names]
    refine ⟨?_, ?_, ?_⟩
    · intro store named
      exact isStore_append store (forall_isNamedIn_iff.mpr named)
    · intro entry isAdded isForeign
      rw [← List.map_append, ← Bool.not_eq_true, isStore_iff, forall_isNamedIn_iff]
      rintro ⟨_, named, _⟩
      exact isForeign.not_namedIn (named entry (List.mem_append_right _ isAdded))
    · intro component
      exact isComponent_append component _
  · intro placed isEntry
    refine ⟨?_, placed.count_sections_le⟩
    rintro ⟨store, component⟩
    rw [PlacedEntry.inComponent, not_isComponent_of_isStore store] at component
    cases component

/-- The entry `name: {}` of a literal. -/
def sectionNamed (name : String) : Node :=
  .keyValue (.plainKey ⟨1, 2⟩ (.identifier name)) (.objectLiteral ⟨3, 5⟩ [])

theorem namedIn_sectionNamed {vocabulary : List String} {name : String}
    (member : name ∈ vocabulary) : (sectionNamed name).NamedIn vocabulary :=
  ⟨name, member, .identifierKey rfl⟩

/-- The literal with `state` and `actions` is a store.  It stays one with `getters` in front, and
is none with a spread. -/
theorem classified_by_names_growingStore :
    (∀ placed ∈ Node.placedEntries [sectionNamed "state", sectionNamed "actions"],
      placed.inStore = true) ∧
    (∀ placed ∈ Node.placedEntries
        [sectionNamed "getters", sectionNamed "state", sectionNamed "actions"],
      placed.inStore = true) ∧
    ∀ placed ∈ Node.placedEntries
        [sectionNamed "state", sectionNamed "actions",
          .spread ⟨6, 11⟩ (.identifier ⟨"ab", ⟨9, 11⟩⟩)],
      placed.inStore = false := by
  obtain ⟨_, inStore_iff, grows, _⟩ :=
    classified_by_names [sectionNamed "state", sectionNamed "actions"]
  have store : ∀ placed ∈ Node.placedEntries [sectionNamed "state", sectionNamed "actions"],
      placed.inStore = true := by
    intro placed isEntry
    refine (inStore_iff placed isEntry).mpr ⟨by decide, ?_, by decide⟩
    simp [namedIn_sectionNamed, storeKeys]
  have isState : ⟨sectionNamed "state", [sectionNamed "state", sectionNamed "actions"]⟩ ∈
      Node.placedEntries [sectionNamed "state", sectionNamed "actions"] :=
    List.mem_cons_self
  refine ⟨store, ?_, ?_⟩
  · intro placed isEntry
    obtain ⟨stays, _⟩ := grows [sectionNamed "getters"] _
      (List.perm_append_singleton _ _) _ isState placed isEntry
    exact stays (store _ isState) (by simp [namedIn_sectionNamed, storeKeys])
  · intro placed isEntry
    obtain ⟨_, ends, _⟩ := grows [.spread ⟨6, 11⟩ (.identifier ⟨"ab", ⟨9, 11⟩⟩)] _
      (.refl _) _ isState placed isEntry
    exact ends _ List.mem_cons_self (.spread _ _)

end StoreLint
