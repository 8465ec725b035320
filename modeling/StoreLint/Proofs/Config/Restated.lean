import Mathlib.Logic.Relation
import StoreLint.Proofs.Config.Members
import StoreLint.Proofs.Json.RoundTrip

/-!
# Saying the same configuration in other ways

A configuration that has been written as a document is read back from it.  It is also
read back from a document that leaves defaults out, orders the members in another way,
uses the other name of a member, or has further members at the top (`Restated`).  Below
the top a further member is an error (`HoldsUnknown`).
-/

namespace StoreLint

/-- The objects of a configuration document, from the outer to the inner one. -/
inductive ConfigLevel where
  | config
  | options
  | sections
deriving DecidableEq, Repr

/-- The names that the members of an object are known by. -/
def ConfigLevel.names : ConfigLevel → List String
  | .config => Decode.configNames
  | .options => Decode.optionsNames
  | .sections => Decode.sectionsNames

/-- The members of an object in the document of the default configuration. -/
def ConfigLevel.defaults : ConfigLevel → List (String × Json)
  | .config =>
      [("includes", Config.textsJson []), ("ignores", Config.textsJson defaultIgnores),
        ("ignoreTestFiles", .boolean true),
        ("requireJsdoc", .object [("require", Config.sectionsJson {})])]
  | .options => [("require", Config.sectionsJson {})]
  | .sections =>
      [("VueProps", .boolean true), ("VuexActions", .boolean false), ("VuexState", .boolean false)]

example : Config.toJson {} = .object ConfigLevel.config.defaults := rfl

/-- One change to an object that keeps what it says. -/
inductive Restated : ConfigLevel → Reading → Reading → Prop where
  | permuted {level : ConfigLevel} {members others : List (Option String × Reading)}
      (isPerm : members.Perm others) : Restated level (.map members true) (.map others true)
  | dropped {level : ConfigLevel} {name : String} {value : Json}
      {members : List (Option String × Reading)} (isDefault : (name, value) ∈ level.defaults) :
      Restated level (.map ((some name, value.reading) :: members) true) (.map members true)
  | added {name : String} {value : Reading} {members : List (Option String × Reading)}
      (unknown : name ∉ ConfigLevel.config.names) (isComplete : value.isComplete = true) :
      Restated .config (.map members true) (.map ((some name, value) :: members) true)
  | respelled {value : Reading} {members : List (Option String × Reading)} :
      Restated .sections (.map ((some "VuexActions", value) :: members) true)
        (.map ((some "VuexAction", value) :: members) true)
  | inOptions {before after : Reading} {members : List (Option String × Reading)}
      (inside : Restated .options before after) :
      Restated .config (.map ((some "requireJsdoc", before) :: members) true)
        (.map ((some "requireJsdoc", after) :: members) true)
  | inSections {before after : Reading} {members : List (Option String × Reading)}
      (inside : Restated .sections before after) :
      Restated .options (.map ((some "require", before) :: members) true)
        (.map ((some "require", after) :: members) true)

/-- An object below the top has a member with an unknown name. -/
inductive HoldsUnknown : ConfigLevel → Reading → Prop where
  | here {level : ConfigLevel} {name : String} {value : Reading}
      {members : List (Option String × Reading)} {closed : Bool} (isInner : level ≠ .config)
      (unknown : name ∉ level.names) (isMember : (some name, value) ∈ members) :
      HoldsUnknown level (.map members closed)
  | inOptions {value : Reading} {members : List (Option String × Reading)} {closed : Bool}
      (isMember : (some "requireJsdoc", value) ∈ members) (inside : HoldsUnknown .options value) :
      HoldsUnknown .config (.map members closed)
  | inSections {value : Reading} {members : List (Option String × Reading)} {closed : Bool}
      (isMember : (some "require", value) ∈ members) (inside : HoldsUnknown .sections value) :
      HoldsUnknown .options (.map members closed)

namespace Decode

/-! ## What has been written is read back -/

@[simp] theorem boolean_reading (value : Bool) :
    boolean (Json.boolean value).reading = .ok value :=
  rfl

@[simp] theorem strings_reading (texts : List String) :
    strings (Config.textsJson texts).reading = .ok texts := by
  have mapped : (Json.readings (texts.map Json.string)).mapM string = .ok texts := by
    induction texts with
    | nil => rfl
    | cons text texts induction =>
        rw [List.map_cons, Json.readings, List.mapM_cons, induction]
        rfl
  rw [Config.textsJson, Json.reading, strings, mapped]
  rfl

@[simp] theorem sections_reading (value : DocSections) :
    sections (Config.sectionsJson value).reading = .ok value :=
  rfl

@[simp] theorem options_reading (value : DocSections) :
    options (Json.object [("require", Config.sectionsJson value)]).reading = .ok value :=
  rfl

/-- A configuration is read back from its document. -/
theorem config_reading (config : Config) : Decode.config config.toJson.reading = .ok config := by
  refine config_map_iff.mpr ⟨rfl, ?_, ⟨_, .taken rfl (strings_reading config.includes), rfl⟩,
    ⟨_, .taken rfl (strings_reading config.ignores), rfl⟩, ⟨_, .taken rfl rfl, rfl⟩,
    ⟨_, .taken rfl (options_reading config.sections), rfl⟩⟩
  simp [Json.memberReadings, Passes, configNames]

/-! ## A change that keeps what a document says -/

section Restating

variable {before after : Reading} {value : DocSections} {config : Config}

theorem sections_of_restated (restated : Restated .sections before after)
    (decodes : sections before = .ok value) : sections after = .ok value := by
  cases restated with
  | permuted isPerm =>
      obtain ⟨_, sets⟩ := sections_map_iff.mp decodes
      exact sections_map_iff.mpr ⟨rfl,
        fun member isMember => sets.known member (isPerm.mem_iff.mpr isMember),
        sets.props.perm isPerm, sets.actions.perm isPerm, sets.state.perm isPerm⟩
  | dropped isDefault =>
      obtain ⟨_, sets⟩ := sections_map_iff.mp decodes
      simp only [ConfigLevel.defaults, List.mem_cons, Prod.mk.injEq, List.not_mem_nil,
        or_false] at isDefault
      rcases isDefault with ⟨rfl, rfl⟩ | ⟨rfl, rfl⟩ | ⟨rfl, rfl⟩
      all_goals
        exact sections_map_iff.mpr ⟨rfl,
          fun member isMember => sets.known member (List.mem_cons_of_mem _ isMember),
          sets.props.of_cons_default (by simp), sets.actions.of_cons_default (by simp),
          sets.state.of_cons_default (by simp)⟩
  | respelled =>
      obtain ⟨_, sets⟩ := sections_map_iff.mp decodes
      refine sections_map_iff.mpr ⟨rfl, ?_, sets.props.replace (by simp) fun _ _ => id,
        sets.actions.replace (by simp) fun _ _ => id, sets.state.replace (by simp) fun _ _ => id⟩
      exact List.forall_mem_cons.mpr
        ⟨by simp [sectionsNames], (List.forall_mem_cons.mp sets.known).2⟩

theorem options_of_restated (restated : Restated .options before after)
    (decodes : options before = .ok value) : options after = .ok value := by
  cases restated with
  | permuted isPerm =>
      obtain ⟨_, sets⟩ := options_map_iff.mp decodes
      exact options_map_iff.mpr ⟨rfl,
        fun member isMember => sets.known member (isPerm.mem_iff.mpr isMember),
        sets.require.perm isPerm⟩
  | dropped isDefault =>
      obtain ⟨_, sets⟩ := options_map_iff.mp decodes
      simp only [ConfigLevel.defaults, List.mem_singleton, Prod.mk.injEq] at isDefault
      obtain ⟨rfl, rfl⟩ := isDefault
      exact options_map_iff.mpr ⟨rfl,
        fun member isMember => sets.known member (List.mem_cons_of_mem _ isMember),
        sets.require.of_cons_default (by simp)⟩
  | inSections inside =>
      obtain ⟨_, sets⟩ := options_map_iff.mp decodes
      refine options_map_iff.mpr ⟨rfl, ?_,
        sets.require.replace Iff.rfl fun _ _ => sections_of_restated inside⟩
      exact List.forall_mem_cons.mpr (List.forall_mem_cons.mp sets.known)

theorem config_of_restated (restated : Restated .config before after)
    (decodes : Decode.config before = .ok config) : Decode.config after = .ok config := by
  cases restated with
  | permuted isPerm =>
      obtain ⟨_, sets⟩ := config_map_iff.mp decodes
      exact config_map_iff.mpr ⟨rfl,
        fun member isMember => sets.passes member (isPerm.mem_iff.mpr isMember),
        sets.includes.perm isPerm, sets.ignores.perm isPerm, sets.ignoreTestFiles.perm isPerm,
        sets.requireJsdoc.perm isPerm⟩
  | dropped isDefault =>
      obtain ⟨_, sets⟩ := config_map_iff.mp decodes
      simp only [ConfigLevel.defaults, List.mem_cons, Prod.mk.injEq, List.not_mem_nil,
        or_false] at isDefault
      rcases isDefault with ⟨rfl, rfl⟩ | ⟨rfl, rfl⟩ | ⟨rfl, rfl⟩ | ⟨rfl, rfl⟩
      all_goals
        exact config_map_iff.mpr ⟨rfl,
          fun member isMember => sets.passes member (List.mem_cons_of_mem _ isMember),
          sets.includes.of_cons_default (by simp), sets.ignores.of_cons_default (by simp),
          sets.ignoreTestFiles.of_cons_default (by simp),
          sets.requireJsdoc.of_cons_default (by simp)⟩
  | added unknown isComplete =>
      obtain ⟨_, sets⟩ := config_map_iff.mp decodes
      simp only [ConfigLevel.names, configNames, List.mem_cons, List.not_mem_nil, or_false,
        not_or] at unknown
      refine config_map_iff.mpr ⟨rfl, ?_, sets.includes.of_valuesOf_eq ?_,
        sets.ignores.of_valuesOf_eq ?_, sets.ignoreTestFiles.of_valuesOf_eq ?_,
        sets.requireJsdoc.of_valuesOf_eq ?_⟩
      · exact List.forall_mem_cons.mpr ⟨.inr ⟨Option.some_ne_none _, isComplete⟩, sets.passes⟩
      all_goals exact (valuesOf_cons_of_not_mem (by simp [unknown])).symm
  | inOptions inside =>
      obtain ⟨_, sets⟩ := config_map_iff.mp decodes
      refine config_map_iff.mpr ⟨rfl, ?_, sets.includes.replace Iff.rfl (by simp),
        sets.ignores.replace Iff.rfl (by simp), sets.ignoreTestFiles.replace Iff.rfl (by simp),
        sets.requireJsdoc.replace Iff.rfl fun _ _ => options_of_restated inside⟩
      exact List.forall_mem_cons.mpr
        ⟨.inl (by simp [configNames]), (List.forall_mem_cons.mp sets.passes).2⟩

end Restating

/-! ## Unknown members -/

section Unknown

variable {document : Reading}

theorem sections_of_holdsUnknown (holds : HoldsUnknown .sections document) (value : DocSections) :
    sections document ≠ .ok value := by
  intro decodes
  cases holds with
  | here _ unknown isMember =>
      obtain ⟨_, sets⟩ := sections_map_iff.mp decodes
      exact unknown (by simpa [ConfigLevel.names] using sets.known _ isMember)

theorem options_of_holdsUnknown (holds : HoldsUnknown .options document) (value : DocSections) :
    options document ≠ .ok value := by
  intro decodes
  cases holds with
  | here _ unknown isMember =>
      obtain ⟨_, sets⟩ := options_map_iff.mp decodes
      exact unknown (by simpa [ConfigLevel.names] using sets.known _ isMember)
  | inSections isMember inside =>
      obtain ⟨_, sets⟩ := options_map_iff.mp decodes
      obtain ⟨inner, read⟩ := sets.require.exists_decode isMember (by simp)
      exact sections_of_holdsUnknown inside inner read

theorem config_of_holdsUnknown (holds : HoldsUnknown .config document) (config : Config) :
    Decode.config document ≠ .ok config := by
  intro decodes
  cases holds with
  | here isInner => exact isInner rfl
  | inOptions isMember inside =>
      obtain ⟨_, sets⟩ := config_map_iff.mp decodes
      obtain ⟨inner, read⟩ := sets.requireJsdoc.exists_decode isMember (by simp)
      exact options_of_holdsUnknown inside inner read

end Unknown

end Decode

namespace Config

theorem parse_eq_ok_iff {text : String} {config : Config} :
    Config.parse text = .ok config ↔
      Decode.config (Reading.document text).1 = .ok config ∧ (Reading.document text).2 = true := by
  rw [Config.parse, bind_eq_ok_iff]
  simp only [Decode.ifClosed_eq_ok_iff]
  constructor
  · rintro ⟨value, decodes, isWhole, rfl⟩
    exact ⟨decodes, isWhole⟩
  · rintro ⟨decodes, isWhole⟩
    exact ⟨config, decodes, isWhole, rfl⟩

theorem decode_of_reflTransGen {before after : Reading} {config : Config}
    (restated : Relation.ReflTransGen (Restated .config) before after)
    (decodes : Decode.config before = .ok config) : Decode.config after = .ok config := by
  induction restated with
  | refl => exact decodes
  | tail _ step induction => exact Decode.config_of_restated step induction

theorem exists_error_of_forall_ne {α ε : Type} {result : Except ε α}
    (fails : ∀ value, result ≠ .ok value) : ∃ error, result = .error error := by
  cases result with
  | error error => exact ⟨error, rfl⟩
  | ok value => exact absurd rfl (fails value)

/-- A configuration is read back from its document and from every document that says the same in
another way, and a document with an unknown member below the top is refused. -/
theorem restatements_decode (config : Config) :
    Config.parse config.toJson.pretty = .ok config ∧
    (∀ document, Relation.ReflTransGen (Restated .config) config.toJson.reading document →
      Decode.config document = .ok config ∧
      ∀ text, Reading.document text = (document, true) → Config.parse text = .ok config) ∧
    ∀ document, HoldsUnknown .config document →
      (∃ error, Decode.config document = .error error) ∧
      ∀ text, (Reading.document text).1 = document → ∃ error, Config.parse text = .error error := by
  refine ⟨?_, ?_, ?_⟩
  · rw [parse_eq_ok_iff, Reading.document_pretty]
    exact ⟨Decode.config_reading config, rfl⟩
  · intro document restated
    have decodes := decode_of_reflTransGen restated (Decode.config_reading config)
    refine ⟨decodes, fun text read => ?_⟩
    rw [parse_eq_ok_iff, read]
    exact ⟨decodes, rfl⟩
  · intro document holds
    have fails := Decode.config_of_holdsUnknown holds
    refine ⟨exists_error_of_forall_ne fails, ?_⟩
    rintro text rfl
    exact exists_error_of_forall_ne fun value parses => fails value (parse_eq_ok_iff.mp parses).1

/-- A configuration that differs from the default in two places. -/
def sampleConfig : Config := { includes := ["src"], sections := { actions := true } }

/-- The same without the defaults, in another order, with the other name of a member and with a
member that is skipped. -/
def terseDocument : Json :=
  .object [("theme", .string "dark"),
    ("requireJsdoc", .object [("require", .object [("VuexAction", .boolean true)])]),
    ("includes", .array [.string "src"])]

/-- A document in which the name of a section is misspelled. -/
def misspelledDocument : Json :=
  .object [("requireJsdoc", .object [("require", .object [("VueProp", .boolean true)])])]

theorem restatements_decode_terseDocument :
    Config.parse terseDocument.pretty = .ok sampleConfig ∧
      ∃ error, Config.parse misspelledDocument.pretty = .error error := by
  constructor
  · refine ((restatements_decode sampleConfig).2.1 terseDocument.reading ?_).2 _
      (Reading.document_pretty terseDocument)
    -- Each default is brought to the front and dropped, at the top and then among the sections.
    refine .head (.permuted (.swap _ _ _)) (.head (.dropped (.tail _ (.head _))) ?_)
    refine .head (.permuted (.swap _ _ _)) (.head (.dropped (.tail _ (.tail _ (.head _)))) ?_)
    refine .head (.permuted (.swap _ _ _)) ?_
    refine .head (.inOptions (.inSections (.dropped (.head _)))) ?_
    refine .head (.inOptions (.inSections (.permuted (.swap _ _ _)))) ?_
    refine .head (.inOptions (.inSections (.dropped (.tail _ (.tail _ (.head _)))))) ?_
    refine .head (.inOptions (.inSections .respelled)) ?_
    exact .single (.added (by decide) rfl)
  · refine ((restatements_decode sampleConfig).2.2 misspelledDocument.reading ?_).2 _
      (by rw [Reading.document_pretty])
    exact .inOptions (.head _) (.inSections (.head _) (.here (by decide) (by decide) (.head _)))

end Config

end StoreLint
