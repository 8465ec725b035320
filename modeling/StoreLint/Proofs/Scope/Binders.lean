import StoreLint.Proofs.Scope.Arrangement
import StoreLint.Proofs.Tree.Binders

/-!
# What the patterns of a module declare

Two traversals look for the names of a pattern: the one that declares them, and the one
that asks whether a pattern binds a given name.  `declares_binders` says that the first
one declares every name that is bound, each once and in the order of the text, that this
adds the declarations to the scope and changes nothing else, and that the second one
answers from the same names.
-/

namespace StoreLint

namespace Node

/-- The list holds the names that the pattern binds, each once and in the order of the text. -/
structure ListsBinders (pattern : Node) (binders : List (List Nat × Identifier)) : Prop where
  mem_iff : ∀ {route : List Nat} {id : Identifier},
    (route, id) ∈ binders ↔ pattern.BindsAt route id
  /-- Routes are in visiting order, and no route is repeated. -/
  visited : binders.Pairwise fun first second => first.1 < second.1
  /-- Where the pattern stands in a text, so do the names. -/
  written : pattern.Arranged →
    binders.Pairwise fun first second => first.2.span.hi ≤ second.2.span.lo

theorem IsPattern.listsBinders {pattern : Node} (isPattern : pattern.IsPattern) :
    pattern.ListsBinders pattern.binders where
  mem_iff := mem_binders_iff
  visited := pairwise_binders pattern
  written := by
    intro arranged
    have follow := (boundNames_arranged pattern arranged).1.2
    rw [← (map_snd_binders_eq pattern).1 isPattern, List.pairwise_map] at follow
    exact follow

end Node

namespace ScopeTree

/-- A pattern declares the names that it binds and no others, and these are also the names that it
is found to bind. -/
theorem declares_binders (tree : ScopeTree) (scope : Nat) (kind : DefinitionKind) {pattern : Node}
    (isPattern : pattern.IsPattern) :
    ∃ binders, pattern.ListsBinders binders ∧
      ∃ definitions, definitions = binders.map (fun binder => .of binder.2 kind) ∧
        tree.declareAll scope kind pattern.boundNames = tree.declareList scope definitions ∧
        tree.Gains scope definitions (tree.declareAll scope kind pattern.boundNames) ∧
        ∀ name, pattern.binds name = true ↔
          ∃ definition ∈ definitions, definition.name = name := by
  have names := (Node.map_snd_binders_eq pattern).1 isPattern
  have steps : tree.declareAll scope kind pattern.boundNames = tree.declareList scope
      (pattern.binders.map fun binder => .of binder.2 kind) := by
    rw [declareAll_eq, ← names, List.map_map]
    rfl
  refine ⟨pattern.binders, isPattern.listsBinders, _, rfl, steps, ?_, ?_⟩
  · rw [steps]
    exact .declareList tree _
  · intro name
    rw [(Node.binds_eq_any_and name pattern).1, ← names, List.any_map, List.any_eq_true]
    simp [Definition.of]

end ScopeTree

/-- The pattern `{ [k]: [a, { b = c }], d: e = f, g: h.i, ...j }`. -/
def nestedPattern : Node :=
  .objectPattern ⟨1, 48⟩
    [.keyValue (.computedKey ⟨3, 6⟩ (.identifier ⟨"k", ⟨4, 5⟩⟩))
        (.arrayPattern ⟨8, 22⟩
          [.identifier ⟨"a", ⟨9, 10⟩⟩,
            .objectPattern ⟨12, 21⟩
              [.initialized ⟨14, 19⟩ ⟨"b", ⟨14, 15⟩⟩ (.identifier ⟨"c", ⟨18, 19⟩⟩)]]),
      .keyValue (.plainKey ⟨24, 25⟩ (.identifier "d"))
        (.defaulted ⟨27, 32⟩ (.identifier ⟨"e", ⟨27, 28⟩⟩) (.identifier ⟨"f", ⟨31, 32⟩⟩)),
      .keyValue (.plainKey ⟨34, 35⟩ (.identifier "g"))
        (.member ⟨37, 40⟩ (.identifier ⟨"h", ⟨37, 38⟩⟩) "i"),
      .restPattern ⟨42, 46⟩ (.identifier ⟨"j", ⟨45, 46⟩⟩)]

theorem isPattern_nestedPattern : nestedPattern.IsPattern := by
  refine .object (List.forall_mem_cons.mpr ⟨.keyValue (.array ?_), List.forall_mem_cons.mpr
    ⟨.keyValue (.defaulted .name), List.forall_mem_cons.mpr
      ⟨.keyValue (.assigned rfl), List.forall_mem_singleton.mpr (.rest .name)⟩⟩⟩)
  refine List.forall_mem_cons.mpr ⟨.name, List.forall_mem_singleton.mpr (.object ?_)⟩
  exact List.forall_mem_singleton.mpr .initialized

theorem ScopeTree.declares_binders_nestedPattern :
    nestedPattern.IsPattern ∧ nestedPattern.Arranged ∧
      (["a", "b", "c", "d", "e", "f", "g", "h", "i", "j", "k"].filter
        fun name => nestedPattern.binds name) = ["a", "b", "e", "j"] ∧
      ∃ binders, nestedPattern.ListsBinders binders ∧
        (binders.Pairwise fun first second => first.2.span.hi ≤ second.2.span.lo) ∧
        (ofModule ⟨1, 48⟩).Gains root (binders.map fun binder => .of binder.2 .parameter)
          ((ofModule ⟨1, 48⟩).declareAll root .parameter nestedPattern.boundNames) := by
  have arranged : nestedPattern.Arranged := by
    unfold Node.Arranged
    decide
  refine ⟨isPattern_nestedPattern, arranged, by decide, ?_⟩
  obtain ⟨binders, lists, _, rfl, _, gains, _⟩ :=
    declares_binders (ofModule ⟨1, 48⟩) root .parameter isPattern_nestedPattern
  exact ⟨binders, lists, lists.written arranged, gains⟩

end StoreLint
