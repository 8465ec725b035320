import StoreLint.Proofs.Scope.Opening

/-!
# Outlines

An outline says which scopes a part of a module opens, how they lie inside each other
and what is declared in each of them.  It is put together from the outlines of the
parts: there are no numbers in it, and no scope is looked up or changed while it is
made.  A declaration goes outwards from the node that makes it until it comes to the
scope that holds it; how far it goes is its reach.

`ScopeTree.ofOutlines` numbers the scopes of an outline from the outside to the inside.
-/

namespace StoreLint

/-- Which of the scopes around a node holds the declarations of the node. -/
inductive Reach where
  | nearest
  | function
  | module
deriving DecidableEq, Repr

/-- Whether a scope of the given kind, other than the module scope, holds a declaration that
comes to it from inside. -/
def Reach.endsAt (kind : ScopeKind) : Reach → Bool
  | .nearest => true
  | .function => kind.isVarTarget
  | .module => false

/-- A scope, what is declared in it in the order of the declarations, and the scopes right
inside it. -/
inductive Outline where
  | scope (kind : ScopeKind) (span : Span) (definitions : List Definition)
      (inner : List Outline)

/-- The variables that a list of declarations makes, one for each name. -/
def Variable.ofDefinitions (definitions : List Definition) : List Variable :=
  definitions.foldl (fun declared definition => declareIn definition.name definition declared) []

namespace Node

/-- How far the declarations reach that a node makes in a scope around it. -/
def reach : Node → Reach
  | .variableList _ .hoisted _ => .function
  | .imports _ _ _ _ => .module
  | _ => .nearest

/-- The declarations that leave a node, with how far they reach. -/
def escaping (node : Node) : List (Reach × Definition) :=
  match node.opening? with
  | some kind =>
      (node.heads.attach.flatMap fun head => head.1.escaping) ++
        (node.inner.attach.flatMap fun part => part.1.escaping).filter
          fun definition => !definition.1.endsAt kind
  | none =>
      (node.outerDefinitions.map fun definition => (node.reach, definition)) ++
        (node.parts .scopes).attach.flatMap fun child => child.1.escaping
termination_by sizeOf node
decreasing_by
  · exact sizeOf_lt_of_mem_parts (mem_parts_of_mem_heads head.2)
  · exact sizeOf_lt_of_mem_parts (mem_parts_of_mem_inner part.2)
  · exact sizeOf_lt_of_mem_parts child.2

/-- The declarations that the scope of a node holds: its own names, and what comes to it from
inside. -/
def held (kind : ScopeKind) (node : Node) : List Definition :=
  node.ownDefinitions ++
    ((node.inner.flatMap escaping).filter fun definition => definition.1.endsAt kind).map Prod.snd

def outlines (node : Node) : List Outline :=
  match node.opening? with
  | some kind =>
      (node.heads.attach.flatMap fun head => head.1.outlines) ++
        [.scope kind node.span (node.held kind)
          (node.inner.attach.flatMap fun part => part.1.outlines)]
  | none => (node.parts .scopes).attach.flatMap fun child => child.1.outlines
termination_by sizeOf node
decreasing_by
  · exact sizeOf_lt_of_mem_parts (mem_parts_of_mem_heads head.2)
  · exact sizeOf_lt_of_mem_parts (mem_parts_of_mem_inner part.2)
  · exact sizeOf_lt_of_mem_parts child.2

theorem escaping_of_opening {node : Node} {kind : ScopeKind} (opens : node.opening? = some kind) :
    node.escaping =
      node.heads.flatMap escaping ++
        (node.inner.flatMap escaping).filter fun definition => !definition.1.endsAt kind := by
  rw [escaping, opens]
  simp

theorem escaping_of_not_opening {node : Node} (closed : node.opening? = none) :
    node.escaping =
      (node.outerDefinitions.map fun definition => (node.reach, definition)) ++
        (node.parts .scopes).flatMap escaping := by
  rw [escaping, closed]
  simp

/-- A declaration that leaves a node is made by the node or leaves one of its parts. -/
theorem mem_escaping_cases {node : Node} {declared : Reach × Definition}
    (member : declared ∈ node.escaping) :
    (declared.2 ∈ node.outerDefinitions ∧ declared.1 = node.reach) ∨
      ∃ part ∈ node.parts .scopes, declared ∈ part.escaping := by
  cases opens : node.opening? with
  | none =>
      rw [escaping_of_not_opening opens, List.mem_append, List.mem_map, List.mem_flatMap] at member
      cases member with
      | inl isOwn =>
          obtain ⟨definition, isDefinition, rfl⟩ := isOwn
          exact .inl ⟨isDefinition, rfl⟩
      | inr inParts => exact .inr inParts
  | some kind =>
      rw [escaping_of_opening opens, List.mem_append, List.mem_filter] at member
      cases member with
      | inl inHeads =>
          obtain ⟨head, isHead, inHead⟩ := List.mem_flatMap.mp inHeads
          exact .inr ⟨head, mem_parts_of_mem_heads isHead, inHead⟩
      | inr inInner =>
          obtain ⟨part, isPart, inPart⟩ := List.mem_flatMap.mp inInner.1
          exact .inr ⟨part, mem_parts_of_mem_inner isPart, inPart⟩

theorem outlines_of_opening {node : Node} {kind : ScopeKind} (opens : node.opening? = some kind) :
    node.outlines =
      node.heads.flatMap outlines ++
        [.scope kind node.span (node.held kind) (node.inner.flatMap outlines)] := by
  rw [outlines, opens]
  simp

theorem outlines_of_not_opening {node : Node} (closed : node.opening? = none) :
    node.outlines = (node.parts .scopes).flatMap outlines := by
  rw [outlines, closed]
  simp

end Node

namespace Outline

mutual

/-- The scopes of an outline in the order in which they are numbered: each scope in front of
those inside it, the first with the number `next`. -/
def scopes (parent next : Nat) : Outline → List Scope
  | .scope kind span definitions inner =>
      { id := next, kind, span, parent := some parent
        declared := Variable.ofDefinitions definitions } :: scopesList next (next + 1) inner

def scopesList (parent next : Nat) : List Outline → List Scope
  | [] => []
  | outline :: outlines =>
      outline.scopes parent next ++
        scopesList parent (next + (outline.scopes parent next).length) outlines

end

theorem scopesList_append (parent next : Nat) (left right : List Outline) :
    scopesList parent next (left ++ right) =
      scopesList parent next left ++
        scopesList parent (next + (scopesList parent next left).length) right := by
  induction left generalizing next with
  | nil => simp [scopesList]
  | cons outline outlines induction =>
      simp [scopesList, induction, Nat.add_assoc]

theorem scopesList_singleton (parent next : Nat) (outline : Outline) :
    scopesList parent next [outline] = outline.scopes parent next := by
  simp [scopesList]

end Outline

namespace ScopeTree

/-- The tree of a module with the given declarations in the module scope and the given outermost
scopes. -/
def ofOutlines (span : Span) (definitions : List Definition) (outlines : List Outline) :
    ScopeTree :=
  { scopes := ({ id := root, kind := .module, span, parent := none
                 declared := Variable.ofDefinitions definitions } ::
      Outline.scopesList root (root + 1) outlines).toArray }

end ScopeTree

end StoreLint
