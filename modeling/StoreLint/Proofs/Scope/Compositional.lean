import Mathlib.Algebra.Order.Group.Multiset
import Mathlib.Tactic.Abel
import StoreLint.Proofs.Scope.Locals
import StoreLint.Proofs.Scope.Outline

/-!
# The scope tree is the outline of the module

Visiting a node does two things to a scope tree: what escapes from the node is declared
in scopes that are open, each declaration in the scope it reaches, and the scopes of the
outlines of the node are added at the end.  `visit_eq` proves this equation for every
node by induction over its parts, and `build_eq_ofOutlines` is the case of a module.
-/

namespace StoreLint

def Scope.declaring (scope : Scope) (definitions : List Definition) : Scope :=
  { scope with
    declared := definitions.foldl
      (fun declared definition => Variable.declareIn definition.name definition declared)
      scope.declared }

namespace ScopeTree

/-- The scope that holds a declaration which is made in the scope `current`. -/
def target (tree : ScopeTree) (current : Nat) : Reach → Nat
  | .nearest => current
  | .function => tree.varScope current
  | .module => root

def declareEach (tree : ScopeTree) (target : Reach → Nat)
    (definitions : List (Reach × Definition)) : ScopeTree :=
  definitions.foldl
    (fun tree definition => tree.declare (target definition.1) definition.2.name definition.2) tree

def adjoin (tree : ScopeTree) (scopes : List Scope) : ScopeTree :=
  { scopes := tree.scopes ++ scopes.toArray }

@[simp] theorem size_adjoin (tree : ScopeTree) (scopes : List Scope) :
    (tree.adjoin scopes).size = tree.size + scopes.length := by
  simp [adjoin, size]

@[simp] theorem adjoin_nil (tree : ScopeTree) : tree.adjoin [] = tree := by
  simp [adjoin]

theorem adjoin_append (tree : ScopeTree) (first second : List Scope) :
    tree.adjoin (first ++ second) = (tree.adjoin first).adjoin second := by
  simp [adjoin]

theorem declareEach_cons (tree : ScopeTree) (target : Reach → Nat)
    (definition : Reach × Definition) (definitions : List (Reach × Definition)) :
    tree.declareEach target (definition :: definitions) =
      (tree.declare (target definition.1) definition.2.name definition.2).declareEach target
        definitions :=
  rfl

theorem declareEach_append (tree : ScopeTree) (target : Reach → Nat)
    (first second : List (Reach × Definition)) :
    tree.declareEach target (first ++ second) =
      (tree.declareEach target first).declareEach target second := by
  simp [declareEach]

@[simp] theorem size_declareEach (tree : ScopeTree) (target : Reach → Nat)
    (definitions : List (Reach × Definition)) :
    (tree.declareEach target definitions).size = tree.size := by
  induction definitions generalizing tree with
  | nil => rfl
  | cons definition definitions induction =>
      exact (induction _).trans (size_declare tree _ _ _)

theorem declareList_eq_declareEach (tree : ScopeTree) (target : Reach → Nat) (reach : Reach)
    (definitions : List Definition) :
    tree.declareList (target reach) definitions =
      tree.declareEach target (definitions.map fun definition => (reach, definition)) := by
  simp [declareList, declareEach, List.foldl_map]

theorem bindingScope_eq_target (tree : ScopeTree) (current : Nat) (node : Node) :
    tree.bindingScope current node = tree.target current node.reach := by
  fun_cases Node.reach node with
  | case1 span declarators => rfl
  | case2 span locals source => rfl
  | case3 node notHoisted notImports =>
      unfold bindingScope
      split
      · exact absurd rfl (notHoisted _ _)
      · exact absurd rfl (notImports _ _ _ _)
      · rfl

theorem OpenAt.target_lt_size {tree : ScopeTree} {current : Nat} (openAt : tree.OpenAt current)
    (reach : Reach) : tree.target current reach < tree.size := by
  cases reach with
  | nearest => exact openAt.lt_size
  | function =>
      exact Nat.lt_of_le_of_lt (openAt.wellFormed.varScope_le openAt.lt_size) openAt.lt_size
  | module => exact openAt.wellFormed.nonempty

theorem target_eq_of_extends {tree later : ScopeTree} {current : Nat}
    (extends_ : tree.Extends later) (openAt : tree.OpenAt current)
    (openLater : later.OpenAt current) : later.target current = tree.target current := by
  funext reach
  cases reach with
  | nearest => rfl
  | function =>
      exact extends_.varScope_eq openAt.wellFormed openLater.wellFormed openAt.lt_size
  | module => rfl

/-- The scope of a node takes the declarations that end there; all others go on to where they
went outside of the node. -/
theorem target_opened {tree : ScopeTree} {current : Nat} (openAt : tree.OpenAt current)
    (kind : ScopeKind) (node : Node) (reach : Reach) :
    (tree.opened current kind node).target tree.size reach =
      if reach.endsAt kind then tree.size else tree.target current reach := by
  have openInside := openAt.opened kind node
  obtain ⟨scope, found, kindEq, _, parentEq⟩ := getElem?_opened tree current kind node
  cases reach with
  | nearest => rfl
  | module => rfl
  | function =>
      have outside := (extends_opened tree current kind node).varScope_eq openAt.wellFormed
        openInside.wellFormed openAt.lt_size
      rw [target, openInside.wellFormed.varScope_eq found, kindEq, parentEq, Option.map_some,
        Option.getD_some, outside]
      rfl

/-- Declarations do not touch the scopes behind the one they are made in. -/
theorem declare_adjoin {tree : ScopeTree} {index : Nat} (inside : index < tree.size)
    (scopes : List Scope) (name : String) (definition : Definition) :
    (tree.adjoin scopes).declare index name definition =
      (tree.declare index name definition).adjoin scopes := by
  have bound : index < tree.scopes.size := inside
  simp only [declare, adjoin, ScopeTree.mk.injEq]
  apply Array.ext_getElem?
  intro other
  simp only [Array.getElem?_modify, Array.getElem?_append, Array.size_modify]
  grind

theorem declare_adjoin_last (tree : ScopeTree) (scope : Scope) (definition : Definition) :
    (tree.adjoin [scope]).declare tree.size definition.name definition =
      tree.adjoin [scope.declaring [definition]] := by
  simp only [declare, adjoin, size, ScopeTree.mk.injEq, Scope.declaring, List.foldl_cons,
    List.foldl_nil]
  apply Array.ext_getElem?
  intro other
  simp only [Array.getElem?_modify, Array.getElem?_append]
  grind

theorem declareEach_adjoin {tree : ScopeTree} {target : Reach → Nat}
    (inside : ∀ reach, target reach < tree.size) (scopes : List Scope)
    (definitions : List (Reach × Definition)) :
    (tree.adjoin scopes).declareEach target definitions =
      (tree.declareEach target definitions).adjoin scopes := by
  induction definitions generalizing tree with
  | nil => rfl
  | cons definition definitions induction =>
      rw [declareEach_cons, declare_adjoin (inside definition.1)]
      apply induction
      intro reach
      rw [size_declare]
      exact inside reach

/-- Of the declarations that are made inside the last scope, it takes those that end there. -/
theorem declareEach_adjoin_last {tree : ScopeTree} {inner outer : Reach → Nat}
    {ends : Reach → Bool}
    (splits : ∀ reach, inner reach = if ends reach then tree.size else outer reach)
    (inside : ∀ reach, ends reach = false → outer reach < tree.size) (scope : Scope)
    (definitions : List (Reach × Definition)) :
    (tree.adjoin [scope]).declareEach inner definitions =
      (tree.declareEach outer (definitions.filter fun definition => !ends definition.1)).adjoin
        [scope.declaring
          ((definitions.filter fun definition => ends definition.1).map Prod.snd)] := by
  induction definitions generalizing tree scope with
  | nil => rfl
  | cons definition definitions induction =>
      rw [declareEach_cons, splits]
      cases ended : ends definition.1 with
      | true =>
          rw [if_pos rfl, declare_adjoin_last, induction splits inside]
          simp [ended, Scope.declaring]
      | false =>
          have same := size_declare tree (outer definition.1) definition.2.name definition.2
          rw [if_neg Bool.false_ne_true, declare_adjoin (inside definition.1 ended),
            induction (same.symm ▸ splits) (same.symm ▸ inside)]
          simp [ended, declareEach_cons]

theorem declareList_adjoin_last (tree : ScopeTree) (scope : Scope)
    (definitions : List Definition) :
    (tree.adjoin [scope]).declareList tree.size definitions =
      tree.adjoin [scope.declaring definitions] := by
  induction definitions generalizing scope with
  | nil => rfl
  | cons definition definitions induction =>
      rw [declareList, List.foldl_cons, declare_adjoin_last]
      exact induction _

theorem opened_eq_adjoin (tree : ScopeTree) (current : Nat) (kind : ScopeKind) (node : Node) :
    tree.opened current kind node =
      tree.adjoin
        [Scope.declaring
          { id := tree.size, kind, span := node.span, parent := some current, declared := [] }
          node.ownDefinitions] := by
  have created : tree.createScope kind current node.span =
      tree.adjoin [{ id := tree.size, kind, span := node.span, parent := some current
                     declared := [] }] := by
    simp [createScope, adjoin]
  rw [opened, created, declareList_adjoin_last]

/-- What is visited inside the scope of a node goes into that scope or on to the scopes around
it. -/
theorem visitList_opened_eq {tree : ScopeTree} {current : Nat} (openAt : tree.OpenAt current)
    (kind : ScopeKind) (node : Node)
    (inner : (tree.opened current kind node).visitList tree.size node.inner =
      ((tree.opened current kind node).declareEach
        ((tree.opened current kind node).target tree.size)
        (node.inner.flatMap Node.escaping)).adjoin
        (Outline.scopesList tree.size (tree.opened current kind node).size
          (node.inner.flatMap Node.outlines))) :
    (tree.opened current kind node).visitList tree.size node.inner =
      (tree.declareEach (tree.target current)
        ((node.inner.flatMap Node.escaping).filter fun definition =>
          !definition.1.endsAt kind)).adjoin
        (Outline.scopes current tree.size
          (.scope kind node.span (node.held kind) (node.inner.flatMap Node.outlines))) := by
  have splits := target_opened openAt kind node
  rw [inner, size_opened]
  generalize (tree.opened current kind node).target tree.size = inside at splits
  rw [opened_eq_adjoin,
    declareEach_adjoin_last splits fun reach _ => openAt.target_lt_size reach, ← adjoin_append]
  simp [Outline.scopes, Node.held, Variable.ofDefinitions, Scope.declaring]

/-- List counterpart of `visit_eq`, from what is known of the nodes of the list. -/
theorem visitList_eq_of_forall {nodes : List Node} {current : Nat}
    (each : ∀ node ∈ nodes, ∀ tree : ScopeTree, tree.OpenAt current →
      tree.visit current node =
        (tree.declareEach (tree.target current) node.escaping).adjoin
          (Outline.scopesList current tree.size node.outlines))
    {tree : ScopeTree} (openAt : tree.OpenAt current) :
    tree.visitList current nodes =
      (tree.declareEach (tree.target current) (nodes.flatMap Node.escaping)).adjoin
        (Outline.scopesList current tree.size (nodes.flatMap Node.outlines)) := by
  induction nodes generalizing tree with
  | nil => simp [visitList, declareEach, Outline.scopesList]
  | cons node nodes induction =>
      have first := each node (by simp) tree openAt
      have grown := grown_visit node openAt
      have rest := induction (fun other member => each other (by simp [member])) grown.openAt
      rw [visitList, rest, target_eq_of_extends grown.extends_ openAt grown.openAt, first]
      rw [declareEach_adjoin (by simpa using openAt.target_lt_size), ← declareEach_append,
        ← adjoin_append, size_adjoin, size_declareEach, ← Outline.scopesList_append]
      rfl

/-- What the visit of a node makes of a tree. -/
theorem visit_eq (node : Node) {tree : ScopeTree} {current : Nat}
    (openAt : tree.OpenAt current) :
    tree.visit current node =
      (tree.declareEach (tree.target current) node.escaping).adjoin
        (Outline.scopesList current tree.size node.outlines) := by
  induction node using Node.inductionOnParts .scopes generalizing tree current with
  | step node induction =>
      cases opens : node.opening? with
      | none =>
          have first := openAt.grown_declareList (tree.bindingScope current node)
            node.outerDefinitions
          have parts := visitList_eq_of_forall
            (fun child member _ openAt => induction child member openAt) first.openAt
          rw [visit_of_not_opening opens, parts,
            target_eq_of_extends first.extends_ openAt first.openAt, size_declareList,
            bindingScope_eq_target, declareList_eq_declareEach, ← declareEach_append,
            ← Node.escaping_of_not_opening opens, ← Node.outlines_of_not_opening opens]
      | some kind =>
          have heads := visitList_eq_of_forall
            (fun child member _ openAt =>
              induction child (Node.mem_parts_of_mem_heads member) openAt) openAt
          have headsGrown := grown_visitList node.heads openAt
          have sameTarget := target_eq_of_extends headsGrown.extends_ openAt headsGrown.openAt
          have inner := visitList_eq_of_forall
            (fun child member _ openAt =>
              induction child (Node.mem_parts_of_mem_inner member) openAt)
            (headsGrown.openAt.opened kind node)
          rw [visit_of_opening opens, visitList_opened_eq headsGrown.openAt kind node inner,
            sameTarget, heads, declareEach_adjoin (by simpa using openAt.target_lt_size),
            ← declareEach_append, ← adjoin_append, size_adjoin, size_declareEach,
            ← Outline.scopesList_singleton, ← Outline.scopesList_append,
            ← Node.escaping_of_opening opens, ← Node.outlines_of_opening opens]

theorem visitList_eq (nodes : List Node) {tree : ScopeTree} {current : Nat}
    (openAt : tree.OpenAt current) :
    tree.visitList current nodes =
      (tree.declareEach (tree.target current) (nodes.flatMap Node.escaping)).adjoin
        (Outline.scopesList current tree.size (nodes.flatMap Node.outlines)) :=
  visitList_eq_of_forall (fun node _ _ openAt => visit_eq node openAt) openAt

/-- The scope tree of a module is its outline. -/
theorem build_eq_ofOutlines (span : Span) (items : List Node) :
    build span items =
      ofOutlines span ((items.flatMap Node.escaping).map Prod.snd)
        (items.flatMap Node.outlines) := by
  have toRoot : ∀ reach, (ofModule span).target root reach = root := by
    intro reach
    cases reach <;> rfl
  have declared := @declareEach_adjoin_last ⟨#[]⟩ ((ofModule span).target root)
    (fun _ => root) (fun _ => true) toRoot (by simp)
    { id := root, kind := .module, span, parent := none, declared := [] }
    (items.flatMap Node.escaping)
  have empty : (ScopeTree.mk #[]).adjoin
      [{ id := root, kind := .module, span, parent := none, declared := [] }] = ofModule span := by
    simp [adjoin, ofModule]
  rw [empty] at declared
  rw [build, visitList_eq items (openAt_ofModule span), declared]
  simp [ofOutlines, adjoin, declareEach, Scope.declaring, Variable.ofDefinitions]
  rfl

end ScopeTree

namespace Node

/-- The scope that a node opens, as far as the node alone decides about it. -/
def openedScope? (node : Node) : Option (ScopeKind × Span × List Variable) :=
  node.opening?.map fun kind => (kind, node.span, Variable.ofDefinitions (node.held kind))

/-- The declarations that the scope of a node holds, none if the node opens no scope. -/
def heldDefinitions (node : Node) : List Definition :=
  (node.opening?.map fun kind => node.held kind).getD []

/-- The binding occurrences of a node: the names it declares itself, in its own scope or around
it. -/
def bindings (node : Node) : List Definition := node.ownDefinitions ++ node.outerDefinitions

theorem ownDefinitions_of_not_opening {node : Node} (closed : node.opening? = none) :
    node.ownDefinitions = [] := by
  cases node <;> simp [opening?] at closed <;> rfl

theorem outerDefinitions_of_opening {node : Node} {kind : ScopeKind}
    (opens : node.opening? = some kind) : node.outerDefinitions = [] := by
  cases node <;> simp [opening?] at opens <;> rfl

/-- List counterpart of `perm_openedScopes`, from what is known of the nodes of the list. -/
theorem perm_openedScopes_of_forall {nodes : List Node}
    (each : ∀ node ∈ nodes, ∀ parent next : Nat,
      ((Outline.scopesList parent next node.outlines).map fun scope =>
        (scope.kind, scope.span, scope.declared)).Perm
          ((nodesOf .scopes [node]).filterMap openedScope?))
    (parent next : Nat) :
    ((Outline.scopesList parent next (nodes.flatMap outlines)).map fun scope =>
      (scope.kind, scope.span, scope.declared)).Perm
        ((nodesOf .scopes nodes).filterMap openedScope?) := by
  induction nodes generalizing next with
  | nil => simp [Outline.scopesList]
  | cons node nodes induction =>
      rw [List.flatMap_cons, Outline.scopesList_append, List.map_append,
        nodesOf_cons_eq_append node nodes, List.filterMap_append]
      apply List.Perm.append
      · exact each node (by simp) parent next
      · exact induction (fun other member => each other (by simp [member])) _

/-- The scopes of an outline are the scopes that the nodes open, each once. -/
theorem perm_openedScopes (node : Node) (parent next : Nat) :
    ((Outline.scopesList parent next node.outlines).map fun scope =>
      (scope.kind, scope.span, scope.declared)).Perm
        ((nodesOf .scopes [node]).filterMap openedScope?) := by
  induction node using inductionOnParts .scopes generalizing parent next with
  | step node induction =>
      have ofParts : ∀ parts : List Node, parts ⊆ node.parts .scopes → ∀ parent next : Nat,
          ((Outline.scopesList parent next (parts.flatMap outlines)).map fun scope =>
            (scope.kind, scope.span, scope.declared)).Perm
            ((nodesOf .scopes parts).filterMap openedScope?) := by
        intro parts subset
        exact perm_openedScopes_of_forall fun part member => induction part (subset member)
      rw [nodesOf_cons, nodesOf_nil, List.append_nil]
      cases opens : node.opening? with
      | none =>
          have notOpened : node.openedScope? = none := by simp [openedScope?, opens]
          rw [outlines_of_not_opening opens, List.filterMap_cons_none notOpened]
          exact ofParts (node.parts .scopes) (List.Subset.refl _) parent next
      | some kind =>
          have isOpened : node.openedScope? =
              some (kind, node.span, Variable.ofDefinitions (node.held kind)) := by
            simp [openedScope?, opens]
          rw [outlines_of_opening opens, List.filterMap_cons_some isOpened,
            ← heads_append_inner, nodesOf_append, List.filterMap_append,
            Outline.scopesList_append, Outline.scopesList_singleton, Outline.scopes,
            List.map_append, List.map_cons]
          -- The heads are numbered in front of the scope of the node, the inner parts behind it.
          apply List.perm_middle.trans
          apply List.Perm.cons
          apply List.Perm.append
          · exact ofParts node.heads node.heads_sublist_parts.subset _ _
          · exact ofParts node.inner node.inner_sublist_parts.subset _ _

/-- List counterpart of `perm_bindings`, from what is known of the nodes of the list. -/
theorem perm_bindings_of_forall {nodes : List Node}
    (each : ∀ node ∈ nodes, ((nodesOf .scopes [node]).flatMap heldDefinitions ++
      node.escaping.map Prod.snd).Perm ((nodesOf .scopes [node]).flatMap bindings)) :
    ((nodesOf .scopes nodes).flatMap heldDefinitions ++ (nodes.flatMap escaping).map Prod.snd).Perm
      ((nodesOf .scopes nodes).flatMap bindings) := by
  induction nodes with
  | nil => simp
  | cons node nodes induction =>
      have first := each node (by simp)
      have rest := induction fun other member => each other (by simp [member])
      rw [nodesOf_cons_eq_append node nodes, List.flatMap_cons, List.flatMap_append,
        List.flatMap_append, List.map_append]
      rw [← Multiset.coe_eq_coe] at first rest ⊢
      simp only [← Multiset.coe_add] at first rest ⊢
      rw [← first, ← rest]
      abel

/-- Every declaration inside a node is held by one scope that the node opens, or escapes from the
node. -/
theorem perm_bindings (node : Node) :
    ((nodesOf .scopes [node]).flatMap heldDefinitions ++ node.escaping.map Prod.snd).Perm
      ((nodesOf .scopes [node]).flatMap bindings) := by
  induction node using inductionOnParts .scopes with
  | step node induction =>
      have ofParts : ∀ parts : List Node, parts ⊆ node.parts .scopes →
          ((nodesOf .scopes parts).flatMap heldDefinitions ++
            (parts.flatMap escaping).map Prod.snd).Perm
            ((nodesOf .scopes parts).flatMap bindings) := by
        intro parts subset
        exact perm_bindings_of_forall fun part member => induction part (subset member)
      rw [nodesOf_cons, nodesOf_nil, List.append_nil, List.flatMap_cons, List.flatMap_cons]
      cases opens : node.opening? with
      | none =>
          have parts := ofParts (node.parts .scopes) (List.Subset.refl _)
          have nothingHeld : node.heldDefinitions = [] := by simp [heldDefinitions, opens]
          have declared : (node.outerDefinitions.map fun definition =>
              (node.reach, definition)).map Prod.snd = node.outerDefinitions := by
            simp [Function.comp_def]
          rw [nothingHeld, bindings, ownDefinitions_of_not_opening opens,
            escaping_of_not_opening opens, List.map_append, declared, List.nil_append,
            List.nil_append]
          rw [← Multiset.coe_eq_coe] at parts ⊢
          simp only [← Multiset.coe_add] at parts ⊢
          rw [← parts]
          abel
      | some kind =>
          have heads := ofParts node.heads node.heads_sublist_parts.subset
          have inner := ofParts node.inner node.inner_sublist_parts.subset
          have split := (List.filter_append_perm
            (fun definition => definition.1.endsAt kind) (node.inner.flatMap escaping)).map Prod.snd
          have isHeld : node.heldDefinitions = node.held kind := by simp [heldDefinitions, opens]
          rw [isHeld, held, bindings, outerDefinitions_of_opening opens, escaping_of_opening opens,
            ← heads_append_inner, nodesOf_append, List.flatMap_append, List.flatMap_append,
            List.map_append, List.append_nil]
          rw [← Multiset.coe_eq_coe] at heads inner split ⊢
          simp only [List.map_append, ← Multiset.coe_add] at heads inner split ⊢
          rw [← heads, ← inner, ← split]
          abel

end Node

theorem Variable.perm_declareIn (name : String) (definition : Definition)
    (declared : List Variable) :
    ((declareIn name definition declared).flatMap definitions).Perm
      (declared.flatMap definitions ++ [definition]) := by
  induction declared with
  | nil => simp [declareIn]
  | cons first others induction =>
      rw [declareIn]
      split
      · simp only [List.flatMap_cons, List.append_assoc]
        apply List.Perm.append_left
        exact List.perm_append_comm
      · simp only [List.flatMap_cons, List.append_assoc]
        apply List.Perm.append_left
        exact induction

theorem Variable.perm_ofDefinitions (definitions : List Definition) :
    ((ofDefinitions definitions).flatMap Variable.definitions).Perm definitions := by
  have folded : ∀ declared : List Variable,
      ((definitions.foldl (fun declared definition =>
        declareIn definition.name definition declared) declared).flatMap
          Variable.definitions).Perm (declared.flatMap Variable.definitions ++ definitions) := by
    induction definitions with
    | nil => simp
    | cons definition definitions induction =>
        intro declared
        rw [List.foldl_cons, ← List.singleton_append, ← List.append_assoc]
        apply (induction _).trans
        apply List.Perm.append_right
        exact perm_declareIn definition.name definition declared
  simpa [ofDefinitions] using folded []

def Scope.definitions (scope : Scope) : List Definition :=
  scope.declared.flatMap Variable.definitions

namespace ScopeTree

theorem perm_definitions_scopesList (items : List Node) (parent next : Nat) :
    ((Outline.scopesList parent next (items.flatMap Node.outlines)).flatMap
      Scope.definitions).Perm ((Node.nodesOf .scopes items).flatMap Node.heldDefinitions) := by
  have scopes := Node.perm_openedScopes_of_forall
    (fun node (_ : node ∈ items) => node.perm_openedScopes) parent next
  have flattened := scopes.flatMap_right fun scope => scope.2.2.flatMap Variable.definitions
  rw [List.flatMap_map] at flattened
  apply flattened.trans
  rw [List.filterMap_eq_flatMap_toList, List.flatMap_assoc]
  apply List.Perm.flatMap_left
  intro node _
  cases opens : node.opening? with
  | none => simp [Node.openedScope?, Node.heldDefinitions, opens]
  | some kind =>
      simpa [Node.openedScope?, Node.heldDefinitions, opens] using
        Variable.perm_ofDefinitions (node.held kind)

/-- Behind the module scope there is one scope for each node that opens one. -/
theorem perm_openedScopes_build (span : Span) (items : List Node) :
    ((build span items).scopes.toList.tail.map fun scope =>
      (scope.kind, scope.span, scope.declared)).Perm
      ((Node.nodesOf .scopes items).filterMap Node.openedScope?) := by
  rw [build_eq_ofOutlines]
  exact Node.perm_openedScopes_of_forall (fun node _ => node.perm_openedScopes) _ _

/-- All scopes together hold one declaration for each binding occurrence. -/
theorem perm_definitions_build (span : Span) (items : List Node) :
    ((build span items).scopes.toList.flatMap Scope.definitions).Perm
      ((Node.nodesOf .scopes items).flatMap Node.bindings) := by
  rw [build_eq_ofOutlines]
  simp only [ofOutlines, List.flatMap_cons]
  have atRoot := Variable.perm_ofDefinitions ((items.flatMap Node.escaping).map Prod.snd)
  have inside := perm_definitions_scopesList items root (root + 1)
  have whole := Node.perm_bindings_of_forall fun node (_ : node ∈ items) => node.perm_bindings
  exact (atRoot.append inside).trans (List.perm_append_comm.trans whole)

end ScopeTree

end StoreLint
