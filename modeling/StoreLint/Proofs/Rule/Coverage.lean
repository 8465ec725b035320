import Mathlib.Data.List.Forall2
import StoreLint.Proofs.Rule.Anchors
import StoreLint.Proofs.Rule.Isolation
import StoreLint.Proofs.Rule.Selection
import StoreLint.Proofs.Tree.Routes

/-!
# Rules see a whole module, and every target once

A target occurs where a call or an object literal stands, an entry of a literal at its
number among the entries.  `occurrencesOf` lists the occurrences of all targets in
visiting order, and the traversal of a module asks the rules about just these, one after
the other.

For the rule about calls this fixes the whole result: its diagnostics are those of the
calls that ask for the root store, one for each.
-/

namespace StoreLint

/-- A target and where it occurs: the route to the node that is visited there, and the number of
the entry if that node is an object literal. -/
structure Occurrence where
  route : List Nat
  number : Nat
  target : Target

namespace Occurrence

/-- The module has the target at that place. -/
inductive Occurs (items : List Node) : Occurrence → Prop where
  | call {route : List Nat} {span : Span} {callee : Node} {args types : List Node}
      (leads : Node.nodeAt? items route = some (.call span callee args types)) :
      Occurs items ⟨route, 0, .call span callee args⟩
  | property {route : List Nat} {number : Nat} {span : Span} {entries : List Node} {entry : Node}
      (leads : Node.nodeAt? items route = some (.objectLiteral span entries))
      (isEntry : entries[number]? = some entry) (notSpread : entry.isSpread = false) :
      Occurs items ⟨route, number, .entry ⟨entry, entries⟩⟩

/-- The order in which rules are asked: all entries of a literal by their numbers, and the targets
of a node before those of the nodes that are visited later, the ones inside it among them. -/
inductive Before : Occurrence → Occurrence → Prop where
  | visit {first second : Occurrence} (isBefore : first.route < second.route) :
      Before first second
  | entry {first second : Occurrence} (sameNode : first.route = second.route)
      (isBefore : first.number < second.number) : Before first second

theorem Before.ne {first second : Occurrence} (before : Before first second) : first ≠ second := by
  rintro rfl
  cases before with
  | visit isBefore => exact List.lt_irrefl _ isBefore
  | entry sameNode isBefore => exact Nat.lt_irrefl _ isBefore

end Occurrence

namespace Node

/-- The targets of a node at the end of a route. -/
def occurrences (route : List Nat) : Node → List Occurrence
  | .objectLiteral _ entries =>
      (entries.zipIdx.filter fun part => !part.1.isSpread).map fun part =>
        ⟨route, part.2, .entry ⟨part.1, entries⟩⟩
  | .call span callee args _ => [⟨route, 0, .call span callee args⟩]
  | _ => []

theorem map_target_occurrences (route : List Nat) (node : Node) :
    (node.occurrences route).map Occurrence.target = node.targets := by
  cases node with
  | objectLiteral span entries =>
      have proper : properEntries entries =
          (entries.zipIdx.filter fun part => !part.1.isSpread).map Prod.fst := by
        conv =>
          lhs
          rw [properEntries, ← List.zipIdx_map_fst 0 entries, List.filter_map]
        rfl
      rw [targets, placedEntries, proper, occurrences, List.map_map, List.map_map, List.map_map]
      rfl
  | call span callee args types => rfl
  | _ => rfl

theorem mem_occurrences_objectLiteral {route : List Nat} {span : Span} {entries : List Node}
    {occurrence : Occurrence} :
    occurrence ∈ (Node.objectLiteral span entries).occurrences route ↔
      ∃ entry number, entries[number]? = some entry ∧ entry.isSpread = false ∧
        occurrence = ⟨route, number, .entry ⟨entry, entries⟩⟩ := by
  simp only [occurrences, List.mem_map, List.mem_filter, Prod.exists,
    List.mem_zipIdx_iff_getElem?, Bool.not_eq_true']
  constructor
  · rintro ⟨entry, number, ⟨isEntry, notSpread⟩, rfl⟩
    exact ⟨entry, number, isEntry, notSpread, rfl⟩
  · rintro ⟨entry, number, isEntry, notSpread, rfl⟩
    exact ⟨entry, number, ⟨isEntry, notSpread⟩, rfl⟩

theorem route_of_mem_occurrences {route : List Nat} {node : Node} {occurrence : Occurrence}
    (member : occurrence ∈ node.occurrences route) : occurrence.route = route := by
  cases node with
  | objectLiteral span entries =>
      obtain ⟨entry, number, _, _, rfl⟩ := mem_occurrences_objectLiteral.mp member
      rfl
  | call span callee args types => rw [List.mem_singleton.mp member]
  | _ => cases member

theorem pairwise_occurrences (route : List Nat) (node : Node) :
    (node.occurrences route).Pairwise Occurrence.Before := by
  cases node with
  | objectLiteral span entries =>
      apply List.pairwise_map.mpr
      apply ((pairwise_zipIdx entries).filter _).imp
      intro first second isEarlier
      exact .entry rfl isEarlier
  | call span callee args types => exact List.pairwise_singleton _ _
  | _ => exact List.Pairwise.nil

end Node

/-- The targets of a module with their places, in visiting order. -/
def occurrencesOf (items : List Node) : List Occurrence :=
  (Node.routesOf items).flatMap fun place => place.2.occurrences place.1

theorem map_target_occurrencesOf (items : List Node) :
    (occurrencesOf items).map Occurrence.target = targetsOf items := by
  rw [occurrencesOf, List.map_flatMap, targetsOf, ← Node.map_snd_routesOf, List.flatMap_map]
  apply List.flatMap_congr
  intro place _
  exact Node.map_target_occurrences place.1 place.2

theorem mem_occurrencesOf_iff {items : List Node} {occurrence : Occurrence} :
    occurrence ∈ occurrencesOf items ↔ occurrence.Occurs items := by
  rw [occurrencesOf, List.mem_flatMap]
  constructor
  · rintro ⟨⟨route, node⟩, isPlace, isOwn⟩
    have leads := Node.mem_routesOf_iff.mp isPlace
    cases node with
    | objectLiteral span entries =>
        obtain ⟨entry, number, isEntry, notSpread, rfl⟩ :=
          Node.mem_occurrences_objectLiteral.mp isOwn
        exact .property leads isEntry notSpread
    | call span callee args types =>
        rw [List.mem_singleton.mp isOwn]
        exact .call leads
    | _ => cases isOwn
  · intro occurs
    cases occurs with
    | call leads => exact ⟨_, Node.mem_routesOf_iff.mpr leads, List.mem_singleton.mpr rfl⟩
    | property leads isEntry notSpread =>
        refine ⟨_, Node.mem_routesOf_iff.mpr leads, ?_⟩
        exact Node.mem_occurrences_objectLiteral.mpr ⟨_, _, isEntry, notSpread, rfl⟩

theorem pairwise_occurrencesOf (items : List Node) :
    (occurrencesOf items).Pairwise Occurrence.Before := by
  rw [occurrencesOf, List.pairwise_flatMap]
  constructor
  · intro place _
    exact Node.pairwise_occurrences place.1 place.2
  · apply (Node.pairwise_routesOf items).imp
    intro first second isBefore left isLeft right isRight
    apply Occurrence.Before.visit
    rw [Node.route_of_mem_occurrences isLeft, Node.route_of_mem_occurrences isRight]
    exact isBefore

theorem nodup_occurrencesOf (items : List Node) : (occurrencesOf items).Nodup := by
  apply (pairwise_occurrencesOf items).imp
  intro first second before
  exact before.ne

namespace Node

/-- The called function is known by the name: it is that name, or a method with it. -/
inductive IsCallOf (callee : Node) (name : String) : Prop where
  | function {span : Span} (isName : callee.unwrap = .identifier ⟨name, span⟩)
  | method {span : Span} {object : Node} (isMember : callee.unwrap = .member span object name)

/-- The argument is an object literal with the first entry `root: true`. -/
def AsksForRoot (arg : Node) : Prop :=
  ∃ span key value others flagSpan,
    arg.unwrap = .objectLiteral span (.keyValue key value :: others) ∧
      key.keyName? = some "root" ∧ value.unwrap = .literal flagSpan (.boolean true)

theorem calleeName?_eq_some_iff {callee : Node} {name : String} :
    callee.calleeName? = some name ↔ callee.IsCallOf name := by
  unfold calleeName?
  constructor
  · intro isName
    split at isName
    next id isIdentifier =>
      cases isName
      exact .function isIdentifier
    next span object member isMember =>
      cases isName
      exact .method isMember
    next => cases isName
  · rintro (isName | isMember)
    · rw [isName]
    · rw [isMember]

theorem isRootOption_iff {arg : Node} : arg.isRootOption = true ↔ arg.AsksForRoot := by
  unfold isRootOption AsksForRoot
  constructor
  · intro asks
    split at asks
    next span key value others isLiteral =>
      obtain ⟨isRoot, isTrue⟩ := Bool.and_eq_true_iff.mp asks
      split at isTrue
      next flagSpan flag isFlag =>
        cases isTrue
        exact ⟨span, key, value, others, flagSpan, isLiteral, beq_iff_eq.mp isRoot, isFlag⟩
      next => cases isTrue
    next => cases asks
  · rintro ⟨span, key, value, others, flagSpan, isLiteral, isRoot, isFlag⟩
    rw [isLiteral]
    dsimp only
    rw [isRoot, isFlag]
    rfl

end Node

/-- A call of a method that changes a store, with the options that ask for the root store. -/
structure RootCall (callee : Node) (args : List Node) (name : String) : Prop where
  isStoreCall : name = "commit" ∨ name = "dispatch"
  isCall : callee.IsCallOf name
  asks : ∃ arg, (args[1]? = some arg ∨ args[2]? = some arg) ∧ arg.AsksForRoot

def rootCallDiagnostic (span : Span) (name : String) : Diagnostic :=
  { rule := .rootCalls
    messageId := "avoidRootCalls"
    message := "Don't " ++ name ++ " in the global namespace."
    data := [("actionName", name)]
    span
    severity := .error }

theorem mem_take_drop_iff {α : Type} {items : List α} {item : α} :
    item ∈ (items.drop 1).take 2 ↔ items[1]? = some item ∨ items[2]? = some item := by
  match items with
  | [] => simp
  | [_] => simp
  | [_, second] => simp [eq_comm]
  | _ :: second :: third :: _ => simp [eq_comm]

theorem rootCall_iff {callee : Node} {args : List Node} {name : String} :
    RootCall callee args name ↔ callee.calleeName? = some name ∧
      (storeCalls.contains name && ((args.drop 1).take 2).any Node.isRootOption) = true := by
  simp only [Bool.and_eq_true, List.any_eq_true, mem_take_drop_iff, Node.isRootOption_iff,
    Node.calleeName?_eq_some_iff, storeCalls, List.contains_iff_mem, List.mem_cons,
    List.not_mem_nil, or_false]
  constructor
  · intro isRootCall
    exact ⟨isRootCall.isCall, isRootCall.isStoreCall, isRootCall.asks⟩
  · rintro ⟨isCall, isStoreCall, asks⟩
    exact ⟨isStoreCall, isCall, asks⟩

theorem report_rootCalls {span : Span} {name : String} (isPlaced : span.isDummy = false)
    (isStoreCall : name = "commit" ∨ name = "dispatch") :
    Rule.rootCalls.report span "avoidRootCalls" [("actionName", name)] =
      .ok (rootCallDiagnostic span name) := by
  rw [Rule.report, isPlaced]
  rcases isStoreCall with rfl | rfl
  · rfl
  · rfl

theorem checkRootCall_of_rootCall {span : Span} {callee : Node} {args : List Node} {name : String}
    (isPlaced : span.isDummy = false) (isRootCall : RootCall callee args name) :
    checkRootCall span callee args = .ok [rootCallDiagnostic span name] := by
  obtain ⟨isName, asks⟩ := rootCall_iff.mp isRootCall
  rw [checkRootCall, isName]
  dsimp only
  rw [if_pos asks, report_rootCalls isPlaced isRootCall.isStoreCall]
  rfl

theorem checkRootCall_of_forall_not {span : Span} {callee : Node} {args : List Node}
    (never : ∀ name, ¬RootCall callee args name) : checkRootCall span callee args = .ok [] := by
  rw [checkRootCall]
  split
  · rfl
  next name isName =>
    apply if_neg
    intro asks
    exact never name (rootCall_iff.mpr ⟨isName, asks⟩)

namespace Target

/-- The target is a call that asks for the root store. -/
def IsRootCall : Target → Prop
  | .entry _ => False
  | .call _ callee args => ∃ name, RootCall callee args name

instance : DecidablePred IsRootCall
  | .entry _ => isFalse id
  | .call _ callee args =>
      decidable_of_iff (∃ name ∈ storeCalls, callee.calleeName? = some name ∧
          (storeCalls.contains name && ((args.drop 1).take 2).any Node.isRootOption) = true) <| by
        simp only [← rootCall_iff]
        constructor
        · rintro ⟨name, _, isRootCall⟩
          exact ⟨name, isRootCall⟩
        · rintro ⟨name, isRootCall⟩
          exact ⟨name, by simpa [storeCalls] using isRootCall.isStoreCall, isRootCall⟩

/-- The diagnostic is the one that a call gets which asks for the root store. -/
inductive ReportedAs : Target → Diagnostic → Prop where
  | call {span : Span} {callee : Node} {args : List Node} {name : String}
      (isRootCall : RootCall callee args name) :
      ReportedAs (.call span callee args) (rootCallDiagnostic span name)

end Target

section Calls

variable {context : CheckContext} {items : List Node} {target : Target}

theorem diagnosticsOf_rootCalls_of_isRootCall (placed : Placed items)
    (isTarget : target ∈ targetsOf items) (isRootCall : target.IsRootCall) :
    ∃ diagnostic, diagnosticsOf context (target, .rootCalls) = [diagnostic] ∧
      target.ReportedAs diagnostic := by
  cases target with
  | entry entry => cases isRootCall
  | call span callee args =>
      obtain ⟨name, isRootCall⟩ := isRootCall
      obtain ⟨types, isNode⟩ := call_mem_nodesOf isTarget
      have isPlaced : span.isDummy = false := placed.span isNode
      refine ⟨rootCallDiagnostic span name, ?_, .call isRootCall⟩
      rw [diagnosticsOf, Rule.check, checkRootCall_of_rootCall isPlaced isRootCall]

theorem diagnosticsOf_rootCalls_of_not (notRootCall : ¬target.IsRootCall) :
    diagnosticsOf context (target, .rootCalls) = [] := by
  cases target with
  | entry entry => rfl
  | call span callee args =>
      rw [diagnosticsOf, Rule.check, checkRootCall_of_forall_not]
      intro name isRootCall
      exact notRootCall ⟨name, isRootCall⟩

end Calls

/-- What is found at the items that are kept is what is found at all, if there is one thing at each
of these and nothing at the others. -/
theorem forall₂_filter_flatMap {α β : Type} {items : List α} {keep : α → Prop} [DecidablePred keep]
    {found : α → List β} {matching : α → β → Prop}
    (atKept : ∀ item ∈ items, keep item → ∃ result, found item = [result] ∧ matching item result)
    (atOthers : ∀ item ∈ items, ¬keep item → found item = []) :
    List.Forall₂ matching (items.filter fun item => keep item) (items.flatMap found) := by
  induction items with
  | nil => exact .nil
  | cons item items induction =>
      have rest := induction (fun other isOther => atKept other (List.mem_cons_of_mem _ isOther))
        (fun other isOther => atOthers other (List.mem_cons_of_mem _ isOther))
      rw [List.flatMap_cons, List.filter_cons]
      by_cases kept : keep item
      · obtain ⟨result, isResult, isMatch⟩ := atKept item (List.mem_cons_self ..) kept
        rw [if_pos (decide_eq_true kept), isResult]
        exact .cons isMatch rest
      · rw [if_neg (by simpa using kept), atOthers item (List.mem_cons_self ..) kept]
        exact rest

theorem lint_rootCalls (parsed : ParsedSource) (file : String) (sections : DocSections) :
    (parsed.lint file sections [.rootCalls]).diagnostics =
      (targetsOf parsed.items).flatMap fun target =>
        diagnosticsOf (parsed.checkContext sections) (target, .rootCalls) := by
  rw [ParsedSource.lint, checksOf, List.flatMap_assoc]
  apply List.flatMap_congr
  intro target _
  cases target with
  | entry placed => rfl
  | call span callee args => exact List.append_nil _

/-- A rule that is listed once gives what it gives when it runs alone. -/
theorem lint_filter_of_count {rules : List Rule} {rule : Rule} (once : rules.count rule = 1)
    (parsed : ParsedSource) (file : String) (sections : DocSections) :
    (parsed.lint file sections rules).diagnostics.filter (·.rule == rule) =
      (parsed.lint file sections [rule]).diagnostics := by
  have alone : rules.filter (· == rule) = [rule] := by
    rw [List.filter_beq, once]
    rfl
  rw [← alone, lint_filter]
  rfl

theorem forall₂_rootCalls {parsed : ParsedSource} (placed : Placed parsed.items)
    (file : String) (sections : DocSections) :
    List.Forall₂ (fun occurrence diagnostic => occurrence.target.ReportedAs diagnostic)
      ((occurrencesOf parsed.items).filter fun occurrence => occurrence.target.IsRootCall)
      (parsed.lint file sections [.rootCalls]).diagnostics := by
  rw [lint_rootCalls, ← map_target_occurrencesOf, List.flatMap_map]
  apply forall₂_filter_flatMap
  · intro occurrence isOccurrence isRootCall
    apply diagnosticsOf_rootCalls_of_isRootCall placed _ isRootCall
    rw [← map_target_occurrencesOf]
    exact List.mem_map_of_mem isOccurrence
  · intro occurrence _ notRootCall
    exact diagnosticsOf_rootCalls_of_not notRootCall

/-- A file is linted by acting on the targets where they occur: on each one once, in visiting order,
and on all of them.  The diagnostics about calls then are one for each call that asks for the root
store, in that order. -/
theorem lint_covers_targets (parsed : ParsedSource) (file : String) (sections : DocSections)
    (rules : List Rule) :
    parsed.lint file sections rules =
        parsed.items.foldl (Node.visitTargets
          (dispatchRules (parsed.checkContext sections) file rules)) .empty ∧
      (∀ (σ : Type) (act : σ → Target → σ) (state : σ),
        parsed.items.foldl (Node.visitTargets act) state =
          (occurrencesOf parsed.items).foldl
            (fun state occurrence => act state occurrence.target) state) ∧
      (∀ occurrence, occurrence ∈ occurrencesOf parsed.items ↔ occurrence.Occurs parsed.items) ∧
      (occurrencesOf parsed.items).Nodup ∧
      (occurrencesOf parsed.items).Pairwise Occurrence.Before ∧
      (Placed parsed.items → rules.count .rootCalls = 1 →
        List.Forall₂ (fun occurrence diagnostic => occurrence.target.ReportedAs diagnostic)
          ((occurrencesOf parsed.items).filter fun occurrence => occurrence.target.IsRootCall)
          ((parsed.lint file sections rules).diagnostics.filter (·.rule == .rootCalls))) := by
  refine ⟨?_, ?_, ?_, ?_, ?_, ?_⟩
  · rw [← lintFrom_eq_visitTargets, foldl_lintFrom_eq_append, LintResult.empty_append,
      lint_eq_concat]
  · intro σ act state
    rw [foldl_visitTargets, ← map_target_occurrencesOf, List.foldl_map]
  · intro occurrence
    exact mem_occurrencesOf_iff
  · exact nodup_occurrencesOf parsed.items
  · exact pairwise_occurrencesOf parsed.items
  · intro placed once
    rw [lint_filter_of_count once]
    exact forall₂_rootCalls placed file sections

/-- The file
`f(commit('a', 0, { root: true }), { [dispatch({}, { root: true })]: 1, ...rest });`. -/
def nestedCalls : ParsedSource :=
  { span := ⟨1, 83⟩
    items := [
      .call ⟨1, 82⟩ (.identifier ⟨"f", ⟨1, 2⟩⟩)
        [.call ⟨3, 33⟩ (.identifier ⟨"commit", ⟨3, 9⟩⟩)
          [.literal ⟨10, 13⟩ (.string (some "a")), .literal ⟨15, 16⟩ .other,
            .objectLiteral ⟨18, 32⟩
              [.keyValue (.plainKey ⟨20, 24⟩ (.identifier "root"))
                (.literal ⟨26, 30⟩ (.boolean true))]] [],
          .objectLiteral ⟨35, 81⟩
            [.keyValue
              (.computedKey ⟨37, 67⟩
                (.call ⟨38, 66⟩ (.identifier ⟨"dispatch", ⟨38, 46⟩⟩)
                  [.objectLiteral ⟨47, 49⟩ [],
                    .objectLiteral ⟨51, 65⟩
                      [.keyValue (.plainKey ⟨53, 57⟩ (.identifier "root"))
                        (.literal ⟨59, 63⟩ (.boolean true))]] []))
              (.literal ⟨69, 70⟩ .other),
              .spread ⟨72, 79⟩ (.identifier ⟨"rest", ⟨75, 79⟩⟩)]] []]
    comments := []
    source := ⟨1, ""⟩
    text := "" }

theorem lint_covers_targets_nestedCalls :
    Placed nestedCalls.items ∧ Rule.checks.count .rootCalls = 1 ∧
      (∃ callee args, ⟨[0, 2, 0, 0, 0], 0, .call ⟨38, 66⟩ callee args⟩ ∈
        occurrencesOf nestedCalls.items) ∧
      List.Forall₂ (fun occurrence diagnostic => occurrence.target.ReportedAs diagnostic)
        ((occurrencesOf nestedCalls.items).filter fun occurrence => occurrence.target.IsRootCall)
        [rootCallDiagnostic ⟨3, 33⟩ "commit", rootCallDiagnostic ⟨38, 66⟩ "dispatch"] := by
  have placed : Placed nestedCalls.items := by decide
  have once : Rule.checks.count .rootCalls = 1 := by decide
  have reported : (nestedCalls.lint "store.js" {} Rule.checks).diagnostics.filter
      (·.rule == .rootCalls) =
        [rootCallDiagnostic ⟨3, 33⟩ "commit", rootCallDiagnostic ⟨38, 66⟩ "dispatch"] := by
    decide
  obtain ⟨_, _, occurs, _, _, calls⟩ := lint_covers_targets nestedCalls "store.js" {} Rule.checks
  refine ⟨placed, once, ⟨_, _, (occurs _).mpr (.call rfl)⟩, ?_⟩
  rw [← reported]
  exact calls placed once

end StoreLint
