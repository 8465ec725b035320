import StoreLint.Proofs.Rule.Anchors
import StoreLint.Proofs.Rule.Wrappers
import StoreLint.Proofs.Scope.Shift
import StoreLint.Proofs.Source.Shift

/-!
# Linting shifted files

Where a file stands does not matter.  If all positions in a file are shifted, and the
text is read from the shifted start on, then every analysis gives what it gave before,
with its positions shifted.  The same holds if the start stays where it is and some
text of the right length is put in front of the file.
-/

namespace StoreLint

/-- The use of an asset moved `offset` bytes further on. -/
def AssetSite.shift (offset : Nat) (site : AssetSite) : AssetSite :=
  { site with span := site.span.shift offset }

/-- The diagnostic moved `offset` bytes further on. -/
def Diagnostic.shift (offset : Nat) (diagnostic : Diagnostic) : Diagnostic :=
  { diagnostic with span := diagnostic.span.shift offset }

/-- The entry and its siblings moved `offset` bytes further on. -/
def PlacedEntry.shift (offset : Nat) (placed : PlacedEntry) : PlacedEntry :=
  { entry := placed.entry.shift offset, siblings := placed.siblings.map (Node.shift offset) }

/-- The target moved `offset` bytes further on. -/
def Target.shift (offset : Nat) : Target → Target
  | .entry placed => .entry (placed.shift offset)
  | .call span callee args =>
      .call (span.shift offset) (callee.shift offset) (args.map (Node.shift offset))

/-- The result with its diagnostics moved `offset` bytes further on. -/
def LintResult.shift (offset : Nat) (result : LintResult) : LintResult :=
  { result with diagnostics := result.diagnostics.map (Diagnostic.shift offset) }

/-- The file with its tree and its comments moved `offset` bytes further on, read in a text. -/
def ParsedSource.shiftIn (offset : Nat) (source : SourceText) (parsed : ParsedSource) :
    ParsedSource :=
  { span := parsed.span.shift offset
    items := parsed.items.map (Node.shift offset)
    comments := parsed.comments.map (Comment.shift offset)
    source
    text := parsed.text }

/-- The file moved `offset` bytes further on: the tree, the comments and the start of the text. -/
def ParsedSource.shift (offset : Nat) (parsed : ParsedSource) : ParsedSource :=
  parsed.shiftIn offset (parsed.source.shift offset)

variable {offset : Nat}

namespace Node

theorem isContext_shift (context : String) (node : Node) :
    (node.shift offset).isContext context = node.isContext context := by
  rw [isContext, isContext, unwrap_shift]
  cases node.unwrap <;> simp [Identifier.shift]

theorem stringValue?_shift (node : Node) :
    (node.shift offset).stringValue? = node.stringValue? := by
  rw [stringValue?, stringValue?, unwrap_shift]
  cases node.unwrap with
  | literal span value => cases value <;> rfl
  | _ => simp

theorem destructuredAsset?_shift (property : Node) :
    (property.shift offset).destructuredAsset? =
      property.destructuredAsset?.map (AssetSite.shift offset) := by
  rw [destructuredAsset?, destructuredAsset?, entryName?_shift, span_shift]
  cases property.entryName? with
  | none => rfl
  | some name =>
      by_cases isAsset : isRootAsset name = true
      · simp [isAsset, AssetSite.shift]
      · simp [isAsset]

theorem destructuredAssets_shift (properties : List Node) :
    destructuredAssets (properties.map (shift offset)) =
      (destructuredAssets properties).map (AssetSite.shift offset) := by
  simp [destructuredAssets, List.filterMap_map, List.map_filterMap, destructuredAsset?_shift]

theorem accessedAsset_shift (context : String) (span : Span) (object : Node)
    (name : Option String) :
    accessedAsset context (span.shift offset) (object.shift offset) name =
      (accessedAsset context span object name).map (AssetSite.shift offset) := by
  cases name with
  | none => rfl
  | some asset =>
      simp only [accessedAsset, isContext_shift]
      split
      · rfl
      · rfl

theorem assetSites_shift (context : String) (node : Node) :
    (node.shift offset).assetSites context =
      (node.assetSites context).map (AssetSite.shift offset) := by
  cases node with
  | member span object name => simp [assetSites, accessedAsset_shift]
  | index span object key => simp [assetSites, accessedAsset_shift, stringValue?_shift]
  | declarator target init =>
      cases init with
      | none => cases target <;> simp [assetSites]
      | some init =>
          simp only [shift, shiftOption_eq_map, Option.map_some, assetSites, isContext_shift,
            untyped_shift]
          cases target.untyped with
          | objectPattern span properties =>
              simp only [shift, shiftList_eq_map, destructuredAssets_shift]
              split
              · rfl
              · rfl
          | _ => simp
  | assignment span target value =>
      cases target with
      | objectPattern patternSpan properties =>
          simp only [shift, assetSites, isContext_shift, shiftList_eq_map,
            destructuredAssets_shift]
          split
          · rfl
          · rfl
      | _ => simp [assetSites]
  | _ => simp [assetSites]

theorem keepsContext_shift (context : String) (node : Node) :
    (node.shift offset).keepsContext context = node.keepsContext context := by
  cases node with
  | functionLike span form own params body types =>
      simp [keepsContext, anyBinds_eq_any, Function.comp_def, binds_shift]
  | _ => simp [keepsContext]

theorem contextAssets_shift (context : String) (body : List Node) :
    contextAssets context (body.map (shift offset)) =
      (contextAssets context body).map (AssetSite.shift offset) := by
  rw [contextAssets, contextAssets, walkList_shift offset (keepsContext_shift context),
    List.flatMap_map, List.map_flatMap]
  apply List.flatMap_congr
  intro node _
  exact assetSites_shift context node

theorem parameterAssets_shift (body : List Node) (pattern : Node) :
    (pattern.shift offset).parameterAssets (body.map (shift offset)) =
      (pattern.parameterAssets body).map (AssetSite.shift offset) := by
  induction pattern using inductionOnParts .whole with
  | step pattern induction =>
      cases pattern with
      | objectPattern span properties => simp [parameterAssets, destructuredAssets_shift]
      | identifier id =>
          rw [shift, parameterAssets, parameterAssets]
          exact contextAssets_shift id.name body
      | defaulted span target value =>
          rw [shift, parameterAssets, parameterAssets]
          exact induction target (by simp [parts])
      | annotated span target type =>
          rw [shift, parameterAssets, parameterAssets]
          exact induction target (by simp [parts])
      | _ => simp [parameterAssets]

theorem actionAssets_shift (function : Node) :
    (function.shift offset).actionAssets = function.actionAssets.map (AssetSite.shift offset) := by
  rw [actionAssets, actionAssets, parameters_shift, functionBody_shift]
  cases function.parameters with
  | nil => rfl
  | cons context others => exact parameterAssets_shift function.functionBody context

theorem getterAssets_shift (function : Node) :
    (function.shift offset).getterAssets = function.getterAssets.map (AssetSite.shift offset) := by
  rw [getterAssets, getterAssets, parameters_shift, List.length_map, span_shift]
  split
  · rfl
  · rfl
  · rfl
  · rfl
  · rfl

theorem calleeName?_shift (callee : Node) :
    (callee.shift offset).calleeName? = callee.calleeName? := by
  rw [calleeName?, calleeName?, unwrap_shift]
  cases callee.unwrap <;> simp [Identifier.shift]

theorem isTrueLiteral_shift (value : Node) :
    (value.shift offset).isTrueLiteral = value.isTrueLiteral := by
  rw [isTrueLiteral, isTrueLiteral, unwrap_shift]
  cases value.unwrap with
  | literal span value => cases value <;> rfl
  | _ => simp

theorem isRootOption_shift (arg : Node) : (arg.shift offset).isRootOption = arg.isRootOption := by
  rw [isRootOption, isRootOption, unwrap_shift]
  cases arg.unwrap with
  | objectLiteral span entries =>
      cases entries with
      | nil => rfl
      | cons entry entries =>
          cases entry with
          | keyValue key value =>
              have flag := @isTrueLiteral_shift offset value
              simp only [shift, shiftList, keyName?_shift]
              exact congrArg (key.keyName? == some "root" && ·) flag
          | _ => simp [shiftList]
  | _ => simp

end Node

theorem Rule.report_shift {rule : Rule} {span : Span} {messageId : String}
    {data : Template.Values} (placed : span.isDummy = false) :
    rule.report (span.shift offset) messageId data =
      (rule.report span messageId data).map (Diagnostic.shift offset) := by
  have shiftedPlaced := Span.isDummy_shift placed offset
  simp only [Rule.report, placed, shiftedPlaced]
  cases rule.message? messageId with
  | none => rfl
  | some template => rfl

theorem checkRootCall_shift {span : Span} (placed : span.isDummy = false) (callee : Node)
    (args : List Node) :
    checkRootCall (span.shift offset) (callee.shift offset) (args.map (Node.shift offset)) =
      (checkRootCall span callee args).map (List.map (Diagnostic.shift offset)) := by
  have options : (((args.map (Node.shift offset)).drop 1).take 2).any Node.isRootOption =
      ((args.drop 1).take 2).any Node.isRootOption := by
    rw [← List.map_drop, ← List.map_take, List.any_map]
    congr 1
    funext arg
    exact Node.isRootOption_shift arg
  rw [checkRootCall, checkRootCall, Node.calleeName?_shift, options]
  cases callee.calleeName? with
  | none => rfl
  | some name =>
      dsimp only
      split
      · rw [Rule.report_shift placed]
        cases Rule.rootCalls.report span "avoidRootCalls" [("actionName", name)] with
        | error error => rfl
        | ok diagnostic => rfl
      · rfl

theorem mapM_map_eq {α β γ δ ε : Type} {form : α → γ} {value : β → δ} {check : α → Except ε β}
    {changed : γ → Except ε δ} {items : List α}
    (same : ∀ item ∈ items, changed (form item) = (check item).map value) :
    (items.map form).mapM changed = (items.mapM check).map (List.map value) := by
  induction items with
  | nil => rfl
  | cons item items induction =>
      have first := same item (by simp)
      have rest := induction fun other isOther => same other (List.mem_cons_of_mem _ isOther)
      rw [List.map_cons, List.mapM_cons, List.mapM_cons, first, rest]
      cases check item with
      | error error => rfl
      | ok found =>
          cases items.mapM check with
          | error error => rfl
          | ok others => rfl

/-- What the entries of a section give moves with them. -/
theorem section_shift {check changed : Node → Except AnalysisError (List Diagnostic)}
    {children : Except AnalysisError (List Node)}
    (same : ∀ entries, children = .ok entries → ∀ entry ∈ entries,
      changed (entry.shift offset) = (check entry).map (List.map (Diagnostic.shift offset))) :
    (do
      let entries ← children.map (List.map (Node.shift offset))
      let found ← entries.mapM changed
      return found.flatten : Except AnalysisError (List Diagnostic)) =
    (do
      let entries ← children
      let found ← entries.mapM check
      return found.flatten : Except AnalysisError (List Diagnostic)).map
        (List.map (Diagnostic.shift offset)) := by
  cases children with
  | error error => rfl
  | ok entries =>
      have checked := mapM_map_eq (same entries rfl)
      simp only [Except.map, bind, Except.bind] at checked ⊢
      rw [checked]
      cases entries.mapM check with
      | error error => rfl
      | ok found => simp [pure, Except.pure, List.map_flatten]

theorem checkDocumented_shift {comments shifted : CommentIndex} {entry : Node}
    (sameDoc : ∀ position, hasLeadingDoc (shifted.before (position + offset)) =
      hasLeadingDoc (comments.before position))
    (placed : ∀ key, entry.entryKeySpan? = some key → key.isDummy = false) :
    checkDocumented shifted (entry.shift offset) =
      (checkDocumented comments entry).map (List.map (Diagnostic.shift offset)) := by
  rw [checkDocumented, checkDocumented, Node.docAnchor_shift, sameDoc]
  split
  · rfl
  · rw [Rule.reportKey, Rule.reportKey, Node.entryKeySpan?_shift]
    cases isKey : entry.entryKeySpan? with
    | none => rfl
    | some key =>
        simp only [Option.map_some, Rule.report_shift (placed key isKey)]
        cases Rule.requireDoc.report key "missingJsdoc" [] with
        | error error => rfl
        | ok diagnostic => rfl

theorem reportAssets_shift
    {functionOf shiftedFunctionOf : Node → Except AnalysisError (Option Node)}
    {assetsOf : Node → List AssetSite} {entry : Node}
    (sameFunction : shiftedFunctionOf (entry.shift offset) =
      (functionOf entry).map (Option.map (Node.shift offset)))
    (sameAssets : ∀ function : Node,
      assetsOf (function.shift offset) = (assetsOf function).map (AssetSite.shift offset))
    (placed : ∀ function, functionOf entry = .ok (some function) →
      ∀ site ∈ assetsOf function, site.span.isDummy = false) :
    reportAssets shiftedFunctionOf assetsOf (entry.shift offset) =
      (reportAssets functionOf assetsOf entry).map (List.map (Diagnostic.shift offset)) := by
  rw [reportAssets, reportAssets, sameFunction]
  cases found : functionOf entry with
  | error error => rfl
  | ok function =>
      cases function with
      | none => rfl
      | some function =>
          have reports : ((assetsOf function).map (AssetSite.shift offset)).mapM AssetSite.report =
              ((assetsOf function).mapM AssetSite.report).map
                (List.map (Diagnostic.shift offset)) := by
            apply mapM_map_eq
            intro site isSite
            exact Rule.report_shift (placed function found site isSite)
          simpa [Except.map, bind, Except.bind, sameAssets] using reports

namespace ScopeTree

theorem actionHandler_shift (tree : ScopeTree) (entry : Node) :
    (tree.shift offset).actionHandler (entry.shift offset) =
      (tree.actionHandler entry).map (Option.map (Node.shift offset)) := by
  have function := tree.functionOfEntry_shift offset entry
  cases entry with
  | keyValue key value =>
      rw [Node.shift] at function ⊢
      simp only [actionHandler, Node.unwrap_shift, function]
      cases value.unwrap with
      | objectLiteral span entries =>
          simp only [Node.shift, Node.shiftList_eq_map, List.find?_map, Function.comp_def,
            Node.entryName?_shift]
          cases entries.find? fun part => part.entryName? == some "handler" with
          | none => rfl
          | some handler => exact tree.functionOfEntry_shift offset handler
      | _ => simp
  | _ => simpa [actionHandler] using function

end ScopeTree

theorem alike_shift (placed : PlacedEntry) : placed.Alike (placed.shift offset) := by
  constructor
  · exact Node.entryName?_shift offset placed.entry
  · simp [PlacedEntry.siblingKeys, PlacedEntry.shift, Node.entryName?_shift]

section Checks

variable {parsed : ParsedSource} {shifted : SourceText} {sections : DocSections}

theorem docSections_check_shift (items_placed : Placed parsed.items)
    (sameGaps : CommentIndex.SameGaps offset parsed.comments parsed.source shifted)
    {placed : PlacedEntry} (isNode : placed.entry ∈ Node.nodesOf .whole parsed.items) :
    sections.check ((ScopeTree.build parsed.span parsed.items).shift offset)
        ⟨parsed.comments.map (Comment.shift offset), shifted⟩ (placed.shift offset) =
      (sections.check (ScopeTree.build parsed.span parsed.items) parsed.commentIndex placed).map
        (List.map (Diagnostic.shift offset)) := by
  have children : ((ScopeTree.build parsed.span parsed.items).shift offset).childEntries
      (placed.shift offset).entry = _ := ScopeTree.childEntries_shift offset _ placed.entry
  rw [DocSections.check, DocSections.check, (alike_shift placed).appliesTo, children]
  split
  · apply section_shift
    intro entries isFollowed entry isEntry
    have inModule := ScopeTree.childEntries_mem_nodesOf isNode isFollowed isEntry
    apply checkDocumented_shift
    · intro position
      rw [CommentIndex.before_shift sameGaps, hasLeadingDoc_shift]
      rfl
    · exact fun key isKey => items_placed.key inModule isKey
  · rfl

theorem checkRootAssets_shift (items_placed : Placed parsed.items) {placed : PlacedEntry}
    (isNode : placed.entry ∈ Node.nodesOf .whole parsed.items) :
    checkRootAssets ((ScopeTree.build parsed.span parsed.items).shift offset)
        (placed.shift offset) =
      (checkRootAssets (ScopeTree.build parsed.span parsed.items) placed).map
        (List.map (Diagnostic.shift offset)) := by
  have children : ((ScopeTree.build parsed.span parsed.items).shift offset).childEntries
      (placed.shift offset).entry = _ := ScopeTree.childEntries_shift offset _ placed.entry
  rw [checkRootAssets, checkRootAssets, (alike_shift placed).isGetters,
    (alike_shift placed).isActions, children]
  split
  · apply section_shift
    intro entries isFollowed entry isEntry
    have inModule := ScopeTree.childEntries_mem_nodesOf isNode isFollowed isEntry
    apply reportAssets_shift (ScopeTree.functionOfEntry_shift offset _ entry)
      Node.getterAssets_shift
    intro function found site isSite
    exact items_placed.getterAssets (ScopeTree.functionOfEntry_mem_nodesOf inModule found) isSite
  · split
    · apply section_shift
      intro entries isFollowed entry isEntry
      have inModule := ScopeTree.childEntries_mem_nodesOf isNode isFollowed isEntry
      apply reportAssets_shift (ScopeTree.actionHandler_shift _ entry) Node.actionAssets_shift
      intro function found site isSite
      exact items_placed.actionAssets (ScopeTree.actionHandler_mem_nodesOf inModule found) isSite
    · rfl

theorem checkContext_shift (parsed : ParsedSource) (shifted : SourceText)
    (sections : DocSections) :
    (parsed.shiftIn offset shifted).checkContext sections =
      { sections
        tree := (ScopeTree.build parsed.span parsed.items).shift offset
        comments := ⟨parsed.comments.map (Comment.shift offset), shifted⟩ } := by
  rw [ParsedSource.checkContext]
  congr 1
  exact ScopeTree.build_shift offset parsed.span parsed.items

/-- A check of a shifted target gives the shifted diagnostics. -/
theorem Rule.check_shift (items_placed : Placed parsed.items)
    (sameGaps : CommentIndex.SameGaps offset parsed.comments parsed.source shifted)
    {target : Target} (isTarget : target ∈ targetsOf parsed.items) (rule : Rule) :
    rule.check ((parsed.shiftIn offset shifted).checkContext sections)
        (target.shift offset) =
      (rule.check (parsed.checkContext sections) target).map
        (List.map (Diagnostic.shift offset)) := by
  rw [checkContext_shift]
  cases target with
  | entry placed =>
      have isNode := entry_mem_nodesOf isTarget
      cases rule with
      | requireDoc => exact docSections_check_shift items_placed sameGaps isNode
      | rootAssets => exact checkRootAssets_shift items_placed isNode
      | _ => rfl
  | call span callee args =>
      cases rule with
      | rootCalls =>
          obtain ⟨types, isNode⟩ := call_mem_nodesOf isTarget
          exact checkRootCall_shift (items_placed.span isNode) callee args
      | _ => rfl

theorem targets_shift (node : Node) :
    (node.shift offset).targets = node.targets.map (Target.shift offset) := by
  cases node with
  | objectLiteral span entries =>
      simp [Node.targets, Node.placedEntries, Node.properEntries_shift, Target.shift,
        PlacedEntry.shift]
  | call span callee args types => simp [Node.targets, Target.shift]
  | _ => simp [Node.targets]

theorem targetsOf_shift (items : List Node) :
    targetsOf (items.map (Node.shift offset)) = (targetsOf items).map (Target.shift offset) := by
  have nodes : Node.nodesOf .whole (items.map (Node.shift offset)) =
      (Node.nodesOf .whole items).map (Node.shift offset) :=
    Node.walkList_shift offset (fun _ => rfl) items
  rw [targetsOf, targetsOf, nodes, List.flatMap_map, List.map_flatMap]
  apply List.flatMap_congr
  intro node _
  exact targets_shift node

theorem checksOf_shift (rules : List Rule) (items : List Node) :
    checksOf rules (items.map (Node.shift offset)) =
      (checksOf rules items).map fun check => (check.1.shift offset, check.2) := by
  have selects : ∀ (rule : Rule) (target : Target),
      rule.selects (target.shift offset) = rule.selects target := by
    intro rule target
    cases target <;> rfl
  simp [checksOf, targetsOf_shift, List.flatMap_map, List.map_flatMap, Function.comp_def, selects]

/-- Linting a shifted file gives the shifted result, whatever text it is read in, if the gaps
between its comments are the same. -/
theorem lint_shift_of_sameGaps (items_placed : Placed parsed.items)
    (sameGaps : CommentIndex.SameGaps offset parsed.comments parsed.source shifted)
    (file : String) (rules : List Rule) :
    (parsed.shiftIn offset shifted).lint file sections rules =
      (parsed.lint file sections rules).shift offset := by
  have checks : ∀ check ∈ checksOf rules parsed.items,
      check.2.check ((parsed.shiftIn offset shifted).checkContext sections)
          (check.1.shift offset) =
        (check.2.check (parsed.checkContext sections) check.1).map
          (List.map (Diagnostic.shift offset)) := by
    intro check isCheck
    exact Rule.check_shift items_placed sameGaps (mem_targetsOf_of_check isCheck) check.2
  have isItems : (parsed.shiftIn offset shifted).items = parsed.items.map (Node.shift offset) := rfl
  rw [ParsedSource.lint, ParsedSource.lint, LintResult.shift]
  dsimp only
  rw [isItems, checksOf_shift, List.flatMap_map, List.filterMap_map, List.map_flatMap]
  congr 1
  · apply List.flatMap_congr
    intro check isCheck
    rw [diagnosticsOf, diagnosticsOf, checks check isCheck]
    cases check.2.check (parsed.checkContext sections) check.1 with
    | error error => rfl
    | ok diagnostics => rfl
  · apply List.filterMap_congr
    intro check isCheck
    rw [Function.comp_apply, defectOf?, defectOf?, checks check isCheck]
    cases check.2.check (parsed.checkContext sections) check.1 with
    | error error => rfl
    | ok diagnostics => rfl

end Checks

/-- Shifting a file, or putting text in front of it, shifts the diagnostics and changes nothing
else about them, and leaves the defects as they are.  The comments of the file may be listed before
or after the shift. -/
theorem lint_shift (parsed : ParsedSource) (items_placed : Placed parsed.items) (offset : Nat)
    (file : String) (sections : DocSections) (rules : List Rule) :
    (parsed.shift offset).lint file sections rules =
        (parsed.lint file sections rules).shift offset ∧
      (∀ pad : String, pad.utf8ByteSize = offset →
        (∀ comment ∈ parsed.comments, parsed.source.start ≤ comment.span.hi) →
          (parsed.shiftIn offset (parsed.source.padded pad)).lint file sections rules =
            (parsed.lint file sections rules).shift offset) ∧
      ∀ comments, Comment.canonical comments = parsed.comments →
        Comment.canonical (comments.map (Comment.shift offset)) =
          (parsed.shift offset).comments := by
  refine ⟨?_, ?_, ?_⟩
  · have sameGaps : CommentIndex.SameGaps offset parsed.comments parsed.source
        (parsed.source.shift offset) :=
      fun comment _ boundary => parsed.source.slice_shift comment.span.hi boundary
    exact lint_shift_of_sameGaps items_placed sameGaps file rules
  · intro pad isOffset inText
    subst isOffset
    have sameGaps : CommentIndex.SameGaps pad.utf8ByteSize parsed.comments parsed.source
        (parsed.source.padded pad) :=
      fun comment isComment boundary =>
        parsed.source.slice_padded pad (inText comment isComment) boundary
    exact lint_shift_of_sameGaps items_placed sameGaps file rules
  · intro comments isListed
    rw [Comment.canonical_shift, isListed]
    rfl

/-- The file `({ props: { /** a */ a: 1, b: 2 }, data() {} })`, in which only the first prop is
documented. -/
def halfDocumented : ParsedSource :=
  { span := ⟨1, 48⟩
    items := [.objectLiteral ⟨2, 47⟩
      [.keyValue (.plainKey ⟨4, 9⟩ (.identifier "props"))
          (.objectLiteral ⟨11, 34⟩
            [.keyValue (.plainKey ⟨22, 23⟩ (.identifier "a")) (.literal ⟨25, 26⟩ .other),
              .keyValue (.plainKey ⟨28, 29⟩ (.identifier "b")) (.literal ⟨31, 32⟩ .other)]),
        .methodEntry (.plainKey ⟨36, 40⟩ (.identifier "data"))
          (.functionLike ⟨36, 45⟩ .ordinary none [] [] [])]]
    comments := [⟨.block, "* a ", ⟨13, 21⟩⟩]
    source := ⟨1, "(\x7b props: \x7b /** a */ a: 1, b: 2 \x7d, data() \x7b\x7d \x7d)"⟩
    text := "(\x7b props: \x7b /** a */ a: 1, b: 2 \x7d, data() \x7b\x7d \x7d)" }

theorem lint_shift_halfDocumented :
    Placed halfDocumented.items ∧ "    ".utf8ByteSize = 4 ∧
      (∀ comment ∈ halfDocumented.comments,
        halfDocumented.source.start ≤ comment.span.hi) ∧
      Comment.canonical halfDocumented.comments = halfDocumented.comments ∧
      ((halfDocumented.shift 4).lint "a.js" {} Rule.checks).diagnostics.map Diagnostic.span =
        [⟨32, 33⟩] ∧
      ((halfDocumented.shiftIn 4 (halfDocumented.source.padded "    ")).lint "a.js" {}
        Rule.checks).diagnostics.map Diagnostic.span = [⟨32, 33⟩] ∧
      Comment.canonical (halfDocumented.comments.map (Comment.shift 4)) =
        (halfDocumented.shift 4).comments := by
  have items_placed : Placed halfDocumented.items := by decide
  have isOffset : "    ".utf8ByteSize = 4 := by decide
  have inText : ∀ comment ∈ halfDocumented.comments,
      halfDocumented.source.start ≤ comment.span.hi := by decide
  have isListed : Comment.canonical halfDocumented.comments = halfDocumented.comments := by
    simp [Comment.canonical, halfDocumented, Comment.dropRepeated, Comment.dropRepeatedAfter]
  have isReported : ((halfDocumented.lint "a.js" {} Rule.checks).shift 4).diagnostics.map
      Diagnostic.span = [⟨32, 33⟩] := by decide
  obtain ⟨shifted, padded, listed⟩ :=
    lint_shift halfDocumented items_placed 4 "a.js" {} Rule.checks
  refine ⟨items_placed, isOffset, inText, isListed, ?_, ?_, listed _ isListed⟩
  · rw [shifted, isReported]
  · rw [padded "    " isOffset inText, isReported]

end StoreLint
