import StoreLint.Rule.Basic
import StoreLint.Source.LeadingComments
import StoreLint.Store.Children
import StoreLint.Store.Section

/-!
# Documentation of props, actions and state

Every entry of a section that needs documentation has a documentation comment right
in front of it.
-/

namespace StoreLint

/-- The sections whose entries need documentation. -/
structure DocSections where
  props : Bool := true
  actions : Bool := false
  state : Bool := false
deriving DecidableEq, Repr, Inhabited

/-- Whether the entry is a section whose entries need documentation. -/
def DocSections.appliesTo (sections : DocSections) (placed : PlacedEntry) : Bool :=
  (sections.actions && placed.isActions) || (sections.state && placed.isState) ||
    (sections.props && placed.isProps)

/-- The diagnostic at an entry that has no documentation. -/
def checkDocumented (comments : CommentIndex) (entry : Node) :
    Except AnalysisError (List Diagnostic) :=
  if hasLeadingDoc (comments.before entry.docAnchor) then .ok []
  else do
    let diagnostic ← Rule.requireDoc.reportKey entry "missingJsdoc" []
    return [diagnostic]

/-- The diagnostics at the entries of a section that have no documentation. -/
def DocSections.check (sections : DocSections) (tree : ScopeTree) (comments : CommentIndex)
    (placed : PlacedEntry) : Except AnalysisError (List Diagnostic) :=
  if sections.appliesTo placed then do
    let children ← tree.childEntries placed.entry
    let found ← children.mapM (checkDocumented comments)
    return found.flatten
  else .ok []

end StoreLint
