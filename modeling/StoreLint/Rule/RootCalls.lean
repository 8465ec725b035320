import StoreLint.Rule.Basic

/-!
# Calls in the global namespace

A commit or dispatch whose options ask for the root store reaches past the module it
stands in.
-/

namespace StoreLint

def storeCalls : List String := ["commit", "dispatch"]

namespace Node

/-- The name of the function or method that is called. -/
def calleeName? (callee : Node) : Option String :=
  match callee.unwrap with
  | .identifier id => some id.name
  | .member _ _ name => some name
  | _ => none

/-- Whether an argument is an object literal whose first entry is `root: true`. -/
def isRootOption (arg : Node) : Bool :=
  match arg.unwrap with
  | .objectLiteral _ (.keyValue key value :: _) =>
      key.keyName? == some "root" &&
        match value.unwrap with
        | .literal _ (.boolean flag) => flag
        | _ => false
  | _ => false

end Node

/-- The diagnostic at a call that asks for the root store.  The options are the third argument,
or the second one if the first is an object. -/
def checkRootCall (span : Span) (callee : Node) (args : List Node) :
    Except AnalysisError (List Diagnostic) :=
  match callee.calleeName? with
  | none => .ok []
  | some name =>
      if storeCalls.contains name && ((args.drop 1).take 2).any Node.isRootOption then do
        let diagnostic ← Rule.rootCalls.report span "avoidRootCalls" [("actionName", name)]
        return [diagnostic]
      else .ok []

end StoreLint
