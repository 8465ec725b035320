import StoreLint.Scope.Resolve
import StoreLint.Store.Entry

/-!
# What an entry stands for

The value of an entry is followed through at most one binding: to the entries of the
object literal that a section of a store stands for, and to the function that an
entry holds.
-/

namespace StoreLint

namespace Node

/-- The entries of an object literal, or of the one that a function returns. -/
def entriesOfValue (value : Node) : List Node :=
  match value.unwrap with
  | .objectLiteral _ entries => properEntries entries
  | function =>
      match function.returned? with
      | some returned =>
          match returned.unwrap with
          | .objectLiteral _ entries => properEntries entries
          | _ => []
      | none => []

end Node

namespace ScopeTree

/-- The entries of the object literal that a name is bound to. -/
def entriesOfBinding (tree : ScopeTree) (id : Identifier) : Except AnalysisError (List Node) := do
  let definition ← tree.resolve id
  match ← definition.value? with
  | none => return []
  | some value => return value.entriesOfValue

/-- The entries of the object literal that an entry stands for, without its spreads. -/
def childEntries (tree : ScopeTree) : Node → Except AnalysisError (List Node)
  | .keyValue _ value =>
      match value.unwrap with
      | .objectLiteral _ entries => .ok (Node.properEntries entries)
      | .identifier id => tree.entriesOfBinding id
      | _ => .ok []
  | .shorthand id => tree.entriesOfBinding id
  | _ => .ok []

def functionOfBinding (tree : ScopeTree) (id : Identifier) :
    Except AnalysisError (Option Node) := do
  let definition ← tree.resolve id
  return definition.function?

def functionOfEntry (tree : ScopeTree) : Node → Except AnalysisError (Option Node)
  | .methodEntry _ function => .ok (some function)
  | .keyValue _ value =>
      match value.unwrap with
      | .identifier id => tree.functionOfBinding id
      | _ => .ok value.asFunction?
  | .shorthand id => tree.functionOfBinding id
  | _ => .ok none

end ScopeTree

end StoreLint
