import StoreLint.Tree.Node

/-!
# Patterns

What stands before `=` or in the parentheses of an arrow function is read as an
expression first and turned into a pattern afterwards.  A target that is neither a
name nor a literal, such as a member access, stays the expression it is and binds
nothing.
-/

namespace StoreLint.Node

mutual

/-- The pattern that an expression stands for in the place of a target. -/
def toPattern : Node → Node
  | .objectLiteral span entries => .objectPattern span (toPatternEntries entries)
  | .arrayLiteral span elements => .arrayPattern span (toPatternList elements)
  | .assignment span target value => .defaulted span target value
  | .spread span inner => .restPattern span inner.toPattern
  | node => node

/-- List counterpart of `toPattern` for the elements of an array; a rest element counts only in
the last place. -/
def toPatternList : List Node → List Node
  | [] => []
  | [element] => [element.toPattern]
  | .spread _ _ :: elements => toPatternList elements
  | element :: elements => element.toPattern :: toPatternList elements

/-- The pattern properties that the entries of an object literal stand for. -/
def toPatternEntries : List Node → List Node
  | [] => []
  | .keyValue key value :: entries => .keyValue key value.toPattern :: toPatternEntries entries
  | .spread span inner :: entries =>
      .restPattern span inner.toPattern :: toPatternEntries entries
  | entry :: entries => entry :: toPatternEntries entries

end

mutual

/-- Whether an expression can become a pattern: its object literals hold neither methods nor
accessors. -/
def fitsPattern : Node → Bool
  | .objectLiteral _ entries => fitsPatternEntries entries
  | .arrayLiteral _ elements => fitsPatternList elements
  | .spread _ inner => inner.fitsPattern
  | _ => true

/-- List counterpart of `fitsPattern` for the elements of an array. -/
def fitsPatternList : List Node → Bool
  | [] => true
  | element :: elements => element.fitsPattern && fitsPatternList elements

/-- Whether the entries of an object literal can become pattern properties. -/
def fitsPatternEntries : List Node → Bool
  | [] => true
  | .methodEntry _ _ :: _ => false
  | .getter _ _ _ _ :: _ => false
  | .setter _ _ _ _ _ :: _ => false
  | .keyValue _ value :: entries => value.fitsPattern && fitsPatternEntries entries
  | .spread _ inner :: entries => inner.fitsPattern && fitsPatternEntries entries
  | _ :: entries => fitsPatternEntries entries

end

/-- Whether a value can be assigned to the expression as it stands. -/
def isSimpleTarget : Node → Bool
  | .identifier _ => true
  | .member _ _ _ => true
  | .index _ _ _ => true
  | .reference _ _ => true
  | .wrapped _ wrapper _ _ => wrapper != .asConst
  | _ => false

/-- Whether a value can be assigned to the expression, as it stands or as a pattern. -/
def isTarget (node : Node) : Bool :=
  match node with
  | .objectLiteral _ _ => node.fitsPattern
  | .arrayLiteral _ _ => node.fitsPattern
  | _ => node.isSimpleTarget

mutual

/-- The names that a pattern binds, in source order. -/
def boundNames : Node → List Identifier
  | .identifier id => [id]
  | .arrayPattern _ elements => boundNamesList elements
  | .objectPattern _ properties => boundNamesProperties properties
  | .restPattern _ inner => inner.boundNames
  | .defaulted _ target _ => target.boundNames
  | .annotated _ target _ => target.boundNames
  | _ => []

def boundNamesList : List Node → List Identifier
  | [] => []
  | element :: elements => element.boundNames ++ boundNamesList elements

/-- The names that the properties of an object pattern bind. -/
def boundNamesProperties : List Node → List Identifier
  | [] => []
  | .shorthand id :: properties => id :: boundNamesProperties properties
  | .initialized _ id _ :: properties => id :: boundNamesProperties properties
  | .keyValue _ value :: properties => value.boundNames ++ boundNamesProperties properties
  | .restPattern _ inner :: properties => inner.boundNames ++ boundNamesProperties properties
  | _ :: properties => boundNamesProperties properties

end

end StoreLint.Node
