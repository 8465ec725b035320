/-!
# Glob patterns

In a pattern `?` stands for any character, `*` for any number of characters, a
bracket for one character of a class, and `**`, which has to be a whole path
component, for any number of components.  A single star crosses separators, too, and
a dot at the start of a name is an ordinary character.
-/

namespace StoreLint.Glob

/-- Whether a text holds a wildcard; one that does not is a plain path. -/
def hasWildcard (text : String) : Bool := text.contains '*' || text.contains '?'

/-- What a bracket may hold. -/
inductive Specifier where
  | single (c : Char)
  | range (first last : Char)
deriving DecidableEq, Repr, Inhabited

def Specifier.holds (c : Char) : Specifier → Bool
  | .single expected => c == expected
  | .range first last => first ≤ c && c ≤ last

/-- The parts of a pattern. -/
inductive Token where
  | char (c : Char)
  | anyChar
  | anySequence
  /-- Any number of whole components, with the separator after each. -/
  | anyComponents
  | within (specifiers : List Specifier)
  | except (specifiers : List Specifier)
deriving DecidableEq, Repr, Inhabited

/-- Why a text is no pattern. -/
inductive Reason where
  | range
  | recursion
  | wildcards
deriving DecidableEq, Repr, Inhabited

def Reason.text : Reason → String
  | .range => "invalid range pattern"
  | .recursion => "recursive wildcards must form a single path component"
  | .wildcards => "wildcards are either regular `*` or recursive `**`"

/-- Where and why a text is no pattern. -/
structure PatternError where
  position : Nat
  reason : Reason
deriving DecidableEq, Repr, Inhabited

def PatternError.message (error : PatternError) : String :=
  s!"Pattern syntax error near position {error.position}: " ++ error.reason.text

/-- Whether the character separates components. -/
def isSeparator (c : Char) : Bool := c == '/'

def specifiers : List Char → List Specifier
  | first :: '-' :: last :: chars => .range first last :: specifiers chars
  | c :: chars => .single c :: specifiers chars
  | [] => []

/-- The token that an opening bracket starts, given what follows it, and the number of
characters that it takes after the bracket. -/
def bracket? (chars : List Char) : Option (Token × Nat) :=
  match chars with
  | '!' :: first :: rest =>
      let more := rest.takeWhile fun c => c != ']'
      if more.length < rest.length then
        some (.except (specifiers (first :: more)), more.length + 3)
      else none
  | '!' :: [] => none
  | first :: rest =>
      let more := rest.takeWhile fun c => c != ']'
      if more.length < rest.length then
        some (.within (specifiers (first :: more)), more.length + 2)
      else none
  | [] => none

/-- The tokens with one for any number of components, unless one that is not the first token has
just been read. -/
def pushComponents (read : List Token) : List Token :=
  match read with
  | .anyComponents :: _ :: _ => read
  | _ => .anyComponents :: read

/-- Reads a pattern.  The tokens so far are given last first, with the position, the character
before it and the number of characters that have been read already. -/
def parseFrom (read : List Token) (position : Nat) (previous : Option Char) :
    (skipped : Nat) → List Char → Except PatternError (List Token)
  | _, [] => .ok read.reverse
  | skipped + 1, c :: chars => parseFrom read (position + 1) (some c) skipped chars
  | 0, '?' :: chars => parseFrom (.anyChar :: read) (position + 1) (some '?') 0 chars
  | 0, '*' :: chars =>
      let more := (chars.takeWhile fun c => c == '*').length
      let after := chars.drop more
      if 2 ≤ more then .error ⟨position + 2, .wildcards⟩
      else if more == 0 then
        parseFrom (.anySequence :: read) (position + 1) (some '*') 0 chars
      else if !(previous.all isSeparator) then .error ⟨position - 1, .recursion⟩
      else
        match after with
        | [] => parseFrom (pushComponents read) (position + 1) (some '*') 1 chars
        | c :: _ =>
            if isSeparator c then
              parseFrom (pushComponents read) (position + 1) (some '*') 2 chars
            else .error ⟨position + 2, .recursion⟩
  | 0, '[' :: chars =>
      match bracket? chars with
      | some (token, taken) => parseFrom (token :: read) (position + 1) (some '[') taken chars
      | none => .error ⟨position, .range⟩
  | 0, c :: chars => parseFrom (.char c :: read) (position + 1) (some c) 0 chars

def parse (pattern : String) : Except PatternError (List Token) :=
  parseFrom [] 0 none 0 pattern.toList

def Token.holds (c : Char) : Token → Bool
  | .char expected => c == expected
  | .anyChar => true
  | .within specifiers => specifiers.any (Specifier.holds c)
  | .except specifiers => !specifiers.any (Specifier.holds c)
  | .anySequence | .anyComponents => false

/-- Whether the test holds of some end of the text. -/
def anySuffix (test : List Char → Bool) : List Char → Bool
  | [] => test []
  | c :: chars => test (c :: chars) || anySuffix test chars

/-- Whether the test holds of the end of the text or of what follows some separator. -/
def anyComponentSuffix (test : List Char → Bool) : List Char → Bool
  | [] => test []
  | c :: chars => (isSeparator c && test chars) || anyComponentSuffix test chars

def matchTokens : List Token → List Char → Bool
  | [], chars => chars.isEmpty
  | .anySequence :: tokens, chars => anySuffix (matchTokens tokens) chars
  | .anyComponents :: tokens, chars =>
      matchTokens tokens chars || anyComponentSuffix (matchTokens tokens) chars
  | token :: tokens, c :: chars => token.holds c && matchTokens tokens chars
  | _ :: _, [] => false

end StoreLint.Glob
