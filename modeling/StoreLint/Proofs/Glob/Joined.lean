import StoreLint.Proofs.Glob.Expansion
import StoreLint.Proofs.Glob.Stars
import StoreLint.Proofs.Rule.Findings

/-!
# Patterns below a base

A base without wildcards in front of a pattern is read as it is, so the expansion goes
through the base first and then expands the pattern at what the base names.
-/

namespace StoreLint.Glob

/-- Whether the character stands for itself in a pattern. -/
def isPlainChar (c : Char) : Bool := c != '*' && c != '?' && c != '['

/-- The base is read as it is when it stands in front of the pattern. -/
structure Verbatim (base text : String) : Prop where
  noWildcard : ∀ c ∈ base.toList, isPlainChar c = true
  isWritable : Path.Writable (Path.pieces base)
  isOpen : Path.Leads (Path.pieces base) ∨ ∀ parts, components text = .ok parts → opens parts = true

section Parsing

variable {read : List Token} {position : Nat} {previous : Option Char} {chars : List Char}

theorem parseFrom_plain {c : Char} (isPlain : isPlainChar c = true) :
    parseFrom read position previous 0 (c :: chars) =
      parseFrom (.char c :: read) (position + 1) (some c) 0 chars := by
  simp only [isPlainChar, Bool.and_eq_true, bne_iff_ne] at isPlain
  rw [parseFrom]
  · exact fun isMark => isPlain.1.2 isMark
  · exact fun isMark => isPlain.1.1 isMark
  · exact fun isMark => isPlain.2 isMark

theorem parseFrom_plain_append {front : List Char} (arePlain : ∀ c ∈ front, isPlainChar c = true) :
    parseFrom read position previous 0 (front ++ chars) =
      parseFrom ((front.map Token.char).reverse ++ read) (position + front.length)
        (front.getLast?.or previous) 0 chars := by
  induction front generalizing read position previous with
  | nil => rfl
  | cons c front induction =>
      have isLast : front.getLast?.or (some c) = (c :: front).getLast?.or previous := by
        rw [List.getLast?_cons]
        cases front.getLast? with
        | none => rfl
        | some last => rfl
      have isLength : position + 1 + front.length = position + (c :: front).length := by
        rw [List.length_cons]
        omega
      rw [List.cons_append, parseFrom_plain (arePlain c List.mem_cons_self),
        induction fun c isLater => arePlain c (List.mem_cons_of_mem _ isLater), isLast, isLength,
        List.map_cons, List.reverse_cons, List.append_assoc, List.singleton_append]

/-- Whether a pattern can be read does not depend on what has been read before it, but for whether
a separator is just before it. -/
theorem isOk_parseFrom {skipped : Nat} (others : List Token) (place : Nat) {before : Option Char} :
    previous.all isSeparator = before.all isSeparator →
      (parseFrom read position previous skipped chars).isOk =
        (parseFrom others place before skipped chars).isOk := by
  fun_induction parseFrom read position previous skipped chars generalizing others place before with
  | case1 read position previous skipped =>
      intro same
      rw [parseFrom]
      rfl
  | case2 read position previous skipped c chars induction =>
      intro same
      rw [parseFrom]
      exact induction _ _ rfl
  | case3 read position previous chars induction =>
      intro same
      rw [parseFrom]
      exact induction _ _ rfl
  | case4 read position previous chars more isMore =>
      intro same
      simp only [parseFrom]
      rw [if_pos isMore]
      rfl
  | case5 read position previous chars more notMore isOne induction =>
      intro same
      simp only [parseFrom]
      rw [if_neg notMore, if_pos isOne]
      exact induction _ _ rfl
  | case6 read position previous chars more notMore notOne isInside =>
      intro same
      rw [same] at isInside
      simp only [parseFrom]
      rw [if_neg notMore, if_neg notOne, if_pos isInside]
      rfl
  | case7 read position previous chars more after notMore notOne isAlone isEnd induction =>
      intro same
      rw [same] at isAlone
      simp only [parseFrom]
      rw [if_neg notMore, if_neg notOne, if_neg isAlone, show chars.drop _ = [] from isEnd]
      exact induction _ _ rfl
  | case8 read position previous chars more after notMore notOne isAlone c rest isAfter isBreak
      induction =>
      intro same
      rw [same] at isAlone
      simp only [parseFrom]
      rw [if_neg notMore, if_neg notOne, if_neg isAlone, show chars.drop _ = c :: rest from isAfter]
      dsimp only
      rw [if_pos isBreak]
      exact induction _ _ rfl
  | case9 read position previous chars more after notMore notOne isAlone c rest isAfter notBreak =>
      intro same
      rw [same] at isAlone
      simp only [parseFrom]
      rw [if_neg notMore, if_neg notOne, if_neg isAlone, show chars.drop _ = c :: rest from isAfter]
      dsimp only
      rw [if_neg notBreak]
      rfl
  | case10 read position previous chars token taken isBracket induction =>
      intro same
      simp only [parseFrom, isBracket]
      exact induction _ _ rfl
  | case11 read position previous chars isBracket =>
      intro same
      simp only [parseFrom, isBracket]
      rfl
  | case12 read position previous c chars isQuestion isStar isBracket induction =>
      intro same
      have isPlain : isPlainChar c = true := by
        simp only [isPlainChar, Bool.and_eq_true, bne_iff_ne]
        exact ⟨⟨isStar, isQuestion⟩, isBracket⟩
      rw [parseFrom_plain isPlain]
      exact induction _ _ rfl

theorem mem_of_mem_pushComponents {c : Char} (isToken : .char c ∈ pushComponents read) :
    .char c ∈ read := by
  revert isToken
  fun_cases pushComponents read with
  | case1 token tokens => exact id
  | case2 => simp

theorem ne_char_of_bracket? {token : Token} {taken : Nat}
    (isBracket : bracket? chars = some (token, taken)) (c : Char) : token ≠ .char c := by
  revert isBracket
  fun_cases bracket? chars with
  | case1 first rest more closes =>
      intro isBracket
      cases isBracket
      simp
  | case4 first rest _ _ more closes =>
      intro isBracket
      cases isBracket
      simp
  | case2 | case3 | case5 | case6 =>
      intro isBracket
      cases isBracket

/-- The characters that are read as they are stand in the pattern. -/
theorem mem_of_parseFrom {skipped : Nat} {tokens : List Token} {c : Char}
    (isRead : parseFrom read position previous skipped chars = .ok tokens)
    (isToken : .char c ∈ tokens) : .char c ∈ read ∨ c ∈ chars := by
  fun_induction parseFrom read position previous skipped chars with
  | case1 read position previous skipped =>
      cases isRead
      exact .inl (List.mem_reverse.mp isToken)
  | case2 read position previous skipped first chars induction =>
      exact (induction isRead).imp_right (List.mem_cons_of_mem _)
  | case3 read position previous chars induction =>
      exact (induction isRead).imp (by simp) (List.mem_cons_of_mem _)
  | case5 read position previous chars more notMore isOne induction =>
      exact (induction isRead).imp (by simp) (List.mem_cons_of_mem _)
  | case7 read position previous chars more after notMore notOne isAlone isEnd induction =>
      exact (induction isRead).imp mem_of_mem_pushComponents (List.mem_cons_of_mem _)
  | case8 read position previous chars more after notMore notOne isAlone mark rest isAfter isBreak
      induction =>
      exact (induction isRead).imp mem_of_mem_pushComponents (List.mem_cons_of_mem _)
  | case10 read position previous chars token taken isBracket induction =>
      refine (induction isRead).imp ?_ (List.mem_cons_of_mem _)
      intro isToken
      cases List.mem_cons.mp isToken with
      | inl isNew => exact absurd isNew.symm (ne_char_of_bracket? isBracket c)
      | inr isOld => exact isOld
  | case12 read position previous first chars _ _ _ induction =>
      cases induction isRead with
      | inl isToken =>
          cases List.mem_cons.mp isToken with
          | inl isNew => exact .inr (Token.char.inj isNew ▸ List.mem_cons_self)
          | inr isOld => exact .inl isOld
      | inr isLater => exact .inr (List.mem_cons_of_mem _ isLater)
  | case4 | case6 | case9 | case11 => cases isRead

end Parsing

section Components

variable {base text name : String} {tokens : List Token} {component : Component}

def plainComponent (name : String) : Component := ⟨name.toList.map .char⟩

theorem plainText?_map (chars : List Char) : plainText? (chars.map .char) = some chars := by
  induction chars with
  | nil => rfl
  | cons c chars induction => simp [plainText?, induction]

theorem plainText?_eq_some {chars : List Char} (isPlain : plainText? tokens = some chars) :
    tokens = chars.map .char := by
  induction tokens generalizing chars with
  | nil =>
      cases isPlain
      rfl
  | cons token tokens induction =>
      cases token with
      | char c =>
          obtain ⟨rest, isRest, rfl⟩ := Option.map_eq_some_iff.mp isPlain
          rw [induction isRest]
          rfl
      | _ => cases isPlain

theorem plain?_plainComponent (name : String) : (plainComponent name).plain? = some name := by
  simp [Component.plain?, plainComponent, plainText?_map]

theorem isRecursive_plainComponent (name : String) :
    (plainComponent name).isRecursive = false := by
  simp [Component.isRecursive, plainComponent]

theorem parse_plain (arePlain : ∀ c ∈ name.toList, isPlainChar c = true) :
    parse name = .ok (name.toList.map .char) := by
  have isRead := @parseFrom_plain_append [] 0 none [] _ arePlain
  rw [List.append_nil] at isRead
  rw [parse, isRead, parseFrom]
  simp

theorem isPlainChar_join {c : Char} (noWildcard : ∀ c ∈ base.toList, isPlainChar c = true)
    (isBase : base ≠ "")
    (isChar : c ∈ (Path.join base "").toList) : isPlainChar c = true := by
  obtain ⟨front, isJoined, isFront⟩ := Path.toList_join isBase
  rw [isJoined] at isChar
  cases List.mem_append.mp isChar with
  | inl isFrontChar =>
      apply noWildcard
      cases isFront with
      | inl same => exact same ▸ isFrontChar
      | inr ends => exact ends ▸ List.mem_append_left _ isFrontChar
  | inr isMark => rw [List.mem_singleton.mp isMark]; rfl

theorem isOk_parse_join (noWildcard : ∀ c ∈ base.toList, isPlainChar c = true) (isBase : base ≠ "")
    (isRelative : Path.isAbsolute text = false) :
    (parse (Path.join base text)).isOk = (parse text).isOk := by
  obtain ⟨front, isJoined, _⟩ := Path.toList_join isBase
  have arePlain : ∀ c ∈ front ++ ['/'], isPlainChar c = true := by
    intro c isChar
    exact isPlainChar_join noWildcard isBase (isJoined ▸ isChar)
  rw [parse, parse, Path.join_eq_append isBase isRelative, String.toList_append, isJoined,
    parseFrom_plain_append arePlain]
  apply isOk_parseFrom
  simp [isSeparator]

theorem mem_of_mem_splitOnP {test : Char → Bool} {chars piece : List Char} {c : Char}
    (isPiece : piece ∈ chars.splitOnP test) (isChar : c ∈ piece) : c ∈ chars := by
  induction chars generalizing piece with
  | nil =>
      rw [List.splitOnP_nil, List.mem_singleton] at isPiece
      exact isPiece ▸ isChar
  | cons first chars induction =>
      rw [List.splitOnP_cons_eq_if_modifyHead] at isPiece
      split at isPiece
      · cases List.mem_cons.mp isPiece with
        | inl isFirst =>
            rw [isFirst] at isChar
            cases isChar
        | inr isLater => exact List.mem_cons_of_mem _ (induction isLater isChar)
      · obtain ⟨next, rest, isSplit⟩ := List.exists_cons_of_ne_nil (List.splitOnP_ne_nil test chars)
        rw [isSplit] at isPiece induction
        cases List.mem_cons.mp isPiece with
        | inl isFirst =>
            rw [isFirst] at isChar
            cases List.mem_cons.mp isChar with
            | inl isFirst => exact isFirst ▸ List.mem_cons_self
            | inr isLater =>
                exact List.mem_cons_of_mem _ (induction List.mem_cons_self isLater)
        | inr isLater =>
            exact List.mem_cons_of_mem _ (induction (List.mem_cons_of_mem _ isLater) isChar)

theorem isPlainChar_piece (noWildcard : ∀ c ∈ base.toList, isPlainChar c = true)
    (isBase : base ≠ "") {piece : String}
    (isPiece : piece ∈ Path.pieces base) : ∀ c ∈ piece.toList, isPlainChar c = true := by
  intro c isChar
  obtain ⟨front, isJoined, _, isPieces⟩ := Path.exists_front_of_pieces isBase
  rw [isPieces] at isPiece
  obtain ⟨chars, isChars, rfl⟩ := List.mem_map.mp isPiece
  rw [String.toList_ofList] at isChar
  apply isPlainChar_join noWildcard isBase
  rw [isJoined]
  exact List.mem_append_left _ (mem_of_mem_splitOnP isChars isChar)

theorem components_of_relative (isRelative : Path.isAbsolute text = false) :
    components text = (usedPieces text).mapM readPiece := by
  rw [components, isRelative]
  rfl

theorem usedPieces_join (isBase : base ≠ "") (isRelative : Path.isAbsolute text = false) :
    usedPieces (Path.join base text) = Path.pieces base ++ usedPieces text := by
  have isSomething := @Path.segments_ne_nil text
  rw [usedPieces, usedPieces, Path.segments_join_tail isBase isRelative,
    List.getLast?_append_of_ne_nil _ isSomething, List.dropLast_append_of_ne_nil isSomething]
  split
  · rfl
  · rfl

theorem mapM_readPiece {pieces : List String}
    (arePlain : ∀ piece ∈ pieces, ∀ c ∈ piece.toList, isPlainChar c = true) :
    pieces.mapM readPiece = .ok (pieces.map plainComponent) := by
  induction pieces with
  | nil => rfl
  | cons piece pieces induction =>
      have isRead : readPiece piece = .ok (plainComponent piece) := by
        rw [readPiece, parse_plain (arePlain piece List.mem_cons_self)]
        rfl
      rw [List.mapM_cons, isRead,
        induction fun piece isLater => arePlain piece (List.mem_cons_of_mem _ isLater)]
      rfl

/-- The pieces of a base after the place where it starts. -/
def piecesAfterStart (base : String) : List String :=
  if Path.isAbsolute base then (Path.pieces base).drop 1 else Path.pieces base

theorem mem_pieces_of_mem_piecesAfterStart {piece : String}
    (isPiece : piece ∈ piecesAfterStart base) : piece ∈ Path.pieces base := by
  rw [piecesAfterStart] at isPiece
  split at isPiece
  · exact List.mem_of_mem_drop isPiece
  · exact isPiece

/-- A base is read from where it starts on. -/
theorem exists_start (isBase : base ≠ "") :
    ∃ start, Path.pieces base = start ++ piecesAfterStart base ∧ startOf base = spell start ∧
      (start ≠ [] ∨ (piecesAfterStart base).head? ≠ some "") := by
  cases isRoot : Path.isAbsolute base with
  | false =>
      have isAll : piecesAfterStart base = Path.pieces base := by simp [piecesAfterStart, isRoot]
      refine ⟨[], isAll.symm, ?_, .inr (isAll ▸ Path.head?_pieces_ne isRoot)⟩
      rw [startOf, isRoot]
      rfl
  | true =>
      obtain ⟨first, rest, isFirst⟩ := List.exists_cons_of_ne_nil (Path.pieces_ne_nil isBase)
      obtain ⟨more, isSegments⟩ := Path.exists_segments_of_pieces isBase isFirst
      rw [((Path.isAbsolute_iff_segments isSegments).mp isRoot).1] at isFirst
      refine ⟨[""], by simp [piecesAfterStart, isRoot, isFirst], ?_, .inl (by simp)⟩
      rw [startOf, isRoot]
      rfl

/-- The components of a joined pattern are those of the base and those of the pattern. -/
theorem components_join (noWildcard : ∀ c ∈ base.toList, isPlainChar c = true) (isBase : base ≠ "")
    (isRelative : Path.isAbsolute text = false) :
    components (Path.join base text) =
      (components text).map fun parts => (piecesAfterStart base).map plainComponent ++ parts := by
  have areAll : (if Path.isAbsolute base then (Path.pieces base ++ usedPieces text).drop 1
      else Path.pieces base ++ usedPieces text) = piecesAfterStart base ++ usedPieces text := by
    obtain ⟨first, rest, isFirst⟩ := List.exists_cons_of_ne_nil (Path.pieces_ne_nil isBase)
    rw [piecesAfterStart, isFirst]
    split
    · rfl
    · rfl
  have isRead := mapM_readPiece fun piece isPiece =>
    isPlainChar_piece noWildcard isBase (mem_pieces_of_mem_piecesAfterStart isPiece)
  rw [components, Path.isAbsolute_join_tail isBase isRelative, usedPieces_join isBase isRelative,
    components_of_relative isRelative, areAll, List.mapM_append, isRead]
  cases (usedPieces text).mapM readPiece with
  | error error => rfl
  | ok parts => rfl

theorem mem_segments_of_mem_usedPieces {piece : String} (isUsed : piece ∈ usedPieces text) :
    piece ∈ Path.segments text := by
  rw [usedPieces] at isUsed
  split at isUsed
  · exact List.mem_of_mem_dropLast isUsed
  · exact isUsed

theorem noSeparator_of_components {parts : List Component}
    (isRelative : Path.isAbsolute text = false) (areParts : components text = .ok parts)
    (isPart : component ∈ parts) (isPlain : component.plain? = some name) :
    '/' ∉ name.toList := by
  rw [components_of_relative isRelative] at areParts
  obtain ⟨piece, isUsed, isRead⟩ := (mem_iff_of_mapM_eq_ok areParts).mp isPart
  obtain ⟨tokens, isParsed, isComponent⟩ := bind_eq_ok_iff.mp isRead
  cases isComponent
  obtain ⟨chars, isChars, rfl⟩ := Option.map_eq_some_iff.mp isPlain
  rw [String.toList_ofList]
  intro isMark
  have areTokens : tokens = chars.map .char := plainText?_eq_some isChars
  have isToken : Token.char '/' ∈ tokens := by
    rw [areTokens]
    exact List.mem_map_of_mem isMark
  cases mem_of_parseFrom isParsed isToken with
  | inl isNothing => cases isNothing
  | inr isChar =>
      exact Path.separator_not_mem_of_mem_segments (mem_segments_of_mem_usedPieces isUsed) isChar

end Components

section Base

variable {system : FileSystem} {node : FileTree} {base text path : String}
  {front pieces : List String} {components rest : List Component}

theorem namesDirectory_spell {entries : List (String × FileTree)}
    (isOpen : system.IsOpen (front ++ pieces)) (writable : Path.Writable (front ++ pieces))
    (isStart : front ≠ [] ∨ pieces.head? ≠ some "")
    (isDirectory : FileTree.follow [] system.root (system.fromRoot (front ++ pieces)) =
      .ok (.directory entries)) : namesDirectory system (spell front) = true := by
  rw [FileSystem.fromRoot_append_of_start isStart] at isDirectory
  obtain ⟨_, around, isAround, _⟩ := FileTree.follow_prefix isDirectory (List.prefix_append _ _)
  rw [namesDirectory_iff, lookup_spell (isOpen.of_append isStart) writable.of_append]
  exact ⟨around, isAround⟩

theorem holds_of_namesDirectory (isDirectory : namesDirectory system path = true) :
    system.holds path = true := by
  obtain ⟨entries, isLookup⟩ := namesDirectory_iff.mp isDirectory
  rw [FileSystem.holds, isLookup]
  rfl

/-- Names that lead on are followed by the expansion. -/
theorem pathsFrom_plain {entries : List (String × FileTree)} {done todo : List String}
    (isOpen : system.IsOpen (done ++ todo)) (writable : Path.Writable (done ++ todo))
    (isStart : done ≠ [] ∨ todo.head? ≠ some "")
    (isDirectory : FileTree.follow [] system.root (system.fromRoot (done ++ todo)) =
      .ok (.directory entries)) :
    pathsFrom system false (spell done) (todo.map plainComponent ++ rest) =
      pathsFrom system false (spell (done ++ todo)) rest := by
  induction todo generalizing done with
  | nil => rw [List.append_nil]; rfl
  | cons name todo induction =>
      have isAll : done ++ [name] ++ todo = done ++ name :: todo := by simp
      have isMore : done ≠ [] ∨ name ≠ "" := by simpa using isStart
      rw [← isAll] at isOpen writable isDirectory ⊢
      have isPresent : (if name == "." || name == ".." then namesDirectory system (spell done)
          else system.holds (spell (done ++ [name]))) = true := by
        split
        · rw [List.append_assoc] at isOpen writable isDirectory
          exact namesDirectory_spell isOpen writable isStart isDirectory
        · exact holds_of_namesDirectory
            (namesDirectory_spell isOpen writable (.inl (by simp)) isDirectory)
      rw [← induction isOpen writable (.inl (by simp)) isDirectory, List.map_cons,
        List.cons_append, pathsFrom, isRecursive_plainComponent, plain?_plainComponent]
      simp only [Bool.false_eq_true, if_false, isPresent, if_true, childPath_spell isMore]

/-- What a base names is held at its pieces. -/
theorem holds_pieces (isNode : system.lookup base = .ok node) :
    Holds system (Path.pieces base) node := by
  have isPath := (FileSystem.lookup_eq_ok_iff.mp isNode).1
  refine ⟨Path.pieces_ne_nil isPath, ?_⟩
  intro pieces writable inside
  rw [lookup_spell ((FileSystem.isOpen_pieces isNode).append pieces) writable,
    FileSystem.fromRoot_append (Path.pieces_ne_nil isPath),
    FileSystem.follow_pieces_append isNode inside]

/-- A pattern names directories below a node, whatever stands in front of it. -/
structure Names (node : FileTree) (text : String) (found : List String) : Prop where
  isRead : (parse text).isOk = true
  isReached : ∃ parts, Glob.components text = .ok parts ∧ Reaches node false [] parts found
  isDirectory : ∃ entries, FileTree.follow [] node found = .ok (.directory entries)

/-- A pattern that is read below a directory and does not lead out of it. -/
structure StaysBelow (text : String) : Prop where
  isRelative : Path.isAbsolute text = false
  isInside : ∀ parts, Glob.components text = .ok parts → staysInside false 0 parts = true

theorem StaysBelow.steady {parts : List Component} (staysBelow : StaysBelow text)
    (verbatim : Verbatim base text) (areParts : Glob.components text = .ok parts) :
    Steady (Path.pieces base) false [] parts := by
  refine ⟨?_, ⟨0, rfl, staysBelow.isInside parts areParts⟩, ?_, ?_⟩
  · rw [List.append_nil]
    exact verbatim.isWritable
  · intro component isPart name isPlain
    exact noSeparator_of_components staysBelow.isRelative areParts isPart isPlain
  · rw [List.append_nil]
    cases verbatim.isOpen with
    | inl leads => exact .inl leads
    | inr isOpen => exact .inr (.inr (isOpen parts areParts))

theorem Names.writable {found : List String} (names : Names node text found)
    (isNamed : node.WellNamed) (staysBelow : StaysBelow text) (verbatim : Verbatim base text) :
    Path.Writable (Path.pieces base ++ found) ∧ Path.Inside found := by
  obtain ⟨parts, areParts, reaches⟩ := names.isReached
  exact reaches.steady isNamed (staysBelow.steady verbatim areParts)

theorem directories_join {entries : List (String × FileTree)}
    (isBase : system.lookup base = .ok (.directory entries)) (verbatim : Verbatim base text)
    (isRelative : Path.isAbsolute text = false) {parts : List Component}
    (isRead : (parse text).isOk = true) (areParts : Glob.components text = .ok parts) :
    directories system (Path.join base text) =
      .ok ((pathsFrom system false (spell (Path.pieces base ++ [])) parts).filter
        (namesDirectory system)) := by
  have isPath := (FileSystem.lookup_eq_ok_iff.mp isBase).1
  have isWritable := verbatim.isWritable
  have isOpen := FileSystem.isOpen_pieces isBase
  have isFollowed := @FileSystem.follow_pieces_append _ _ _ [] isBase rfl
  rw [List.append_nil] at isFollowed
  obtain ⟨start, isAll, isStart, isMore⟩ := exists_start isPath
  rw [isAll] at isWritable isOpen isFollowed
  have areFollowed := @pathsFrom_plain _ parts _ _ _ isOpen isWritable isMore isFollowed
  rw [← isOk_parse_join verbatim.noWildcard isPath isRelative] at isRead
  rw [directories, components_join verbatim.noWildcard isPath isRelative, areParts, List.append_nil]
  cases isParsed : parse (Path.join base text) with
  | error error =>
      rw [isParsed] at isRead
      cases isRead
  | ok tokens =>
      rw [isAll, ← areFollowed, ← isStart, startOf, Path.isAbsolute_join_tail isPath isRelative]
      rfl

/-- The directories of a joined pattern are those that the pattern names below the base. -/
theorem mem_directories_join_iff {entries : List (String × FileTree)}
    (isNamed : system.root.WellNamed) (isBase : system.lookup base = .ok (.directory entries))
    (verbatim : Verbatim base text) (staysBelow : StaysBelow text) :
    (∃ paths, directories system (Path.join base text) = .ok paths ∧ path ∈ paths) ↔
      ∃ found, Names (.directory entries) text found ∧
        path = spell (Path.pieces base ++ found) := by
  have isPath := (FileSystem.lookup_eq_ok_iff.mp isBase).1
  have areNamed := isNamed.lookup isBase
  have holds := holds_pieces isBase
  have isDirectory : ∀ parts found, Glob.components text = .ok parts →
      Reaches (.directory entries) false [] parts found →
        (namesDirectory system (spell (Path.pieces base ++ found)) = true ↔
          ∃ content, FileTree.follow [] (.directory entries) found = .ok (.directory content)) := by
    intro parts found areParts reaches
    obtain ⟨writable, inside⟩ := reaches.steady areNamed (staysBelow.steady verbatim areParts)
    rw [namesDirectory_iff, holds.leads found writable inside]
  constructor
  · intro isMember
    obtain ⟨paths, isPaths, isMember⟩ := isMember
    obtain ⟨_, isJoined, isRest⟩ := bind_eq_ok_iff.mp isPaths
    have isRead := isOk_parse_join verbatim.noWildcard isPath staysBelow.isRelative
    rw [isJoined] at isRead
    obtain ⟨_, areJoined, _⟩ := bind_eq_ok_iff.mp isRest
    rw [components_join verbatim.noWildcard isPath staysBelow.isRelative] at areJoined
    cases areParts : Glob.components text with
    | error error =>
        rw [areParts] at areJoined
        cases areJoined
    | ok parts =>
        rw [directories_join isBase verbatim staysBelow.isRelative isRead.symm areParts] at isPaths
        cases isPaths
        obtain ⟨isMember, isNamed⟩ := List.mem_filter.mp isMember
        obtain ⟨found, reaches, rfl⟩ :=
          (mem_pathsFrom_iff holds areNamed (staysBelow.steady verbatim areParts)).mp isMember
        have isFound := (isDirectory parts found areParts reaches).mp isNamed
        exact ⟨found, ⟨isRead.symm, ⟨parts, areParts, reaches⟩, isFound⟩, rfl⟩
  · intro isFound
    obtain ⟨found, names, rfl⟩ := isFound
    obtain ⟨parts, areParts, reaches⟩ := names.isReached
    refine ⟨_, directories_join isBase verbatim staysBelow.isRelative names.isRead areParts, ?_⟩
    apply List.mem_filter.mpr
    refine ⟨?_, (isDirectory parts found areParts reaches).mpr names.isDirectory⟩
    exact (mem_pathsFrom_iff holds areNamed (staysBelow.steady verbatim areParts)).mpr
      ⟨found, reaches, rfl⟩

end Base

end StoreLint.Glob
