import LinkedNotes.Pattern.Wildcard

/-!
# Globs that leave files out

The patterns with which settings leave files out of the list of notes. `?` stands for an octet and
`*` for any number of them, slashes included; `**` as a whole component stands for any number of
directories; brackets hold a class, braces hold alternatives, and a backslash takes the next
character as it is. A pattern that breaks these rules is not valid. The valid ones of several
patterns are made into one set, for which they may not be nested too deep.
-/

namespace LinkedNotes.Glob

open Wildcard

/-- A part of a glob. -/
inductive Piece where
  /-- A character as it is. -/
  | char (c : Char)
  /-- Any one octet. -/
  | any
  /-- Any number of octets. -/
  | star
  /-- Any number of directories at the start. -/
  | leadingDirs
  /-- A slash, and any number of directories after it. -/
  | innerDirs
  /-- A slash and all that follows. -/
  | trailingDirs
  /-- A class of characters, given by ranges. -/
  | oneOf (negated : Bool) (ranges : List (Char × Char))
  /-- One of several globs. -/
  | choice (alternatives : List (List Piece))
  deriving Repr, Inhabited

/-- An open brace: the parts before it, in reverse, and the alternatives that are complete. -/
structure Group where
  /-- What stands before the brace, in reverse. -/
  before : List Piece
  /-- Complete alternatives, in reverse. -/
  done : List (List Piece)

/-- How far a glob has been read. -/
structure Reading where
  /-- The character that was read last. -/
  previous : Option Char := none
  /-- The parts of the alternative that is being read, in reverse. -/
  current : List Piece := []
  /-- The braces that are open, innermost first. -/
  groups : List Group := []

namespace Reading

/-- The reading after one more part, the last character of which is given. -/
def push (reading : Reading) (piece : Piece) (last : Char) : Reading :=
  { reading with previous := some last, current := piece :: reading.current }

/-- Whether what follows `**` ends the glob or the alternative. -/
def endsHere (reading : Reading) : Text → Bool
  | [] => true
  | c :: _ => !reading.groups.isEmpty && (c == ',' || c == '\x7d')

/-- The reading after `**`, and the rest of the glob. It stands for directories only as a whole
component; otherwise it is the same as one star twice. -/
def doubleStar (reading : Reading) (rest : Text) : Reading × Text :=
  let stars := ((reading.push .star '*').push .star '*', rest)
  match reading.previous, reading.current with
  | _, [] =>
    match rest with
    | [] => (reading.push .leadingDirs '*', [])
    | '/' :: more => (reading.push .leadingDirs '/', more)
    | _ => stars
  | some '/', last :: before =>
    if reading.endsHere rest then
      ({ reading with previous := some '*', current := joined .trailingDirs last :: before }, rest)
    else match rest with
      | '/' :: more =>
        ({ reading with previous := some '/', current := joined .innerDirs last :: before }, more)
      | _ => stars
  | _, _ => stars
where
  /-- Directories that follow directories add nothing; otherwise the slash before them is theirs. -/
  joined (piece : Piece) : Piece → Piece
    | .leadingDirs => .leadingDirs
    | .trailingDirs => .trailingDirs
    | _ => piece

/-- The ranges of a class up to its closing bracket, and the rest of the glob. A range that runs
backwards, or a missing bracket, is refused. `ranges` holds the ranges so far in reverse, `first`
tells whether nothing was read yet, and `open` whether the last range waits for its end. -/
def classRanges? : List (Char × Char) → Bool → Bool → Text → Option (List (Char × Char) × Text)
  | _, _, _, [] => none
  | ranges, first, waiting, c :: rest =>
    if c = ']' ∧ !first then
      some ((if waiting then ('-', '-') :: ranges else ranges).reverse, rest)
    else if c = '-' ∧ !first ∧ !waiting then classRanges? ranges false true rest
    else match waiting, ranges with
      | true, (low, _) :: before =>
        if c < low then none else classRanges? ((low, c) :: before) false false rest
      | _, _ => classRanges? ((c, c) :: ranges) false false rest

/-- A class after its opening bracket, and the rest of the glob. -/
def class? : Text → Option (Piece × Text)
  | c :: rest =>
    let negated := c == '!' || c == '^'
    (classRanges? [] true false (if negated then rest else c :: rest)).map fun (ranges, rest) =>
      (.oneOf negated ranges, rest)
  | [] => none

/-- The reading of the rest of a glob. The fuel bounds the steps; each takes a character. -/
def run? : Nat → Reading → Text → Option Reading
  | _, reading, [] => some reading
  | 0, _, _ => none
  | fuel + 1, reading, c :: rest =>
    match c, rest with
    | '?', _ => run? fuel (reading.push .any c) rest
    | '*', '*' :: rest =>
      let (reading, rest) := reading.doubleStar rest
      run? fuel reading rest
    | '*', _ => run? fuel (reading.push .star c) rest
    | '[', _ => do
      let (piece, rest) ← class? rest
      run? fuel (reading.push piece ']') rest
    | '\x7b', _ => run? fuel ⟨some c, [], ⟨reading.current, []⟩ :: reading.groups⟩ rest
    | '\x7d', _ =>
      match reading.groups with
      | [] => none
      | group :: outer =>
        let all := (reading.current.reverse :: group.done).reverse
        run? fuel ⟨some c, .choice all :: group.before, outer⟩ rest
    | ',', _ =>
      match reading.groups with
      | [] => run? fuel (reading.push (.char c) c) rest
      | group :: outer =>
        let group := { group with done := reading.current.reverse :: group.done }
        run? fuel ⟨some c, [], group :: outer⟩ rest
    | '\\', next :: rest => run? fuel (reading.push (.char next) next) rest
    | '\\', [] => none
    | _, _ => run? fuel (reading.push (.char c) c) rest

end Reading

/-- The parts of a glob, if it is valid. -/
def pieces? (pattern : Text) : Option (List Piece) := do
  let reading ← Reading.run? pattern.length {} pattern
  if reading.groups.isEmpty then some reading.current.reverse else none

/-- The ranges of octets that a range of characters gives in a class. A character of several octets
adds each of them, and the range runs from the last octet of the one to the first of the other. -/
def octetRanges (range : Char × Char) : List (Octet × Octet) :=
  let low := Text.octets [range.1]
  let single (octet : Octet) := (octet, octet)
  if range.1 = range.2 then low.map single
  else
    let high := Text.octets [range.2]
    low.dropLast.map single ++ [(low.getLastD 0, high.headD 0)] ++ (high.drop 1).map single

mutual

/-- Whether a part is only made of alternatives with nothing in them. -/
def Piece.isVoid : Piece → Bool
  | .choice alternatives => allVoidIn alternatives
  | _ => false

/-- Whether parts have nothing in them. -/
def allVoid : List Piece → Bool
  | [] => true
  | piece :: rest => piece.isVoid && allVoid rest

/-- Whether alternatives have nothing in them. -/
def allVoidIn : List (List Piece) → Bool
  | [] => true
  | pieces :: rest => allVoid pieces && allVoidIn rest

end

mutual

/-- The rows that a part stands for. -/
def Piece.rows : Piece → List (List Atom)
  | .char c => [literal [c]]
  | .any => [[.one .all]]
  | .star => [[.many .all]]
  | .leadingDirs => [[], [.many .all, .one (.single slash)]]
  | .innerDirs =>
    [[.one (.single slash)], [.one (.single slash), .many .all, .one (.single slash)]]
  | .trailingDirs => [[.one (.single slash), .many .all]]
  | .oneOf negated ranges => [[.one ⟨negated, ranges.flatMap octetRanges⟩]]
  | .choice alternatives => if allVoidIn alternatives then [[]] else choiceRows alternatives

/-- The rows that parts in sequence stand for. -/
def rowsOf : List Piece → List (List Atom)
  | [] => [[]]
  | piece :: rest => sequence piece.rows (rowsOf rest)

/-- The rows of alternatives; an alternative with nothing in it does not count. -/
def choiceRows : List (List Piece) → List (List Atom)
  | [] => []
  | pieces :: rest => (if allVoid pieces then [] else rowsOf pieces) ++ choiceRows rest

end

/-- The rows of a glob. A glob that is nothing but directories at the start matches all. -/
def rows : List Piece → List (List Atom)
  | [.leadingDirs] => [[.many .all]]
  | pieces => rowsOf pieces

/-- Whether a glob matches the octets of a path. -/
def matchesOctets (glob : List Piece) (path : List Octet) : Bool :=
  (rows glob).any (matchesAtoms · path)

/-- The valid globs among some patterns. -/
def valid (patterns : List Text) : List (List Piece) :=
  patterns.filterMap pieces?

/-! ## Nesting -/

/-- Number of parts of the regular expression that a part stands for. -/
def Piece.nodes : Piece → Nat
  | .char c => c.utf8Size
  | .trailingDirs => 2
  | .choice alternatives => if allVoidIn alternatives then 0 else 1
  | _ => 1

/-- What a sequence or a choice of parts adds to the depth of its parts. -/
def layer (parts : Nat) : Nat :=
  if parts ≤ 1 then 0 else 1

mutual

/-- How deep the regular expression of a part is nested. Braces add a group. -/
def Piece.depth : Piece → Nat
  | .char _ => 0
  | .any => 0
  | .star => 1
  | .trailingDirs => 1
  | .leadingDirs => 4
  | .innerDirs => 4
  | .oneOf _ ranges => 1 + layer (ranges.flatMap octetRanges).length
  | .choice alternatives =>
    if allVoidIn alternatives then 0
    else 1 + layer (alternatives.countP (!allVoid ·)) + depthIn alternatives

/-- How deep the deepest one of some parts is nested. -/
def depthOf : List Piece → Nat
  | [] => 0
  | piece :: rest => max piece.depth (depthOf rest)

/-- How deep the deepest one of some alternatives is nested. -/
def depthIn : List (List Piece) → Nat
  | [] => 0
  | pieces :: rest => max (layer (pieces.map Piece.nodes).sum + depthOf pieces) (depthIn rest)

end

/-- How deep regular expressions may be nested. -/
def depthLimit : Nat := 250

/-- Whether a glob is not nested too deep, between the marks for start and end of a text. -/
def fits (glob : List Piece) : Bool :=
  1 + depthOf glob ≤ depthLimit

/-- Directories of any depth, also none, may stand before a component. -/
example :
    let globs := valid ["**/.git/**".toList, "[".toList]
    let found (path : Text) := globs.map (matchesOctets · path.octets)
    found "a/.git/x.md".toList = [true] ∧ found "a/git/x.md".toList = [false] := by
  decide +kernel

end LinkedNotes.Glob
