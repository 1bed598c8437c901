import LinkedNotes.Pattern.Wildcard

/-!
# Ignore files

The rules by which git ignores files. A rule names files by their base name, or by their path from
the directory of its ignore file when it has a slash before its end; a rule that ends in a slash
only names directories, and one that starts with `!` takes files back. The last rule that names a
path decides, rules of deeper directories come later, and a file in an ignored directory is ignored
whatever other rules say.
-/

namespace LinkedNotes.Ignore

open Wildcard

/-- A rule of an ignore file. -/
structure Rule where
  /-- Whether the rule takes files back. -/
  negated : Bool
  /-- Whether the rule only names directories. -/
  directoryOnly : Bool
  /-- Whether the rule compares base names. -/
  baseName : Bool
  /-- The pattern of the rule, as octets. -/
  pattern : List Octet
  deriving DecidableEq, Repr

/-- Octets with a special meaning in patterns: `*`, `?`, `[` and the backslash. -/
def isSpecial (octet : Octet) : Bool :=
  octet == 0x2A || octet == 0x3F || octet == 0x5B || octet == 0x5C

/-- A class inside brackets. `previous` is the octet that a range may start with, `ranges` what the
class holds so far, and `first` tells whether a closing bracket would be a member. -/
def classSet? : Nat → Option Octet → List (Octet × Octet) → Bool → List Octet →
    Option (List (Octet × Octet) × List Octet)
  | 0, _, _, _, _ => none
  | fuel + 1, previous, ranges, first, octets =>
    match octets, previous with
    | [], _ => none
    | 0x5D :: rest, _ =>
      if first then classSet? fuel (some 0x5D) ((0x5D, 0x5D) :: ranges) false rest
      else some (ranges, rest)
    | 0x5C :: octet :: rest, _ => classSet? fuel (some octet) ((octet, octet) :: ranges) false rest
    | [0x5C], _ => none
    | 0x2D :: 0x5C :: high :: rest, some low =>
      classSet? fuel none ((low, high) :: ranges) false rest
    | 0x2D :: high :: rest, some low =>
      if high = 0x5D then classSet? fuel (some 0x2D) ((0x2D, 0x2D) :: ranges) false (high :: rest)
      else classSet? fuel none ((low, high) :: ranges) false rest
    | octet :: rest, _ =>
      match octet, named? rest with
      | 0x5B, some (members, rest) => classSet? fuel none (members ++ ranges) false rest
      | _, _ => classSet? fuel (some octet) ((octet, octet) :: ranges) false rest
where
  /-- A named class after its bracket, such as `:digit:]`. -/
  named? (octets : List Octet) : Option (List (Octet × Octet) × List Octet) :=
    names.findSome? fun (name, members) =>
      let written := Text.octets (':' :: name.toList ++ ":]".toList)
      if written.isPrefixOf octets then some (members, octets.drop written.length) else none
  /-- The named classes. -/
  names : List (String × List (Octet × Octet)) :=
    [("alnum", [(48, 57), (65, 90), (97, 122)]), ("alpha", [(65, 90), (97, 122)]),
      ("blank", [(9, 9), (32, 32)]), ("cntrl", [(0, 31), (127, 127)]), ("digit", [(48, 57)]),
      ("graph", [(33, 126)]), ("lower", [(97, 122)]), ("print", [(32, 126)]),
      ("punct", [(33, 47), (58, 64), (91, 96), (123, 126)]), ("space", [(9, 13), (32, 32)]),
      ("upper", [(65, 90)]), ("xdigit", [(48, 57), (65, 70), (97, 102)])]

/-- The set for a class: never a slash. -/
def classAtom (negated : Bool) (ranges : List (Octet × Octet)) : Atom :=
  if negated then .one ⟨true, (slash, slash) :: ranges⟩
  else .one ⟨false, ranges.flatMap withoutSlash⟩
where
  /-- A range without the slash. -/
  withoutSlash (range : Octet × Octet) : List (Octet × Octet) :=
    if range.1 ≤ slash ∧ slash ≤ range.2 then
      [(range.1, slash - 1), (slash + 1, range.2)]
    else [range]

/-- The rows of a pattern in which slashes are only matched by slashes and by `**` between them.
`afterSlash` tells whether the pattern begins here or a slash came before. A pattern with an open
class or a lone backslash at its end matches nothing. The fuel bounds the steps. -/
def rows : Nat → Bool → List Octet → List (List Atom)
  | _, _, [] => [[]]
  | 0, _, _ => []
  | fuel + 1, afterSlash, octet :: rest =>
    match octet with
    | 0x5C =>
      match rest with
      | next :: rest => sequence [[.one (.single next)]] (rows fuel (next == slash) rest)
      | [] => []
    | 0x3F => sequence [[.one .inside]] (rows fuel false rest)
    | 0x2A =>
      let after := rest.dropWhile (· == 0x2A)
      let double := rest.head? == some 0x2A && afterSlash
      if double && after.isEmpty then [[.many .all]]
      else if double && after.head? == some slash then
        (rows fuel true (after.drop 1)) ++ sequence [[.many .all]] (rows fuel false after)
      else if double && [0x5C, slash].isPrefixOf after then
        sequence [[.many .all]] (rows fuel false after)
      else sequence [[.many .inside]] (rows fuel false after)
    | 0x5B =>
      let negated := rest.head? == some 0x21 || rest.head? == some 0x5E
      let body := if negated then rest.drop 1 else rest
      match classSet? (body.length + 1) none [] true body with
      | some (ranges, rest) => sequence [[classAtom negated ranges]] (rows fuel false rest)
      | none => []
    | _ => sequence [[.one (.single octet)]] (rows fuel (octet == slash) rest)

/-- Whether a pattern matches a path or a base name. Its octets before the first special one are
compared as they are, and the rest is a pattern of its own. -/
def patternMatches (pattern octets : List Octet) : Bool :=
  let plain := pattern.takeWhile (!isSpecial ·)
  let special := pattern.drop plain.length
  plain.isPrefixOf octets &&
    (rows special.length true special).any (matchesAtoms · (octets.drop plain.length))

/-- A line without blanks at its end, unless a backslash stands before the last of them. -/
def trimLine (line : List Octet) : List Octet :=
  let spaces := (line.reverse.takeWhile (· == 0x20)).length
  let kept := line.take (line.length - spaces)
  let slashes := (kept.reverse.takeWhile (· == 0x5C)).length
  if 0 < spaces ∧ slashes % 2 = 1 then kept ++ [0x20] else kept

/-- The rule of a line, if it has one. -/
def ruleOfLine? (line : List Octet) : Option Rule :=
  if line.head? = some 0x23 ∨ line = [] then none
  else
    let line := trimLine line
    let negated := line.head? == some 0x21
    let line := if negated then line.drop 1 else line
    let directoryOnly := line.getLast? == some slash
    let line := if directoryOnly then line.dropLast else line
    some ⟨negated, directoryOnly, !line.contains slash, line⟩

/-- The rules of an ignore file. -/
def rulesOf (content : Text) : List Rule :=
  let content := if content.head? = some '\uFEFF' then content.drop 1 else content
  (Text.splitOn '\n' content).filterMap fun line => ruleOfLine? (Text.dropReturn line).octets

/-- The octets of a path below some directory. -/
def pathOctets (names : List Text) : List Octet :=
  (Text.joinWith ['/'] names).octets

/-- Whether a rule names a path, given from the directory of the ignore file. -/
def Rule.names (rule : Rule) (path : List Text) (isDirectory : Bool) : Bool :=
  (isDirectory || !rule.directoryOnly) &&
    if rule.baseName then patternMatches rule.pattern (path.getLastD []).octets
    else
      let pattern := if rule.pattern.head? = some slash then rule.pattern.drop 1 else rule.pattern
      patternMatches pattern (pathOctets path)

/-- What the last rule that names a path says: whether it is ignored. Ignore files are given with
the number of directories above them, innermost first. -/
def verdict? (files : List (Nat × List Rule)) (path : List Text) (isDirectory : Bool) :
    Option Bool :=
  files.findSome? fun (depth, rules) =>
    (rules.reverse.find? (·.names (path.drop depth) isDirectory)).map (!·.negated)

/-- Whether a path is ignored. `rulesIn` gives the rules of the ignore file of a directory, `files`
those of the directories above, and `depth` how many names of the path are known to be directories
that are not ignored. The fuel is the number of names that are left. -/
def ignoredFrom (rulesIn : List Text → List Rule) (path : List Text) :
    Nat → Nat → List (Nat × List Rule) → Bool
  | 0, _, _ => false
  | fuel + 1, depth, files =>
    let files := (depth, rulesIn (path.take depth)) :: files
    let isDirectory := depth + 1 < path.length
    match verdict? files (path.take (depth + 1)) isDirectory with
    | some true => true
    | _ => ignoredFrom rulesIn path fuel (depth + 1) files

/-- Whether the file at a path is ignored, given the rules of each directory. -/
def ignored (rulesIn : List Text → List Rule) (path : List Text) : Bool :=
  ignoredFrom rulesIn path path.length 0 []

/-- A file that is taken back stays ignored inside an ignored directory. -/
example : ignored (fun dir => if dir = [] then rulesOf "*.md\n!keep.md\nold/".toList else [])
      ["keep.md".toList] = false ∧
    ignored (fun dir => if dir = [] then rulesOf "*.md\n!keep.md\nold/".toList else [])
      ["old".toList, "keep.md".toList] = true := by decide +kernel

end LinkedNotes.Ignore
