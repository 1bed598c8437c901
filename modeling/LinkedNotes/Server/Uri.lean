import LinkedNotes.Path.Basic

/-!
# URIs

Editors name documents by URIs. A URI is kept in its normal form: the scheme is in lower case, dot
segments are resolved, and what may not stand in a URI is escaped by its octets. A URI whose path
consists of segments stands for a file unless it names another host, and every absolute path has a
URI.
-/

namespace LinkedNotes

/-- A URI in parts. -/
structure Uri where
  /-- What stands before the colon. -/
  scheme : Text
  /-- The host, with what belongs to it, after two slashes. -/
  authority : Option Text
  /-- The path. -/
  path : Text
  /-- The query and the fragment with their marks. -/
  tail : Text
  deriving DecidableEq, Repr

namespace Uri

/-- The text of a URI. -/
def toText (uri : Uri) : Text :=
  let authority := match uri.authority with
    | some host => ['/', '/'] ++ host
    | none => []
  uri.scheme ++ [':'] ++ authority ++ uri.path ++ uri.tail

/-! ## Escapes -/

/-- Two hexadecimal digits of an octet. -/
def hexOctet (octet : UInt8) : Text :=
  let digits := (Nat.toDigits 16 octet.toNat).map Char.toUpper
  List.replicate (2 - digits.length) '0' ++ digits

/-- Whether a character never stands in a URI: controls and what is not ASCII. -/
def isForeign (c : Char) : Bool :=
  c.toNat < 0x20 || 0x7E < c.toNat

/-- A text with foreign characters and some others escaped by their octets. -/
def escape (others : Text) (text : Text) : Text :=
  text.flatMap fun c =>
    if isForeign c || c ∈ others then
      (String.utf8EncodeChar c).flatMap fun octet => '%' :: hexOctet octet
    else [c]

/-- What is escaped in a path. -/
def pathEscapes : Text := " \"#<>?`\x7b\x7d".toList

/-- What is escaped in a segment that may hold any character. -/
def segmentEscapes : Text := pathEscapes ++ "/%\\".toList

/-- What is escaped in the query of a URI with a host. -/
def queryEscapes : Text := " \"#<>'".toList

/-- What is escaped in a fragment. -/
def fragmentEscapes : Text := " \"<>`".toList

/-- The value of a hexadecimal digit. -/
def hexDigit? (c : Char) : Option Nat :=
  if '0' ≤ c ∧ c ≤ '9' then some (c.toNat - '0'.toNat)
  else if 'a' ≤ c ∧ c ≤ 'f' then some (c.toNat - 'a'.toNat + 10)
  else if 'A' ≤ c ∧ c ≤ 'F' then some (c.toNat - 'A'.toNat + 10)
  else none

/-- The octets of a text with its escapes read; a percent sign without two digits stands for
itself. -/
def octets : Text → List UInt8
  | '%' :: a :: b :: rest =>
    match hexDigit? a, hexDigit? b with
    | some high, some low => UInt8.ofNat (16 * high + low) :: octets rest
    | _, _ => String.utf8EncodeChar '%' ++ octets (a :: b :: rest)
  | c :: rest => String.utf8EncodeChar c ++ octets rest
  | [] => []

/-- The text that escapes stand for, unless their octets are no text. -/
def unescape? (text : Text) : Option Text :=
  (String.fromUTF8? ⟨(octets text).toArray⟩).map String.toList

/-! ## Paths -/

/-- Whether a segment stands for the directory itself. -/
def isHere (segment : Text) : Bool :=
  Text.isOneOf (segment.map Char.toLower) [".".toList, "%2e".toList]

/-- Whether a segment leads up one directory. -/
def isUp (segment : Text) : Bool :=
  Text.isOneOf (segment.map Char.toLower)
    ["..".toList, ".%2e".toList, "%2e.".toList, "%2e%2e".toList]

/-- Whether a segment is a letter and a mark. -/
def isDrive (marks : Text) : Text → Bool
  | [letter, mark] => letter.isAlpha && mark ∈ marks
  | _ => false

/-- Segments without the last one; a drive stays. -/
def dropLast (drives : Bool) : List Text → List Text
  | [segment] => if drives && isDrive [':'] segment then [segment] else []
  | segments => segments.drop 1

/-- Segments with dot segments resolved, after some that are done, in reverse. A dot segment at the
end leaves an empty one. -/
def resolveDots (drives : Bool) : List Text → List Text → List Text
  | done, [] => done.reverse
  | done, segment :: rest =>
    let close (done : List Text) := if rest = [] then [] :: done else done
    if isUp segment then resolveDots drives (close (dropLast drives done)) rest
    else if isHere segment then resolveDots drives (close done) rest
    else
      let segment :=
        if drives && done = [] && isDrive [':', '|'] segment then segment.take 1 ++ [':']
        else escape pathEscapes segment
      resolveDots drives (segment :: done) rest

/-- The normal form of a path in a URI. -/
def normalPath (drives : Bool) (path : Text) : Text :=
  let below := if path.head? = some '/' then path.drop 1 else path
  '/' :: Text.joinWith ['/'] (resolveDots drives [] (Text.splitOn '/' below))

/-! ## Reading -/

/-- Schemes whose URIs have a host. -/
def webSchemes : List Text :=
  ["http".toList, "https".toList, "ws".toList, "wss".toList, "ftp".toList]

/-- Characters that no host has. -/
def hostBreakers : Text := " #%/:<>?@[\\]^|".toList

/-- A `file` URI. Backslashes count as slashes, and an empty first part of the path does not count.
A drive in place of the host belongs to the path. -/
def ofFile? (body tail : Text) : Option Uri :=
  let body := body.map fun c => if c = '\\' then '/' else c
  let place (host path : Text) : Uri :=
    let path := normalPath true path
    let host := if isDrive [':'] ((path.drop 1).takeWhile (· ≠ '/')) then [] else host
    ⟨"file".toList, some host, '/' :: path.dropWhile (· = '/'), tail⟩
  match body with
  | '/' :: '/' :: rest =>
    let host := rest.takeWhile (· ≠ '/')
    if isDrive [':', '|'] host then some (place [] rest)
    else if host.any (fun c => c ∈ hostBreakers || c.toNat < 0x20) then none
    else
      let host := host.map Char.toLower
      some (place (if host = "localhost".toList then [] else host) (rest.drop host.length))
  | _ => some (place [] body)

/-- A URI of a scheme whose URIs have a host. -/
def ofWeb? (scheme body tail : Text) : Option Uri :=
  let body := (body.map fun c => if c = '\\' then '/' else c).dropWhile (· = '/')
  let host := body.takeWhile (· ≠ '/')
  if host = [] then none
  else some ⟨scheme, some (host.map Char.toLower), normalPath false (body.drop host.length), tail⟩

/-- A URI of any other scheme. Without a slash its path is not taken apart. -/
def ofOther (scheme body tail : Text) : Uri :=
  match body with
  | '/' :: '/' :: rest =>
    let host := rest.takeWhile (· ≠ '/')
    let path := rest.drop host.length
    ⟨scheme, some (escape [] host), if path = [] then [] else normalPath false path, tail⟩
  | '/' :: rest => ⟨scheme, none, normalPath false rest, tail⟩
  | _ => ⟨scheme, none, escape [] body, tail⟩

/-- The query and the fragment in normal form. -/
def normalTail (queryEscapes tail : Text) : Text :=
  let query := tail.takeWhile (· ≠ '#')
  let fragment := tail.drop query.length
  let shown (mark : Text) (escapes : Text) := mark.take 1 ++ escape escapes (mark.drop 1)
  shown query queryEscapes ++ shown fragment fragmentEscapes

/-- Whether a character may stand in a scheme after its first letter. -/
def isSchemeChar (c : Char) : Bool :=
  c.isAlphanum || c ∈ ['+', '-', '.']

/-- A character that does not count at the ends of a URI. -/
def isEdge (c : Char) : Bool :=
  c.toNat ≤ 0x20

/-- Reads a URI; a text without a scheme is none. -/
def parse? (text : Text) : Option Uri :=
  let trimmed := ((text.dropWhile isEdge).reverse.dropWhile isEdge).reverse
  let text := trimmed.filter (· ∉ ['\t', '\n', '\r'])
  let scheme := text.takeWhile isSchemeChar
  match text.drop scheme.length with
  | ':' :: rest =>
    if !scheme.head?.any Char.isAlpha then none
    else
      let scheme := scheme.map Char.toLower
      let body := rest.takeWhile fun c => c ≠ '?' && c ≠ '#'
      let tail := rest.drop body.length
      let isFile := scheme = "file".toList
      let isWeb := Text.isOneOf scheme webSchemes
      let escapes := if isFile || isWeb then queryEscapes else queryEscapes.dropLast
      let tail := normalTail escapes tail
      if isFile then ofFile? body tail
      else if isWeb then ofWeb? scheme body tail
      else some (ofOther scheme body tail)
  | _ => none

/-! ## Files -/

/-- A path that ends with a drive has a slash after it. -/
def closeDrive (path : Text) : Text :=
  match path.reverse with
  | mark :: letter :: _ :: _ =>
    if letter.isAlpha && (mark = ':' || mark = '|') then path ++ ['/'] else path
  | _ => path

/-- The host of a URI, without a user before it and without a number after it. -/
def host (uri : Uri) : Text :=
  (Text.splitOn '@' (uri.authority.getD [])).getLastD [] |>.takeWhile (· ≠ ':')

/-- Whether a URI is about this machine, whatever its scheme. -/
def isLocal (uri : Uri) : Bool :=
  uri.host = [] || uri.host = "localhost".toList

/-- The path that a URI stands for, if it is about this machine and has a path of segments. -/
def toPath? (uri : Uri) : Option Path :=
  if uri.isLocal && uri.path.head? = some '/' then
    (unescape? uri.path).map fun path => ⟨closeDrive path⟩
  else none

/-- The URI of an absolute path. -/
def ofPath? (path : Path) : Option Uri :=
  if path.isAbsolute then
    let segments := path.components.tail.map fun part => escape segmentEscapes part.text
    some ⟨"file".toList, some [], '/' :: Text.joinWith ['/'] segments, []⟩
  else none

end Uri
end LinkedNotes
