import LinkedNotes.Text.Position

/-!
# Link tokens

A link is `[[`, one or more characters other than `]`, and `]]`, on one line. Tokens are found from
left to right and do not overlap; a failed attempt starts again one character further.
-/

namespace LinkedNotes.Link

/-- The two characters that open a link. -/
def opening : Text := ['[', '[']

/-- The two characters that close a link. -/
def closing : Text := [']', ']']

/-- A link token on a line. -/
structure Token where
  /-- Column where the brackets open. -/
  col : Nat
  /-- The text between the brackets. -/
  text : Text
  deriving DecidableEq, Repr

/-- Column after the closing brackets of a token. -/
def Token.endCol (token : Token) : Nat :=
  token.col + 2 + Text.width token.text + 2

/-- The text of the link token at the very start of a text, if there is one. -/
def textAtStart? : Text → Option Text
  | '[' :: '[' :: rest =>
    let inner := rest.takeWhile (· ≠ ']')
    if inner ≠ [] ∧ closing.isPrefixOf (rest.drop inner.length) then some inner else none
  | _ => none

/-- The tokens of the rest of a line that starts at column `col`, after passing over the `skip`
characters that still belong to the last token. -/
def tokensFrom : Nat → Nat → Text → List Token
  | _, _, [] => []
  | skip + 1, col, c :: rest => tokensFrom skip (col + Text.units c) rest
  | 0, col, c :: rest =>
    match textAtStart? (c :: rest) with
    | some inner => ⟨col, inner⟩ :: tokensFrom (inner.length + 3) (col + Text.units c) rest
    | none => tokensFrom 0 (col + Text.units c) rest

/-- The link tokens of a line. -/
def tokens (line : Text) : List Token :=
  tokensFrom 0 0 line

/-- A link token in a document. -/
structure Occurrence where
  /-- The range of the token with its brackets. -/
  range : TextRange
  /-- The text between the brackets. -/
  text : Text
  deriving DecidableEq, Repr

/-- The link tokens of numbered lines. -/
def scanLines : Nat → List Text → List Occurrence
  | _, [] => []
  | n, line :: rest =>
    (tokens (Text.dropReturn line)).map
      (fun token => ⟨.onLine n token.col token.endCol, token.text⟩) ++ scanLines (n + 1) rest

/-- The link tokens of a document, in the order in which they stand there. -/
def scan (text : Text) : List Occurrence :=
  scanLines 0 (Text.splitOn '\n' text)

end LinkedNotes.Link
