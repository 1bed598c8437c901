import LinkedNotes.Yaml.Node
import LinkedNotes.Yaml.Token

/-!
# Documents from tokens

How tokens make up the nodes of a document. A text holds one document or none; more than one is
refused. Every function that follows nested nodes takes fuel, of which the number of tokens gives
enough.
-/

namespace LinkedNotes.Yaml

/-- How far a document has been read. -/
structure Reading where
  /-- The tokens that follow. -/
  tokens : List Token
  /-- What the handles of tags mean. -/
  handles : List (Text × Text) := []
  /-- The names of nodes so far, each with the number of the last node that has it. -/
  names : List (Text × Nat) := []
  /-- The numbers of the named nodes in the order in which they begin, with those that have ended.
  -/
  named : List (Nat × Option Node) := []

namespace Reading

/-- A step of reading. -/
abbrev Reader := StateT Reading Option

/-- The next token; none after the last. -/
def next : Reader (Option Token) := do
  return (← get).tokens.head?

/-- Passes over a token. -/
def skip : Reader Unit :=
  modify fun reading => { reading with tokens := reading.tokens.drop 1 }

/-- Whether the next token is one of some. -/
def sees (tokens : List Token) : Reader Bool := do
  return (← next).any (· ∈ tokens)

/-- Passes over the next token if it is a certain one; tells whether it is. -/
def take (token : Token) : Reader Bool := do
  if ← sees [token] then
    skip
    return true
  else return false

/-- Begins a node with a name; gives its place among the named nodes. A name that occurs again
counts as the same name. -/
def beginNamed (name : Text) : Reader Nat := do
  let reading ← get
  let number := reading.names.length
  set { reading with
    names := (name, number) :: reading.names.filter (·.1 ≠ name),
    named := reading.named ++ [(number, none)] }
  return reading.named.length

/-- Ends a node, which is the one at a place among the named nodes if it has a name. -/
def endNamed (place : Option Nat) (node : Node) : Reader Unit :=
  modify fun reading =>
    { reading with named := match place with
      | some place => reading.named.modify place fun (number, _) => (number, some node)
      | none => reading.named }

/-- The reference that a name means. -/
def reference (name : Text) : Reader Node := do
  match (← get).names.lookup name with
  | some number => return .reference number
  | none => failure

/-- The whole tag that a tag in two parts means. -/
def wholeTag (handle rest : Text) : Reader Text := do
  if handle = [] then return rest
  match (← get).handles.lookup handle with
  | some start => return start ++ rest
  | none => failure

/-- The name and the tag in front of a node, in either order: its place among the named nodes, and
the tag. -/
def properties : Reader (Option Nat × Option Text) := do
  match ← next with
  | some (.anchor name) =>
    skip
    match ← next with
    | some (.tag handle rest) =>
      skip
      let tag ← wholeTag handle rest
      return (some (← beginNamed name), some tag)
    | _ => return (some (← beginNamed name), none)
  | some (.tag handle rest) =>
    skip
    let tag ← wholeTag handle rest
    match ← next with
    | some (.anchor name) =>
      skip
      return (some (← beginNamed name), some tag)
    | _ => return (none, some tag)
  | _ => return (none, none)

mutual

/-- A node. `block` tells whether indentation may begin a list or mapping, `loose` whether the items
of a list may stand at the indentation around it. -/
def node : Nat → Bool → Bool → Reader Node
  | 0, _, _ => failure
  | fuel + 1, block, loose => do
    match ← next with
    | some (.reference name) =>
      skip
      reference name
    | _ =>
      let (place, tag) ← properties
      let node ← content fuel block loose tag (place.isSome || tag.isSome)
      endNamed place node
      return node

/-- What follows the name and tag of a node. Nothing need follow if there is one of them. -/
def content : Nat → Bool → Bool → Option Text → Bool → Reader Node
  | 0, _, _, _, _ => failure
  | fuel + 1, block, loose, tag, marked => do
    match ← next with
    | some (.scalar scalar) =>
      skip
      return .scalar scalar.value scalar.style (tag.filter (· ≠ ['!']))
    | some .flowList =>
      skip
      return .list (← flowItems fuel true)
    | some .flowMapping =>
      skip
      return .mapping (← flowEntries fuel true)
    | token =>
      if loose && token == some .item then return .list (← looseItems fuel)
      else if block && token == some .blockList then
        skip
        return .list (← blockItems fuel)
      else if block && token == some .blockMapping then
        skip
        return .mapping (← blockEntries fuel)
      else if marked then return .scalar [] .plain tag
      else failure

/-- A node, or the empty one where one of some tokens follows. -/
def nodeUnless : Nat → List Token → Bool → Bool → Reader Node
  | 0, _, _, _ => failure
  | fuel + 1, ends, block, loose => do
    if ← sees ends then return .empty else node fuel block loose

/-- The items of a list by indentation. -/
def blockItems : Nat → Reader (List Node)
  | 0 => failure
  | fuel + 1 => do
    if ← take .item then
      let item ← nodeUnless fuel [.item, .blockEnd] true false
      return item :: (← blockItems fuel)
    else if ← take .blockEnd then return []
    else failure

/-- The items of a list at the indentation of the mapping around it. -/
def looseItems : Nat → Reader (List Node)
  | 0 => failure
  | fuel + 1 => do
    if ← take .item then
      let item ← nodeUnless fuel [.item, .key, .value, .blockEnd] true false
      return item :: (← looseItems fuel)
    else return []

/-- The entries of a mapping by indentation. -/
def blockEntries : Nat → Reader (List (Node × Node))
  | 0 => failure
  | fuel + 1 => do
    if ← take .key then
      let ends := [Token.key, .value, .blockEnd]
      let key ← nodeUnless fuel ends true true
      let value ← if ← take .value then nodeUnless fuel ends true true else pure .empty
      return (key, value) :: (← blockEntries fuel)
    else if ← take .blockEnd then return []
    else failure

/-- The items of a list in brackets; every item but the first follows a comma. -/
def flowItems : Nat → Bool → Reader (List Node)
  | 0, _ => failure
  | fuel + 1, first => do
    if ← take .flowListEnd then return []
    if !first then
      if !(← take .comma) then failure
      if ← take .flowListEnd then return []
    let item ← if ← take .key then pair fuel else node fuel false false
    return item :: (← flowItems fuel false)

/-- A mapping of one entry as an item of a list in brackets. A key that is left out takes the token
after it along. -/
def pair : Nat → Reader Node
  | 0 => failure
  | fuel + 1 => do
    let ends := [Token.comma, .flowListEnd]
    let key ← if ← sees (.value :: ends) then
      skip
      pure Node.empty
    else node fuel false false
    let value ← if ← take .value then nodeUnless fuel ends false false else pure .empty
    return .mapping [(key, value)]

/-- The entries of a mapping in braces; every entry but the first follows a comma. -/
def flowEntries : Nat → Bool → Reader (List (Node × Node))
  | 0, _ => failure
  | fuel + 1, first => do
    if ← take .flowMappingEnd then return []
    if !first then
      if !(← take .comma) then failure
      if ← take .flowMappingEnd then return []
    let ends := [Token.comma, .flowMappingEnd]
    let entry ← if ← take .key then
      let key ← nodeUnless fuel (.value :: ends) false false
      let value ← if ← take .value then nodeUnless fuel ends false false else pure .empty
      pure (key, value)
    else
      let key ← node fuel false false
      pure (key, .empty)
    return entry :: (← flowEntries fuel false)

end

/-- What handles mean unless a document says otherwise. -/
def usualHandles : List (Text × Text) :=
  [(['!'], ['!']), (['!', '!'], "tag:yaml.org,2002:".toList)]

/-- The directives before a document. The version may be given once, and so may each handle. The
fuel bounds their number. -/
def directives : Nat → Bool → List (Text × Text) → Reader (List (Text × Text))
  | 0, _, _ => failure
  | fuel + 1, versioned, handles => do
    match ← next with
    | some (.version major minor) =>
      if versioned ∨ major ≠ 1 ∨ (minor ≠ 1 ∧ minor ≠ 2) then failure
      skip
      directives fuel true handles
    | some (.tagMeaning handle text) =>
      if (handles.lookup handle).isSome then failure
      skip
      directives fuel versioned (handles ++ [(handle, text)])
    | _ => return handles

/-- The root of the only document. -/
def root (fuel : Nat) : Reader (Option Node) := do
  match ← next with
  | none => return none
  | some (.version _ _) | some (.tagMeaning _ _) | some .documentStart =>
    let handles ← directives fuel false []
    if !(← take .documentStart) then failure
    modify ({ · with handles := handles ++ usualHandles })
    match ← next with
    | none | some (.version _ _) | some (.tagMeaning _ _) | some .documentStart
    | some .documentEnd => return some .empty
    | _ => return some (← node fuel true false)
  | _ =>
    modify ({ · with handles := usualHandles })
    return some (← node fuel true false)

end Reading

namespace Document

/-- The document that tokens make up, unless there are several or it is malformed. -/
def ofTokens? (tokens : List Token) : Option Document := do
  let (root, reading) ← (Reading.root (4 * (tokens.length + 1))).run { tokens := tokens }
  if reading.tokens.all (· = .documentEnd) then
    return ⟨root, reading.named.filterMap fun (number, node) => node.map (number, ·)⟩
  else none

/-- The document that a text holds, unless it is malformed or holds several. -/
def ofText? (text : Text) : Option Document :=
  (tokens? text).bind ofTokens?

end Document
end LinkedNotes.Yaml
