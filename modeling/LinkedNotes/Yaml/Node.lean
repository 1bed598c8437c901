import LinkedNotes.Yaml.Scalar

/-!
# Nodes of YAML

What a document holds: scalars, lists and mappings, and references to nodes that have a name. A
reference may even stand inside of what it refers to, so it keeps the number of a name, and the
document keeps the nodes.
-/

namespace LinkedNotes.Yaml

/-- A node of a document. -/
inductive Node where
  /-- A text, with how it is written and its tag. -/
  | scalar (value : Text) (style : Style) (tag : Option Text)
  /-- A list. -/
  | list (items : List Node)
  /-- A mapping in the order of its text. -/
  | mapping (entries : List (Node × Node))
  /-- The node that has a number. -/
  | reference (number : Nat)
  deriving Repr, Inhabited

/-- What stands where a node is left out. -/
def Node.empty : Node :=
  .scalar [] .plain none

/-- A document. -/
structure Document where
  /-- What the document holds; a text without any document holds nothing. -/
  root : Option Node
  /-- The nodes that have a name, by number and in the order in which they begin. -/
  named : List (Nat × Node)
  deriving Repr

namespace Document

/-- The node that a number means: of several nodes with one number the last to begin. -/
def node? (document : Document) (number : Nat) : Option Node :=
  (document.named.reverse.find? (·.1 = number)).map (·.2)

/-- A node, or what it refers to. -/
def follow (document : Document) : Node → Node
  | .reference number => (document.node? number).getD (.reference number)
  | node => node

/-- The text of a scalar. -/
def text? (document : Document) (node : Node) : Option Text :=
  match document.follow node with
  | .scalar value _ _ => some value
  | _ => none

/-- The tag of truth values. -/
def boolTag : Text := "tag:yaml.org,2002:bool".toList

/-- The truth values by text. -/
def truthValues : List (Text × Bool) :=
  [("true".toList, true), ("True".toList, true), ("TRUE".toList, true),
    ("false".toList, false), ("False".toList, false), ("FALSE".toList, false)]

/-- The truth value of a scalar, which is plain, or a block with the tag of truth values. -/
def bool? (document : Document) (node : Node) : Option Bool :=
  match document.follow node with
  | .scalar value .plain _ => truthValues.lookup value
  | .scalar value .literal tag => if tag = some boolTag then truthValues.lookup value else none
  | _ => none

/-- The texts of a list; a node that is left out is the empty list. -/
def texts? (document : Document) (node : Node) : Option (List Text) :=
  match document.follow node with
  | .list items => items.mapM document.text?
  | .scalar [] .plain _ => some []
  | _ => none

/-- The texts that stand for nothing when they are plain. -/
def nullTexts : List Text :=
  ["null".toList, "Null".toList, "NULL".toList, "~".toList, []]

/-- One of several names. It may stand as a tag in front of nothing. -/
def variant? {α : Type} (document : Document) (variants : List (Text × α)) (node : Node) :
    Option α :=
  match document.follow node with
  | .scalar value style (some tag) =>
    let name := if tag.head? = some '!' then tag.drop 1 else tag
    if style = .plain ∧ Text.isOneOf value nullTexts then variants.lookup name else none
  | .scalar value _ none => variants.lookup value
  | _ => none

/-- How a record is read: its fields in order, the older names of some of them, and what one field
sets. -/
structure RecordReader (α : Type) where
  /-- Names of the fields in the order of a list. -/
  names : List Text
  /-- Older names of fields with the current ones. -/
  legacy : List (Text × Text)
  /-- The record with one field set from a node. -/
  set : α → Text → Node → Option α

/-- A record whose missing fields keep the values of `start`, from a mapping, from the list of its
fields in order, or from nothing. Unknown names do not count; a field that is given twice is
refused. -/
def record? {α : Type} (document : Document) (reader : RecordReader α) (start : α) (node : Node) :
    Option α :=
  let setAll (fields : List (Text × Node)) : Option α :=
    fields.foldlM (fun record (name, value) => reader.set record name value) start
  match document.follow node with
  | .scalar [] .plain _ => some start
  | .list items =>
    if reader.names.length < items.length then none else setAll (reader.names.zip items)
  | .mapping entries => do
    let fields ← entries.mapM fun (key, value) => do
      let name ← document.text? key
      return ((reader.legacy.lookup name).getD name, value)
    let known := fields.filter fun (name, _) => Text.isOneOf name reader.names
    if (known.map (·.1)).Nodup then setAll known else none
  | _ => none

end Document
end LinkedNotes.Yaml
