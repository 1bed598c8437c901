import LinkedNotes.Yaml.Document
import LinkedNotes.Yaml.Tree

/-!
# Trees as nodes

A tree that is written as a document is read as a node, which also tells how each text is written.
Main statement: a record is read from the node of a mapping field by field, when the keys are its
names and each of them stands once. That the document of a tree holds this node is left to the
modules about scalars and tokens.
-/

namespace LinkedNotes.Yaml

namespace Tree

/-- How a text in quotes is written. -/
def quotedStyle (text : Text) : Style :=
  if needsEscapes text || hasPair isBreak isSpace text then .doubleQuoted else .singleQuoted

/-- How a text is written. -/
def scalarStyle (text : Text) : Style :=
  if '\n' ∈ text then
    if needsEscapes text || text.getLast?.any isSpace then .doubleQuoted else .literal
  else if Plain.isOther text || !canBePlain text then quotedStyle text
  else .plain

/-- A text as a node. -/
def scalarNode (text : Text) : Node :=
  .scalar text (scalarStyle text) none

mutual

/-- A tree as a node. -/
def toNode : Tree → Node
  | str value => scalarNode value
  | bool value => .scalar (boolText value) .plain none
  | texts items => .list (items.map scalarNode)
  | mapping entries => .mapping (entryNodes entries)

/-- The entries of a mapping as nodes. -/
def entryNodes : List (Text × Tree) → List (Node × Node)
  | [] => []
  | (key, value) :: rest => (.scalar key .plain none, toNode value) :: entryNodes rest

end

end Tree

namespace Document

variable (document : Document)

/-- A text is read from its node. -/
@[simp]
theorem text?_toNode (text : Text) : document.text? (Tree.str text).toNode = some text :=
  rfl

/-- Texts are read from their nodes. -/
@[simp]
theorem texts?_toNode (items : List Text) :
    document.texts? (Tree.texts items).toNode = some items := by
  have hall : (items.map Tree.scalarNode).mapM document.text? = some items := by
    induction items with
    | nil => rfl
    | cons item rest ih =>
      rw [List.map_cons, List.mapM_cons, ih]
      rfl
  exact hall

/-- A truth value is read from its node. -/
@[simp]
theorem bool?_toNode (value : Bool) : document.bool? (Tree.bool value).toNode = some value := by
  have hword : document.bool? (Tree.bool value).toNode =
      truthValues.lookup (Tree.boolText value) := rfl
  rw [hword]
  cases value <;> decide +kernel

/-- A text that is one of several names is read as what it names. -/
@[simp]
theorem variant?_toNode {α : Type} (variants : List (Text × α)) (name : Text) :
    document.variant? variants (Tree.str name).toNode = variants.lookup name :=
  rfl

/-- The entries of a mapping as fields of a record. -/
def fieldsOf (entries : List (Text × Tree)) : List (Text × Node) :=
  entries.map fun entry => (entry.1, entry.2.toNode)

/-- The names in front of the nodes are read. -/
theorem mapM_entryNodes {legacy : List (Text × Text)} {entries : List (Text × Tree)}
    (hcurrent : ∀ entry ∈ entries, legacy.lookup entry.1 = none) :
    (Tree.entryNodes entries).mapM (fun (key, value) => do
        let name ← document.text? key
        return ((legacy.lookup name).getD name, value)) = some (fieldsOf entries) := by
  induction entries with
  | nil => rfl
  | cons entry rest ih =>
    obtain ⟨key, value⟩ := entry
    have hkey : legacy.lookup key = none := hcurrent (key, value) List.mem_cons_self
    have hname : document.text? (.scalar key .plain none) = some key := rfl
    rw [Tree.entryNodes, List.mapM_cons, ih fun entry hentry =>
      hcurrent entry (List.mem_cons_of_mem _ hentry)]
    simp [hname, hkey, fieldsOf]

/-- A record is read from a mapping field by field, if its keys are names of the record. -/
theorem record?_toNode {α : Type} (reader : RecordReader α) (start : α)
    {entries : List (Text × Tree)} (hnames : ∀ entry ∈ entries, entry.1 ∈ reader.names)
    (hcurrent : ∀ entry ∈ entries, reader.legacy.lookup entry.1 = none)
    (hnodup : (entries.map (·.1)).Nodup) :
    document.record? reader start (Tree.mapping entries).toNode =
      (fieldsOf entries).foldlM (fun record field => reader.set record field.1 field.2) start := by
  have hknown : (fieldsOf entries).filter (fun field => Text.isOneOf field.1 reader.names) =
      fieldsOf entries := by
    refine List.filter_eq_self.mpr fun field hfield => ?_
    obtain ⟨entry, hentry, rfl⟩ := List.mem_map.mp hfield
    exact Text.isOneOf_iff.mpr (hnames entry hentry)
  have hkeys : (fieldsOf entries).map (·.1) = entries.map (·.1) := by
    rw [fieldsOf, List.map_map]
    rfl
  have hfields := document.mapM_entryNodes hcurrent
  simp only [record?, follow, Tree.toNode]
  rw [hfields, Option.bind_eq_bind, Option.bind_some, hknown, hkeys, if_pos hnodup]

end Document
end LinkedNotes.Yaml
