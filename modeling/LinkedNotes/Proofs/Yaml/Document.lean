import LinkedNotes.Proofs.Yaml.Nodes
import LinkedNotes.Proofs.Yaml.Token

/-!
# Documents of trees

The tokens of a tree make up the node of the tree, and its document holds this node. Main
definition: `Reading.Reads`, that a step of reading makes a value of some tokens. Main statement:
`Document.ofText?_print`.
-/

namespace LinkedNotes.Yaml

open Tree

namespace Reading

/-! ## Steps -/

/-- Whether a step makes a value of some tokens in front of others, and does nothing else. -/
def Reads {α : Type} (step : Reader α) (tokens rest : List Token) (value : α) : Prop :=
  ∀ reading : Reading, reading.tokens = tokens ++ rest →
    step.run reading = some (value, { reading with tokens := rest })

section Steps

variable {α β : Type} {step : Reader α} {tokens more rest : List Token} {a : α} {b : β}
  {token : Token}

/-- A value is made of no tokens. -/
theorem reads_pure (a : α) (rest : List Token) : Reads (pure a) [] rest a := by
  intro reading h
  have hsame : ({ reading with tokens := rest } : Reading) = reading := by
    rw [← List.nil_append rest, ← h]
  rw [hsame]
  rfl

/-- One step after the other. -/
theorem Reads.bind {next : α → Reader β} (h : Reads step tokens (more ++ rest) a)
    (h' : Reads (next a) more rest b) : Reads (step >>= next) (tokens ++ more) rest b := by
  intro reading hreading
  rw [List.append_assoc] at hreading
  rw [StateT.run_bind, h reading hreading]
  exact h' _ rfl

/-- A step that makes its value of no tokens before another one. -/
theorem Reads.bind_nil {next : α → Reader β} (h : Reads step [] (tokens ++ rest) a)
    (h' : Reads (next a) tokens rest b) : Reads (step >>= next) tokens rest b := by
  have hbind : Reads (step >>= next) ([] ++ tokens) rest b := h.bind h'
  exact hbind

/-- A step that makes its value of one token before another one. -/
theorem Reads.bind_cons {next : α → Reader β} (h : Reads step [token] (tokens ++ rest) a)
    (h' : Reads (next a) tokens rest b) : Reads (step >>= next) (token :: tokens) rest b :=
  h.bind h'

/-- A step that uses a value. -/
theorem Reads.bind_pure {next : α → Reader β} (h : Reads step tokens rest a)
    (h' : Reads (next a) [] rest b) : Reads (step >>= next) tokens rest b := by
  have hbind : Reads (step >>= next) (tokens ++ []) rest b := h.bind h'
  rwa [List.append_nil] at hbind

/-- The next token is looked at. -/
theorem reads_next (rest : List Token) : Reads next [] rest rest.head? := by
  intro reading h
  have hsame : ({ reading with tokens := rest } : Reading) = reading := by
    rw [← List.nil_append rest, ← h]
  rw [hsame, ← List.nil_append rest, ← h]
  rfl

/-- A token is passed over. -/
theorem reads_skip (token : Token) (rest : List Token) : Reads skip [token] rest () := by
  intro reading h
  have hdrop : reading.tokens.drop 1 = rest := by rw [h]; rfl
  rw [← hdrop]
  rfl

/-- Whether one of some tokens follows. -/
theorem reads_sees (tokens rest : List Token) :
    Reads (sees tokens) [] rest (rest.head?.any (· ∈ tokens)) :=
  (reads_next rest).bind_pure (reads_pure _ rest)

/-- The token that is asked for follows. -/
theorem reads_take (token : Token) (rest : List Token) : Reads (take token) [token] rest true := by
  refine (reads_sees [token] ([token] ++ rest)).bind_nil ?_
  have hsees : ([token] ++ rest).head?.any (· ∈ [token]) = true := by simp
  rw [if_pos hsees]
  exact (reads_skip token rest).bind_pure (reads_pure true rest)

/-- The token that is asked for does not follow. -/
theorem reads_take_of_ne (h : rest.head? ≠ some token) : Reads (take token) [] rest false := by
  refine (reads_sees [token] rest).bind_nil ?_
  have hsees : ¬ rest.head?.any (· ∈ [token]) = true := by
    cases rest with
    | nil => simp
    | cons first rest => simpa using h
  rw [if_neg hsees]
  exact reads_pure false rest

end Steps

/-! ## Nodes -/

section Nodes

variable {fuel : Nat} {block loose : Bool} {tokens rest : List Token} {value : Node}

/-- Whether a token names or tags a node, or refers to one. -/
def marksNode : Token → Bool
  | .reference _ | .anchor _ | .tag _ _ => true
  | _ => false

/-- Ending a node without a name changes nothing. -/
theorem reads_endNamed (node : Node) (rest : List Token) :
    Reads (endNamed none node) [] rest () := by
  intro reading h
  have hsame : ({ reading with tokens := rest } : Reading) = reading := by
    rw [← List.nil_append rest, ← h]
  rw [hsame]
  rfl

/-- A node without name and tag is its content. -/
theorem reads_node {token : Token} (htoken : marksNode token = false)
    (h : Reads (content fuel block loose none false) (token :: tokens) rest value) :
    Reads (node (fuel + 1) block loose) (token :: tokens) rest value := by
  have hproperties : Reads properties [] (token :: tokens ++ rest) (none, none) := by
    refine (reads_next _).bind_nil ?_
    cases token <;> first | exact reads_pure _ _ | cases htoken
  have hended : Reads (endNamed none value >>= fun _ => pure value) [] rest value :=
    (reads_endNamed value rest).bind_nil (reads_pure value rest)
  rw [node]
  refine (reads_next _).bind_nil ?_
  cases token <;> first | exact hproperties.bind_nil (h.bind_pure hended) | cases htoken

/-- A scalar is a node. -/
theorem reads_scalar (scalar : Scalar) :
    Reads (node (fuel + 2) block loose) [.scalar scalar] rest
      (.scalar scalar.value scalar.style none) := by
  refine reads_node rfl ?_
  rw [content]
  exact (reads_next _).bind_nil ((reads_skip _ rest).bind_pure (reads_pure _ rest))

/-- The marks of an empty list are a node. -/
theorem reads_emptyList :
    Reads (node (fuel + 3) block loose) [.flowList, .flowListEnd] rest (.list []) := by
  have hitems : Reads (flowItems (fuel + 1) true) [.flowListEnd] rest [] := by
    rw [flowItems]
    exact (reads_take _ rest).bind_pure (reads_pure _ rest)
  refine reads_node rfl ?_
  rw [content]
  exact (reads_next _).bind_nil
    ((reads_skip _ _).bind_cons (hitems.bind_pure (reads_pure _ rest)))

/-- The marks of an empty mapping are a node. -/
theorem reads_emptyMapping :
    Reads (node (fuel + 3) block loose) [.flowMapping, .flowMappingEnd] rest (.mapping []) := by
  have hentries : Reads (flowEntries (fuel + 1) true) [.flowMappingEnd] rest [] := by
    rw [flowEntries]
    exact (reads_take _ rest).bind_pure (reads_pure _ rest)
  refine reads_node rfl ?_
  rw [content]
  exact (reads_next _).bind_nil
    ((reads_skip _ _).bind_cons (hentries.bind_pure (reads_pure _ rest)))

/-- Entries by indentation are a node. -/
theorem reads_blockMapping {entries : List (Node × Node)}
    (h : Reads (blockEntries fuel) tokens rest entries) :
    Reads (node (fuel + 2) true loose) (.blockMapping :: tokens) rest (.mapping entries) := by
  refine reads_node rfl ?_
  rw [content]
  refine (reads_next _).bind_nil ?_
  cases loose <;> exact (reads_skip _ _).bind_cons (h.bind_pure (reads_pure _ rest))

/-- Items at the indentation of their key are a node. -/
theorem reads_looseList {items : List Node}
    (h : Reads (looseItems fuel) (.item :: tokens) rest items) :
    Reads (node (fuel + 2) block true) (.item :: tokens) rest (.list items) := by
  refine reads_node rfl ?_
  rw [content]
  refine (reads_next _).bind_nil ?_
  exact h.bind_pure (reads_pure _ rest)

/-- A node that is no end of what is around it. -/
theorem reads_nodeUnless {ends : List Token} (hends : (tokens ++ rest).head?.any (· ∈ ends) = false)
    (h : Reads (node fuel block loose) tokens rest value) :
    Reads (nodeUnless (fuel + 1) ends block loose) tokens rest value := by
  rw [nodeUnless]
  refine (reads_sees ends _).bind_nil ?_
  rw [hends]
  exact h

end Nodes

/-! ## Trees -/

/-- The items of a list are read. -/
theorem reads_looseItems {fuel : Nat} {items : List Text} {rest : List Token}
    (hrest : rest.head? ≠ some .item) (hfuel : items.length + 4 ≤ fuel) :
    Reads (looseItems fuel) (itemTokens items) rest (items.map scalarNode) := by
  induction items generalizing fuel with
  | nil =>
    obtain ⟨fuel, rfl⟩ : ∃ spare, fuel = spare + 1 := ⟨fuel - 1, by omega⟩
    rw [looseItems]
    exact (reads_take_of_ne hrest).bind_nil (reads_pure _ rest)
  | cons item items ih =>
    obtain ⟨fuel, rfl⟩ : ∃ spare, fuel = spare + 4 := ⟨fuel - 4, by omega⟩
    rw [List.length_cons] at hfuel
    have hitem : Reads (nodeUnless (fuel + 3) [.item, .key, .value, .blockEnd] true false)
        [scalarToken item] (itemTokens items ++ rest) (scalarNode item) :=
      reads_nodeUnless rfl (reads_scalar _)
    have hmore : Reads (looseItems (fuel + 3)) (itemTokens items) rest (items.map scalarNode) :=
      ih (by omega)
    rw [looseItems]
    exact (reads_take .item _).bind_cons (hitem.bind_cons (hmore.bind_pure (reads_pure _ rest)))

/-- A tree is no end of what is around it. -/
theorem head?_tokens (tree : Tree) (rest : List Token) :
    (tree.tokens ++ rest).head?.any (· ∈ [Token.key, .value, .blockEnd]) = false := by
  cases tree with
  | str value => rw [Tree.tokens]; rfl
  | bool value => rw [Tree.tokens]; rfl
  | texts items =>
    cases items with
    | nil => rw [Tree.tokens]; rfl
    | cons item items => rw [Tree.tokens]; rfl
  | mapping entries => cases entries <;> rw [Tree.tokens] <;> rfl

/-- What comes after the entries of a mapping is no item. -/
theorem head?_entryTokens_ne (entries : List (Text × Tree)) (rest : List Token) :
    (entryTokens entries ++ [Token.blockEnd] ++ rest).head? ≠ some .item := by
  cases entries with
  | nil => rw [entryTokens]; simp
  | cons entry entries => rw [entryTokens]; simp

mutual

/-- The tokens of a tree make up its node. -/
theorem reads_tree {tree : Tree} {fuel : Nat} {rest : List Token}
    (hfuel : 4 * tree.tokens.length ≤ fuel) (hrest : rest.head? ≠ some .item) :
    Reads (node fuel true true) tree.tokens rest tree.toNode := by
  match tree with
  | .str value =>
    rw [Tree.tokens] at hfuel ⊢
    obtain ⟨fuel, rfl⟩ : ∃ spare, fuel = spare + 2 := ⟨fuel - 2, by simp at hfuel; omega⟩
    exact reads_scalar _
  | .bool value =>
    rw [Tree.tokens] at hfuel ⊢
    obtain ⟨fuel, rfl⟩ : ∃ spare, fuel = spare + 2 := ⟨fuel - 2, by simp at hfuel; omega⟩
    exact reads_scalar _
  | .texts [] =>
    rw [Tree.tokens] at hfuel ⊢
    obtain ⟨fuel, rfl⟩ : ∃ spare, fuel = spare + 3 := ⟨fuel - 3, by simp at hfuel; omega⟩
    exact reads_emptyList
  | .texts (item :: items) =>
    have hlength : (itemTokens items).length = 2 * items.length := by
      simp [itemTokens, Nat.mul_comm]
    rw [Tree.tokens, if_neg (List.cons_ne_nil _ _)] at hfuel ⊢
    have hitems : itemTokens (item :: items) = .item :: scalarToken item :: itemTokens items := rfl
    rw [hitems] at hfuel ⊢
    simp only [List.length_cons] at hfuel
    obtain ⟨fuel, rfl⟩ : ∃ spare, fuel = spare + 2 := ⟨fuel - 2, by omega⟩
    rw [toNode]
    have hlooseItems : Reads (looseItems fuel) (itemTokens (item :: items)) rest
        ((item :: items).map scalarNode) :=
      reads_looseItems hrest (by rw [List.length_cons]; omega)
    exact reads_looseList hlooseItems
  | .mapping [] =>
    rw [Tree.tokens] at hfuel ⊢
    obtain ⟨fuel, rfl⟩ : ∃ spare, fuel = spare + 3 := ⟨fuel - 3, by simp at hfuel; omega⟩
    exact reads_emptyMapping
  | .mapping (entry :: entries) =>
    rw [Tree.tokens] at hfuel ⊢
    obtain ⟨fuel, rfl⟩ : ∃ spare, fuel = spare + 2 := ⟨fuel - 2, by simp at hfuel; omega⟩
    rw [toNode]
    refine reads_blockMapping (reads_entries ?_)
    simp only [List.length_append, List.length_cons, List.length_nil] at hfuel
    omega

/-- The tokens of the entries of a mapping make up their nodes. -/
theorem reads_entries {entries : List (Text × Tree)} {fuel : Nat} {rest : List Token}
    (hfuel : 4 * (entryTokens entries).length + 1 ≤ fuel) :
    Reads (blockEntries fuel) (entryTokens entries ++ [.blockEnd]) rest (entryNodes entries) := by
  obtain ⟨fuel, rfl⟩ : ∃ spare, fuel = spare + 1 := ⟨fuel - 1, by omega⟩
  match entries with
  | [] =>
    rw [entryTokens, entryNodes, List.nil_append, blockEntries]
    exact (reads_take_of_ne (by simp)).bind_nil
      ((reads_take .blockEnd rest).bind_pure (reads_pure _ rest))
  | (key, value) :: entries =>
    have hlength : (entryTokens ((key, value) :: entries)).length =
        3 + value.tokens.length + (entryTokens entries).length := by
      rw [entryTokens]
      simp only [List.length_cons, List.length_append]
      omega
    obtain ⟨fuel, rfl⟩ : ∃ spare, fuel = spare + 3 := ⟨fuel - 3, by omega⟩
    have hkey (rest : List Token) :
        Reads (nodeUnless (fuel + 3) [.key, .value, .blockEnd] true true)
          [.scalar ⟨key, .plain⟩] rest (.scalar key .plain none) :=
      reads_nodeUnless rfl (reads_scalar _)
    have hvalue : Reads (nodeUnless (fuel + 3) [.key, .value, .blockEnd] true true)
        value.tokens (entryTokens entries ++ [.blockEnd] ++ rest) value.toNode :=
      reads_nodeUnless (head?_tokens value _)
        (reads_tree (by omega) (head?_entryTokens_ne entries rest))
    have hmore : Reads (blockEntries (fuel + 3)) (entryTokens entries ++ [.blockEnd]) rest
        (entryNodes entries) := reads_entries (by omega)
    have hsplit : entryTokens ((key, value) :: entries) ++ [.blockEnd] =
        .key :: .scalar ⟨key, .plain⟩ ::
          .value :: (value.tokens ++ (entryTokens entries ++ [.blockEnd])) := by
      rw [entryTokens]
      simp only [List.cons_append, List.append_assoc]
    rw [hsplit, entryNodes, blockEntries]
    exact (reads_take .key _).bind_cons ((hkey _).bind_cons
      ((reads_take .value _).bind_cons (hvalue.bind (hmore.bind_pure (reads_pure _ rest)))))

end

end Reading

namespace Document

/-- The tokens of a mapping with entries make up the document that holds its node. -/
theorem ofTokens?_mapping {entries : List (Text × Tree)} (hne : entries ≠ []) :
    ofTokens? (mapping entries).tokens = some ⟨some (mapping entries).toNode, []⟩ := by
  obtain ⟨entry, entries, rfl⟩ := List.exists_cons_of_ne_nil hne
  have htokens : (mapping (entry :: entries)).tokens =
      .blockMapping :: (entryTokens (entry :: entries) ++ [.blockEnd]) := by
    rw [Tree.tokens]
    rfl
  rw [htokens, toNode]
  generalize hmore : entryTokens (entry :: entries) ++ [.blockEnd] = more
  obtain ⟨fuel, hfuel⟩ : ∃ spare, 4 * ((Token.blockMapping :: more).length + 1) = spare + 2 :=
    ⟨4 * (Token.blockMapping :: more).length + 2, by omega⟩
  have hnode : Reading.Reads (Reading.node (fuel + 2) true false) (.blockMapping :: more) []
      (.mapping (entryNodes (entry :: entries))) := by
    refine Reading.reads_blockMapping ?_
    rw [← hmore]
    refine Reading.reads_entries ?_
    rw [← hmore, List.length_cons, List.length_append] at hfuel
    omega
  have hsome : Reading.Reads (do return some (← Reading.node (fuel + 2) true false))
      (.blockMapping :: more) [] (some (.mapping (entryNodes (entry :: entries)))) :=
    hnode.bind_pure (Reading.reads_pure _ [])
  have hroot : (Reading.root (fuel + 2)).run { tokens := .blockMapping :: more } =
      StateT.run (do return some (← Reading.node (fuel + 2) true false))
        { tokens := .blockMapping :: more, handles := Reading.usualHandles } := rfl
  rw [ofTokens?, hfuel, hroot, hsome _ (by simp)]
  rfl

/-- The document that is written of the entries of a mapping holds their nodes. -/
theorem ofText?_print {entries : List (Text × Tree)} (hkeys : EntriesHaveKeys entries)
    (hne : entries ≠ []) :
    ofText? (print entries) = some ⟨some (mapping entries).toNode, []⟩ := by
  rw [ofText?, tokens?_print hkeys hne, Option.bind_some, ofTokens?_mapping hne]

end Document
end LinkedNotes.Yaml
