import LinkedNotes.Proofs.Yaml.Scanner

/-!
# Tokens of a tree

The document of a tree with words for keys is read as the tokens of this tree. Main definition:
`Tree.tokens`. Main statement: `tokens?_print`.
-/

namespace LinkedNotes.Yaml

namespace Tree

/-! ## Keys -/

/-- Whether a text can stand in front of a colon as it is: a word, no longer than keys may be. -/
structure IsKey (key : Text) : Prop where
  /-- It is made of letters and digits. -/
  alphanum : ∀ c ∈ key, c.isAlphanum = true
  /-- It is there. -/
  ne_nil : key ≠ []
  /-- A colon behind it is still near. -/
  length_le : key.length ≤ Scanner.keyLimit

instance : DecidablePred IsKey := fun key =>
  decidable_of_iff
    (key.all Char.isAlphanum = true ∧ key ≠ [] ∧ key.length ≤ Scanner.keyLimit)
    ⟨fun ⟨hword, hne, hlength⟩ => ⟨List.all_eq_true.mp hword, hne, hlength⟩,
      fun h => ⟨List.all_eq_true.mpr h.alphanum, h.ne_nil, h.length_le⟩⟩

mutual

/-- Whether all keys in a tree can stand in front of colons. -/
def HasKeys : Tree → Prop
  | str _ | bool _ | texts _ => True
  | mapping entries => EntriesHaveKeys entries

/-- Whether all keys in the entries of a mapping can stand in front of colons. -/
def EntriesHaveKeys : List (Text × Tree) → Prop
  | [] => True
  | (key, value) :: rest => IsKey key ∧ HasKeys value ∧ EntriesHaveKeys rest

end

/-! ## Tokens -/

/-- A text as a token. -/
def scalarToken (text : Text) : Token :=
  .scalar ⟨text, scalarStyle text⟩

/-- The items of a list as tokens. -/
def itemTokens (items : List Text) : List Token :=
  items.flatMap fun item => [.item, scalarToken item]

mutual

/-- A tree as tokens. -/
def tokens : Tree → List Token
  | str value => [scalarToken value]
  | bool value => [.scalar ⟨boolText value, .plain⟩]
  | texts items => if items = [] then [.flowList, .flowListEnd] else itemTokens items
  | mapping [] => [.flowMapping, .flowMappingEnd]
  | mapping (entry :: entries) => .blockMapping :: entryTokens (entry :: entries) ++ [.blockEnd]

/-- The entries of a mapping as tokens. -/
def entryTokens : List (Text × Tree) → List Token
  | [] => []
  | (key, value) :: rest =>
    .key :: .scalar ⟨key, .plain⟩ :: .value :: (tokens value ++ entryTokens rest)

end

/-! ## Lines -/

section Lines

variable {indent : Nat}

/-- A text after its key goes on with a space. -/
theorem printValue_str (value : Text) :
    printValue indent (str value) = ' ' :: line (scalar (indent + 2) value) := by
  rw [printValue, line_cons _ (written_scalar (indent + 2) value).ne_nil]

/-- A truth value after its key goes on with a space. -/
theorem printValue_bool (value : Bool) :
    printValue indent (bool value) = ' ' :: line (boolText value) := by
  rw [printValue, line_cons _ (written_boolText indent value).ne_nil]

/-- The lines of the items of a list. -/
def printItems (indent : Nat) (items : List Text) : Text :=
  items.flatMap fun item => spaces indent ++ '-' :: ' ' :: line (scalar (indent + 2) item)

/-- The line of an item before the other ones. -/
theorem printItems_cons_append (item : Text) (items : List Text) (rest : Text) :
    printItems indent (item :: items) ++ rest =
      spaces indent ++ '-' :: ' ' :: (line (scalar (indent + 2) item) ++
        (printItems indent items ++ rest)) := by
  simp only [printItems, List.flatMap_cons, List.append_assoc, List.cons_append]

/-- The lines of an entry before the other ones. -/
theorem printEntries_cons_append (key : Text) (value : Tree) (entries : List (Text × Tree))
    (rest : Text) :
    printEntries indent ((key, value) :: entries) ++ rest =
      spaces indent ++ (key ++ ':' :: (printValue indent value ++
        (printEntries indent entries ++ rest))) := by
  simp only [printEntries, List.append_assoc, List.cons_append]

/-- A list after its key goes on in further lines. -/
theorem printValue_texts {items : List Text} (hne : items ≠ []) :
    printValue indent (texts items) = '\n' :: printItems indent items := by
  have hitem (item : Text) : line (spaces indent ++ "- ".toList ++ scalar (indent + 2) item) =
      spaces indent ++ '-' :: ' ' :: line (scalar (indent + 2) item) := by
    rw [line_eq, line_eq, Scalar.lineEnd_append (written_scalar (indent + 2) item).ne_nil,
      List.append_assoc, List.append_assoc]
    rfl
  cases items with
  | nil => exact absurd rfl hne
  | cons item items => simp only [printValue, printItems, hitem]

/-- What comes after a key starts with a space or a line break. -/
theorem head?_printValue (tree : Tree) (rest : Text) :
    (printValue indent tree ++ rest).head?.all isGap = true := by
  cases tree with
  | str value => rw [printValue_str]; rfl
  | bool value => rw [printValue_bool]; rfl
  | texts items =>
    by_cases hne : items = []
    · rw [hne, printValue]; rfl
    · rw [printValue_texts hne]; rfl
  | mapping entries => cases entries <;> rw [printValue] <;> rfl

/-! ## Characters -/

/-- The line of a text is printable. -/
theorem isPrintable_of_mem_line {text written : Text} {style : Style}
    (h : Written indent text style written) : ∀ c ∈ line written, isPrintable c = true := by
  intro c hc
  rw [line] at hc
  split at hc
  · exact h.isPrintable c hc
  · rcases List.mem_append.mp hc with hc | hc
    · exact h.isPrintable c hc
    · exact List.mem_singleton.mp hc ▸ by decide

/-- The lines of the items of a list are printable. -/
theorem isPrintable_of_mem_printItems {items : List Text} :
    ∀ c ∈ printItems indent items, isPrintable c = true := by
  intro c hc
  obtain ⟨item, -, hc⟩ := List.mem_flatMap.mp hc
  rcases List.mem_append.mp hc with hc | hc
  · exact of_mem_spaces hc ▸ by decide
  · rcases List.mem_cons.mp hc with rfl | hc
    · decide
    · rcases List.mem_cons.mp hc with rfl | hc
      · decide
      · exact isPrintable_of_mem_line (written_scalar (indent + 2) item) c hc

mutual

/-- A tree after its key is printable. -/
theorem isPrintable_of_mem_printValue {indent : Nat} {tree : Tree} (hkeys : tree.HasKeys) :
    ∀ c ∈ printValue indent tree, isPrintable c = true := by
  intro c hc
  match tree with
  | .str value =>
    rw [printValue_str] at hc
    rcases List.mem_cons.mp hc with rfl | hc
    · decide
    · exact isPrintable_of_mem_line (written_scalar (indent + 2) value) c hc
  | .bool value =>
    rw [printValue_bool] at hc
    rcases List.mem_cons.mp hc with rfl | hc
    · decide
    · exact isPrintable_of_mem_line (written_boolText indent value) c hc
  | .texts [] =>
    have hall : (printValue indent (texts [])).all isPrintable = true := by
      rw [printValue]
      decide
    exact List.all_eq_true.mp hall c hc
  | .texts (item :: items) =>
    rw [printValue_texts (List.cons_ne_nil _ _)] at hc
    rcases List.mem_cons.mp hc with rfl | hc
    · decide
    · exact isPrintable_of_mem_printItems c hc
  | .mapping [] =>
    have hall : (printValue indent (mapping [])).all isPrintable = true := by
      rw [printValue]
      decide
    exact List.all_eq_true.mp hall c hc
  | .mapping (entry :: entries) =>
    rw [printValue] at hc
    rcases List.mem_cons.mp hc with rfl | hc
    · decide
    · exact isPrintable_of_mem_printEntries (by rwa [HasKeys] at hkeys) c hc

/-- The entries of a mapping are printable. -/
theorem isPrintable_of_mem_printEntries {indent : Nat} {entries : List (Text × Tree)}
    (hkeys : EntriesHaveKeys entries) :
    ∀ c ∈ printEntries indent entries, isPrintable c = true := by
  intro c hc
  match entries with
  | [] =>
    rw [printEntries] at hc
    exact absurd hc List.not_mem_nil
  | (key, value) :: entries =>
    obtain ⟨hkey, hvalue, hmore⟩ := hkeys
    simp only [printEntries, List.mem_append, List.mem_cons] at hc
    rcases hc with ((hc | hc) | rfl | hc) | hc
    · exact of_mem_spaces hc ▸ by decide
    · exact Scalar.isPrintable_of_isAlphanum (hkey.alphanum c hc)
    · decide
    · exact isPrintable_of_mem_printValue hvalue c hc
    · exact isPrintable_of_mem_printEntries hmore c hc

end

end Lines

end Tree

namespace Scanner

open Tree

/-- A key is no blank, no line break and no comment. -/
theorem visible_of_isKey {key rest : Text} (h : IsKey key) : Visible (key ++ rest) := by
  obtain ⟨c, more, rfl⟩ := List.exists_cons_of_ne_nil h.ne_nil
  rintro d hd
  obtain rfl := Option.some.inj hd
  have hc := h.alphanum c List.mem_cons_self
  obtain ⟨hblank, hbreak, -, hsign, -⟩ := Scalar.of_isAlphanum hc
  refine ⟨hblank, hbreak, hsign, ?_⟩
  rintro rfl
  exact absurd hc (by decide)

/-- A hyphen is no blank, no line break and no comment. -/
theorem visible_hyphen (rest : Text) : Visible ('-' :: rest) := by
  rintro c hc
  obtain rfl := Option.some.inj hc
  decide

/-- The items of a list are read. -/
theorem Begins.items {scanner : Scanner} {indent k : Nat} {rest : Text} {tokens : List Token}
    {outer : List Nat} {item : Text} {items : List Text}
    (h : Begins scanner indent ('-' :: ' ' :: (line (scalar (indent + 2) item) ++
      (printItems indent items ++ (spaces k ++ rest)))) tokens (indent :: outer))
    (hk : k ≤ indent) (hvisible : Visible rest) :
    ∃ stop, Comes scanner stop ∧
      Begins stop k rest ((itemTokens (item :: items)).reverse ++ tokens) (indent :: outer) := by
  have hwritten := written_scalar (indent + 2)
  induction items generalizing scanner item tokens with
  | nil =>
    obtain ⟨middle, hfirst, hawaits⟩ := h.item
    obtain ⟨stop, hsecond, hbegins⟩ := hawaits.scalar (hwritten item) hk hvisible
    exact ⟨stop, hfirst.trans hsecond, hbegins⟩
  | cons next items ih =>
    obtain ⟨middle, hfirst, hawaits⟩ := h.item
    rw [printItems_cons_append] at hawaits
    obtain ⟨later, hsecond, hbegins⟩ :=
      hawaits.scalar (hwritten item) (Nat.le_refl indent) (visible_hyphen _)
    obtain ⟨stop, hthird, hends⟩ := ih hbegins
    refine ⟨stop, (hfirst.trans hsecond).trans hthird, ?_⟩
    have htokens : (itemTokens (item :: next :: items)).reverse ++ tokens =
        (itemTokens (next :: items)).reverse ++ scalarToken item :: .item :: tokens := by
      simp [itemTokens]
    rw [htokens]
    exact hends

mutual

/-- What comes after a key is read. -/
theorem Awaits.value {scanner : Scanner} {indent k : Nat} {rest : Text} {tokens : List Token}
    {outer : List Nat} {tree : Tree} (hkeys : tree.HasKeys)
    (h : Awaits scanner indent (printValue indent tree ++ (spaces k ++ rest)) tokens outer)
    (hk : k ≤ indent) (hvisible : Visible rest) :
    ∃ stop, Comes scanner stop ∧
      Begins stop k rest (tree.tokens.reverse ++ tokens) (indent :: outer) := by
  match tree, hkeys, h with
  | .str value, _, h =>
    rw [printValue_str] at h
    exact h.scalar (written_scalar (indent + 2) value) hk hvisible
  | .bool value, _, h =>
    rw [printValue_bool] at h
    exact h.scalar (written_boolText (indent + 2) value) hk hvisible
  | .texts [], _, h =>
    rw [printValue] at h
    exact h.nothing true rfl rfl hvisible
  | .texts (item :: items), _, h =>
    rw [printValue_texts (List.cons_ne_nil _ _), List.cons_append, printItems_cons_append] at h
    exact (h.begins (visible_hyphen _)).items hk hvisible
  | .mapping [], _, h =>
    rw [printValue] at h
    exact h.nothing false rfl rfl hvisible
  | .mapping ((key, value) :: entries), hkeys, h =>
    rw [printValue, List.cons_append, printEntries_cons_append] at h
    rw [HasKeys] at hkeys
    have hinner : Enters (indent + 2) (indent :: outer) tokens (indent :: outer)
        (.blockMapping :: tokens) := .deeper (by simp)
    obtain ⟨stop, hcomes, hbegins⟩ :=
      (h.begins (visible_of_isKey hkeys.1)).entries hkeys hinner (Nat.le_add_right_of_le hk)
        hvisible
    have htokens : (Tree.mapping ((key, value) :: entries)).tokens.reverse ++ tokens =
        .blockEnd :: ((entryTokens ((key, value) :: entries)).reverse ++
          .blockMapping :: tokens) := by
      simp [Tree.tokens]
    rw [htokens]
    exact ⟨stop, hcomes, hbegins.close (by omega)⟩
termination_by sizeOf tree

/-- The entries of a mapping are read. -/
theorem Begins.entries {scanner : Scanner} {indent k : Nat} {rest : Text}
    {tokens entered : List Token} {indents outer : List Nat} {key : Text} {value : Tree}
    {entries : List (Text × Tree)} (hkeys : EntriesHaveKeys ((key, value) :: entries))
    (henters : Enters indent indents tokens outer entered)
    (h : Begins scanner indent (key ++ ':' :: (printValue indent value ++
      (printEntries indent entries ++ (spaces k ++ rest)))) tokens indents)
    (hk : k ≤ indent) (hvisible : Visible rest) :
    ∃ stop, Comes scanner stop ∧
      Begins stop k rest ((entryTokens ((key, value) :: entries)).reverse ++ entered)
        (indent :: outer) := by
  obtain ⟨hkey, hvalue, hmore⟩ := hkeys
  obtain ⟨middle, hfirst, hawaits⟩ :=
    h.key hkey.alphanum hkey.ne_nil hkey.length_le (head?_printValue value _) henters
  match hentries : entries with
  | [] =>
    rw [printEntries, List.nil_append] at hawaits
    obtain ⟨stop, hsecond, hbegins⟩ := hawaits.value hvalue hk hvisible
    refine ⟨stop, hfirst.trans hsecond, ?_⟩
    have htokens : (entryTokens [(key, value)]).reverse ++ entered =
        value.tokens.reverse ++ .value :: .scalar ⟨key, .plain⟩ :: .key :: entered := by
      simp [entryTokens]
    rw [htokens]
    exact hbegins
  | (nextKey, next) :: more =>
    rw [printEntries_cons_append] at hawaits
    obtain ⟨later, hsecond, hbegins⟩ :=
      hawaits.value hvalue (Nat.le_refl indent) (visible_of_isKey hmore.1)
    obtain ⟨stop, hthird, hends⟩ := hbegins.entries hmore .within hk hvisible
    refine ⟨stop, (hfirst.trans hsecond).trans hthird, ?_⟩
    have htokens : (entryTokens ((key, value) :: (nextKey, next) :: more)).reverse ++ entered =
        (entryTokens ((nextKey, next) :: more)).reverse ++
          (value.tokens.reverse ++ .value :: .scalar ⟨key, .plain⟩ :: .key :: entered) := by
      rw [entryTokens]
      simp
    rw [htokens]
    exact hends
termination_by sizeOf ((key, value) :: entries)

end

end Scanner

open Tree

/-- The document of a tree is read as the tokens of this tree. -/
theorem tokens?_print {entries : List (Text × Tree)} (hkeys : EntriesHaveKeys entries)
    (hne : entries ≠ []) :
    tokens? (print entries) = some (mapping entries).tokens := by
  obtain ⟨⟨key, value⟩, entries, rfl⟩ := List.exists_cons_of_ne_nil hne
  have hallowed : (print ((key, value) :: entries)).all isAllowed = true :=
    List.all_eq_true.mpr fun c hc =>
      isAllowed_of_isPrintable (isPrintable_of_mem_printEntries hkeys c hc)
  have htext : print ((key, value) :: entries) = key ++ ':' :: (printValue 0 value ++
      (printEntries 0 entries ++ (spaces 0 ++ []))) := by
    rw [print, ← List.append_nil (printEntries 0 _), printEntries_cons_append]
    rfl
  generalize print ((key, value) :: entries) = text at hallowed htext ⊢
  have hstart : Scanner.Begins { cursor := { rest := text } } 0
      (key ++ ':' :: (printValue 0 value ++ (printEntries 0 entries ++ (spaces 0 ++ [])))) [] [] :=
    Scanner.begins_of_place htext rfl rfl (by simp) (Scanner.visible_of_isKey hkeys.1)
  obtain ⟨stop, ⟨n, hn, hrun⟩, hends⟩ :=
    hstart.entries hkeys (.deeper (by simp)) (Nat.le_refl 0) (by simp [Scanner.Visible])
  obtain ⟨index, row, hprepared⟩ := hends.exists_prepared? (by simp)
  obtain ⟨spare, hspare⟩ : ∃ spare, text.length + 1 = spare + 1 + n := by
    have hle : n ≤ text.length := Nat.le_of_add_right_le hn
    exact ⟨text.length - n, by omega⟩
  rw [tokens?, if_pos hallowed, hspare, hrun, Scanner.run?_of_nil hprepared rfl]
  simp [Scanner.unroll, Scanner.inFlow, Scanner.dropKey?, Tree.tokens]

end LinkedNotes.Yaml
