import LinkedNotes.Proofs.Server.Suggestion

/-!
# Renamed documents

A notice may rename several files at once, and the server renames them one after the other. Main
statement: when no two files have one old name or one new name, the texts of open documents are as
after one renaming of all of them, exactly unless an open document gets a name that a later pair
takes away again. In any case documents that no pair names keep their texts, and an old name that is
no new one is given up. The counts of edits, which stay with the old names, are outside this module.
-/

namespace LinkedNotes

/-- What one renaming of several documents does to their texts. -/
structure Simultaneous (before after : UriMap Text) (pairs : List (Uri × Uri)) : Prop where
  /-- The text of an old name is that of the new name now. -/
  moved : ∀ pair ∈ pairs, ∀ text, before.get? pair.1 = some text → after.get? pair.2 = some text
  /-- Documents that are not renamed, and whose names are not given to others, keep their texts. -/
  kept : ∀ uri, uri ∉ pairs.map (·.1) → uri ∉ pairs.map (·.2) → after.get? uri = before.get? uri
  /-- An old name that is not given to another document has no text. -/
  left : ∀ uri, uri ∈ pairs.map (·.1) → uri ∉ pairs.map (·.2) → after.get? uri = none

/-- Whether no open document gets a name that a later pair takes away. -/
def Unchained (texts : UriMap Text) (pairs : List (Uri × Uri)) : Prop :=
  pairs.Pairwise fun first later => (texts.get? first.1).isSome = true → later.1 ≠ first.2

namespace Documents

variable (documents : Documents)

/-- The texts after one file was renamed. -/
theorem texts_renamed (old new uri : Uri) :
    (documents.renamed old new).texts.get? uri =
      if (documents.texts.get? old).isSome = true then
        if uri = new then documents.texts.get? old
        else if uri = old then none
        else documents.texts.get? uri
      else documents.texts.get? uri := by
  unfold renamed
  cases documents.texts.get? old with
  | none => rfl
  | some text =>
    by_cases hnew : uri = new
    · simp [hnew]
    · by_cases hold : uri = old
      · subst hold
        simp [hnew, UriMap.get?_set_of_ne _ hnew]
      · simp [hnew, hold, UriMap.get?_set_of_ne _ hnew, UriMap.get?_erase_of_ne _ hold]

/-- The document that is renamed moves its text. -/
theorem texts_renamed_new {old : Uri} {text : Text} (h : documents.texts.get? old = some text)
    (new : Uri) : (documents.renamed old new).texts.get? new = some text := by
  simp [texts_renamed, h]

/-- Other documents are left alone. -/
theorem texts_renamed_of_ne {old new uri : Uri} (hold : uri ≠ old) (hnew : uri ≠ new) :
    (documents.renamed old new).texts.get? uri = documents.texts.get? uri := by
  simp [texts_renamed, hold, hnew]

/-- A name that is not given to a document has no text when it had none, or was given up. -/
theorem texts_renamed_eq_none {old new uri : Uri} (hnew : uri ≠ new)
    (h : uri = old ∨ documents.texts.get? uri = none) :
    (documents.renamed old new).texts.get? uri = none := by
  rcases h with rfl | h
  · cases hopen : documents.texts.get? uri <;> simp [texts_renamed, hopen, hnew]
  · simp [texts_renamed, h, hnew]

variable {documents} {pairs : List (Uri × Uri)}

/-- Documents that no pair names keep their texts. -/
theorem texts_renamedAll_of_notMem {uri : Uri} (hold : uri ∉ pairs.map (·.1))
    (hnew : uri ∉ pairs.map (·.2)) :
    (documents.renamedAll pairs).texts.get? uri = documents.texts.get? uri := by
  induction pairs generalizing documents with
  | nil => rfl
  | cons pair rest ih =>
    rw [List.map_cons, List.mem_cons, not_or] at hold hnew
    calc (documents.renamedAll (pair :: rest)).texts.get? uri
      _ = (documents.renamed pair.1 pair.2).texts.get? uri := ih hold.2 hnew.2
      _ = documents.texts.get? uri := documents.texts_renamed_of_ne hold.1 hnew.1

/-- A name that no pair gives to a document has no text in the end when it had none, or was given
up. -/
theorem texts_renamedAll_eq_none {uri : Uri} (hnew : uri ∉ pairs.map (·.2))
    (h : uri ∈ pairs.map (·.1) ∨ documents.texts.get? uri = none) :
    (documents.renamedAll pairs).texts.get? uri = none := by
  induction pairs generalizing documents with
  | nil => exact h.resolve_left List.not_mem_nil
  | cons pair rest ih =>
    rw [List.map_cons, List.mem_cons, not_or] at hnew
    rw [List.map_cons, List.mem_cons] at h
    refine ih hnew.2 ?_
    by_cases hrest : uri ∈ rest.map (·.1)
    · exact .inl hrest
    · exact .inr (documents.texts_renamed_eq_none hnew.1
        (h.imp_left (Or.resolve_right · hrest)))

/-- The later pairs find the documents that were there before, unless the first one gave an open
document the name of one of them. -/
theorem texts_renamed_later {first : Uri × Uri} {rest : List (Uri × Uri)}
    (hold : ((first :: rest).map (·.1)).Nodup)
    (hfirst : ∀ later ∈ rest, (documents.texts.get? first.1).isSome = true → later.1 ≠ first.2)
    {later : Uri × Uri} (hlater : later ∈ rest) :
    (documents.renamed first.1 first.2).texts.get? later.1 = documents.texts.get? later.1 := by
  have hne : later.1 ≠ first.1 := fun heq =>
    (List.nodup_cons.mp hold).1 (List.mem_map.mpr ⟨later, hlater, heq⟩)
  by_cases hopen : (documents.texts.get? first.1).isSome = true
  · exact documents.texts_renamed_of_ne hne (hfirst later hlater hopen)
  · rw [texts_renamed, if_neg hopen]

/-- There are no chains when none starts with the first pair, and none is left after it. -/
theorem unchained_cons {first : Uri × Uri} {rest : List (Uri × Uri)}
    (hold : ((first :: rest).map (·.1)).Nodup) :
    Unchained documents.texts (first :: rest) ↔
      (∀ later ∈ rest, (documents.texts.get? first.1).isSome = true → later.1 ≠ first.2) ∧
        Unchained (documents.renamed first.1 first.2).texts rest := by
  rw [Unchained, List.pairwise_cons, and_congr_right_iff]
  intro hfirst
  refine List.Pairwise.iff_of_mem fun {earlier later} hearlier _ => ?_
  rw [texts_renamed_later hold hfirst hearlier]

/-- Without chains every text gets to its new name. -/
theorem texts_renamedAll_of_unchained (hold : (pairs.map (·.1)).Nodup)
    (hnew : (pairs.map (·.2)).Nodup) (h : Unchained documents.texts pairs)
    {pair : Uri × Uri} (hpair : pair ∈ pairs) {text : Text}
    (htext : documents.texts.get? pair.1 = some text) :
    (documents.renamedAll pairs).texts.get? pair.2 = some text := by
  induction pairs generalizing documents with
  | nil => cases hpair
  | cons first rest ih =>
    obtain ⟨hfirst, hrest⟩ := (unchained_cons hold).mp h
    obtain ⟨hgiven, hnew⟩ := List.nodup_cons.mp hnew
    rcases List.mem_cons.mp hpair with rfl | hpair
    · have hstays : pair.2 ∉ rest.map (·.1) := by
        intro hmem
        obtain ⟨later, hlater, heq⟩ := List.mem_map.mp hmem
        exact hfirst later hlater (by simp [htext]) heq
      calc (documents.renamedAll (pair :: rest)).texts.get? pair.2
        _ = (documents.renamed pair.1 pair.2).texts.get? pair.2 :=
          texts_renamedAll_of_notMem hstays hgiven
        _ = some text := documents.texts_renamed_new htext _
    · refine ih (List.nodup_cons.mp hold).2 hnew hrest hpair ?_
      rw [texts_renamed_later hold hfirst hpair, htext]

/-- When every text gets to its new name, no later pair takes the name away. -/
theorem unchained_of_texts_renamedAll (hold : (pairs.map (·.1)).Nodup)
    (hnew : (pairs.map (·.2)).Nodup)
    (h : ∀ pair ∈ pairs, ∀ text, documents.texts.get? pair.1 = some text →
      (documents.renamedAll pairs).texts.get? pair.2 = some text) :
    Unchained documents.texts pairs := by
  induction pairs generalizing documents with
  | nil => exact .nil
  | cons first rest ih =>
    obtain ⟨hgiven, hnew⟩ := List.nodup_cons.mp hnew
    have hfirst : ∀ later ∈ rest,
        (documents.texts.get? first.1).isSome = true → later.1 ≠ first.2 := by
      intro later hlater hopen heq
      obtain ⟨text, htext⟩ := Option.isSome_iff_exists.mp hopen
      -- A name that is taken away is not given again, so that the text would be lost.
      have hnone :
          ((documents.renamed first.1 first.2).renamedAll rest).texts.get? first.2 = none :=
        texts_renamedAll_eq_none hgiven (.inl (List.mem_map.mpr ⟨later, hlater, heq⟩))
      cases (h first List.mem_cons_self text htext).symm.trans hnone
    refine (unchained_cons hold).mpr ⟨hfirst, ih (List.nodup_cons.mp hold).2 hnew ?_⟩
    intro pair hpair text htext
    rw [texts_renamed_later hold hfirst hpair] at htext
    exact h pair (List.mem_cons_of_mem _ hpair) text htext

/-- Renaming one after the other is one renaming exactly without chains. -/
theorem renamedAll_simultaneous_iff (hold : (pairs.map (·.1)).Nodup)
    (hnew : (pairs.map (·.2)).Nodup) :
    Simultaneous documents.texts (documents.renamedAll pairs).texts pairs ↔
      Unchained documents.texts pairs where
  mp h := unchained_of_texts_renamedAll hold hnew h.moved
  mpr h :=
    { moved := fun _ hpair _ => texts_renamedAll_of_unchained hold hnew h hpair
      kept := fun _ => texts_renamedAll_of_notMem
      left := fun _ hmem hnew => texts_renamedAll_eq_none hnew (.inl hmem) }

end Documents

namespace Server

variable {σ : Type}

/-- Names that all are URIs are all heeded. -/
theorem filterMap_parse {names : List (Text × Text)} {pairs : List (Uri × Uri)}
    (h : names.map (fun (old, new) => (Uri.parse? old, Uri.parse? new)) =
      pairs.map fun (old, new) => (some old, some new)) :
    (names.filterMap fun (old, new) => do
      return (← Uri.parse? old, ← Uri.parse? new)) = pairs := by
  induction names generalizing pairs with
  | nil => simpa using h
  | cons name names ih =>
    cases pairs with
    | nil => cases h
    | cons pair pairs =>
      simp only [List.map_cons, List.cons.injEq, Prod.mk.injEq] at h
      obtain ⟨⟨hold, hnew⟩, hrest⟩ := h
      rw [List.filterMap_cons, ih hrest]
      simp only [hold, hnew]
      rfl

/-- For any open documents and any notice of renamed files, all of whose names are URIs, the old
ones distinct and the new ones distinct: documents that are not named keep their texts, an old name
that is no new one has none, and all is as after one renaming exactly if no open document gets a
name that a later pair takes away. -/
theorem heed_renamed_simultaneous_iff (server : Server σ) {names : List (Text × Text)}
    {pairs : List (Uri × Uri)}
    (hparse : names.map (fun (old, new) => (Uri.parse? old, Uri.parse? new)) =
      pairs.map fun (old, new) => (some old, some new))
    (hold : (pairs.map (·.1)).Nodup) (hnew : (pairs.map (·.2)).Nodup) :
    let before := server.documents.texts
    let after := ((heed (.renamed names)).run server).2.documents.texts
    (∀ uri, uri ∉ pairs.map (·.2) →
      after.get? uri = if uri ∈ pairs.map (·.1) then none else before.get? uri) ∧
      (Simultaneous before after pairs ↔ Unchained before pairs) := by
  intro before after
  have hafter : after = (server.documents.renamedAll pairs).texts := by
    rw [← filterMap_parse hparse]
    exact congrArg Documents.texts (server.heeded_heed (.renamed names)).documents
  rw [hafter]
  refine ⟨fun uri hgiven => ?_, Documents.renamedAll_simultaneous_iff hold hnew⟩
  split
  · exact Documents.texts_renamedAll_eq_none hgiven (.inl ‹_›)
  · exact Documents.texts_renamedAll_of_notMem ‹_› hgiven

/-- The URI of a file in the workspace. -/
def fileUri (name : String) : Uri :=
  ⟨"file".toList, some [], "/ws/".toList ++ name.toList, []⟩

/-- The text of the URI of a file in the workspace. -/
def fileName (name : String) : Text :=
  "file:///ws/".toList ++ name.toList

/-- A server with two open documents. -/
def twoOpen : Server MemoryFiles :=
  { files := { files := [] }
    documents :=
      { texts := [(fileUri "a.md", "[[one]]".toList), (fileUri "b.md", "[[two]]".toList)] } }

/-- The last document of a chain makes room first, and both documents keep their texts. -/
theorem heed_renamed_simultaneous_last_first :
    let after := ((heed (.renamed [(fileName "b.md", fileName "c.md"),
      (fileName "a.md", fileName "b.md")])).run twoOpen).2.documents.texts
    Simultaneous twoOpen.documents.texts after
      [(fileUri "b.md", fileUri "c.md"), (fileUri "a.md", fileUri "b.md")] :=
  (heed_renamed_simultaneous_iff twoOpen (by decide +kernel) (by decide) (by decide)).2.mpr
    (by simp only [Unchained]; decide)

/-- The first document of a chain goes all the way, and the text of the other one is lost. -/
theorem heed_renamed_not_simultaneous :
    let pairs := [(fileUri "a.md", fileUri "b.md"), (fileUri "b.md", fileUri "c.md")]
    let after := ((heed (.renamed [(fileName "a.md", fileName "b.md"),
      (fileName "b.md", fileName "c.md")])).run twoOpen).2.documents.texts
    after.get? (fileUri "b.md") = none ∧ after.get? (fileUri "c.md") = some "[[one]]".toList ∧
      ¬ Simultaneous twoOpen.documents.texts after pairs := by
  intro pairs after
  have hb : after.get? (fileUri "b.md") = none := by decide +kernel
  refine ⟨hb, by decide +kernel, fun h => ?_⟩
  have hmoved := h.moved (fileUri "a.md", fileUri "b.md") (by decide) "[[one]]".toList rfl
  cases hb.symm.trans hmoved

end Server
end LinkedNotes
