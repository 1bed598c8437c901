import LinkedNotes.Match.Resolver
import LinkedNotes.Proofs.Match.Documents

/-!
# What a search remembers

A search puts many link texts to one memory and asks for each answer once. Main statement: every
answer is that of the first question with the same directory and trimmed text. It is the answer of
the question itself if the two texts have one normal form and both notes have a directory, or
neither has. Blanks after an extension change the normal form, so not all answers are right.
-/

namespace LinkedNotes

namespace Matcher

open Match Note Text

/-- Directories with the same components give the same keys. -/
theorem keyMap_congr {base other : Path} (h : base.components = other.components)
    (notes : List Path) : keyMap base notes = keyMap other notes := by
  simp only [keyMap, Path.relative_congr h rfl]

/-- Directories with the same components give the same literal paths. -/
theorem literalIn_congr {raw other : Text} {source note dir dir' : Path}
    (htrim : trim raw = trim other) (hdir : source.parent? = some dir)
    (hdir' : note.parent? = some dir') (h : dir.components = dir'.components)
    (isFile : Path → Bool) : literalIn isFile raw source = literalIn isFile other note := by
  have hclean : (dir.join ⟨trim raw⟩).clean = (dir'.join ⟨trim other⟩).clean := by
    rw [Path.clean, Path.clean, htrim, Path.components_join_congr h]
  simp only [literalIn, literalPath?, hdir, hdir', Option.bind_eq_bind, Option.bind_some, hclean]

end Matcher

namespace Resolver

open Match Note Text

/-- A link text with the note that it is written in. -/
structure Query where
  /-- The text. -/
  text : Text
  /-- The note. -/
  source : Path
  deriving DecidableEq, Repr

/-- The key by which the answer is remembered. -/
def Query.key (matcher : Matcher) (query : Query) : List Component × Text :=
  answerKey matcher query.text query.source

section

variable (matcher : Matcher) (isFile : Path → Bool) (notes : List Path)

/-- The documents that a query names when nothing is remembered. -/
def fresh (query : Query) : List Path :=
  matcher.documentsOf isFile notes query.text query.source

/-- The first of some queries whose answer a query gets; itself if there is none. -/
def leader (queries : List Query) (query : Query) : Query :=
  (queries.find? fun first => first.key matcher = query.key matcher).getD query

/-- The answer to a query, where `isFile` tells which files there are, and what is remembered
then. -/
def answer (resolver : Resolver) (query : Query) : List Path × Resolver :=
  resolver.resolve (m := Id) matcher isFile query.text query.source notes

/-- The answers to some queries, one after the other. -/
def run (resolver : Resolver) : List Query → List (List Path)
  | [] => []
  | query :: rest =>
    let (found, resolver) := resolver.answer matcher isFile notes query
    found :: run resolver rest

/-- Remembered keys are those that the notes have. -/
def KnowsKeys (resolver : Resolver) : Prop :=
  ∀ (base : Path) (keys : KeyMap), resolver.keyMaps.lookup base.components = some keys →
    keys = Match.keyMap base notes

/-- What a search remembers of the notes and of the queries so far: the answer to the first query
with each key, and no other. -/
structure Remembers (asked : List Query) (resolver : Resolver) : Prop where
  /-- The keys are those of the notes. -/
  keys : resolver.KnowsKeys notes
  /-- The answers are those to the first queries. -/
  known : ∀ key, resolver.answers.lookup key =
    (asked.find? (·.key matcher = key)).map (fresh matcher isFile notes)

end

section

variable {matcher : Matcher} {isFile : Path → Bool} {notes : List Path}

/-- Keys are looked up or made, and remembered; answers are left alone. -/
theorem keyMap_eq {resolver : Resolver} (h : resolver.KnowsKeys notes) (base : Path) :
    ∃ after : Resolver, resolver.keyMap base notes = (Match.keyMap base notes, after) ∧
      after.KnowsKeys notes ∧ after.answers = resolver.answers := by
  unfold keyMap
  cases hlookup : resolver.keyMaps.lookup base.components with
  | some keys => exact ⟨resolver, by rw [h base keys hlookup], h, rfl⟩
  | none =>
    refine ⟨_, rfl, fun other keys hkeys => ?_, rfl⟩
    simp only [List.lookup_cons] at hkeys
    split at hkeys
    · next hsame =>
      rw [beq_iff_eq] at hsame
      rw [← Option.some.inj hkeys, Matcher.keyMap_congr hsame.symm]
    · exact h other keys hkeys

/-- The notes of a text are found as without a memory. -/
theorem relativeNotes_eq {resolver : Resolver} (h : resolver.KnowsKeys notes) (raw : Text)
    (source : Path) :
    ∃ after : Resolver, resolver.relativeNotes matcher raw source notes =
        (matcher.relativeNotes raw (some source) notes, after) ∧
      after.KnowsKeys notes ∧ after.answers = resolver.answers := by
  unfold relativeNotes Matcher.relativeNotes
  cases hdir : source.parent? with
  | none =>
    obtain ⟨last, hlast, hkeys, hanswers⟩ := keyMap_eq h matcher.root
    exact ⟨last, by simp [hdir, hlast], hkeys, hanswers⟩
  | some dir =>
    obtain ⟨after, hafter, hkeys, hanswers⟩ := keyMap_eq h dir
    obtain ⟨last, hlast, hkeys', hanswers'⟩ := keyMap_eq hkeys matcher.root
    simp only [hdir, Option.bind_some, hafter]
    split
    · exact ⟨after, rfl, hkeys, hanswers⟩
    · exact ⟨last, by rw [hlast], hkeys', hanswers'.trans hanswers⟩

/-- The documents of a query are found as without a memory. -/
theorem find_eq {resolver : Resolver} (h : resolver.KnowsKeys notes) (query : Query) :
    ∃ after : Resolver,
      resolver.find (m := Id) matcher isFile query.text query.source notes =
        (fresh matcher isFile notes query, after) ∧
      after.KnowsKeys notes ∧ after.answers = resolver.answers := by
  by_cases hblank : trim query.text = []
  · refine ⟨resolver, ?_, h, rfl⟩
    rw [find, fresh, Matcher.documentsOf_eq, if_pos hblank, if_pos hblank]
    rfl
  · rw [find, if_neg hblank]
    cases hconv : matcher.convention with
    | uniqueNames =>
      exact ⟨resolver, rfl, h, rfl⟩
    | relativePaths =>
      obtain ⟨after, hafter, hkeys, hanswers⟩ := relativeNotes_eq h query.text query.source
      refine ⟨after, ?_, hkeys, hanswers⟩
      rw [hafter, fresh, Matcher.documentsOf_eq, if_neg hblank,
        Matcher.knownNotes_of_relativePaths hconv]
      cases matcher.relativeNotes query.text (some query.source) notes with
      | nil =>
        rw [Matcher.literalFile_id]
        rfl
      | cons _ _ => rfl

/-- Nothing is remembered at first. -/
theorem remembers_nil : Remembers matcher isFile notes [] {} where
  keys base keys h := by simp at h
  known key := rfl

/-- The answer to a query is that to the first one with its key, and it is remembered. -/
theorem Remembers.answer {asked : List Query} {resolver : Resolver}
    (h : Remembers matcher isFile notes asked resolver) (query : Query) :
    ∃ after : Resolver, resolver.answer matcher isFile notes query =
        (fresh matcher isFile notes (leader matcher asked query), after) ∧
      Remembers matcher isFile notes (asked ++ [query]) after := by
  have hknown := h.known (query.key matcher)
  have hkey : answerKey matcher query.text query.source = query.key matcher := rfl
  simp only [Resolver.answer, resolve, hkey]
  cases hfirst : asked.find? (·.key matcher = query.key matcher) with
  | some first =>
    rw [hfirst, Option.map_some] at hknown
    refine ⟨resolver, ?_, h.keys, fun key => ?_⟩
    · simp only [hknown, leader, hfirst, Option.getD_some]
      rfl
    · rw [h.known, List.find?_append]
      by_cases hsame : query.key matcher = key
      · rw [← hsame, hfirst, Option.some_or]
      · simp [hsame]
  | none =>
    rw [hfirst, Option.map_none] at hknown
    obtain ⟨after, hafter, hkeys, hanswers⟩ := @find_eq matcher isFile notes resolver h.keys query
    refine ⟨{ after with answers := (query.key matcher, fresh matcher isFile notes query) ::
      after.answers }, ?_, hkeys, fun key => ?_⟩
    · simp only [hknown, leader, hfirst, Option.getD_none]
      rw [hafter]
      rfl
    · rw [List.find?_append, List.lookup_cons]
      by_cases hsame : key = query.key matcher
      · simp [hsame, hfirst]
      · rw [hanswers, h.known, beq_eq_false_iff_ne.mpr hsame]
        simp [Ne.symm hsame]

/-- The first of more queries with some key is that of the queries before, if there is one. -/
theorem leader_append {asked rest : List Query} {query : Query} :
    leader matcher (asked ++ [query] ++ rest) query = leader matcher asked query := by
  simp only [leader, List.find?_append]
  cases asked.find? (·.key matcher = query.key matcher) <;> simp

/-- The answers to some queries are those to the first ones with their keys. -/
theorem run_eq {asked : List Query} {resolver : Resolver}
    (h : Remembers matcher isFile notes asked resolver) (queries : List Query) :
    resolver.run matcher isFile notes queries =
      queries.map fun query =>
        fresh matcher isFile notes (leader matcher (asked ++ queries) query) := by
  induction queries generalizing asked resolver with
  | nil => rfl
  | cons query rest ih =>
    obtain ⟨after, hafter, hremembers⟩ := h.answer query
    have hsplit : asked ++ query :: rest = asked ++ [query] ++ rest := by simp
    rw [run, hafter]
    simp only [List.map_cons, ih hremembers, hsplit, leader_append]

/-- Queries with one key have the same answer, if their texts have the same normal form and both
notes have a directory or neither has. -/
theorem fresh_congr {first query : Query} (hkey : first.key matcher = query.key matcher)
    (hnormal : normalize first.text = normalize query.text)
    (hdirs : first.source.parent?.isSome = query.source.parent?.isSome) :
    fresh matcher isFile notes first = fresh matcher isFile notes query := by
  obtain ⟨hcomponents, htrim⟩ := Prod.ext_iff.mp hkey
  simp only [Query.key, answerKey] at hcomponents htrim
  have hwanted : wantedKeys first.text = wantedKeys query.text := by
    simp only [wantedKeys, splitLabel?, hnormal, htrim]
  have hnames : ∀ path, basenameMatches path first.text = basenameMatches path query.text := by
    simp only [basenameMatches, namesMatch, hnormal, implies_true]
  simp only [fresh, Matcher.documentsOf_eq, Matcher.knownNotes, Matcher.relativeNotes, htrim,
    hwanted, hnames]
  cases hfirst : first.source.parent? with
  | none =>
    have hquery : query.source.parent? = none := by
      rwa [hfirst, Option.isSome_none, eq_comm, Option.isSome_eq_false_iff,
        Option.isNone_iff_eq_none] at hdirs
    simp [hfirst, hquery, Matcher.literalIn, Matcher.literalPath?]
  | some dir =>
    obtain ⟨dir', hquery⟩ : ∃ dir', query.source.parent? = some dir' := by
      rwa [hfirst, Option.isSome_some, eq_comm, Option.isSome_iff_exists] at hdirs
    rw [hfirst, hquery, Option.getD_some, Option.getD_some] at hcomponents
    simp only [Option.bind_some, hfirst, hquery, Matcher.keyMap_congr hcomponents,
      Matcher.literalIn_congr htrim hfirst hquery hcomponents]

/-- A leader is a query with the same key. -/
theorem leader_spec {queries : List Query} {query : Query} (h : query ∈ queries) :
    leader matcher queries query ∈ queries ∧
      (leader matcher queries query).key matcher = query.key matcher := by
  unfold leader
  cases hfind : queries.find? (·.key matcher = query.key matcher) with
  | none => exact ⟨h, rfl⟩
  | some first => exact ⟨List.mem_of_find?_eq_some hfind, by simpa using List.find?_some hfind⟩

/-- Queries with one key have one leader. -/
theorem leader_congr {queries : List Query} {first query : Query} (hfirst : first ∈ queries)
    (hkey : first.key matcher = query.key matcher) :
    leader matcher queries first = leader matcher queries query := by
  unfold leader
  rw [hkey]
  cases hfind : queries.find? (·.key matcher = query.key matcher) with
  | none => exact absurd hkey (by simpa using List.find?_eq_none.mp hfind first hfirst)
  | some found => rfl

end

/-- A search gives every query the answer it gets when nothing is remembered exactly if any two of
its queries with one key name the same documents. Only those can differ whose texts have other
normal forms, or of whose notes one has no directory. -/
theorem run_eq_map_fresh_iff (matcher : Matcher) (isFile : Path → Bool) (notes : List Path)
    (queries : List Query) :
    ({} : Resolver).run matcher isFile notes queries = queries.map (fresh matcher isFile notes) ↔
      ∀ first ∈ queries, ∀ query ∈ queries, first.key matcher = query.key matcher →
        (normalize first.text ≠ normalize query.text ∨
          first.source.parent?.isSome ≠ query.source.parent?.isSome) →
        fresh matcher isFile notes first = fresh matcher isFile notes query := by
  rw [run_eq remembers_nil, List.nil_append, List.map_inj_left]
  constructor
  · intro h first hfirst query hquery hkey _
    rw [← h first hfirst, leader_congr hfirst hkey, h query hquery]
  · intro h query hquery
    obtain ⟨hmem, hkey⟩ := @leader_spec matcher queries query hquery
    by_cases hsame : normalize (leader matcher queries query).text = normalize query.text ∧
        (leader matcher queries query).source.parent?.isSome = query.source.parent?.isSome
    · exact fresh_congr hkey hsame.1 hsame.2
    · exact h _ hmem query hquery hkey (not_and_or.mp hsame)

/-- A blank after the extension of the second text changes its normal form but not its key. -/
theorem run_ne_map_fresh_of_blank :
    let matcher : Matcher := ⟨⟨"/ws".toList⟩, .uniqueNames⟩
    let notes : List Path := [⟨"/ws/de.md".toList⟩]
    let queries : List Query :=
      [⟨"d.e.md".toList, ⟨"/ws/x.md".toList⟩⟩, ⟨"d.e.md ".toList, ⟨"/ws/x.md".toList⟩⟩]
    ({} : Resolver).run matcher (notes.contains ·) notes queries = [notes, notes] ∧
      queries.map (fresh matcher (notes.contains ·) notes) = [notes, []] := by
  decide +kernel

end Resolver
end LinkedNotes
