import LinkedNotes.Files.Tree
import LinkedNotes.Proofs.Path.Order
import LinkedNotes.Proofs.Workspace.Host
import LinkedNotes.Proofs.Workspace.Listing

/-!
# What an enumeration finds

An enumeration makes the exclude patterns into one set, and asks git about the paths below the root
in chunks, in the order in which the files are listed. Git is an oracle here: of a chunk it reports
the paths of the files that it ignores, or it fails. So is the host: its library may fail to build
the set, and a path that is no text may become another one for git. Main statement: neither the
order nor the chunks show in the answer, which has the listed files that no pattern of a set leaves
out and that git does not ignore, sorted by path; and where git fails on some chunks, their files
are kept and nothing else changes.
-/

namespace LinkedNotes.Discovery

variable {σ : Type} [FileSystem σ]

section Host

variable [Host]

/-! ## Which files are left out -/

/-- Whether the valid ones of the exclude patterns can be made into one set. -/
def Built (settings : IndexSettings) : Prop :=
  Host.builds (Glob.valid settings.exclude) = true

instance (settings : IndexSettings) : Decidable (Built settings) :=
  inferInstanceAs (Decidable (_ = true))

/-- Whether a valid pattern of the settings matches a note, as it is named below the root. -/
def Excludes (settings : IndexSettings) (root note : Path) : Prop :=
  ∃ pattern ∈ settings.exclude, ∃ glob ∈ Glob.pieces? pattern,
    Glob.matchesOctets glob (Host.octets (fromRoot root note)) = true

instance (settings : IndexSettings) (root note : Path) : Decidable (Excludes settings root note) :=
  inferInstanceAs (Decidable (∃ pattern ∈ settings.exclude, ∃ glob ∈ Glob.pieces? pattern, _))

/-- A set leaves out what one of its patterns matches, and a set that cannot be built nothing. -/
theorem any_excludes_iff {settings : IndexSettings} {root note : Path} :
    ((excludes settings).any (Glob.matchesOctets · (Host.octets (fromRoot root note)))) = true ↔
      Built settings ∧ Excludes settings root note := by
  rw [excludes, buildExcludes?, Built]
  split
  · next hbuilt =>
    simp only [Option.getD_some, List.any_eq_true, Glob.valid, List.mem_filterMap, Excludes,
      Option.mem_def]
    refine Iff.trans ?_ (and_iff_right hbuilt).symm
    constructor
    · rintro ⟨glob, ⟨pattern, hpattern, hglob⟩, hmatches⟩
      exact ⟨pattern, hpattern, glob, hglob, hmatches⟩
    · rintro ⟨pattern, hpattern, glob, hglob, hmatches⟩
      exact ⟨glob, ⟨pattern, hpattern, hglob⟩, hmatches⟩
  · next hfailed => simp [hfailed]

/-- Whether a note is below the root by a name that is a text. -/
def Nameable (root note : Path) : Prop :=
  ∃ rest ∈ note.stripPrefix? root, Host.ofText (Host.toText rest) = rest

instance (root note : Path) : Decidable (Nameable root note) :=
  inferInstanceAs (Decidable (∃ rest ∈ note.stripPrefix? root, _))

/-- Whether git ignores a note below the root. What it ignores are files, in any spelling. -/
def Ignores (ignores : List Component → Bool) (root note : Path) : Prop :=
  Nameable root note ∧ ignores note.components = true

instance (ignores : List Component → Bool) (root note : Path) :
    Decidable (Ignores ignores root note) :=
  inferInstanceAs (Decidable (_ ∧ _))

/-- The listed files without those that a pattern leaves out, if the patterns make a set, and, if
asked for, without those that are ignored. -/
def remaining (settings : IndexSettings) (root : Path) (ignored : Path → Prop)
    [DecidablePred ignored] (listed : List Path) : List Path :=
  listed.filter fun note => ¬(Built settings ∧ Excludes settings root note) ∧
    (settings.respectGitignore = true → ¬ignored note)

/-! ## What git is asked -/

/-- The chunks of paths below the root that git is asked about, if it is asked at all. -/
def questions (files : σ) (root : Path) (settings : IndexSettings) : List (List Text) :=
  if settings.respectGitignore then
    chunks (textsBelow root (included root settings (FileSystem.list files root)))
  else []

/-- The files that texts name below the root. -/
def named (root : Path) (texts : List Text) : List (List Component) :=
  texts.map fun text => (root.join (Host.ofText text)).components

/-- The chunks that git answers about. -/
def answered (files : σ) (root : Path) (cut : List (List Text)) : List (List Text) :=
  cut.filter fun chunk => (FileSystem.ignored files root chunk).isSome

/-- The chunks that git fails on. -/
def failing (files : σ) (root : Path) (cut : List (List Text)) : List (List Text) :=
  cut.filter fun chunk => (FileSystem.ignored files root chunk).isNone

/-- Whether git, asked about chunks of paths, reports exactly the paths of the files that it ignores
wherever it does not fail. -/
def Reports (files : σ) (root : Path) (ignores : List Component → Bool) (cut : List (List Text)) :
    Prop :=
  ∀ chunk ∈ cut, ∀ answer, FileSystem.ignored files root chunk = some answer →
    ∀ text, text ∈ answer ↔
      text ∈ chunk ∧ ignores (root.join (Host.ofText text)).components = true

variable {files : σ} {root : Path} {settings : IndexSettings} {ignores : List Component → Bool}
  {cut : List (List Text)}

/-- Git is asked about what is left, below the root, of the notes that no pattern leaves out. -/
theorem mem_named_questions_iff (hrespect : settings.respectGitignore = true)
    {parts : List Component} :
    parts ∈ named root (questions files root settings).flatten ↔
      ∃ note ∈ included root settings (FileSystem.list files root),
        ∃ rest ∈ note.stripPrefix? root,
          (root.join (Host.ofText (Host.toText rest))).components = parts := by
  rw [questions, if_pos hrespect, flatten_chunks]
  simp only [named, textsBelow, List.mem_map, List.mem_filterMap, Option.map_eq_some_iff,
    Option.mem_def]
  constructor
  · rintro ⟨_, ⟨note, hnote, rest, hrest, rfl⟩, hparts⟩
    exact ⟨note, hnote, rest, hrest, hparts⟩
  · rintro ⟨note, hnote, rest, hrest, hparts⟩
    exact ⟨_, ⟨note, hnote, rest, hrest, rfl⟩, hparts⟩

/-- Git is asked about a note that no pattern leaves out exactly if it is below the root by a name
that is a text. -/
theorem mem_named_questions (hhost : Faithful) (hrespect : settings.respectGitignore = true)
    {note : Path} (h : note ∈ included root settings (FileSystem.list files root)) :
    note.components ∈ named root (questions files root settings).flatten ↔ Nameable root note := by
  rw [mem_named_questions_iff hrespect]
  constructor
  · rintro ⟨other, -, rest, hrest, hsame⟩
    have hbelow := hhost.below hrest
    rw [hsame] at hbelow
    obtain ⟨kept, hkept, -⟩ := Option.map_eq_some_iff.mp ((Path.map_stripPrefix? note root).trans
      (if_pos (List.isPrefixOf_iff_prefix.mpr hbelow)))
    exact ⟨kept, hkept, hhost.unchanged hkept hsame⟩
  · rintro ⟨rest, hrest, hunchanged⟩
    exact ⟨note, h, rest, hrest, by rw [hunchanged, Path.components_join_stripPrefix? hrest]⟩

/-- Whether all listed files below the root have names that are texts. -/
def AllNameable (root : Path) (listed : List Path) : Prop :=
  ∀ note ∈ listed, ∀ rest ∈ note.stripPrefix? root, Host.ofText (Host.toText rest) = rest

/-- A file that is listed once is asked about once, if the names are texts. -/
theorem nodup_named_questions (hrespect : settings.respectGitignore = true)
    (hnames : AllNameable root (FileSystem.list files root))
    (h : (FileSystem.list files root).Pairwise fun p q => p.components ≠ q.components) :
    (named root (questions files root settings).flatten).Nodup := by
  have hasked : named root (questions files root settings).flatten =
      ((included root settings (FileSystem.list files root)).filter fun note =>
        root.components.isPrefixOf note.components).map Path.components := by
    rw [questions, if_pos hrespect, flatten_chunks, named, textsBelow, List.map_filterMap,
      ← List.filterMap_eq_map, List.filterMap_filter]
    refine List.filterMap_congr fun note hnote => ?_
    have hlisted := (List.mem_filter.mp hnote).1
    refine Eq.trans ?_ (Path.map_stripPrefix? note root)
    rw [Option.map_map]
    exact Option.map_congr fun rest hrest =>
      congrArg (fun path => (root.join path).components) (hnames note hlisted rest hrest)
  rw [hasked]
  have hlisted : ((FileSystem.list files root).map Path.components).Nodup := List.pairwise_map.mpr h
  exact hlisted.sublist ((List.filter_sublist.trans List.filter_sublist).map Path.components)

omit [Host] in
/-- Git answers about a chunk or fails on it. -/
theorem answered_append_failing_perm (files : σ) (root : Path) (cut : List (List Text)) :
    (answered files root cut ++ failing files root cut).Perm cut := by
  have hfails : failing files root cut =
      cut.filter fun chunk => !(FileSystem.ignored files root chunk).isSome :=
    List.filter_congr fun chunk _ => by simp
  rw [hfails]
  exact List.filter_append_perm _ cut

omit [Host] in
/-- Git answers about everything if it does not fail. -/
theorem answered_eq_self (h : failing files root cut = []) : answered files root cut = cut := by
  have hall := (answered_append_failing_perm files root cut).symm
  rw [h, List.append_nil] at hall
  exact List.filter_sublist.eq_of_length hall.length_eq.symm

/-- What git reports about some chunks is what it ignores of those that it answers about. -/
theorem any_ignoredIn (h : Reports files root ignores cut) (note : Path) :
    (ignoredIn files root cut).any (·.same note) = true ↔
      ignores note.components = true ∧
        note.components ∈ named root (answered files root cut).flatten := by
  simp only [List.any_eq_true, Path.same_iff, ignoredIn, List.mem_flatMap, List.mem_map, named,
    List.mem_flatten, answered, List.mem_filter]
  constructor
  · rintro ⟨path, ⟨chunk, hchunk, text, htext, rfl⟩, hsame⟩
    cases hanswer : FileSystem.ignored files root chunk with
    | none =>
      rw [hanswer] at htext
      cases htext
    | some answer =>
      rw [hanswer, Option.getD_some] at htext
      obtain ⟨hasked, hignored⟩ := (h chunk hchunk answer hanswer text).mp htext
      rw [hsame] at hignored
      exact ⟨hignored, text, ⟨chunk, ⟨hchunk, by rw [hanswer]; rfl⟩, hasked⟩, hsame⟩
  · rintro ⟨hignored, text, ⟨chunk, ⟨hchunk, hsome⟩, hasked⟩, hsame⟩
    obtain ⟨answer, hanswer⟩ := Option.isSome_iff_exists.mp hsome
    have htext : text ∈ answer :=
      (h chunk hchunk answer hanswer text).mpr ⟨hasked, by rwa [hsame]⟩
    exact ⟨_, ⟨chunk, hchunk, text, by rwa [hanswer], rfl⟩, hsame⟩

/-! ## What is found -/

/-- Only what is ignored of the notes that no pattern leaves out matters. -/
theorem remaining_congr {ignored ignored' : Path → Prop} [DecidablePred ignored]
    [DecidablePred ignored'] {listed : List Path}
    (h : settings.respectGitignore = true → ∀ note ∈ included root settings listed,
      (ignored note ↔ ignored' note)) :
    remaining settings root ignored listed = remaining settings root ignored' listed := by
  refine List.filter_congr fun note hnote => decide_eq_decide.mpr (and_congr_right fun hkept => ?_)
  refine forall_congr' fun hrespect => not_congr (h hrespect note ?_)
  rw [← any_excludes_iff, Bool.not_eq_true] at hkept
  exact List.mem_filter.mpr ⟨hnote, by rw [hkept]; rfl⟩

/-- What remains is left by the patterns first and by git then. -/
theorem remaining_eq_filter {ignored : Path → Prop} [DecidablePred ignored]
    (hrespect : settings.respectGitignore = true) (listed : List Path) :
    remaining settings root ignored listed =
      (included root settings listed).filter fun note => ¬ignored note := by
  rw [remaining, included, List.filter_filter]
  refine List.filter_congr fun note _ => ?_
  simp only [← any_excludes_iff, hrespect, forall_const, Bool.not_eq_true, Bool.decide_and,
    decide_not, Bool.decide_eq_false, Bool.and_comm]

/-- Asked in any chunks, git takes out what it ignores of those that it answers about. -/
theorem filter_ignoredIn (hhost : Faithful) (hrespect : settings.respectGitignore = true)
    (hcut : cut.flatten.Perm (questions files root settings).flatten)
    (h : Reports files root ignores cut) :
    ((included root settings (FileSystem.list files root)).filter fun note =>
        !(ignoredIn files root cut).any (·.same note)) =
      (included root settings (FileSystem.list files root)).filter fun note =>
        ¬(Ignores ignores root note ∧
          note.components ∈ named root (answered files root cut).flatten) := by
  refine List.filter_congr fun note hnote => ?_
  have hiff : (ignoredIn files root cut).any (·.same note) = true ↔ Ignores ignores root note ∧
      note.components ∈ named root (answered files root cut).flatten := by
    rw [any_ignoredIn h, Ignores, and_assoc]
    refine ⟨fun ⟨hignored, hasked⟩ => ⟨?_, hignored, hasked⟩, And.right⟩
    have hsub : (answered files root cut).flatten ⊆ (questions files root settings).flatten :=
      List.Subset.trans (List.Sublist.flatten List.filter_sublist).subset hcut.subset
    exact (mem_named_questions hhost hrespect hnote).mp (List.map_subset _ hsub hasked)
  rw [decide_not, Bool.not_inj_iff, Bool.eq_iff_iff, decide_eq_true_iff]
  exact hiff

/-- An enumeration finds what git does not ignore where it answers. -/
theorem listing_eq (hhost : Faithful)
    (h : Reports files root ignores (questions files root settings)) :
    listing files root settings =
      (remaining settings root (fun note => Ignores ignores root note ∧
        note.components ∈ named root (answered files root (questions files root settings)).flatten)
        (FileSystem.list files root)).mergeSort Path.le := by
  cases hrespect : settings.respectGitignore with
  | false =>
    rw [listing, hrespect]
    refine congrArg (·.mergeSort Path.le) (List.filter_congr fun note _ => ?_)
    simp only [← any_excludes_iff, hrespect, Bool.false_eq_true, false_implies, and_true,
      decide_not, Bool.decide_eq_true]
  | true =>
    -- Without candidates git is not asked, and there is nothing to take out.
    have hasked : ∀ notes : List Path,
        (if true && !notes.isEmpty then keptIn files root notes else notes) =
          keptIn files root notes := fun notes => by cases notes <;> rfl
    rw [remaining_eq_filter hrespect, ← filter_ignoredIn hhost hrespect (List.Perm.refl _) h,
      listing, questions, hrespect]
    exact congrArg (·.mergeSort Path.le) (hasked _)

/-- A note that git is asked about once is in a chunk that git answers about or in one that it fails
on, and not in both. -/
theorem mem_answered_iff (hhost : Faithful) (hrespect : settings.respectGitignore = true)
    (hnodup : (named root (questions files root settings).flatten).Nodup)
    {note : Path} (hnote : note ∈ included root settings (FileSystem.list files root))
    (hnameable : Nameable root note) :
    note.components ∈ named root (answered files root (questions files root settings)).flatten ↔
      note.components ∉
        named root (failing files root (questions files root settings)).flatten := by
  have hperm : (named root (answered files root (questions files root settings)).flatten ++
      named root (failing files root (questions files root settings)).flatten).Perm
        (named root (questions files root settings).flatten) := by
    rw [named, named, ← List.map_append, ← List.flatten_append]
    exact (answered_append_failing_perm files root _).flatten.map _
  have hmem := hperm.mem_iff.mpr ((mem_named_questions hhost hrespect hnote).mpr hnameable)
  refine ⟨fun hanswered hfailing => ?_, fun hfailing => ?_⟩
  · exact List.disjoint_of_nodup_append (hperm.nodup_iff.mpr hnodup) hanswered hfailing
  · exact (List.mem_append.mp hmem).resolve_right hfailing

/-- When no file is listed twice, and their names are texts, an enumeration keeps the files of the
chunks that git fails on. -/
theorem listing_eq_of_pairwise (hhost : Faithful)
    (h : Reports files root ignores (questions files root settings))
    (hnames : AllNameable root (FileSystem.list files root))
    (hlisted : (FileSystem.list files root).Pairwise fun p q => p.components ≠ q.components) :
    listing files root settings =
      (remaining settings root (fun note => Ignores ignores root note ∧
        note.components ∉ named root (failing files root (questions files root settings)).flatten)
        (FileSystem.list files root)).mergeSort Path.le := by
  rw [listing_eq hhost h]
  refine congrArg (fun kept : List Path => kept.mergeSort Path.le) ?_
  refine remaining_congr fun hrespect note hnote => and_congr_right fun hignored => ?_
  exact mem_answered_iff hhost hrespect (nodup_named_questions hrespect hnames hlisted) hnote
    hignored.1

/-- When git does not fail, it is asked about everything that it ignores, in whatever chunks. -/
theorem ignores_and_mem_answered_iff (hhost : Faithful)
    (hrespect : settings.respectGitignore = true)
    (hcut : cut.flatten.Perm (questions files root settings).flatten)
    (hfailing : failing files root cut = []) {note : Path}
    (hnote : note ∈ included root settings (FileSystem.list files root)) :
    Ignores ignores root note ∧ note.components ∈ named root (answered files root cut).flatten ↔
      Ignores ignores root note := by
  refine and_iff_left_of_imp fun hignored => ?_
  rw [answered_eq_self hfailing]
  exact (hcut.map _).mem_iff.mpr ((mem_named_questions hhost hrespect hnote).mpr hignored.1)

/-- When git does not fail, an enumeration finds what no pattern leaves out and git does not
ignore. -/
theorem listing_eq_of_failing_eq_nil (hhost : Faithful)
    (h : Reports files root ignores (questions files root settings))
    (hfailing : failing files root (questions files root settings) = []) :
    listing files root settings =
      (remaining settings root (Ignores ignores root) (FileSystem.list files root)).mergeSort
        Path.le := by
  rw [listing_eq hhost h]
  exact congrArg (·.mergeSort Path.le) (remaining_congr fun hrespect note hnote =>
    ignores_and_mem_answered_iff hhost hrespect (List.Perm.refl _) hfailing hnote)

/-- When git does not fail in any chunks of the same paths, an enumeration finds what it finds by
asking about these. -/
theorem listing_eq_of_flatten_perm (hhost : Faithful)
    (h : Reports files root ignores (questions files root settings))
    (hfailing : failing files root (questions files root settings) = [])
    (hcut : cut.flatten.Perm (questions files root settings).flatten)
    (hreports : Reports files root ignores cut) (hanswered : failing files root cut = [])
    (hrespect : settings.respectGitignore = true) :
    listing files root settings =
      ((included root settings (FileSystem.list files root)).filter fun note =>
        !(ignoredIn files root cut).any (·.same note)).mergeSort Path.le := by
  rw [listing_eq_of_failing_eq_nil hhost h hfailing, remaining_eq_filter hrespect,
    filter_ignoredIn hhost hrespect hcut hreports]
  refine congrArg (·.mergeSort Path.le) (List.filter_congr fun note hnote => ?_)
  exact decide_eq_decide.mpr
    (not_congr (ignores_and_mem_answered_iff hhost hrespect hcut hanswered hnote).symm)

/-- When git does not fail, an enumeration finds the same notes from every order of the listing. -/
theorem listing_congr_of_perm {τ : Type} [FileSystem τ] {after : τ} (hhost : Faithful)
    (h : Reports files root ignores (questions files root settings))
    (hfailing : failing files root (questions files root settings) = [])
    (h' : Reports after root ignores (questions after root settings))
    (hfailing' : failing after root (questions after root settings) = [])
    (hperm : (FileSystem.list after root).Perm (FileSystem.list files root)) :
    (listing after root settings).Perm (listing files root settings) ∧
      (listing after root settings).map Path.components =
        (listing files root settings).map Path.components := by
  have hfound : (listing after root settings).Perm (listing files root settings) := by
    rw [listing_eq_of_failing_eq_nil hhost h hfailing,
      listing_eq_of_failing_eq_nil hhost h' hfailing']
    exact (List.mergeSort_perm _ _).trans ((hperm.filter _).trans (List.mergeSort_perm _ _).symm)
  exact ⟨hfound, Path.map_components_eq_of_perm (Path.pairwise_mergeSort _)
    (Path.pairwise_mergeSort _) (hfound.map _)⟩

/-- An enumeration that nobody cancels finds, in order, the listed files that no valid pattern
matches, if these make a set, and, if asked for, that git does not ignore, provided that it answers
about them. When git does not fail, that is so for every order of the listing and in whatever chunks
git is asked; when it fails, no file is listed twice and their names are texts, the files of the
chunks on which it fails are kept as well. -/
theorem notes_enumerates (hhost : Faithful) {session : Session σ} (hquiet : session.token.Quiet)
    (root : Path) (settings : IndexSettings) (ignores : List Component → Bool)
    (hgit : Reports session.files root ignores (questions session.files root settings)) :
    let files := session.files
    let listed := FileSystem.list files root
    let asked := questions files root settings
    ∃ found, (notes root settings).Answers session (some found) ∧
      found.Pairwise (fun p q => p.le q = true) ∧
      found.Perm (remaining settings root (fun note => Ignores ignores root note ∧
        note.components ∈ named root (answered files root asked).flatten) listed) ∧
      (failing files root asked = [] →
        found.Perm (remaining settings root (Ignores ignores root) listed) ∧
        (∀ cut : List (List Text), cut.flatten.Perm asked.flatten →
          Reports files root ignores cut → failing files root cut = [] →
          settings.respectGitignore = true →
          ∃ ignored, (ignoredChunks root cut).Answers session (some ignored) ∧
            found = ((included root settings listed).filter fun note =>
              !ignored.any (·.same note)).mergeSort Path.le) ∧
        ∀ {τ : Type} [FileSystem τ] (other : Session τ), other.token.Quiet →
          (FileSystem.list other.files root).Perm listed →
          Reports other.files root ignores (questions other.files root settings) →
          failing other.files root (questions other.files root settings) = [] →
          ∃ found', (notes root settings).Answers other (some found') ∧ found'.Perm found ∧
            found'.map Path.components = found.map Path.components) ∧
      (AllNameable root listed → (listed.Pairwise fun p q => p.components ≠ q.components) →
        found.Perm (remaining settings root (fun note => Ignores ignores root note ∧
          note.components ∉ named root (failing files root asked).flatten) listed)) := by
  intro files listed asked
  have hfound := (finds_notes root settings session).answers hquiet
  refine ⟨_, hfound, Path.pairwise_mergeSort _, ?_, fun hanswers => ⟨?_, ?_, ?_⟩,
    fun hnames honce => ?_⟩
  · rw [listing_eq hhost hgit]
    exact List.mergeSort_perm _ _
  · rw [listing_eq_of_failing_eq_nil hhost hgit hanswers]
    exact List.mergeSort_perm _ _
  · intro cut hcut hreports hanswered hrespect
    exact ⟨_, (finds_ignoredChunks root cut session).answers hquiet,
      listing_eq_of_flatten_perm hhost hgit hanswers hcut hreports hanswered hrespect⟩
  · intro τ _ other hother hlisted hreports hanswered
    exact ⟨_, (finds_notes root settings other).answers hother,
      listing_congr_of_perm hhost hgit hanswers hreports hanswered hlisted⟩
  · rw [listing_eq_of_pairwise hhost hgit hnames honce]
    exact List.mergeSort_perm _ _

end Host

/-- In a repository a file is left out by a pattern and another one by git. -/
theorem notes_enumerates_repository :
    let root : Path := ⟨"/ws".toList⟩
    let settings : IndexSettings := { exclude := ["drafts/**".toList, "[".toList] }
    let session : Session FileTree :=
      { files :=
          { entries := [(["ws".toList], .directory),
              (["ws".toList, ".gitignore".toList], .file (some "s*\n".toList)),
              (["ws".toList, "secret.md".toList], .file (some [])),
              (["ws".toList, "b.md".toList], .file (some [])),
              (["ws".toList, "drafts".toList], .directory),
              (["ws".toList, "drafts".toList, "c.md".toList], .file (some [])),
              (["ws".toList, "a.md".toList], .file (some []))]
            repository := some ["ws".toList] } }
    let ignores : List Component → Bool := (·.getLast? = some (.name "secret.md".toList))
    Reports session.files root ignores (questions session.files root settings) ∧
      ∃ found, (notes root settings).Answers session (some found) ∧
        found.Pairwise (fun p q => p.le q = true) ∧
        found.Perm [⟨"/ws/a.md".toList⟩, ⟨"/ws/b.md".toList⟩] := by
  intro root settings session ignores
  have hasked : questions session.files root settings =
      [["secret.md".toList, "b.md".toList, "a.md".toList]] := by decide +kernel
  have hgit : FileSystem.ignored session.files root
      ["secret.md".toList, "b.md".toList, "a.md".toList] = some ["secret.md".toList] := by
    decide +kernel
  have hreports : Reports session.files root ignores (questions session.files root settings) := by
    rw [hasked]
    intro chunk hchunk answer hanswer text
    obtain rfl := List.mem_singleton.mp hchunk
    have hignored : (["secret.md".toList, "b.md".toList, "a.md".toList].filter fun text =>
        ignores (root.join (Host.ofText text)).components) = ["secret.md".toList] := by
      decide +kernel
    rw [← Option.some.inj (hgit.symm.trans hanswer), ← hignored, List.mem_filter]
  have hanswers : failing session.files root (questions session.files root settings) = [] := by
    rw [hasked]
    decide +kernel
  have hremaining : remaining settings root (Ignores ignores root)
      (FileSystem.list session.files root) = [⟨"/ws/b.md".toList⟩, ⟨"/ws/a.md".toList⟩] := by
    decide +kernel
  obtain ⟨found, hfound, hsorted, -, hexact, -⟩ :=
    notes_enumerates faithful_texts Token.quiet_new root settings ignores hreports
  obtain ⟨hperm, -, -⟩ := hexact hanswers
  rw [hremaining] at hperm
  exact ⟨hreports, found, hfound, hsorted, hperm.trans (.swap _ _ [])⟩

/-- A pattern that is nested too deep brings back what another one leaves out, and a file that git
ignores is found when its name is no text. -/
theorem notes_keep_excluded_and_ignored :
    let root : Path := ⟨"/ws".toList⟩
    (let deep := List.replicate 300 '\x7b' ++ ['a'] ++ List.replicate 300 '\x7d'
      let settings : IndexSettings :=
        { exclude := ["drafts/**".toList, deep], respectGitignore := false }
      let draft : Path := ⟨"/ws/drafts/wip.md".toList⟩
      let session : Session MemoryFiles :=
        { files := { files := [(draft, some []), (⟨"/ws/keep.md".toList⟩, some [])] } }
      (∀ pattern ∈ settings.exclude, (Glob.pieces? pattern).isSome) ∧
        Excludes settings root draft ∧
        ∃ found, (notes root settings).Answers session (some found) ∧ draft ∈ found) ∧
    (let _ : Host := replacing
      let settings : IndexSettings := {}
      let secret : Path := ⟨"/ws/s\x00.md".toList⟩
      let session : Session FileTree :=
        { files :=
            { entries := [(["ws".toList], .directory),
                (["ws".toList, ".gitignore".toList], .file (some "s*\n".toList)),
                (["ws".toList, "s\x00.md".toList], .file (some []))]
              repository := some ["ws".toList] } }
      let ignores : List Component → Bool := (·.any fun part => part.text.head? = some 's')
      Faithful ∧ Reports session.files root ignores (questions session.files root settings) ∧
        failing session.files root (questions session.files root settings) = [] ∧
        ignores secret.components = true ∧
        ∃ found, (notes root settings).Answers session (some found) ∧ secret ∈ found) := by
  intro root
  constructor
  · intro deep settings draft session
    refine ⟨by decide +kernel, by decide +kernel, _,
      (finds_notes root settings session).answers Token.quiet_new, ?_⟩
    have hlisted : draft ∈ FileSystem.list session.files root :=
      List.mem_mergeSort.mpr (by decide +kernel)
    exact List.mem_mergeSort.mpr (List.mem_filter.mpr ⟨hlisted, by decide +kernel⟩)
  · intro _ settings secret session ignores
    have hasked : questions session.files root settings = [["s\ufffd.md".toList]] := by
      decide +kernel
    have hgit : FileSystem.ignored session.files root ["s\ufffd.md".toList] =
        some ["s\ufffd.md".toList] := by decide +kernel
    have hignored : ignores (root.join (Host.ofText "s\ufffd.md".toList)).components = true := by
      decide +kernel
    refine ⟨faithful_replacing, ?_, by rw [hasked]; decide +kernel, by decide +kernel, _,
      (finds_notes root settings session).answers Token.quiet_new, ?_⟩
    · rw [hasked]
      intro chunk hchunk answer hanswer text
      obtain rfl := List.mem_singleton.mp hchunk
      rw [← Option.some.inj (hgit.symm.trans hanswer)]
      refine (and_iff_left_of_imp fun htext => ?_).symm
      rwa [List.mem_singleton.mp htext]
    · rw [listing, List.mem_mergeSort]
      decide +kernel

end LinkedNotes.Discovery
