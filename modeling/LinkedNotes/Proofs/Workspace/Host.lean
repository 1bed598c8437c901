import LinkedNotes.Proofs.Path.Prefix
import LinkedNotes.Workspace.Discovery

/-!
# What is relied on of the host

The names of files need not be texts, but git is asked about texts. What an enumeration relies on is
that a path becomes a text that names something below the same directory, and the path itself if any
text names it. Main statements: this is so where all names are texts, and also where an octet of a
name that is no text is replaced.
-/

namespace LinkedNotes.Discovery

/-- Whether paths below a directory become texts that name paths below it, and the paths themselves
if there are texts that name them. -/
structure Faithful [Host] : Prop where
  /-- The text names a path below the directory. -/
  below : ∀ {path base rest : Path}, path.stripPrefix? base = some rest →
    base.components <+: (base.join (Host.ofText (Host.toText rest))).components
  /-- It is the path itself if any text names it. -/
  unchanged : ∀ {path base rest : Path} {text : Text}, path.stripPrefix? base = some rest →
    (base.join (Host.ofText text)).components = path.components →
      Host.ofText (Host.toText rest) = rest

/-- Where all names are texts, all paths become texts that name them. -/
theorem faithful_texts : Faithful where
  below hrest :=
    Path.prefix_components_join fun hbase => Path.isAbsolute_of_stripPrefix? hbase hrest
  unchanged _ _ := rfl

/-! ## Names that are no texts -/

/-- A text without the octets that are no text. They are written as the character that no name has,
and each of them is replaced. -/
def replaced (text : Text) : Text :=
  text.map fun c => if c = '\x00' then '\ufffd' else c

/-- A host with names that are no texts. -/
@[reducible] def replacing : Host where
  builds globs := globs.all Glob.fits
  octets path := path.text.flatMap fun c => if c = '\x00' then [0xff] else Text.octets [c]
  toText path := replaced path.text
  ofText text := ⟨replaced text⟩

/-- Nothing is left to be replaced. -/
theorem notMem_replaced (text : Text) : '\x00' ∉ replaced text := by
  intro h
  obtain ⟨c, -, hc⟩ := List.mem_map.mp h
  split at hc
  · revert hc
    decide
  · contradiction

/-- Where there is nothing to be replaced, the text stays as it is. -/
theorem replaced_eq_self {text : Text} (h : '\x00' ∉ text) : replaced text = text := by
  refine (List.map_congr_left fun c hc => if_neg ?_).trans (List.map_id text)
  rintro rfl
  exact h hc

/-- A path stays relative when octets of it are replaced. -/
theorem isAbsolute_replaced {text : Text} (h : (⟨text⟩ : Path).isAbsolute = false) :
    (⟨replaced text⟩ : Path).isAbsolute = false := by
  cases text with
  | nil => rfl
  | cons c rest =>
    have hc : c ≠ '/' := by simpa [Path.isAbsolute] using h
    have hreplaced : (if c = '\x00' then '\ufffd' else c) ≠ '/' := by
      split
      · decide
      · exact hc
    simpa [Path.isAbsolute, replaced] using hreplaced

/-- A path that some text names has no octets that are no text in it. -/
theorem notMem_of_components_join {base rest : Path} {text : Text}
    (hrest : base.text ≠ [] → rest.isAbsolute = false)
    (h : (base.join rest).components = (base.join ⟨replaced text⟩).components) :
    '\x00' ∉ rest.text := by
  rw [← Path.exists_name_mem_pieceComponents_iff (by decide) (by decide)]
  rintro ⟨name, hname, hmem⟩
  have hnamed : Component.name name ∈ Path.pieceComponents (replaced text) := by
    by_cases hbase : base.text = []
    · have hjoin : ∀ path, base.join path = path := fun path => by simp [Path.join, hbase]
      rw [hjoin, hjoin] at h
      rw [Path.name_mem_pieceComponents_iff, ← h]
      exact Path.name_mem_pieceComponents_iff.mp hname
    · rw [Path.components_join hbase (hrest hbase)] at h
      cases habsolute : (⟨replaced text⟩ : Path).isAbsolute with
      | false =>
        rw [Path.components_join hbase habsolute] at h
        exact List.append_cancel_left h ▸ hname
      | true =>
        have hjoin : base.join ⟨replaced text⟩ = ⟨replaced text⟩ := by simp [Path.join, habsolute]
        rw [hjoin] at h
        exact Path.name_mem_pieceComponents_iff.mpr (h ▸ List.mem_append_right _ hname)
  exact notMem_replaced text
    ((Path.exists_name_mem_pieceComponents_iff (by decide) (by decide) _).mp ⟨name, hnamed, hmem⟩)

/-- Where octets that are no text are replaced, only the paths that have any are changed. -/
theorem faithful_replacing : @Faithful replacing :=
  let _ := replacing
  { below := fun hrest => Path.prefix_components_join fun hbase =>
      isAbsolute_replaced (isAbsolute_replaced (Path.isAbsolute_of_stripPrefix? hbase hrest))
    unchanged := fun {_ _ rest _} hrest hsame => by
      have hself : replaced rest.text = rest.text := replaced_eq_self
        (notMem_of_components_join (fun hbase => Path.isAbsolute_of_stripPrefix? hbase hrest)
          ((Path.components_join_stripPrefix? hrest).trans hsame.symm))
      exact congrArg Path.mk ((congrArg replaced hself).trans hself) }

end LinkedNotes.Discovery
