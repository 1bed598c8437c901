import LinkedNotes.Proofs.Path.Components

/-!
# Names at the end of clean and relative paths

Cleaning a path keeps a name at its end, and so does looking at it from a directory that is not
inside it. Main statement: a relative path ends in the name of its target, unless the target lies at
or above the directory.
-/

namespace LinkedNotes.Path

open Note Text

/-- Whether a path is a directory or one above it, apart from how both are spelled. -/
def atOrAbove (path dir : Path) : Bool :=
  (cleanComponents path.components).isPrefixOf (cleanComponents dir.components)

/-- Cleaning keeps a name at the end. -/
theorem getLast?_cleanComponents {parts : List Component} {name : Text}
    (h : parts.getLast? = some (.name name)) :
    (cleanComponents parts).getLast? = some (.name name) := by
  obtain ⟨init, rfl⟩ := List.getLast?_eq_some_iff.mp h
  simp [cleanComponents, List.foldl_append, cleanStep]

/-- The last piece of a joined text is that of what was joined last. -/
theorem lastPiece_joinWith (pieces : List Text) (piece : Text) :
    lastPiece (joinWith ['/'] (pieces ++ [piece])) = lastPiece piece := by
  induction pieces with
  | nil => rfl
  | cons first more ih =>
    have hjoin : joinWith ['/'] (first :: (more ++ [piece])) =
        first ++ ['/'] ++ joinWith ['/'] (more ++ [piece]) := by
      cases more <;> rfl
    rw [List.cons_append, hjoin, lastPiece_dir_append (.inr (by simp)), ih]

/-- The last piece of the spelling of some components is that of the last component. -/
theorem lastPiece_ofComponents {parts : List Component} {last : Component}
    (h : parts.getLast? = some last) :
    lastPiece (ofComponents parts).text = lastPiece last.text := by
  obtain ⟨init, rfl⟩ := List.getLast?_eq_some_iff.mp h
  have hjoin := lastPiece_joinWith (init.map Component.text) last.text
  cases init with
  | nil => cases last <;> rfl
  | cons first more =>
    cases first with
    | root =>
      have hmore := lastPiece_joinWith (more.map Component.text) last.text
      have hdir : ['/'] = [] ∨ ['/'].getLast? = some '/' := .inr rfl
      have := lastPiece_dir_append hdir (joinWith ['/'] ((more ++ [last]).map Component.text))
      simpa [ofComponents, hmore] using this
    | here => simpa [ofComponents] using hjoin
    | up => simpa [ofComponents] using hjoin
    | name _ => simpa [ofComponents] using hjoin

/-- A path in a directory, once clean, ends in the last piece of what was written. -/
theorem getLast?_clean_join (dir : Path) {text : Text}
    (h : Component.ofPiece? (lastPiece text) = some (.name (lastPiece text))) :
    (dir.join ⟨text⟩).clean.components.getLast? = some (.name (lastPiece text)) := by
  have hjoin := lastPiece_join dir ⟨text⟩
  have hlast := getLast?_components_of_lastPiece (dir.join ⟨text⟩) (by rw [hjoin]; exact h)
  rw [hjoin] at hlast
  have hpiece : lastPiece (dir.join ⟨text⟩).clean.text = lastPiece text := by
    rw [clean, lastPiece_ofComponents (getLast?_cleanComponents hlast), Component.text,
      lastPiece_lastPiece]
  have := getLast?_components_of_lastPiece (dir.join ⟨text⟩).clean (by rw [hpiece]; exact h)
  rwa [hpiece] at this

/-- What two lists start with in common stands before what is left of both. -/
theorem exists_common (s t : List Component) :
    ∃ common, s = common ++ (dropCommon s t).1 ∧ t = common ++ (dropCommon s t).2 := by
  induction s generalizing t with
  | nil => exact ⟨[], by simp [dropCommon], by simp [dropCommon]⟩
  | cons a s ih =>
    cases t with
    | nil => exact ⟨[], by simp [dropCommon], by simp [dropCommon]⟩
    | cons b t =>
      by_cases hab : a = b
      · subst hab
        obtain ⟨common, hs, ht⟩ := ih t
        refine ⟨a :: common, ?_, ?_⟩
        · rw [dropCommon, if_pos rfl, List.cons_append, ← hs]
        · rw [dropCommon, if_pos rfl, List.cons_append, ← ht]
      · exact ⟨[], by simp [dropCommon, hab], by simp [dropCommon, hab]⟩

/-- The components of a relative path: they end in a name only if its target does, and they end as
its target does if that is not at or above the directory. -/
theorem exists_relative_eq (base target : Path) :
    ∃ parts, relative base target = ofComponents parts ∧
      (∀ name, parts.getLast? = some (.name name) →
        (cleanComponents target.components).getLast? = some (.name name)) ∧
      (atOrAbove target base = false →
        parts.getLast? = (cleanComponents target.components).getLast?) := by
  obtain ⟨common, hbase, htarget⟩ :=
    exists_common (cleanComponents base.components) (cleanComponents target.components)
  have hends : ∀ before below, below ≠ [] →
      cleanComponents target.components = common ++ below →
      (before ++ below).getLast? = (cleanComponents target.components).getLast? :=
    fun before below hne heq => by
      rw [heq, List.getLast?_append, List.getLast?_append, List.getLast?_eq_some_getLast hne,
        Option.some_or, Option.some_or]
  unfold relative
  split
  · next rest heq =>
    rw [heq] at htarget
    have hlast := hends [] (.root :: rest) (by simp) htarget
    rw [List.nil_append] at hlast
    exact ⟨.root :: rest, rfl, fun name h => by rw [← hlast, h], fun _ => hlast⟩
  · next above below _ heq =>
    rw [heq] at hbase htarget
    refine ⟨above.map (fun _ => .up) ++ below, rfl, fun name h => ?_, fun h => ?_⟩
    · -- The steps up are no names.
      by_cases hne : below = []
      · rw [hne, List.append_nil] at h
        obtain ⟨_, _, he⟩ := List.mem_map.mp (List.mem_of_getLast? h)
        cases he
      · rw [← hends _ below hne htarget, h]
    · refine hends _ below (fun hnil => ?_) htarget
      rw [hnil, List.append_nil] at htarget
      have hprefix : atOrAbove target base = true :=
        List.isPrefixOf_iff_prefix.mpr ⟨above, by rw [htarget, hbase]⟩
      rw [h] at hprefix
      cases hprefix

/-- A relative path that ends in a note extension ends in the name of its target. -/
theorem exists_name_of_stripExtension_ne {base target : Path}
    (h : stripExtension (lastPiece (relative base target).text) ≠
      lastPiece (relative base target).text) :
    ∃ name, (cleanComponents target.components).getLast? = some (.name name) ∧
      lastPiece (relative base target).text = lastPiece name := by
  obtain ⟨parts, hparts, hname, -⟩ := exists_relative_eq base target
  rw [hparts] at h ⊢
  cases hlast : parts.getLast? with
  | none =>
    rw [List.getLast?_eq_none_iff.mp hlast] at h
    exact absurd (by decide) h
  | some last =>
    rw [lastPiece_ofComponents hlast] at h ⊢
    cases last with
    | name name => exact ⟨name, hname name hlast, rfl⟩
    | root => exact absurd (by decide) h
    | here => exact absurd (by decide) h
    | up => exact absurd (by decide) h

/-- The relative path of a note ends in its name, seen from a directory that it is not at or
above. -/
theorem lastPiece_relative {base target : Path} {name : Text}
    (h : atOrAbove target base = false)
    (hname : (cleanComponents target.components).getLast? = some (.name name)) :
    lastPiece (relative base target).text = lastPiece name := by
  obtain ⟨parts, hparts, -, hends⟩ := exists_relative_eq base target
  rw [hparts, lastPiece_ofComponents ((hends h).trans hname)]
  rfl

/-- The same path is seen alike from the same directory. -/
theorem relative_congr {base other target same : Path}
    (hbase : base.components = other.components) (htarget : target.components = same.components) :
    relative base target = relative other same := by
  simp only [relative, hbase, htarget]

end LinkedNotes.Path
