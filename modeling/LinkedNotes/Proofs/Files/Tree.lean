import LinkedNotes.Files.Tree
import LinkedNotes.Proofs.Files.Laws

/-!
# Writing into a tree of files

A path is followed step by step, links included, so a file may be written in another place than the
path seems to say, and directories that are made may open ways that were closed before. Main
statements: a file that is created is in the directory that was asked for, or where a link of its
name leads, and besides it only directories are new; a file that cannot be created changes no file.
The files below a directory, and git, are outside this module.
-/

namespace LinkedNotes

/-- The real path of a place. -/
def FileTree.Place.real : FileTree.Place → RealPath
  | present real _ => real
  | absent real => real

/-- What is at a place. -/
def FileTree.Place.found? : FileTree.Place → Option Entry
  | present _ entry => some entry
  | absent _ => none

namespace FileTree

variable {tree : FileTree} {fuel : Nat} {real spot : RealPath} {parts : List Component}
  {place : Place}

/-- The file at a real path, if there is one, with its text. -/
def content? (tree : FileTree) (real : RealPath) : Option (Option Text) :=
  match tree.entry? real with
  | some (.file content) => some content
  | _ => none

/-- A file is at a real path exactly when this is its entry. -/
theorem content?_eq_some_iff {content : Option Text} :
    tree.content? real = some content ↔ tree.entry? real = some (.file content) := by
  unfold content?
  split
  · next other h => simp [h]
  · next h => simpa using h content

/-! ## Entries -/

/-- What is looked up apart from one real path does not depend on what is there. -/
theorem lookup_filter_ne (entries : List (RealPath × Entry)) (h : real ≠ spot) :
    (entries.filter (·.1 ≠ spot)).lookup real = entries.lookup real := by
  induction entries with
  | nil => rfl
  | cons first rest ih =>
    obtain ⟨other, entry⟩ := first
    by_cases hother : other = spot
    · subst hother
      have hne : (real == other) = false := by simpa using h
      rw [List.filter_cons_of_neg (by simp), List.lookup_cons, hne]
      exact ih
    · rw [List.filter_cons_of_pos (by simpa using hother), List.lookup_cons, List.lookup_cons, ih]

/-- The root is a directory. -/
theorem entry?_nil (tree : FileTree) : tree.entry? [] = some .directory :=
  rfl

/-- An entry that is set is there, and the others stay. -/
theorem entry?_set (hspot : spot ≠ []) (entry : Entry) :
    FileTree.entry? (tree.set spot entry) real =
      if real = spot then some entry else tree.entry? real := by
  by_cases hreal : real = spot
  · subst hreal
    unfold entry? set
    simp [hspot]
  · rw [if_neg hreal]
    unfold entry?
    split
    · rfl
    · have hne : (real == spot) = false := by simpa using hreal
      rw [set, List.lookup_cons, hne]
      exact lookup_filter_ne tree.entries hreal

/-- What is no directory is not at the root. -/
theorem ne_nil_of_ne_directory (h : tree.entry? real ≠ some .directory) : real ≠ [] := by
  rintro rfl
  exact h rfl

/-- Whether one tree has what another one has, and perhaps more directories. -/
def Extends (after tree : FileTree) : Prop :=
  ∀ real, after.entry? real = tree.entry? real ∨
    tree.entry? real = none ∧ after.entry? real = some .directory

namespace Extends

variable {first second third : FileTree}

theorem refl (tree : FileTree) : tree.Extends tree :=
  fun _ => .inl rfl

theorem trans (h : third.Extends second) (h' : second.Extends first) : third.Extends first := by
  intro real
  rcases h real with hsame | ⟨hnone, hmade⟩
  · rw [hsame]
    exact h' real
  · rcases h' real with hsame | ⟨-, hmade'⟩
    · exact .inr ⟨hsame ▸ hnone, hmade⟩
    · rw [hnone] at hmade'
      cases hmade'

/-- A directory that is made where nothing was is an addition. -/
theorem set (h : tree.entry? real = none) : (tree.set real .directory).Extends tree := by
  intro other
  have hdir : tree.entry? real ≠ some .directory := by simp [h]
  rw [entry?_set (ne_nil_of_ne_directory hdir)]
  by_cases hother : other = real
  · exact .inr ⟨hother ▸ h, if_pos hother⟩
  · exact .inl (if_neg hother)

/-- Directories hold no text. -/
theorem content? (h : third.Extends first) (real : RealPath) :
    third.content? real = first.content? real := by
  rcases h real with hsame | ⟨hnone, hmade⟩
  · rw [FileTree.content?, hsame]
    rfl
  · simp [FileTree.content?, hnone, hmade]

/-- What was there is still there. -/
theorem entry?_of_eq_some (h : third.Extends first) {entry : Entry}
    (hentry : first.entry? real = some entry) : third.entry? real = some entry := by
  rcases h real with hsame | ⟨hnone, -⟩
  · rw [hsame, hentry]
  · rw [hnone] at hentry
    cases hentry

/-- What is no directory was there before. -/
theorem entry?_of_ne_directory (h : third.Extends first)
    (hdir : third.entry? real ≠ some .directory) : third.entry? real = first.entry? real := by
  rcases h real with hsame | ⟨-, hmade⟩
  · exact hsame
  · exact absurd hmade hdir

end Extends

/-! ## Following a path -/

/-- The place at a real path. -/
def placeAt (tree : FileTree) (real : RealPath) : Place :=
  match tree.entry? real with
  | some entry => .present real entry
  | none => .absent real

/-- What is at the place of a real path is its entry. -/
theorem placeAt_spec (tree : FileTree) (real : RealPath) :
    (tree.placeAt real).real = real ∧ (tree.placeAt real).found? = tree.entry? real := by
  unfold placeAt
  split
  · next entry h => exact ⟨rfl, h.symm⟩
  · next h => exact ⟨rfl, h.symm⟩

/-- How components lead from a real path to a place, in at most so many steps. `last` tells whether
a link at the very end is followed. -/
inductive Leads (tree : FileTree) (last : Bool) :
    Nat → RealPath → List Component → Place → Prop where
  /-- Nothing is left to follow. -/
  | arrive {fuel : Nat} {real : RealPath} : Leads tree last fuel real [] (tree.placeAt real)
  /-- Back to the root. -/
  | root {fuel : Nat} {real : RealPath} {rest : List Component} {place : Place}
    (hdir : tree.entry? real = some .directory) (h : Leads tree last fuel [] rest place) :
    Leads tree last (fuel + 1) real (.root :: rest) place
  /-- A step that stays. -/
  | here {fuel : Nat} {real : RealPath} {rest : List Component} {place : Place}
    (hdir : tree.entry? real = some .directory) (h : Leads tree last fuel real rest place) :
    Leads tree last (fuel + 1) real (.here :: rest) place
  /-- Up one directory. -/
  | up {fuel : Nat} {real : RealPath} {rest : List Component} {place : Place}
    (hdir : tree.entry? real = some .directory)
    (h : Leads tree last fuel real.dropLast rest place) :
    Leads tree last (fuel + 1) real (.up :: rest) place
  /-- To a name that is not there; only the last one may be missing. -/
  | miss {fuel : Nat} {real : RealPath} {name : Text}
    (hdir : tree.entry? real = some .directory) (hname : Text.size name ≤ nameLimit)
    (hnone : tree.entry? (real ++ [name]) = none) :
    Leads tree last (fuel + 1) real [.name name] (.absent (real ++ [name]))
  /-- To a link at the very end. -/
  | stop {fuel : Nat} {real : RealPath} {name target : Text} (hlast : last = false)
    (hdir : tree.entry? real = some .directory) (hname : Text.size name ≤ nameLimit)
    (hlink : tree.entry? (real ++ [name]) = some (.link target)) :
    Leads tree last (fuel + 1) real [.name name] (.present (real ++ [name]) (.link target))
  /-- Along a link. -/
  | link {fuel : Nat} {real : RealPath} {name target : Text} {rest : List Component}
    {place : Place} (hlast : rest = [] → last = true)
    (hdir : tree.entry? real = some .directory) (hname : Text.size name ≤ nameLimit)
    (hlink : tree.entry? (real ++ [name]) = some (.link target))
    (h : Leads tree last fuel real ((Path.mk target).components ++ rest) place) :
    Leads tree last (fuel + 1) real (.name name :: rest) place
  /-- Down to a file or a directory. -/
  | down {fuel : Nat} {real : RealPath} {name : Text} {entry : Entry} {rest : List Component}
    {place : Place} (hdir : tree.entry? real = some .directory)
    (hname : Text.size name ≤ nameLimit) (hentry : tree.entry? (real ++ [name]) = some entry)
    (hlink : ∀ target, entry ≠ .link target)
    (h : Leads tree last fuel (real ++ [name]) rest place) :
    Leads tree last (fuel + 1) real (.name name :: rest) place

/-- What is there is where nothing is left to follow. -/
theorem Leads.present {last : Bool} {entry : Entry} (h : tree.entry? real = some entry) :
    Leads tree last fuel real [] (.present real entry) := by
  have harrive : Leads tree last fuel real [] (tree.placeAt real) := .arrive
  rwa [placeAt, h] at harrive

/-- So is what is missing. -/
theorem Leads.absent {last : Bool} (h : tree.entry? real = none) :
    Leads tree last fuel real [] (.absent real) := by
  have harrive : Leads tree last fuel real [] (tree.placeAt real) := .arrive
  rwa [placeAt, h] at harrive

/-- Where nothing is left to follow, there is the place. -/
theorem follow_nil (tree : FileTree) (last : Bool) (fuel : Nat) (real : RealPath) :
    tree.follow last fuel real [] = .ok (tree.placeAt real) := by
  unfold placeAt
  cases fuel <;> (rw [follow]; cases tree.entry? real <;> rfl)

/-- A path that can be followed leads to the place where it ends. -/
theorem leads_of_follow {last : Bool} (h : tree.follow last fuel real parts = .ok place) :
    Leads tree last fuel real parts place := by
  -- The cases are the branches of `follow` in their order; those that fail end at no place.
  fun_induction follow tree last fuel real parts with
  | case1 fuel real entry hentry =>
    cases h
    exact .present hentry
  | case2 fuel real hnone =>
    cases h
    exact .absent hnone
  | case3 => cases h
  | case4 => cases h
  | case5 fuel real rest hdir ih => exact .root (not_not.mp hdir) (ih h)
  | case6 fuel real rest hdir ih => exact .here (not_not.mp hdir) (ih h)
  | case7 fuel real rest hdir ih => exact .up (not_not.mp hdir) (ih h)
  | case8 => cases h
  | case9 fuel real rest hdir name hname next hnone hlast =>
    obtain rfl := List.isEmpty_iff.mp hlast
    cases h
    exact .miss (not_not.mp hdir) (Nat.not_lt.mp hname) hnone
  | case10 => cases h
  | case11 fuel real rest hdir name hname next target hlink hcut =>
    obtain ⟨hrest, hlast⟩ : rest = [] ∧ last = false := by simpa using hcut
    subst hrest
    cases h
    exact .stop hlast (not_not.mp hdir) (Nat.not_lt.mp hname) hlink
  | case12 fuel real rest hdir name hname next target hlink hlast ih =>
    have hfollowed : rest = [] → last = true := by simpa using hlast
    exact .link hfollowed (not_not.mp hdir) (Nat.not_lt.mp hname) hlink (ih h)
  | case13 fuel real rest hdir name hname next entry hlink hentry ih =>
    exact .down (not_not.mp hdir) (Nat.not_lt.mp hname) hentry hlink (ih h)

/-- The place that a path leads to is found by following it. -/
theorem Leads.follow_eq {last : Bool} (h : Leads tree last fuel real parts place) :
    tree.follow last fuel real parts = .ok place := by
  induction h with
  | arrive => exact follow_nil ..
  | root hdir h ih =>
    rw [follow, if_neg (not_not.mpr hdir)]
    exact ih
  | here hdir h ih =>
    rw [follow, if_neg (not_not.mpr hdir)]
    exact ih
  | up hdir h ih =>
    rw [follow, if_neg (not_not.mpr hdir)]
    exact ih
  | miss hdir hname hnone =>
    rw [follow, if_neg (not_not.mpr hdir)]
    simp [hnone, Nat.not_lt.mpr hname]
  | stop hlast hdir hname hlink =>
    rw [follow, if_neg (not_not.mpr hdir)]
    simp [hlink, hlast, Nat.not_lt.mpr hname]
  | @link _ _ _ _ rest _ hlast hdir hname hlink h ih =>
    have hfollowed : ¬ (rest.isEmpty && !last) = true := by simpa using hlast
    rw [follow, if_neg (not_not.mpr hdir)]
    simp only [hlink, if_neg (Nat.not_lt.mpr hname), if_neg hfollowed]
    exact ih
  | @down _ _ _ entry _ _ hdir hname hentry hlink h ih =>
    rw [follow, if_neg (not_not.mpr hdir)]
    simp only [hentry, if_neg (Nat.not_lt.mpr hname)]
    cases entry with
    | link target => exact absurd rfl (hlink target)
    | file content => exact ih
    | directory => exact ih

/-- Following a path gives the place that it leads to. -/
theorem follow_eq_ok_iff {last : Bool} :
    tree.follow last fuel real parts = .ok place ↔ Leads tree last fuel real parts place :=
  ⟨leads_of_follow, Leads.follow_eq⟩

namespace Leads

variable {last : Bool}

/-- What a path leads to is there. -/
theorem entry?_eq (h : Leads tree last fuel real parts place) :
    tree.entry? place.real = place.found? := by
  induction h with
  | arrive => rw [(placeAt_spec tree _).1, (placeAt_spec tree _).2]
  | root hdir h ih => exact ih
  | here hdir h ih => exact ih
  | up hdir h ih => exact ih
  | miss hdir hname hnone => exact hnone
  | stop hlast hdir hname hlink => exact hlink
  | link hlast hdir hname hlink h ih => exact ih
  | down hdir hname hentry hlink h ih => exact ih

/-- A path that ends in a name leads through the directory of this name. -/
theorem concat {name : Text} (h : Leads tree last fuel real (parts ++ [.name name]) place) :
    ∃ spot rest, Leads tree true fuel real parts (.present spot .directory) ∧
      Leads tree last (rest + 1) spot [.name name] place := by
  generalize hparts : parts ++ [.name name] = all at h
  -- A link puts its components before the rest, so the parts before the name may grow on the way.
  induction h generalizing parts with
  | arrive => simp at hparts
  | root hdir h ih =>
    cases parts with
    | nil => cases hparts
    | cons first more =>
      obtain ⟨rfl, hrest⟩ := List.cons.inj hparts
      obtain ⟨spot, left, hspot, hname⟩ := ih hrest
      exact ⟨spot, left, .root hdir hspot, hname⟩
  | here hdir h ih =>
    cases parts with
    | nil => cases hparts
    | cons first more =>
      obtain ⟨rfl, hrest⟩ := List.cons.inj hparts
      obtain ⟨spot, left, hspot, hname⟩ := ih hrest
      exact ⟨spot, left, .here hdir hspot, hname⟩
  | up hdir h ih =>
    cases parts with
    | nil => cases hparts
    | cons first more =>
      obtain ⟨rfl, hrest⟩ := List.cons.inj hparts
      obtain ⟨spot, left, hspot, hname⟩ := ih hrest
      exact ⟨spot, left, .up hdir hspot, hname⟩
  | @miss fuel real _ hdir hsize hnone =>
    cases parts with
    | nil =>
      cases hparts
      exact ⟨real, fuel, .present hdir, .miss hdir hsize hnone⟩
    | cons first more => simp at hparts
  | @stop fuel real _ _ hlast hdir hsize hlink =>
    cases parts with
    | nil =>
      cases hparts
      exact ⟨real, fuel, .present hdir, .stop hlast hdir hsize hlink⟩
    | cons first more => simp at hparts
  | @link fuel real _ target _ _ hlast hdir hsize hlink h ih =>
    cases parts with
    | nil =>
      cases hparts
      exact ⟨real, fuel, .present hdir, .link hlast hdir hsize hlink h⟩
    | cons first more =>
      obtain ⟨rfl, hrest⟩ := List.cons.inj hparts
      obtain ⟨spot, left, hspot, hname⟩ :=
        ih ((List.append_assoc _ _ _).trans (congrArg ((Path.mk target).components ++ ·) hrest))
      exact ⟨spot, left, .link (fun _ => rfl) hdir hsize hlink hspot, hname⟩
  | @down fuel real _ _ _ _ hdir hsize hentry hlink h ih =>
    cases parts with
    | nil =>
      cases hparts
      exact ⟨real, fuel, .present hdir, .down hdir hsize hentry hlink h⟩
    | cons first more =>
      obtain ⟨rfl, hrest⟩ := List.cons.inj hparts
      obtain ⟨spot, left, hspot, hname⟩ := ih hrest
      exact ⟨spot, left, .down hdir hsize hentry hlink hspot, hname⟩

/-- A name in a directory is there or not, unless it is a link. -/
theorem of_name {name : Text} (h : Leads tree last fuel real [.name name] place) :
    place = tree.placeAt (real ++ [name]) ∨
      ∃ target, tree.entry? (real ++ [name]) = some (.link target) := by
  cases h with
  | miss hdir hsize hnone => exact .inl (by rw [placeAt, hnone])
  | stop hlast hdir hsize hlink => exact .inr ⟨_, hlink⟩
  | link hlast hdir hsize hlink h => exact .inr ⟨_, hlink⟩
  | down hdir hsize hentry hlink h =>
    cases h
    exact .inl rfl

/-- A path that is followed to its end does not end at a link, if the places above its start are
directories and the start itself is no link. -/
theorem entry?_ne_link (h : Leads tree true fuel real parts place)
    (habove : ∀ above, above <+: real → above ≠ real → tree.entry? above = some .directory)
    (hreal : ∀ target, tree.entry? real ≠ some (.link target)) (target : Text) :
    tree.entry? place.real ≠ some (.link target) := by
  -- Each step keeps both: above the place it comes to are directories, and this is no link.
  induction h with
  | @arrive fuel real =>
    rw [(placeAt_spec tree real).1]
    exact hreal target
  | root hdir h ih =>
    refine ih (fun above hunder hne => absurd (List.prefix_nil.mp hunder) hne) fun target => ?_
    simp [entry?_nil]
  | here hdir h ih => exact ih habove hreal
  | @up fuel real rest place hdir h ih =>
    have hdrop : tree.entry? real.dropLast = some .directory := by
      by_cases hnil : real = []
      · rw [hnil]
        rfl
      · refine habove _ (List.dropLast_prefix real) fun heq => ?_
        have hlength := congrArg List.length heq
        rw [List.length_dropLast] at hlength
        have hpos := List.length_pos_of_ne_nil hnil
        omega
    refine ih (fun above hunder hne => ?_) fun target => by simp [hdrop]
    by_cases hself : above = real
    · rw [hself]
      exact hdir
    · exact habove above (hunder.trans (List.dropLast_prefix real)) hself
  | miss hdir hsize hnone => simp [Place.real, hnone]
  | stop hlast => cases hlast
  | link hlast hdir hsize hlink h ih => exact ih habove hreal
  | @down fuel real name entry rest place hdir hsize hentry hlink h ih =>
    refine ih (fun above hunder hne => ?_) fun target => ?_
    · rcases List.prefix_concat_iff.mp hunder with rfl | hunder
      · exact absurd rfl hne
      · by_cases hself : above = real
        · rw [hself]
          exact hdir
        · exact habove above hunder hself
    · rw [hentry]
      exact fun heq => hlink target (Option.some.inj heq)

/-- A directory that a path leads to is still there among more directories. -/
theorem extends_directory {made : FileTree}
    (h : Leads tree true fuel real parts (.present spot .directory)) (hmade : made.Extends tree) :
    Leads made true fuel real parts (.present spot .directory) := by
  generalize hplace : Place.present spot .directory = place at h
  induction h with
  | @arrive fuel real =>
    obtain ⟨hreal, hfound⟩ := placeAt_spec tree real
    rw [← hplace] at hreal hfound ⊢
    obtain rfl : spot = real := hreal
    exact .present (hmade.entry?_of_eq_some hfound.symm)
  | root hdir h ih => exact .root (hmade.entry?_of_eq_some hdir) (ih hplace)
  | here hdir h ih => exact .here (hmade.entry?_of_eq_some hdir) (ih hplace)
  | up hdir h ih => exact .up (hmade.entry?_of_eq_some hdir) (ih hplace)
  | miss hdir hsize hnone => cases hplace
  | stop hlast => cases hlast
  | link hlast hdir hsize hlink h ih =>
    exact .link hlast (hmade.entry?_of_eq_some hdir) hsize (hmade.entry?_of_eq_some hlink)
      (ih hplace)
  | down hdir hsize hentry hlink h ih =>
    exact .down (hmade.entry?_of_eq_some hdir) hsize (hmade.entry?_of_eq_some hentry) hlink
      (ih hplace)

/-- A path through a directory that was there before others were made takes as many steps as it took
then, so it led through the directory to the same name then. -/
theorem through_directory {made : FileTree} {name : Text}
    (h : Leads tree true fuel real parts (.present spot .directory)) (hmade : made.Extends tree)
    (hname : Leads made last fuel real (parts ++ [.name name]) place) :
    ∃ rest, Leads made last (rest + 1) spot [.name name] place ∧
      ∀ other, Leads tree last (rest + 1) spot [.name name] other →
        Leads tree last fuel real (parts ++ [.name name]) other := by
  generalize hplace : Place.present spot .directory = target at h
  -- Before the directory, each step finds among more directories what it found before.
  induction h generalizing place with
  | @arrive fuel real =>
    obtain ⟨hreal, -⟩ := placeAt_spec tree real
    rw [← hplace] at hreal
    obtain rfl : spot = real := hreal
    cases fuel with
    | zero => cases hname
    | succ rest => exact ⟨rest, hname, fun _ hother => hother⟩
  | root hdir h ih =>
    cases hname with
    | root _ hrest =>
      obtain ⟨rest, hleft, hback⟩ := ih hrest hplace
      exact ⟨rest, hleft, fun other hother => .root hdir (hback other hother)⟩
  | here hdir h ih =>
    cases hname with
    | here _ hrest =>
      obtain ⟨rest, hleft, hback⟩ := ih hrest hplace
      exact ⟨rest, hleft, fun other hother => .here hdir (hback other hother)⟩
  | up hdir h ih =>
    cases hname with
    | up _ hrest =>
      obtain ⟨rest, hleft, hback⟩ := ih hrest hplace
      exact ⟨rest, hleft, fun other hother => .up hdir (hback other hother)⟩
  | miss hdir hsize hnone => cases hplace
  | stop hlast => cases hlast
  | @link fuel real _ target more _ hlast hdir hsize hlink h ih =>
    have hlink' := hmade.entry?_of_eq_some hlink
    rw [List.cons_append] at hname
    generalize hmore : more ++ [.name name] = beyond at hname
    cases hname with
    | miss _ _ hnone => simp at hmore
    | stop _ _ _ _ => simp at hmore
    | link hlast' _ _ hfound hrest =>
      cases hlink'.symm.trans hfound
      rw [← hmore, ← List.append_assoc] at hrest
      obtain ⟨rest, hleft, hback⟩ := ih hrest hplace
      refine ⟨rest, hleft, fun other hother => .link (fun hnil => ?_) hdir hsize hlink ?_⟩
      · simp at hnil
      · have hrest' := hback other hother
        rwa [List.append_assoc] at hrest'
    | down _ _ hfound hother _ =>
      exact absurd (Option.some.inj (hfound.symm.trans hlink')) (hother _)
  | @down fuel real _ entry more _ hdir hsize hentry hlink h ih =>
    have hentry' := hmade.entry?_of_eq_some hentry
    rw [List.cons_append] at hname
    generalize hmore : more ++ [.name name] = beyond at hname
    cases hname with
    | miss _ _ hnone => simp at hmore
    | stop _ _ _ _ => simp at hmore
    | link _ _ _ hfound _ => exact absurd (Option.some.inj (hentry'.symm.trans hfound)) (hlink _)
    | down _ _ _ _ hrest =>
      rw [← hmore] at hrest
      obtain ⟨rest, hleft, hback⟩ := ih hrest hplace
      exact ⟨rest, hleft, fun other hother => .down hdir hsize hentry hlink (hback other hother)⟩

/-- A name that is followed is not too long. -/
theorem size_name_le {name : Text} (h : Leads tree last fuel real (.name name :: parts) place) :
    Text.size name ≤ nameLimit := by
  cases h <;> assumption

end Leads

/-! ## Writing -/

/-- Whether a file can be written at a real path: nothing is there, or a file. -/
def Writable (tree : FileTree) (spot : RealPath) : Prop :=
  ∀ entry, tree.entry? spot = some entry → ∃ old, entry = .file old

namespace Writable

/-- A file is not written at the root. -/
theorem ne_nil (h : tree.Writable spot) : spot ≠ [] := by
  rintro rfl
  obtain ⟨old, hold⟩ := h .directory rfl
  cases hold

/-- What is written is there. -/
theorem entry?_set_self (h : tree.Writable spot) (entry : Entry) :
    FileTree.entry? (tree.set spot entry) spot = some entry := by
  rw [FileTree.entry?_set h.ne_nil, if_pos rfl]

/-- The rest is as it was. -/
theorem entry?_set_of_ne (h : tree.Writable spot) (entry : Entry) (hreal : real ≠ spot) :
    FileTree.entry? (tree.set spot entry) real = tree.entry? real := by
  rw [FileTree.entry?_set h.ne_nil, if_neg hreal]

/-- What is no file is still there after a file is written. -/
theorem entry?_set (h : tree.Writable spot) {entry new : Entry}
    (hentry : tree.entry? real = some entry) (hfile : ∀ old, entry ≠ .file old) :
    FileTree.entry? (tree.set spot new) real = some entry := by
  rw [h.entry?_set_of_ne, hentry]
  rintro rfl
  obtain ⟨old, hold⟩ := h entry hentry
  exact hfile old hold

end Writable

/-- A path leads to the same real path after a file is written. -/
theorem Leads.write {last : Bool} (h : Leads tree last fuel real parts place)
    (hspot : tree.Writable spot) (content : Option Text) :
    Leads (tree.set spot (.file content)) last fuel real parts
      ((tree.set spot (.file content)).placeAt place.real) := by
  have hstay {real : RealPath} {entry : Entry} (hentry : tree.entry? real = some entry)
      (hfile : ∀ old, entry ≠ .file old) :
      FileTree.entry? (tree.set spot (.file content)) real = some entry :=
    hspot.entry?_set hentry hfile
  -- Only a step to the place that is written finds something else than before, which is a file.
  induction h with
  | @arrive fuel real =>
    rw [(placeAt_spec tree real).1]
    exact .arrive
  | root hdir h ih => exact .root (hstay hdir nofun) ih
  | here hdir h ih => exact .here (hstay hdir nofun) ih
  | up hdir h ih => exact .up (hstay hdir nofun) ih
  | @miss fuel real name hdir hsize hnone =>
    by_cases heq : real ++ [name] = spot
    · have hfile : FileTree.entry? (tree.set spot (.file content)) (real ++ [name]) =
          some (.file content) := by rw [heq, hspot.entry?_set_self]
      exact .down (hstay hdir nofun) hsize hfile nofun .arrive
    · have hnone' := (hspot.entry?_set_of_ne (.file content) heq).trans hnone
      rw [Place.real, placeAt, hnone']
      exact .miss (hstay hdir nofun) hsize hnone'
  | stop hlast hdir hsize hlink =>
    have hlink' := hstay hlink nofun
    rw [Place.real, placeAt, hlink']
    exact .stop hlast (hstay hdir nofun) hsize hlink'
  | link hlast hdir hsize hlink h ih =>
    exact .link hlast (hstay hdir nofun) hsize (hstay hlink nofun) ih
  | @down fuel real name entry rest place hdir hsize hentry hlink h ih =>
    by_cases heq : real ++ [name] = spot
    · have hfile : FileTree.entry? (tree.set spot (.file content)) (real ++ [name]) =
          some (.file content) := by rw [heq, hspot.entry?_set_self]
      exact .down (hstay hdir nofun) hsize hfile nofun ih
    · have hentry' := (hspot.entry?_set_of_ne (.file content) heq).trans hentry
      exact .down (hstay hdir nofun) hsize hentry' hlink ih

/-- Making a directory only adds it. -/
theorem extends_of_makeDirectory {path : Path} {made : FileTree}
    (h : tree.makeDirectory path = .ok made) : made.Extends tree := by
  unfold makeDirectory at h
  split at h
  · cases h
  · cases h
  · next real hfollow =>
    cases h
    exact .set (follow_eq_ok_iff.mp hfollow).entry?_eq

/-- Making directories only adds directories, also when it fails. -/
theorem extends_makeDirectories (tree : FileTree) (fuel : Nat) (path : Path) :
    (tree.makeDirectories fuel path).2.Extends tree := by
  induction fuel generalizing path with
  | zero => exact .refl tree
  | succ fuel ih =>
    unfold makeDirectories
    split
    · exact .refl tree
    · split
      · next made hmade => exact extends_of_makeDirectory hmade
      · split
        · exact .refl tree
        · next above _ =>
          have habove := ih above
          split
          · next heq => exact heq ▸ habove
          · next between heq =>
            rw [heq] at habove
            split
            · next made hmade => exact (extends_of_makeDirectory hmade).trans habove
            · exact habove
      · exact .refl tree

/-- A file is written at the place where its path leads. -/
theorem writeFile_cases (tree : FileTree) (path : Path) (content : Option Text) :
    (∃ error, tree.writeFile path content = (.error error, tree)) ∨
      ∃ place, Leads tree true stepLimit [] path.components place ∧ tree.Writable place.real ∧
        tree.writeFile path content = (.ok (), tree.set place.real (.file content)) := by
  unfold writeFile
  split
  · next error _ => exact .inl ⟨error, rfl⟩
  · exact .inl ⟨_, rfl⟩
  · next real entry hdir hplace =>
    have hleads := follow_eq_ok_iff.mp hplace
    refine .inr ⟨_, hleads, fun other hother => ?_, rfl⟩
    have hentry : entry = other := Option.some.inj (hleads.entry?_eq.symm.trans hother)
    subst hentry
    cases entry with
    | file old => exact ⟨old, rfl⟩
    | directory => exact absurd rfl hdir
    | link target =>
      refine absurd hother (hleads.entry?_ne_link (fun above hunder hne => ?_) (fun _ => ?_) _)
      · exact absurd (List.prefix_nil.mp hunder) hne
      · simp [entry?_nil]
  · next real hplace =>
    have hleads := follow_eq_ok_iff.mp hplace
    refine .inr ⟨_, hleads, fun other hother => ?_, rfl⟩
    exact absurd (hleads.entry?_eq.symm.trans hother) nofun

/-- A file that cannot be created changes no file; one that is created is written where its path
leads once directories have been made. -/
theorem create_cases (tree : FileTree) (path : Path) (content : Option Text) :
    (∃ error after, tree.create path content = (.error error, after) ∧ after.Extends tree) ∨
      ∃ made place, made.Extends tree ∧ Leads made true stepLimit [] path.components place ∧
        made.Writable place.real ∧
        tree.create path content = (.ok (), made.set place.real (.file content)) := by
  have hwrite (made : FileTree) (hmade : made.Extends tree) :
      (∃ error after, made.writeFile path content = (.error error, after) ∧ after.Extends tree) ∨
        ∃ between place, between.Extends tree ∧
          Leads between true stepLimit [] path.components place ∧ between.Writable place.real ∧
          made.writeFile path content = (.ok (), between.set place.real (.file content)) := by
    rcases made.writeFile_cases path content with ⟨error, h⟩ | ⟨place, hleads, hwritable, h⟩
    · exact .inl ⟨error, made, h, hmade⟩
    · exact .inr ⟨made, place, hmade, hleads, hwritable, h⟩
  unfold create
  split
  · exact hwrite tree (.refl tree)
  · next above _ =>
    have habove := tree.extends_makeDirectories (above.components.length + 1) above
    split
    · next error after heq =>
      rw [heq] at habove
      exact .inl ⟨error, after, rfl, habove⟩
    · next made heq =>
      rw [heq] at habove
      exact hwrite made habove

/-- The system reports a failure, or the tree that is left. -/
theorem fileSystem_create_cases {path : Path} {content : Text} {result : Except Text Unit}
    {after : FileTree} (h : FileSystem.create tree path content = (result, after)) :
    (∃ message, result = .error message ∧ after.Extends tree) ∨
      ∃ made place, result = .ok () ∧ made.Extends tree ∧
        Leads made true stepLimit [] path.components place ∧ made.Writable place.real ∧
        after = made.set place.real (.file (some content)) := by
  rcases tree.create_cases path (some content) with
    ⟨error, other, hcreate, hextends⟩ | ⟨made, place, hextends, hleads, hwritable, hcreate⟩
  · simp only [FileSystem.create, hcreate, Prod.mk.injEq] at h
    obtain ⟨rfl, rfl⟩ := h
    exact .inl ⟨_, rfl, hextends⟩
  · simp only [FileSystem.create, hcreate, Prod.mk.injEq] at h
    obtain ⟨rfl, rfl⟩ := h
    exact .inr ⟨made, place, rfl, hextends, hleads, hwritable, rfl⟩

/-- A file that cannot be created changes no file. -/
theorem content?_of_create_eq_error {path : Path} {content message : Text} {after : FileTree}
    (h : FileSystem.create tree path content = (.error message, after)) (real : RealPath) :
    after.content? real = tree.content? real := by
  rcases fileSystem_create_cases h with ⟨-, -, hextends⟩ | ⟨-, -, hresult, -⟩
  · exact hextends.content? real
  · cases hresult

/-- A file that is created in a tree is there afterwards. -/
theorem showsCreated (tree : FileTree) : FileSystem.ShowsCreated tree := by
  intro path content after h
  rcases fileSystem_create_cases h with
    ⟨_, hresult, -⟩ | ⟨made, place, -, -, hleads, hwritable, rfl⟩
  · cases hresult
  · have hentry := hwritable.entry?_set_self (.file (some content))
    have hwritten := hleads.write hwritable (some content)
    rw [placeAt, hentry] at hwritten
    simp only [FileSystem.isFile, FileTree.place, follow_eq_ok_iff.mpr hwritten]

/-- Where a file with a name in a directory has come to be written. -/
structure Lands (tree after : FileTree) (dir : Path) (name : Text) (spot real : RealPath) :
    Prop where
  /-- The directory is there. -/
  dir : after.place dir = .ok (.present spot .directory)
  /-- The file has its name in the directory, unless a link had this name. -/
  name : real = spot ++ [name] ∨ ∃ target, tree.entry? (spot ++ [name]) = some (.link target)
  /-- Nothing was at its place before, or a file. -/
  writable : tree.Writable real
  /-- The file is there. -/
  file : after.content? real ≠ none
  /-- The other files are as they were. -/
  others : ∀ other, other ≠ real → after.content? other = tree.content? other

/-- A file that is created with a name in a directory comes to be in it, or where a link leads. -/
theorem exists_lands_of_create {dir : Path} {name content : Text} {after : FileTree}
    (hname : (Component.name name).IsPiece)
    (h : FileSystem.create tree (dir.join ⟨name⟩) content = (.ok (), after)) :
    ∃ spot real, Lands tree after dir name spot real := by
  rcases fileSystem_create_cases h with
    ⟨_, hresult, -⟩ | ⟨made, place, -, hextends, hleads, hwritable, rfl⟩
  · cases hresult
  · rw [Path.components_join_name dir hname] at hleads
    obtain ⟨spot, rest, hdir, hlast⟩ := hleads.concat
    have hspot : made.entry? spot = some .directory := hdir.entry?_eq
    refine ⟨spot, place.real, ?_, ?_, fun entry hentry => ?_, ?_, fun other hother => ?_⟩
    · have hafter := hdir.write hwritable (some content)
      rw [Place.real, placeAt, hwritable.entry?_set hspot nofun] at hafter
      exact follow_eq_ok_iff.mpr hafter
    · refine hlast.of_name.imp (fun hself => ?_) fun ⟨target, hlink⟩ => ⟨target, ?_⟩
      · rw [hself, (placeAt_spec made _).1]
      · rw [← hlink, hextends.entry?_of_ne_directory]
        simp [hlink]
    · rcases hextends place.real with hsame | ⟨hnone, -⟩
      · exact hwritable entry (hsame.trans hentry)
      · rw [hnone] at hentry
        cases hentry
    · rw [content?_eq_some_iff.mpr (hwritable.entry?_set_self _)]
      exact nofun
    · rw [← hextends.content? other, content?, hwritable.entry?_set_of_ne _ hother]
      rfl

/-- In a directory that was there before, and has no link of this name, a file that is created takes
no other one's place: it was looked for where it is written. -/
theorem entry?_eq_none_of_create {dir : Path} {name content : Text} {after : FileTree}
    (hname : (Component.name name).IsPiece) (hdir : tree.place dir = .ok (.present spot .directory))
    (hlink : ∀ target, tree.entry? (spot ++ [name]) ≠ some (.link target))
    (habsent : FileSystem.isFile tree (dir.join ⟨name⟩) = false)
    (h : FileSystem.create tree (dir.join ⟨name⟩) content = (.ok (), after)) :
    after.place dir = .ok (.present spot .directory) ∧ tree.entry? (spot ++ [name]) = none := by
  rcases fileSystem_create_cases h with
    ⟨_, hresult, -⟩ | ⟨made, place, -, hextends, hleads, hwritable, rfl⟩
  · cases hresult
  · rw [Path.components_join_name dir hname] at hleads
    have hbefore := follow_eq_ok_iff.mp hdir
    have hspot : tree.entry? spot = some .directory := hbefore.entry?_eq
    obtain ⟨rest, hlast, hback⟩ := hbefore.through_directory hextends hleads
    refine ⟨?_, ?_⟩
    · have hafter := (hbefore.extends_directory hextends).write hwritable (some content)
      rw [Place.real, placeAt,
        hwritable.entry?_set (hextends.entry?_of_eq_some hspot) nofun] at hafter
      exact follow_eq_ok_iff.mpr hafter
    · cases hentry : tree.entry? (spot ++ [name]) with
      | none => rfl
      | some entry =>
        cases entry with
        | file old =>
          have hfound :=
            hback _ (.down hspot hlast.size_name_le hentry nofun (.present hentry))
          rw [← Path.components_join_name dir hname] at hfound
          simp [FileSystem.isFile, FileTree.place, follow_eq_ok_iff.mpr hfound] at habsent
        | directory =>
          have hmade := hextends.entry?_of_eq_some hentry
          rcases hlast.of_name with rfl | ⟨target, htarget⟩
          · rw [(placeAt_spec made _).1] at hwritable
            obtain ⟨old, hold⟩ := hwritable _ hmade
            cases hold
          · cases hmade.symm.trans htarget
        | link target => exact absurd hentry (hlink target)

end FileTree
end LinkedNotes
