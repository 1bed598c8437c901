import LinkedNotes.Note.Template
import LinkedNotes.Proofs.Text.Gaps

/-!
# Filling in a template at once

A template has places for the name of a note and for a time stamp. Both values could be filled in at
once, so that neither is read as a part of the template; instead the stamp is filled in where the
text has its placeholder after the name has been filled in. Main statement: both give the same
exactly if the name brings no placeholder of a stamp, neither inside nor across its ends, or if the
stamp is this placeholder.
-/

namespace LinkedNotes.Template

open Text

/-- A part of a template. -/
inductive Part where
  /-- The place of the name. -/
  | name
  /-- The place of the time stamp. -/
  | stamp
  /-- Any other character. -/
  | char (c : Char)
  deriving DecidableEq

namespace Part

/-- What a part becomes. -/
def fill (name stamp : Text) : Part → Text
  | .name => name
  | .stamp => stamp
  | .char c => [c]

/-- What a part becomes when the place of the time stamp is left open. -/
def gapped (name : Text) : Part → Gapped
  | .name => name.map some
  | .stamp => [none]
  | .char c => [some c]

end Part

/-- The parts of a template, after passing over `skip` characters of a placeholder. -/
def partsFrom : Nat → Text → List Part
  | _, [] => []
  | skip + 1, _ :: rest => partsFrom skip rest
  | 0, c :: rest =>
    if namePlaceholder.isPrefixOf (c :: rest) then
      .name :: partsFrom (namePlaceholder.length - 1) rest
    else if stampPlaceholder.isPrefixOf (c :: rest) then
      .stamp :: partsFrom (stampPlaceholder.length - 1) rest
    else .char c :: partsFrom 0 rest

/-- The parts of a template from left to right. -/
def parts (template : Text) : List Part :=
  partsFrom 0 template

/-- A template with both values filled in at once: what is filled in is not read again. -/
def substitute (template name stamp : Text) : Text :=
  (parts template).flatMap (Part.fill name stamp)

/-! ## The two placeholders -/

/-- The placeholder of a name starts with its only dollar sign. -/
theorem startsOnce_namePlaceholder : StartsOnce namePlaceholder :=
  ⟨_, _, rfl, by decide⟩

/-- The placeholder of a stamp starts with its only dollar sign. -/
theorem startsOnce_stampPlaceholder : StartsOnce stampPlaceholder :=
  ⟨_, _, rfl, by decide⟩

/-- In the placeholder of a stamp there is no name to fill in. -/
theorem replaceAll_stampPlaceholder_append (name rest : Text) :
    replaceAll namePlaceholder name (stampPlaceholder ++ rest) =
      stampPlaceholder ++ replaceAll namePlaceholder name rest := by
  have hfirst : namePlaceholder.isPrefixOf (stampPlaceholder ++ rest) = false := rfl
  have hother : ∀ c ∈ stampPlaceholder.tail, namePlaceholder.head? ≠ some c :=
    startsOnce_stampPlaceholder.head?_ne
  have hmore := startsOnce_namePlaceholder.replaceAll_append hother name rest
  exact (replaceAll_cons_of_neg hfirst name).trans (congrArg ('$' :: ·) hmore)

/-- The placeholder of a name is no place of a stamp. -/
theorem occurrences_namePlaceholder_append (rest : Text) :
    occurrences stampPlaceholder (namePlaceholder ++ rest) = occurrences stampPlaceholder rest := by
  have hfirst : stampPlaceholder.isPrefixOf (namePlaceholder ++ rest) = false := rfl
  have hother : ∀ c ∈ namePlaceholder.tail, stampPlaceholder.head? ≠ some c :=
    startsOnce_namePlaceholder.head?_ne
  have hmore := startsOnce_stampPlaceholder.occurrences_append hother rest
  exact (occurrences_cons_of_neg hfirst).trans hmore

/-! ## The parts of a template -/

/-- Filling in the name goes by the parts of the template. -/
theorem replaceAll_drop_eq_flatMap (name : Text) (skip : Nat) (template : Text) :
    replaceAll namePlaceholder name (template.drop skip) =
      (partsFrom skip template).flatMap (Part.fill name stampPlaceholder) := by
  fun_induction partsFrom skip template with
  | case1 skip =>
    rw [List.drop_nil]
    rfl
  | case2 skip c rest ih => exact ih
  | case3 c rest hname ih =>
    rw [List.drop_zero, replaceAll_cons_of_pos hname, ih, List.flatMap_cons, Part.fill]
  | case4 c rest hname hstamp ih =>
    have hsplit := eq_append_drop_of_isPrefixOf startsOnce_stampPlaceholder.ne_nil hstamp
    rw [List.drop_zero, hsplit, replaceAll_stampPlaceholder_append, ih, List.flatMap_cons,
      Part.fill]
  | case5 c rest hname hstamp ih =>
    rw [List.drop_zero] at ih
    rw [List.drop_zero, replaceAll_cons_of_neg (Bool.eq_false_iff.mpr hname), ih,
      List.flatMap_cons, Part.fill, List.singleton_append]

/-- Filling in the name leaves the placeholders of a stamp that stand in the template. -/
theorem replaceAll_namePlaceholder (template name : Text) :
    replaceAll namePlaceholder name template = substitute template name stampPlaceholder :=
  replaceAll_drop_eq_flatMap name 0 template

/-- Every placeholder of a stamp is a part of the template. -/
theorem occurrences_drop_eq_count (skip : Nat) (template : Text) :
    occurrences stampPlaceholder (template.drop skip) = (partsFrom skip template).count .stamp := by
  fun_induction partsFrom skip template with
  | case1 skip =>
    rw [List.drop_nil]
    rfl
  | case2 skip c rest ih => exact ih
  | case3 c rest hname ih =>
    have hsplit := eq_append_drop_of_isPrefixOf startsOnce_namePlaceholder.ne_nil hname
    rw [List.drop_zero, hsplit, occurrences_namePlaceholder_append, ih,
      List.count_cons_of_ne Part.noConfusion]
  | case4 c rest hname hstamp ih =>
    have hsplit := eq_append_drop_of_isPrefixOf startsOnce_stampPlaceholder.ne_nil hstamp
    rw [List.drop_zero, hsplit, startsOnce_stampPlaceholder.occurrences_self_append, ih,
      List.count_cons_self]
  | case5 c rest hname hstamp ih =>
    rw [List.drop_zero] at ih
    rw [List.drop_zero, occurrences_cons_of_neg (Bool.eq_false_iff.mpr hstamp), ih,
      List.count_cons_of_ne Part.noConfusion]

/-- A template has as many parts for a stamp as it has placeholders of a stamp. -/
theorem occurrences_stampPlaceholder (template : Text) :
    occurrences stampPlaceholder template = (parts template).count .stamp :=
  occurrences_drop_eq_count 0 template

/-- A template with a name has a gap at each place of a stamp. -/
def gappedWith (template name : Text) : Gapped :=
  (parts template).flatMap (Part.gapped name)

/-- Filling in both values is filling these gaps. -/
theorem substitute_eq_fill (template name stamp : Text) :
    substitute template name stamp = (gappedWith template name).fill stamp := by
  rw [substitute, gappedWith, Gapped.fill, List.flatMap_assoc]
  refine List.flatMap_congr fun part _ => ?_
  cases part with
  | name =>
    have hfill := Gapped.fill_map_some_append stamp name []
    rw [Gapped.fill_nil, List.append_nil, List.append_nil] at hfill
    exact hfill.symm
  | stamp => exact (List.append_nil stamp).symm
  | char c => rfl

/-- The gaps are the placeholders of a stamp in the template. -/
theorem count_gappedWith (template name : Text) :
    (gappedWith template name).count none = occurrences stampPlaceholder template := by
  rw [occurrences_stampPlaceholder, gappedWith]
  induction parts template with
  | nil => rfl
  | cons part parts ih =>
    rw [List.flatMap_cons, List.count_append, ih]
    cases part with
    | name => simp [Part.gapped, List.count_eq_zero]
    | stamp => simp [Part.gapped, Nat.add_comm]
    | char c => simp [Part.gapped]

/-- A template is filled in with both values at once exactly if the stamp is its own placeholder, or
if the template has no more placeholders of a stamp once its name is filled in than before. -/
theorem render_eq_substitute_iff (template name stamp : Text) :
    render template name stamp = substitute template name stamp ↔
      stamp = stampPlaceholder ∨
        occurrences stampPlaceholder (replaceAll namePlaceholder name template) =
          occurrences stampPlaceholder template := by
  rw [render, replaceAll_namePlaceholder, substitute_eq_fill, substitute_eq_fill,
    Gapped.replaceAll_fill_iff startsOnce_stampPlaceholder, count_gappedWith]

/-- A name that is the placeholder of a stamp, or that completes one with the template around it, is
replaced by the stamp. -/
theorem render_ne_substitute :
    let stamp := "now".toList
    (render namePlaceholder stampPlaceholder stamp = stamp ∧
      substitute namePlaceholder stampPlaceholder stamp = stampPlaceholder) ∧
    (render ("$\x7btime".toList ++ namePlaceholder) "stamp\x7d".toList stamp = stamp ∧
      substitute ("$\x7btime".toList ++ namePlaceholder) "stamp\x7d".toList stamp =
        stampPlaceholder) ∧
    stamp ≠ stampPlaceholder := by
  decide

end LinkedNotes.Template
