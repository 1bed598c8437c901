import LinkedNotes.Text.Basic
import Mathlib.Data.List.Infix

/-!
# Replacing as filling gaps

Where a text occurs in another one, the other one has a gap that can be filled with something else.
Main statement: filling some of these gaps gives the same as replacing every occurrence exactly if
all occurrences are among the gaps, or nothing is changed. Texts whose first character comes back in
them, so that occurrences may overlap, are outside this module.
-/

namespace LinkedNotes.Text

/-! ## Occurrences -/

/-- Number of places where a text occurs in another one. -/
def occurrences (needle text : Text) : Nat :=
  text.tails.countP fun tail => needle.isPrefixOf tail

section Steps

variable {needle value rest : Text} {c : Char}

/-- A text may occur at the first character. -/
theorem occurrences_cons_of_pos (h : needle.isPrefixOf (c :: rest) = true) :
    occurrences needle (c :: rest) = occurrences needle rest + 1 := by
  rw [occurrences, List.tails_cons, List.countP_cons_of_pos h, occurrences]

/-- Else it occurs where it does in the rest. -/
theorem occurrences_cons_of_neg (h : needle.isPrefixOf (c :: rest) = false) :
    occurrences needle (c :: rest) = occurrences needle rest := by
  rw [occurrences, List.tails_cons, List.countP_cons_of_neg (by rw [h]; exact Bool.false_ne_true),
    occurrences]

/-- Passing over characters is replacing without them. -/
theorem replaceFrom_eq_drop (needle value : Text) (skip : Nat) (text : Text) :
    replaceFrom needle value skip text = replaceAll needle value (text.drop skip) := by
  induction text generalizing skip with
  | nil => cases skip <;> rfl
  | cons c rest ih =>
    cases skip with
    | zero => rfl
    | succ skip =>
      rw [replaceFrom, ih]
      rfl

/-- An occurrence at the first character is replaced. -/
theorem replaceAll_cons_of_pos (h : needle.isPrefixOf (c :: rest) = true) (value : Text) :
    replaceAll needle value (c :: rest) =
      value ++ replaceAll needle value (rest.drop (needle.length - 1)) := by
  rw [replaceAll, replaceFrom, if_pos h, replaceFrom_eq_drop]

/-- Else the first character stays. -/
theorem replaceAll_cons_of_neg (h : needle.isPrefixOf (c :: rest) = false) (value : Text) :
    replaceAll needle value (c :: rest) = c :: replaceAll needle value rest := by
  rw [replaceAll, replaceFrom, h, if_neg Bool.false_ne_true, replaceAll]

/-- What starts with a text is the text and what is left when it is passed over. -/
theorem eq_append_drop_of_isPrefixOf (hne : needle ≠ [])
    (h : needle.isPrefixOf (c :: rest) = true) :
    c :: rest = needle ++ rest.drop (needle.length - 1) := by
  cases needle with
  | nil => exact absurd rfl hne
  | cons first tail =>
    obtain ⟨more, hmore⟩ := List.isPrefixOf_iff_prefix.mp h
    rw [List.cons_append, List.cons.injEq] at hmore
    obtain ⟨rfl, rfl⟩ := hmore
    simp

end Steps

/-- Whether a text has its first character in no other place, so that no two occurrences of it
overlap. -/
def StartsOnce (needle : Text) : Prop :=
  ∃ first tail, needle = first :: tail ∧ first ∉ tail

namespace StartsOnce

variable {needle passed : Text}

/-- Such a text is not empty. -/
theorem ne_nil (h : StartsOnce needle) : needle ≠ [] := by
  obtain ⟨first, tail, rfl, -⟩ := h
  exact List.cons_ne_nil first tail

/-- It only occurs at its first character. -/
theorem isPrefixOf_eq_false (h : StartsOnce needle) {c : Char} (hc : needle.head? ≠ some c)
    (rest : Text) : needle.isPrefixOf (c :: rest) = false := by
  obtain ⟨first, tail, rfl, -⟩ := h
  have hne : first ≠ c := fun heq => hc (congrArg some heq)
  simp [List.isPrefixOf, hne]

/-- Its other characters are not the first one. -/
theorem head?_ne (h : StartsOnce needle) : ∀ c ∈ needle.tail, needle.head? ≠ some c := by
  obtain ⟨first, tail, rfl, hfirst⟩ := h
  intro c hc heq
  exact hfirst (Option.some.inj heq ▸ hc)

/-- There is no occurrence at other characters. -/
theorem occurrences_append (h : StartsOnce needle) (hpassed : ∀ c ∈ passed, needle.head? ≠ some c)
    (rest : Text) : occurrences needle (passed ++ rest) = occurrences needle rest := by
  induction passed with
  | nil => rfl
  | cons c passed ih =>
    obtain ⟨hc, hmore⟩ := List.forall_mem_cons.mp hpassed
    rw [List.cons_append, occurrences_cons_of_neg (h.isPrefixOf_eq_false hc _), ih hmore]

/-- Other characters stay. -/
theorem replaceAll_append (h : StartsOnce needle) (hpassed : ∀ c ∈ passed, needle.head? ≠ some c)
    (value rest : Text) :
    replaceAll needle value (passed ++ rest) = passed ++ replaceAll needle value rest := by
  induction passed with
  | nil => rfl
  | cons c passed ih =>
    obtain ⟨hc, hmore⟩ := List.forall_mem_cons.mp hpassed
    rw [List.cons_append, replaceAll_cons_of_neg (h.isPrefixOf_eq_false hc _), ih hmore,
      List.cons_append]

/-- In front of a text there is one occurrence more. -/
theorem occurrences_self_append (h : StartsOnce needle) (rest : Text) :
    occurrences needle (needle ++ rest) = occurrences needle rest + 1 := by
  have hpassed := h.head?_ne
  have hprefix : needle.isPrefixOf (needle ++ rest) = true :=
    List.isPrefixOf_iff_prefix.mpr (List.prefix_append needle rest)
  have hmore := h.occurrences_append hpassed rest
  obtain ⟨first, tail, rfl, -⟩ := h
  exact (occurrences_cons_of_pos hprefix).trans (congrArg (· + 1) hmore)

/-- It is replaced, and then the rest. -/
theorem replaceAll_self_append (h : StartsOnce needle) (value rest : Text) :
    replaceAll needle value (needle ++ rest) = value ++ replaceAll needle value rest := by
  have hprefix : needle.isPrefixOf (needle ++ rest) = true :=
    List.isPrefixOf_iff_prefix.mpr (List.prefix_append needle rest)
  obtain ⟨first, tail, rfl, -⟩ := h
  refine (replaceAll_cons_of_pos hprefix value).trans ?_
  simp

end StartsOnce

/-! ## Gaps -/

/-- A text with gaps. -/
abbrev Gapped := List (Option Char)

namespace Gapped

/-- The text with one value in all its gaps. -/
def fill (value : Text) (gapped : Gapped) : Text :=
  gapped.flatMap fun place => place.elim value fun c => [c]

variable {needle value : Text} {gapped : Gapped}

@[simp]
theorem fill_nil (value : Text) : fill value [] = [] :=
  rfl

@[simp]
theorem fill_none (value : Text) (gapped : Gapped) :
    fill value (none :: gapped) = value ++ fill value gapped :=
  rfl

@[simp]
theorem fill_some (value : Text) (c : Char) (gapped : Gapped) :
    fill value (some c :: gapped) = c :: fill value gapped :=
  rfl

/-- Without gaps there is nothing to fill. -/
theorem fill_map_some_append (value text : Text) (gapped : Gapped) :
    fill value (text.map some ++ gapped) = text ++ fill value gapped := by
  induction text with
  | nil => rfl
  | cons c text ih => rw [List.map_cons, List.cons_append, fill_some, ih, List.cons_append]

/-- Every gap counts with the length of what is filled in. -/
theorem length_fill (value : Text) (gapped : Gapped) :
    (fill value gapped).length =
      gapped.countP Option.isSome + gapped.count none * value.length := by
  induction gapped with
  | nil => simp
  | cons place gapped ih =>
    cases place with
    | none =>
      rw [fill_none, List.length_append, ih, List.count_cons_self,
        List.countP_cons_of_neg (by simp), Nat.succ_mul]
      omega
    | some c =>
      rw [fill_some, List.length_cons, ih, List.countP_cons_of_pos rfl,
        List.count_cons_of_ne (by simp)]
      omega

/-- What a text starts with has no gap in it, if it could not start there. -/
theorem exists_eq_map_some_append (h : StartsOnce needle) {passed rest : Text}
    (hpassed : ∀ c ∈ passed, needle.head? ≠ some c)
    (heq : fill needle gapped = passed ++ rest) :
    ∃ more, gapped = passed.map some ++ more ∧ fill needle more = rest := by
  induction passed generalizing gapped with
  | nil => exact ⟨gapped, rfl, heq⟩
  | cons c passed ih =>
    obtain ⟨hc, hmore⟩ := List.forall_mem_cons.mp hpassed
    match gapped with
    | [] => cases heq
    | none :: gapped =>
      obtain ⟨first, tail, rfl, -⟩ := h
      exact absurd (congrArg some (List.cons.inj heq).1) hc
    | some d :: gapped =>
      obtain ⟨rfl, hrest⟩ := List.cons.inj heq
      obtain ⟨more, rfl, hfill⟩ := ih hmore hrest
      exact ⟨more, rfl, hfill⟩

/-- An occurrence that starts with no gap has none in it. -/
theorem exists_eq_map_some_needle_append (h : StartsOnce needle) {c : Char} {rest : Text}
    (heq : fill needle (some c :: gapped) = needle ++ rest) :
    ∃ more, some c :: gapped = needle.map some ++ more ∧ fill needle more = rest := by
  have hstarts := h
  have hpassed := h.head?_ne
  obtain ⟨first, tail, rfl, -⟩ := h
  obtain ⟨rfl, hrest⟩ := List.cons.inj heq
  obtain ⟨more, rfl, hfill⟩ := exists_eq_map_some_append hstarts hpassed hrest
  exact ⟨more, rfl, hfill⟩

/-- A text that is put into gaps occurs there. -/
theorem count_le_occurrences (h : StartsOnce needle) (gapped : Gapped) :
    gapped.count none ≤ occurrences needle (fill needle gapped) := by
  induction gapped with
  | nil => exact Nat.zero_le _
  | cons place gapped ih =>
    cases place with
    | none =>
      rw [fill_none, h.occurrences_self_append, List.count_cons_self]
      exact Nat.succ_le_succ ih
    | some c =>
      rw [fill_some, List.count_cons_of_ne (by simp)]
      cases hc : needle.isPrefixOf (c :: fill needle gapped) with
      | true =>
        rw [occurrences_cons_of_pos hc]
        exact Nat.le_succ_of_le ih
      | false => rwa [occurrences_cons_of_neg hc]

/-- Replacing is filling the gaps that all occurrences leave. -/
theorem exists_fill_eq_replaceAll (h : StartsOnce needle) (text : Text) :
    ∃ gapped : Gapped, fill needle gapped = text ∧ gapped.count none = occurrences needle text ∧
      ∀ value, replaceAll needle value text = fill value gapped := by
  match text with
  | [] =>
    obtain ⟨first, tail, rfl, -⟩ := h
    exact ⟨[], rfl, rfl, fun _ => rfl⟩
  | c :: rest =>
    cases hc : needle.isPrefixOf (c :: rest) with
    | true =>
      have hsplit := eq_append_drop_of_isPrefixOf h.ne_nil hc
      obtain ⟨gapped, hfill, hcount, hreplace⟩ :=
        exists_fill_eq_replaceAll h (rest.drop (needle.length - 1))
      refine ⟨none :: gapped, ?_, ?_, fun value => ?_⟩
      · rw [fill_none, hfill, ← hsplit]
      · rw [List.count_cons_self, hcount, hsplit, h.occurrences_self_append]
      · rw [replaceAll_cons_of_pos hc, hreplace, fill_none]
    | false =>
      obtain ⟨gapped, hfill, hcount, hreplace⟩ := exists_fill_eq_replaceAll h rest
      refine ⟨some c :: gapped, ?_, ?_, fun value => ?_⟩
      · rw [fill_some, hfill]
      · rw [List.count_cons_of_ne (by simp), hcount, occurrences_cons_of_neg hc]
      · rw [replaceAll_cons_of_neg hc, hreplace, fill_some]
termination_by text.length
decreasing_by
  all_goals simp only [List.length_cons, List.length_drop]; omega

/-- Nothing changes when a text is replaced by itself. -/
theorem replaceAll_self (h : StartsOnce needle) (text : Text) :
    replaceAll needle needle text = text := by
  obtain ⟨gapped, hfill, -, hreplace⟩ := exists_fill_eq_replaceAll h text
  rw [hreplace, hfill]

/-- If an occurrence that is no gap can be replaced without a change, then by a text of the same
length, since each further occurrence would make the same difference. -/
theorem length_eq_of_append_eq (h : StartsOnce needle)
    (heq : value ++ replaceAll needle value (fill needle gapped) = needle ++ fill value gapped) :
    value.length = needle.length := by
  obtain ⟨all, hfill, hcount, hreplace⟩ := exists_fill_eq_replaceAll h (fill needle gapped)
  obtain ⟨further, hfurther⟩ := Nat.exists_eq_add_of_le (count_le_occurrences h gapped)
  have hlength := congrArg List.length hfill
  have hvalues := congrArg List.length heq
  rw [length_fill, length_fill, hcount, hfurther, Nat.add_mul] at hlength
  rw [hreplace, List.length_append, List.length_append, length_fill, length_fill, hcount, hfurther,
    Nat.add_mul] at hvalues
  refine Nat.eq_of_mul_eq_mul_left (Nat.succ_pos further) ?_
  rw [Nat.succ_mul, Nat.succ_mul]
  omega

/-- Replacing every occurrence gives what filling the gaps gives exactly if every occurrence is a
gap, or if nothing changes. -/
theorem replaceAll_fill_iff (h : StartsOnce needle) (value : Text) (gapped : Gapped) :
    replaceAll needle value (fill needle gapped) = fill value gapped ↔
      value = needle ∨ occurrences needle (fill needle gapped) = gapped.count none := by
  induction gapped with
  | nil =>
    obtain ⟨first, tail, rfl, -⟩ := h
    exact ⟨fun _ => .inr rfl, fun _ => rfl⟩
  | cons place gapped ih =>
    cases place with
    | none =>
      rw [fill_none, fill_none, h.replaceAll_self_append, List.append_cancel_left_eq, ih,
        h.occurrences_self_append, List.count_cons_self, Nat.add_right_cancel_iff]
    | some c =>
      have hcount : (some c :: gapped : Gapped).count none = gapped.count none :=
        List.count_cons_of_ne (by simp)
      rw [fill_some, fill_some, hcount]
      cases hc : needle.isPrefixOf (c :: fill needle gapped) with
      | false =>
        rw [replaceAll_cons_of_neg hc, List.cons_eq_cons, occurrences_cons_of_neg hc]
        exact (and_iff_right rfl).trans ih
      | true =>
        -- An occurrence that is no gap.
        have hmore := count_le_occurrences h gapped
        rw [occurrences_cons_of_pos hc]
        constructor
        · intro heq
          left
          obtain ⟨more, hgapped, -⟩ :=
            exists_eq_map_some_needle_append h (eq_append_drop_of_isPrefixOf h.ne_nil hc)
          rw [← fill_some, ← fill_some, hgapped, fill_map_some_append, fill_map_some_append,
            h.replaceAll_self_append] at heq
          exact (List.append_inj heq (length_eq_of_append_eq h heq)).1
        · rintro (rfl | heq)
          · exact replaceAll_self h _
          · omega

end Gapped
end LinkedNotes.Text
