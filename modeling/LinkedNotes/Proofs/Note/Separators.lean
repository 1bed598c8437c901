import LinkedNotes.Proofs.Note.Normal

/-!
# Separators of names

The separators of a name are dropped from its lower case, but a capital sigma has looked at them
before: it takes another form at the end of a word. Main statement: two names without an extension
that are equal without their separators name the same note exactly if each capital sigma ends a word
in both or in neither. Names with an extension are outside this module.
-/

namespace LinkedNotes.Note

open Text

/-- A name without its separators. -/
def withoutSeparators (name : Text) : Text :=
  name.filter (!isSeparator ·)

/-- Whether a capital sigma between two texts ends a word: there is a cased character before it and
none behind it, past those that case ignores. -/
def endsWord (before after : Text) : Bool :=
  meetsCased before.reverse && !meetsCased after

/-! ## One character -/

/-- What a character leaves in a normal form. -/
def kept (final : Bool) (c : Char) : Text :=
  withoutSeparators (if c = 'Σ' then [if final then 'ς' else 'σ'] else lowerChar c)

/-- A separator is its own lower case wherever it stands. -/
theorem isLower_of_isSeparator {c : Char} (h : isSeparator c = true) : IsLower c := by
  simp only [isSeparator, Bool.or_eq_true, beq_iff_eq] at h
  rcases h with ((h | rfl) | rfl) | rfl
  · exact isLower_of_isBlank h
  · decide +kernel
  · decide +kernel
  · decide +kernel

/-- A separator leaves nothing. -/
theorem kept_of_isSeparator {c : Char} (h : isSeparator c = true) (final : Bool) :
    kept final c = [] := by
  have hlower := isLower_of_isSeparator h
  rw [kept, if_neg hlower.ne_sigma, hlower.lowerChar_eq]
  simp [withoutSeparators, h]

/-- A sigma leaves one of its two small forms. -/
theorem kept_sigma (final : Bool) : kept final 'Σ' = [if final then 'ς' else 'σ'] := by
  cases final <;> decide

/-- How many characters are left does not depend on the end of a word. -/
theorem length_kept (final : Bool) (c : Char) : (kept final c).length = keptLength c := by
  by_cases hc : c = 'Σ'
  · rw [hc, kept_sigma, keptLength, if_pos rfl]
    rfl
  · rw [kept, keptLength, if_neg hc, if_neg hc]
    rfl

/-- Only for a sigma it matters whether it ends a word. -/
theorem kept_eq_iff {final final' : Bool} {c : Char} :
    kept final c = kept final' c ↔ (c = 'Σ' → final = final') := by
  by_cases hc : c = 'Σ'
  · rw [hc, kept_sigma, kept_sigma]
    revert final final'
    decide
  · rw [kept, kept, if_neg hc, if_neg hc]
    exact iff_of_true rfl fun h => absurd h hc

/-! ## A text behind another one -/

/-- What a text leaves in a normal form when it follows another one. -/
def keptAfter (before text : Text) : Text :=
  withoutSeparators (lowerAfter before.reverse text)

/-- A character leaves what it does between its neighbours. -/
theorem keptAfter_cons (before : Text) (c : Char) (rest : Text) :
    keptAfter before (c :: rest) =
      kept (endsWord before rest) c ++ keptAfter (before ++ [c]) rest := by
  have hreverse : (before ++ [c]).reverse = c :: before.reverse := by simp
  rw [keptAfter, lowerAfter, withoutSeparators, List.filter_append, keptAfter, hreverse]
  rfl

/-- Separators leave nothing. -/
theorem keptAfter_gap {gap : Text} (h : ∀ c ∈ gap, isSeparator c = true) (before rest : Text) :
    keptAfter before (gap ++ rest) = keptAfter (before ++ gap) rest := by
  induction gap generalizing before with
  | nil => rw [List.nil_append, List.append_nil]
  | cons c gap ih =>
    obtain ⟨hc, hmore⟩ := List.forall_mem_cons.mp h
    rw [List.cons_append, keptAfter_cons, kept_of_isSeparator hc, List.nil_append, ih hmore,
      List.append_assoc, List.singleton_append]

/-- Whether each capital sigma of two texts with the same characters but separators, each behind
another text, ends a word in both or in neither. -/
def SameEnds (before left before' right : Text) : Prop :=
  ∀ s t s' t', left = s ++ 'Σ' :: t → right = s' ++ 'Σ' :: t' →
    withoutSeparators s = withoutSeparators s' →
      endsWord (before ++ s) t = endsWord (before' ++ s') t'

variable {before left before' right gap gap' : Text} {c : Char}

/-- A sigma is no separator. -/
theorem sigma_notMem_of_isSeparator (h : ∀ c ∈ gap, isSeparator c = true) : 'Σ' ∉ gap :=
  fun hmem => absurd (h 'Σ' hmem) (by decide)

/-- A sigma behind separators is the first other character or comes after it. -/
theorem eq_or_exists_of_append_eq (h : ∀ c ∈ gap, isSeparator c = true) {s t : Text}
    (heq : gap ++ c :: left = s ++ 'Σ' :: t) :
    s = gap ∧ c = 'Σ' ∧ t = left ∨ ∃ more, s = gap ++ c :: more ∧ left = more ++ 'Σ' :: t := by
  rcases List.append_eq_append_iff.mp heq with ⟨more, rfl, hrest⟩ | ⟨more, rfl, hrest⟩
  · cases more with
    | nil =>
      obtain ⟨rfl, rfl⟩ := List.cons.inj hrest
      exact .inl ⟨List.append_nil gap, rfl, rfl⟩
    | cons d more =>
      obtain ⟨rfl, rfl⟩ := List.cons.inj hrest
      exact .inr ⟨more, rfl, rfl⟩
  · cases more with
    | nil =>
      obtain ⟨rfl, rfl⟩ := List.cons.inj hrest
      exact .inl ⟨(List.append_nil s).symm, rfl, rfl⟩
    | cons d more =>
      obtain ⟨rfl, -⟩ := List.cons.inj hrest
      exact absurd (List.mem_append_right s List.mem_cons_self) (sigma_notMem_of_isSeparator h)

/-- Separators vanish. -/
theorem withoutSeparators_gap_append (h : ∀ c ∈ gap, isSeparator c = true) (rest : Text) :
    withoutSeparators (gap ++ rest) = withoutSeparators rest := by
  have hgap : gap.filter (!isSeparator ·) = [] :=
    List.filter_eq_nil_iff.mpr fun c hc => by simp [h c hc]
  rw [withoutSeparators, List.filter_append, hgap, List.nil_append, withoutSeparators]

/-- Another character stays. -/
theorem withoutSeparators_cons (h : isSeparator c = false) (rest : Text) :
    withoutSeparators (c :: rest) = c :: withoutSeparators rest :=
  List.filter_cons_of_pos (by rw [h, Bool.not_false])

/-- The ends of words agree if they do at the first character that is no separator and behind it. -/
theorem sameEnds_gap_cons_iff (hgap : ∀ c ∈ gap, isSeparator c = true)
    (hgap' : ∀ c ∈ gap', isSeparator c = true) (hc : isSeparator c = false) :
    SameEnds before (gap ++ c :: left) before' (gap' ++ c :: right) ↔
      (c = 'Σ' → endsWord (before ++ gap) left = endsWord (before' ++ gap') right) ∧
        SameEnds (before ++ gap ++ [c]) left (before' ++ gap' ++ [c]) right := by
  have hshift : ∀ before gap more : Text,
      before ++ gap ++ [c] ++ more = before ++ (gap ++ c :: more) := by simp
  have hcons : ∀ {gap : Text}, (∀ c ∈ gap, isSeparator c = true) → ∀ more,
      withoutSeparators (gap ++ c :: more) = c :: withoutSeparators more := fun h more => by
    rw [withoutSeparators_gap_append h, withoutSeparators_cons hc]
  have hnil : ∀ {gap : Text}, (∀ c ∈ gap, isSeparator c = true) → withoutSeparators gap = [] :=
    fun h => by simpa [withoutSeparators] using withoutSeparators_gap_append h []
  constructor
  · intro h
    refine ⟨?_, fun s t s' t' hleft hright heq => ?_⟩
    · rintro rfl
      exact h gap left gap' right rfl rfl (by rw [hnil hgap, hnil hgap'])
    · rw [hshift, hshift]
      refine h _ t _ t' ?_ ?_ (by rw [hcons hgap, hcons hgap', heq])
      · rw [hleft, List.append_assoc, List.cons_append]
      · rw [hright, List.append_assoc, List.cons_append]
  · rintro ⟨hfirst, hmore⟩ s t s' t' hleft hright heq
    -- Both sigmas are the first character, or both come after it.
    rcases eq_or_exists_of_append_eq hgap hleft with ⟨rfl, hsigma, rfl⟩ | ⟨more, rfl, hrest⟩ <;>
      rcases eq_or_exists_of_append_eq hgap' hright with ⟨rfl, -, rfl⟩ | ⟨more', rfl, hrest'⟩
    · exact hfirst hsigma
    · rw [hnil hgap, hcons hgap'] at heq
      cases heq
    · rw [hnil hgap', hcons hgap] at heq
      cases heq
    · rw [hcons hgap, hcons hgap'] at heq
      have hends := hmore more t more' t' hrest hrest' (List.cons.inj heq).2
      rwa [hshift, hshift] at hends

/-- Texts with the same characters but separators leave the same exactly if the ends of their words
agree at each sigma. -/
theorem keptAfter_eq_iff (h : withoutSeparators left = withoutSeparators right) :
    keptAfter before left = keptAfter before' right ↔ SameEnds before left before' right := by
  induction hkept : withoutSeparators left generalizing before left before' right with
  | nil =>
    have hall : ∀ {text : Text}, withoutSeparators text = [] → ∀ c ∈ text, isSeparator c = true :=
      fun hnil c hc => by simpa using List.filter_eq_nil_iff.mp hnil c hc
    have hnone : ∀ before {text : Text}, withoutSeparators text = [] →
        keptAfter before text = [] := fun before text hnil => by
      have hgap := keptAfter_gap (hall hnil) before []
      rw [List.append_nil] at hgap
      rw [hgap]
      rfl
    refine iff_of_true ?_ fun s t s' t' hleft _ _ => ?_
    · rw [hnone before hkept, hnone before' (h.symm.trans hkept)]
    · refine absurd ?_ (sigma_notMem_of_isSeparator (hall hkept))
      rw [hleft]
      exact List.mem_append_right s List.mem_cons_self
  | cons c more ih =>
    obtain ⟨gap, left, rfl, hgap, hc, hleft⟩ := List.filter_eq_cons_iff.mp hkept
    obtain ⟨gap', right, rfl, hgap', -, hright⟩ := List.filter_eq_cons_iff.mp (h.symm.trans hkept)
    have hseparators : ∀ {gap : Text}, (∀ d ∈ gap, ¬(!isSeparator d) = true) →
        ∀ d ∈ gap, isSeparator d = true := fun h d hd => by simpa using h d hd
    have hc : isSeparator c = false := by simpa using hc
    rw [keptAfter_gap (hseparators hgap), keptAfter_gap (hseparators hgap'), keptAfter_cons,
      keptAfter_cons, sameEnds_gap_cons_iff (hseparators hgap) (hseparators hgap') hc,
      ← ih (hleft.trans hright.symm) hleft, ← kept_eq_iff]
    have hlength : ∀ final final', (kept final c).length = (kept final' c).length :=
      fun _ _ => (length_kept _ c).trans (length_kept _ c).symm
    constructor
    · exact fun heq => List.append_inj heq (hlength _ _)
    · exact fun ⟨hone, hmore⟩ => by rw [hone, hmore]

/-- Two names without an extension that are equal without their separators name the same note
exactly if every capital sigma ends a word in both names or in neither. -/
theorem namesMatch_iff_endsWord {left right : Text} (hleft : stripExtension left = left)
    (hright : stripExtension right = right)
    (h : withoutSeparators left = withoutSeparators right) :
    namesMatch left right = true ↔
      ∀ s t s' t', left = s ++ 'Σ' :: t → right = s' ++ 'Σ' :: t' →
        withoutSeparators s = withoutSeparators s' → endsWord s t = endsWord s' t' := by
  rw [namesMatch, beq_iff_eq, normalize, normalize, hleft, hright]
  have hkept : keptAfter [] left = keptAfter [] right ↔ SameEnds [] left [] right :=
    keptAfter_eq_iff h
  exact hkept

/-- A hyphen behind a sigma ends a word as a blank does. -/
theorem namesMatch_iff_endsWord_two_words :
    let left := "ΛΌΓΟΣ ΟΔΌΣ".toList
    let right := "ΛΌΓΟΣ-_ΟΔΌΣ.".toList
    stripExtension left = left ∧ stripExtension right = right ∧
      withoutSeparators left = withoutSeparators right ∧
      namesMatch left right = true ∧
      ∀ s t s' t', left = s ++ 'Σ' :: t → right = s' ++ 'Σ' :: t' →
        withoutSeparators s = withoutSeparators s' → endsWord s t = endsWord s' t' := by
  intro left right
  have hleft : stripExtension left = left := by decide
  have hright : stripExtension right = right := by decide
  have h : withoutSeparators left = withoutSeparators right := by decide +kernel
  have hmatch : namesMatch left right = true := by decide +kernel
  exact ⟨hleft, hright, h, hmatch, (namesMatch_iff_endsWord hleft hright h).mp hmatch⟩

/-- A blank decides whether two names with a sigma name the same note. -/
theorem not_namesMatch_of_blank :
    let left := "ΟΔΟΣ Α".toList
    let right := "ΟΔΟΣΑ".toList
    stripExtension left = left ∧ stripExtension right = right ∧
      withoutSeparators left = withoutSeparators right ∧
      namesMatch left right = false := by
  decide +kernel

end LinkedNotes.Note
