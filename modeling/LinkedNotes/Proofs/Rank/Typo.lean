import LinkedNotes.Proofs.Rank.Automaton
import LinkedNotes.Proofs.Text.Distance
import LinkedNotes.Rank.Typo

/-!
# The automaton of a query

The rows that the automaton of a query goes through are the rows of the table of edit distances.
Main statement: the automaton of a query of ASCII characters decides which texts are within the
number of errors. For other queries it may miss some of them, as several characters of the query
can begin with the same octet.
-/

namespace LinkedNotes.Typo.Pattern

open Text Automaton

variable {pattern : Pattern}

/-! ## Rows of distances -/

/-- The distances of a text to a start of a query and to the longer starts of it. -/
def distancesFrom (text start : Text) : Text → List Nat
  | [] => [distance text start]
  | c :: query => distance text start :: distancesFrom text (start ++ [c]) query

/-- Whether two numbers are equal as far as a limit can tell. -/
def SameUpTo (limit a b : Nat) : Prop :=
  min a (limit + 1) = min b (limit + 1)

/-- Adding to equal numbers keeps them equal up to the limit. -/
theorem SameUpTo.add {limit a b : Nat} (h : SameUpTo limit a b) (n : Nat) :
    SameUpTo limit (a + n) (b + n) := by
  unfold SameUpTo at h ⊢
  omega

/-- The lesser of two numbers is found among equal ones. -/
theorem SameUpTo.min {limit a b c d : Nat} (h : SameUpTo limit a b) (h' : SameUpTo limit c d) :
    SameUpTo limit (min a c) (min b d) := by
  unfold SameUpTo at h h' ⊢
  omega

/-- A number may be cut off just above the limit. -/
theorem SameUpTo.capped {limit a b : Nat} (h : SameUpTo limit a b) :
    SameUpTo limit (Min.min a (limit + 1)) b := by
  unfold SameUpTo at h ⊢
  omega

/-- Equal numbers are within the limit alike. -/
theorem SameUpTo.decide_le_eq {limit a b : Nat} (h : SameUpTo limit a b) :
    decide (a ≤ limit) = decide (b ≤ limit) := by
  unfold SameUpTo at h
  exact decide_eq_decide.mpr (by omega)

/-- Whether a row holds the distances of a text to the starts of the query. -/
def Holds (pattern : Pattern) (row : Row) (text : Text) : Prop :=
  List.Forall₂ (SameUpTo pattern.limit) row (distancesFrom text [] pattern.query)

/-- The distances of the empty text are the lengths of the starts. -/
theorem distancesFrom_nil (start query : Text) :
    distancesFrom [] start query = (List.range (query.length + 1)).map (start.length + ·) := by
  induction query generalizing start with
  | nil => simp [distancesFrom]
  | cons c query ih =>
    rw [distancesFrom, ih, List.length_cons, List.range_succ_eq_map (n := query.length + 1)]
    simp [Function.comp_def, Nat.add_comm, Nat.add_left_comm]

/-- The first row holds the distances of the empty text. -/
theorem holds_start : pattern.Holds pattern.start [] := by
  have hrow : pattern.start = distancesFrom [] [] pattern.query := by
    rw [distancesFrom_nil]
    simp [start]
  rw [Holds, hrow]
  exact List.forall₂_same.mpr fun _ _ => rfl

/-- The rest of a row is computed as the distances are. -/
theorem forall₂_nextAfter {text start query : Text} {c : Char} {left : Nat} {row : Row}
    (hleft : SameUpTo pattern.limit left (distance (text ++ [c]) start))
    (hrow : List.Forall₂ (SameUpTo pattern.limit) row (distancesFrom text start query)) :
    List.Forall₂ (SameUpTo pattern.limit) (left :: pattern.nextAfter (some c) left row query)
      (distancesFrom (text ++ [c]) start query) := by
  induction query generalizing start left row with
  | nil =>
    rw [nextAfter]
    · exact .cons hleft .nil
    · rintro _ _ _ _ _ - ⟨⟩
  | cons d query ih =>
    rw [distancesFrom] at hrow ⊢
    obtain ⟨above, rest, habove, hrest, rfl⟩ := List.forall₂_cons_right_iff.mp hrow
    refine .cons hleft ?_
    -- The entry beside is the first of the distances to the longer starts.
    obtain ⟨beside, more, rfl⟩ : ∃ beside more, rest = beside :: more := by
      cases query <;> cases hrest <;> exact ⟨_, _, rfl⟩
    have hbeside : SameUpTo pattern.limit beside (distance text (start ++ [d])) := by
      cases query <;> cases hrest <;> assumption
    rw [nextAfter]
    refine ih ?_ hrest
    rw [distance_append_singleton, min_comm (distance text (start ++ [d]) + 1)]
    simp only [Option.some.injEq]
    exact (((hleft.add 1).min (hbeside.add 1)).min (habove.add _)).capped

/-- Reading a character keeps the rows right. -/
theorem Holds.next {row : Row} {text : Text} (h : pattern.Holds row text) (c : Char) :
    pattern.Holds (pattern.next row (some c)) (text ++ [c]) := by
  refine forall₂_nextAfter ?_ h
  -- Nothing of the query is nearest when all that was read is deleted.
  unfold Holds at h
  have hhead : SameUpTo pattern.limit (row.headD 0) text.length := by
    cases hquery : pattern.query with
    | nil =>
      rw [hquery] at h
      cases h with
      | cons hfirst => simpa using hfirst
    | cons d query =>
      rw [hquery] at h
      cases h with
      | cons hfirst => simpa using hfirst
  rw [distance_nil_right, List.length_append, List.length_singleton]
  exact hhead.add 1

/-- The last of the distances is that to the whole query. -/
theorem getLast?_distancesFrom (text start query : Text) :
    (distancesFrom text start query).getLast? = some (distance text (start ++ query)) := by
  induction query generalizing start with
  | nil => simp [distancesFrom]
  | cons c query ih =>
    have hne : distancesFrom text (start ++ [c]) query ≠ [] := by
      cases query <;> simp [distancesFrom]
    rw [distancesFrom, List.getLast?_cons_of_ne_nil hne, ih]
    simp

/-- The distances are those to all longer starts. -/
theorem mem_distancesFrom {n : Nat} {text start query : Text} :
    n ∈ distancesFrom text start query ↔
      ∃ part, part <+: query ∧ distance text (start ++ part) = n := by
  induction query generalizing start with
  | nil => simp [distancesFrom, eq_comm]
  | cons c query ih =>
    rw [distancesFrom, List.mem_cons, ih]
    constructor
    · rintro (rfl | ⟨part, hpart, rfl⟩)
      · exact ⟨[], List.nil_prefix, by simp⟩
      · exact ⟨c :: part, List.cons_prefix_cons.mpr ⟨rfl, hpart⟩, by simp⟩
    · rintro ⟨part, hpart, rfl⟩
      cases part with
      | nil => exact .inl (by simp)
      | cons d part =>
        obtain ⟨rfl, hshort⟩ := List.cons_prefix_cons.mp hpart
        exact .inr ⟨part, hshort, by simp⟩

/-- Rows that are the same up to a limit end alike. -/
theorem getLast?_of_forall₂ {limit : Nat} {row other : List Nat}
    (h : List.Forall₂ (SameUpTo limit) row other) :
    row.getLast?.any (· ≤ limit) = other.getLast?.any (· ≤ limit) := by
  induction h with
  | nil => rfl
  | @cons a b row other hab hrest ih =>
    cases hrest with
    | nil => exact hab.decide_le_eq
    | cons => simpa only [List.getLast?_cons_cons] using ih

/-- Rows that are the same up to a limit have entries below it alike. -/
theorem any_of_forall₂ {limit : Nat} {row other : List Nat}
    (h : List.Forall₂ (SameUpTo limit) row other) :
    row.any (· ≤ limit) = other.any (· ≤ limit) := by
  induction h with
  | nil => rfl
  | cons hab hrest ih => rw [List.any_cons, List.any_cons, ih, hab.decide_le_eq]

/-- A row accepts exactly if the text is near enough to the query. -/
theorem Holds.accepts_iff {row : Row} {text : Text} (h : pattern.Holds row text) :
    pattern.accepts row = true ↔ distance text pattern.query ≤ pattern.limit := by
  rw [accepts, getLast?_of_forall₂ h, getLast?_distancesFrom]
  simp

/-- A row is alive if some text that goes on from its own is near enough to the query. -/
theorem Holds.alive {row : Row} {text : Text} (h : pattern.Holds row text) {more : Text}
    (hnear : distance (text ++ more) pattern.query ≤ pattern.limit) :
    pattern.alive row = true := by
  obtain ⟨start, hstart, hle⟩ := exists_start_distance_le text more pattern.query
  rw [Pattern.alive, any_of_forall₂ h, List.any_eq_true]
  exact ⟨_, mem_distancesFrom.mpr ⟨start, hstart, rfl⟩, decide_eq_true (hle.trans hnear)⟩

/-! ## Reading texts -/

/-- The row after a text is read character by character, if there is one. -/
def rowAfter? (pattern : Pattern) (text : Text) : Option Row :=
  text.foldl (fun row? c => row?.bind (pattern.step? · c)) (some pattern.start)

/-- A character more is a step more. -/
theorem rowAfter?_append_singleton (text : Text) (c : Char) :
    pattern.rowAfter? (text ++ [c]) = (pattern.rowAfter? text).bind (pattern.step? · c) := by
  rw [rowAfter?, List.foldl_append]
  rfl

/-- How far a text has been read after some octets. -/
def progressAfter (pattern : Pattern) (read : List UInt8) : Progress :=
  pattern.automaton.run read

/-- An octet that ends a character takes the row on. -/
theorem Progress.read_of_eq_some {progress : Progress} {octet : UInt8} {c : Char}
    (h : (progress.begun ++ [octet]).toByteArray.utf8DecodeChar? 0 = some c) :
    Progress.read pattern progress octet = ⟨progress.row.bind (pattern.step? · c), []⟩ := by
  simp only [Progress.read, h]

/-- An octet that ends no character is kept. -/
theorem Progress.read_of_eq_none {progress : Progress} {octet : UInt8}
    (h : (progress.begun ++ [octet]).toByteArray.utf8DecodeChar? 0 = none) :
    Progress.read pattern progress octet = ⟨progress.row, progress.begun ++ [octet]⟩ := by
  simp only [Progress.read, h]

/-- The octets that were read are those of a text and the beginning of one more character. -/
theorem exists_text_of_progressAfter (pattern : Pattern) (read : List UInt8) :
    ∃ text, read = utf8 text ++ (pattern.progressAfter read).begun ∧
      (pattern.progressAfter read).row = pattern.rowAfter? text ∧
      (pattern.progressAfter read).begun.toByteArray.utf8DecodeChar? 0 = none := by
  induction read using List.reverseRecOn with
  | nil => exact ⟨[], rfl, rfl, utf8DecodeChar?_nil⟩
  | append_singleton read octet ih =>
    obtain ⟨text, hread, hrow, hnone⟩ := ih
    have hstep : pattern.progressAfter (read ++ [octet]) =
        Progress.read pattern (pattern.progressAfter read) octet :=
      run_append_singleton read octet
    rw [hstep]
    generalize pattern.progressAfter read = progress at hread hrow hnone ⊢
    cases hdecode : (progress.begun ++ [octet]).toByteArray.utf8DecodeChar? 0 with
    | none =>
      rw [Progress.read_of_eq_none hdecode]
      exact ⟨text, by rw [hread, List.append_assoc], hrow, hdecode⟩
    | some c =>
      rw [Progress.read_of_eq_some hdecode]
      -- The character ends with this octet, as it would have been decoded before.
      obtain ⟨extra, hextra⟩ := exists_of_utf8DecodeChar?_eq_some hdecode
      have hnil : extra = [] := by
        by_contra hne
        rw [← List.dropLast_append_getLast hne, ← List.append_assoc] at hextra
        obtain ⟨hbegun, -⟩ := List.append_inj' hextra rfl
        rw [hbegun, utf8DecodeChar?_append] at hnone
        cases hnone
      rw [hnil, List.append_nil] at hextra
      refine ⟨text ++ [c], ?_, ?_, utf8DecodeChar?_nil⟩
      · rw [hread, List.append_assoc, hextra, utf8_append]
        simp
      · rw [rowAfter?_append_singleton, ← hrow]

/-- After a whole text no character has begun. -/
theorem progressAfter_utf8 (pattern : Pattern) (text : Text) :
    pattern.progressAfter (utf8 text) = ⟨pattern.rowAfter? text, []⟩ := by
  obtain ⟨start, hread, hrow, hnone⟩ := pattern.exists_text_of_progressAfter (utf8 text)
  generalize pattern.progressAfter (utf8 text) = progress at hread hrow hnone ⊢
  obtain ⟨rest, rfl⟩ : start <+: text := utf8_prefix_iff.mp ⟨_, hread.symm⟩
  rw [utf8_append] at hread
  have hbegun := List.append_cancel_left hread
  cases rest with
  | nil =>
    obtain ⟨row, begun⟩ := progress
    obtain rfl : [] = begun := hbegun
    obtain rfl : row = pattern.rowAfter? start := hrow
    rw [List.append_nil]
  | cons c rest =>
    rw [← hbegun, utf8_cons, utf8DecodeChar?_append] at hnone
    cases hnone

/-! ## Queries of ASCII characters -/

/-- An ASCII character is known by its first octet. -/
theorem eq_of_firstOctet_eq {c d : Char} (hc : c.toNat < 128) (h : firstOctet c = firstOctet d) :
    c = d := by
  have hsize : c.utf8Size = 1 := Char.utf8Size_eq_one_iff.mpr (by
    rw [UInt32.le_iff_toNat_le]
    exact Nat.le_of_lt_succ hc)
  obtain ⟨octet, hoctet⟩ := List.length_eq_one_iff.mp
    ((String.length_utf8EncodeChar c).trans hsize)
  cases hd : String.utf8EncodeChar d with
  | nil => exact absurd hd String.utf8EncodeChar_ne_nil
  | cons first rest =>
    have hfirst : octet = first := by
      rw [firstOctet, firstOctet, hoctet, hd] at h
      exact UInt8.toNat_inj.mp h
    have hencode : String.utf8EncodeChar d ++ [] = String.utf8EncodeChar c ++ rest := by
      rw [hoctet, hd, hfirst, List.append_nil]
      rfl
    exact (eq_of_utf8EncodeChar_append hencode).symm

/-- A query of ASCII characters lets every character be read. -/
theorem step?_of_ascii (hascii : ∀ c ∈ pattern.query, c.toNat < 128) (row : Row) (c : Char) :
    pattern.step? row c = some (pattern.next row (some c)) := by
  unfold step?
  split
  · next last hlast =>
    obtain ⟨hmem, hoctet⟩ := List.mem_filter.mp (List.mem_of_getLast? hlast)
    obtain ⟨⟨distance, e⟩, hzip, rfl⟩ := List.mem_map.mp hmem
    have hquery : e ∈ pattern.query := (List.of_mem_zip (List.mem_filter.mp hzip).1).2
    rw [if_pos (eq_of_firstOctet_eq (hascii e hquery) (by simpa using hoctet))]
  · rfl

/-- The rows of a query of ASCII characters hold the distances of what was read. -/
theorem exists_rowAfter? (hascii : ∀ c ∈ pattern.query, c.toNat < 128) (text : Text) :
    ∃ row, pattern.rowAfter? text = some row ∧ pattern.Holds row text := by
  induction text using List.reverseRecOn with
  | nil => exact ⟨pattern.start, rfl, holds_start⟩
  | append_singleton text c ih =>
    obtain ⟨row, hrow, hholds⟩ := ih
    refine ⟨pattern.next row (some c), ?_, hholds.next c⟩
    rw [rowAfter?_append_singleton, hrow, Option.bind_some, step?_of_ascii hascii]

/-- The automaton of a query of ASCII characters decides which texts are near enough. -/
theorem decides_automaton (hascii : ∀ c ∈ pattern.query, c.toNat < 128) :
    pattern.automaton.Decides fun text => distance text pattern.query ≤ pattern.limit := by
  have haccepts (read : List UInt8) :
      pattern.automaton.accepts (pattern.automaton.run read) = true ↔
        ∃ text, utf8 text = read ∧ distance text pattern.query ≤ pattern.limit := by
    change ((pattern.progressAfter read).begun.isEmpty &&
      (pattern.progressAfter read).row.any pattern.accepts) = true ↔ _
    constructor
    · intro h
      obtain ⟨text, hread, hrow, -⟩ := pattern.exists_text_of_progressAfter read
      obtain ⟨row, hafter, hholds⟩ := exists_rowAfter? hascii text
      obtain ⟨hbegun, hany⟩ := Bool.and_eq_true_iff.mp h
      rw [hrow, hafter] at hany
      rw [List.isEmpty_iff.mp hbegun, List.append_nil] at hread
      exact ⟨text, hread.symm, hholds.accepts_iff.mp hany⟩
    · rintro ⟨text, rfl, hnear⟩
      obtain ⟨row, hafter, hholds⟩ := exists_rowAfter? hascii text
      rw [progressAfter_utf8, hafter]
      exact hholds.accepts_iff.mpr hnear
  refine ⟨haccepts, fun {read} hdead more => Bool.eq_false_iff.mpr fun h => ?_⟩
  obtain ⟨whole, hwhole, hnear⟩ := (haccepts _).mp h
  obtain ⟨text, hread, hrow, -⟩ := pattern.exists_text_of_progressAfter read
  obtain ⟨row, hafter, hholds⟩ := exists_rowAfter? hascii text
  obtain ⟨rest, rfl⟩ : text <+: whole := utf8_prefix_iff.mp
    ⟨(pattern.progressAfter read).begun ++ more, by rw [hwhole, ← List.append_assoc, ← hread]⟩
  refine Bool.false_ne_true (hdead.symm.trans ?_)
  change (pattern.progressAfter read).row.any pattern.alive = true
  rw [hrow, hafter]
  exact hholds.alive hnear

/-- A missing letter is one error, and the rest of a longer text does not count. -/
example : (Pattern.mk "shoping".toList 2).automaton.startsWith.comesToAccept
    (utf8 "shoppinglist".toList) = true := by decide

end LinkedNotes.Typo.Pattern
