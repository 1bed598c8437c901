import LinkedNotes.Text.Basic
import Mathlib

/-!
# Distance of texts

The Levenshtein distance of two texts: the least number of insertions, deletions and substitutions
that make one of them the other. Main statements: it is the least cost of an alignment, it can be
computed from the ends of the texts as well as from their starts, and a part of a text is no farther
from some start of the other text than the whole.
-/

namespace LinkedNotes.Text

/-- The least number of insertions, deletions and substitutions between two texts. -/
def distance : Text → Text → Nat
  | [], t => t.length
  | c :: s, [] => (c :: s).length
  | c :: s, d :: t =>
    min (min (distance s (d :: t) + 1) (distance (c :: s) t + 1))
      (distance s t + if c = d then 0 else 1)
termination_by s t => s.length + t.length

/-- From nothing every character is inserted. -/
@[simp]
theorem distance_nil_left (t : Text) : distance [] t = t.length := by
  rw [distance]

/-- To nothing every character is deleted. -/
@[simp]
theorem distance_nil_right (s : Text) : distance s [] = s.length := by
  cases s with
  | nil => rw [distance]
  | cons c s => rw [distance]

/-- Two texts side by side, with the number of places where they differ: a character stands beside
the same one, beside another one, or beside a gap. -/
inductive Aligned : Nat → Text → Text → Prop
  | nil : Aligned 0 [] []
  | keep {n : Nat} {s t : Text} (c : Char) (h : Aligned n s t) : Aligned n (c :: s) (c :: t)
  | change {n : Nat} {s t : Text} (c d : Char) (h : Aligned n s t) :
    Aligned (n + 1) (c :: s) (d :: t)
  | drop {n : Nat} {s t : Text} (c : Char) (h : Aligned n s t) : Aligned (n + 1) (c :: s) t
  | add {n : Nat} {s t : Text} (d : Char) (h : Aligned n s t) : Aligned (n + 1) s (d :: t)

/-- Some alignment costs no more than the distance. -/
theorem aligned_distance (s t : Text) : Aligned (distance s t) s t := by
  fun_induction distance s t with
  | case1 t =>
    induction t with
    | nil => exact .nil
    | cons d t ih => exact .add d ih
  | case2 c s =>
    induction s generalizing c with
    | nil => exact .drop c .nil
    | cons d s ih => exact .drop c (ih d)
  | case3 c s d t hdrop hadd hboth =>
    -- The least of the three numbers names the last step.
    rcases min_choice (min (distance s (d :: t) + 1) (distance (c :: s) t + 1))
        (distance s t + if c = d then 0 else 1) with h | h
    · rw [h]
      rcases min_choice (distance s (d :: t) + 1) (distance (c :: s) t + 1) with h | h
      · rw [h]
        exact .drop c hdrop
      · rw [h]
        exact .add d hadd
    · rw [h]
      by_cases hc : c = d
      · subst hc
        simpa using Aligned.keep c hboth
      · rw [if_neg hc]
        exact .change c d hboth

/-- Dropping a character costs at most one. -/
theorem distance_cons_left_le (c : Char) (s t : Text) : distance (c :: s) t ≤ distance s t + 1 := by
  cases t with
  | nil => simp
  | cons d t =>
    rw [distance]
    omega

/-- Adding a character costs at most one. -/
theorem distance_cons_right_le (s : Text) (d : Char) (t : Text) :
    distance s (d :: t) ≤ distance s t + 1 := by
  cases s with
  | nil => simp
  | cons c s =>
    rw [distance]
    omega

/-- No alignment costs less than the distance. -/
theorem Aligned.distance_le {n : Nat} {s t : Text} (h : Aligned n s t) : distance s t ≤ n := by
  induction h with
  | nil => simp
  | @keep n s t c h ih =>
    rw [distance, if_pos rfl]
    omega
  | @change n s t c d h ih =>
    rw [distance]
    split <;> omega
  | @drop n s t c h ih =>
    have := distance_cons_left_le c s t
    omega
  | @add n s t d h ih =>
    have := distance_cons_right_le s d t
    omega

/-- Alignments can be put one after the other. -/
theorem Aligned.append {m n : Nat} {s t s' t' : Text} (h : Aligned m s t) (h' : Aligned n s' t') :
    Aligned (m + n) (s ++ s') (t ++ t') := by
  induction h with
  | nil => simpa using h'
  | keep c h ih => exact .keep c ih
  | @change m s t c d h ih =>
    rw [Nat.add_right_comm]
    exact .change c d ih
  | @drop m s t c h ih =>
    rw [Nat.add_right_comm]
    exact .drop c ih
  | @add m s t d h ih =>
    rw [Nat.add_right_comm]
    exact .add d ih

/-- An alignment can be read backwards. -/
theorem Aligned.reverse {n : Nat} {s t : Text} (h : Aligned n s t) :
    Aligned n s.reverse t.reverse := by
  induction h with
  | nil => exact .nil
  | keep c h ih =>
    rw [List.reverse_cons, List.reverse_cons]
    exact ih.append (.keep c .nil)
  | change c d h ih =>
    rw [List.reverse_cons, List.reverse_cons]
    exact ih.append (.change c d .nil)
  | @drop n s t c h ih =>
    rw [List.reverse_cons]
    simpa using ih.append (.drop c .nil)
  | @add n s t d h ih =>
    rw [List.reverse_cons]
    simpa using ih.append (.add d .nil)

/-- The distance is the same from behind. -/
theorem distance_reverse (s t : Text) : distance s.reverse t.reverse = distance s t := by
  refine Nat.le_antisymm (aligned_distance s t).reverse.distance_le ?_
  simpa using (aligned_distance s.reverse t.reverse).reverse.distance_le

/-- The distance is also computed from the last characters. -/
theorem distance_append_singleton (s t : Text) (c d : Char) :
    distance (s ++ [c]) (t ++ [d]) =
      min (min (distance s (t ++ [d]) + 1) (distance (s ++ [c]) t + 1))
        (distance s t + if c = d then 0 else 1) := by
  have hcons := distance.eq_3 c s.reverse d t.reverse
  have hend (u : Text) (e : Char) : e :: u.reverse = (u ++ [e]).reverse := by simp
  rwa [hend s c, hend t d, distance_reverse, distance_reverse, distance_reverse,
    distance_reverse] at hcons

/-- The first part of an aligned text is aligned with a start of the other text. -/
theorem Aligned.exists_start {n : Nat} {s more t : Text} (h : Aligned n (s ++ more) t) :
    ∃ m ≤ n, ∃ start, start <+: t ∧ Aligned m s start := by
  have hnil (n : Nat) (t : Text) : ∃ m ≤ n, ∃ start, start <+: t ∧ Aligned m [] start :=
    ⟨0, Nat.zero_le n, [], List.nil_prefix, .nil⟩
  generalize hwhole : s ++ more = whole at h
  induction h generalizing s with
  | nil =>
    obtain ⟨rfl, -⟩ := List.append_eq_nil_iff.mp hwhole
    exact hnil 0 []
  | @keep n s' t c h ih =>
    cases s with
    | nil => exact hnil _ _
    | cons first s =>
      obtain ⟨rfl, hrest⟩ := List.cons_eq_cons.mp hwhole
      obtain ⟨m, hm, start, hstart, hs⟩ := ih hrest
      exact ⟨m, hm, first :: start, List.cons_prefix_cons.mpr ⟨rfl, hstart⟩, .keep first hs⟩
  | @change n s' t c d h ih =>
    cases s with
    | nil => exact hnil _ _
    | cons first s =>
      obtain ⟨rfl, hrest⟩ := List.cons_eq_cons.mp hwhole
      obtain ⟨m, hm, start, hstart, hs⟩ := ih hrest
      exact ⟨m + 1, by omega, d :: start, List.cons_prefix_cons.mpr ⟨rfl, hstart⟩,
        .change first d hs⟩
  | @drop n s' t c h ih =>
    cases s with
    | nil => exact hnil _ _
    | cons first s =>
      obtain ⟨rfl, hrest⟩ := List.cons_eq_cons.mp hwhole
      obtain ⟨m, hm, start, hstart, hs⟩ := ih hrest
      exact ⟨m + 1, by omega, start, hstart, .drop first hs⟩
  | @add n s' t d h ih =>
    obtain ⟨m, hm, start, hstart, hs⟩ := ih hwhole
    exact ⟨m + 1, by omega, d :: start, List.cons_prefix_cons.mpr ⟨rfl, hstart⟩, .add d hs⟩

/-- The first part of a text is as near to some start of another text as the whole is to this
text. -/
theorem exists_start_distance_le (s more t : Text) :
    ∃ start, start <+: t ∧ distance s start ≤ distance (s ++ more) t := by
  obtain ⟨m, hm, start, hstart, hs⟩ := (aligned_distance (s ++ more) t).exists_start
  exact ⟨start, hstart, hs.distance_le.trans hm⟩

end LinkedNotes.Text
