import LinkedNotes.Path.Basic
import Mathlib

/-!
# The order of paths

Paths are ordered by their components, and these by their kinds and the code points of their names.
Main statement: this is the lexicographic order of lists of numbers, so it is total, and a list in
this order is determined by its members up to the spelling of paths.
-/

namespace LinkedNotes

/-- The order of texts is that of their lists of code points. -/
theorem Text.le_iff {s t : Text} :
    Text.le s t = true ↔ s.map Char.toNat ≤ t.map Char.toNat := by
  rw [← not_lt]
  induction s generalizing t with
  | nil => simp [Text.le]
  | cons a s ih =>
    cases t with
    | nil => simp [Text.le]
    | cons b t =>
      have hchar : a = b ↔ a.toNat = b.toNat := Char.toNat_inj.symm
      simp only [Text.le, Bool.or_eq_true, decide_eq_true_eq, Bool.and_eq_true, beq_iff_eq, ih,
        List.map_cons, List.cons_lt_cons_iff, hchar]
      by_cases heq : a.toNat = b.toNat
      · simp [heq]
      · have hne : b.toNat ≠ a.toNat := Ne.symm heq
        simp only [heq, hne, false_and, or_false, not_lt]
        omega

namespace Component

/-- The numbers by which a component is ordered: its kind, and the code points of a name. -/
def key : Component → List Nat
  | name text => 3 :: text.map Char.toNat
  | component => [component.rank]

/-- Different components have different numbers. -/
theorem key_injective : Function.Injective key := by
  have htext : Function.Injective (List.map Char.toNat) :=
    List.map_injective_iff.mpr fun _ _ => Char.toNat_inj.mp
  intro a b h
  cases a <;> cases b <;> simp_all [key, rank, htext.eq_iff]

/-- The order of components is that of their numbers. -/
theorem le_iff {a b : Component} : a.le b = true ↔ a.key ≤ b.key := by
  cases a <;> cases b <;> simp [le, key, rank, Text.le_iff, ← not_lt, List.cons_lt_cons_iff]

end Component

namespace Path

/-- The numbers by which a path is ordered. -/
def key (path : Path) : List (List Nat) :=
  path.components.map Component.key

/-- Paths with the same numbers have the same components. -/
theorem key_eq_iff {p q : Path} : p.key = q.key ↔ p.components = q.components :=
  (List.map_injective_iff.mpr Component.key_injective).eq_iff

/-- The order of component lists is that of their numbers. -/
theorem leComponents_iff {s t : List Component} :
    leComponents s t = true ↔ s.map Component.key ≤ t.map Component.key := by
  rw [← not_lt]
  induction s generalizing t with
  | nil => simp [leComponents]
  | cons a s ih =>
    cases t with
    | nil => simp [leComponents]
    | cons b t =>
      simp only [leComponents, List.map_cons, List.cons_lt_cons_iff]
      by_cases heq : a = b
      · simp [heq, ih]
      · have hne : b.key ≠ a.key := fun h => heq (Component.key_injective h).symm
        simp [heq, hne, Component.le_iff]

/-- The order of paths is that of their numbers. -/
theorem le_iff {p q : Path} : p.le q = true ↔ p.key ≤ q.key :=
  leComponents_iff

/-- Of two paths one is not behind the other. -/
theorem le_total (p q : Path) : (p.le q || q.le p) = true := by
  rw [Bool.or_eq_true, le_iff, le_iff]
  exact LinearOrder.le_total _ _

/-- The order of paths is transitive. -/
theorem le_trans (p q r : Path) (hpq : p.le q = true) (hqr : q.le r = true) : p.le r = true := by
  rw [le_iff] at hpq hqr ⊢
  exact hpq.trans hqr

/-- A path is not behind another spelling of itself. -/
theorem le_of_components_eq {p q : Path} (h : p.components = q.components) : p.le q = true :=
  le_iff.mpr (key_eq_iff.mpr h).le

/-- Paths that are not behind each other are the same. -/
theorem components_eq_of_le {p q : Path} (hpq : p.le q = true) (hqp : q.le p = true) :
    p.components = q.components :=
  key_eq_iff.mp ((le_iff.mp hpq).antisymm (le_iff.mp hqp))

/-- Sorted paths are in order. -/
theorem pairwise_mergeSort (paths : List Path) :
    (paths.mergeSort Path.le).Pairwise fun p q => p.le q = true :=
  List.pairwise_mergeSort le_trans le_total paths

/-- Lists in order with the same paths are the same up to their spelling. -/
theorem map_components_eq_of_perm {s t : List Path} (hs : s.Pairwise fun p q => p.le q = true)
    (ht : t.Pairwise fun p q => p.le q = true)
    (h : (s.map components).Perm (t.map components)) : s.map components = t.map components := by
  have hle : ∀ {paths : List Path}, (paths.Pairwise fun p q => p.le q = true) →
      (paths.map components).Pairwise fun a b => leComponents a b = true := fun hpaths =>
    List.pairwise_map.mpr hpaths
  refine h.eq_of_pairwise (fun a b _ _ hab hba => ?_) (hle hs) (hle ht)
  rw [leComponents_iff] at hab hba
  exact List.map_injective_iff.mpr Component.key_injective (hab.antisymm hba)

end Path
end LinkedNotes
