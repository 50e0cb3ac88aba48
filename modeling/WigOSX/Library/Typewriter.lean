import Mathlib

/-! An unbounded strip of cells under a head that moves right as it prints and
left as it rubs out. A screen that scrolls shows a part of such a strip, and
on the strip itself rubbing out is the inverse of printing. -/
namespace Typewriter

variable {α : Type*}

structure Strip (α : Type*) where
  cells : Nat → α
  head : Nat

def Strip.print (strip : Strip α) (a : α) : Strip α where
  cells := Function.update strip.cells strip.head a
  head := strip.head + 1

def Strip.rubOut (blank : α) (strip : Strip α) : Strip α where
  cells := Function.update strip.cells (strip.head - 1) blank
  head := strip.head - 1

theorem print_head (entries : List α) (strip : Strip α) :
    (entries.foldl Strip.print strip).head = strip.head + entries.length := by
  induction entries generalizing strip with
  | nil => rfl
  | cons a rest ih =>
      rw [List.foldl_cons, ih, List.length_cons, Nat.add_comm rest.length, ← Nat.add_assoc]
      rfl

/-- Printing changes only the cells that the head passes. -/
theorem print_outside (entries : List α) (strip : Strip α) {i : Nat}
    (h : i < strip.head ∨ strip.head + entries.length ≤ i) :
    (entries.foldl Strip.print strip).cells i = strip.cells i := by
  induction entries generalizing strip with
  | nil => rfl
  | cons a rest ih =>
      rw [List.length_cons] at h
      have hRest : i < (strip.print a).head ∨ (strip.print a).head + rest.length ≤ i := by
        show i < strip.head + 1 ∨ strip.head + 1 + rest.length ≤ i
        omega
      have hHere : i ≠ strip.head := by omega
      rw [List.foldl_cons, ih (strip.print a) hRest]
      exact Function.update_of_ne hHere a strip.cells

theorem print_inside (entries : List α) (strip : Strip α) {n : Nat} (h : n < entries.length) :
    (entries.foldl Strip.print strip).cells (strip.head + n) = entries[n] := by
  induction entries generalizing strip n with
  | nil => exact absurd h (Nat.not_lt_zero n)
  | cons a rest ih =>
      rw [List.foldl_cons]
      cases n with
      | zero =>
          rw [Nat.add_zero, print_outside rest (strip.print a) (Or.inl (Nat.lt_succ_self strip.head))]
          exact Function.update_self strip.head a strip.cells
      | succ n =>
          have hNext : strip.head + (n + 1) = (strip.print a).head + n := by
            show _ = strip.head + 1 + n
            omega
          rw [hNext]
          exact ih (strip.print a) (Nat.lt_of_succ_lt_succ h)

theorem rubOut_head (blank : α) (count : Nat) (strip : Strip α) :
    ((Strip.rubOut blank)^[count] strip).head = strip.head - count := by
  induction count with
  | zero => rfl
  | succ count ih =>
      rw [Function.iterate_succ_apply', Nat.sub_succ, ← ih]
      rfl

/-- Rubbing out blanks the cells that the head passes on its way back. -/
theorem rubOut_cells (blank : α) {count : Nat} {strip : Strip α} (h : count ≤ strip.head) (i : Nat) :
    ((Strip.rubOut blank)^[count] strip).cells i =
      if strip.head - count ≤ i ∧ i < strip.head then blank else strip.cells i := by
  induction count with
  | zero => rw [if_neg (by omega), Function.iterate_zero_apply]
  | succ count ih =>
      have hHead : ((Strip.rubOut blank)^[count] strip).head - 1 = strip.head - (count + 1) := by
        rw [rubOut_head, Nat.sub_sub]
      rw [Function.iterate_succ_apply', Strip.rubOut, hHead]
      dsimp only
      by_cases hHere : i = strip.head - (count + 1)
      · subst hHere
        rw [Function.update_self, if_pos (by omega)]
      · rw [Function.update_of_ne hHere, ih (by omega)]
        congr 1
        exact propext (by omega)

/-- Rubbing out what was printed last leaves the head and the cells where
printing the rest would have left them, apart from the blanks. -/
theorem rubOut_print (blank : α) (entries : List α) (strip : Strip α) {count : Nat}
    (h : count ≤ entries.length) :
    ((Strip.rubOut blank)^[count] (entries.foldl Strip.print strip)).head =
        ((entries.take (entries.length - count)).foldl Strip.print strip).head ∧
      ∀ i, ((Strip.rubOut blank)^[count] (entries.foldl Strip.print strip)).cells i =
        if strip.head + (entries.length - count) ≤ i ∧ i < strip.head + entries.length then blank
        else ((entries.take (entries.length - count)).foldl Strip.print strip).cells i := by
  have hKept : (entries.take (entries.length - count)).length = entries.length - count :=
    List.length_take_of_le (Nat.sub_le _ _)
  constructor
  · rw [rubOut_head, print_head, print_head, hKept]
    omega
  · intro i
    rw [rubOut_cells blank (by rw [print_head]; omega), print_head, Nat.add_sub_assoc h]
    split_ifs with hErased
    · rfl
    · by_cases hInside : strip.head ≤ i ∧ i < strip.head + (entries.length - count)
      · obtain ⟨n, rfl⟩ := Nat.exists_eq_add_of_le hInside.1
        rw [print_inside entries strip (by omega), print_inside _ strip (by omega), List.getElem_take]
      · rw [print_outside entries strip (by omega), print_outside _ strip (by omega)]

end Typewriter
