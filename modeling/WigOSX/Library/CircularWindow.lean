import Mathlib

/-! Windows onto a circular buffer. A window starts at a free-running
position and reads consecutive cells modulo the capacity. As long as it is
not longer than the buffer its cells are distinct, so one store changes one
cell of the window, and moving the start renumbers cells without copying. -/
namespace CircularWindow

variable {α : Type*} (buffer : Nat → α) (capacity start : Nat)

/-- The `k`-th cell of the window that begins at `start`. -/
def cell (k : Nat) : α :=
  buffer ((start + k) % capacity)

theorem index_inj {capacity start j k : Nat} (hj : j < capacity) (hk : k < capacity)
    (h : (start + j) % capacity = (start + k) % capacity) : j = k := by
  have hMod : j ≡ k [MOD capacity] := Nat.ModEq.add_left_cancel' start h
  rwa [Nat.ModEq, Nat.mod_eq_of_lt hj, Nat.mod_eq_of_lt hk] at hMod

/-- A store through the window changes that cell and no other. -/
theorem cell_update {j k : Nat} (hj : j < capacity) (hk : k < capacity) (a : α) :
    cell (Function.update buffer ((start + j) % capacity) a) capacity start k =
      if k = j then a else cell buffer capacity start k := by
  by_cases hEq : k = j
  · subst hEq
    simp [cell]
  · have hIndex : (start + k) % capacity ≠ (start + j) % capacity :=
      fun h => hEq (index_inj hk hj h)
    simp [cell, Function.update_of_ne hIndex, hEq]

theorem cell_advance (d k : Nat) :
    cell buffer capacity (start + d) k = cell buffer capacity start (d + k) := by
  rw [cell, cell, Nat.add_assoc]

@[simp] theorem cell_mod_start (k : Nat) :
    cell buffer capacity (start % capacity) k = cell buffer capacity start k := by
  rw [cell, cell, Nat.mod_add_mod]

/-- The first `length` cells in order. -/
def window (length : Nat) : List α :=
  (List.range length).map (cell buffer capacity start)

@[simp] theorem window_length (length : Nat) :
    (window buffer capacity start length).length = length := by
  simp [window]

theorem window_mod_start (length : Nat) :
    window buffer capacity (start % capacity) length = window buffer capacity start length := by
  simp only [window, List.map_inj_left]
  intro k _
  exact cell_mod_start buffer capacity start k

/-- Storing just behind a window that is not full extends it by one cell. -/
theorem window_push {length : Nat} (hRoom : length < capacity) (a : α) :
    window (Function.update buffer ((start + length) % capacity) a) capacity start (length + 1) =
      window buffer capacity start length ++ [a] := by
  have hOld : ∀ k ∈ List.range length,
      cell (Function.update buffer ((start + length) % capacity) a) capacity start k =
        cell buffer capacity start k := by
    intro k hk
    have hLt := List.mem_range.mp hk
    rw [cell_update buffer capacity start hRoom (hLt.trans hRoom), if_neg (by omega)]
  rw [window, List.range_succ, List.map_append, List.map_singleton,
    cell_update buffer capacity start hRoom hRoom, if_pos rfl, window, List.map_congr_left hOld]

/-- Moving the start by one drops the first cell of the window. -/
theorem window_pop (length : Nat) :
    window buffer capacity start (length + 1) =
      cell buffer capacity start 0 :: window buffer capacity (start + 1) length := by
  rw [window, List.range_succ_eq_map, List.map_cons, List.map_map, window]
  congr 1
  apply List.map_congr_left
  intro k _
  rw [cell_advance, Function.comp_apply, Nat.add_comm]

end CircularWindow
