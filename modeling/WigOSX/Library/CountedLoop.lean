import Mathlib

/-! Counted loops over a state of which one thing is observed. A loop leaves
alone what each of its rounds leaves alone, and what one round sets survives
if the later rounds leave it alone. -/
namespace CountedLoop

variable {State Value : Type*} {body : State → Nat → State}

/-- The rounds `0`, ..., `n - 1` in order. -/
def rounds (body : State → Nat → State) (n : Nat) (s : State) : State :=
  (List.range n).foldl body s

theorem rounds_succ (body : State → Nat → State) (n : Nat) (s : State) :
    rounds body (n + 1) s = body (rounds body n s) n := by
  rw [rounds, List.range_succ, List.foldl_append]
  rfl

theorem observe_same (observe : State → Value) {n : Nat}
    (hSame : ∀ i < n, ∀ s, observe (body s i) = observe s) (s : State) :
    observe (rounds body n s) = observe s := by
  induction n with
  | zero => rfl
  | succ n ih =>
      rw [rounds_succ, hSame n (Nat.lt_succ_self n)]
      exact ih fun i hi => hSame i (Nat.lt_succ_of_lt hi)

theorem observe_set (observe : State → Value) {n j : Nat} {value : Value} (hj : j < n)
    (hSet : ∀ s, observe (body s j) = value)
    (hAfter : ∀ i, j < i → i < n → ∀ s, observe (body s i) = observe s) (s : State) :
    observe (rounds body n s) = value := by
  induction n with
  | zero => exact absurd hj (Nat.not_lt_zero j)
  | succ n ih =>
      rw [rounds_succ]
      rcases Nat.lt_or_eq_of_le (Nat.le_of_lt_succ hj) with hBefore | rfl
      · rw [hAfter n hBefore (Nat.lt_succ_self n)]
        exact ih hBefore fun i hFrom hi => hAfter i hFrom (Nat.lt_succ_of_lt hi)
      · exact hSet _

end CountedLoop
