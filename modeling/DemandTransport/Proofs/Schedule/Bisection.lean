import DemandTransport.Schedule.Basic

/-!
# Halving finds the border

When the items that satisfy a condition come first, halving counts them. The search knows a number
of items that satisfy the condition and bounds how many more may; both facts survive every round.
-/

namespace DemandTransport

variable {α : Type} {p : α → Bool} {items : List α}

/-- A search between true bounds ends at the border. -/
theorem bisectFrom_eq {border : Nat} (hp : ∀ i, items[i]?.any p = decide (i < border))
    {rounds base size : Nat} (hrounds : size < rounds) (hbase : base ≤ border)
    (hsize : border ≤ base + size) : bisectFrom p items rounds base size = border := by
  induction rounds generalizing base size with
  | zero => omega
  | succ rounds ih =>
    rw [bisectFrom]
    by_cases hlong : 1 < size
    · rw [if_pos hlong]
      simp only [hp, decide_eq_true_eq]
      by_cases hmiddle : base + size / 2 < border
      · rw [if_pos hmiddle]
        exact ih (by omega) (by omega) (by omega)
      · rw [if_neg hmiddle]
        exact ih (by omega) (by omega) (by omega)
    · rw [if_neg hlong]
      simp only [hp, decide_eq_true_eq]
      by_cases hlast : base < border
      · rw [if_pos hlast]
        omega
      · rw [if_neg hlast]
        omega

/-- The items that satisfy a condition are counted when they come first. -/
theorem bisect_append {before after : List α} (hbefore : ∀ a ∈ before, p a = true)
    (hafter : ∀ a ∈ after, p a = false) : bisect p (before ++ after) = before.length := by
  apply bisectFrom_eq
  · intro i
    rcases Nat.lt_or_ge i before.length with hi | hi
    · rw [List.getElem?_append_left hi, List.getElem?_eq_getElem hi, decide_eq_true hi]
      exact hbefore _ (List.getElem_mem hi)
    · rw [List.getElem?_append_right hi, decide_eq_false (by omega)]
      cases hget : after[i - before.length]? with
      | none => rfl
      | some a => exact hafter a (List.mem_of_getElem? hget)
  · omega
  · omega
  · simp

/-- It does not matter whether items are changed first or looked at as they are. -/
theorem bisectFrom_map {β : Type} (p : β → Bool) (f : α → β) (items : List α)
    (rounds base size : Nat) :
    bisectFrom p (items.map f) rounds base size =
      bisectFrom (fun a => p (f a)) items rounds base size := by
  induction rounds generalizing base size with
  | zero => rfl
  | succ rounds ih =>
    have hany (i : Nat) : (items.map f)[i]?.any p = items[i]?.any fun a => p (f a) := by
      rw [List.getElem?_map]
      cases items[i]? <;> rfl
    simp only [bisectFrom, ih, hany]

end DemandTransport
