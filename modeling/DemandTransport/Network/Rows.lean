import DemandTransport.Network.Basic

/-!
# Finding the row table

The row table of a network is found in two passes over one array: the links out of each node are
counted in the place behind the node's own, and each count is then added to the next one.
-/

namespace DemandTransport.Network

variable {R : Type}

/-- For each node, in the place behind its own, how many of some links leave it. -/
def outCounts (nodes : Nat) (links : List (Link R)) : Array Nat :=
  links.foldl (fun counts link => counts.modify (link.source.index + 1) (· + 1))
    (Array.replicate (nodes + 1) 0)

/-- The table after some of its entries have been added to the next one each, in order. -/
def addUp (table : Array Nat) (entries : Nat) : Array Nat :=
  (List.range entries).foldl (fun sums i => sums.modify (i + 1) (· + sums[i]?.getD 0)) table

/-- The row table, from the counts of the links out of each node. -/
def countRows (nodes : Nat) (links : List (Link R)) : Array Nat :=
  addUp (outCounts nodes links) nodes

theorem countP_source_lt_succ (links : List (Link R)) (i : Nat) :
    (links.countP fun l => l.source.index < i + 1) =
      (links.countP fun l => l.source.index < i) + links.countP fun l => l.source.index = i := by
  induction links with
  | nil => rfl
  | cons link rest ih =>
    simp only [List.countP_cons, ih, decide_eq_true_eq]
    split <;> split <;> split <;> omega

theorem outCounts_getElem? (nodes : Nat) (links : List (Link R)) (i : Nat) :
    (outCounts nodes links)[i]? =
      if i < nodes + 1 then some (links.countP fun l => l.source.index + 1 = i) else none := by
  have hcounted (counts : Array Nat) :
      (links.foldl (fun counts link => counts.modify (link.source.index + 1) (· + 1)) counts)[i]? =
        counts[i]?.map (· + links.countP fun l => l.source.index + 1 = i) := by
    induction links generalizing counts with
    | nil => simp
    | cons link rest ih =>
      rw [List.foldl_cons, ih, Array.getElem?_modify, List.countP_cons]
      split
      next heq =>
        cases counts[i]? <;> simp [heq]
        omega
      next hne => simp [hne]
  rw [outCounts, hcounted, Array.getElem?_replicate]
  split <;> simp

/-- The entries up to the last one that has been reached are those of the row table, and the ones
behind it are still counts. -/
theorem addUp_getElem? (nodes : Nat) (links : List (Link R)) {entries : Nat}
    (hentries : entries ≤ nodes) (i : Nat) :
    (addUp (outCounts nodes links) entries)[i]? =
      if i ≤ entries then some (links.countP fun l => l.source.index < i)
      else (outCounts nodes links)[i]? := by
  induction entries generalizing i with
  | zero =>
    split
    next hi =>
      obtain rfl := Nat.le_zero.mp hi
      simp [addUp, outCounts_getElem?]
    next => rfl
  | succ entries ih =>
    have hlast := ih (Nat.le_of_succ_le hentries) entries
    rw [if_pos (Nat.le_refl entries)] at hlast
    have hstep : addUp (outCounts nodes links) (entries + 1) =
        (addUp (outCounts nodes links) entries).modify (entries + 1)
          (· + links.countP fun l => l.source.index < entries) := by
      simp only [addUp, List.range_succ, List.foldl_append, List.foldl_cons, List.foldl_nil]
      simp only [addUp] at hlast
      rw [hlast, Option.getD_some]
    rw [hstep, Array.getElem?_modify, ih (Nat.le_of_succ_le hentries), outCounts_getElem?]
    by_cases hi : entries + 1 = i
    · have hcount := countP_source_lt_succ links entries
      subst hi
      rw [if_pos rfl, if_neg (Nat.not_succ_le_self entries), if_pos (Nat.lt_succ_of_le hentries),
        if_pos (Nat.le_refl _), hcount, Option.map_some, Nat.add_comm]
      simp only [Nat.add_right_cancel_iff]
    · have hle : i ≤ entries + 1 ↔ i ≤ entries := by omega
      simp only [hi, hle, if_false]

/-- Counting and adding up gives the row table. -/
theorem countRows_eq (nodes : Nat) (links : List (Link R)) :
    countRows nodes links = rowTable nodes links := by
  refine Array.ext_getElem? fun i => ?_
  rw [countRows, addUp_getElem? nodes links (Nat.le_refl nodes), outCounts_getElem?]
  by_cases hi : i ≤ nodes
  · simp [rowTable, hi, Nat.lt_succ_of_le hi]
  · have hlt : ¬i < nodes + 1 := by omega
    simp [rowTable, hi, hlt]

end DemandTransport.Network
