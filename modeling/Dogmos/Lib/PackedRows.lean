import Mathlib.Algebra.BigOperators.Group.List.Basic
import Mathlib.Algebra.GroupWithZero.Nat
import Mathlib.Data.List.Induction
import Mathlib.Data.List.Nodup

/-!
# Rows packed into one list

A list of rows is packed by writing the rows one behind the other: row `i` starts behind the
lengths of the rows before it (`start`).

* `slice_flatten`, `replace_flatten`, `set_flatten` — reading a row, replacing one by another of
  its length, and writing one entry are what they are on the rows.
* `rowOf` — the rows of a list of pairs of a row number and an entry.  `count_rows` is the pass that
  counts them, `set_filled` one step of the pass that fills them.
-/

namespace PackedRows

variable {α : Type}

/-! ## Packing -/

/-- Where a row starts. -/
def start (rows : List (List α)) (i : Nat) : Nat := ((rows.map List.length).take i).sum

section Packing

variable {rows : List (List α)} {i : Nat}

theorem start_succ (h : i < rows.length) : start rows (i + 1) = start rows i + rows[i].length := by
  unfold start
  rw [List.take_add_one, List.getElem?_map, List.getElem?_eq_getElem h, List.sum_append]
  simp

theorem length_flatten_take (rows : List (List α)) (i : Nat) :
    (rows.take i).flatten.length = start rows i := by
  rw [List.length_flatten, start, List.map_take]

/-- The packed rows around one of them. -/
theorem flatten_around (h : i < rows.length) :
    rows.flatten = (rows.take i).flatten ++ (rows[i] ++ (rows.drop (i + 1)).flatten) := by
  conv_lhs => rw [← List.take_append_drop i rows, List.drop_eq_getElem_cons h]
  rw [List.flatten_append, List.flatten_cons]

/-- A row is what stands between its start and the next. -/
theorem slice_flatten (h : i < rows.length) :
    (rows.flatten.drop (start rows i)).take (start rows (i + 1) - start rows i) = rows[i] := by
  rw [start_succ h, Nat.add_sub_cancel_left, start, List.drop_sum_flatten,
    List.drop_eq_getElem_cons h, List.flatten_cons, List.take_left]

theorem flatten_set (h : i < rows.length) (row : List α) :
    (rows.set i row).flatten = (rows.take i).flatten ++ (row ++ (rows.drop (i + 1)).flatten) := by
  rw [List.set_eq_take_append_cons_drop, if_pos h, List.flatten_append, List.flatten_cons]

/-- A row replaced. -/
theorem replace_flatten (h : i < rows.length) (row : List α) :
    rows.flatten.take (start rows i) ++ row ++ rows.flatten.drop (start rows (i + 1)) =
      (rows.set i row).flatten := by
  rw [flatten_set h, start, start, List.take_sum_flatten, List.drop_sum_flatten, List.append_assoc]

/-- An entry of a row written. -/
theorem set_flatten {k : Nat} (h : i < rows.length) (hk : k < rows[i].length) (a : α) :
    rows.flatten.set (start rows i + k) a = (rows.set i (rows[i].set k a)).flatten := by
  have hplace : start rows i + k - (rows.take i).flatten.length = k := by
    rw [length_flatten_take, Nat.add_sub_cancel_left]
  rw [flatten_set h, flatten_around h,
    List.set_append_right _ _ (by rw [length_flatten_take]; omega), hplace,
    List.set_append_left _ _ hk]

theorem getElem?_flatten {k : Nat} (h : i < rows.length) (hk : k < rows[i].length) :
    rows.flatten[start rows i + k]? = some rows[i][k] := by
  rw [flatten_around h, ← length_flatten_take, List.getElem?_append_right (Nat.le_add_right ..),
    Nat.add_sub_cancel_left, List.getElem?_append_left hk, List.getElem?_eq_getElem hk]

theorem start_uniform {size : Nat} (h : ∀ row ∈ rows, row.length = size) (hi : i ≤ rows.length) :
    start rows i = i * size := by
  have hlengths : rows.map List.length = List.replicate rows.length size := by
    refine List.eq_replicate_iff.2 ⟨List.length_map .., fun length hlength => ?_⟩
    obtain ⟨row, hrow, rfl⟩ := List.mem_map.1 hlength
    exact h row hrow
  rw [start, hlengths, List.take_replicate, Nat.min_eq_left hi, List.sum_replicate]
  exact Nat.nsmul_eq_mul i size

end Packing

/-! ## Filling -/

/-- The entries of a row. -/
def rowOf (pairs : List (Nat × α)) (i : Nat) : List α :=
  (pairs.filter fun pair => pair.1 = i).map Prod.snd

/-- A row that is filled in part. -/
def padded (blank : α) (size : Nat) (row : List α) : List α :=
  row ++ List.replicate (size - row.length) blank

section Filling

variable {pairs : List (Nat × α)} {i n : Nat}

@[simp] theorem rowOf_nil (i : Nat) : rowOf ([] : List (Nat × α)) i = [] := rfl

theorem rowOf_append (pairs pairs' : List (Nat × α)) (i : Nat) :
    rowOf (pairs ++ pairs') i = rowOf pairs i ++ rowOf pairs' i := by
  unfold rowOf
  rw [List.filter_append, List.map_append]

theorem rowOf_singleton (pair : Nat × α) (i : Nat) :
    rowOf [pair] i = if i = pair.1 then [pair.2] else [] := by
  unfold rowOf
  by_cases h : i = pair.1
  · simp [h]
  · simp [h, Ne.symm h]

theorem mem_rowOf {a : α} : a ∈ rowOf pairs i ↔ (i, a) ∈ pairs := by
  unfold rowOf
  simp only [List.mem_map, List.mem_filter, decide_eq_true_eq]
  constructor
  · rintro ⟨⟨_, _⟩, ⟨hmem, rfl⟩, rfl⟩
    exact hmem
  · exact fun h => ⟨(i, a), ⟨h, rfl⟩, rfl⟩

theorem nodup_rowOf (h : pairs.Nodup) (i : Nat) : (rowOf pairs i).Nodup := by
  refine List.Nodup.map_on (fun a ha b hb heq => ?_) (h.filter _)
  have hfirst := of_decide_eq_true (List.mem_filter.1 ha).2
  have hsecond := of_decide_eq_true (List.mem_filter.1 hb).2
  exact Prod.ext (hfirst.trans hsecond.symm) heq

/-- Writing behind the entries of a row that is filled in part. -/
theorem padded_set {blank a : α} {size : Nat} {row : List α} (h : row.length < size) :
    (padded blank size row).set row.length a = padded blank size (row ++ [a]) := by
  obtain ⟨more, hmore⟩ : ∃ more, size - row.length = more + 1 := ⟨size - row.length - 1, by omega⟩
  have hless : size - (row ++ [a]).length = more := by
    rw [List.length_append, List.length_singleton]
    omega
  unfold padded
  rw [hmore, hless, List.set_append_right _ _ (Nat.le_refl _), Nat.sub_self, List.replicate_succ,
    List.set_cons_zero, List.append_assoc]
  rfl

theorem length_padded {blank : α} {size : Nat} {row : List α} (h : row.length ≤ size) :
    (padded blank size row).length = size := by
  unfold padded
  rw [List.length_append, List.length_replicate]
  omega

theorem getElem?_map_range {β : Type} (f : Nat → β) (n j : Nat) :
    ((List.range n).map f)[j]? = if j < n then some (f j) else none := by
  rw [List.getElem?_map]
  split
  · next h => rw [List.getElem?_range h, Option.map_some]
  · next h => rw [List.getElem?_eq_none (by rw [List.length_range]; omega), Option.map_none]

theorem modify_map_range {β : Type} (f : Nat → β) (g : β → β) (n i : Nat) :
    ((List.range n).map f).modify i g = (List.range n).map fun j => if j = i then g (f j) else f j := by
  refine List.ext_getElem? fun j => ?_
  rw [List.getElem?_modify, getElem?_map_range, getElem?_map_range]
  by_cases h : i = j
  · subst h
    simp [apply_ite (Option.map g)]
  · simp [h, Ne.symm h]

theorem set_map_range {β : Type} (f : Nat → β) (n i : Nat) (b : β) :
    ((List.range n).map f).set i b = (List.range n).map fun j => if j = i then b else f j := by
  have hset : ((List.range n).map f).set i b = ((List.range n).map f).modify i fun _ => b := by
    refine List.ext_getElem? fun j => ?_
    rw [List.getElem?_set', List.getElem?_modify]
    split <;> simp [Function.const_def, Function.comp_def]
  rw [hset, modify_map_range]

/-- The counting pass counts the rows. -/
theorem count_rows (pairs : List (Nat × α)) (n : Nat) :
    pairs.foldl (fun counts pair => counts.modify pair.1 (· + 1)) (List.replicate n 0) =
      (List.range n).map fun i => (rowOf pairs i).length := by
  induction pairs using List.reverseRecOn with
  | nil => simp
  | append_singleton pairs pair ih =>
    rw [List.foldl_append, ih, List.foldl_cons, List.foldl_nil, modify_map_range]
    refine List.map_congr_left fun i _ => ?_
    rw [rowOf_append, rowOf_singleton]
    split <;> simp

theorem sum_modify {counts : List Nat} {i : Nat} (h : i < counts.length) :
    (counts.modify i (· + 1)).sum = counts.sum + 1 := by
  induction counts generalizing i with
  | nil => simp at h
  | cons count counts ih =>
    cases i with
    | zero =>
      rw [List.modify_zero_cons, List.sum_cons, List.sum_cons]
      omega
    | succ i =>
      rw [List.modify_succ_cons, List.sum_cons, List.sum_cons, ih (by simpa using h)]
      omega

/-- Every pair is in one of the rows. -/
theorem sum_rows (h : ∀ pair ∈ pairs, pair.1 < n) :
    ((List.range n).map fun i => (rowOf pairs i).length).sum = pairs.length := by
  rw [← count_rows]
  induction pairs using List.reverseRecOn with
  | nil => simp
  | append_singleton pairs pair ih =>
    rw [List.forall_mem_append, List.forall_mem_singleton] at h
    rw [List.foldl_append, List.foldl_cons, List.foldl_nil, sum_modify, ih h.1, List.length_append,
      List.length_singleton]
    rw [count_rows, List.length_map, List.length_range]
    exact h.2

/-- The rows, in order of their number. -/
def rowsOf (n : Nat) (pairs : List (Nat × α)) : List (List α) := (List.range n).map (rowOf pairs)

/-- The rows of a list of pairs while only some of the pairs are placed. -/
def filled (blank : α) (n : Nat) (pairs placed : List (Nat × α)) : List (List α) :=
  (List.range n).map fun i => padded blank (rowOf pairs i).length (rowOf placed i)

variable {blank : α} {placed rest : List (Nat × α)}

theorem flatten_filled_nil (h : ∀ pair ∈ pairs, pair.1 < n) :
    (filled blank n pairs []).flatten = List.replicate pairs.length blank := by
  refine List.eq_replicate_iff.2 ⟨?_, fun a ha => ?_⟩
  · rw [List.length_flatten, filled, List.map_map, ← sum_rows h]
    refine congrArg List.sum (List.map_congr_left fun i _ => ?_)
    exact length_padded (Nat.zero_le _)
  · obtain ⟨row, hrow, ha⟩ := List.mem_flatten.1 ha
    obtain ⟨i, -, rfl⟩ := List.mem_map.1 hrow
    rw [padded, rowOf_nil, List.nil_append] at ha
    exact List.eq_of_mem_replicate ha

theorem filled_self (blank : α) (n : Nat) (pairs : List (Nat × α)) :
    filled blank n pairs pairs = rowsOf n pairs := by
  refine List.map_congr_left fun i _ => ?_
  rw [padded, Nat.sub_self, List.replicate_zero, List.append_nil]

theorem start_filled (blank : α) (n : Nat) (h : pairs = placed ++ rest) :
    start (filled blank n pairs placed) = start (rowsOf n pairs) := by
  funext i
  unfold start filled rowsOf
  rw [List.map_map, List.map_map]
  refine congrArg (fun counts : List Nat => (counts.take i).sum) (List.map_congr_left fun j _ => ?_)
  refine length_padded ?_
  rw [h, rowOf_append, List.length_append]
  exact Nat.le_add_right ..

/-- One pair is placed: behind the entries of its row. -/
theorem set_filled {pair : Nat × α} (h : pairs = placed ++ pair :: rest) (hpair : pair.1 < n) :
    (filled blank n pairs placed).flatten.set
        (start (rowsOf n pairs) pair.1 + (rowOf placed pair.1).length) pair.2 =
      (filled blank n pairs (placed ++ [pair])).flatten := by
  have hless : (rowOf placed pair.1).length < (rowOf pairs pair.1).length := by
    rw [h, ← List.singleton_append, rowOf_append, rowOf_append, rowOf_singleton, if_pos rfl,
      List.length_append, List.length_append, List.length_singleton]
    omega
  have hlength : pair.1 < (filled blank n pairs placed).length := by
    rwa [filled, List.length_map, List.length_range]
  have hrow : (filled blank n pairs placed)[pair.1] =
      padded blank (rowOf pairs pair.1).length (rowOf placed pair.1) := by
    simp [filled]
  rw [← start_filled blank n h, set_flatten hlength (by rw [hrow, length_padded (Nat.le_of_lt hless)]; exact hless),
    hrow, padded_set hless]
  refine congrArg List.flatten ?_
  unfold filled
  rw [set_map_range]
  refine List.map_congr_left fun i _ => ?_
  rw [rowOf_append, rowOf_singleton]
  split
  · next heq => rw [heq]
  · rw [List.append_nil]

end Filling

end PackedRows
