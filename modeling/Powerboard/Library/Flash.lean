import Mathlib.Data.List.Basic
import Mathlib.Logic.Function.Basic
import Mathlib.Tactic

/-!
# Flash memory

A page of flash memory, over arbitrary addresses and cells: it is erased as a whole, and a cell can
be programmed once after that. Each operation is atomic, and a power loss cuts a sequence of
operations after any number of them.

`cell_after_crash` says what a cell holds after a power loss, from its place in the sequence, and
`getElem?_flatten` finds that place when the sequence is made of blocks.
-/

namespace Powerboard.Flash

variable {A V α : Type}

/-- An operation on the page. -/
inductive Operation (A V : Type)
  | erasePage
  | program (address : A) (value : V)
  deriving DecidableEq

/-- The operations that program these cells one after the other. -/
def programs (cells : List (A × V)) : List (Operation A V) :=
  cells.map fun cell => .program cell.1 cell.2

@[simp] lemma length_programs (cells : List (A × V)) : (programs cells).length = cells.length :=
  List.length_map _

lemma erasePage_not_mem_programs (cells : List (A × V)) : .erasePage ∉ programs cells := by
  simp [programs]

lemma take_erasePage (cells : List (A × V)) (k : ℕ) :
    (Operation.erasePage :: programs cells).take (k + 1) = .erasePage :: programs (cells.take k) := by
  rw [List.take_succ_cons, programs, programs, List.map_take]

section Run
variable [DecidableEq A] [DecidableEq V] (erased : V)

/-- The page after an operation. A cell that is not erased cannot be programmed. -/
def apply (m : A → V) : Operation A V → A → V
  | .erasePage => fun _ => erased
  | .program address value =>
    if m address = erased then Function.update m address value else m

/-- The page after a sequence of operations. -/
def run (m : A → V) (operations : List (Operation A V)) : A → V := operations.foldl (apply erased) m

variable {erased} {m : A → V} {cells : List (A × V)} {a : A} {v : V} {i : ℕ}

/-- Programming leaves the other cells. -/
lemma run_programs_of_not_mem (h : a ∉ cells.map Prod.fst) :
    run erased m (programs cells) a = m a := by
  induction cells generalizing m with
  | nil => rfl
  | cons cell cells ih =>
    rw [List.map_cons, List.mem_cons, not_or] at h
    show run erased (apply erased m (.program cell.1 cell.2)) (programs cells) a = m a
    rw [ih h.2]
    simp only [apply]
    split
    · exact Function.update_of_ne h.1 _ _
    · rfl

/-- An erased cell that is programmed once holds its value. -/
lemma run_programs_getElem (hnodup : (cells.map Prod.fst).Nodup)
    (herased : ∀ cell ∈ cells, m cell.1 = erased) (h : cells[i]? = some (a, v)) :
    run erased m (programs cells) a = v := by
  induction cells generalizing m i with
  | nil => simp at h
  | cons cell cells ih =>
    rw [List.map_cons, List.nodup_cons] at hnodup
    have hcell : m cell.1 = erased := herased cell List.mem_cons_self
    show run erased (apply erased m (.program cell.1 cell.2)) (programs cells) a = v
    rw [apply, if_pos hcell]
    cases i with
    | zero =>
      obtain rfl : cell = (a, v) := by simpa using h
      rw [run_programs_of_not_mem hnodup.1]
      exact Function.update_self _ _ _
    | succ i =>
      rw [List.getElem?_cons_succ] at h
      apply ih hnodup.2 _ h
      intro cell' hcell'
      rw [Function.update_of_ne]
      · exact herased cell' (List.mem_cons_of_mem _ hcell')
      · intro heq
        exact hnodup.1 (heq ▸ List.mem_map_of_mem hcell')

omit [DecidableEq A] [DecidableEq V] in
/-- An address that is programmed once has one place in the sequence. -/
lemma place_unique (hnodup : (cells.map Prod.fst).Nodup) {j : ℕ} {w : V}
    (hi : cells[i]? = some (a, v)) (hj : cells[j]? = some (a, w)) : i = j := by
  obtain ⟨hilt, hi⟩ := List.getElem?_eq_some_iff.mp hi
  obtain ⟨hjlt, hj⟩ := List.getElem?_eq_some_iff.mp hj
  have hi' : i < (cells.map Prod.fst).length := by rwa [List.length_map]
  have hj' : j < (cells.map Prod.fst).length := by rwa [List.length_map]
  have haddress : (cells.map Prod.fst)[i] = (cells.map Prod.fst)[j] := by
    rw [List.getElem_map, List.getElem_map, hi, hj]
  exact hnodup.getElem_inj_iff.mp haddress

/-- After a power loss, with at least the erasure done, a cell holds its value if its place in the
sequence was reached. -/
theorem cell_after_crash (hnodup : (cells.map Prod.fst).Nodup) (h : cells[i]? = some (a, v))
    (m : A → V) (k : ℕ) :
    run erased m ((.erasePage :: programs cells).take (k + 1)) a = if i < k then v else erased := by
  rw [take_erasePage]
  show run erased (fun _ => erased) (programs (cells.take k)) a = _
  have hnodup' : ((cells.take k).map Prod.fst).Nodup := by
    rw [List.map_take]
    exact hnodup.sublist (List.take_sublist _ _)
  split
  · rename_i hik
    apply run_programs_getElem (i := i) hnodup' (fun _ _ => rfl)
    rw [List.getElem?_take_of_lt hik, h]
  · rename_i hik
    apply run_programs_of_not_mem
    intro hmem
    -- the address is in the sequence only once, and too late
    obtain ⟨j, hj⟩ := List.mem_iff_getElem?.mp hmem
    have hjk : j < k := by
      have hlt := (List.getElem?_eq_some_iff.mp hj).1
      rw [List.length_map, List.length_take] at hlt
      omega
    have hi : (cells.map Prod.fst)[i]? = some a := by
      rw [List.getElem?_map, h]
      rfl
    rw [List.map_take, List.getElem?_take_of_lt hjk] at hj
    apply List.nodup_iff_getElem?_ne_getElem?.mp hnodup j i (by omega)
    · exact (List.getElem?_eq_some_iff.mp hi).1
    · rw [hj, hi]

end Run

/-! ## Blocks -/

/-- The number of elements before a block. -/
def offset (blocks : List (List α)) (i : ℕ) : ℕ := ((blocks.take i).map List.length).sum

@[simp] lemma offset_zero (blocks : List (List α)) : offset blocks 0 = 0 := rfl

lemma offset_cons_succ (block : List α) (blocks : List (List α)) (i : ℕ) :
    offset (block :: blocks) (i + 1) = block.length + offset blocks i := by
  simp [offset]

lemma offset_succ {blocks : List (List α)} {i : ℕ} {block : List α} (h : blocks[i]? = some block) :
    offset blocks (i + 1) = offset blocks i + block.length := by
  unfold offset
  rw [List.take_add_one, h]
  simp

/-- The elements of a block follow those of the blocks before it. -/
theorem getElem?_flatten {blocks : List (List α)} {i j : ℕ} {block : List α}
    (h : blocks[i]? = some block) (hj : j < block.length) :
    blocks.flatten[offset blocks i + j]? = block[j]? := by
  induction blocks generalizing i with
  | nil => simp at h
  | cons first blocks ih =>
    rw [List.flatten_cons]
    cases i with
    | zero =>
      obtain rfl : first = block := by simpa using h
      rw [offset_zero, Nat.zero_add, List.getElem?_append_left hj]
    | succ i =>
      rw [List.getElem?_cons_succ] at h
      rw [offset_cons_succ, Nat.add_assoc, List.getElem?_append_right (Nat.le_add_right _ _),
        Nat.add_sub_cancel_left, ih h]

end Powerboard.Flash
