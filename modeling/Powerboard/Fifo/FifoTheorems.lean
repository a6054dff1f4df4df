import Powerboard.Fifo.Fifo
import Powerboard.Library.RingBuffer

/-!
# The generic FIFO is a bounded queue, as far as 8 bits reach

The ring and the counter have 16 bits and hold the queue for every capacity. `_peek` computes the
place of an element and `_getCount` the number of elements with 8 bits.
-/

namespace Powerboard.Fifo

open Machine RingBuffer

variable {α : Type} {c : Capacity} {handle : FifoHandle α c} {q : BoundedQueue α c}

/-! ## The queue in the handle -/

/-- The ring between `start` and `end` holds the queue. -/
structure Holds (handle : FifoHandle α c) (q : BoundedQueue α c) : Prop where
  start_lt : handle.start.toNat < c.fifoCnt
  endIndex_eq : handle.endIndex.toNat = (handle.start.toNat + handle.count.toNat) % c.fifoCnt
  content : window c.fifoCnt (fun i => handle.data[i]?) handle.start.toNat handle.count.toNat =
    q.elements.map some

lemma Holds.count_eq (h : Holds handle q) : handle.count.toNat = q.elements.length := by
  have hlength := congrArg List.length h.content
  rwa [length_window, List.length_map] at hlength

lemma holds_initialized (handle : FifoHandle α c) : Holds handle.initialized .empty where
  start_lt := c.pos
  endIndex_eq := (Nat.zero_mod _).symm
  content := rfl

/-- The place of a stored element. -/
lemma Holds.getElem? (h : Holds handle q) {i : ℕ} (hi : i < handle.count.toNat) :
    handle.data[(handle.start.toNat + i) % c.fifoCnt]? = q.elements[i]? := by
  have hentry := congrArg (·[i]?) h.content
  simp only [getElem?_window _ _ hi, List.getElem?_map] at hentry
  have hi' : i < q.elements.length := by rwa [← h.count_eq]
  rw [List.getElem?_eq_getElem hi', Option.map_some, Option.some.injEq] at hentry
  rw [hentry, List.getElem?_eq_getElem hi']

/-- An index of the ring fits 16 bits. -/
lemma toNat_ofNat_mod (c : Capacity) (n : ℕ) :
    (UInt16.ofNat (n % c.fifoCnt)).toNat = n % c.fifoCnt := by
  have hlt : n % c.fifoCnt < c.fifoCnt := Nat.mod_lt _ c.pos
  have hcap := c.lt
  rw [UInt16.toNat_ofNat']
  exact Nat.mod_eq_of_lt (by omega)

lemma data_set (v : Vector α c.fifoCnt) {i : ℕ} (hi : i < c.fifoCnt) (x : α) :
    (fun k => (v.set i x)[k]?) = Function.update (fun k => v[k]?) i (some x) := by
  funext k
  rw [Vector.getElem?_set]
  by_cases heq : i = k
  · subst heq
    simp
  · rw [if_neg heq, Function.update_of_ne (Ne.symm heq)]

/-! ## The calls -/

/-- An element is stored behind the last one, if there is room. -/
lemma Holds.put (h : Holds handle q) (x : α) :
    ∃ handle', fifoCall handle (.put x) = some (handle', (q.call (.put x)).2) ∧
      Holds handle' (q.call (.put x)).1 := by
  have hcount := h.count_eq
  unfold fifoCall Fifo.put BoundedQueue.call
  dsimp only
  by_cases hroom : q.elements.length < c.fifoCnt
  · have hroom' : handle.count.toNat < c.fifoCnt := by omega
    have hend : handle.endIndex.toNat < c.fifoCnt := by
      rw [h.endIndex_eq]
      exact Nat.mod_lt _ c.pos
    rw [dif_pos hroom, if_pos hroom', dif_pos hend]
    refine ⟨_, rfl, ?_⟩
    have hcap := c.lt
    have hcount' : (handle.count + 1).toNat = handle.count.toNat + 1 := by
      rw [UInt16.toNat_add]
      exact Nat.mod_eq_of_lt (by simp; omega)
    exact {
      start_lt := h.start_lt
      endIndex_eq := by
        show (UInt16.ofNat ((handle.endIndex.toNat + 1) % c.fifoCnt)).toNat =
          (handle.start.toNat + (handle.count + 1).toNat) % c.fifoCnt
        rw [toNat_ofNat_mod, h.endIndex_eq, hcount', Nat.mod_add_mod, Nat.add_assoc]
      content := by
        show window c.fifoCnt (fun i => (handle.data.set handle.endIndex.toNat x)[i]?)
          handle.start.toNat (handle.count + 1).toNat = (q.elements ++ [x]).map some
        rw [hcount', data_set _ hend, h.endIndex_eq, window_push _ _ _ _ hroom', h.content,
          List.map_append, List.map_singleton] }
  · rw [dif_neg hroom, if_neg (by omega)]
    exact ⟨handle, rfl, h⟩

/-- The oldest element is removed, if there is one. -/
lemma Holds.get (h : Holds handle q) (o_data : α) :
    ∃ handle', fifoCall handle (.get o_data) = some (handle', (q.call (.get o_data)).2) ∧
      Holds handle' (q.call (.get o_data)).1 := by
  have hcount := h.count_eq
  unfold fifoCall Fifo.get BoundedQueue.call
  dsimp only
  cases helements : q.elements with
  | nil =>
    rw [helements, List.length_nil] at hcount
    rw [if_neg (by omega)]
    exact ⟨handle, rfl, h⟩
  | cons oldest rest =>
    rw [helements, List.length_cons] at hcount
    have hcontent := h.content
    rw [helements, hcount, window_pop, Nat.mod_eq_of_lt h.start_lt, List.map_cons,
      List.cons.injEq] at hcontent
    rw [if_pos (by omega), hcontent.1]
    refine ⟨_, rfl, ?_⟩
    have hcount' : (handle.count - 1).toNat = rest.length := by
      rw [UInt16.toNat_sub_of_le _ _ (UInt16.le_iff_toNat_le.mpr (by simp; omega)), hcount]
      rfl
    exact {
      start_lt := by
        rw [toNat_ofNat_mod]
        exact Nat.mod_lt _ c.pos
      endIndex_eq := by
        rw [toNat_ofNat_mod, hcount', h.endIndex_eq, hcount, Nat.mod_add_mod]
        congr 1
        omega
      content := by
        rw [toNat_ofNat_mod, hcount', hcontent.2]
        simp [BoundedQueue.tail, helements] }

/-- A stored element fits if its place and the one that 8 bits give of it hold the same. -/
lemma fits_peek_iff {i_index : UInt8} {o_data : α} (hstored : i_index.toNat < handle.count.toNat) :
    Fits handle (.peek i_index o_data) ↔
      handle.data[(handle.start.toNat + i_index.toNat) % c.fifoCnt % 256]? =
        handle.data[(handle.start.toNat + i_index.toNat) % c.fifoCnt]? := by
  constructor
  · intro hfits
    rcases hfits hstored with hsmall | heq
    · rw [Nat.mod_eq_of_lt hsmall]
    · exact heq
  · intro heq _
    exact .inr heq

/-- What `_peek` reads for a stored element. -/
lemma fifoCall_peek_of_stored {i_index : UInt8} (o_data : α) {stored : α}
    (hstored : i_index.toNat < handle.count.toNat) (hcap : i_index.toNat < c.fifoCnt)
    (hread : handle.data[(handle.start.toNat + i_index.toNat) % c.fifoCnt % 256]? = some stored) :
    fifoCall handle (.peek i_index o_data) = some (handle, .peek .okay stored) := by
  unfold fifoCall Fifo.peek
  dsimp only
  rw [if_neg (not_le.mpr hcap), if_pos hstored, UInt8.toNat_ofNat', hread]
  rfl

/-- `_peek` keeps the handle, and returns what it should if its index fits 8 bits or does not
matter. -/
lemma Holds.peek (h : Holds handle q) (i_index : UInt8) (o_data : α) :
    ∃ result, fifoCall handle (.peek i_index o_data) = some (handle, result) ∧
      Holds handle (q.call (.peek i_index o_data)).1 ∧
      (result = (q.call (.peek i_index o_data)).2 ↔ Fits handle (.peek i_index o_data)) := by
  have hcount := h.count_eq
  have hlength := q.length_le
  by_cases hstored : i_index.toNat < handle.count.toNat
  · have hread : (handle.start.toNat + i_index.toNat) % c.fifoCnt % 256 < c.fifoCnt :=
      (Nat.mod_le _ _).trans_lt (Nat.mod_lt _ c.pos)
    have hget : handle.data[(handle.start.toNat + i_index.toNat) % c.fifoCnt % 256]? =
        some handle.data[(handle.start.toNat + i_index.toNat) % c.fifoCnt % 256] :=
      Vector.getElem?_eq_getElem hread
    have hlt : i_index.toNat < q.elements.length := by omega
    have helement : q.elements[i_index.toNat]? = some q.elements[i_index.toNat] :=
      List.getElem?_eq_getElem hlt
    refine ⟨_, fifoCall_peek_of_stored o_data hstored (by omega) hget, ?_⟩
    rw [fits_peek_iff hstored, h.getElem? hstored, hget, BoundedQueue.call, helement,
      Result.peek.injEq, Option.some.injEq]
    exact ⟨h, and_iff_right rfl⟩
  · have hnone : q.elements[i_index.toNat]? = none := List.getElem?_eq_none (by omega)
    unfold fifoCall Fifo.peek BoundedQueue.call
    dsimp only
    rw [hnone, if_neg hstored]
    by_cases hcap : c.fifoCnt ≤ i_index.toNat
    · rw [if_pos hcap, if_neg (not_lt.mpr hcap)]
      exact ⟨_, rfl, h, iff_of_true rfl fun hlt => absurd hlt hstored⟩
    · rw [if_neg hcap, if_pos (not_le.mp hcap)]
      exact ⟨_, rfl, h, iff_of_true rfl fun hlt => absurd hlt hstored⟩

/-- `_getCount` is the number of stored elements as far as it fits 8 bits. -/
lemma Holds.getCount (h : Holds handle q) :
    (getCount (some handle)).toNat = q.elements.length ↔ Fits handle .getCount := by
  rw [← h.count_eq]
  show handle.count.toUInt8.toNat = handle.count.toNat ↔ handle.count.toNat < 256
  rw [UInt16.toNat_toUInt8]
  exact ⟨fun heq => by omega, Nat.mod_eq_of_lt⟩

/-- One call of the FIFO and of the queue. -/
lemma fifoCall_agreesIf :
    AgreesIf (fifoCall (α := α) (c := c)) (fun q call => some (q.call call)) Holds Fits := by
  intro handle q call h
  cases call with
  | init =>
    exact ⟨_, _, _, _, rfl, rfl, holds_initialized handle, iff_of_true rfl trivial⟩
  | put i_data =>
    obtain ⟨handle', hcall, hholds⟩ := h.put i_data
    exact ⟨_, _, _, _, hcall, rfl, hholds, iff_of_true rfl trivial⟩
  | get o_data =>
    obtain ⟨handle', hcall, hholds⟩ := h.get o_data
    exact ⟨_, _, _, _, hcall, rfl, hholds, iff_of_true rfl trivial⟩
  | peek i_index o_data =>
    obtain ⟨result, hcall, hholds, hresult⟩ := h.peek i_index o_data
    exact ⟨_, _, _, _, hcall, rfl, hholds, hresult⟩
  | getCount =>
    refine ⟨_, _, _, _, rfl, rfl, h, ?_⟩
    rw [← h.getCount]
    exact Result.getCount.injEq _ _ ▸ Iff.rfl

/-! ## Every sequence of calls -/

/-- The calls after an init return what those of the queue return, exactly if every one of them
fits. -/
theorem fifo_eq_boundedQueue_iff (c : Capacity) (handle : FifoHandle α c)
    (cs : List (FifoCall α)) :
    ∃ handle' results queue expected,
      calls fifoCall handle.initialized cs = some (handle', results) ∧
      calls (fun q call => some (q.call call)) BoundedQueue.empty cs = some (queue, expected) ∧
      Holds handle' queue ∧
      (results = expected ↔ StepsMeet (callStep fifoCall) Fits handle.initialized cs) :=
  calls_eq_iff fifoCall_agreesIf (holds_initialized handle) cs

/-- A capacity that 8 bits do not reach. -/
def wideCapacity : Capacity := { fifoCnt := 257, pos := by decide, lt := by decide }

/-- Fill the FIFO, count, and look at the youngest element when the oldest is gone. -/
def wideCalls : List (FifoCall ℕ) :=
  (List.range 257).map .put ++ [.getCount, .get 0, .peek 255 0]

theorem fifo_ne_boundedQueue :
    let handle : FifoHandle ℕ wideCapacity :=
      { data := Vector.replicate 257 0, count := 0, start := 0, endIndex := 0 }
    let queue : BoundedQueue ℕ wideCapacity := .empty
    (calls fifoCall handle.initialized wideCalls).map (·.2.drop 257) =
        some [.getCount 1, .get .okay 0, .peek .okay 0] ∧
      (calls (fun q call => some (q.call call)) queue wideCalls).map (·.2.drop 257) =
        some [.getCount 257, .get .okay 0, .peek .okay 256] := by
  decide +kernel

/-! ## The capacities -/

lemma fits_of_capacity (hcap : c.fifoCnt < 256) (h : Holds handle q) (call : FifoCall α) :
    Fits handle call := by
  cases call with
  | init => exact trivial
  | put => exact trivial
  | get => exact trivial
  | peek i_index o_data =>
    intro _
    exact .inl ((Nat.mod_lt _ c.pos).trans hcap)
  | getCount =>
    have hle := q.length_le
    show handle.count.toNat < 256
    rw [h.count_eq]
    omega

/-- As many elements as there is room for can be stored. -/
lemma exec_put (handle : FifoHandle α c) (x : α) {n : ℕ} (hn : n ≤ c.fifoCnt) :
    ∃ handle', exec (callStep fifoCall) handle.initialized (List.replicate n (.put x)) =
      some handle' ∧ ∃ q, Holds handle' q ∧ q.elements.length = n := by
  induction n with
  | zero => exact ⟨_, rfl, _, holds_initialized handle, rfl⟩
  | succ n ih =>
    obtain ⟨u, hu, q, hq, hlength⟩ := ih (by omega)
    obtain ⟨v, hv, hholds⟩ := hq.put x
    refine ⟨v, ?_, _, hholds, ?_⟩
    · rw [List.replicate_succ', exec_append_eq_some]
      refine ⟨u, hu, ?_⟩
      rw [exec_cons_eq_some]
      exact ⟨v, callStep_eq_some.mpr ⟨_, hv⟩, rfl⟩
    · rw [BoundedQueue.call, dif_pos (show q.elements.length < c.fifoCnt by omega)]
      show (q.elements ++ [x]).length = n + 1
      rw [List.length_append, hlength, List.length_singleton]

/-- The FIFO is a bounded queue for the capacities up to 255, and only for these. -/
theorem forall_calls_fit_iff (c : Capacity) (handle : FifoHandle α c) (x : α) :
    (∀ cs, StepsMeet (callStep fifoCall) Fits handle.initialized cs) ↔ c.fifoCnt < 256 := by
  constructor
  · intro h
    by_contra hcap
    obtain ⟨u, hu, q, hq, hlength⟩ := exec_put handle x (show 256 ≤ c.fifoCnt by omega)
    have hfits : u.count.toNat < 256 :=
      h (List.replicate 256 (.put x) ++ [.getCount]) _ .getCount [] u rfl hu
    rw [hq.count_eq, hlength] at hfits
    exact lt_irrefl _ hfits
  · intro hcap cs pre call post u heq hu
    obtain ⟨q, hq⟩ := fifoCall_agreesIf.statesMeet (holds_initialized handle) cs pre _ u heq hu
    exact fits_of_capacity hcap hq call

end Powerboard.Fifo
