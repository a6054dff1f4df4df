import Mathlib.Algebra.BigOperators.Group.List.Basic
import Mathlib.Tactic

/-!
# Byte stuffing

A code that marks frame borders with reserved symbols has to hide these symbols in its payload:
the sender puts an escape symbol before every reserved one, the receiver takes the symbol after an
escape as it is. Symbols are of any type; `ctl` says which are reserved and `esc` is the escape.

* `stuff` is the sender's side;
* `Stuffed w d` is the receiver's: `w` is a sequence of plain symbols and escape pairs (with any
  second symbol), and `d` is what is left of it when the escapes are removed.
-/

namespace Powerboard.Stuffing

variable {α : Type} {esc : α} {ctl : α → Prop}

/-- `w` is plain symbols and escape pairs, and removing the escapes leaves `d`. -/
inductive Stuffed (esc : α) (ctl : α → Prop) : List α → List α → Prop
  | nil : Stuffed esc ctl [] []
  | plain {x : α} {w d : List α} : ¬ ctl x → Stuffed esc ctl w d → Stuffed esc ctl (x :: w) (x :: d)
  | pair {x : α} {w d : List α} : Stuffed esc ctl w d → Stuffed esc ctl (esc :: x :: w) (x :: d)

theorem Stuffed.append {w w' d d' : List α} (h : Stuffed esc ctl w d) (h' : Stuffed esc ctl w' d') :
    Stuffed esc ctl (w ++ w') (d ++ d') := by
  induction h with
  | nil => exact h'
  | plain hx _ ih => exact .plain hx ih
  | pair _ ih => exact .pair ih

theorem stuffed_plain {x : α} (hx : ¬ ctl x) : Stuffed esc ctl [x] [x] := .plain hx .nil

theorem stuffed_pair (x : α) : Stuffed esc ctl [esc, x] [x] := .pair .nil

variable (esc ctl) [DecidablePred ctl]

/-- One payload symbol on the wire. -/
def stuffSymbol (x : α) : List α := if ctl x then [esc, x] else [x]

/-- A payload on the wire. -/
def stuff (d : List α) : List α := d.flatMap (stuffSymbol esc ctl)

@[simp] theorem stuff_nil : stuff esc ctl [] = [] := rfl

theorem stuff_append (d d' : List α) :
    stuff esc ctl (d ++ d') = stuff esc ctl d ++ stuff esc ctl d' := by
  simp [stuff]

theorem stuff_singleton (x : α) : stuff esc ctl [x] = stuffSymbol esc ctl x := by
  simp [stuff]

theorem stuffSymbol_of_ctl {x : α} (hx : ctl x) : stuffSymbol esc ctl x = [esc, x] := if_pos hx

theorem stuffSymbol_of_not_ctl {x : α} (hx : ¬ ctl x) : stuffSymbol esc ctl x = [x] := if_neg hx

theorem stuffed_stuffSymbol (x : α) : Stuffed esc ctl (stuffSymbol esc ctl x) [x] := by
  by_cases hx : ctl x
  · rw [stuffSymbol_of_ctl _ _ hx]
    exact stuffed_pair x
  · rw [stuffSymbol_of_not_ctl _ _ hx]
    exact stuffed_plain hx

/-- What the sender stuffs, the receiver unstuffs. -/
theorem stuffed_stuff (d : List α) : Stuffed esc ctl (stuff esc ctl d) d := by
  induction d with
  | nil => exact .nil
  | cons x d ih => exact (stuffed_stuffSymbol esc ctl x).append ih

end Powerboard.Stuffing
