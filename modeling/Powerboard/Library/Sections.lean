import Powerboard.Library.Machine

/-!
# Programs with critical sections

Code that shares data with the handlers that preempt it, and that brackets what must not be
preempted with `lock` and `unlock`, which nest. A program gives the operation at each of its
locations; each location carries the number of locks held there, and the operations respect it.

The machine of this file is what such a program is meant to be: an outermost section is one step,
and a handler comes in between two steps only. How the locks are made is for the machines that
refine this one.
-/

namespace Powerboard.Sections

open Powerboard

/-- What the code at a location does next, with the location after it. -/
inductive Op (D L : Type)
  | lock (next : L)
  | unlock (next : L)
  | work (f : D → D × L)
  | ret

/-- Code with nested sections. An `unlock` that is one too many leaves the depth at 0; a handler
returns with no lock held. -/
structure Program (D L : Type) where
  op : L → Op D L
  depth : L → ℕ
  depth_lock : ∀ l k, op l = .lock k → depth k = depth l + 1
  depth_unlock : ∀ l k, op l = .unlock k → depth k = depth l - 1
  depth_work : ∀ l f d, op l = .work f → depth (f d).2 = depth l
  depth_ret : ∀ l, op l = .ret → depth l = 0

/-- The shared data and the locations of the contexts, the running one first. -/
structure State (D L : Type) where
  data : D
  contexts : List L

inductive Action (L : Type)
  /-- the running context does one operation, with the outermost section it may open; the number
  bounds the operations of that section -/
  | step (fuel : ℕ)
  /-- a handler that begins at a location preempts the running context -/
  | interrupt (entry : L)

/-- The handler that an action lets in. -/
def Action.entry {L : Type} : Action L → Option L
  | .step _ => none
  | .interrupt entry => some entry

/-- The handlers that come in, in order. -/
def entries {L : Type} (as : List (Action L)) : List L := as.filterMap Action.entry

theorem entries_append {L : Type} (as bs : List (Action L)) :
    entries (as ++ bs) = entries as ++ entries bs :=
  List.filterMap_append

variable {D L : Type}

/-- One operation, on the data and the location of the context that runs. -/
def Program.operate (P : Program D L) (d : D) (l : L) : Option (D × L) :=
  match P.op l with
  | .lock k => some (d, k)
  | .unlock k => some (d, k)
  | .work f => some (f d)
  | .ret => none

/-- The operations up to the end of the outermost section. -/
def Program.finish (P : Program D L) : ℕ → D × L → Option (D × L)
  | 0, s => if P.depth s.2 = 0 then some s else none
  | fuel + 1, s =>
    if P.depth s.2 = 0 then some s else (P.operate s.1 s.2).bind (P.finish fuel)

/-- A step of the running context, or a handler that comes in. -/
def Program.step (P : Program D L) (s : State D L) : Action L → Option (State D L)
  | .step fuel =>
    match s.contexts with
    | [] => none
    | l :: rest =>
      match P.op l with
      | .ret => some { s with contexts := rest }
      | _ =>
        ((P.operate s.data l).bind (P.finish fuel)).map fun t =>
          { data := t.1, contexts := t.2 :: rest }
  | .interrupt entry =>
    if P.depth entry = 0 then some { s with contexts := entry :: s.contexts } else none

section Finish
variable {P : Program D L}

theorem finish_of_depth_eq_zero {s : D × L} (h : P.depth s.2 = 0) (fuel : ℕ) :
    P.finish fuel s = some s := by
  cases fuel <;> simp only [Program.finish, h, if_true]

theorem finish_succ {s : D × L} (h : P.depth s.2 ≠ 0) (fuel : ℕ) :
    P.finish (fuel + 1) s = (P.operate s.1 s.2).bind (P.finish fuel) := by
  simp only [Program.finish, h, if_false]

/-- A section that ended, ended outside. -/
theorem depth_of_finish {fuel : ℕ} {s t : D × L} (h : P.finish fuel s = some t) :
    P.depth t.2 = 0 := by
  induction fuel generalizing s with
  | zero =>
    by_cases hs : P.depth s.2 = 0
    · rw [finish_of_depth_eq_zero hs, Option.some.injEq] at h
      rwa [← h]
    · simp [Program.finish, hs] at h
  | succ fuel ih =>
    by_cases hs : P.depth s.2 = 0
    · rw [finish_of_depth_eq_zero hs, Option.some.injEq] at h
      rwa [← h]
    · rw [finish_succ hs, Option.bind_eq_some_iff] at h
      obtain ⟨u, -, hu⟩ := h
      exact ih hu

end Finish

/-! ## Calls whose bodies are sections -/

/-- The bodies of some functions `C`: `B` is where a body is, with its local variables, and `none`
is its end. -/
structure Bodies (D B C : Type) where
  start : C → B
  next : B → D → D × Option B

/-- Where code is that calls the functions of a script, one after the other. -/
inductive CallLoc (B C : Type)
  | script (calls : List C)
  | body (b : B) (calls : List C)
  | leave (calls : List C)

/-- The calls that are still to be made. -/
def CallLoc.remaining {B C : Type} : CallLoc B C → List C
  | .script calls | .body _ calls | .leave calls => calls

/-- Where the code goes on after a step of a body. -/
def CallLoc.after {B C : Type} (calls : List C) : Option B → CallLoc B C
  | some b => .body b calls
  | none => .leave calls

section Calls
variable {B C : Type}

def callOp (F : Bodies D B C) : CallLoc B C → Op D (CallLoc B C)
  | .script [] => .ret
  | .script (c :: calls) => .lock (.body (F.start c) calls)
  | .body b calls => .work fun d => ((F.next b d).1, .after calls (F.next b d).2)
  | .leave calls => .unlock (.script calls)

def callDepth : CallLoc B C → ℕ
  | .script _ => 0
  | .body _ _ | .leave _ => 1

theorem callDepth_after (calls : List C) (b : Option B) : callDepth (.after calls b) = 1 := by
  cases b <;> rfl

theorem callDepth_lock (F : Bodies D B C) (l k : CallLoc B C) (h : callOp F l = .lock k) :
    callDepth k = callDepth l + 1 := by
  cases l with
  | script calls =>
    cases calls with
    | nil => simp [callOp] at h
    | cons c calls =>
      simp only [callOp, Op.lock.injEq] at h
      rw [← h]
      rfl
  | body b calls => simp [callOp] at h
  | leave calls => simp [callOp] at h

theorem callDepth_unlock (F : Bodies D B C) (l k : CallLoc B C) (h : callOp F l = .unlock k) :
    callDepth k = callDepth l - 1 := by
  cases l with
  | script calls => cases calls <;> simp [callOp] at h
  | body b calls => simp [callOp] at h
  | leave calls =>
    simp only [callOp, Op.unlock.injEq] at h
    rw [← h]
    rfl

theorem callDepth_work (F : Bodies D B C) (l : CallLoc B C) (f : D → D × CallLoc B C) (d : D)
    (h : callOp F l = .work f) : callDepth (f d).2 = callDepth l := by
  cases l with
  | script calls => cases calls <;> simp [callOp] at h
  | body b calls =>
    simp only [callOp, Op.work.injEq] at h
    rw [← h]
    exact callDepth_after calls _
  | leave calls => simp [callOp] at h

theorem callDepth_ret (F : Bodies D B C) (l : CallLoc B C) (h : callOp F l = .ret) :
    callDepth l = 0 := by
  cases l with
  | script calls => rfl
  | body b calls => simp [callOp] at h
  | leave calls => simp [callOp] at h

/-- The program that locks, runs a body and unlocks, for every call of the script. -/
def callProgram (F : Bodies D B C) : Program D (CallLoc B C) where
  op := callOp F
  depth := callDepth
  depth_lock := callDepth_lock F
  depth_unlock := callDepth_unlock F
  depth_work := callDepth_work F
  depth_ret := callDepth_ret F

/-- A body runs to its end, alone. -/
inductive Runs (F : Bodies D B C) : B → D → D → Prop
  | last {b d} (h : (F.next b d).2 = none) : Runs F b d (F.next b d).1
  | more {b b' d e} (h : (F.next b d).2 = some b') (hrest : Runs F b' (F.next b d).1 e) :
    Runs F b d e

/-- The calls are made one after the other, each alone. -/
inductive Sequential (F : Bodies D B C) : D → List C → D → Prop
  | nil (d) : Sequential F d [] d
  | snoc {d e e' calls c} (h : Sequential F d calls e) (hc : Runs F (F.start c) e e') :
    Sequential F d (calls ++ [c]) e'

/-- The body that reads the data and then writes back what an update makes of it. -/
def readModifyWrite (update : C → D → D) : Bodies D (C × Option D) C where
  start c := (c, none)
  next b d := b.2.elim (d, some (b.1, some d)) fun r => (update b.1 r, none)

variable {F : Bodies D B C}

theorem finish_leave {fuel : ℕ} {d : D} {calls : List C} {t : D × CallLoc B C}
    (h : (callProgram F).finish fuel (d, .leave calls) = some t) : t = (d, .script calls) := by
  cases fuel with
  | zero => simp [Program.finish, callProgram, callDepth] at h
  | succ fuel =>
    rw [finish_succ (by exact one_ne_zero)] at h
    simp only [Program.operate, callProgram, callOp, Option.bind_some] at h
    rw [finish_of_depth_eq_zero (by rfl), Option.some.injEq] at h
    exact h.symm

/-- A body that ends has run alone, and the script goes on. -/
theorem finish_body {fuel : ℕ} {b : B} {d : D} {calls : List C} {t : D × CallLoc B C}
    (h : (callProgram F).finish fuel (d, .body b calls) = some t) :
    t.2 = .script calls ∧ Runs F b d t.1 := by
  induction fuel generalizing b d with
  | zero => simp [Program.finish, callProgram, callDepth] at h
  | succ fuel ih =>
    rw [finish_succ (by exact one_ne_zero)] at h
    simp only [Program.operate, callProgram, callOp, Option.bind_some] at h
    cases hnext : (F.next b d).2 with
    | none =>
      rw [hnext] at h
      rw [finish_leave h]
      exact ⟨rfl, .last hnext⟩
    | some b' =>
      rw [hnext] at h
      obtain ⟨hscript, hrest⟩ := ih h
      exact ⟨hscript, .more hnext hrest⟩

theorem sequential_singleton {c : C} {d e : D} (h : Runs F (F.start c) d e) :
    Sequential F d [c] e :=
  .snoc (.nil d) h

/-- A script at whose turn it is, in the machine of sections. -/
def AtScript (l : CallLoc B C) : Prop := l = .script l.remaining

theorem atScript_iff {l : CallLoc B C} : AtScript l ↔ callDepth l = 0 := by
  cases l <;> simp [AtScript, CallLoc.remaining, callDepth]

/-- The calls made so far, one after the other and each alone, together with those still to be made
are those of the scripts, each once. -/
def Accounted (F : Bodies D B C) (d : D) (scripts : List (CallLoc B C)) (s : State D (CallLoc B C)) :
    Prop :=
  (∀ l ∈ s.contexts, callDepth l = 0) ∧
  ∃ done, Sequential F d done s.data ∧
    (done ++ s.contexts.flatMap CallLoc.remaining).Perm (scripts.flatMap CallLoc.remaining)

theorem accounted_step {d : D} {scripts : List (CallLoc B C)} {s t : State D (CallLoc B C)}
    {a : Action (CallLoc B C)} (h : Accounted F d scripts s)
    (ht : (callProgram F).step s a = some t) :
    Accounted F d (scripts ++ entries [a]) t := by
  obtain ⟨hzero, done, hdone, hperm⟩ := h
  cases a with
  | interrupt entry =>
    simp only [Program.step, Option.ite_none_right_eq_some, Option.some.injEq] at ht
    obtain ⟨hentry, rfl⟩ := ht
    refine ⟨List.forall_mem_cons.mpr ⟨hentry, hzero⟩, done, hdone, ?_⟩
    have hcalls : entries [Action.interrupt entry] = [entry] := rfl
    rw [hcalls, List.flatMap_append, List.flatMap_singleton, List.flatMap_cons]
    exact (List.perm_append_comm_assoc _ _ _).trans
      ((List.perm_append_comm).trans (hperm.append_right _))
  | step fuel =>
    have hcalls : entries [Action.step (L := CallLoc B C) fuel] = [] := rfl
    rw [hcalls, List.append_nil]
    cases hcontexts : s.contexts with
    | nil => simp [Program.step, hcontexts] at ht
    | cons l rest =>
      rw [hcontexts] at hzero hperm
      have hrest : ∀ k ∈ rest, callDepth k = 0 := fun k hk => hzero k (List.mem_cons_of_mem l hk)
      obtain hl := atScript_iff.mpr (hzero l List.mem_cons_self)
      cases hremaining : l.remaining with
      | nil =>
        rw [AtScript, hremaining] at hl
        subst hl
        simp only [Program.step, hcontexts, callProgram, callOp, Option.some.injEq] at ht
        subst ht
        exact ⟨hrest, done, hdone, hperm⟩
      | cons c calls =>
        rw [AtScript, hremaining] at hl
        subst hl
        simp only [Program.step, hcontexts, callProgram, callOp, Program.operate,
          Option.bind_some, Option.map_eq_some_iff] at ht
        obtain ⟨u, hu, rfl⟩ := ht
        obtain ⟨hscript, hruns⟩ := finish_body hu
        refine ⟨?_, done ++ [c], .snoc hdone hruns, ?_⟩
        · intro k hk
          rcases List.mem_cons.mp hk with rfl | hk
          · rw [hscript]
            rfl
          · exact hrest k hk
        · simpa [hscript, CallLoc.remaining, List.flatMap_cons] using hperm

theorem accounted_of_exec {d : D} {scripts : List (CallLoc B C)} {s t : State D (CallLoc B C)}
    {as : List (Action (CallLoc B C))} (h : Accounted F d scripts s)
    (ht : Machine.exec (callProgram F).step s as = some t) :
    Accounted F d (scripts ++ entries as) t := by
  induction as generalizing s scripts with
  | nil =>
    simp only [Machine.exec_nil, Option.some.injEq] at ht
    simpa [entries, ht] using h
  | cons a as ih =>
    obtain ⟨u, hu, ht⟩ := (Machine.exec_cons_eq_some _).mp ht
    have hrun := ih (accounted_step h hu) ht
    rwa [List.append_assoc, ← entries_append] at hrun

end Calls

end Powerboard.Sections
