import Powerboard.Library.Machine

/-!
# Programs of accesses to a device

A program makes a sequence of accesses to a device, which makes steps of its own at any time between
them. An access is done, is tried again as a loop that polls a flag does, or is one that the device
does not allow.

A proof outline puts a condition in front of each access, which the steps of the device keep. It is
made access by access and put together with `Outline.append` and `Outline.flatMap`. What it says holds
in every run (`Outline.exec`), and a program with an outline comes to its end when no access waits for
something that the device does not do (`Outline.completes`).
-/

namespace Powerboard.Devices

open Machine

variable {σ α β : Type}

/-- What comes of an access -/
inductive Access (σ : Type)
  | fault
  | again
  | done (s : σ)

structure Device (σ α : Type) where
  access : σ → α → Access σ
  /-- a step of its own -/
  tick : σ → Option σ

/-- Whose step it is -/
inductive Turn
  | program
  | device
  deriving DecidableEq

/-- The device, and the accesses that are still to be made -/
def step (d : Device σ α) (s : σ × List α) : Turn → Option (σ × List α)
  | .program =>
    match s.2 with
    | [] => none
    | a :: rest =>
      match d.access s.1 a with
      | .fault => none
      | .again => some s
      | .done t => some (t, rest)
  | .device => (d.tick s.1).map fun t => (t, s.2)

/-- The next access is one that the device does not allow. -/
def Faults (d : Device σ α) (s : σ × List α) : Prop :=
  ∃ a, s.2.head? = some a ∧ d.access s.1 a = .fault

/-- The device keeps the condition. -/
def Stable (d : Device σ α) (P : σ → Prop) : Prop := ∀ s t, P s → d.tick s = some t → P t

/-- An outline of a program from `P` to `Q`. All its conditions imply `I`. -/
inductive Outline (d : Device σ α) (I : σ → Prop) : (σ → Prop) → List α → (σ → Prop) → Prop
  | nil {P Q : σ → Prop} (hstable : Stable d P) (hI : ∀ s, P s → I s) (h : ∀ s, P s → Q s) :
      Outline d I P [] Q
  | cons {P Q R : σ → Prop} {a : α} {rest : List α} (hstable : Stable d P) (hI : ∀ s, P s → I s)
      (hallowed : ∀ s, P s → d.access s a ≠ .fault)
      (hdone : ∀ s t, P s → d.access s a = .done t → R t) (hrest : Outline d I R rest Q) :
      Outline d I P (a :: rest) Q

variable {d : Device σ α} {I P Q R : σ → Prop} {xs ys : List α} {s : σ}

/-! ## Putting outlines together -/

lemma Outline.stable (h : Outline d I P xs Q) : Stable d P := by
  cases h with
  | nil hstable => exact hstable
  | cons hstable => exact hstable

lemma Outline.implies (h : Outline d I P xs Q) : ∀ s, P s → I s := by
  cases h with
  | nil _ hI => exact hI
  | cons _ hI => exact hI

lemma Outline.strengthen {P' : σ → Prop} (h : Outline d I P xs Q) (hstable : Stable d P')
    (hP : ∀ s, P' s → P s) : Outline d I P' xs Q := by
  cases h with
  | nil _ hI hQ => exact .nil hstable (fun s hs => hI s (hP s hs)) fun s hs => hQ s (hP s hs)
  | cons _ hI hallowed hdone hrest =>
    exact .cons hstable (fun s hs => hI s (hP s hs)) (fun s hs => hallowed s (hP s hs))
      (fun s t hs => hdone s t (hP s hs)) hrest

lemma Outline.weaken {J : σ → Prop} (h : Outline d I P xs Q) (hJ : ∀ s, I s → J s) :
    Outline d J P xs Q := by
  induction h with
  | nil hstable hI hQ => exact .nil hstable (fun s hs => hJ s (hI s hs)) hQ
  | cons hstable hI hallowed hdone _ ih =>
    exact .cons hstable (fun s hs => hJ s (hI s hs)) hallowed hdone ih

/-- An access that is made at once -/
lemma Outline.cons_of_done {a : α} (hstable : Stable d P) (hI : ∀ s, P s → I s)
    (h : ∀ s, P s → ∃ t, d.access s a = .done t ∧ R t) (hrest : Outline d I R xs Q) :
    Outline d I P (a :: xs) Q := by
  refine .cons hstable hI (fun s hs => ?_) (fun s t hs hdone => ?_) hrest
  · obtain ⟨t, hdone, -⟩ := h s hs
    simp [hdone]
  · obtain ⟨u, hu, hR⟩ := h s hs
    rw [hu] at hdone
    cases hdone
    exact hR

lemma Outline.append (hxs : Outline d I P xs Q) (hys : Outline d I Q ys R) :
    Outline d I P (xs ++ ys) R := by
  induction hxs with
  | nil hstable _ h => exact hys.strengthen hstable h
  | cons hstable hI hallowed hdone _ ih => exact .cons hstable hI hallowed hdone (ih hys)

/-- Operations one after the other, each of which is a program: `P` says what holds behind those that
are made. -/
lemma Outline.flatMap {f : β → List α} {P : List β → σ → Prop} (ops : List β)
    (hstable : Stable d (P ops)) (hI : ∀ s, P ops s → I s)
    (h : ∀ before op rest, ops = before ++ op :: rest →
      Outline d I (P before) (f op) (P (before ++ [op]))) :
    Outline d I (P []) (ops.flatMap f) (P ops) := by
  -- the operations that are left, behind any that are made
  have hrest : ∀ rest before, ops = before ++ rest →
      Outline d I (P before) (rest.flatMap f) (P ops) := by
    intro rest
    induction rest with
    | nil =>
      intro before heq
      rw [List.append_nil] at heq
      rw [← heq]
      exact .nil hstable hI fun _ hs => hs
    | cons op rest ih =>
      intro before heq
      rw [List.flatMap_cons]
      exact (h before op rest heq).append (ih (before ++ [op]) (by rw [heq]; simp))
  exact hrest ops [] rfl

/-! ## Runs -/

/-- A step goes on in the outline. -/
lemma Outline.step {s t : σ × List α} {turn : Turn} (h : Outline d I P s.2 Q) (hs : P s.1)
    (ht : step d s turn = some t) : ∃ P', Outline d I P' t.2 Q ∧ P' t.1 := by
  obtain ⟨s, todo⟩ := s
  cases turn with
  | program =>
    cases h with
    | nil => cases ht
    | cons hstable hI hallowed hdone hrest =>
      rename_i R a rest
      simp only [Devices.step] at ht
      cases haccess : d.access s a with
      | fault => exact absurd haccess (hallowed s hs)
      | again =>
        simp only [haccess, Option.some.injEq] at ht
        rw [← ht]
        exact ⟨P, .cons hstable hI hallowed hdone hrest, hs⟩
      | done u =>
        simp only [haccess, Option.some.injEq] at ht
        rw [← ht]
        exact ⟨R, hrest, hdone s u hs haccess⟩
  | device =>
    simp only [Devices.step, Option.map_eq_some_iff] at ht
    obtain ⟨u, hu, rfl⟩ := ht
    exact ⟨P, h, h.stable s u hs hu⟩

/-- No access of an outline is one that the device does not allow. -/
lemma Outline.not_faults {todo : List α} (h : Outline d I P todo Q) (hs : P s) :
    ¬ Faults d (s, todo) := by
  rintro ⟨a, hhead, hfault⟩
  cases h with
  | nil => cases hhead
  | cons _ _ hallowed =>
    obtain rfl := Option.some.inj hhead
    exact hallowed s hs hfault

lemma Outline.post (h : Outline d I P [] Q) (hs : P s) : Q s := by
  cases h with
  | nil _ _ h => exact h s hs

/-- In every run of an outlined program the device allows all accesses, its states satisfy `I`, and
when the program is at its end they satisfy `Q`. -/
theorem Outline.exec {todo : List α} (h : Outline d I P todo Q) (hs : P s) {turns : List Turn}
    {t : σ × List α} (hrun : exec (Devices.step d) (s, todo) turns = some t) :
    I t.1 ∧ ¬ Faults d t ∧ (t.2 = [] → Q t.1) := by
  have hstep : ∀ u turn v, (∃ P', Outline d I P' u.2 Q ∧ P' u.1) → Devices.step d u turn = some v →
      ∃ P', Outline d I P' v.2 Q ∧ P' v.1 := by
    rintro u turn v ⟨P', houtline, hu⟩ hv
    exact houtline.step hu hv
  have hinv := exec_induction (Devices.step d) hstep ⟨P, h, hs⟩ hrun
  obtain ⟨P', houtline, ht⟩ := hinv
  refine ⟨houtline.implies _ ht, houtline.not_faults ht, fun hend => ?_⟩
  rw [hend] at houtline
  exact houtline.post ht

/-- An outlined program comes to its end, if the device can do what an access waits for. -/
theorem Outline.completes {todo : List α} (h : Outline d I P todo Q)
    (hwaits : ∀ s a, d.access s a = .again → ∃ t, d.tick s = some t ∧ d.access t a ≠ .again)
    (hs : P s) : ∃ turns t, Machine.exec (Devices.step d) (s, todo) turns = some (t, []) := by
  induction h generalizing s with
  | nil => exact ⟨[], s, rfl⟩
  | cons hstable hI hallowed hdone hrest ih =>
    rename_i P' _ _ a rest
    -- an access that is not to be tried again is made
    have hmakes : ∀ u, P' u → d.access u a ≠ .again → ∃ turns t,
        Machine.exec (Devices.step d) (u, a :: rest) turns = some (t, []) := by
      intro u hu hagain
      cases haccess : d.access u a with
      | fault => exact absurd haccess (hallowed u hu)
      | again => exact absurd haccess hagain
      | done v =>
        obtain ⟨turns, t, ht⟩ := ih (hdone u v hu haccess)
        refine ⟨.program :: turns, t, (exec_cons_eq_some _).mpr ⟨(v, rest), ?_, ht⟩⟩
        simp [Devices.step, haccess]
    by_cases hagain : d.access s a = .again
    · obtain ⟨u, hu, hgoes⟩ := hwaits s a hagain
      obtain ⟨turns, t, ht⟩ := hmakes u (hstable s u hs hu) hgoes
      refine ⟨.device :: turns, t, (exec_cons_eq_some _).mpr ⟨(u, a :: rest), ?_, ht⟩⟩
      simp [Devices.step, hu]
    · exact hmakes s hs hagain

end Powerboard.Devices
