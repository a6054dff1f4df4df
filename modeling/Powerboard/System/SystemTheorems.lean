import Powerboard.System.System

/-!
# The mutex excludes, and its sections are atomic
-/

namespace Powerboard.System

open Powerboard.Machine Powerboard.Sections

variable {D L : Type} {P : Program D L}

/-! ## The counter and the mask -/

theorem consistent_initial (data : D) {main : L} (hmain : P.depth main = 0) :
    Consistent P (initial data main) := by
  simp [Consistent, initial, Agrees, hmain]

/-- Where a context can be preempted, nothing is locked. -/
theorem Agrees.of_unmasked {c : UInt32} {pc : Pc L} (h : Agrees P false c pc) :
    c = 0 ∧ P.depth pc.location = 0 := by
  have h0 : P.depth pc.location = 0 ∧ c.toNat = P.depth pc.location := by
    cases pc with
    | code l =>
      simp only [Agrees, Bool.false_eq_true, false_iff, not_lt, Nat.le_zero] at h
      exact ⟨h.2, h.1⟩
    | lockRead k => simp [Agrees] at h
    | lockWrite k r => simp [Agrees] at h
    | unlockRead k => simp [Agrees] at h
    | unlockWrite k r => simp [Agrees] at h
    | unlockTest k =>
      simp only [Agrees, Bool.false_eq_true, imp_false, not_lt, Nat.le_zero] at h
      exact ⟨h.2, h.1⟩
    | unlockEnable k => exact ⟨h.2, h.1⟩
  refine ⟨UInt32.toNat_inj.mp ?_, h0.1⟩
  rw [h0.2, h0.1]
  rfl

/-- A handler that returned leaves the mask and the counter as its entry found them. -/
theorem Agrees.of_ret {primask : Bool} {c : UInt32} {l : L} (h : Agrees P primask c (.code l))
    (hret : P.op l = .ret) : primask = false ∧ c = 0 := by
  have hdepth := P.depth_ret l hret
  simp only [Agrees, hdepth, lt_irrefl, iff_false, Bool.not_eq_true] at h
  exact ⟨h.2, UInt32.toNat_inj.mp h.1⟩

theorem toNat_add_one {c : UInt32} (h : c.toNat + 1 < 2 ^ 32) : (c + 1).toNat = c.toNat + 1 := by
  rw [UInt32.toNat_add, UInt32.toNat_one, Nat.mod_eq_of_lt h]

theorem toNat_sub_one {c : UInt32} {n : ℕ} (h : c.toNat = n + 1) : (c - 1).toNat = n := by
  have hle : (1 : UInt32) ≤ c := by
    rw [UInt32.le_iff_toNat_le, UInt32.toNat_one, h]
    omega
  rw [UInt32.toNat_sub_of_le c 1 hle, UInt32.toNat_one, h, Nat.add_sub_cancel]

/-- Every instruction of the running context keeps the counter and the mask in order. -/
theorem consistent_instruction (hbound : ∀ l, P.depth l < 2 ^ 32) {s : Cpu D L} {pc : Pc L}
    {rest : List (Pc L)} (hpc : Agrees P s.primask s.lockCounter pc)
    (hrest : ∀ q ∈ rest, Agrees P false 0 q) : Consistent P (instruction P s pc rest) := by
  cases pc with
  | code l =>
    cases hop : P.op l with
    | lock k =>
      have hk := P.depth_lock l k hop
      simp only [instruction, hop, Consistent, Agrees, true_and]
      exact ⟨by rw [hk, hpc.1], hrest⟩
    | unlock k =>
      have hk := P.depth_unlock l k hop
      have hcounter := hpc.1
      by_cases hpos : s.lockCounter > 0
      · have hl : 0 < P.depth l := by rw [← hcounter]; exact UInt32.lt_iff_toNat_lt.mp hpos
        simp only [instruction, hop, if_pos hpos, Consistent, Agrees]
        exact ⟨⟨hpc.2.mpr hl, by omega⟩, hrest⟩
      · have hl : P.depth l = 0 := by
          rw [← hcounter]
          exact Nat.eq_zero_of_not_pos fun h => hpos (UInt32.lt_iff_toNat_lt.mpr h)
        simp only [instruction, hop, if_neg hpos, Consistent, Agrees]
        exact ⟨⟨by omega, by omega⟩, hrest⟩
    | work f =>
      simp only [instruction, hop, Consistent, Agrees, P.depth_work l f s.data hop]
      exact ⟨hpc, hrest⟩
    | ret =>
      obtain ⟨hmask, hcounter⟩ := hpc.of_ret hop
      simp only [instruction, hop, Consistent, hmask, hcounter]
      cases rest with
      | nil => simp
      | cons q rest =>
        exact ⟨hrest q List.mem_cons_self, fun p hp => hrest p (List.mem_cons_of_mem q hp)⟩
  | lockRead k => exact ⟨⟨hpc.1, hpc.2, rfl⟩, hrest⟩
  | lockWrite k counter =>
    obtain ⟨hmask, hcounter, rfl⟩ := hpc
    have hk := hbound k
    refine ⟨⟨?_, ?_⟩, hrest⟩
    · simp only [instruction]
      rw [toNat_add_one (by omega), hcounter]
    · simp only [instruction, hmask, true_iff]
      omega
  | unlockRead k => exact ⟨⟨hpc.1, hpc.2, rfl⟩, hrest⟩
  | unlockWrite k counter =>
    obtain ⟨hmask, hcounter, rfl⟩ := hpc
    exact ⟨⟨toNat_sub_one hcounter, fun _ => hmask⟩, hrest⟩
  | unlockTest k =>
    obtain ⟨hcounter, hmask⟩ := hpc
    by_cases hzero : 0 = s.lockCounter
    · have hk : P.depth k = 0 := by rw [← hcounter, ← hzero]; rfl
      simp only [instruction, if_pos hzero, Consistent, Agrees]
      exact ⟨⟨hcounter, hk⟩, hrest⟩
    · have hk : 0 < P.depth k := by
        rw [← hcounter, Nat.pos_iff_ne_zero]
        intro h
        exact hzero (UInt32.toNat_inj.mp h.symm)
      simp only [instruction, if_neg hzero, Consistent, Agrees]
      exact ⟨⟨hcounter, iff_of_true (hmask hk) hk⟩, hrest⟩
  | unlockEnable k =>
    obtain ⟨hcounter, hk⟩ := hpc
    simp only [instruction, Consistent, Agrees]
    exact ⟨⟨hcounter, by simp [hk]⟩, hrest⟩

/-- A handler that comes in preempts a context outside of every section. -/
theorem Consistent.interrupted {s : Cpu D L} (h : Consistent P s) (hmask : s.primask = false) :
    s.lockCounter = 0 ∧ ∀ q ∈ s.contexts, Agrees P false 0 q := by
  cases hcontexts : s.contexts with
  | nil =>
    simp only [Consistent, hcontexts] at h
    exact ⟨h.2, by simp⟩
  | cons pc rest =>
    simp only [Consistent, hcontexts, hmask] at h
    have hcounter := h.1.of_unmasked.1
    rw [hcounter] at h
    refine ⟨hcounter, fun q hq => ?_⟩
    rcases List.mem_cons.mp hq with rfl | hq
    · exact h.1
    · exact h.2 q hq

/-- What an instruction or an interrupt does to a consistent state. -/
theorem consistent_step (hbound : ∀ l, P.depth l < 2 ^ 32) (s : Cpu D L) (a : Action L)
    (t : Cpu D L) (h : Consistent P s) (ht : step P s a = some t) : Consistent P t := by
  cases a with
  | instruction =>
    cases hcontexts : s.contexts with
    | nil => simp [step, hcontexts] at ht
    | cons pc rest =>
      simp only [step, hcontexts, Option.some.injEq] at ht
      simp only [Consistent, hcontexts] at h
      rw [← ht]
      exact consistent_instruction hbound h.1 h.2
  | interrupt entry =>
    simp only [step, Option.ite_none_right_eq_some, Option.some.injEq] at ht
    obtain ⟨⟨hmask, hentry⟩, rfl⟩ := ht
    obtain ⟨hcounter, hrest⟩ := h.interrupted hmask
    simp only [Consistent, Agrees, hmask, hcounter, hentry]
    exact ⟨⟨rfl, by simp⟩, hrest⟩

theorem consistent_of_exec (hbound : ∀ l, P.depth l < 2 ^ 32) {data : D} {main : L}
    (hmain : P.depth main = 0) {as : List (Action L)} {s : Cpu D L}
    (h : exec (step P) (initial data main) as = some s) : Consistent P s :=
  exec_induction (step P) (consistent_step hbound) (consistent_initial data hmain) h

/-- In every run, whatever handlers come in: where the running context is at an operation of its own
code, `g_lockCounter` is the number of locks it holds and the interrupts are masked exactly if it
holds one, and every preempted context is outside of its sections. -/
theorem masked_exactly_inside (hbound : ∀ l, P.depth l < 2 ^ 32) {data : D} {main : L}
    (hmain : P.depth main = 0) {as : List (Action L)} {s : Cpu D L}
    (h : exec (step P) (initial data main) as = some s) :
    (∀ l rest, s.contexts = .code l :: rest →
      s.lockCounter.toNat = P.depth l ∧ (s.primask = true ↔ 0 < P.depth l)) ∧
    ∀ pc ∈ s.contexts.tail, P.depth pc.location = 0 := by
  have hs := consistent_of_exec hbound hmain h
  constructor
  · intro l rest hcontexts
    simp only [Consistent, hcontexts] at hs
    exact hs.1
  · intro pc hpc
    cases hcontexts : s.contexts with
    | nil => simp [hcontexts] at hpc
    | cons q rest =>
      simp only [Consistent, hcontexts] at hs
      rw [hcontexts, List.tail_cons] at hpc
      exact (hs.2 pc hpc).of_unmasked.2

/-- One context adds 2 to a word under the mutex, and a handler that comes in before adds 3. -/
def addProgram : Program ℕ (CallLoc (ℕ × Option ℕ) ℕ) :=
  callProgram (readModifyWrite fun c d => d + c)

theorem addProgram_depth_lt (l : CallLoc (ℕ × Option ℕ) ℕ) : addProgram.depth l < 2 ^ 32 := by
  cases l <;> simp [addProgram, callProgram, callDepth]

/-- The handler is inside of its section, where it has read the word. -/
theorem masked_exactly_inside_add :
    ∃ s : Cpu ℕ (CallLoc (ℕ × Option ℕ) ℕ),
      exec (step addProgram) (initial 0 (.script [2]))
        (.interrupt (.script [3]) :: List.replicate 4 .instruction) = some s ∧
      s.contexts = [.code (.body (3, some 0) []), .code (.script [2])] ∧
      (s.lockCounter.toNat = 1 ∧ (s.primask = true ↔ 0 < 1)) := by
  have hrun : exec (step addProgram) (initial 0 (.script [2]))
      (.interrupt (.script [3]) :: List.replicate 4 .instruction) =
        some ⟨true, 1, 0, [.code (.body (3, some 0) []), .code (.script [2])]⟩ := rfl
  exact ⟨_, hrun, rfl, (masked_exactly_inside addProgram_depth_lt rfl hrun).1 _ _ rfl⟩

/-! ## The sections are atomic -/

/-- The state of the machine of sections that a state of the processor is a part of: the running
context, if it is inside of a section, has come so far in the section that its last step opens. -/
def Simulates (P : Program D L) (s : Cpu D L) (c : State D L) : Prop :=
  match s.contexts with
  | [] => c = { data := s.data, contexts := [] }
  | pc :: rest =>
    ∃ l, c.contexts = l :: rest.map Pc.location ∧
      (P.depth pc.location = 0 → c.data = s.data ∧ l = pc.location) ∧
      (P.depth pc.location ≠ 0 → P.op l ≠ .ret ∧ ∃ n, ∀ fuel,
        (P.operate c.data l).bind (P.finish (n + fuel)) = P.finish fuel (s.data, pc.location))

theorem simulates_initial (P : Program D L) (data : D) {main : L} (hmain : P.depth main = 0) :
    Simulates P (initial data main) { data := data, contexts := [main] } :=
  ⟨main, rfl, fun _ => ⟨rfl, rfl⟩, fun h => absurd hmain h⟩

/-- Outside of the sections, the two states are the same. -/
theorem Simulates.eq_of_outside {s : Cpu D L} {c : State D L} (h : Simulates P s c)
    (hout : Outside P s) : c = { data := s.data, contexts := s.contexts.map Pc.location } := by
  cases hcontexts : s.contexts with
  | nil =>
    simp only [Simulates, hcontexts] at h
    exact h
  | cons pc rest =>
    simp only [Simulates, hcontexts] at h
    obtain ⟨l, hl, hzero, -⟩ := h
    obtain ⟨hdata, rfl⟩ := hzero (hout pc (by simp [hcontexts]))
    cases c
    simp only at hl hdata
    rw [hl, hdata, List.map_cons]

theorem step_of_operate {c : State D L} {l : L} {rest : List L} {t : D × L} (fuel : ℕ)
    (hc : c.contexts = l :: rest) (hret : P.op l ≠ .ret)
    (ht : (P.operate c.data l).bind (P.finish fuel) = some t) :
    P.step c (.step fuel) = some { data := t.1, contexts := t.2 :: rest } := by
  cases hop : P.op l with
  | ret => exact absurd hop hret
  | lock k => simp only [Program.step, hc, hop, ht, Option.map_some]
  | unlock k => simp only [Program.step, hc, hop, ht, Option.map_some]
  | work f => simp only [Program.step, hc, hop, ht, Option.map_some]

/-- An operation of the running context is a step of the machine of sections if it ends outside,
and otherwise a part of the step that is to come. -/
theorem simulates_operate {s t : Cpu D L} {c : State D L} {l : L} {rest : List (Pc L)} {q : Pc L}
    (h : Simulates P s c) (hs : s.contexts = .code l :: rest) (ht : t.contexts = q :: rest)
    (hop : P.operate s.data l = some (t.data, q.location)) :
    ∃ bs d, exec P.step c bs = some d ∧ Simulates P t d ∧ Sections.entries bs = [] := by
  have hret : P.op l ≠ .ret := by
    intro hret
    simp [Program.operate, hret] at hop
  simp only [Simulates, hs, Pc.location] at h
  obtain ⟨l₀, hl₀, hzero, hpos⟩ := h
  -- what the section that is open, or that this operation opens, does from here
  obtain ⟨hret₀, n, hn⟩ : P.op l₀ ≠ .ret ∧ ∃ n, ∀ fuel,
      (P.operate c.data l₀).bind (P.finish (n + fuel)) =
        P.finish fuel (t.data, q.location) := by
    by_cases hdepth : P.depth l = 0
    · obtain ⟨hdata, rfl⟩ := hzero hdepth
      refine ⟨hret, 0, fun fuel => ?_⟩
      rw [hdata, hop, Nat.zero_add, Option.bind_some]
    · obtain ⟨hret₀, n, hn⟩ := hpos hdepth
      refine ⟨hret₀, n + 1, fun fuel => ?_⟩
      have h1 := hn (fuel + 1)
      rw [finish_succ (by exact hdepth), hop, Option.bind_some] at h1
      rw [← h1]
      congr 2
      omega
  by_cases hend : P.depth q.location = 0
  · have hfinish := hn 0
    rw [finish_of_depth_eq_zero (by exact hend)] at hfinish
    refine ⟨[.step (n + 0)], { data := t.data, contexts := q.location :: rest.map Pc.location },
      ?_, ?_, rfl⟩
    · exact (exec_cons_eq_some P.step).mpr ⟨_, step_of_operate (n + 0) hl₀ hret₀ hfinish, rfl⟩
    · simp only [Simulates, ht]
      exact ⟨q.location, rfl, fun _ => ⟨trivial, rfl⟩, fun h => absurd hend h⟩
  · refine ⟨[], c, rfl, ?_, rfl⟩
    simp only [Simulates, ht]
    exact ⟨l₀, hl₀, fun h => absurd h hend, fun _ => ⟨hret₀, n, hn⟩⟩

/-- An instruction of the mutex after its first is no step. -/
theorem Simulates.of_location {s t : Cpu D L} {c : State D L} {pc pc' : Pc L} {rest : List (Pc L)}
    (h : Simulates P s c) (hs : s.contexts = pc :: rest) (ht : t.contexts = pc' :: rest)
    (hdata : t.data = s.data) (hlocation : pc'.location = pc.location) : Simulates P t c := by
  simp only [Simulates, hs] at h
  simp only [Simulates, ht, hdata, hlocation]
  exact h

/-- Every instruction is a step of the machine of sections, or a part of one. -/
theorem simulates_instruction {s : Cpu D L} {c : State D L} {pc : Pc L} {rest : List (Pc L)}
    (h : Simulates P s c) (hs : s.contexts = pc :: rest)
    (hrest : ∀ q ∈ rest, Agrees P false 0 q) :
    ∃ bs d, exec P.step c bs = some d ∧ Simulates P (instruction P s pc rest) d ∧
      Sections.entries bs = [] := by
  have hsame : ∀ pc', pc'.location = pc.location → ∀ t : Cpu D L, t.contexts = pc' :: rest →
      t.data = s.data → ∃ bs d, exec P.step c bs = some d ∧ Simulates P t d ∧
        Sections.entries bs = [] :=
    fun pc' hloc t ht hdata => ⟨[], c, rfl, h.of_location hs ht hdata hloc, rfl⟩
  cases pc with
  | code l =>
    cases hop : P.op l with
    | lock k =>
      refine simulates_operate (q := .lockRead k) h hs (by simp [instruction, hop]) ?_
      simp [Program.operate, instruction, hop, Pc.location]
    | unlock k =>
      have hoperate : P.operate s.data l = some (s.data, k) := by simp [Program.operate, hop]
      by_cases hpos : s.lockCounter > 0
      · simp only [instruction, hop, if_pos hpos]
        exact simulates_operate (q := .unlockRead k) h hs rfl hoperate
      · simp only [instruction, hop, if_neg hpos]
        exact simulates_operate (q := .unlockTest k) h hs rfl hoperate
    | work f =>
      refine simulates_operate (q := .code (f s.data).2) h hs (by simp [instruction, hop]) ?_
      simp [Program.operate, instruction, hop, Pc.location]
    | ret =>
      have hdepth := P.depth_ret l hop
      simp only [Simulates, hs] at h
      obtain ⟨l₀, hl₀, hzero, -⟩ := h
      obtain ⟨hdata, rfl⟩ := hzero hdepth
      refine ⟨[.step 0], { data := s.data, contexts := rest.map Pc.location }, ?_, ?_, rfl⟩
      · refine (exec_cons_eq_some P.step).mpr ⟨_, ?_, rfl⟩
        simp only [Program.step, hl₀, hop, hdata]
      · simp only [instruction, hop]
        cases rest with
        | nil => rfl
        | cons q rest =>
          have hq := (hrest q List.mem_cons_self).of_unmasked.2
          exact ⟨q.location, rfl, fun _ => ⟨rfl, rfl⟩, fun h => absurd hq h⟩
  | lockRead k => exact hsame (.lockWrite k s.lockCounter) rfl _ rfl rfl
  | lockWrite k counter => exact hsame (.code k) rfl _ rfl rfl
  | unlockRead k => exact hsame (.unlockWrite k s.lockCounter) rfl _ rfl rfl
  | unlockWrite k counter => exact hsame (.unlockTest k) rfl _ rfl rfl
  | unlockTest k =>
    by_cases hzero : 0 = s.lockCounter
    · simp only [instruction, if_pos hzero]
      exact hsame (.unlockEnable k) rfl _ rfl rfl
    · simp only [instruction, if_neg hzero]
      exact hsame (.code k) rfl _ rfl rfl
  | unlockEnable k => exact hsame (.code k) rfl _ rfl rfl

theorem entries_append (as bs : List (Action L)) : entries (as ++ bs) = entries as ++ entries bs :=
  List.filterMap_append

theorem simulates_step {s t : Cpu D L} {c : State D L} {a : Action L} (hcons : Consistent P s)
    (h : Simulates P s c) (ht : step P s a = some t) :
    ∃ bs d, exec P.step c bs = some d ∧ Simulates P t d ∧
      Sections.entries bs = entries [a] := by
  cases a with
  | instruction =>
    cases hs : s.contexts with
    | nil => simp [step, hs] at ht
    | cons pc rest =>
      simp only [step, hs, Option.some.injEq] at ht
      simp only [Consistent, hs] at hcons
      rw [← ht]
      exact simulates_instruction h hs hcons.2
  | interrupt entry =>
    simp only [step, Option.ite_none_right_eq_some, Option.some.injEq] at ht
    obtain ⟨⟨hmask, hentry⟩, rfl⟩ := ht
    have hout : Outside P s := by
      intro pc hpc
      exact ((hcons.interrupted hmask).2 pc (List.mem_of_mem_head? hpc)).of_unmasked.2
    refine ⟨[.interrupt entry],
      { data := s.data, contexts := entry :: s.contexts.map Pc.location }, ?_, ?_, rfl⟩
    · refine (exec_cons_eq_some P.step).mpr ⟨_, ?_, rfl⟩
      simp only [h.eq_of_outside hout, Program.step, hentry, if_true]
    · exact ⟨entry, rfl, fun _ => ⟨rfl, rfl⟩, fun h => absurd hentry h⟩

/-- Every run of the processor is one of the machine of sections, with the same handlers. -/
theorem exists_sections_run (hbound : ∀ l, P.depth l < 2 ^ 32) {s t : Cpu D L} {c : State D L}
    (hs : Consistent P s) (hc : Simulates P s c) {as : List (Action L)}
    (h : exec (step P) s as = some t) :
    ∃ bs d, exec P.step c bs = some d ∧ Simulates P t d ∧ Sections.entries bs = entries as := by
  induction as generalizing s c with
  | nil =>
    simp only [exec_nil, Option.some.injEq] at h
    exact ⟨[], c, rfl, h ▸ hc, rfl⟩
  | cons a as ih =>
    obtain ⟨u, hu, ht⟩ := (exec_cons_eq_some (step P)).mp h
    obtain ⟨bs, e, hbs, he, hentry⟩ := simulates_step hs hc hu
    obtain ⟨cs, d, hcs, hd, hentries⟩ := ih (consistent_step hbound s a u hs hu) he ht
    refine ⟨bs ++ cs, d, (exec_append_eq_some P.step).mpr ⟨e, hbs, hcs⟩, hd, ?_⟩
    rw [Sections.entries_append, hentry, hentries, ← entries_append, List.singleton_append]

/-- The processor with the running context at `l` of its own code, the others preempted in theirs. -/
def settled (P : Program D L) (d : D) (l : L) (rest : List L) : Cpu D L :=
  { primask := decide (0 < P.depth l)
    lockCounter := UInt32.ofNat (P.depth l)
    data := d
    contexts := .code l :: rest.map Pc.code }

theorem ofNat_eq_zero {n : ℕ} (h : n < 2 ^ 32) : 0 = UInt32.ofNat n ↔ n = 0 := by
  rw [← UInt32.toNat_inj, UInt32.toNat_ofNat_of_lt' h]
  exact eq_comm

/-- Every operation is done by a few instructions. -/
theorem exec_operate (hbound : ∀ l, P.depth l < 2 ^ 32) {d : D} {l : L} {t : D × L}
    (h : P.operate d l = some t) (rest : List L) :
    ∃ as, exec (step P) (settled P d l rest) as = some (settled P t.1 t.2 rest) ∧
      entries as = [] := by
  cases hop : P.op l with
  | ret => simp [Program.operate, hop] at h
  | work f =>
    simp only [Program.operate, hop, Option.some.injEq] at h
    refine ⟨[.instruction], ?_, rfl⟩
    simp [exec, step, settled, instruction, hop, ← h, P.depth_work l f d hop]
  | lock k =>
    simp only [Program.operate, hop, Option.some.injEq] at h
    refine ⟨[.instruction, .instruction, .instruction], ?_, rfl⟩
    simp [exec, step, settled, instruction, hop, ← h, P.depth_lock l k hop]
  | unlock k =>
    simp only [Program.operate, hop, Option.some.injEq] at h
    have hk := P.depth_unlock l k hop
    have hl := ofNat_eq_zero (hbound l)
    subst h
    by_cases hzero : P.depth l = 0
    · have hkzero : P.depth k = 0 := by omega
      refine ⟨[.instruction, .instruction, .instruction], ?_, rfl⟩
      simp [exec, step, settled, instruction, hop, hzero, hkzero]
    · obtain ⟨n, hn⟩ : ∃ n, P.depth l = n + 1 := Nat.exists_eq_succ_of_ne_zero hzero
      have hkn : P.depth k = n := by omega
      have hpos : 0 < UInt32.ofNat n + 1 := by
        rw [UInt32.pos_iff_ne_zero]
        intro h
        exact hzero (hl.mp (by rw [hn, UInt32.ofNat_add]; exact h.symm))
      have hn32 : n < 2 ^ 32 := hkn ▸ hbound k
      by_cases hkzero : n = 0
      · refine ⟨[.instruction, .instruction, .instruction, .instruction, .instruction], ?_, rfl⟩
        simp [exec, step, settled, instruction, hop, hn, hkn, hkzero]
      · have htest : ¬ 0 = UInt32.ofNat n := fun h => hkzero ((ofNat_eq_zero hn32).mp h)
        refine ⟨[.instruction, .instruction, .instruction, .instruction], ?_, rfl⟩
        simp [exec, step, settled, instruction, hop, hn, hkn, hpos, htest,
          Nat.pos_of_ne_zero hkzero]

/-- And so is a whole section. -/
theorem exec_finish (hbound : ∀ l, P.depth l < 2 ^ 32) {fuel : ℕ} {s t : D × L}
    (h : P.finish fuel s = some t) (rest : List L) :
    ∃ as, exec (step P) (settled P s.1 s.2 rest) as = some (settled P t.1 t.2 rest) ∧
      entries as = [] := by
  induction fuel generalizing s with
  | zero =>
    simp only [Program.finish, Option.ite_none_right_eq_some, Option.some.injEq] at h
    exact ⟨[], by rw [h.2, exec_nil], rfl⟩
  | succ fuel ih =>
    by_cases hs : P.depth s.2 = 0
    · rw [finish_of_depth_eq_zero hs, Option.some.injEq] at h
      exact ⟨[], by rw [h, exec_nil], rfl⟩
    · rw [finish_succ hs, Option.bind_eq_some_iff] at h
      obtain ⟨u, hu, ht⟩ := h
      obtain ⟨as, has, hnone⟩ := exec_operate hbound hu rest
      obtain ⟨bs, hbs, hnone'⟩ := ih ht
      refine ⟨as ++ bs, (exec_append_eq_some (step P)).mpr ⟨_, has, hbs⟩, ?_⟩
      rw [entries_append, hnone, hnone', List.nil_append]

/-- The processor between two steps of the machine of sections. -/
def resting (c : State D L) : Cpu D L :=
  { primask := false, lockCounter := 0, data := c.data, contexts := c.contexts.map Pc.code }

theorem settled_eq_resting {d : D} {l : L} {rest : List L} (h : P.depth l = 0) :
    settled P d l rest = resting { data := d, contexts := l :: rest } := by
  simp only [settled, resting, h, lt_irrefl, decide_false, List.map_cons]
  rfl

/-- Every step of the machine of sections is done by instructions. -/
theorem exec_of_step (hbound : ∀ l, P.depth l < 2 ^ 32) {c d : State D L} {b : Sections.Action L}
    (hc : ∀ l ∈ c.contexts, P.depth l = 0) (h : P.step c b = some d) :
    (∀ l ∈ d.contexts, P.depth l = 0) ∧ ∃ as, exec (step P) (resting c) as = some (resting d) ∧
      entries as = Sections.entries [b] := by
  cases b with
  | interrupt entry =>
    simp only [Program.step, Option.ite_none_right_eq_some, Option.some.injEq] at h
    obtain ⟨hentry, rfl⟩ := h
    refine ⟨?_, [.interrupt entry], ?_, rfl⟩
    · simpa [hentry] using hc
    · simp [exec, step, resting, hentry]
  | step fuel =>
    cases hcontexts : c.contexts with
    | nil => simp [Program.step, hcontexts] at h
    | cons l rest =>
      have hl : P.depth l = 0 := hc l (by simp [hcontexts])
      have hrest : ∀ k ∈ rest, P.depth k = 0 := fun k hk => hc k (by simp [hcontexts, hk])
      by_cases hret : P.op l = .ret
      · simp only [Program.step, hcontexts, hret, Option.some.injEq] at h
        subst h
        refine ⟨hrest, [.instruction], ?_, rfl⟩
        simp [exec, step, resting, hcontexts, instruction, hret]
      · have hstep : P.step c (.step fuel) = ((P.operate c.data l).bind (P.finish fuel)).map
            fun t => { data := t.1, contexts := t.2 :: rest } := by
          cases hop : P.op l with
          | ret => exact absurd hop hret
          | lock k => simp only [Program.step, hcontexts, hop]
          | unlock k => simp only [Program.step, hcontexts, hop]
          | work f => simp only [Program.step, hcontexts, hop]
        rw [hstep, Option.map_eq_some_iff] at h
        obtain ⟨t, ht, rfl⟩ := h
        obtain ⟨u, hu, ht⟩ := Option.bind_eq_some_iff.mp ht
        have htzero := depth_of_finish ht
        obtain ⟨as, has, hnone⟩ := exec_operate hbound hu rest
        obtain ⟨bs, hbs, hnone'⟩ := exec_finish hbound ht rest
        refine ⟨by simpa [htzero] using hrest, as ++ bs, ?_, by
          rw [entries_append, hnone, hnone', List.nil_append]; rfl⟩
        rw [settled_eq_resting hl] at has
        rw [settled_eq_resting htzero] at hbs
        have hc' : c = { data := c.data, contexts := l :: rest } := by rw [← hcontexts]
        rw [hc']
        exact (exec_append_eq_some (step P)).mpr ⟨_, has, hbs⟩

theorem exec_of_sections_run (hbound : ∀ l, P.depth l < 2 ^ 32) {c d : State D L}
    {bs : List (Sections.Action L)} (hc : ∀ l ∈ c.contexts, P.depth l = 0)
    (h : exec P.step c bs = some d) :
    (∀ l ∈ d.contexts, P.depth l = 0) ∧ ∃ as, exec (step P) (resting c) as = some (resting d) ∧
      entries as = Sections.entries bs := by
  induction bs generalizing c with
  | nil =>
    simp only [exec_nil, Option.some.injEq] at h
    exact h ▸ ⟨hc, [], rfl, rfl⟩
  | cons b bs ih =>
    obtain ⟨e, he, hd⟩ := (exec_cons_eq_some P.step).mp h
    obtain ⟨hezero, as, has, hentry⟩ := exec_of_step hbound hc he
    obtain ⟨hdzero, cs, hcs, hentries⟩ := ih hezero hd
    refine ⟨hdzero, as ++ cs, (exec_append_eq_some (step P)).mpr ⟨_, has, hcs⟩, ?_⟩
    rw [entries_append, hentry, hentries, ← Sections.entries_append, List.singleton_append]

/-- The sections are atomic: what the processor can reach, outside of the sections, instruction by
instruction and with handlers coming in wherever the interrupts are not masked, is exactly what can
be reached when every outermost section is one step and the same handlers come in between steps. -/
theorem reachable_iff_sections (hbound : ∀ l, P.depth l < 2 ^ 32) (data : D) {main : L}
    (hmain : P.depth main = 0) (handlers : List L) (d : D) (ls : List L) :
    (∃ as s, entries as = handlers ∧ exec (step P) (initial data main) as = some s ∧
      Outside P s ∧ s.data = d ∧ s.contexts.map Pc.location = ls) ↔
    ∃ bs, Sections.entries bs = handlers ∧
      exec P.step { data := data, contexts := [main] } bs = some { data := d, contexts := ls } := by
  constructor
  · rintro ⟨as, s, rfl, hs, hout, rfl, rfl⟩
    obtain ⟨bs, c, hbs, hc, hentries⟩ := exists_sections_run hbound (consistent_initial data hmain)
      (simulates_initial P data hmain) hs
    exact ⟨bs, hentries, by rw [hbs, hc.eq_of_outside hout]⟩
  · rintro ⟨bs, rfl, hbs⟩
    obtain ⟨hzero, as, has, hentries⟩ := exec_of_sections_run hbound (by simpa using hmain) hbs
    refine ⟨as, _, hentries, has, ?_, rfl, ?_⟩
    · intro pc hpc
      cases ls with
      | nil => simp [resting] at hpc
      | cons l ls =>
        simp only [resting, List.map_cons, List.head?_cons, Option.mem_def,
          Option.some.injEq] at hpc
        rw [← hpc]
        exact hzero l List.mem_cons_self
    · simp [resting, Function.comp_def, Pc.location]

/-- The handler adds its 3 before the other section, or after it: both are there on the processor. -/
theorem reachable_iff_sections_add :
    (∃ bs, Sections.entries bs = [.script [3]] ∧
      exec addProgram.step { data := 0, contexts := [.script [2]] } bs =
        some { data := 5, contexts := [] }) ∧
    ∃ as s, entries as = [.script [3]] ∧ exec (step addProgram) (initial 0 (.script [2])) as =
      some s ∧ Outside addProgram s ∧ s.data = 5 ∧ s.contexts.map Pc.location = [] := by
  have hsections : ∃ bs, Sections.entries bs = [.script [3]] ∧
      exec addProgram.step { data := 0, contexts := [.script [2]] } bs =
        some { data := 5, contexts := [] } :=
    ⟨[.interrupt (.script [3]), .step 4, .step 0, .step 4, .step 0], rfl, rfl⟩
  exact ⟨hsections, (reachable_iff_sections addProgram_depth_lt 0 rfl [.script [3]] 5 []).mpr
    hsections⟩

/-! ## Calls under the mutex -/

section Calls
variable {B C : Type}

theorem callDepth_lt (F : Bodies D B C) (l : CallLoc B C) : (callProgram F).depth l < 2 ^ 32 := by
  cases l <;> simp [callProgram, callDepth]

/-- Functions whose bodies are between `system_mutex_lock` and `system_mutex_unlock` and that the
main program and any handlers call, preempting one another wherever the mutex lets them: the calls
that were made took effect one after the other, each as if its body had run alone, and together with
the calls that are still to be made they are those of the scripts, none lost and none made twice. -/
theorem calls_take_effect_once (F : Bodies D B C) (data : D) (main : List C)
    {as : List (Action (CallLoc B C))} {s : Cpu D (CallLoc B C)}
    (h : exec (step (callProgram F)) (initial data (.script main)) as = some s)
    (hout : Outside (callProgram F) s) :
    ∃ done, Sequential F data done s.data ∧
      (done ++ (s.contexts.map Pc.location).flatMap CallLoc.remaining).Perm
        (main ++ (entries as).flatMap CallLoc.remaining) := by
  have hmain : (callProgram F).depth (.script main) = 0 := rfl
  obtain ⟨bs, c, hbs, hc, hentries⟩ := exists_sections_run (callDepth_lt F)
    (consistent_initial data hmain) (simulates_initial _ data hmain) h
  have h0 : Accounted F data [.script main] { data := data, contexts := [.script main] } :=
    ⟨by simp [callDepth], [], .nil data, .refl _⟩
  obtain ⟨-, done, hdone, hperm⟩ := accounted_of_exec h0 hbs
  rw [hc.eq_of_outside hout] at hdone hperm
  refine ⟨done, hdone, ?_⟩
  rwa [hentries, List.flatMap_append, List.flatMap_singleton] at hperm

/-- Both additions are made, after one another. -/
theorem calls_take_effect_once_add :
    ∃ done, Sequential (readModifyWrite fun c d : ℕ => d + c) 0 done 5 ∧
      (done ++ ([] : List (CallLoc (ℕ × Option ℕ) ℕ)).flatMap CallLoc.remaining).Perm [2, 3] := by
  have hrun : exec (step addProgram) (initial 0 (.script [2]))
      (.interrupt (.script [3]) :: List.replicate 22 .instruction) = some ⟨false, 0, 5, []⟩ := rfl
  exact calls_take_effect_once (readModifyWrite fun c d : ℕ => d + c) 0 [2] hrun
    (by simp [Outside])

end Calls

end Powerboard.System
