import Powerboard.Application.Application

/-!
# What a callback is given

A callback that is in one entry of the vector of a message gets every message with this id once, in
the order of the posts. This is read off the delivery of the message pump.
-/

namespace Powerboard.Application

open Machine MsgPump

/-! ## Calls and contents -/

section Contents
variable {v : MsgId → ℕ → Option Callback} {id : MsgId} {callback : Callback} {k : ℕ}

lemma givenTo_append (calls calls' : List Call) (id : MsgId) (callback : Callback) :
    givenTo (calls ++ calls') id callback =
      givenTo calls id callback ++ givenTo calls' id callback :=
  List.filterMap_append

lemma givenTo_singleton (call : Call) (id : MsgId) (callback : Callback) :
    givenTo [call] id callback =
      if call.id = id ∧ call.callback = callback then call.content.toList else [] := by
  unfold givenTo
  by_cases h : call.id = id ∧ call.callback = callback
  · cases hcontent : call.content <;> simp [h, hcontent]
  · simp [h]

/-- The call of another callback. -/
lemma givenTo_other {call : Call} (h : call.callback ≠ callback) (calls : List Call) (id : MsgId) :
    givenTo (calls ++ [call]) id callback = givenTo calls id callback := by
  rw [givenTo_append, givenTo_singleton, if_neg fun hboth => h hboth.2, List.append_nil]

lemma contentsOf_append (messages messages' : List (MsgId × List UInt8)) (id : MsgId) :
    contentsOf (messages ++ messages') id = contentsOf messages id ++ contentsOf messages' id :=
  List.filterMap_append

lemma contentsOf_singleton (message : MsgId × List UInt8) (id : MsgId) :
    contentsOf [message] id = if message.1 = id then [message.2] else [] := by
  unfold contentsOf
  by_cases h : message.1 = id <;> simp [h]

lemma contentsOf_eq_flatMap (messages : List (MsgId × List UInt8)) (id : MsgId) :
    contentsOf messages id = messages.flatMap fun m => if m.1 = id then [m.2] else [] := by
  induction messages with
  | nil => rfl
  | cons message rest ih =>
    rw [← List.singleton_append, contentsOf_append, contentsOf_singleton, ih, List.singleton_append,
      List.flatMap_cons]

/-- The callback is in one entry of the vector of the message. -/
structure OneEntry (v : MsgId → ℕ → Option Callback) (id : MsgId) (callback : Callback) (k : ℕ) :
    Prop where
  lt : k < maxReceivers
  entry : v id k = some callback
  unique : ∀ i < maxReceivers, v id i = some callback → i = k

/-- Its call is among the first calls for a message, if its entry is among the first. -/
lemma givenTo_callsFor (h : OneEntry v id callback k) (message : MsgId × List UInt8) {n : ℕ}
    (hn : n ≤ maxReceivers) :
    givenTo (callsFor v n message) id callback =
      if message.1 = id ∧ k < n then [message.2] else [] := by
  induction n with
  | zero => simp [callsFor, givenTo]
  | succ n ih =>
    rw [callsFor_succ, givenTo_append, ih (Nat.le_of_succ_le hn)]
    cases hentry : v message.1 n with
    | none =>
      -- the entry of the callback is not empty
      have hne : ¬ (message.1 = id ∧ k = n) := by
        rintro ⟨rfl, rfl⟩
        rw [h.entry] at hentry
        cases hentry
      simp only [Option.map_none, Option.toList_none, givenTo, List.filterMap_nil, List.append_nil]
      refine if_congr ⟨fun hlt => ⟨hlt.1, hlt.2.trans n.lt_succ_self⟩, fun hlt => ⟨hlt.1, ?_⟩⟩ rfl rfl
      exact lt_of_le_of_ne (Nat.lt_succ_iff.mp hlt.2) fun heq => hne ⟨hlt.1, heq⟩
    | some callback' =>
      rw [Option.map_some, Option.toList_some, givenTo_singleton, Option.toList_some]
      by_cases hid : message.1 = id
      · subst hid
        by_cases hk : k = n
        · subst hk
          rw [h.entry, Option.some.injEq] at hentry
          simp [hentry]
        · have hne : callback' ≠ callback := by
            rintro rfl
            exact hk (h.unique n hn hentry).symm
          have hiff : k < n ↔ k < n + 1 := by omega
          simp [hne, hiff]
      · simp [hid]

lemma givenTo_flatMap (h : OneEntry v id callback k) (messages : List (MsgId × List UInt8)) :
    givenTo (messages.flatMap (callsFor v maxReceivers)) id callback = contentsOf messages id := by
  rw [contentsOf_eq_flatMap]
  induction messages with
  | nil => rfl
  | cons message rest ih =>
    rw [List.flatMap_cons, List.flatMap_cons, givenTo_append, ih, givenTo_callsFor h _ le_rfl]
    simp only [h.lt, and_true]

end Contents

/-! ## Deliveries -/

section Deliveries
variable {t : BufTable} {v : MsgId → ℕ → Option Callback} {c c' : Clients} {id : MsgId}
  {callback : Callback} {k : ℕ}

/-- A callback gets the messages in the order of the posts, and all but those that are queued. -/
theorem given_of_delivery (h : DeliveryInv t v c) (hentry : OneEntry v id callback k) :
    givenTo c.calls id callback <+: contentsOf c.posted id ∧
      (contentsOf c.posted id).length ≤
        (givenTo c.calls id callback).length + c.state.pump.msgQueueSize := by
  obtain ⟨hlower, hupper⟩ := h.calls_between
  have hgiven := hlower.filterMap fun call : Call =>
    if call.id = id ∧ call.callback = callback then call.content else none
  refine ⟨?_, ?_⟩
  · rw [← givenTo_flatMap hentry]
    exact hupper.filterMap _
  · set n := c.posted.length - c.state.pump.msgQueueSize
    have htake : (contentsOf (c.posted.take n) id).length ≤ (givenTo c.calls id callback).length := by
      rw [← givenTo_flatMap hentry]
      exact hgiven.length_le
    have hdrop : (contentsOf (c.posted.drop n) id).length ≤ c.state.pump.msgQueueSize := by
      refine (List.length_filterMap_le _ _).trans ?_
      rw [List.length_drop]
      omega
    rw [← List.take_append_drop n c.posted, contentsOf_append, List.length_append]
    omega

lemma contentsOf_held (p : Pump) (held : List Elem) (id : MsgId) :
    contentsOf (held.map p.message) id = (held.filter fun e => e.id = id).map p.data := by
  induction held with
  | nil => rfl
  | cons e rest ih =>
    rw [List.map_cons, ← List.singleton_append, contentsOf_append, contentsOf_singleton, ih,
      List.filter_cons]
    by_cases hid : e.id = id <;> simp [Pump.message, hid]

/-- What a callback was given, and what it is still to get, is what was posted. -/
theorem given_append_ahead (h : DeliveryInv t v c) (hentry : OneEntry v id callback k) :
    givenTo c.calls id callback ++ (ahead c.state id callback).map c.state.pump.data =
      contentsOf c.posted id := by
  obtain ⟨delivered, hposted, hcalls⟩ := h.history
  rw [hcalls, givenTo_append, givenTo_flatMap hentry, hposted, contentsOf_append, List.append_assoc,
    List.append_cancel_left_eq, contentsOf_held]
  -- the loop is at the message at the front, if it is at any
  have hat {i : ℕ} (hi : i ≤ maxReceivers) (hfront : c.state.callsOfFront v =
        (c.state.held.head?.map fun e => callsFor v i (c.state.pump.message e)).getD [])
      (hpast : Past c.state.pump id callback c.state.pc ↔ k < i) :
      givenTo (c.state.callsOfFront v) id callback ++
          (ahead c.state id callback).map c.state.pump.data =
        (c.state.held.filter fun e => e.id = id).map c.state.pump.data := by
    rw [hfront]
    unfold ahead
    cases c.state.held with
    | nil => simp [givenTo]
    | cons e rest =>
      simp only [List.head?_cons, Option.map_some, Option.getD_some, givenTo_callsFor hentry _ hi,
        hpast, List.tail_cons]
      by_cases hk : k < i
      · by_cases hid : e.id = id <;> simp [Pump.message, hk, hid]
      · simp [hk]
  cases hpc : c.state.pc with
  | waiting | unlocked =>
    rw [callsOfFront_idle (by simp [hpc])]
    simp [givenTo, ahead, hpc, Past]
  | calling i =>
    have hi := h.wellFormed.calling i hpc
    refine hat hi ?_ ?_
    · unfold PumpState.callsOfFront
      rw [hpc]
      cases c.state.held <;> rfl
    · simp only [hpc, Past, h.callbacks]
      constructor
      · rintro ⟨j, hj, hcallback⟩
        exact hentry.unique j (hj.trans_le hi) hcallback ▸ hj
      · intro hk
        exact ⟨k, hk, hentry.entry⟩
  | cleared =>
    refine hat le_rfl ?_ ?_
    · unfold PumpState.callsOfFront
      rw [hpc]
      cases c.state.held <;> rfl
    · simp only [hpc, Past, hentry.lt]

/-- Whatever a callback is given was posted, and the callback is registered for it. -/
lemma posted_of_given (h : DeliveryInv t v c) {content : List UInt8}
    (hcontent : content ∈ givenTo c.calls id callback) :
    content ∈ contentsOf c.posted id ∧ ∃ i < maxReceivers, v id i = some callback := by
  simp only [givenTo, List.mem_filterMap] at hcontent
  obtain ⟨call, hcall, hgiven⟩ := hcontent
  obtain ⟨message, hmessage, hfor⟩ := List.mem_flatMap.mp (h.calls_between.2.subset hcall)
  simp only [callsFor, List.mem_filterMap, Option.map_eq_some_iff, List.mem_range] at hfor
  obtain ⟨i, hi, callback', hentry, rfl⟩ := hfor
  split_ifs at hgiven with hid
  rw [Option.some.injEq] at hgiven
  exact ⟨List.mem_filterMap.mpr ⟨message, hmessage, by rw [if_pos hid.1, hgiven]⟩,
    i, hi, hid.1 ▸ hid.2 ▸ hentry⟩

/-- The call that was made last, while its callback runs. -/
lemma last_call (h : DeliveryInv t v c) {i : ℕ} {e : Elem} {rest : List Elem}
    (hpc : c.state.pc = .calling (i + 1)) (hheld : c.state.held = e :: rest)
    (hcallback : v e.id i = some callback) :
    ∃ before, c.calls =
      before ++ [{ callback := callback, id := e.id, content := some (c.state.pump.data e) }] := by
  obtain ⟨delivered, -, hcalls⟩ := h.history
  rw [callsOfFront_calling hpc hheld, callsFor_succ] at hcalls
  simp only [Pump.message, hcallback, Option.map_some, Option.toList_some] at hcalls
  exact ⟨_, hcalls.trans (List.append_assoc _ _ _).symm⟩

/-- The call of a callback by the loop: its entry, and the message at the front that it gets. -/
theorem call_outcome (h : DeliveryInv t v c) {r : PumpState × Option Call}
    (hr : DispatchOutcome t c.state r) {call : Call} (hcall : r.2 = some call) :
    ∃ i e rest, i < maxReceivers ∧ v e.id i = some call.callback ∧ call.id = e.id ∧
      call.content = some (c.state.pump.data e) ∧
      (c.state.pump.msgQueue c.state.pump.msgQueueFront).buffer = some e ∧
      r.1 = { c.state with pc := .calling (i + 1) } ∧ r.1.held = e :: rest := by
  obtain ⟨i, m, rest, hpc, hi, hqueue, hcallback, hid, hcontent, hstate⟩ := hr.of_call hcall
  obtain ⟨e, hbuffer, heid, hheld⟩ := h.front hqueue (by rw [hpc]; simp)
  refine ⟨i, e, rest.filterMap (·.buffer), hi, ?_, hid.trans heid, ?_, ?_, hstate, ?_⟩
  · rw [← h.callbacks, ← heid]
    exact hcallback
  · rw [hcontent, hbuffer, Option.map_some]
  · have hcons := h.wellFormed.ring.queue_eq_cons (h.wellFormed.busy (by rw [hpc]; simp))
    rw [hqueue, List.cons.injEq] at hcons
    rw [← hcons.1]
    exact hbuffer
  · rw [← hheld, hstate]
    exact held_of_queue_eq rfl (by rw [hpc]; simp) (by simp)

end Deliveries

/-! ## The steps of clients -/

section Client
variable {t : BufTable} {v : MsgId → ℕ → Option Callback} {c c' : Clients} {id : MsgId}

/-- What a client leaves as it is: the calls, the place in the loop, and the message at the front. -/
structure ClientFrame (c c' : Clients) : Prop where
  calls : c'.calls = c.calls
  pc : c'.state.pc = c.state.pc
  held : c.state.held <+: c'.state.held
  posted : c.posted <+: c'.posted

lemma ClientFrame.of_sameRing {p : Pump} (hring : SameRing c.state.pump p) (c' : Clients)
    (hstate : c'.state = { c.state with pump := p }) (hcalls : c'.calls = c.calls)
    (hposted : c'.posted = c.posted) : ClientFrame c c' := by
  refine ⟨hcalls, by rw [hstate], ?_, by rw [hposted]⟩
  rw [hstate, held_of_sameRing hring]

lemma ClientFrame.of_post (h : DeliveryInv t v c) {d : BufDescription} {ptr : Pointer}
    {r : Bool × Pump} (hr : PostOutcome d c.state.pump id ptr r) (message : MsgId × List UInt8)
    (c' : Clients) (hstate : c'.state = (c.post message r).state)
    (hcalls : c'.calls = (c.post message r).calls)
    (hposted : c'.posted = (c.post message r).posted) : ClientFrame c c' := by
  have hheld : c.state.held <+: PumpState.held { c.state with pump := r.2 } := by
    rcases held_post h.wellFormed hr with heq | ⟨i, heq⟩
    · rw [heq]
    · rw [heq]
      exact List.prefix_append _ _
  unfold Clients.post at hstate hcalls hposted
  split at hstate
  · rename_i hsuccess
    rw [if_pos hsuccess] at hcalls hposted
    exact ⟨hcalls, by rw [hstate]; rfl, by rw [hstate]; exact hheld,
      by rw [hposted]; exact List.prefix_append _ _⟩
  · rename_i hfail
    rw [if_neg hfail] at hcalls hposted
    exact ⟨hcalls, by rw [hstate]; rfl, by rw [hstate]; exact hheld,
      by rw [hposted]; exact List.prefix_refl _⟩

lemma contentsOf_post (c : Clients) (message : MsgId × List UInt8) (r : Bool × Pump) (id : MsgId) :
    contentsOf (c.post message r).posted id =
      contentsOf c.posted id ++ if r.1 = true ∧ message.1 = id then [message.2] else [] := by
  unfold Clients.post
  split
  · rename_i hsuccess
    simp only [contentsOf_append, contentsOf_singleton, hsuccess, true_and]
  · rename_i hfail
    simp [hfail, Clients.setPump]

/-- No client dispatches, and what it posts it posts with the id it names. -/
theorem clientStep_frame (h : DeliveryInv t v c) {a : ClientAction} (ha : a ≠ .dispatch)
    (hstep : clientStep t c a = some c') :
    ClientFrame c c' ∧ ∀ id, ¬ Posts id a → contentsOf c'.posted id = contentsOf c.posted id := by
  cases clientMoves_of_step hstep with
  | postOwn id ptr d r hd hout hr =>
    refine ⟨.of_post h hr (id, copied d ptr) _ rfl rfl rfl, fun id' hid' => ?_⟩
    rw [contentsOf_post, if_neg fun hboth => hid' hboth.2, List.append_nil]
  | postReserved e d r hd hres hlocks hr =>
    refine ⟨.of_post h hr (e.id, c.state.pump.data e) _ rfl rfl rfl, fun id' hid' => ?_⟩
    dsimp only
    rw [contentsOf_post, if_neg fun hboth => hid' hboth.2, List.append_nil]
  | reserves id d i p hd hr => exact ⟨.of_sameRing hr.sameRing _ rfl rfl rfl, fun _ _ => rfl⟩
  | noneFree => exact ⟨⟨rfl, rfl, List.prefix_rfl, List.prefix_rfl⟩, fun _ _ => rfl⟩
  | write e content =>
    exact ⟨.of_sameRing (sameRing_setData e content) _ rfl rfl rfl, fun _ _ => rfl⟩
  | release e | unlock e =>
    exact ⟨.of_sameRing (sameRing_unlockMessage (some e)) _ rfl rfl rfl, fun _ _ => rfl⟩
  | locks e p hlock | notLocked e p hlock =>
    have hring := sameRing_lockMessage (p := c.state.pump) (some e)
    rw [hlock] at hring
    exact ⟨.of_sameRing hring _ rfl rfl rfl, fun _ _ => rfl⟩
  | dispatch => exact absurd rfl ha

end Client

/-! ## A post by a callback -/

section PostOwn
variable {v : MsgId → ℕ → Option Callback} {c c' : Clients} {id : MsgId} {d : BufDescription}
  {ptr : Pointer} {success : Bool}

/-- It is a post of an own object, and always possible. -/
theorem postOwn_outcome (h : DeliveryInv firmware v c) (hd : firmware.messageBuffers id = some d)
    (hout : ¬ d.InPool ptr) :
    ∃ success c', postOwn c id ptr = some (success, c') ∧ DeliveryInv firmware v c' ∧
      ClientFrame c c' ∧ ∀ id', contentsOf c'.posted id' =
        contentsOf c.posted id' ++ if success = true ∧ id = id' then [copied d ptr] else [] := by
  obtain ⟨r, hpost, hr⟩ := postMessage_outcome c.state.pump ptr hd
  refine ⟨r.1, c.post (id, copied d ptr) r, ?_, h.postOwn hd hout hr,
    .of_post h hr (id, copied d ptr) _ rfl rfl rfl, contentsOf_post c (id, copied d ptr) r⟩
  simp only [postOwn, hd, Option.bind_some, hpost]

/-- The element of another pool is outside of the pool. -/
lemma pointerFrom_not_inPool (layout : Layout firmware) (p : Pump) {e : Elem} {d' : BufDescription}
    (hd : firmware.messageBuffers id = some d) (hd' : firmware.messageBuffers e.id = some d')
    (hne : e.id ≠ id) (hindex : e.index < d'.msgAmount) :
    ¬ d.InPool (Measuring.pointerFrom (fun id => layout.data id) p id e) := by
  rintro ⟨hlow, hhigh⟩
  have hoverhead : msgOverhead = 8 := rfl
  simp only [Measuring.pointerFrom, hd', Option.map_some, Option.getD_some, hoverhead] at hlow hhigh
  push_cast at hlow hhigh
  -- the element lies inside its own pool
  have hend : ((e.index : ℤ) + 1) * (d'.msgSize + 8) ≤ d'.msgAmount * (d'.msgSize + 8) := by
    exact_mod_cast Nat.mul_le_mul_right (d'.msgSize + 8) hindex
  have hbegin : (0 : ℤ) ≤ e.index * (d'.msgSize + 8) := by positivity
  rcases layout.disjoint e.id id d' d hd' hd hne with hapart | hapart
  · have hapart' : (layout.data e.id : ℤ) + d'.msgAmount * (d'.msgSize + 8) ≤ layout.data id := by
      exact_mod_cast hapart
    linarith
  · have hapart' : (layout.data id : ℤ) + d.msgAmount * (d.msgSize + 8) ≤ layout.data e.id := by
      exact_mod_cast hapart
    linarith

end PostOwn

end Powerboard.Application
