import Powerboard.Application.Measurements

/-!
# Clients side by side

Clients that keep off each other's pools do not see each other: a step depends on the own pools only,
and leaves the others. A client that hands its element over is told if the queue had room.
-/

namespace Powerboard.Application

open Machine MsgPump Measuring

/-! ## Other pools -/

section Others
variable {c c' o o' : Clients} {a : ClientAction} {d : BufDescription} {id : MsgId}

lemma data_of_postOutcome {p : Pump} {ptr : Pointer} {r : Bool × Pump}
    (hr : PostOutcome d p id ptr r) {e : Elem} (hne : e.id ≠ id) : r.2.data e = p.data e := by
  cases hr with
  | copied i =>
    have hne' : e ≠ ⟨id, i⟩ := fun heq => hne (heq ▸ rfl)
    exact Function.update_of_ne hne' _ _
  | full | misaligned | reserved | recovered | noneFree => rfl

/-- What a client finds in its own pools is all that its step depends on. -/
lemma clientStep_congr (ha : KeepsOff a) (hstate : c.state = o.state) (hlocks : c.locks = o.locks)
    (hreserved : ∀ e, ¬ MeasuringMessage e.id → c.reserved e = o.reserved e)
    (hstep : clientStep firmware o a = some o') :
    ∃ c', clientStep firmware c a = some c' ∧ c'.state = o'.state ∧ c'.locks = o'.locks ∧
      ∀ e, ¬ MeasuringMessage e.id → c'.reserved e = o'.reserved e := by
  have hupdate (e : Elem) (b : Bool) : ∀ e', ¬ MeasuringMessage e'.id →
      Function.update c.reserved e b e' = Function.update o.reserved e b e' := by
    intro e' he'
    by_cases heq : e' = e
    · rw [heq, Function.update_self, Function.update_self]
    · rw [Function.update_of_ne heq, Function.update_of_ne heq, hreserved e' he']
  cases a with
  | dispatch => exact ha.elim
  | postOwn id ptr =>
    simp only [clientStep, hstate] at hstep ⊢
    split at hstep
    · cases hstep
    · split at hstep
      · cases hstep
      · rename_i hout
        rw [if_neg hout]
        split at hstep
        · rename_i r hpost
          obtain rfl := Option.some.inj hstep
          refine ⟨_, rfl, ?_⟩
          unfold Clients.post
          split <;> exact ⟨by simp [Clients.setPump, hstate], hlocks, hreserved⟩
        · cases hstep
  | postReserved e =>
    simp only [clientStep, hstate, hlocks, hreserved e ha] at hstep ⊢
    split at hstep
    · cases hstep
    · split at hstep
      · rename_i hrules
        rw [if_pos hrules]
        split at hstep
        · rename_i r hpost
          obtain rfl := Option.some.inj hstep
          refine ⟨_, rfl, ?_⟩
          unfold Clients.post
          split
          · exact ⟨by simp [Clients.setPump, hstate], hlocks, hupdate e false⟩
          · exact ⟨by simp [Clients.setPump, hstate], hlocks, hreserved⟩
        · cases hstep
      · cases hstep
  | getFreeBuffer id =>
    simp only [clientStep, hstate] at hstep ⊢
    split at hstep
    · rename_i e p hget
      obtain rfl := Option.some.inj hstep
      exact ⟨_, rfl, by simp [Clients.setPump, hstate], hlocks, hupdate e true⟩
    · obtain rfl := Option.some.inj hstep
      exact ⟨_, rfl, by simp [Clients.setPump, hstate], hlocks, hreserved⟩
    · cases hstep
  | write e content =>
    simp only [clientStep, hstate, hreserved e ha] at hstep ⊢
    split at hstep
    · rename_i hres
      obtain rfl := Option.some.inj hstep
      rw [if_pos hres]
      exact ⟨_, rfl, by simp [Clients.setPump, hstate], hlocks, hreserved⟩
    · cases hstep
  | release e =>
    simp only [clientStep, hstate, hreserved e ha] at hstep ⊢
    split at hstep
    · rename_i hres
      obtain rfl := Option.some.inj hstep
      rw [if_pos hres]
      exact ⟨_, rfl, by simp [Clients.setPump, hstate], hlocks, hupdate e false⟩
    · cases hstep
  | lock e =>
    simp only [clientStep, hstate] at hstep ⊢
    split at hstep
    · obtain rfl := Option.some.inj hstep
      exact ⟨_, rfl, by simp [Clients.setPump, hstate], by simp [hlocks], hreserved⟩
    · obtain rfl := Option.some.inj hstep
      exact ⟨_, rfl, by simp [Clients.setPump, hstate], hlocks, hreserved⟩
  | unlock e =>
    simp only [clientStep, hstate, hlocks] at hstep ⊢
    split at hstep
    · rename_i hpos
      obtain rfl := Option.some.inj hstep
      rw [if_pos hpos]
      exact ⟨_, rfl, by simp [Clients.setPump, hstate], by simp, hreserved⟩
    · cases hstep

/-- What other clients leave as it is. -/
structure OffPools (c c' : Clients) : Prop where
  data : ∀ e, MeasuringMessage e.id → c'.state.pump.data e = c.state.pump.data e
  reserved : ∀ e, MeasuringMessage e.id → c'.reserved e = c.reserved e
  locks : ∀ e, MeasuringMessage e.id → c'.locks e = c.locks e
  account : ∀ ids owners, (∀ id, ids id → MeasuringMessage id) →
    Account firmware ids owners c.state → Account firmware ids owners c'.state

lemma OffPools.of_post {ptr : Pointer} {r : Bool × Pump} (message : MsgId × List UInt8)
    (hid : ¬ MeasuringMessage id) (hd : firmware.messageBuffers id = some d)
    (hr : PostOutcome d c.state.pump id ptr r) (c' : Clients)
    (hstate : c'.state = (c.post message r).state) (hlocks : c'.locks = c.locks)
    (hreserved : ∀ e, MeasuringMessage e.id → c'.reserved e = c.reserved e) : OffPools c c' := by
  have hpump : (c.post message r).state = { c.state with pump := r.2 } := by
    unfold Clients.post
    split <;> rfl
  rw [hpump] at hstate
  refine ⟨fun e he => ?_, hreserved, fun e _ => by rw [hlocks], fun ids owners hids haccount => ?_⟩
  · rw [hstate]
    exact data_of_postOutcome hr fun heq : e.id = id => hid (heq ▸ he)
  · rw [hstate]
    exact haccount.post (fun hin => hid (hids id hin)) hd hr

lemma clientStep_offPools (ha : KeepsOff a) (hstep : clientStep firmware c a = some c') :
    OffPools c c' := by
  have hupdate (e : Elem) (he : ¬ MeasuringMessage e.id) (b : Bool) : ∀ e', MeasuringMessage e'.id →
      Function.update c.reserved e b e' = c.reserved e' := by
    intro e' he'
    exact Function.update_of_ne (fun heq : e' = e => he (heq ▸ he')) _ _
  cases clientMoves_of_step hstep with
  | postOwn id ptr d r hd hout hr =>
    refine .of_post (id, copied d ptr) ha hd hr _ rfl ?_ ?_
    · unfold Clients.post
      split <;> rfl
    · unfold Clients.post
      split <;> exact fun _ _ => rfl
  | postReserved e d r hd hres hlocks hr =>
    refine .of_post (e.id, c.state.pump.data e) ha hd hr _ rfl ?_ ?_
    · unfold Clients.post
      split <;> rfl
    · dsimp only
      split
      · exact hupdate e ha false
      · exact fun _ _ => rfl
  | reserves id d i p hd hr =>
    refine ⟨fun e _ => congrFun hr.data e, hupdate ⟨id, i⟩ ha true, fun _ _ => rfl,
      fun _ _ hids h => ?_⟩
    exact h.getFreeOther (fun hin => ha (hids id hin)) hr
  | noneFree => exact ⟨fun _ _ => rfl, fun _ _ => rfl, fun _ _ => rfl, fun _ _ _ h => h⟩
  | write e content =>
    refine ⟨fun e' he' => ?_, fun _ _ => rfl, fun _ _ => rfl, fun _ _ _ h => ?_⟩
    · exact Function.update_of_ne (fun heq : e' = e => ha (heq ▸ he')) _ _
    · exact h.of_sameRing (sameRing_setData e content) fun _ _ => rfl
  | release e =>
    refine ⟨fun e' he' => ?_, hupdate e ha false, fun _ _ => rfl, fun _ _ hids h => ?_⟩
    · exact congrFun (unlockMessage_data (some e)) e'
    · exact h.unlockOther fun hin => ha (hids _ hin)
  | locks e p hlock =>
    have hdata := lockMessage_data (p := c.state.pump) (some e)
    rw [hlock] at hdata
    refine ⟨fun e' _ => congrFun hdata e', fun _ _ => rfl, fun e' he' => ?_, fun _ _ hids h => ?_⟩
    · exact Function.update_of_ne (fun heq : e' = e => ha (heq ▸ he')) _ _
    · have haccount := h.lockOther (e := e) fun hin => ha (hids _ hin)
      rw [hlock] at haccount
      exact haccount
  | notLocked e p hlock =>
    have hdata := lockMessage_data (p := c.state.pump) (some e)
    rw [hlock] at hdata
    refine ⟨fun e' _ => congrFun hdata e', fun _ _ => rfl, fun _ _ => rfl, fun _ _ hids h => ?_⟩
    have haccount := h.lockOther (e := e) fun hin => ha (hids _ hin)
    rw [hlock] at haccount
    exact haccount
  | unlock e =>
    refine ⟨fun e' he' => ?_, fun _ _ => rfl, fun e' he' => ?_, fun _ _ hids h => ?_⟩
    · exact congrFun (unlockMessage_data (some e)) e'
    · exact Function.update_of_ne (fun heq : e' = e => ha (heq ▸ he')) _ _
    · exact h.unlockOther fun hin => ha (hids _ hin)
  | dispatch => exact ha.elim

lemma KeepsOff.not_posts (ha : KeepsOff a) (hid : MeasuringMessage id) : ¬ Posts id a := by
  intro hposts
  cases a with
  | postOwn id' ptr => exact ha (hposts ▸ hid)
  | postReserved e => exact ha (hposts ▸ hid)
  | _ => exact hposts.elim

end Others

/-! ## A hand-over -/

section HandOver
variable {v : MsgId → ℕ → Option Callback} {c c' : Clients} {e : Elem}

lemma ClientFrame.trans {c'' : Clients} (h : ClientFrame c c') (h' : ClientFrame c' c'') :
    ClientFrame c c'' :=
  ⟨h'.calls.trans h.calls, h'.pc.trans h.pc, h.held.trans h'.held, h.posted.trans h'.posted⟩

/-- What was not posted is not queued. -/
lemma not_held {id : MsgId} (h : DeliveryInv firmware v c) (hnil : contentsOf c.posted id = [])
    (he : e ∈ c.state.held) : e.id ≠ id := by
  intro hid
  obtain ⟨delivered, hposted, -⟩ := h.history
  have hmem : c.state.pump.data e ∈ contentsOf c.posted id := by
    rw [hposted, contentsOf_append]
    apply List.mem_append_right
    exact List.mem_filterMap.mpr ⟨_, List.mem_map_of_mem he, if_pos hid⟩
  rw [hnil] at hmem
  cases hmem

section Posted
variable {id : MsgId} {content : List UInt8} {success : Bool}

lemma contentsOf_posted_self
    (hposted : c'.posted = c.posted ++ if success then [(id, content)] else []) :
    contentsOf c'.posted id = contentsOf c.posted id ++ if success then [content] else [] := by
  rw [hposted, contentsOf_append]
  cases success with
  | true => simp [contentsOf_singleton]
  | false => simp [contentsOf]

lemma contentsOf_posted_of_ne
    (hposted : c'.posted = c.posted ++ if success then [(id, content)] else []) (id' : MsgId)
    (hne : id ≠ id') : contentsOf c'.posted id' = contentsOf c.posted id' := by
  rw [hposted, contentsOf_append]
  cases success with
  | true => simp [contentsOf_singleton, hne]
  | false => simp [contentsOf]

end Posted

/-- A post of an element that `measuring.c` has reserved. -/
structure HandedOver (c : Clients) (e : Elem) (r : Bool × Pump) (c' : Clients) : Prop where
  step : clientStep firmware c (.postReserved e) = some c'
  success : r.1 = true ↔ ¬ c.state.pump.Full
  state : c'.state = { c.state with pump := r.2 }
  posted : c'.posted = c.posted ++ if r.1 then [(e.id, c.state.pump.data e)] else []
  locks : c'.locks = c.locks
  reserved : ∀ e', e' ≠ e → c'.reserved e' = c.reserved e'
  data : r.2.data = c.state.pump.data
  account : ∀ ids owners, ¬ ids e.id → Account firmware ids owners c.state →
    Account firmware ids owners c'.state

/-- It is taken if the queue has room. -/
theorem handOver (dataAddress : MsgId → ℤ) (h : DeliveryInv firmware v c)
    (hres : c.reserved e = true) (hlocks : c.locks e = 0) :
    ∃ r c', postMessage firmware c.state.pump e.id
        (some (pointerFrom dataAddress c.state.pump e.id e)) = .ok r ∧ HandedOver c e r c' := by
  obtain ⟨-, -, d, hd, hindex⟩ := h.reserved e hres
  have hptr : pointerFrom dataAddress c.state.pump e.id e =
      d.pointerTo e.index fun k => (c.state.pump.data e).getD k 0 := by
    simp [pointerFrom, BufDescription.pointerTo, hd]
  obtain ⟨r, hpost, hr⟩ := postMessage_outcome c.state.pump
    (d.pointerTo e.index fun k => (c.state.pump.data e).getD k 0) hd
  have hstep : clientStep firmware c (.postReserved e) =
      some { c.post (e.id, c.state.pump.data e) r with
        reserved := if r.1 then Function.update c.reserved e false else c.reserved } := by
    simp only [clientStep, hd]
    rw [if_pos ⟨hres, hlocks⟩, hpost]
  rcases hr.of_reserved (d.pointsTo_pointerTo hindex _) (h.header_of_reserved hres hlocks) with
    ⟨rfl, hroom⟩ | ⟨rfl, hfull⟩
  · refine ⟨_, _, by rw [hptr]; exact hpost, hstep, iff_of_true rfl hroom, rfl, rfl, rfl, ?_, rfl,
      fun _ _ hnot haccount => haccount.post hnot hd hr⟩
    exact fun e' hne => Function.update_of_ne hne _ _
  · exact ⟨_, _, by rw [hptr]; exact hpost, hstep, iff_of_false Bool.false_ne_true
      (not_not.mpr hfull), rfl, (List.append_nil _).symm, rfl, fun _ _ => rfl, rfl,
      fun _ _ hnot haccount => haccount.post hnot hd hr⟩

end HandOver

end Powerboard.Application
