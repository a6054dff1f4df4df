import Powerboard.Protocol.MsgProxy
import Powerboard.MsgPump.CallbacksTheorems
import Powerboard.Protocol.Send

/-!
# When the proxy does not echo

The endpoint itself sends nothing back. A message that it has posted is sent back when its id is
registered for broadcast, which is so for the ids that the firmware both accepts and distributes.
-/

namespace Powerboard.MsgProxy

open Bytes Machine MsgPump GenericProtocol

variable {t : BufTable} {dataAddress : MsgId → ℤ} {interfacesCount : ℕ}
  {handles : List EndpointHandle} {s s' : Proxy} {callbackVector : MsgId → ℕ → Option Callback}
  {data : Elem → List UInt8}

/-- The invariant: what the proxy broadcasts was not posted for a packet from an interface. -/
structure ProxyInv (t : BufTable) (interfacesCount : ℕ) (s : Proxy) : Prop where
  wellFormed : WellFormed t s.state
  noEcho : NoEcho s
  broadcasting : ∀ id data origin i, s.running = some (.broadcasting id data origin i) →
    ∀ interface, origin = some interface → interfacesCount ≤ interface.toNat

lemma ProxyInv.setPump (h : ProxyInv t interfacesCount s) {p : Pump}
    (hwf : WellFormed t { s.state with pump := p }) : ProxyInv t interfacesCount (s.setPump p) :=
  ⟨hwf, h.noEcho, h.broadcasting⟩

/-- A frame that does not go to where its cause came from can be sent. -/
lemma NoEcho.append (h : NoEcho s) {frame : Frame}
    (hframe : ∀ interface, frame.cause = some interface → frame.interface ≠ interface.toNat) :
    ∀ f ∈ s.frames ++ [frame], ∀ interface, f.cause = some interface →
      f.interface ≠ interface.toNat := by
  intro f hf
  rw [List.mem_append, List.mem_singleton] at hf
  rcases hf with hf | rfl
  · exact h f hf
  · exact hframe

/-- A step of a running function of the proxy sends no echo. -/
lemma ProxyInv.runProxy (h : ProxyInv t interfacesCount s) {pc : ProxyPc}
    (hpc : s.running = some pc) (hrun : runProxy t dataAddress interfacesCount s pc = some s') :
    ProxyInv t interfacesCount s' := by
  cases pc with
  | entered call =>
    unfold MsgProxy.runProxy at hrun
    dsimp only at hrun
    split at hrun
    · rename_i id hid
      split at hrun
      · rename_i r hpost
        obtain rfl := Option.some.inj hrun
        refine ⟨?_, h.noEcho, fun _ _ _ _ hrunning => by cases hrunning⟩
        rcases postMessage_cases hpost with ⟨d, hd, hr⟩ | rfl
        · exact h.wellFormed.post hd hr
        · exact h.wellFormed
      · cases hrun
    · obtain rfl := Option.some.inj hrun
      exact ⟨h.wellFormed, h.noEcho, fun _ _ _ _ hrunning => by cases hrunning⟩
  | forwarding call i =>
    unfold MsgProxy.runProxy at hrun
    dsimp only at hrun
    split at hrun
    · obtain rfl := Option.some.inj hrun
      refine ⟨h.wellFormed, ?_, fun _ _ _ _ hrunning => by cases hrunning⟩
      -- the loop leaves out the interface that the packet came from
      unfold NoEcho
      dsimp only
      split
      · rename_i hother
        apply h.noEcho.append
        intro interface hcause
        obtain rfl := Option.some.inj hcause
        exact Ne.symm hother
      · exact h.noEcho
    · obtain rfl := Option.some.inj hrun
      exact ⟨h.wellFormed, h.noEcho, fun _ _ _ _ hrunning => by cases hrunning⟩
  | broadcasting id data origin i =>
    have horigin := h.broadcasting id data origin i hpc
    unfold MsgProxy.runProxy at hrun
    dsimp only at hrun
    split at hrun
    · split at hrun
      · rename_i hi
        obtain rfl := Option.some.inj hrun
        refine ⟨h.wellFormed, ?_, ?_⟩
        · apply h.noEcho.append
          intro interface hcause
          -- a broadcast of this origin has begun only if its interface is none of these
          have hge := horigin interface hcause
          dsimp only
          omega
        · intro id' data' origin' i' hrunning
          simp only [Option.some.injEq, ProxyPc.broadcasting.injEq] at hrunning
          obtain ⟨-, -, rfl, -⟩ := hrunning
          exact horigin
      · obtain rfl := Option.some.inj hrun
        exact ⟨h.wellFormed, h.noEcho, fun _ _ _ _ hrunning => by cases hrunning⟩
    · obtain rfl := Option.some.inj hrun
      exact ⟨h.wellFormed, h.noEcho, fun _ _ _ _ hrunning => by cases hrunning⟩

/-- A step of the pump that is safe begins no broadcast of what the endpoint has posted. -/
lemma ProxyInv.dispatch (h : ProxyInv t interfacesCount s)
    (hsafe : BroadcastSafe interfacesCount s .dispatch) {r : PumpState × Option Call}
    (hr : DispatchOutcome t s.state r) :
    ProxyInv t interfacesCount
      { s with state := r.1, running := r.2.bind (calledProxy handles s) } := by
  refine ⟨h.wellFormed.dispatch hr, h.noEcho, ?_⟩
  intro id data origin i hrunning interface horigin
  simp only [Option.bind_eq_some_iff] at hrunning
  obtain ⟨call, hcall, hcalled⟩ := hrunning
  cases hr with
  | idle | start | returned | unlock | finish => cases hcall
  | call m rest k hpc hk hqueue =>
    obtain ⟨callback, hcallback, rfl⟩ := Option.map_eq_some_iff.mp hcall
    have hfront : s.front = m := h.wellFormed.ring.front_eq hqueue
    unfold calledProxy at hcalled
    dsimp only at hcalled
    split at hcalled
    · rename_i hmsg
      simp only [Option.some.injEq, ProxyPc.broadcasting.injEq] at hcalled
      obtain ⟨-, -, hfrontOrigin, -⟩ := hcalled
      -- the callback was called for a message of the endpoint, which is not safe
      by_contra hlt
      simp only [BroadcastSafe, hpc, hfrontOrigin, horigin] at hsafe
      apply hsafe hk (Nat.lt_of_not_le hlt)
      rw [hfront, hcallback, hmsg]
    · split at hcalled
      · simp only [Option.bind_eq_bind, Option.bind_eq_some_iff] at hcalled
        obtain ⟨_, -, _, -, hite⟩ := hcalled
        split at hite <;> cases hite
      · cases hcalled

/-- Registering and unregistering leave the queue. -/
lemma sameRing_registerOnMessage {p : Pump} {id : MsgId} {callback : Callback} {r : Bool × Pump}
    (h : registerOnMessage t p id (some callback) = .ok r) : SameRing p r.2 := by
  cases registerOnMessage_outcome h <;> exact ⟨rfl, rfl, rfl, rfl⟩

lemma sameRing_unregisterFromMessage {p : Pump} {id : MsgId} {callback : Option Callback}
    {r : Bool × Pump} (h : unregisterFromMessage t p id callback = .ok r) : SameRing p r.2 := by
  rcases unregisterFromMessage_snd h with heq | ⟨i, heq⟩ <;> rw [heq] <;> exact ⟨rfl, rfl, rfl, rfl⟩

/-- Every safe step keeps the invariant. -/
lemma ProxyInv.step {a : ProxyAction} (h : ProxyInv t interfacesCount s)
    (hsafe : BroadcastSafe interfacesCount s a)
    (hstep : proxyStep t dataAddress interfacesCount handles s a = some s') :
    ProxyInv t interfacesCount s' := by
  cases a with
  | addMsgForBroadcast msgID =>
    simp only [proxyStep] at hstep
    split at hstep
    · rename_i r hr
      obtain rfl := Option.some.inj hstep
      exact h.setPump (h.wellFormed.of_sameRing (sameRing_registerOnMessage hr))
    · cases hstep
  | rmMsgForBroadcast msgID =>
    simp only [proxyStep] at hstep
    split at hstep
    · rename_i r hr
      obtain rfl := Option.some.inj hstep
      exact h.setPump (h.wellFormed.of_sameRing (sameRing_unregisterFromMessage hr))
    · cases hstep
  | runProxy =>
    obtain ⟨pc, hpc, hrun⟩ := Option.bind_eq_some_iff.mp hstep
    exact h.runProxy hpc hrun
  | dispatch =>
    obtain ⟨r, hdispatch, hr⟩ := dispatch_outcome h.wellFormed
    simp only [proxyStep, hdispatch] at hstep
    split at hstep
    · cases hstep
    · obtain rfl := Option.some.inj hstep
      exact h.dispatch hsafe hr
  | post id ptr =>
    simp only [proxyStep] at hstep
    split at hstep
    · rename_i r hpost
      obtain rfl := Option.some.inj hstep
      refine ⟨?_, h.noEcho, h.broadcasting⟩
      rcases postMessage_cases hpost with ⟨d, hd, hr⟩ | rfl
      · exact h.wellFormed.post hd hr
      · exact h.wellFormed
    · cases hstep
  | getFreeBuffer id =>
    simp only [proxyStep] at hstep
    split at hstep
    · rename_i r hget
      obtain rfl := Option.some.inj hstep
      rcases getFreeBuffer_cases hget with ⟨d, -, hr⟩ | rfl
      · exact h.setPump (h.wellFormed.of_sameRing hr.sameRing)
      · exact h.setPump h.wellFormed
    · cases hstep
  | lock e =>
    obtain rfl := Option.some.inj hstep
    exact h.setPump (h.wellFormed.of_sameRing (sameRing_lockMessage _))
  | unlock e =>
    obtain rfl := Option.some.inj hstep
    exact h.setPump (h.wellFormed.of_sameRing (sameRing_unlockMessage _))
  | write e content =>
    obtain rfl := Option.some.inj hstep
    exact h.setPump (h.wellFormed.of_sameRing (sameRing_setData _ _))

lemma proxyInv_start : ProxyInv t interfacesCount (proxyStart callbackVector data) := by
  refine ⟨wellFormed_initial _ _, ?_, ?_⟩
  · intro frame hframe
    cases hframe
  · intro id data origin i hrunning
    cases hrunning

/-- In every run in which no message that the endpoint has posted is given to the callback of the
proxy, nothing is sent back to the interface it came from. -/
theorem noEcho_of_broadcastSafe (t : BufTable) (dataAddress : MsgId → ℤ) (interfacesCount : ℕ)
    (handles : List EndpointHandle) (callbackVector : MsgId → ℕ → Option Callback)
    (data : Elem → List UInt8) (actions : List ProxyAction)
    (hsafe : StepsMeet (proxyStep t dataAddress interfacesCount handles)
      (BroadcastSafe interfacesCount) (proxyStart callbackVector data) actions) :
    StatesMeet (proxyStep t dataAddress interfacesCount handles) NoEcho
      (proxyStart callbackVector data) actions := by
  have hinv := exec_induction_of_steps (proxyStep t dataAddress interfacesCount handles)
    (fun _ _ _ h hC hstep => ProxyInv.step h hC hstep) proxyInv_start hsafe
  intro pre post u heq hu
  exact (hinv pre post u heq hu).noEcho

/-! ## The power board -/

/-- A message for the endpoint of the proxy with this external id and 20 bytes of data, as the
receiver posts it. -/
def proxyPacket (externalID : UInt16) : Packet :=
  { payloadLen := 22
    interface := 0
    subProtocolID := msgProxyEndpointId
    packet := Vector.ofFn fun i => (ofHalfWord externalID).getD i 0 }

/-- The pools are 4096 bytes from each other. -/
def poolAddress (id : MsgId) : ℤ := 4096 * id

/-- The callbacks before `initDataDistribution`: the one of the packet dispatcher. -/
def dispatcherOnly (id : MsgId) (i : ℕ) : Option Callback :=
  if id = msgIdGenericProtocolPacketReady ∧ i = 0 then some onReceivedPacketMsgPumpCallback else none

/-- A packet is posted and dispatched to the endpoint, which runs to its end; the message that it has
posted is dispatched to its first callback, which takes a step. -/
def receiveAndDispatch (externalID : UInt16) : List ProxyAction :=
  List.flatten
    [ [ProxyAction.post msgIdGenericProtocolPacketReady
        { ptrOffset := -1, bytes := fun k => (proxyPacket externalID).encode.getD k 0 }],
      List.replicate 2 ProxyAction.dispatch, List.replicate 3 ProxyAction.runProxy,
      List.replicate 8 ProxyAction.dispatch ]

/-- Without a registration for broadcast the message is not sent back. -/
theorem noEcho_of_broadcastSafe_unregistered :
    StatesMeet (proxyStep firmware poolAddress phyInterfacesCount [incommingEndpointHandle]) NoEcho
      (proxyStart dispatcherOnly fun _ => []) (receiveAndDispatch 1) :=
  noEcho_of_broadcastSafe firmware _ _ _ _ _ _ (by decide +kernel)

/-- With the registrations of `initDataDistribution`, a power state received on the interface is sent
back on it. -/
theorem power_state_is_echoed :
    ∃ s, exec (proxyStep firmware poolAddress phyInterfacesCount [incommingEndpointHandle])
        (proxyStart dispatcherOnly fun _ => [])
        ([.addMsgForBroadcast msgIdSystemPowerStateOut,
          .addMsgForBroadcast msgIdRelativeBatteryVoltageOut] ++
          (receiveAndDispatch 1 ++ [.runProxy])) = some s ∧
      ¬ NoEcho s := by
  have hrun : (exec (proxyStep firmware poolAddress phyInterfacesCount [incommingEndpointHandle])
      (proxyStart dispatcherOnly fun _ => [])
      ([.addMsgForBroadcast msgIdSystemPowerStateOut,
        .addMsgForBroadcast msgIdRelativeBatteryVoltageOut] ++
        (receiveAndDispatch 1 ++ [.runProxy]))).map (fun s => s.frames) =
      some [{ interface := 0, subProtocolID := msgProxyEndpointId,
              payload := [1, 0] ++ List.replicate 20 0, cause := some 0 }] := by
    decide +kernel
  obtain ⟨s, hs, hframes⟩ := Option.map_eq_some_iff.mp hrun
  refine ⟨s, hs, fun hno => ?_⟩
  exact hno _ (hframes ▸ List.mem_singleton_self _) 0 rfl rfl

end Powerboard.MsgProxy
