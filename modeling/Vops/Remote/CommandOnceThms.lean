import Vops.Remote.CommandRuns

/-!
# A command is executed at most once

`rememberCommand` is the point at which calls are serialised: of all calls with one command id, and of all
calls with one nonce, at most one comes past it.

* `VerifiedAgainst` — what a call has found when it executes a command: the device as it was stored, its
  binding, its key, the signature, the time, the role.
* `Evidence` — what it has found so far, phase by phase.
* `Commands` — the invariant: the reservation of a command id and of a nonce belongs to one call.
* `commands_execute_once` — along every schedule a command id, and a nonce, is executed at most once, and
  only behind the checks.
-/

set_option linter.unusedSectionVars false

namespace Vops.RemoteCommandHandler

open Async

variable {ι : Type} [DecidableEq ι]

/-! ## Pools of calls -/

/-- What the calls have done, in which state. -/
abbrev CommandLog (ι : Type) := List (Pool.Event RemoteOp ι RemoteWorld)

/-- Calls at work, and what they have done. -/
abbrev CommandPool (ι : Type) :=
  Pool RemoteOp RemoteRes RemoteFailure Unit ι (RemoteWorld × CommandLog ι)

/-- The calls, before their first operation. -/
def startCommands (calls : ι → CommandCall) (w : RemoteWorld) : CommandPool ι :=
  ⟨(w, []), fun i => (calls i).prog⟩

/-- The event is the execution of a command that satisfies `P`. -/
def executes (P : SignedRemoteCommandPayload → Bool) (e : Pool.Event RemoteOp ι RemoteWorld) : Bool :=
  match e.op with
  | .execute _ payload => P payload
  | _ => false

/-- The event is an execution by the call. -/
def executedBy (i : ι) (e : Pool.Event RemoteOp ι RemoteWorld) : Bool :=
  decide (e.task = i) && executes (fun _ => true) e

/-! ## What a call has found -/

/-- The call has performed an operation, in a state that satisfies `P`. -/
def Did (i : ι) (log : CommandLog ι) (o : RemoteOp) (P : RemoteWorld → Prop) : Prop :=
  ∃ e ∈ log, e.task = i ∧ e.op = o ∧ P e.before

/-- The device is the one that the call has read under the route of its envelope. -/
abbrev ReadDevice (i : ι) (log : CommandLog ι) (envelopeDevice device : RemoteDevice) : Prop :=
  Did i log (.getDeviceByRoute envelopeDevice.routeId) fun w =>
    w.deviceByRoute envelopeDevice.routeId = some device

/-- The command is bound to the device and to this control node. -/
structure FoundBound (env : RemoteEnv) (i : ι) (log : CommandLog ι) (envelopeDevice : RemoteDevice)
    (signed : SignedRemoteCommandV1) (device : RemoteDevice) : Prop where
  read : ReadDevice i log envelopeDevice device
  bound : BoundTo signed device
  node : Did i log .nodeIdentity fun w => env.nodeIdentity w.answers = .ok signed.payload.node_id

/-- The signature of the command is valid under the device's key. -/
structure FoundSigned (env : RemoteEnv) (i : ι) (log : CommandLog ι) (envelopeDevice : RemoteDevice)
    (signed : SignedRemoteCommandV1) (device : RemoteDevice) : Prop
    extends FoundBound env i log envelopeDevice signed device where
  signature : env.verifyDeviceSignature signed.payload signed.signature device.signingPublicKey =
    .ok true

/-- The command is verified against the device: it is signed, at a reading of the clock in its time, and
the role allows it. -/
structure VerifiedAgainst (env : RemoteEnv) (i : ι) (log : CommandLog ι)
    (envelopeDevice : RemoteDevice) (signed : SignedRemoteCommandV1) (device : RemoteDevice) : Prop
    extends FoundSigned env i log envelopeDevice signed device where
  time : Did i log (.agent .now) fun w =>
    validateCommandTime signed.payload (env.agent.clock w.agent.answers) = .ok ()
  role : authorizeRole device signed.payload = .ok ()

/-- What a call in a phase has found. -/
def Evidence (env : RemoteEnv) (i : ι) (log : CommandLog ι) (envelopeDevice : RemoteDevice)
    (signed : SignedRemoteCommandV1) : CommandPhase → Prop
  | .read device => ReadDevice i log envelopeDevice device
  | .bound device => FoundBound env i log envelopeDevice signed device
  | .signed device => FoundSigned env i log envelopeDevice signed device
  | .verified device => VerifiedAgainst env i log envelopeDevice signed device
  | .reserved device => VerifiedAgainst env i log envelopeDevice signed device
  | _ => True

section Evidence

variable {env : RemoteEnv} {i : ι} {log : CommandLog ι} {envelopeDevice device : RemoteDevice}
  {signed : SignedRemoteCommandV1} {o : RemoteOp} {P : RemoteWorld → Prop}

theorem Did.mono (h : Did i log o P) (e : Pool.Event RemoteOp ι RemoteWorld) :
    Did i (log ++ [e]) o P := by
  obtain ⟨e', he', h⟩ := h
  exact ⟨e', List.mem_append_left _ he', h⟩

theorem Did.last {w : RemoteWorld} (hw : P w) : Did i (log ++ [⟨i, o, w⟩]) o P :=
  ⟨⟨i, o, w⟩, by simp, rfl, rfl, hw⟩

theorem FoundBound.mono (h : FoundBound env i log envelopeDevice signed device)
    (e : Pool.Event RemoteOp ι RemoteWorld) :
    FoundBound env i (log ++ [e]) envelopeDevice signed device :=
  ⟨h.read.mono e, h.bound, h.node.mono e⟩

theorem FoundSigned.mono (h : FoundSigned env i log envelopeDevice signed device)
    (e : Pool.Event RemoteOp ι RemoteWorld) :
    FoundSigned env i (log ++ [e]) envelopeDevice signed device :=
  ⟨h.toFoundBound.mono e, h.signature⟩

theorem VerifiedAgainst.mono (h : VerifiedAgainst env i log envelopeDevice signed device)
    (e : Pool.Event RemoteOp ι RemoteWorld) :
    VerifiedAgainst env i (log ++ [e]) envelopeDevice signed device :=
  ⟨h.toFoundSigned.mono e, h.time.mono e, h.role⟩

/-- What was found stays found. -/
theorem Evidence.mono {φ : CommandPhase} (h : Evidence env i log envelopeDevice signed φ)
    (e : Pool.Event RemoteOp ι RemoteWorld) :
    Evidence env i (log ++ [e]) envelopeDevice signed φ := by
  cases φ with
  | read device =>
      have hread : ReadDevice i log envelopeDevice device := h
      exact Did.mono hread e
  | bound device => exact FoundBound.mono h e
  | signed device => exact FoundSigned.mono h e
  | verified device => exact VerifiedAgainst.mono h e
  | reserved device => exact VerifiedAgainst.mono h e
  | _ => trivial

end Evidence

/-! ## The invariant -/

/-- A command that has been reserved is in the tables, under its id and its nonce. -/
def Reserved (w : RemoteWorld) (payload : SignedRemoteCommandPayload) : Prop :=
  (∃ r ∈ w.commands, r.command_id = payload.command_id) ∧ ∃ r ∈ w.nonces, r.nonce = payload.nonce

/-- A call whose level is not `idle` holds the reservation of its command. -/
def CommandPhase.Holds (φ : CommandPhase) : Prop := φ.level ≠ .idle

/-- A call at one of these levels has executed its command. -/
def CommandLevel.began : CommandLevel → Bool
  | idle | reserved => false
  | begun | finished | stored => true

/-- Executions stand behind the checks of their call. -/
def Justified (env : RemoteEnv) (calls : ι → CommandCall) (log : CommandLog ι) : Prop :=
  ∀ l₁ e l₂, log = l₁ ++ e :: l₂ → ∀ device payload, e.op = .execute device payload →
    ∃ envelopeDevice signed, (calls e.task).Brings envelopeDevice signed ∧
      payload = signed.payload ∧ VerifiedAgainst env e.task l₁ envelopeDevice signed device

/-- What holds at every moment. -/
structure Commands (env : RemoteEnv) (calls : ι → CommandCall) (φ : ι → CommandPhase)
    (s : RemoteWorld × CommandLog ι) : Prop where
  evidence : ∀ i envelopeDevice signed, (calls i).Brings envelopeDevice signed →
    Evidence env i s.2 envelopeDevice signed (φ i)
  reserved : ∀ i, (φ i).Holds → ∀ envelopeDevice signed, (calls i).Brings envelopeDevice signed →
    Reserved s.1 signed.payload
  apart : ∀ i j, i ≠ j → (φ i).Holds → (φ j).Holds → ∀ d signed d' signed',
    (calls i).Brings d signed → (calls j).Brings d' signed' →
      signed.payload.command_id ≠ signed'.payload.command_id ∧
        signed.payload.nonce ≠ signed'.payload.nonce
  once : ∀ i, s.2.countP (executedBy i) = if (φ i).level.began then 1 else 0
  justified : Justified env calls s.2

section Steps

variable {env : RemoteEnv} {calls : ι → CommandCall} {φ : ι → CommandPhase}
  {s : RemoteWorld × CommandLog ι} {i : ι} {φ' : CommandPhase} {w' : RemoteWorld} {o : RemoteOp}

/-- One more event at the end of a log that is split. -/
theorem split_concat {α : Type} {log l₁ l₂ : List α} {e e' : α} (h : log ++ [e'] = l₁ ++ e :: l₂) :
    (l₁ = log ∧ e = e') ∨ ∃ l₂', log = l₁ ++ e :: l₂' := by
  rcases List.eq_nil_or_concat l₂ with rfl | ⟨l₂', e'', rfl⟩
  · obtain ⟨rfl, hlast⟩ := List.append_inj' h rfl
    exact .inl ⟨rfl, (List.cons.inj hlast).1.symm⟩
  · have h' : log ++ [e'] = (l₁ ++ e :: l₂') ++ [e''] := by simpa using h
    exact .inr ⟨l₂', (List.append_inj' h' rfl).1⟩

/-- What a step has to show. -/
theorem Commands.step (h : Commands env calls φ s)
    (hmono : ∀ payload, Reserved s.1 payload → Reserved w' payload)
    (hev : ∀ d signed, (calls i).Brings d signed →
      Evidence env i (s.2 ++ [⟨i, o, s.1⟩]) d signed φ')
    (hheld : φ'.Holds → (φ i).Holds ∨ ∀ d signed, (calls i).Brings d signed →
      Reserved w' signed.payload ∧ s.1.taken signed.payload.command_id signed.payload.nonce = false)
    (honce : executes (fun _ => true) (⟨i, o, s.1⟩ : Pool.Event RemoteOp ι RemoteWorld) = false ∧
        φ'.level.began = (φ i).level.began ∨
      (φ i).level.began = false ∧ φ'.level.began = true ∧
        executes (fun _ => true) (⟨i, o, s.1⟩ : Pool.Event RemoteOp ι RemoteWorld) = true)
    (hjust : ∀ device payload, o = .execute device payload →
      ∃ d signed, (calls i).Brings d signed ∧ payload = signed.payload ∧
        VerifiedAgainst env i s.2 d signed device) :
    Commands env calls (Function.update φ i φ') (w', s.2 ++ [⟨i, o, s.1⟩]) := by
  -- A call that comes to hold a reservation shares neither key with one that held one before.
  have hnew : ∀ j, j ≠ i → φ'.Holds → (φ j).Holds → ∀ d signed d' signed',
      (calls i).Brings d signed → (calls j).Brings d' signed' →
        signed.payload.command_id ≠ signed'.payload.command_id ∧
          signed.payload.nonce ≠ signed'.payload.nonce := by
    intro j hj hi' hj' d signed d' signed' hb hb'
    rcases hheld hi' with hold | hfree
    · exact h.apart i j (Ne.symm hj) hold hj' d signed d' signed' hb hb'
    · obtain ⟨-, htaken⟩ := hfree d signed hb
      obtain ⟨⟨r, hr, hid⟩, n, hn, hnonce⟩ := h.reserved j hj' d' signed' hb'
      simp only [RemoteWorld.taken, Bool.or_eq_false_iff, List.any_eq_false, beq_iff_eq] at htaken
      refine ⟨fun heq => htaken.1 r hr (hid.trans heq.symm), fun heq => ?_⟩
      have hfalse := htaken.2 n hn
      simp [hnonce, heq] at hfalse
  refine ⟨?_, ?_, ?_, ?_, ?_⟩
  · refine (Function.forall_update_iff φ fun j ψ => ∀ d signed, (calls j).Brings d signed →
      Evidence env j (s.2 ++ [⟨i, o, s.1⟩]) d signed ψ).mpr ⟨hev, fun j _ d signed hb => ?_⟩
    exact (h.evidence j d signed hb).mono _
  · refine (Function.forall_update_iff φ fun j ψ => ψ.Holds → ∀ d signed,
      (calls j).Brings d signed → Reserved w' signed.payload).mpr ⟨?_, fun j _ hj d signed hb => ?_⟩
    · intro hi' d signed hb
      rcases hheld hi' with hold | hfree
      · exact hmono _ (h.reserved i hold d signed hb)
      · exact (hfree d signed hb).1
    · exact hmono _ (h.reserved j hj d signed hb)
  · intro j j' hne hj hj' d signed d' signed' hb hb'
    by_cases hji : j = i
    · subst hji
      rw [Function.update_self] at hj
      rw [Function.update_of_ne (Ne.symm hne)] at hj'
      exact hnew j' (Ne.symm hne) hj hj' d signed d' signed' hb hb'
    · rw [Function.update_of_ne hji] at hj
      by_cases hji' : j' = i
      · subst hji'
        rw [Function.update_self] at hj'
        obtain ⟨hid, hnonce⟩ := hnew j hne hj' hj d' signed' d signed hb' hb
        exact ⟨hid.symm, hnonce.symm⟩
      · rw [Function.update_of_ne hji'] at hj'
        exact h.apart j j' hne hj hj' d signed d' signed' hb hb'
  · refine (Function.forall_update_iff φ fun j ψ =>
      (s.2 ++ [⟨i, o, s.1⟩] : CommandLog ι).countP (executedBy j) =
        if ψ.level.began then 1 else 0).mpr
      ⟨?_, fun j hj => ?_⟩
    · rw [List.countP_append, h.once i, List.countP_singleton]
      rcases honce with ⟨hno, hsame⟩ | ⟨hbefore, hafter, hyes⟩
      · simp [executedBy, hno, hsame]
      · simp [executedBy, hbefore, hafter, hyes]
    · rw [List.countP_append, h.once j, List.countP_singleton]
      simp [executedBy, Ne.symm hj]
  · intro l₁ e l₂ hsplit device payload he
    rcases split_concat hsplit with ⟨rfl, rfl⟩ | ⟨l₂', hlog⟩
    · exact hjust device payload he
    · exact h.justified l₁ e l₂' hlog device payload he

/-- The tables keep what is in them. -/
theorem reserved_mono (env : RemoteEnv) (o : RemoteOp) (w : RemoteWorld)
    {payload : SignedRemoteCommandPayload} (h : Reserved w payload) :
    Reserved (remoteHandle env o w).2 payload := by
  by_cases ho : o.ofCommand = false
  · obtain ⟨hcommands, hnonces⟩ := commands_of_not_ofCommand env w ho
    unfold Reserved
    rw [hcommands, hnonces]
    exact h
  · obtain ⟨⟨r, hr, hid⟩, n, hn, hnonce⟩ := h
    cases o with
    | rememberCommand id deviceId nonce record =>
        simp only [remoteHandle]
        split
        · exact ⟨⟨r, hr, hid⟩, n, hn, hnonce⟩
        · exact ⟨⟨r, List.mem_append_left _ hr, hid⟩, n, List.mem_append_left _ hn, hnonce⟩
    | saveCommandResult id record =>
        refine ⟨⟨_, List.mem_map_of_mem hr, ?_⟩, n, hn, hnonce⟩
        split <;> exact hid
    | execute device payload => exact ⟨⟨r, hr, hid⟩, n, hn, hnonce⟩
    | executed id => exact ⟨⟨r, hr, hid⟩, n, hn, hnonce⟩
    | _ => exact absurd rfl ho

/-- Every step keeps what holds at every moment. -/
theorem commands_step {p : CommandPool ι} {k : RemoteRes o → RemoteProg Unit}
    (ht : p.task i = .await o k)
    (hT : CommandStep env (calls i) (φ i) o (Pool.recorded (remoteHandle env) i o p.state).1 φ')
    (h : Commands env calls φ p.state) :
    Commands env calls (Function.update φ i φ') (p.step (Pool.recorded (remoteHandle env)) i).state := by
  rw [Pool.step_of_await ht]
  show Commands env calls _ ((remoteHandle env o p.state.1).2, p.state.2 ++ [⟨i, o, p.state.1⟩])
  have hmono : ∀ payload, Reserved p.state.1 payload →
      Reserved (remoteHandle env o p.state.1).2 payload := fun _ => reserved_mono env o p.state.1
  generalize hφ : φ i = φi at hT
  generalize hx : (Pool.recorded (remoteHandle env) i o p.state).1 = x at hT
  have hev : ∀ d signed, (calls i).Brings d signed →
      Evidence env i (p.state.2 ++ [⟨i, o, p.state.1⟩]) d signed φi := by
    intro d signed hb
    exact hφ ▸ (h.evidence i d signed hb).mono _
  cases hT with
  | aside ψ o x ho =>
      refine h.step hmono hev (fun hh => .inl (hφ ▸ hh)) (.inl ⟨?_, by rw [hφ]⟩) ?_
      · cases o <;> first | rfl | cases ho
      · rintro device payload rfl
        cases ho
  | refused ψ id deviceId nonce record =>
      exact h.step hmono hev (fun hh => .inl (hφ ▸ hh)) (.inl ⟨rfl, by rw [hφ]⟩) (by rintro _ _ ⟨⟩)
  | read d signed hc device =>
      refine h.step hmono ?_ (fun hh => absurd rfl hh) (.inl ⟨rfl, by rw [hφ]; rfl⟩) (by rintro _ _ ⟨⟩)
      intro d' signed' hb
      obtain ⟨rfl, rfl⟩ := hc.eq hb
      have hread : ReadDevice i (p.state.2 ++ [⟨i, _, p.state.1⟩]) d device := Did.last hx
      exact hread
  | bind d signed hc device hd =>
      refine h.step hmono ?_ (fun hh => absurd rfl hh) (.inl ⟨rfl, by rw [hφ]; rfl⟩) (by rintro _ _ ⟨⟩)
      intro d' signed' hb
      have hread := hev d' signed' hb
      obtain ⟨rfl, rfl⟩ := hc.eq hb
      exact ⟨hread, hd, Did.last hx⟩
  | sign d signed hc device =>
      refine h.step hmono ?_ (fun hh => absurd rfl hh) (.inl ⟨rfl, by rw [hφ]; rfl⟩) (by rintro _ _ ⟨⟩)
      intro d' signed' hb
      have hbound := hev d' signed' hb
      obtain ⟨rfl, rfl⟩ := hc.eq hb
      exact ⟨hbound, hx⟩
  | time d signed hc device now htime hrole =>
      refine h.step hmono ?_ (fun hh => absurd rfl hh) (.inl ⟨rfl, by rw [hφ]; rfl⟩) (by rintro _ _ ⟨⟩)
      intro d' signed' hb
      have hsigned := hev d' signed' hb
      obtain ⟨rfl, rfl⟩ := hc.eq hb
      obtain rfl : env.agent.clock p.state.1.agent.answers = now := hx
      exact ⟨hsigned, Did.last htime, hrole⟩
  | reserve d signed hc device record hs =>
      refine h.step hmono hev (fun _ => .inr ?_) (.inl ⟨rfl, by rw [hφ]; rfl⟩) (by rintro _ _ ⟨⟩)
      intro d' signed' hb
      obtain ⟨rfl, rfl⟩ := hc.eq hb
      obtain ⟨hfree, hw⟩ := RemoteWorld.remembered hx
      refine ⟨?_, hfree⟩
      rw [hw]
      exact ⟨⟨_, List.mem_append_right _ (List.mem_singleton_self _), rfl⟩,
        _, List.mem_append_right _ (List.mem_singleton_self _), rfl⟩
  | begin d signed hc device =>
      refine h.step hmono (fun _ _ _ => trivial) (fun _ => .inl ?_) (.inr ⟨?_, rfl, rfl⟩) ?_
      · rw [hφ]
        nofun
      · rw [hφ]
        rfl
      · rintro device' payload ⟨⟩
        refine ⟨d, signed, hc, rfl, ?_⟩
        have hverified := h.evidence i d signed hc
        rw [hφ] at hverified
        exact hverified
  | finish d signed hc device =>
      refine h.step hmono (fun _ _ _ => trivial) (fun _ => .inl ?_) (.inl ⟨rfl, ?_⟩) (by rintro _ _ ⟨⟩)
      · rw [hφ]
        nofun
      · rw [hφ]
        rfl
  | store d signed hc record hs =>
      refine h.step hmono (fun _ _ _ => trivial) (fun _ => .inl ?_) (.inl ⟨rfl, ?_⟩) (by rintro _ _ ⟨⟩)
      · rw [hφ]
        nofun
      · rw [hφ]
        rfl
  | caught ψ now hψ =>
      exact h.step hmono (fun _ _ _ => trivial) (fun hh => .inl (hφ ▸ hh)) (.inl ⟨rfl, by rw [hφ]; rfl⟩)
        (by rintro _ _ ⟨⟩)
  | reject d signed hc level record hs =>
      exact h.step hmono (fun _ _ _ => trivial) (fun hh => .inl (hφ ▸ hh)) (.inl ⟨rfl, by rw [hφ]⟩)
        (by rintro _ _ ⟨⟩)

end Steps

/-! ## Every schedule -/

/-- A command id, and a nonce, is executed at most once, and only behind the checks. -/
structure ExecutedOnce (env : RemoteEnv) (calls : ι → CommandCall) (log : CommandLog ι) : Prop where
  ids : ∀ id, log.countP (executes fun payload => payload.command_id == id) ≤ 1
  nonces : ∀ nonce, log.countP (executes fun payload => payload.nonce == nonce) ≤ 1
  justified : Justified env calls log

theorem startCommands_commands (env : RemoteEnv) (calls : ι → CommandCall) (w : RemoteWorld) :
    Commands env calls (fun _ => .entered) (startCommands calls w).state where
  evidence := fun _ _ _ _ => trivial
  reserved := fun _ h => absurd rfl h
  apart := fun _ _ _ h => absurd rfl h
  once := fun _ => rfl
  justified := by
    intro l₁ e l₂ h
    simp [startCommands] at h

/-- The invariant holds at every moment of a schedule. -/
theorem commands_runs (env : RemoteEnv) (w : RemoteWorld) (calls : ι → CommandCall)
    (sched : List ι) : ∃ φ, Pool.Following (fun i => CommandStep env (calls i)) (fun _ => CommandEnd)
      ((startCommands calls w).runs (Pool.recorded (remoteHandle env)) sched) φ ∧
      Commands env calls φ
        ((startCommands calls w).runs (Pool.recorded (remoteHandle env)) sched).state := by
  have hf : Pool.Following (fun i => CommandStep env (calls i)) (fun _ => CommandEnd)
      (startCommands calls w) fun _ => .entered := fun i => follows_call env (calls i)
  have hC : Pool.Along (Pool.recorded (remoteHandle env)) (fun _ _ => True) sched
      (startCommands calls w) := Pool.Along.of_forall fun _ _ => trivial
  exact hf.along (fun φ p => Commands env calls φ p.state)
    (fun φ p i o k φ' ht _ hT _ h => commands_step ht hT h) hC (startCommands_commands env calls w)

/-- An execution is one of a call that holds the reservation of the command. -/
theorem Commands.execution {env : RemoteEnv} {calls : ι → CommandCall} {φ : ι → CommandPhase}
    {s : RemoteWorld × CommandLog ι} (h : Commands env calls φ s)
    {P : SignedRemoteCommandPayload → Bool} {e : Pool.Event RemoteOp ι RemoteWorld} (he : e ∈ s.2)
    (hP : executes P e = true) : ∃ d signed, (calls e.task).Brings d signed ∧
      P signed.payload = true ∧ (φ e.task).Holds := by
  obtain ⟨i, o, w⟩ := e
  cases o with
  | execute device payload =>
      obtain ⟨l₁, l₂, hsplit⟩ := List.append_of_mem he
      obtain ⟨d, signed, hb, rfl, -⟩ := h.justified l₁ _ l₂ hsplit device payload rfl
      refine ⟨d, signed, hb, hP, fun hidle => ?_⟩
      have hzero : s.2.countP (executedBy i) = 0 := by
        rw [h.once i, hidle]
        rfl
      have hno := List.countP_eq_zero.mp hzero _ he
      exact hno (by simp [executedBy, executes])
  | _ => cases hP

/-- Of the commands of which any two share a key, at most one is executed. -/
theorem Commands.countP_le_one {env : RemoteEnv} {calls : ι → CommandCall} {φ : ι → CommandPhase}
    {s : RemoteWorld × CommandLog ι} (h : Commands env calls φ s)
    {P : SignedRemoteCommandPayload → Bool}
    (hP : ∀ p p', P p = true → P p' = true → p.command_id = p'.command_id ∨ p.nonce = p'.nonce) :
    s.2.countP (executes P) ≤ 1 := by
  by_cases hnone : ∃ e ∈ s.2, executes P e = true
  · obtain ⟨e, he, heP⟩ := hnone
    obtain ⟨d, signed, hb, hs, hholds⟩ := h.execution he heP
    have hle : s.2.countP (executes P) ≤ s.2.countP (executedBy e.task) := by
      refine List.countP_mono_left fun e' he' heP' => ?_
      obtain ⟨d', signed', hb', hs', hholds'⟩ := h.execution he' heP'
      -- Two calls that both hold a reservation share neither key.
      have htask : e'.task = e.task := by
        by_contra hne
        obtain ⟨hid, hnonce⟩ := h.apart _ _ hne hholds' hholds d' signed' d signed hb' hb
        exact (hP _ _ hs' hs).elim hid hnonce
      obtain ⟨i, o, w⟩ := e'
      cases o with
      | execute device payload => simpa [executedBy, executes] using htask
      | _ => cases heP'
    refine hle.trans ?_
    rw [h.once]
    split <;> omega
  · have hzero : s.2.countP (executes P) = 0 := by
      refine List.countP_eq_zero.mpr fun e he heP => hnone ⟨e, he, heP⟩
    omega

/-- Along every schedule of any calls, no command id and no nonce is executed twice, and every execution
stands behind the checks of its call. -/
theorem commands_execute_once (env : RemoteEnv) (w : RemoteWorld) (calls : ι → CommandCall)
    (sched : List ι) : ExecutedOnce env calls
      ((startCommands calls w).runs (Pool.recorded (remoteHandle env)) sched).state.2 := by
  obtain ⟨φ, -, h⟩ := commands_runs env w calls sched
  refine ⟨fun id => h.countP_le_one fun p p' hp hp' => .inl ?_,
    fun nonce => h.countP_le_one fun p p' hp hp' => .inr ?_, h.justified⟩
  · exact (beq_iff_eq.mp hp).trans (beq_iff_eq.mp hp').symm
  · exact (beq_iff_eq.mp hp).trans (beq_iff_eq.mp hp').symm

end Vops.RemoteCommandHandler
