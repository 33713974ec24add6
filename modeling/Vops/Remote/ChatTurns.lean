import Vops.Remote.ConversationService

/-!
# The steps of a chat turn

* `TurnPhase` — how far a turn has come: the identifier that it has drawn, the number that it has
  read, the message of the user, the record that it holds.
* `Allowed`, `TurnStep` — what a turn does next: it inserts the number that it has read, and once
  the provider was run it writes the record with the session that it holds.
* `follows_chat`, `follows_bind`, `follows_during`, `follows_idle_keeps` — the rules for the parts
  of a turn.
* `Setup` — the programs that run before the message of the user is stored.
* `follows_handle` — a call of `handle` takes these steps.
-/

namespace Vops.ConversationService

open Async

/-! ## Turns -/

/-- How far a turn has come. -/
structure TurnPhase where
  /-- The identifier that was drawn last, and not used. -/
  fresh : Option ℕ
  /-- The number that was read, with its conversation, and not used. -/
  number : Option (String × ℕ)
  /-- The conversation and the number of the user message, once it is stored. -/
  user : Option (String × ℕ)
  /-- No more messages are inserted. -/
  ended : Bool
  /-- The session in the copy of the record, with the conversation. -/
  copy : Option (String × ℕ)
  /-- The provider was run. -/
  ran : Bool

/-- A turn that has not begun. -/
def TurnPhase.start : TurnPhase := ⟨none, none, none, false, none, false⟩

/-- The phase after a message was inserted, or refused. -/
def TurnPhase.inserted (φ : TurnPhase) (m : RemoteConversationMessage) (stored : Bool) :
    TurnPhase :=
  { φ with
    fresh := none
    number := none
    user := if φ.user.isNone && stored then some (m.conversationId, m.sequence) else φ.user
    ended := φ.user.isSome || !stored }

/-- The phase after an operation. -/
def TurnPhase.next (φ : TurnPhase) : (o : ChatOp) → ChatRes o → TurnPhase
  | .remote (.agent .localId), n => { φ with fresh := some n }
  | .nextConversationSequence id, .ok n => { φ with number := some (id, n) }
  | .saveConversationMessage m, .ok _ => φ.inserted m true
  | .saveConversationMessage m, .error _ => φ.inserted m false
  | .getConversation _, .ok (some c) => { φ with copy := some (c.id, c.agentSessionId) }
  | .saveConversation c, _ => { φ with copy := some (c.id, c.agentSessionId) }
  | .run _ _ _, _ => { φ with ran := true }
  | _, _ => φ

/-- The role of the next message of a turn. -/
def TurnPhase.role (φ : TurnPhase) : MessageRole := if φ.user.isNone then .user else .assistant

/-- What a turn in a phase may do next. -/
def Allowed (φ : TurnPhase) : ChatOp → Prop
  | .nextConversationSequence id => φ.ended = false ∧ ∀ u, φ.user = some u → u.1 = id
  | .saveConversationMessage m => φ.ended = false ∧ φ.number = some (m.conversationId, m.sequence) ∧
      (∃ n, φ.fresh = some n ∧ m.id = idText "remote_message" n) ∧ m.role = φ.role
  | .getConversation _ => φ.copy = none
  | .saveConversation c => φ.ran = true → φ.copy = some (c.id, c.agentSessionId)
  | _ => True

/-- The steps of a turn. -/
def TurnStep : Protocol ChatOp ChatRes TurnPhase :=
  fun φ o x φ' => Allowed φ o ∧ φ' = φ.next o x

/-- The operation changes nothing in the phase but the identifier that was drawn last. -/
def idle : ChatOp → Bool
  | .nextConversationSequence _ => false
  | .saveConversationMessage _ => false
  | .getConversation _ => false
  | .saveConversation _ => false
  | .run _ _ _ => false
  | _ => true

/-- What holds of the phase when a program ends in a value. -/
def OnOk {ε α : Type} (P : α → TurnPhase → Prop) : Except ε α → TurnPhase → Prop
  | .ok a, φ => P a φ
  | .error _, _ => True

/-- A part of a turn goes where its program goes. -/
theorem follows_part {Φ α : Type} {T : Protocol ChatOp ChatRes Φ} {p : ChatProg α} {φ : Φ}
    {Q : Except TurnFailure α → Φ → Prop} {conversation : Option RemoteConversation} {stream : Bool}
    (hp : Follows T (fun r => Q (r.mapError fun failure => ⟨failure, conversation, stream⟩)) p φ) :
    Follows T Q (during conversation stream p) φ := by
  induction p generalizing φ with
  | done r => cases r <;> exact hp
  | await o k ih =>
      intro x
      obtain ⟨φ', hT, hk⟩ := hp x
      exact ⟨φ', hT, ih x hk⟩

theorem follows_settled {Φ ε α : Type} {T : Protocol ChatOp ChatRes Φ} {φ : Φ}
    {p : Async ChatOp ChatRes ε α} {Q : Except RemoteFailure (Except ε α) → Φ → Prop}
    (hp : Follows T (fun r => Q (.ok r)) p φ) : Follows T Q (settle p) φ := by
  induction p generalizing φ with
  | done r => exact hp
  | await o k ih =>
      intro x
      obtain ⟨φ', hT, hk⟩ := hp x
      exact ⟨φ', hT, ih x hk⟩

section Rules

variable {ε ε' α β : Type} {P : α → TurnPhase → Prop} {R : β → TurnPhase → Prop} {φ : TurnPhase}

theorem follows_bind {p : Async ChatOp ChatRes ε α} {f : α → Async ChatOp ChatRes ε β}
    (hp : Follows TurnStep (OnOk P) p φ)
    (hf : ∀ a φ', P a φ' → Follows TurnStep (OnOk R) (f a) φ') :
    Follows TurnStep (OnOk R) (p >>= f) φ := by
  refine Follows.bind (hp.mono fun r φ' hr => ?_)
  cases r with
  | ok a => exact hf a φ' hr
  | error e => exact True.intro

theorem follows_during {p : ChatProg α} (hp : Follows TurnStep (OnOk P) p φ)
    (conversation : Option RemoteConversation) (stream : Bool) :
    Follows TurnStep (OnOk P) (during conversation stream p) φ :=
  follows_part (hp.mono fun r _ hr => by cases r <;> exact hr)

theorem follows_settle {p : Async ChatOp ChatRes ε α}
    (hp : Follows TurnStep (fun _ _ => True) p φ) :
    Follows TurnStep (OnOk fun _ _ => True) (settle p) φ :=
  follows_settled (hp.mono fun _ _ _ => True.intro)

/-- One operation. -/
theorem follows_chat {o : ChatOp} {f : ChatRes o → ChatProg α} (ho : Allowed φ o)
    (hf : ∀ x, Follows TurnStep (OnOk P) (f x) (φ.next o x)) :
    Follows TurnStep (OnOk P) (chat o >>= f) φ :=
  fun x => ⟨_, ⟨ho, rfl⟩, hf x⟩

theorem follows_orRaise {r : Except RemoteFailure α} {f : α → ChatProg β}
    (hf : ∀ a, r = .ok a → Follows TurnStep (OnOk R) (f a) φ) :
    Follows TurnStep (OnOk R) (orRaise r >>= f) φ := by
  cases r with
  | ok a => exact hf a rfl
  | error e => exact True.intro

theorem follows_any {p : Async ChatOp ChatRes ε α} (hp : Follows TurnStep (OnOk P) p φ) :
    Follows TurnStep (fun _ _ => True) p φ :=
  hp.mono fun _ _ _ => True.intro

theorem idle_step {o : ChatOp} (ho : idle o = true) (x : ChatRes o) :
    ∃ f, TurnStep φ o x { φ with fresh := f } := by
  cases o with
  | remote o =>
      cases o with
      | agent o =>
          cases o with
          | localId => exact ⟨some x, True.intro, rfl⟩
          | _ => exact ⟨φ.fresh, True.intro, rfl⟩
      | _ => exact ⟨φ.fresh, True.intro, rfl⟩
  | nextConversationSequence id => cases ho
  | saveConversationMessage m => cases ho
  | getConversation id => cases ho
  | saveConversation c => cases ho
  | run device provider context => cases ho
  | _ => exact ⟨φ.fresh, True.intro, rfl⟩

/-- A program of idle operations. -/
theorem follows_idle {p : Async ChatOp ChatRes ε α} (hp : p.AllOps fun o => idle o = true) :
    Follows TurnStep (fun _ φ' => ∃ f, φ' = { φ with fresh := f }) p φ := by
  induction p generalizing φ with
  | done r => exact ⟨φ.fresh, rfl⟩
  | await o k ih =>
      intro x
      obtain ⟨f, hT⟩ := idle_step hp.1 x
      refine ⟨_, hT, (ih x (hp.2 x)).mono ?_⟩
      rintro r φ' ⟨f', rfl⟩
      exact ⟨f', rfl⟩

/-- What does not depend on the identifier that was drawn last, a program of idle operations keeps.
-/
theorem follows_idle_keeps {I : TurnPhase → Prop} {p : Async ChatOp ChatRes ε α}
    (hp : p.AllOps fun o => idle o = true) (hI : ∀ f, I { φ with fresh := f }) :
    Follows TurnStep (OnOk fun _ => I) p φ := by
  refine (follows_idle hp).mono ?_
  rintro r φ' ⟨f, rfl⟩
  cases r with
  | ok a => exact hI f
  | error e => exact True.intro

end Rules

/-! ## The programs of a turn -/

/-- Every operation of the program is idle. -/
def Idle {ε α : Type} (p : Async ChatOp ChatRes ε α) : Prop := p.AllOps fun o => idle o = true

theorem idle_lift {α : Type} (p : RemoteProg α) : Idle (lift p) := by
  induction p with
  | done r => exact True.intro
  | await o k ih => exact ⟨rfl, ih⟩

theorem idle_settle {ε α : Type} {p : Async ChatOp ChatRes ε α} (hp : Idle p) :
    Idle (settle p) := by
  induction p with
  | done r => exact True.intro
  | await o k ih => exact ⟨hp.1, fun x => ih x (hp.2 x)⟩

theorem idle_orRaise {α β : Type} {r : Except RemoteFailure α} {f : α → ChatProg β}
    (hf : ∀ a, Idle (f a)) : Idle (orRaise r >>= f) := by
  cases r with
  | ok a => exact hf a
  | error e => exact True.intro

theorem idle_chat {β : Type} {o : ChatOp} {f : ChatRes o → ChatProg β} (ho : idle o = true)
    (hf : ∀ x, Idle (f x)) : Idle (chat o >>= f) :=
  ⟨ho, hf⟩

theorem idle_createSession (device : RemoteDevice) (objective provider : String) :
    Idle (createSession device objective provider) :=
  idle_chat rfl fun _ => idle_orRaise fun _ => idle_lift _

theorem idle_event (conversation : RemoteConversation) (eventType summary : String) :
    Idle (event conversation eventType summary) :=
  ⟨rfl, fun _ => ⟨rfl, fun _ => idle_lift _⟩⟩

theorem idle_eventOf (conversation : Option RemoteConversation) (eventType summary : String) :
    Idle (eventOf conversation eventType summary) := by
  cases conversation with
  | none => exact True.intro
  | some conversation => exact idle_event _ _ _

theorem idle_authenticated (token : ℕ) : Idle (authenticated token) :=
  (idle_settle (idle_lift _)).bind fun _ => True.intro

theorem idle_throwIfAborted (key : String) : Idle (throwIfAborted key) := by
  refine ⟨rfl, fun active => ?_⟩
  show AllOps _ (if _ then _ else _)
  split
  · exact True.intro
  · exact True.intro

theorem idle_failTurn (device : RemoteDevice) (request : RemoteChatUserMessage)
    (error : TurnFailure) : Idle (failTurn device request error) := by
  refine idle_chat rfl fun active => ?_
  show AllOps _ (if _ then (if _ then _ else _) else _)
  split
  · split
    · exact idle_chat rfl fun _ => idle_orRaise fun _ => idle_chat rfl fun _ => idle_chat rfl fun _ =>
        idle_eventOf _ _ _
    · exact idle_chat rfl fun _ => idle_chat rfl fun _ => idle_eventOf _ _ _
  · exact idle_chat rfl fun _ => idle_eventOf _ _ _

/-! ## Before the message is stored -/

/-- An operation before the message of the user is stored. -/
def isSetup : ChatOp → Bool
  | .remote _ | .noteConversation _ _ | .resolveProvider _ | .workspace | .getConversation _
  | .saveConversation _ | .getCredentials _ | .setCredentials _ _ => true
  | _ => false

/-- Every operation of the program is one before the message of the user is stored. -/
def Setup {ε α : Type} (p : Async ChatOp ChatRes ε α) : Prop := AllOps (fun o => isSetup o = true) p

theorem allOps_during {α : Type} {P : ChatOp → Prop} {p : ChatProg α} (hp : AllOps P p)
    (c : Option RemoteConversation) (b : Bool) : AllOps P (during c b p) := by
  induction p with
  | done r => cases r <;> trivial
  | await o k ih => exact ⟨hp.1, fun x => ih x (hp.2 x)⟩

theorem setup_lift {α : Type} (p : RemoteProg α) : Setup (lift p) := by
  induction p with
  | done r => trivial
  | await o k ih => exact ⟨rfl, ih⟩

theorem setup_settle {ε α : Type} {p : Async ChatOp ChatRes ε α} (hp : Setup p) :
    Setup (settle p) := by
  induction p with
  | done r => trivial
  | await o k ih => exact ⟨hp.1, fun x => ih x (hp.2 x)⟩

theorem setup_orRaise {α β : Type} {r : Except RemoteFailure α} {f : α → ChatProg β}
    (hf : ∀ a, Setup (f a)) : Setup (orRaise r >>= f) := by
  cases r with
  | ok a => exact hf a
  | error e => trivial

theorem setup_chat {β : Type} {o : ChatOp} {f : ChatRes o → ChatProg β} (ho : isSetup o = true)
    (hf : ∀ x, Setup (f x)) : Setup (chat o >>= f) :=
  ⟨ho, hf⟩

theorem setup_event (c : RemoteConversation) (eventType summary : String) :
    Setup (event c eventType summary) :=
  ⟨rfl, fun _ => ⟨rfl, fun _ => setup_lift _⟩⟩

theorem setup_createSession (device : RemoteDevice) (objective provider : String) :
    Setup (createSession device objective provider) :=
  setup_chat rfl fun _ => setup_orRaise fun _ => setup_lift _

theorem setup_resolveConversation (device : RemoteDevice) (request : RemoteChatUserMessage)
    (provider : String) : Setup (resolveConversation device request provider) := by
  unfold resolveConversation
  cases request.conversation_id.filter (· ≠ "") with
  | some id =>
      refine setup_chat rfl fun answer => setup_orRaise fun found => ?_
      cases found with
      | none => trivial
      | some existing =>
          show AllOps _ (if _ then _ else _)
          split <;> trivial
  | none =>
      refine (setup_createSession _ _ _).bind ?_
      rintro ⟨session, token⟩
      refine setup_chat rfl fun now => setup_chat rfl fun id => ?_
      refine setup_chat rfl fun _ => setup_orRaise fun _ => ?_
      refine setup_chat rfl fun _ => setup_orRaise fun _ => ?_
      exact (setup_event _ _ _).bind fun _ => trivial

theorem setup_renewSession (c : RemoteConversation) (device : RemoteDevice) :
    Setup (renewSession c device) := by
  refine (allOps_during (setup_createSession _ _ _) _ _).bind ?_
  rintro ⟨session, token⟩
  refine AllOps.bind ⟨rfl, fun _ => trivial⟩ fun now => ?_
  refine (allOps_during ?_ _ _).bind fun _ => trivial
  exact setup_chat rfl fun _ => setup_orRaise fun _ => setup_chat rfl fun _ => AllOps.of_done _

theorem setup_requireSessionToken (c : RemoteConversation) (device : RemoteDevice) :
    Setup (requireSessionToken c device) := by
  refine (allOps_during (setup_chat rfl fun _ => AllOps.of_done _) _ _).bind fun stored => ?_
  cases stored with
  | none => exact setup_renewSession c device
  | some token =>
      have hvalid : Setup (authenticated token) :=
        (setup_settle (setup_lift _)).bind fun _ => trivial
      refine (allOps_during hvalid _ _).bind fun valid => ?_
      cases valid with
      | true => trivial
      | false => exact setup_renewSession c device

section Programs

variable {φ : TurnPhase} {device : RemoteDevice} {request : RemoteChatUserMessage}

/-- The turn has a conversation, and has stored no message. -/
structure Resolved (c : RemoteConversation) (φ : TurnPhase) : Prop where
  user : φ.user = none
  ended : φ.ended = false
  copy : φ.copy = some (c.id, c.agentSessionId)
  ran : φ.ran = false

/-- The message of the user is stored. -/
structure Asked (c : RemoteConversation) (ran : Bool) (φ : TurnPhase) : Prop where
  user : ∃ n, φ.user = some (c.id, n)
  ended : φ.ended = false
  copy : φ.copy = some (c.id, c.agentSessionId)
  ran : φ.ran = ran

theorem follows_storeConversation (conversation : RemoteConversation) (token : ℕ) (f : Option ℕ) :
    Follows TurnStep (OnOk Resolved) (storeConversation conversation token)
      { TurnPhase.start with fresh := f } := by
  refine follows_chat nofun fun _ => follows_orRaise fun _ _ => ?_
  refine follows_chat True.intro fun _ => follows_orRaise fun _ _ => ?_
  refine follows_bind (P := fun _ => Resolved conversation)
    (follows_idle_keeps (idle_event _ _ _) fun _ => ⟨rfl, rfl, rfl, rfl⟩) fun _ φ' hφ => ?_
  exact Follows.of_done hφ

theorem follows_resolveConversation (selectedProvider : String) (f : Option ℕ) :
    Follows TurnStep (OnOk Resolved) (resolveConversation device request selectedProvider)
      { TurnPhase.start with fresh := f } := by
  unfold resolveConversation
  cases request.conversation_id.filter (· ≠ "") with
  | some id =>
      refine follows_chat rfl fun answer => follows_orRaise fun found hfound => ?_
      subst hfound
      cases found with
      | none => exact Follows.of_done True.intro
      | some existing =>
          show Follows _ _ (if _ then _ else _) _
          split
          · exact Follows.of_done True.intro
          · exact Follows.of_done ⟨rfl, rfl, rfl, rfl⟩
  | none =>
      refine follows_bind (follows_idle_keeps
        (I := fun φ' => ∃ f, φ' = { TurnPhase.start with fresh := f })
        (idle_createSession _ _ _) fun f => ⟨f, rfl⟩) ?_
      rintro ⟨session, token⟩ _ ⟨f', rfl⟩
      refine follows_chat True.intro fun now => follows_chat True.intro fun id => ?_
      exact follows_storeConversation _ _ _

theorem Resolved.fresh {c : RemoteConversation} (h : Resolved c φ) (f : Option ℕ) :
    Resolved c { φ with fresh := f } :=
  ⟨h.user, h.ended, h.copy, h.ran⟩

theorem follows_renewSession {c : RemoteConversation} (h : Resolved c φ) :
    Follows TurnStep (OnOk fun r => Resolved r.1) (renewSession c device) φ := by
  refine follows_bind (P := fun _ => Resolved c) (follows_during
    (follows_idle_keeps (idle_createSession _ _ _) h.fresh) _ _) ?_
  rintro ⟨session, token⟩ φ₁ h₁
  refine follows_bind (P := fun _ => Resolved c) (follows_during (follows_idle_keeps
    (p := chat (.remote (.agent .now))) (AllOps.of_perform rfl) h₁.fresh) _ _) ?_
  rintro now φ₂ h₂
  let renewed : RemoteConversation := { c with agentSessionId := session.id, updatedAt := now }
  refine follows_bind (P := fun _ => Resolved renewed) (follows_during ?_ _ _)
    fun _ φ₃ h₃ => Follows.of_done h₃
  refine follows_chat (fun hran => absurd hran (by simp [h₂.ran])) fun _ => ?_
  exact follows_idle_keeps (idle_orRaise fun _ => idle_chat rfl fun _ => AllOps.of_done _)
    fun _ => ⟨h₂.user, h₂.ended, rfl, h₂.ran⟩

theorem follows_requireSessionToken {c : RemoteConversation} (h : Resolved c φ) :
    Follows TurnStep (OnOk fun r => Resolved r.1) (requireSessionToken c device) φ := by
  refine follows_bind (P := fun _ => Resolved c) (follows_during
    (follows_idle_keeps (idle_chat rfl fun _ => AllOps.of_done _) h.fresh) _ _) ?_
  intro stored φ₁ h₁
  cases stored with
  | none => exact follows_renewSession h₁
  | some token =>
      refine follows_bind (P := fun _ => Resolved c) (follows_during
        (follows_idle_keeps (idle_authenticated token) h₁.fresh) _ _) ?_
      intro valid φ₂ h₂
      cases valid with
      | true => exact Follows.of_done h₂
      | false => exact follows_renewSession h₂

/-- A message is stored with the number that was read. -/
theorem follows_saveMessage (c : RemoteConversation) (requestId content : String)
    {role : MessageRole} (hended : φ.ended = false) (huser : ∀ u, φ.user = some u → u.1 = c.id)
    (hrole : role = φ.role) :
    Follows TurnStep (OnOk fun m φ' => φ' = φ.inserted m true ∧ m.conversationId = c.id)
      (saveMessage c requestId role content) φ := by
  refine follows_chat True.intro fun id => follows_chat ⟨hended, huser⟩ fun answer => ?_
  refine follows_orRaise fun n hn => ?_
  subst hn
  refine follows_chat True.intro fun now => ?_
  refine follows_chat ⟨hended, rfl, ⟨id, rfl, rfl⟩, hrole⟩ fun saved => ?_
  cases saved with
  | error failure => exact Follows.of_done True.intro
  | ok _ => exact Follows.of_done ⟨rfl, rfl⟩

theorem Asked.fresh {c : RemoteConversation} {ran : Bool} (h : Asked c ran φ) (f : Option ℕ) :
    Asked c ran { φ with fresh := f } :=
  ⟨h.user, h.ended, h.copy, h.ran⟩

/-- The answer is stored, and the record with the session that it had. -/
theorem follows_completeTurn {c : RemoteConversation} {result : RunResult} {finalSequence : ℕ}
    (h : Asked c true φ) :
    Follows TurnStep (OnOk fun _ _ => True)
      (completeTurn device request c result finalSequence) φ := by
  obtain ⟨n, huser⟩ := h.user
  have hrole : .assistant = φ.role := by simp [TurnPhase.role, huser]
  refine follows_bind (follows_during (follows_saveMessage c request.request_id result.text h.ended
    (fun u hu => by cases huser.symm.trans hu; rfl) hrole) _ _) ?_
  rintro m _ ⟨rfl, -⟩
  refine follows_bind (P := fun _ φ' => φ'.copy = some (c.id, c.agentSessionId)) (follows_during
    (follows_idle_keeps (p := chat (.remote (.agent .now))) (AllOps.of_perform rfl)
      fun _ => h.copy) _ _) ?_
  intro now φ' hcopy
  refine follows_during (follows_chat (o := .saveConversation (answeredRecord c result now))
    (fun _ => hcopy) fun _ => follows_orRaise fun _ _ => ?_) _ _
  refine follows_chat True.intro fun sent => follows_orRaise fun _ _ => ?_
  exact follows_idle_keeps (I := fun _ => True) (idle_event _ _ _) fun _ => True.intro

theorem follows_answerTurn {c : RemoteConversation} {provider : String} {token : ℕ}
    (h : Resolved c φ) :
    Follows TurnStep (OnOk fun _ _ => True) (answerTurn device request provider c token) φ := by
  have hrole : .user = φ.role := by simp [TurnPhase.role, h.user]
  have hmessage := follows_saveMessage c request.request_id request.content h.ended
    (fun u hu => by simp [h.user] at hu) hrole
  refine follows_bind (P := fun _ => Asked c false)
    (follows_during (follows_bind hmessage ?_) _ _) ?_
  · rintro m _ ⟨rfl, hm⟩
    have hasked : Asked c false (φ.inserted m true) :=
      ⟨⟨m.sequence, by simp [TurnPhase.inserted, h.user, hm]⟩, by simp [TurnPhase.inserted, h.user],
        h.copy, h.ran⟩
    exact follows_idle_keeps (idle_chat rfl fun _ => idle_orRaise fun _ => idle_chat rfl fun _ =>
      AllOps.of_done _) hasked.fresh
  intro previous φ₁ h₁
  refine follows_bind (P := fun _ => Asked c true) (follows_during (follows_chat
    (o := .run device request.provider _) True.intro fun result => follows_orRaise fun _ _ =>
      follows_idle_keeps ?_ ?_) _ _) fun _ _ h₂ => ?_
  · exact (idle_throwIfAborted _).bind fun _ => idle_chat rfl fun _ => idle_orRaise fun _ =>
      (idle_throwIfAborted _).bind fun _ => AllOps.of_done _
  · exact fun f => ⟨h₁.user, h₁.ended, h₁.copy, rfl⟩
  · exact follows_completeTurn h₂

theorem follows_turn :
    Follows TurnStep (OnOk fun _ _ => True) (turn device request) TurnPhase.start := by
  refine follows_bind (P := fun r => Resolved r.2) (follows_during ?_ _ _) ?_
  · refine follows_chat True.intro fun provider => follows_orRaise fun _ _ => ?_
    refine follows_bind (follows_resolveConversation _ none) fun c φ₁ h₁ => ?_
    refine follows_bind (P := fun _ => Resolved c) (follows_idle_keeps
      (p := chat (.noteConversation _ c.id)) (AllOps.of_perform rfl) h₁.fresh) fun _ _ h₂ => ?_
    exact Follows.of_done h₂
  · rintro ⟨provider, c⟩ φ₁ h₁
    refine follows_bind (follows_requireSessionToken h₁) ?_
    rintro ⟨c', token⟩ φ₂ h₂
    exact follows_answerTurn h₂

/-- A call of `handle` takes the steps of a turn. -/
theorem follows_handle (device : RemoteDevice) (request : RemoteChatUserMessage) :
    Follows TurnStep (fun _ _ => True) (handle device request) TurnPhase.start := by
  have hturn : Follows TurnStep (OnOk fun _ _ => True) (handle device request) TurnPhase.start := by
    refine follows_chat True.intro fun fresh => ?_
    show Follows _ _ (if _ then _ else _) _
    split
    · refine follows_bind (follows_settle (follows_any follows_turn)) fun outcome φ₁ _ => ?_
      refine follows_idle_keeps (I := fun _ => True) ?_ fun _ => True.intro
      refine AllOps.bind (idle_settle ?_) fun ended => idle_chat rfl fun _ => AllOps.of_done _
      cases outcome with
      | ok _ => exact AllOps.of_done _
      | error error => exact idle_failTurn _ _ _
    · exact Follows.of_done True.intro
  exact follows_any hturn

end Programs

end Vops.ConversationService
