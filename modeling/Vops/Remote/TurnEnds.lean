import Vops.Lib.AsyncRuns
import Vops.Remote.ConversationThms

/-!
# How a chat turn ends (`handle` of `remote/conversation.service.ts`)

* `TurnWatch`, `watched` — the entry of a turn in `activeTurns`, and how operations and
  cancellations change it: whatever else is asked is answered in any way.
* `EndsOnce` — `handle` does not reject, the entry is removed, and one terminal message was handed
  to the messenger, `chat.cancelled` where a cancellation was accepted.
* `CalmEnd` — nothing fails once a terminal message is handed over, the stream can be cancelled, and
  no cancellation comes after the last look at the signal.
* `turn_ends_once_iff` — a turn ends once exactly when its end is calm.
-/

namespace Vops.ConversationService

open Async (Steps AllOps Surroundings Trace)

/-! ## The entry of a turn -/

/-- The entry of a turn, and whether a cancellation was accepted. -/
structure TurnWatch where
  entry : Option ActiveTurn
  accepted : Bool

/-- An entry that is cancelled. -/
def ActiveTurn.cancelledBy (requestId : String) (a : ActiveTurn) : ActiveTurn :=
  { a with aborted := true, cancelRequestId := some requestId }

/-- `cancel`, where it finds the entry. -/
def TurnWatch.cancelled (w : TurnWatch) (requestId : String) : TurnWatch where
  entry := w.entry.map (ActiveTurn.cancelledBy requestId)
  accepted := w.accepted || w.entry.isSome

/-- A cancellation comes, or none. -/
def Later (w w' : TurnWatch) : Prop := w' = w ∨ ∃ requestId, w' = w.cancelled requestId

/-- What an operation of the turn does to its entry. -/
def Answered : (o : ChatOp) → TurnWatch → ChatRes o → TurnWatch → Prop
  | .beginTurn _, w, begun, w' => begun = w.entry.isNone ∧
      w' = if w.entry.isNone then { w with entry := some ⟨false, none, none⟩ } else w
  | .noteConversation _ id, w, _, w' =>
      w' = { w with entry := w.entry.map fun a => { a with conversationId := some id } }
  | .activeTurn _, w, entry, w' => entry = w.entry ∧ w' = w
  | .endTurn _, w, _, w' => w' = { w with entry := none }
  | _, w, _, w' => w' = w

/-- The surroundings of a turn. -/
def watched : Surroundings ChatOp ChatRes TurnWatch :=
  fun o w x w' => ∃ w₁, Answered o w x w₁ ∧ Later w₁ w'

/-! ## The service keeps the entry like this -/

section Service

variable {key : String} {w : ChatWorld} {accepted : Bool}

/-- The entry of a turn in `activeTurns`. -/
def entryOf (key : String) (w : ChatWorld) : Option ActiveTurn :=
  (Table.get Prod.fst key w.turns).map Prod.snd

/-- An operation of the turn itself: on entries, it is on the entry of this turn. -/
def ofTurn (key : String) : ChatOp → Prop
  | .beginTurn k | .noteConversation k _ | .activeTurn k | .endTurn k => k = key
  | .abortTurn _ _ => False
  | _ => True

theorem get_map_turns (f : ActiveTurn → ActiveTurn) (turns : List (String × ActiveTurn)) :
    (Table.get Prod.fst key (turns.map fun t => if t.1 = key then (key, f t.2) else t)).map Prod.snd
    =
      ((Table.get Prod.fst key turns).map Prod.snd).map f := by
  induction turns with
  | nil => rfl
  | cons t turns ih =>
      rw [List.map_cons, Table.get_cons, Table.get_cons]
      by_cases ht : t.1 = key
      · simp [ht]
      · rw [if_neg ht, if_neg ht, if_neg ht, ih]

/-- The service answers the operations of a turn as its surroundings do. -/
theorem chatHandle_answered (env : ChatEnv) {o : ChatOp} (ho : ofTurn key o) :
    Answered o ⟨entryOf key w, accepted⟩ (chatHandle env o w).1
      ⟨entryOf key (chatHandle env o w).2, accepted⟩ := by
  cases o with
  | abortTurn k id => exact ho.elim
  | beginTurn k =>
      obtain rfl : k = key := ho
      cases hget : Table.get Prod.fst k w.turns with
      | some t => simp [Answered, chatHandle, entryOf, hget]
      | none => 
          have hnew : Table.get Prod.fst k (w.turns ++ [(k, (⟨false, none, none⟩ : ActiveTurn))]) =
              some (k, ⟨false, none, none⟩) := by
            rw [Table.get, List.find?_append, show w.turns.find? _ = none from hget]
            simp
          simp [Answered, chatHandle, entryOf, hget, hnew]
  | noteConversation k id =>
      obtain rfl : k = key := ho
      simp only [Answered, chatHandle, entryOf]
      rw [get_map_turns fun a => { a with conversationId := some id }]
  | activeTurn k =>
      obtain rfl : k = key := ho
      exact ⟨rfl, rfl⟩
  | endTurn k =>
      obtain rfl : k = key := ho
      have hnone : Table.get Prod.fst k (w.turns.filter fun t => decide (t.1 ≠ k)) = none := by
        rw [Table.get_filter_ne, if_pos rfl]
      simp only [Answered, chatHandle, entryOf]
      rw [hnone]
      rfl
  | setCredentials id token =>
      simp only [Answered, chatHandle, entryOf]
      cases env.vault w.answers <;> rfl
  | saveConversationMessage m =>
      simp only [Answered, chatHandle, entryOf]
      split <;> rfl
  | send device m =>
      simp only [Answered, chatHandle, entryOf]
      split <;> rfl
  | _ => rfl

/-- The entry of another turn. -/
theorem get_map_turns_of_ne {k : String} (h : k ≠ key) (f : ActiveTurn → ActiveTurn)
    (turns : List (String × ActiveTurn)) :
    Table.get Prod.fst key (turns.map fun t => if t.1 = k then (k, f t.2) else t) =
      Table.get Prod.fst key turns := by
  induction turns with
  | nil => rfl
  | cons t turns ih =>
      rw [List.map_cons, Table.get_cons, Table.get_cons, ih]
      by_cases ht : t.1 = k
      · rw [if_pos ht, if_neg h, if_neg (by rwa [ht])]
      · rw [if_neg ht]

/-- A call of `cancel` cancels the turn, or leaves its entry as it is. -/
theorem cancel_later (env : ChatEnv) (device : RemoteDevice) (request : RemoteChatCancelMessage) :
    ∃ accepted', Later ⟨entryOf key w, accepted⟩
      ⟨entryOf key (Async.run (chatHandle env) (cancel device request) w).2, accepted'⟩ := by
  have hsend (m : ChatMessage) : entryOf key (chatHandle env (.send device m) w).2 = entryOf key
    w := by
    simp only [chatHandle, entryOf]
    split <;> rfl
  unfold cancel
  simp only [chat, Async.perform_bind, Async.run_await]
  split
  · exact ⟨accepted, .inl (congrArg (TurnWatch.mk · accepted) (hsend _))⟩
  · next hrunning =>
      by_cases hk : turnKey device.id request.target_request_id = key
      · refine ⟨true, .inr ⟨request.request_id, ?_⟩⟩
        have hsome : (entryOf key w).isSome = true := by
          rw [hk, Bool.or_eq_true, not_or] at hrunning
          simpa [entryOf, chatHandle, Option.isSome_iff_ne_none] using hrunning.1
        rw [TurnWatch.cancelled, hsome, Bool.or_true, TurnWatch.mk.injEq]
        refine ⟨?_, rfl⟩
        rw [hk]
        exact get_map_turns (ActiveTurn.cancelledBy request.request_id) w.turns
      · refine ⟨accepted, .inl (congrArg (TurnWatch.mk · accepted) ?_)⟩
        exact congrArg (Option.map Prod.snd)
          (get_map_turns_of_ne hk (ActiveTurn.cancelledBy request.request_id) w.turns)

end Service

/-! ## Ends -/

/-- `chat.completed`, `chat.failed` and `chat.cancelled`. -/
def ChatMessage.isTerminal : ChatMessage → Bool
  | .accepted _ _ _ => false
  | _ => true

/-- `chat.cancelled` -/
def ChatMessage.isCancelled : ChatMessage → Bool
  | .cancelled _ _ _ _ => true
  | _ => false

/-- The terminal message that an operation hands to the messenger. -/
def terminalOf : ChatOp → Option ChatMessage
  | .send _ message => if message.isTerminal then some message else none
  | _ => none

/-- The terminal messages of a run. -/
def terminals (t : Trace ChatOp ChatRes) : List ChatMessage := t.filterMap fun e => terminalOf e.1

/-- The turn has ended once. -/
structure EndsOnce (t : Trace ChatOp ChatRes) (r : Except RemoteFailure Unit) (w : TurnWatch) :
    Prop where
  resolves : r = .ok ()
  removed : w.entry = none
  once : (terminals t).length = 1
  cancelled : w.accepted = true → ∀ m ∈ terminals t, m.isCancelled = true

/-- An audit record is not written. -/
def unrecorded : (Σ o : ChatOp, ChatRes o) → Bool
  | ⟨.remote .auditWrite, .error _⟩ => true
  | _ => false

/-- `chat.completed` cannot be sent, or the stream has a send that failed. -/
def broken : (Σ o : ChatOp, ChatRes o) → Bool
  | ⟨.send _ (.completed _ _ _ _ _), .error _⟩ => true
  | ⟨.cancelStream _, .error _⟩ => true
  | _ => false

/-- A look at the entry shows a cancellation. -/
def showsCancel : (Σ o : ChatOp, ChatRes o) → Bool
  | ⟨.activeTurn _, some entry⟩ => entry.aborted
  | _ => false

/-- What was done after the first terminal message was handed over. -/
def behindTerminal (t : Trace ChatOp ChatRes) : Trace ChatOp ChatRes :=
  (t.dropWhile fun e => (terminalOf e.1).isNone).tail

/-- Nothing disturbs the end of the turn. -/
structure CalmEnd (before : TurnWatch) (t : Trace ChatOp ChatRes) (after : TurnWatch) : Prop where
  begun : before.entry = none
  recorded : ∀ e ∈ behindTerminal t, unrecorded e = false
  sound : ∀ e ∈ t, broken e = false
  seen : after.accepted = true → t.any showsCancel = true

/-! ## Runs of the parts -/

section Parts

variable {S ε α β : Type} {R : Surroundings ChatOp ChatRes S} {s s' s'' : S}
  {t : Trace ChatOp ChatRes}

/-- A sequence ends where its first part throws, or where the rest ends. -/
theorem ends_bind {p : Async ChatOp ChatRes ε α} {f : α → Async ChatOp ChatRes ε β}
    {r : Except ε β} (h : Steps R (p >>= f) s t (.done r) s'') :
    (∃ e, Steps R p s t (.done (.error e)) s'' ∧ r = .error e) ∨
      ∃ a s' t₁ t₂, Steps R p s t₁ (.done (.ok a)) s' ∧ Steps R (f a) s' t₂ (.done r) s'' ∧
        t = t₁ ++ t₂ := by
  rcases Steps.bind_cases h with ⟨p', hp, hr⟩ | hboth
  · cases p' with
    | done r' =>
        cases r' with
        | error e =>
            rw [Async.error_bind, Async.done.injEq] at hr
            exact .inl ⟨e, hp, hr⟩
        | ok a =>
            rw [Async.ok_bind] at hr
            exact .inr ⟨a, s'', t, [], hp, hr ▸ .refl _ _, (List.append_nil t).symm⟩
    | await o k => exact absurd hr (by simp)
  · exact .inr hboth

theorem ends_settle {p : Async ChatOp ChatRes ε α} {r : Except RemoteFailure (Except ε α)}
    (h : Steps R (settle p) s t (.done r) s') : ∃ r', r = .ok r' ∧ Steps R p s t (.done r') s' := by
  induction p generalizing s t with
  | done r' =>
      obtain ⟨rfl, hr, rfl⟩ := Steps.of_done h
      exact ⟨r', Async.done.inj hr, .refl _ _⟩
  | await o k ih =>
      obtain ⟨x, s₁, t', rfl, hx, hk⟩ := Steps.of_await h
      obtain ⟨r', hr, hp⟩ := ih x hk
      exact ⟨r', hr, .head hx hp⟩

theorem ends_during {p : ChatProg α} {c : Option RemoteConversation} {b : Bool}
    {r : Except TurnFailure α} (h : Steps R (during c b p) s t (.done r) s') :
    ∃ r', Steps R p s t (.done r') s' ∧ r = r'.mapError fun failure => ⟨failure, c, b⟩ := by
  induction p generalizing s t with
  | done r' =>
      cases r' with
      | ok a =>
          obtain ⟨rfl, hr, rfl⟩ := Steps.of_done h
          exact ⟨.ok a, .refl _ _, Async.done.inj hr⟩
      | error e =>
          obtain ⟨rfl, hr, rfl⟩ := Steps.of_done h
          exact ⟨.error e, .refl _ _, Async.done.inj hr⟩
  | await o k ih =>
      obtain ⟨x, s₁, t', rfl, hx, hk⟩ := Steps.of_await h
      obtain ⟨r', hp, hr⟩ := ih x hk
      exact ⟨r', .head hx hp, hr⟩

/-- An operation of remote control. -/
def isRemote : ChatOp → Bool
  | .remote _ => true
  | _ => false

/-- An event is recorded, or its program throws. -/
theorem ends_event {c : RemoteConversation} {eventType summary : String}
    {r : Except RemoteFailure Unit} (h : Steps R (event c eventType summary) s t (.done r) s') :
    (∀ e ∈ t, isRemote e.1 = true) ∧ (r = .ok () ↔ ∀ e ∈ t, unrecorded e = false) := by
  obtain ⟨id, s₁, t₁, rfl, -, h⟩ := Steps.of_await h
  obtain ⟨now, s₂, t₂, rfl, -, h⟩ := Steps.of_await h
  obtain ⟨x, s₃, t₃, rfl, -, h⟩ := Steps.of_await h
  cases x with
  | error e =>
      obtain ⟨rfl, hr, -⟩ := Steps.of_done h
      obtain rfl : r = .error e := Async.done.inj hr
      simp [isRemote, unrecorded]
  | ok _ =>
      obtain ⟨hash, s₄, t₄, rfl, -, h⟩ := Steps.of_await h
      obtain ⟨digest, s₅, t₅, rfl, -, h⟩ := Steps.of_await h
      obtain ⟨_, s₆, t₆, rfl, -, h⟩ := Steps.of_await h
      obtain ⟨rfl, hr, -⟩ := Steps.of_done h
      obtain rfl : r = .ok () := Async.done.inj hr
      simp [isRemote, unrecorded]

theorem ends_eventOf {c : Option RemoteConversation} {eventType summary : String}
    {r : Except RemoteFailure Unit} (h : Steps R (eventOf c eventType summary) s t (.done r) s') :
    (∀ e ∈ t, isRemote e.1 = true) ∧ (r = .ok () ↔ ∀ e ∈ t, unrecorded e = false) := by
  cases c with
  | some c => exact ends_event h
  | none =>
      obtain ⟨rfl, hr, -⟩ := Steps.of_done h
      obtain rfl : r = .ok () := Async.done.inj hr
      simp

/-- An operation before the end of a turn: it sends no terminal message, and neither looks at the
entry nor cancels the stream. -/
def isQuiet : ChatOp → Bool
  | .send _ message => !message.isTerminal
  | .beginTurn _ | .activeTurn _ | .abortTurn _ _ | .endTurn _ | .cancelStream _ => false
  | _ => true

/-- An operation before the end of a turn, or a look at the entry. -/
def isOpening : ChatOp → Bool
  | .activeTurn _ => true
  | o => isQuiet o

/-- Every operation of the program is quiet. -/
def QuietTurn {ε α : Type} (p : Async ChatOp ChatRes ε α) : Prop :=
    AllOps (fun o => isQuiet o = true) p

theorem Setup.quiet {ε α : Type} {p : Async ChatOp ChatRes ε α} (hp : Setup p) : QuietTurn p :=
  hp.mono fun o ho => by cases o <;> first | rfl | cases ho

theorem quietTurn_orRaise {α β : Type} {r : Except RemoteFailure α} {f : α → ChatProg β}
    (hf : ∀ a, QuietTurn (f a)) : QuietTurn (orRaise r >>= f) := by
  cases r with
  | ok a => exact hf a
  | error e => trivial

theorem quietTurn_chat {β : Type} {o : ChatOp} {f : ChatRes o → ChatProg β}
    (ho : isQuiet o = true) (hf : ∀ x, QuietTurn (f x)) : QuietTurn (chat o >>= f) :=
  ⟨ho, hf⟩

theorem quietTurn_saveMessage (c : RemoteConversation) (requestId : String) (role : MessageRole)
    (content : String) : QuietTurn (saveMessage c requestId role content) := by
  refine quietTurn_chat rfl fun id => quietTurn_chat rfl fun n => quietTurn_orRaise fun _ => ?_
  exact quietTurn_chat rfl fun now => quietTurn_chat rfl fun saved => quietTurn_orRaise fun _ =>
    AllOps.of_done _

/-! ## The body of a turn -/

/-- Every operation is one before the end of a turn, or a look at the entry. -/
def Opening (t : Trace ChatOp ChatRes) : Prop := ∀ e ∈ t, isOpening e.1 = true

theorem isOpening_of_isQuiet {o : ChatOp} (h : isQuiet o = true) : isOpening o = true := by
  cases o <;> first | exact h | rfl

theorem QuietTurn.opening {p p' : Async ChatOp ChatRes ε α} (hp : QuietTurn p)
    (h : Steps R p s t p' s') : Opening t :=
  fun e he => isOpening_of_isQuiet (hp.steps h e he)

/-- A quiet operation does not look at the entry. -/
theorem QuietTurn.unseen {p p' : Async ChatOp ChatRes ε α} (hp : QuietTurn p)
    (h : Steps R p s t p' s') : ∀ e ∈ t, showsCancel e = false := by
  rintro ⟨o, x⟩ he
  have hquiet := hp.steps h _ he
  cases o <;> first | rfl | cases hquiet

theorem Opening.append {t' : Trace ChatOp ChatRes} (h : Opening t) (h' : Opening t') :
    Opening (t ++ t') :=
  fun e he => (List.mem_append.mp he).elim (h e) (h' e)

/-- The program is one before the end of a turn; where it does not throw, no look at the entry
showed a cancellation. -/
def Blind (R : Surroundings ChatOp ChatRes S) (p : Async ChatOp ChatRes ε α) : Prop :=
  ∀ s t r s', Steps R p s t (.done r) s' →
    Opening t ∧ ∀ a, r = .ok a → ∀ e ∈ t, showsCancel e = false

theorem QuietTurn.blind {p : Async ChatOp ChatRes ε α} (hp : QuietTurn p) : Blind R p :=
  fun _ _ _ _ h => ⟨hp.opening h, fun _ _ => hp.unseen h⟩

theorem Blind.bind {p : Async ChatOp ChatRes ε α} {f : α → Async ChatOp ChatRes ε β}
    (hp : Blind R p) (hf : ∀ a, Blind R (f a)) : Blind R (p >>= f) := by
  intro s t r s' h
  rcases ends_bind h with ⟨e, hfirst, rfl⟩ | ⟨a, s₁, t₁, t₂, hfirst, hrest, rfl⟩
  · exact ⟨(hp _ _ _ _ hfirst).1, nofun⟩
  · obtain ⟨hopen, hunseen⟩ := hp _ _ _ _ hfirst
    obtain ⟨hopen', hunseen'⟩ := hf a _ _ _ _ hrest
    refine ⟨hopen.append hopen', fun b hr e he => ?_⟩
    exact (List.mem_append.mp he).elim (hunseen a rfl e) (hunseen' b hr e)

theorem Blind.during {p : ChatProg α} (hp : Blind R p) (c : Option RemoteConversation) (b : Bool) :
    Blind R (during c b p) := by
  intro s t r s' h
  obtain ⟨r', hpart, rfl⟩ := ends_during h
  obtain ⟨hopen, hunseen⟩ := hp _ _ _ _ hpart
  refine ⟨hopen, fun a hr => ?_⟩
  cases r' with
  | ok a' => exact hunseen a' rfl
  | error e => cases hr

theorem blind_orRaise (r : Except RemoteFailure α) : Blind R (orRaise r) :=
  QuietTurn.blind (AllOps.of_done r)

/-- A look at the signal throws, or shows no cancellation. -/
theorem blind_throwIfAborted (key : String) : Blind R (throwIfAborted key) := by
  intro s t r s' h
  obtain ⟨entry, s₁, t', rfl, -, h⟩ := Steps.of_await h
  change Steps R (if entry.any ActiveTurn.aborted then _ else _) _ _ _ _ at h
  split at h
  · obtain ⟨rfl, hr, -⟩ := Steps.of_done h
    obtain rfl := Async.done.inj hr
    exact ⟨by simp [Opening, isOpening], nofun⟩
  · next hlook =>
      obtain ⟨rfl, -, -⟩ := Steps.of_done h
      refine ⟨by simp [Opening, isOpening], fun _ _ e he => ?_⟩
      obtain rfl := List.mem_singleton.mp he
      cases entry with
      | none => rfl
      | some a => simpa [showsCancel] using hlook

/-- How the body of a turn ends: it throws, or it hands over `chat.completed`. -/
inductive TurnEnd : Trace ChatOp ChatRes → Except TurnFailure Unit → Prop
  | threw {t e} (hopen : Opening t) : TurnEnd t (.error e)
  | unsent {t device id c m n p failure e} (hopen : Opening t) :
      TurnEnd (t ++ [⟨.send device (.completed id c m n p), .error failure⟩]) (.error e)
  | sent {t device id c m n p t' r} (hopen : Opening t) (hunseen : ∀ e ∈ t, showsCancel e = false)
      (hremote : ∀ e ∈ t', isRemote e.1 = true)
      (hresult : r = .ok () ↔ ∀ e ∈ t', unrecorded e = false) :
      TurnEnd (t ++ ⟨.send device (.completed id c m n p), .ok ()⟩ :: t') r

/-- The program ends in this way, whatever is answered. -/
def EndsTurn (R : Surroundings ChatOp ChatRes S) (p : TurnProg Unit) : Prop :=
  ∀ s t r s', Steps R p s t (.done r) s' → TurnEnd t r

theorem EndsTurn.bind {p : TurnProg α} {f : α → TurnProg Unit} (hp : Blind R p)
    (hf : ∀ a, EndsTurn R (f a)) : EndsTurn R (p >>= f) := by
  intro s t r s' h
  rcases ends_bind h with ⟨e, hfirst, rfl⟩ | ⟨a, s₁, t₁, t₂, hfirst, hrest, rfl⟩
  · exact .threw (hp _ _ _ _ hfirst).1
  · obtain ⟨hopen, hunseen⟩ := hp _ _ _ _ hfirst
    cases hf a _ _ _ _ hrest with
    | threw hopen' => exact .threw (hopen.append hopen')
    | unsent hopen' =>
        rw [← List.append_assoc]
        exact .unsent (hopen.append hopen')
    | sent hopen' hunseen' hremote hresult =>
        rw [← List.append_assoc]
        refine .sent (hopen.append hopen') (fun e he => ?_) hremote hresult
        exact (List.mem_append.mp he).elim (hunseen a rfl e) (hunseen' e)

/-- `chat.completed` is handed over, and an event is recorded. -/
theorem endsTurn_completeTurn (device : RemoteDevice) (request : RemoteChatUserMessage)
    (c : RemoteConversation) (result : RunResult) (finalSequence : ℕ) :
    EndsTurn R (completeTurn device request c result finalSequence) := by
  refine EndsTurn.bind ((quietTurn_saveMessage _ _ _ _).blind.during _ _) fun assistant => ?_
  have hclock : QuietTurn (chat (.remote (.agent .now))) := AllOps.of_perform rfl
  refine EndsTurn.bind (hclock.blind.during _ _) fun now => ?_
  intro s t r s' h
  obtain ⟨r', hpart, rfl⟩ := ends_during h
  obtain ⟨saved, s₁, t₁, rfl, -, hpart⟩ := Steps.of_perform hpart
  have hopen : Opening [(⟨.saveConversation (answeredRecord c result now), saved⟩ :
      Σ o : ChatOp, ChatRes o)] := by
    simp [Opening, isOpening, isQuiet]
  cases saved with
  | error e =>
      obtain ⟨rfl, hr, -⟩ := Steps.of_done hpart
      obtain rfl := Async.done.inj hr
      exact .threw hopen
  | ok _ =>
      obtain ⟨sent, s₂, t₂, rfl, -, hpart⟩ := Steps.of_perform hpart
      cases sent with
      | error failure =>
          obtain ⟨rfl, hr, -⟩ := Steps.of_done hpart
          obtain rfl := Async.done.inj hr
          exact .unsent hopen
      | ok _ =>
          obtain ⟨hremote, hresult⟩ := ends_event hpart
          refine .sent hopen (by simp [showsCancel]) hremote (Iff.trans ?_ hresult)
          cases r' <;> simp [Except.mapError]

theorem endsTurn_answerTurn (device : RemoteDevice) (request : RemoteChatUserMessage)
    (provider : String) (c : RemoteConversation) (token : ℕ) :
    EndsTurn R (answerTurn device request provider c token) := by
  refine EndsTurn.bind (Blind.during ?_ _ _) fun previous => EndsTurn.bind (Blind.during ?_ _ _) ?_
  · refine (quietTurn_saveMessage _ _ _ _).blind.bind fun _ => QuietTurn.blind ?_
    exact quietTurn_chat rfl fun _ => quietTurn_orRaise fun _ => quietTurn_chat rfl fun _ =>
      AllOps.of_done _
  · refine Blind.bind (QuietTurn.blind (AllOps.of_perform rfl)) fun answer => ?_
    refine (blind_orRaise answer).bind fun result => (blind_throwIfAborted _).bind fun _ => ?_
    refine Blind.bind (QuietTurn.blind (AllOps.of_perform rfl)) fun flushed => ?_
    refine (blind_orRaise flushed).bind fun n => (blind_throwIfAborted _).bind fun _ => ?_
    exact QuietTurn.blind (AllOps.of_done _)
  · rintro ⟨result, finalSequence⟩
    exact endsTurn_completeTurn _ _ _ _ _

theorem endsTurn_turn (device : RemoteDevice) (request : RemoteChatUserMessage) :
    EndsTurn R (turn device request) := by
  refine EndsTurn.bind (Blind.during ?_ _ _) ?_
  · refine QuietTurn.blind (quietTurn_chat rfl fun _ => quietTurn_orRaise fun provider => ?_)
    exact (setup_resolveConversation _ _ _).quiet.bind fun c => quietTurn_chat rfl fun _ =>
      AllOps.of_done _
  · rintro ⟨provider, c⟩
    refine EndsTurn.bind (setup_requireSessionToken c device).quiet.blind ?_
    rintro ⟨c', token⟩
    exact endsTurn_answerTurn _ _ _ _ _

/-! ## The `catch` -/

/-- How the `catch` ends behind its look at the entry: the stream cannot be cancelled, or one
terminal message is handed over and an event is recorded. -/
inductive FailEnd : Option ActiveTurn → Trace ChatOp ChatRes → Except RemoteFailure Unit → Prop
  | unsound {look id failure} : FailEnd look [⟨.cancelStream id, .error failure⟩] (.error failure)
  | cancelled {look t device id target c x t' r} (hlook : look.any ActiveTurn.aborted = true)
      (hbefore : ∀ e ∈ t, terminalOf e.1 = none ∧ broken e = false)
      (hremote : ∀ e ∈ t', isRemote e.1 = true)
      (hresult : r = .ok () ↔ ∀ e ∈ t', unrecorded e = false) :
      FailEnd look (t ++ ⟨.send device (.cancelled id target c false), x⟩ :: t') r
  | failed {look device id c code message x t' r} (hlook : look.any ActiveTurn.aborted = false)
      (hremote : ∀ e ∈ t', isRemote e.1 = true)
      (hresult : r = .ok () ↔ ∀ e ∈ t', unrecorded e = false) :
      FailEnd look (⟨.send device (.failed id c code message), x⟩ :: t') r

/-- The entry is looked at again, `chat.cancelled` is handed over, and an event is recorded. -/
theorem ends_cancelled (before : Trace ChatOp ChatRes)
    (hbefore : ∀ e ∈ before, terminalOf e.1 = none ∧ broken e = false) {device : RemoteDevice}
    {request : RemoteChatUserMessage}
    {error : TurnFailure} {look : Option ActiveTurn} {key : String} {c : Option String}
    {r : Except RemoteFailure Unit} (hlook : look.any ActiveTurn.aborted = true)
    (h : Steps R (do
      let active ← chat (.activeTurn key)
      let cancelled := (active.bind ActiveTurn.cancelRequestId).getD request.request_id
      let _ ← chat (.send device (.cancelled cancelled request.request_id c false))
      eventOf error.conversation "remote.chat.cancelled" "Remote chat turn stopped locally.")
      s t (.done r) s') : FailEnd look (before ++ t) r := by
  obtain ⟨active, s₁, t₁, rfl, -, h⟩ := Steps.of_perform h
  obtain ⟨x, s₂, t₂, rfl, -, h⟩ := Steps.of_perform h
  obtain ⟨hremote, hresult⟩ := ends_eventOf h
  rw [List.append_cons]
  refine .cancelled hlook (fun e he => ?_) hremote hresult
  rcases List.mem_append.mp he with he | he
  · exact hbefore e he
  · obtain rfl := List.mem_singleton.mp he
    exact ⟨rfl, rfl⟩

theorem ends_failTurn {device : RemoteDevice} {request : RemoteChatUserMessage}
    {error : TurnFailure} {r : Except RemoteFailure Unit}
    (h : Steps R (failTurn device request error) s t (.done r) s') :
    ∃ key look t' s₁, t = ⟨.activeTurn key, look⟩ :: t' ∧ R (.activeTurn key) s look s₁ ∧
      FailEnd look t' r := by
  obtain ⟨look, s₁, t', rfl, hR, h⟩ := Steps.of_perform h
  refine ⟨_, look, t', s₁, rfl, hR, ?_⟩
  cases hlook : look.any ActiveTurn.aborted with
  | false =>
      simp only [hlook, Bool.false_eq_true, if_false] at h
      obtain ⟨x, s₂, t₂, rfl, -, h⟩ := Steps.of_perform h
      obtain ⟨hremote, hresult⟩ := ends_eventOf h
      exact .failed hlook hremote hresult
  | true =>
      simp only [hlook, if_true] at h
      cases hstream : error.stream with
      | false =>
          rw [hstream] at h
          exact ends_cancelled [] (by simp) hlook h
      | true =>
          rw [hstream] at h
          obtain ⟨y, s₂, t₂, rfl, -, h⟩ := Steps.of_await h
          cases y with
          | error failure =>
              obtain ⟨rfl, hr, -⟩ := Steps.of_done h
              obtain rfl := Async.done.inj hr
              exact .unsound
          | ok _ =>
              exact ends_cancelled [⟨.cancelStream request.request_id, .ok ()⟩]
                (by simp [terminalOf, broken]) hlook h

end Parts

/-! ## The whole turn -/

/-- How a turn ends, between the begin and the removal of its entry: one terminal message is handed
over and an event is recorded, or its end is disturbed. -/
inductive HandleEnd : Trace ChatOp ChatRes → Except RemoteFailure Unit → Prop
  | once {u device m x v r} (hbefore : ∀ e ∈ u, terminalOf e.1 = none ∧ broken e = false)
      (hm : m.isTerminal = true) (hsent : broken ⟨.send device m, x⟩ = false)
      (hremote : ∀ e ∈ v, isRemote e.1 = true)
      (hresult : r = .ok () ↔ ∀ e ∈ v, unrecorded e = false)
      (hseen : (u ++ ⟨.send device m, x⟩ :: v).any showsCancel = m.isCancelled) :
      HandleEnd (u ++ ⟨.send device m, x⟩ :: v) r
  | disturbed {t r} (hdisturbed : (∃ e ∈ t, broken e = true) ∨ ∃ e ∈ behindTerminal t, unrecorded e
    = true)
      (hends : r = .ok () → 2 ≤ (terminals t).length) : HandleEnd t r

section Traces

variable {t t' : Trace ChatOp ChatRes}

theorem terminals_append : terminals (t ++ t') = terminals t ++ terminals t' :=
    List.filterMap_append

theorem length_terminals_send {device : RemoteDevice} {m : ChatMessage}
    {x : ChatRes (.send device m)}
    (hm : m.isTerminal = true) :
    (terminals (⟨.send device m, x⟩ :: t)).length = (terminals t).length + 1 := by
  simp [terminals, terminalOf, hm]

theorem terminals_of_none (h : ∀ e ∈ t, terminalOf e.1 = none) : terminals t = [] :=
  List.filterMap_eq_nil_iff.mpr h

/-- What is behind the first terminal message. -/
theorem behindTerminal_append {e : Σ o : ChatOp, ChatRes o} (h : ∀ e ∈ t, terminalOf e.1 = none)
    (he : (terminalOf e.1).isSome = true) : behindTerminal (t ++ e :: t') = t' := by
  have hall : ∀ e ∈ t, (terminalOf e.1).isNone = true := fun e he => by rw [h e he]; rfl
  have hstop : ¬(terminalOf e.1).isNone = true := by
    rw [Option.isNone_iff_eq_none, ← Option.not_isSome_iff_eq_none]
    exact not_not.mpr he
  rw [behindTerminal, List.dropWhile_append_of_pos hall,
    List.dropWhile_cons_of_neg (p := fun e : Σ o : ChatOp, ChatRes o => (terminalOf e.1).isNone)
      hstop,
    List.tail_cons]

theorem Opening.plain (h : Opening t) : ∀ e ∈ t, terminalOf e.1 = none ∧ broken e = false := by
  rintro ⟨o, x⟩ he
  have ho := h _ he
  cases o with
  | send device m =>
      have hm : m.isTerminal = false := by simpa [isOpening, isQuiet] using ho
      cases m with
      | accepted => exact ⟨rfl, rfl⟩
      | _ => cases hm
  | cancelStream => cases ho
  | _ => exact ⟨rfl, rfl⟩

/-- Events of remote control are neither messages nor looks at the entry. -/
theorem plain_of_remote (h : ∀ e ∈ t, isRemote e.1 = true) :
    ∀ e ∈ t, terminalOf e.1 = none ∧ broken e = false ∧ showsCancel e = false := by
  rintro ⟨o, x⟩ he
  have ho := h _ he
  cases o with
  | remote o => exact ⟨rfl, rfl, rfl⟩
  | _ => cases ho

/-- An operation that neither makes nor removes the entry. -/
def leavesEntry : ChatOp → Bool
  | .beginTurn _ | .endTurn _ => false
  | _ => true

theorem Opening.leavesEntry (h : Opening t) : ∀ e ∈ t, leavesEntry e.1 = true := by
  rintro ⟨o, x⟩ he
  have ho := h _ he
  cases o <;> first | rfl | cases ho

theorem leavesEntry_of_remote (h : ∀ e ∈ t, isRemote e.1 = true) :
    ∀ e ∈ t, leavesEntry e.1 = true := by
  rintro ⟨o, x⟩ he
  have ho := h _ he
  cases o <;> first | rfl | cases ho

theorem TurnEnd.leavesEntry {r : Except TurnFailure Unit} (h : TurnEnd t r) :
    ∀ e ∈ t, leavesEntry e.1 = true := by
  cases h with
  | threw hopen => exact hopen.leavesEntry
  | unsent hopen =>
      exact List.forall_mem_append.mpr ⟨hopen.leavesEntry, by
        simp [ConversationService.leavesEntry]⟩
  | sent hopen _ hremote =>
      exact List.forall_mem_append.mpr ⟨hopen.leavesEntry,
        List.forall_mem_cons.mpr ⟨rfl, leavesEntry_of_remote hremote⟩⟩

/-- A cancellation that was seen, or that is in the entry, stays in it. -/
theorem aborted_step {o : ChatOp} {w w' : TurnWatch} {x : ChatRes o} (h : watched o w x w')
    (ho : leavesEntry o = true)
    (hw : w.entry.any ActiveTurn.aborted = true ∨ showsCancel ⟨o, x⟩ = true) :
    w'.entry.any ActiveTurn.aborted = true := by
  obtain ⟨w₁, hanswer, hlater⟩ := h
  have hkept : w₁.entry.any ActiveTurn.aborted = true := by
    cases o with
    | beginTurn key => cases ho
    | endTurn key => cases ho
    | activeTurn key =>
        obtain ⟨rfl, rfl⟩ := hanswer
        rcases hw with hw | hw
        · exact hw
        · cases hentry : w₁.entry with
          | none => simp [showsCancel, hentry] at hw
          | some a => simpa [showsCancel, hentry] using hw
    | noteConversation key id =>
        obtain rfl : _ = w₁ := hanswer.symm
        have hentry : w.entry.any ActiveTurn.aborted = true := hw.resolve_right
          (by simp [showsCancel])
        simpa [Option.any_map] using hentry
    | _ =>
        obtain rfl : w₁ = w := hanswer
        exact hw.resolve_right (by simp [showsCancel])
  rcases hlater with rfl | ⟨id, rfl⟩
  · exact hkept
  · cases hentry : w₁.entry with
    | none => simp [hentry] at hkept
    | some a => simp [TurnWatch.cancelled, ActiveTurn.cancelledBy, hentry]

theorem aborted_of_seen {ε α : Type} {p p' : Async ChatOp ChatRes ε α} {w w' : TurnWatch}
    (h : Steps watched p w t p' w') (ht : ∀ e ∈ t, ConversationService.leavesEntry e.1 = true)
    (hw : w.entry.any ActiveTurn.aborted = true ∨ t.any showsCancel = true) :
    w'.entry.any ActiveTurn.aborted = true := by
  induction h with
  | refl => simpa using hw
  | head hx _ ih =>
      obtain ⟨ho, ht⟩ := List.forall_mem_cons.mp ht
      rw [List.any_cons, Bool.or_eq_true] at hw
      rcases hw with hw | hw | hw
      · exact ih ht (.inl (aborted_step hx ho (.inl hw)))
      · exact ih ht (.inl (aborted_step hx ho (.inr hw)))
      · exact ih ht (.inr hw)

end Traces

/-- The trace of a turn, between the begin and the removal of its entry. -/
def framed (key : String) (t : Trace ChatOp ChatRes) : Trace ChatOp ChatRes :=
  ⟨.beginTurn key, true⟩ :: (t ++ [⟨.endTurn key, ()⟩])

section Handle

variable {device : RemoteDevice} {request : RemoteChatUserMessage} {t t' : Trace ChatOp ChatRes}
  {r : Except RemoteFailure Unit}

/-- Where the body threw, the `catch` hands over a terminal message or rejects. -/
theorem FailEnd.terminals {look : Option ActiveTurn} (h : FailEnd look t r) (hr : r = .ok ()) :
    (terminals t).length = 1 := by
  cases h with
  | unsound => cases hr
  | cancelled _ hbefore hremote =>
      rw [terminals_append, terminals_of_none fun e he => (hbefore e he).1, List.nil_append,
        length_terminals_send rfl, terminals_of_none fun e he => (plain_of_remote hremote e he).1]
      rfl
  | failed _ hremote =>
      rw [length_terminals_send rfl, terminals_of_none fun e he => (plain_of_remote hremote e he).1]
      rfl

theorem showsCancel_look {key : String} {look : Option ActiveTurn} :
    showsCancel ⟨.activeTurn key, look⟩ = look.any ActiveTurn.aborted := by
  cases look <;> rfl

/-- No look shows a cancellation. -/
theorem unseen_send {device : RemoteDevice} {m : ChatMessage} {x : ChatRes (.send device m)}
    (h : ∀ e ∈ t, showsCancel e = false) (h' : ∀ e ∈ t', isRemote e.1 = true) :
    (t ++ ⟨.send device m, x⟩ :: t').any showsCancel = false := by
  have hremote (e : Σ o : ChatOp, ChatRes o) (he : e ∈ t') : showsCancel e = false :=
    (plain_of_remote h' e he).2.2
  rw [List.any_eq_false]
  rintro e he
  rcases List.mem_append.mp he with he | he
  · simp [h e he]
  · rcases List.mem_cons.mp he with rfl | he
    · simp [showsCancel]
    · simp [hremote e he]

/-- A body that threw before its end, and the `catch`. -/
theorem handleEnd_of_opening {key : String} {look : Option ActiveTurn} (hopen : Opening t)
    (hfail : FailEnd look t' r)
    (hlook : t.any showsCancel = true → look.any ActiveTurn.aborted = true) :
    HandleEnd (t ++ ⟨.activeTurn key, look⟩ :: t') r := by
  have hfirst : ∀ e ∈ t ++ [(⟨.activeTurn key, look⟩ : Σ o : ChatOp, ChatRes o)],
      terminalOf e.1 = none ∧ broken e = false :=
    List.forall_mem_append.mpr ⟨hopen.plain, by simp [terminalOf, broken]⟩
  cases hfail with
  | @unsound id failure =>
      exact .disturbed (.inl ⟨⟨.cancelStream id, .error failure⟩, by simp, rfl⟩) nofun
  | cancelled hseen hbefore hremote hresult =>
      rw [List.append_cons, ← List.append_assoc]
      refine .once (List.forall_mem_append.mpr ⟨hfirst, hbefore⟩) rfl rfl hremote hresult ?_
      simp [showsCancel_look, hseen, ChatMessage.isCancelled]
  | failed hunseen hremote hresult =>
      rw [List.append_cons]
      refine .once hfirst rfl rfl hremote hresult ?_
      have hrest : ∀ e ∈ t, showsCancel e = false := by
        intro e he
        by_contra hshows
        have hany := hlook (List.any_eq_true.mpr ⟨e, he, Bool.eq_true_of_not_eq_false hshows⟩)
        rw [hunseen] at hany
        cases hany
      exact unseen_send (List.forall_mem_append.mpr ⟨hrest, by simp [showsCancel_look, hunseen]⟩)
        hremote

/-- A body that threw, and the `catch`. -/
theorem handleEnd_of_catch {error : TurnFailure} {key : String} {look : Option ActiveTurn}
    (hturn : TurnEnd t (.error error)) (hfail : FailEnd look t' r)
    (hlook : t.any showsCancel = true → look.any ActiveTurn.aborted = true) :
    HandleEnd (t ++ ⟨.activeTurn key, look⟩ :: t') r := by
  have hcatch (hr : r = .ok ()) : (terminals (⟨.activeTurn key, look⟩ :: t')).length = 1 :=
    hfail.terminals hr
  cases hturn with
  | threw hopen => exact handleEnd_of_opening hopen hfail hlook
  | @unsent t₁ device id c m n p failure _ hopen =>
      refine .disturbed (.inl ⟨⟨.send device (.completed id c m n p), .error failure⟩, by simp,
        rfl⟩)
        fun hr => ?_
      rw [terminals_append, terminals_append, List.length_append, List.length_append, hcatch hr,
        length_terminals_send rfl]
      omega
  | @sent t₁ device id c m n p t₂ _ hopen hunseen hremote hresult =>
      refine .disturbed (.inr ?_) fun hr => ?_
      · obtain ⟨e, he, hlost⟩ : ∃ e ∈ t₂, unrecorded e = true := by
          by_contra hnone
          refine absurd (hresult.mpr fun e he => Bool.eq_false_of_not_eq_true fun hlost => ?_) nofun
          exact hnone ⟨e, he, hlost⟩
        rw [List.append_assoc, List.cons_append,
          behindTerminal_append (fun e he => (hopen.plain e he).1) rfl]
        exact ⟨e, List.mem_append_left _ he, hlost⟩
      · rw [terminals_append, terminals_append, List.length_append, List.length_append, hcatch hr,
          length_terminals_send rfl]
        omega

/-- A body that ended. -/
theorem handleEnd_of_body (hturn : TurnEnd t (.ok ())) : HandleEnd t (.ok ()) := by
  cases hturn with
  | sent hopen hunseen hremote hresult =>
      refine .once hopen.plain rfl rfl hremote ?_ (unseen_send hunseen hremote)
      exact iff_of_true rfl (hresult.mp rfl)

/-- Where there is no entry, a cancellation makes none. -/
theorem later_none {w w' : TurnWatch} (hw : w.entry = none) (h : Later w w') : w'.entry = none := by
  rcases h with rfl | ⟨id, rfl⟩
  · exact hw
  · simp [TurnWatch.cancelled, hw]

/-- What a call of `handle` does: nothing where the request is handled already, and otherwise a
turn, whose entry it removes. -/
theorem ends_handle {w w' : TurnWatch} (h : Steps watched (handle device request) w t (.done r)
    w') :
    (w.entry.isSome = true ∧ terminals t = []) ∨
      (w.entry = none ∧ w'.entry = none ∧ ∃ key t', t = framed key t' ∧ HandleEnd t' r) := by
  obtain ⟨begun, w₁, t₁, rfl, ⟨w₀, ⟨hbegun, hw₀⟩, hlater⟩, h⟩ := Steps.of_perform h
  cases hentry : w.entry with
  | some a =>
      obtain rfl : begun = false := by rw [hbegun, hentry]; rfl
      obtain ⟨rfl, -, -⟩ := Steps.of_done h
      exact .inl ⟨rfl, rfl⟩
  | none =>
      obtain rfl : begun = true := by rw [hbegun, hentry]; rfl
      rcases ends_bind h with ⟨e, hsettle, -⟩ | ⟨outcome, w₂, t₂, t₃, hsettle, hrest, rfl⟩
      · obtain ⟨r', hr', -⟩ := ends_settle hsettle
        cases hr'
      obtain ⟨outcome', hr', hturn⟩ := ends_settle hsettle
      obtain rfl : outcome = outcome' := Except.ok.inj hr'
      rcases ends_bind hrest with ⟨e, hsettle', -⟩ | ⟨ended, w₃, t₄, t₅, hsettle', hend, rfl⟩
      · obtain ⟨r', hr', -⟩ := ends_settle hsettle'
        cases hr'
      obtain ⟨ended', hr', hcatch⟩ := ends_settle hsettle'
      obtain rfl : ended = ended' := Except.ok.inj hr'
      obtain ⟨_, w₄, t₆, rfl, ⟨w₅, rfl, hlater'⟩, hend⟩ := Steps.of_perform hend
      obtain ⟨rfl, hr, rfl⟩ := Steps.of_done hend
      obtain rfl : r = ended := Async.done.inj hr
      refine .inr ⟨rfl, later_none rfl hlater', _, t₂ ++ t₄, by rw [framed, List.append_assoc], ?_⟩
      have hbody := endsTurn_turn device request _ _ _ _ hturn
      cases outcome with
      | ok _ =>
          obtain ⟨rfl, hr, -⟩ := Steps.of_done hcatch
          obtain rfl := Async.done.inj hr
          rw [List.append_nil]
          exact handleEnd_of_body hbody
      | error error =>
          obtain ⟨key, look, t', w₆, rfl, ⟨w₇, ⟨hlook, rfl⟩, -⟩, hfail⟩ := ends_failTurn hcatch
          refine handleEnd_of_catch hbody hfail fun hseen => ?_
          rw [hlook]
          exact aborted_of_seen hturn hbody.leavesEntry (.inr hseen)

end Handle

/-! ## Turns that end once -/

section Once

variable {device : RemoteDevice} {request : RemoteChatUserMessage} {t t' : Trace ChatOp ChatRes}
  {r : Except RemoteFailure Unit} {w w' : TurnWatch}

theorem mem_behindTerminal_append {e : Σ o : ChatOp, ChatRes o} (h : e ∈ behindTerminal t) :
    e ∈ behindTerminal (t ++ t') := by
  induction t with
  | nil => cases h
  | cons d t ih =>
      cases hd : (terminalOf d.1).isNone with
      | false =>
          simp only [behindTerminal, List.dropWhile_cons, hd, List.cons_append, List.tail_cons,
            Bool.false_eq_true, if_false] at h ⊢
          exact List.mem_append_left _ h
      | true =>
          simp only [behindTerminal, List.dropWhile_cons, hd, List.cons_append, if_true] at h ⊢
          exact ih h

@[simp] theorem terminals_framed (key : String) : terminals (framed key t) = terminals t :=
  (terminals_append (t := t)).trans (List.append_nil _)

@[simp] theorem any_showsCancel_framed (key : String) :
    (framed key t).any showsCancel = t.any showsCancel := by
  rw [framed, List.any_cons, List.any_append]
  exact Bool.or_false _

theorem forall_mem_framed {P : (Σ o : ChatOp, ChatRes o) → Prop} {key : String} :
    (∀ e ∈ framed key t, P e) ↔
      P ⟨.beginTurn key, true⟩ ∧ (∀ e ∈ t, P e) ∧ P ⟨.endTurn key, ()⟩ := by
  rw [framed, List.forall_mem_cons, List.forall_mem_append, List.forall_mem_singleton]

/-- A turn that handed over one terminal message. -/
theorem terminals_once {device : RemoteDevice} {m : ChatMessage} {x : ChatRes (.send device m)}
    (h : ∀ e ∈ t, terminalOf e.1 = none) (hm : m.isTerminal = true)
    (h' : ∀ e ∈ t', terminalOf e.1 = none) : terminals (t ++ ⟨.send device m, x⟩ :: t') = [m] := by
  have hfirst : terminals (⟨.send device m, x⟩ :: t') = m :: terminals t' :=
    List.filterMap_cons_some (if_pos hm)
  rw [terminals_append, terminals_of_none h, hfirst, terminals_of_none h', List.nil_append]

/-- What is behind that message. -/
theorem behindTerminal_once {device : RemoteDevice} {m : ChatMessage} {x : ChatRes (.send device m)}
    (key : String) (h : ∀ e ∈ t, terminalOf e.1 = none) (hm : m.isTerminal = true) :
    behindTerminal (framed key (t ++ ⟨.send device m, x⟩ :: t')) = t' ++ [⟨.endTurn key, ()⟩] := by
  rw [framed, List.append_assoc, ← List.cons_append]
  refine behindTerminal_append (List.forall_mem_cons.mpr ⟨rfl, h⟩) ?_
  rw [show terminalOf (.send device m) = some m from if_pos hm]
  rfl

theorem HandleEnd.endsOnce_iff (h : HandleEnd t r) (key : String) (hbegun : w.entry = none)
    (hremoved : w'.entry = none) : EndsOnce (framed key t) r w' ↔ CalmEnd w (framed key t) w' := by
  cases h with
  | @once u device m x v _ hbefore hm hsent hremote hresult hseen =>
      have hplain := plain_of_remote hremote
      have hquiet : ∀ e ∈ u, terminalOf e.1 = none := fun e he => (hbefore e he).1
      have hterminals := terminals_once (x := x) hquiet hm fun e he => (hplain e he).1
      have hrecorded : (∀ e ∈ behindTerminal (framed key (u ++ ⟨.send device m, x⟩ :: v)),
          unrecorded e = false) ↔ r = .ok () := by
        rw [behindTerminal_once key hquiet hm, List.forall_mem_append, List.forall_mem_singleton,
          hresult]
        exact and_iff_left rfl
      have hsound : ∀ e ∈ framed key (u ++ ⟨.send device m, x⟩ :: v), broken e = false := by
        rw [forall_mem_framed, List.forall_mem_append, List.forall_mem_cons]
        exact ⟨rfl, ⟨fun e he => (hbefore e he).2, hsent, fun e he => (hplain e he).2.1⟩, rfl⟩
      constructor
      · rintro ⟨hr, -, -, hcancelled⟩
        refine ⟨hbegun, hrecorded.mpr hr, hsound, fun haccepted => ?_⟩
        rw [any_showsCancel_framed, hseen]
        refine hcancelled haccepted m ?_
        rw [terminals_framed, hterminals]
        exact List.mem_singleton_self m
      · rintro ⟨-, hkept, -, hlook⟩
        refine ⟨hrecorded.mp hkept, hremoved, ?_, fun haccepted => ?_⟩
        · rw [terminals_framed, hterminals]
          rfl
        · rw [any_showsCancel_framed, hseen] at hlook
          rw [terminals_framed, hterminals, List.forall_mem_singleton]
          exact hlook haccepted
  | disturbed hdisturbed hends =>
      refine iff_of_false ?_ ?_
      · rintro ⟨hr, -, honce, -⟩
        rw [terminals_framed] at honce
        have htwo := hends hr
        omega
      · rintro ⟨-, hrecorded, hsound, -⟩
        rcases hdisturbed with ⟨e, he, hbroken⟩ | ⟨e, he, hlost⟩
        · rw [(forall_mem_framed.mp hsound).2.1 e he] at hbroken
          cases hbroken
        · have hbehind : e ∈ behindTerminal (framed key t) := mem_behindTerminal_append he
          rw [hrecorded e hbehind] at hlost
          cases hlost

/-- A turn ends once exactly when it is begun, nothing fails once its terminal message is handed
over, its stream can be cancelled, and every cancellation is seen by a look at the entry. -/
theorem turn_ends_once_iff (h : Steps watched (handle device request) w t (.done r) w') :
    EndsOnce t r w' ↔ CalmEnd w t w' := by
  rcases ends_handle h with ⟨hactive, hnone⟩ | ⟨hbegun, hremoved, key, t', rfl, hend⟩
  · refine iff_of_false ?_ ?_
    · rintro ⟨-, -, honce, -⟩
      rw [hnone] at honce
      cases honce
    · rintro ⟨hbegun, -⟩
      rw [hbegun] at hactive
      cases hactive
  · exact hend.endsOnce_iff key hbegun hremoved

end Once

/-! ## Two turns -/

/-- A message to the conversation of the sample device. -/
def sampleRequest : RemoteChatUserMessage := ⟨"req_1", some "conversation_1", "Hello?", none⟩

/-- A look or a change that nothing comes between. -/
theorem watched_alone {o : ChatOp} {w w' : TurnWatch} {x : ChatRes o} (h : Answered o w x w') :
    watched o w x w' :=
  ⟨w', h, .inl rfl⟩

/-- No provider is ready, and a cancellation comes meanwhile. -/
def cancelledTrace : Trace ChatOp ChatRes :=
  [⟨.beginTurn (turnKey sampleDevice.id "req_1"), true⟩,
    ⟨.resolveProvider none, .error (.thrown "No provider is available.")⟩,
    ⟨.activeTurn (turnKey sampleDevice.id "req_1"), some ⟨true, none, some "cancel_1"⟩⟩,
    ⟨.activeTurn (turnKey sampleDevice.id "req_1"), some ⟨true, none, some "cancel_1"⟩⟩,
    ⟨.send sampleDevice (.cancelled "cancel_1" "req_1" none false), .ok ()⟩,
    ⟨.endTurn (turnKey sampleDevice.id "req_1"), ()⟩]

theorem cancelledTrace_run : Steps watched (handle sampleDevice sampleRequest) ⟨none, false⟩
    cancelledTrace (.done (.ok ())) ⟨none, true⟩ := by
  refine .head (watched_alone ⟨rfl, rfl⟩) ?_
  refine .head ⟨_, rfl, .inr ⟨"cancel_1", rfl⟩⟩ ?_
  refine .head (watched_alone ⟨rfl, rfl⟩) ?_
  refine .head (watched_alone ⟨rfl, rfl⟩) ?_
  refine .head (watched_alone rfl) ?_
  exact .head (watched_alone rfl) (.refl _ _)

/-- The theorem at that run: the turn ends once, in `chat.cancelled`. -/
theorem cancelledTrace_ends_once : EndsOnce cancelledTrace (.ok ()) ⟨none, true⟩ := by
  refine (turn_ends_once_iff cancelledTrace_run).mpr ⟨rfl, ?_, ?_, fun _ => rfl⟩
  · simp [cancelledTrace, behindTerminal, terminalOf, ChatMessage.isTerminal, unrecorded]
  · simp [cancelledTrace, broken]

/-- The vault cannot be read, and the end of the turn cannot be recorded. -/
def rejectedTrace : Trace ChatOp ChatRes :=
  [⟨.beginTurn (turnKey sampleDevice.id "req_1"), true⟩,
    ⟨.resolveProvider none, .ok "codex"⟩,
    ⟨.getConversation "conversation_1", .ok (some sampleConversation)⟩,
    ⟨.noteConversation (turnKey sampleDevice.id "req_1") "conversation_1", ()⟩,
    ⟨.getCredentials "conversation_1", .error (.thrown "The vault is locked.")⟩,
    ⟨.activeTurn (turnKey sampleDevice.id "req_1"), some ⟨false, some "conversation_1", none⟩⟩,
    ⟨.send sampleDevice (.failed "req_1" (some "conversation_1") "VOPS_REMOTE_CHAT_FAILED"
      "The vault is locked."), .ok ()⟩,
    ⟨.remote (.agent .localId), (7 : ℕ)⟩,
    ⟨.remote (.agent .now), (0 : ℤ)⟩,
    ⟨.remote .auditWrite, .error (.thrown "database is locked")⟩,
    ⟨.endTurn (turnKey sampleDevice.id "req_1"), ()⟩]

/-- There `handle` rejects. -/
theorem rejectedTrace_run : Steps watched (handle sampleDevice sampleRequest) ⟨none, false⟩
    rejectedTrace (.done (.error (.thrown "database is locked"))) ⟨none, false⟩ := by
  refine .head (watched_alone ⟨rfl, rfl⟩) ?_
  refine .head (watched_alone rfl) ?_
  refine .head (watched_alone rfl) ?_
  refine .head (watched_alone rfl) ?_
  refine .head (watched_alone rfl) ?_
  refine .head (watched_alone ⟨rfl, rfl⟩) ?_
  refine .head (watched_alone rfl) ?_
  refine .head (watched_alone rfl) ?_
  refine .head (watched_alone rfl) ?_
  refine .head (watched_alone rfl) ?_
  exact .head (watched_alone rfl) (.refl _ _)

/-- Not every turn ends once. -/
theorem rejectedTrace_not_once : ¬ ∀ (device : RemoteDevice) (request : RemoteChatUserMessage)
    (t : Trace ChatOp ChatRes) (r : Except RemoteFailure Unit) (w' : TurnWatch),
    Steps watched (handle device request) ⟨none, false⟩ t (.done r) w' → EndsOnce t r w' := by
  intro h
  cases (h _ _ _ _ _ rejectedTrace_run).resolves

end Vops.ConversationService
