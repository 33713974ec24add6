import Vops.Lib.AsyncInterp
import Vops.Remote.ConversationService
import Vops.Remote.ConversationThms
import Vops.Remote.RemoteSync

/-!
# What is streamed and what is stored

* `pushed`, `failedDeltas`, `savedAnswers` — the deltas of a run, those of adapters that failed, and
  the texts of the assistant messages that were handed to the store.
* `StreamStep`, `RouterStep` — the protocols of the conversation service and of the router: until
  there is an answer, adapters are run; then its text is stored.
* `follows_handle` — a turn with the router follows them.
* `streamed_eq_stored_iff` — what was streamed is what is stored exactly when no adapter failed
  after it had passed on a text.
-/

/-!
## The router of agents (`remote/remote-agent-router.ts`, `remote/remote-agent-registry.ts`)

* `AgentProviderStatus`, `RemoteAgentPolicy`, `candidates` — which providers are tried, in which
  order.
* `RouterOp` — the operations of a turn whose provider is run here: those of the conversation
  service, the adapters, and what is pushed to the stream.
* `runProvider`, `tryProviders`, `deterministic`, `run` — one provider, the loop over the
  candidates, the summary, the whole.
* `routed` — a turn of the conversation service, with this router.

The run of an adapter is one operation: what it passed to `onDelta` is part of its answer.
-/

namespace Vops.RemoteAgentRouter

open ConversationService (ChatOp ChatRes RunContext RunResult ActiveTurn turnKey)

/-! ## The candidates -/

/-- `AgentProviderStatus`, as far as it is read. -/
structure AgentProviderStatus where
  id : String
  selectable : Bool

/-- `RemoteAgentPolicy` -/
structure RemoteAgentPolicy where
  defaultProvider : String
  enabledProviders : List String
  fallbackOrder : List String
  deterministicFallback : Bool

/-- What `candidates` returns. -/
structure Route where
  primary : String
  providers : List String
  deterministicFallback : Bool

/-- `candidates` -/
def candidates (policy : RemoteAgentPolicy) (requested : Option String)
    (statuses : List AgentProviderStatus) : Except RemoteFailure Route :=
  let primary := requested.getD policy.defaultProvider
  match requested.filter fun p => p ≠ "" && !policy.enabledProviders.contains p with
  | some p => .error (.thrown s!"Remote provider '{p}' is disabled by local policy.")
  | none =>
      .ok { primary := primary
            providers := (primary :: policy.fallbackOrder).eraseDups.filter fun provider =>
              (statuses.find? fun status => status.id == provider).any
                AgentProviderStatus.selectable
            deterministicFallback := policy.deterministicFallback }

/-! ## Operations -/

/-- What an adapter throws. -/
structure AdapterFailure where
  failure : RemoteFailure
  /-- `error.name === 'AbortError'` -/
  abort : Bool

/-- The run of an adapter: what it passed to `onDelta`, and how it ended. -/
structure AdapterRun where
  deltas : List String
  result : Except AdapterFailure RunResult

/-- The operations of a turn. -/
inductive RouterOp
  | chat (o : ChatOp)
  | providers
  | policy
  | onStatus (requestId status detail : String)
  | beginProvider (provider : String)
  | adapter (provider : String) (context : RunContext)
  | endProvider (provider : String)
  | snapshot (device : RemoteDevice) (requestId : String)
  | push (requestId delta : String)

/-- The answer of an operation. -/
abbrev RouterRes : RouterOp → Type
  | .chat o => ChatRes o
  | .providers => Except RemoteFailure (List AgentProviderStatus)
  | .policy => Except RemoteFailure RemoteAgentPolicy
  | .onStatus _ _ _ => Except RemoteFailure Unit
  | .beginProvider _ => Bool
  | .adapter _ _ => AdapterRun
  | .endProvider _ => Unit
  | .snapshot _ _ => Except RemoteFailure RemoteSync.RemoteSyncSnapshot
  | .push _ _ => Unit

/-- A program of the router. -/
abbrev RouterProg (α : Type) := Async RouterOp RouterRes RemoteFailure α

/-- Wait for one operation. -/
abbrev route (o : RouterOp) : RouterProg (RouterRes o) := Async.perform o

/-- Go on with a result, or throw its error. -/
def orThrow {α : Type} (r : Except RemoteFailure α) : RouterProg α := .done r

/-! ## The providers -/

/-- `cancelledError` -/
def cancelledError : RemoteFailure := .thrown "Remote agent turn was cancelled."

/-- `turn.signal.aborted` -/
def aborted (device : RemoteDevice) (context : RunContext) : RouterProg Bool := do
  let active ← route (.chat (.activeTurn (turnKey device.id context.requestId)))
  return active.any ActiveTurn.aborted

/-- `RemoteAgentRegistry.run`, with what it throws as a value. -/
def runProvider (provider : String) (context : RunContext) :
    RouterProg (Except AdapterFailure RunResult) := do
  if ← route (.beginProvider provider) then do
    let answer ← route (.adapter provider context)
    route (.endProvider provider)
    return answer.result
  else return .error ⟨.thrown s!"Remote provider '{provider}' is busy.", false⟩

/-- The loop over the candidates: it ends in the answer of one of them, or in the last error. -/
def tryProviders (device : RemoteDevice) (context : RunContext) (primary : String) :
    List String → Option RemoteFailure → RouterProg (RunResult ⊕ Option RemoteFailure)
  | [], lastError => return .inr lastError
  | provider :: providers, _ => do
      if ← aborted device context then throw cancelledError
      else do
        if provider ≠ primary then
          orThrow (← route (.onStatus context.requestId "thinking"
            s!"Locally approved fallback: {provider}"))
        match ← runProvider provider context with
        | .ok result => return .inl result
        | .error error =>
            let stopped ← aborted device context
            if stopped || error.abort then throw cancelledError
            else tryProviders device context primary providers (some error.failure)

/-- The text of the summary. -/
def summaryText (snapshot : RemoteSync.RemoteSyncSnapshot) : String :=
  let pending := snapshot.approvals.countP fun entry => entry.status = .pending
  " ".intercalate
    [s!"Control node online. {snapshot.targets.length} target, {snapshot.applications.length}
    application.",
      s!"{snapshot.operations.length} recent operation and {pending} pending approval.",
      "No locally approved coding-agent runtime is ready, so this is a deterministic read-only
        summary."]

/-- `deterministic` -/
def deterministic (device : RemoteDevice) (requestId : String) : RouterProg RunResult := do
  let snapshot ← orThrow (← route (.snapshot device requestId))
  let text := summaryText snapshot
  route (.push requestId text)
  return { text := text, provider := "deterministic" }

/-- `run` -/
def run (device : RemoteDevice) (requested : Option String) (context : RunContext) :
    RouterProg RunResult := do
  let statuses ← orThrow (← route .providers)
  let policy ← orThrow (← route .policy)
  let found ← orThrow (candidates policy requested statuses)
  match ← tryProviders device context found.primary found.providers none with
  | .inl result => return result
  | .inr lastError =>
      if found.deterministicFallback then deterministic device context.requestId
      else throw (lastError.getD
        (.thrown "No locally approved remote agent provider is available."))

/-! ## Turns with this router -/

/-- What performs an operation of the conversation service. -/
def performed : (o : ChatOp) → RouterProg (ChatRes o)
  | .run device requested context => Async.attempted (run device requested context)
  | o => route (.chat o)

/-- `handle` of the conversation service, with this router. -/
def handle (device : RemoteDevice) (request : RemoteChatUserMessage) : RouterProg Unit :=
  Async.interpret performed (ConversationService.handle device request)

end Vops.RemoteAgentRouter

namespace Vops.RemoteAgentRouter

open Async (Follows Protocol AllOps Steps Surroundings Trace)
open ConversationService hiding handle

/-! ## Deltas and answers -/

/-- What an operation passes to the stream. -/
def deltasOf : (Σ o : RouterOp, RouterRes o) → List String
  | ⟨.adapter _ _, answer⟩ => answer.deltas
  | ⟨.push _ delta, _⟩ => [delta]
  | _ => []

/-- What an adapter that fails passes to the stream. -/
def failedDeltasOf : (Σ o : RouterOp, RouterRes o) → List String
  | ⟨.adapter _ _, ⟨deltas, .error _⟩⟩ => deltas
  | _ => []

/-- The text of an assistant message that is handed to the store. -/
def savedAnswerOf : RouterOp → Option String
  | .chat (.saveConversationMessage m) => if m.role = .assistant then some m.content else none
  | _ => none

/-- The deltas of a run. -/
def pushed (t : Trace RouterOp RouterRes) : List String := t.flatMap deltasOf

/-- The deltas of the adapters that failed. -/
def failedDeltas (t : Trace RouterOp RouterRes) : List String := t.flatMap failedDeltasOf

/-- The texts that are handed to the store as answers. -/
def savedAnswers (t : Trace RouterOp RouterRes) : List String := t.filterMap fun e => savedAnswerOf
    e.1

/-- An adapter that returns has passed on its whole text. -/
def WholeText : (Σ o : RouterOp, RouterRes o) → Prop
  | ⟨.adapter _ _, ⟨deltas, .ok result⟩⟩ => String.join deltas = result.text
  | _ => True

theorem join_append (l l' : List String) : String.join (l ++ l') = String.join l ++ String.join
    l' := by
  induction l with
  | nil => rw [List.nil_append]; exact (String.empty_append).symm
  | cons s l ih => rw [List.cons_append, String.join_cons, String.join_cons, ih,
    String.append_assoc]

/-! ## The protocols -/

/-- What a turn may do: it runs the router until it has an answer, and stores the text of the
answer. -/
def Streams (answer : Option String) : ChatOp → Prop
  | .run _ _ _ => answer = none
  | .saveConversationMessage m => m.role = .assistant → answer = some m.content
  | _ => True

/-- The answer after an operation. -/
def answerAfter (answer : Option String) : (o : ChatOp) → ChatRes o → Option String
  | .run _ _ _, .ok result => some result.text
  | _, _ => answer

/-- The steps of a turn. -/
def StreamStep : Protocol ChatOp ChatRes (Option String) :=
  fun answer o x answer' => Streams answer o ∧ answer' = answerAfter answer o x

/-- What a turn with the router may do. -/
def Routes (answer : Option String) : RouterOp → Prop
  | .chat (.run _ _ _) => False
  | .chat o => Streams answer o
  | .adapter _ _ => answer = none
  | .push _ _ => answer = none
  | _ => True

/-- The text that is streamed, after an operation. -/
def textAfter (answer : Option String) : (o : RouterOp) → RouterRes o → Option String
  | .adapter _ _, ⟨_, .ok result⟩ => some result.text
  | .push _ delta, _ => some delta
  | _, _ => answer

/-- The steps of a turn with the router. -/
def RouterStep : Protocol RouterOp RouterRes (Option String) :=
  fun answer o x answer' => Routes answer o ∧ answer' = textAfter answer o x

/-! ## The conversation service -/

/-- Every operation of the program is allowed, and leaves the answer as it is. -/
def Stays {ε α : Type} (answer : Option String) (p : Async ChatOp ChatRes ε α) : Prop :=
  AllOps (fun o => ∀ x, StreamStep answer o x answer) p

section Service

variable {ε α β : Type} {answer : Option String}

theorem stays_of_setup {p : Async ChatOp ChatRes ε α} (hp : Setup p) : Stays answer p :=
  hp.mono fun o ho x => by cases o <;> first | exact ⟨trivial, rfl⟩ | cases ho

theorem stays_of_idle {p : Async ChatOp ChatRes ε α} (hp : Idle p) : Stays answer p :=
  hp.mono fun o ho x => by cases o <;> first | exact ⟨trivial, rfl⟩ | cases ho

theorem stays_chat {o : ChatOp} {f : ChatRes o → ChatProg β}
    (ho : ∀ x, StreamStep answer o x answer) (hf : ∀ x, Stays answer (f x)) :
    Stays answer (chat o >>= f) :=
  ⟨ho, hf⟩

theorem stays_orRaise {r : Except RemoteFailure α} {f : α → ChatProg β}
    (hf : ∀ a, Stays answer (f a)) : Stays answer (orRaise r >>= f) := by
  cases r with
  | ok a => exact hf a
  | error e => trivial

/-- A message is stored: the answer, or a message of the user. -/
theorem stays_saveMessage (c : RemoteConversation) (requestId : String) (role : MessageRole)
    (content : String) (h : role = .assistant → answer = some content) :
    Stays answer (saveMessage c requestId role content) := by
  refine stays_chat (fun _ => ⟨trivial, rfl⟩) fun id => stays_chat (fun _ => ⟨trivial, rfl⟩)
    fun n => ?_
  refine stays_orRaise fun _ => stays_chat (fun _ => ⟨trivial, rfl⟩) fun now => ?_
  exact stays_chat (fun _ => ⟨h, rfl⟩) fun saved => stays_orRaise fun _ => AllOps.of_done _

theorem stays_completeTurn (device : RemoteDevice) (request : RemoteChatUserMessage)
    (c : RemoteConversation) (result : RunResult) (finalSequence : ℕ) :
    Stays (some result.text) (completeTurn device request c result finalSequence) := by
  refine (allOps_during (stays_saveMessage _ _ _ _ fun _ => rfl) _ _).bind fun assistant => ?_
  refine (allOps_during (AllOps.of_perform fun _ => ⟨trivial, rfl⟩) _ _).bind fun now => ?_
  refine allOps_during ?_ _ _
  refine stays_chat (fun _ => ⟨trivial, rfl⟩) fun _ => stays_orRaise fun _ => ?_
  exact stays_chat (fun _ => ⟨trivial, rfl⟩) fun _ => stays_orRaise fun _ =>
    stays_of_idle (idle_event _ _ _)

/-- A first part of a turn that leaves the answer as it is. -/
theorem streams_bind {p : Async ChatOp ChatRes ε α} {f : α → Async ChatOp ChatRes ε β}
    (hp : Stays answer p) (hf : ∀ a, Follows StreamStep (fun _ _ => True) (f a) answer) :
    Follows StreamStep (fun _ _ => True) (p >>= f) answer :=
  Follows.of_allOps_bind hp (fun _ x ho => ho x) hf fun _ => trivial

theorem streams_stays {p : Async ChatOp ChatRes ε α} (hp : Stays answer p) :
    Follows StreamStep (fun _ _ => True) p answer :=
  Follows.of_allOps hp (fun _ x ho => ho x) fun _ => trivial

/-- The provider answers, and its text is the one that is held. -/
theorem streams_answerTurn (device : RemoteDevice) (request : RemoteChatUserMessage)
    (provider : String) (c : RemoteConversation) (token : ℕ) :
    Follows StreamStep (fun _ _ => True) (answerTurn device request provider c token) none := by
  refine streams_bind (allOps_during ?_ _ _) fun previous => Follows.bind (follows_part ?_)
  · refine (stays_saveMessage c request.request_id .user request.content nofun).bind fun _ => ?_
    exact stays_chat (fun _ => ⟨trivial, rfl⟩) fun _ => stays_orRaise fun _ =>
      stays_chat (fun _ => ⟨trivial, rfl⟩) fun _ => AllOps.of_done _
  · intro x
    refine ⟨_, ⟨rfl, rfl⟩, ?_⟩
    cases x with
    | error e => exact trivial
    | ok result =>
        refine Follows.of_allOps_bind (p := throwIfAborted _)
          (stays_of_idle (idle_throwIfAborted _))
          (fun _ x ho => ho x) (fun _ => ?_) fun _ => trivial
        refine fun flushed => ⟨_, ⟨trivial, rfl⟩, ?_⟩
        cases flushed with
        | error e => exact trivial
        | ok n =>
            exact Follows.of_allOps_bind (p := throwIfAborted _)
              (stays_of_idle (idle_throwIfAborted _)) (fun _ x ho => ho x)
              (fun _ => streams_stays (stays_completeTurn _ _ _ _ _)) fun _ => trivial

theorem streams_handle (device : RemoteDevice) (request : RemoteChatUserMessage) :
    Follows StreamStep (fun _ _ => True) (ConversationService.handle device request) none := by
  refine fun begun => ⟨_, ⟨trivial, rfl⟩, ?_⟩
  show Follows _ _ (if _ then _ else _) _
  split
  · refine Follows.bind (follows_settled ?_)
    refine (?_ : Follows StreamStep (fun _ _ => True) (turn device request) none).mono ?_
    · refine streams_bind (allOps_during (stays_of_setup ?_) _ _) ?_
      · exact setup_chat rfl fun _ => setup_orRaise fun provider =>
          (setup_resolveConversation _ _ _).bind fun c => setup_chat rfl fun _ => AllOps.of_done _
      · rintro ⟨provider, c⟩
        refine streams_bind (stays_of_setup (setup_requireSessionToken c device)) ?_
        rintro ⟨c', token⟩
        exact streams_answerTurn _ _ _ _ _
    · rintro outcome answer' -
      refine streams_stays ((stays_of_idle (idle_settle ?_)).bind fun ended =>
        stays_chat (fun _ => ⟨trivial, rfl⟩) fun _ => AllOps.of_done _)
      cases outcome with
      | ok _ => exact AllOps.of_done _
      | error error => exact idle_failTurn _ _ _
  · exact trivial

end Service

/-! ## The router -/

section Router

variable {α β : Type} {answer : Option String}

/-- What holds of the text that is streamed when a program ends in a value; where it throws, there
is none. -/
def Ends (P : α → Option String → Prop) : Except RemoteFailure α → Option String → Prop
  | .ok a, text => P a text
  | .error _, text => text = none

theorem routes_bind {p : RouterProg α} {f : α → RouterProg β} {P : α → Option String → Prop}
    {P' : β → Option String → Prop} (hp : Follows RouterStep (Ends P) p answer)
    (hf : ∀ a text, P a text → Follows RouterStep (Ends P') (f a) text) :
    Follows RouterStep (Ends P') (p >>= f) answer := by
  refine Follows.bind (hp.mono fun r text hr => ?_)
  cases r with
  | ok a => exact hf a text hr
  | error e => exact hr

/-- One operation. -/
theorem routes_route {o : RouterOp} {f : RouterRes o → RouterProg β} {P : β → Option String → Prop}
    (ho : Routes answer o)
    (hf : ∀ x, Follows RouterStep (Ends P) (f x) (textAfter answer o x)) :
    Follows RouterStep (Ends P) (route o >>= f) answer :=
  fun x => ⟨_, ⟨ho, rfl⟩, hf x⟩

theorem routes_orThrow {r : Except RemoteFailure α} {f : α → RouterProg β}
    {P : β → Option String → Prop} (hf : ∀ a, Follows RouterStep (Ends P) (f a) none) :
    Follows RouterStep (Ends P) (orThrow r >>= f) none := by
  cases r with
  | ok a => exact hf a
  | error e => exact rfl

/-- One provider: where it answers, its text was streamed. -/
theorem routes_runProvider (provider : String) (context : RunContext) :
    Follows RouterStep (Ends fun (r : Except AdapterFailure RunResult) text =>
      text = r.toOption.map RunResult.text) (runProvider provider context) none := by
  refine routes_route trivial fun free => ?_
  show Follows _ _ (if _ then _ else _) _
  split
  · refine routes_route rfl fun answer => routes_route trivial fun _ => ?_
    obtain ⟨deltas, result⟩ := answer
    cases result <;> exact rfl
  · exact rfl

theorem routes_tryProviders (device : RemoteDevice) (context : RunContext) (primary : String)
    (providers : List String) (lastError : Option RemoteFailure) :
    Follows RouterStep (Ends fun (r : RunResult ⊕ Option RemoteFailure) text =>
      text = (r.elim (fun result => some result.text) fun _ => none))
      (tryProviders device context primary providers lastError) none := by
  induction providers generalizing lastError with
  | nil => exact rfl
  | cons provider providers ih =>
      refine routes_route trivial fun active => ?_
      show Follows _ _ (if _ then _ else _) _
      split
      · exact rfl
      · show Follows _ _ (if _ then _ else _) _
        split
        on_goal 1 => refine routes_route trivial fun noticed => routes_orThrow fun _ => ?_
        all_goals
          refine routes_bind (routes_runProvider _ _) fun r text htext => ?_
          cases r with
          | ok result => exact htext
          | error error =>
              obtain rfl : text = none := htext
              refine routes_route trivial fun active => ?_
              show Follows _ _ (if _ then _ else _) _
              split
              · exact rfl
              · exact ih _

/-- The router: where it answers, the text of the answer is what was streamed last. -/
theorem routes_run (device : RemoteDevice) (requested : Option String) (context : RunContext) :
    Follows RouterStep (Ends fun (result : RunResult) text => text = some result.text)
      (run device requested context) none := by
  refine routes_route trivial fun statuses => routes_orThrow fun statuses => ?_
  refine routes_route trivial fun policy => routes_orThrow fun policy => routes_orThrow fun found =>
    ?_
  refine routes_bind (routes_tryProviders _ _ _ _ _) fun r text htext => ?_
  cases r with
  | inl result => exact htext
  | inr lastError =>
      obtain rfl : text = none := htext
      show Follows _ _ (if _ then _ else _) _
      split
      · exact routes_route trivial fun snapshot => routes_orThrow fun snapshot =>
          routes_route rfl fun _ => rfl
      · exact rfl

theorem follows_attempted {p : RouterProg α} {Q : Except RemoteFailure (Except RemoteFailure α) →
    Option String → Prop} (hp : Follows RouterStep (fun r => Q (.ok r)) p answer) :
    Follows RouterStep Q (Async.attempted p) answer := by
  induction p generalizing answer with
  | done r => cases r <;> exact hp
  | await o k ih =>
      intro x
      obtain ⟨text, hT, hk⟩ := hp x
      exact ⟨text, hT, ih x hk⟩

/-- What performs an operation of the conversation service goes where the service expects it. -/
theorem routes_performed (o : ChatOp) (h : ∀ x, ∃ answer', StreamStep answer o x answer') :
    Follows RouterStep (fun r text => ∃ x, r = .ok x ∧
      ∀ answer', StreamStep answer o x answer' → answer' = text) (performed o) answer := by
  cases o with
  | run device requested context =>
      obtain ⟨-, rfl, -⟩ := h (.error cancelledError)
      refine follows_attempted ((routes_run _ _ _).mono fun r text hr => ⟨r, rfl, ?_⟩)
      rintro answer' ⟨-, rfl⟩
      cases r <;> exact hr.symm
  | saveConversationMessage m =>
      obtain ⟨-, hm, -⟩ := h (.ok ())
      refine fun x => ⟨_, ⟨hm, rfl⟩, x, rfl, ?_⟩
      rintro answer' ⟨-, rfl⟩
      rfl
  | _ =>
      refine fun x => ⟨_, ⟨trivial, rfl⟩, x, rfl, ?_⟩
      rintro answer' ⟨-, rfl⟩
      rfl

/-- A turn with the router. -/
theorem follows_handle (device : RemoteDevice) (request : RemoteChatUserMessage) :
    Follows RouterStep (fun _ _ => True) (handle device request) none :=
  Follows.interpret (fun _ o h => routes_performed o h) (streams_handle device request)

end Router

/-! ## What was streamed -/

section Streamed

variable {S : Type} {R : Surroundings RouterOp RouterRes S} {s s' : S}
  {t : Trace RouterOp RouterRes} {answer answer' : Option String}

/-- What was pushed, and what was stored. -/
structure Streamed (answer : Option String) (t : Trace RouterOp RouterRes) : Prop where
  pushed : String.join (pushed t) = String.join (failedDeltas t) ++ answer.getD ""
  saved : ∀ text ∈ savedAnswers t, answer = some text

theorem streamed_nil : Streamed none [] := ⟨rfl, nofun⟩

/-- An operation that neither streams a text nor stores one. -/
theorem Streamed.quiet {e : Σ o : RouterOp, RouterRes o} (h : Streamed answer t)
    (hdeltas : deltasOf e = []) (hfailed : failedDeltasOf e = []) (hsaved : savedAnswerOf e.1 =
    none) :
    Streamed answer (t ++ [e]) where
  pushed := by
    have hpushed := h.pushed
    simpa [RemoteAgentRouter.pushed, failedDeltas, hdeltas, hfailed] using hpushed
  saved := by
    have hkept := h.saved
    simpa [savedAnswers, hsaved] using hkept

/-- An operation that streams a text, while there is no answer. -/
theorem Streamed.delta {e : Σ o : RouterOp, RouterRes o} (h : Streamed none t)
    (hdeltas : String.join (deltasOf e) = String.join (failedDeltasOf e) ++ answer.getD "")
    (hsaved : savedAnswerOf e.1 = none) : Streamed answer (t ++ [e]) where
  pushed := by
    have hpushed : String.join (t.flatMap deltasOf) = String.join (t.flatMap failedDeltasOf) ++
      "" :=
      h.pushed
    rw [RemoteAgentRouter.pushed, failedDeltas, List.flatMap_append, List.flatMap_append,
      join_append,
      join_append, List.flatMap_singleton, List.flatMap_singleton, hdeltas, hpushed,
        String.append_empty,
      String.append_assoc]
  saved := by
    intro text htext
    have hkept : text ∈ savedAnswers t := by simpa [savedAnswers, hsaved] using htext
    cases h.saved text hkept

theorem Streamed.step {o : RouterOp} {x : RouterRes o} (h : Streamed answer t)
    (hT : RouterStep answer o x answer') (hwhole : WholeText ⟨o, x⟩) :
    Streamed answer' (t ++ [⟨o, x⟩]) := by
  obtain ⟨hroutes, rfl⟩ := hT
  cases o with
  | adapter provider context =>
      obtain rfl : answer = none := hroutes
      obtain ⟨deltas, result⟩ := x
      cases result with
      | ok result => exact h.delta (hwhole.trans (String.empty_append).symm) rfl
      | error error => exact h.delta (String.append_empty).symm rfl
  | push requestId delta =>
      obtain rfl : answer = none := hroutes
      exact h.delta ((String.join_cons).trans String.append_empty |>.trans
        (String.empty_append).symm) rfl
  | chat o =>
      cases o with
      | saveConversationMessage m =>
          refine ⟨?_, ?_⟩
          · have hpushed := h.pushed
            simpa [RemoteAgentRouter.pushed, failedDeltas, deltasOf, failedDeltasOf, textAfter]
              using
              hpushed
          · intro text htext
            rw [savedAnswers, List.filterMap_append, List.mem_append] at htext
            rcases htext with htext | htext
            · exact h.saved text htext
            · by_cases hrole : m.role = .assistant
              · obtain rfl : text = m.content := by simpa [savedAnswerOf, hrole] using htext
                exact hroutes hrole
              · simp [savedAnswerOf, hrole] at htext
      | _ => exact h.quiet rfl rfl rfl
  | _ => exact h.quiet rfl rfl rfl

/-- At every moment of a turn. -/
theorem handle_streamed (hR : ∀ o s x s', R o s x s' → WholeText ⟨o, x⟩) {device : RemoteDevice}
    {request : RemoteChatUserMessage} {p : RouterProg Unit}
    (h : Steps R (handle device request) s t p s') : ∃ answer, Streamed answer t := by
  obtain ⟨answer, -, hstreamed⟩ := (follows_handle device request).steps
    (J := fun answer t _ => Streamed answer t) streamed_nil
    (fun _ _ _ _ _ _ _ hT hx ht => ht.step hT (hR _ _ _ _ hx)) h
  exact ⟨answer, hstreamed⟩

/-- What was streamed is what is stored exactly when no adapter failed after it had passed on a
text.
-/
theorem streamed_eq_stored_iff (hR : ∀ o s x s', R o s x s' → WholeText ⟨o, x⟩)
    {device : RemoteDevice} {request : RemoteChatUserMessage} {p : RouterProg Unit}
    (h : Steps R (handle device request) s t p s') {text : String} (htext : text ∈ savedAnswers t) :
    String.join (pushed t) = text ↔ String.join (failedDeltas t) = "" := by
  obtain ⟨answer, hstreamed⟩ := handle_streamed hR h
  obtain rfl := hstreamed.saved text htext
  rw [hstreamed.pushed]
  constructor
  · intro heq
    have hlength := congrArg String.length heq
    rw [String.length_append, Option.getD_some, Nat.add_eq_right] at hlength
    exact String.length_eq_zero_iff.mp hlength
  · intro heq
    rw [heq, String.empty_append, Option.getD_some]

end Streamed

/-! ## A fallback -/

/-- Codex passes on some deltas and fails; Claude Code, the fallback, answers. -/
def fallbackHandle (early : List String) : Async.Handler RouterOp RouterRes ChatWorld
  | .chat o, w => chatHandle .sample o w
  | .providers, w => (.ok [⟨"codex", true⟩, ⟨"claude-code", true⟩], w)
  | .policy, w => (.ok ⟨"codex", ["codex", "claude-code"], ["claude-code"], true⟩, w)
  | .onStatus _ _ _, w => (.ok (), w)
  | .beginProvider _, w => (true, w)
  | .adapter provider _, w =>
      (if provider = "codex" then ⟨early, .error ⟨.thrown "Codex turn failed.", false⟩⟩
        else ⟨["Hel", "lo."], .ok ⟨"Hello.", "claude-code"⟩⟩, w)
  | .endProvider _, w => ((), w)
  | .snapshot _ _, w => (.error cancelledError, w)
  | .push _ _, w => ((), w)

/-- The surroundings that answer like this. -/
def fallback (early : List String) : Surroundings RouterOp RouterRes ChatWorld :=
  fun o w x w' => fallbackHandle early o w = (x, w')

theorem fallback_whole (early : List String) (o : RouterOp) (w : ChatWorld) (x : RouterRes o)
    (w' : ChatWorld) (h : fallback early o w x w') : WholeText ⟨o, x⟩ := by
  cases o with
  | adapter provider context =>
      obtain rfl := (Prod.mk.inj h).1
      by_cases hcodex : provider = "codex"
      · simp only [hcodex, if_true]
        trivial
      · simp only [hcodex, if_false]
        rfl
  | _ => trivial

/-- A turn of the sample device. -/
def fallbackTrace (early : List String) : Trace RouterOp RouterRes :=
  Async.trace (fallbackHandle early)
    (handle sampleDevice ⟨"req_1", some "conversation_1", "Hello?", none⟩) withConversation

theorem fallbackTrace_run (early : List String) : ∃ r w', Steps (fallback early)
    (handle sampleDevice ⟨"req_1", some "conversation_1", "Hello?", none⟩) withConversation
    (fallbackTrace early) (.done r) w' :=
  ⟨_, _, Steps.of_run (fun _ _ => rfl) _ _⟩

/-- The theorem at a turn in which Codex fails before it passes on a text. -/
theorem streamed_eq_stored_of_silent : String.join (pushed (fallbackTrace [])) = "Hello." := by
  obtain ⟨r, w', hrun⟩ := fallbackTrace_run []
  have hsaved : "Hello." ∈ savedAnswers (fallbackTrace []) := by decide +kernel
  exact (streamed_eq_stored_iff (fallback_whole []) hrun hsaved).mpr (by decide +kernel)

/-- What was streamed is not always what is stored. -/
theorem streamed_ne_stored : ¬ ∀ (R : Surroundings RouterOp RouterRes ChatWorld),
    (∀ o w x w', R o w x w' → WholeText ⟨o, x⟩) →
      ∀ (device : RemoteDevice) (request : RemoteChatUserMessage) (w w' : ChatWorld)
        (t : Trace RouterOp RouterRes) (p : RouterProg Unit),
        Steps R (handle device request) w t p w' →
          ∀ text ∈ savedAnswers t, String.join (pushed t) = text := by
  intro h
  obtain ⟨r, w', hrun⟩ := fallbackTrace_run ["Hel"]
  have hsaved : "Hello." ∈ savedAnswers (fallbackTrace ["Hel"]) := by decide +kernel
  have hpushed : String.join (pushed (fallbackTrace ["Hel"])) = "HelHello." := by decide +kernel
  have heq := h _ (fallback_whole ["Hel"]) _ _ _ _ _ _ hrun _ hsaved
  rw [hpushed] at heq
  exact absurd heq (by decide)

end Vops.RemoteAgentRouter
