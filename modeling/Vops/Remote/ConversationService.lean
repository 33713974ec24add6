import Vops.AgentControl.CapabilityRegistry
import Vops.Remote.IntentService

/-!
# Conversations (`remote/conversation.service.ts`, `remote/remote-store.ts`)

* `RemoteConversation`, `RemoteConversationMessage` — the records.
* `ChatOp`, `ChatWorld`, `chatHandle` — the operations of the conversation service: those of remote
  control, and its own on conversations, messages, tokens, turns, the provider and the messenger.
* `createSession`, `requireSessionToken`, `resolveConversation`, `saveMessage` — the steps of a
  turn.
* `handle`, `cancel` — a chat message of a device, and its cancellation.

A turn ends in an error together with what its `catch` sees: the conversation, as far as it is
known, and whether the stream is open (`TurnFailure`). The provider runs as one operation, `run`;
the text it streams is the subject of `RemoteChatStream`.
-/

namespace Vops

/-! ## The records -/

/-- `RemoteConversation.status` -/
inductive ConversationStatus
  | active | archived
deriving DecidableEq

/-- `RemoteConversation` -/
structure RemoteConversation where
  id : String
  deviceId : String
  title : String
  status : ConversationStatus
  agentProvider : String
  agentSessionId : ℕ
  summary : Option String
  createdAt : ℤ
  updatedAt : ℤ
deriving DecidableEq

/-- `RemoteConversationMessage.role` -/
inductive MessageRole
  | user | assistant | status
deriving DecidableEq

/-- `RemoteConversationMessage` -/
structure RemoteConversationMessage where
  id : String
  conversationId : String
  requestId : String
  sequence : ℕ
  role : MessageRole
  content : String
  createdAt : ℤ
deriving DecidableEq

/-- `RemoteChatUserMessage` -/
structure RemoteChatUserMessage where
  request_id : String
  conversation_id : Option String
  content : String
  provider : Option String
deriving DecidableEq

/-- `RemoteChatCancelMessage` -/
structure RemoteChatCancelMessage where
  request_id : String
  target_request_id : String
  conversation_id : Option String
deriving DecidableEq

namespace ConversationService

/-- The messages that are sent to the device. -/
inductive ChatMessage
  | accepted (request_id conversation_id provider : String)
  | completed (request_id conversation_id message_id : String) (final_sequence : ℕ)
      (provider : String)
  | cancelled (request_id target_request_id : String) (conversation_id : Option String)
      (already_terminal : Bool)
  | failed (request_id : String) (conversation_id : Option String) (code message : String)
deriving DecidableEq

/-- What the provider is given: `RemoteAgentRunContext`, without its callbacks. -/
structure RunContext where
  requestId : String
  sessionToken : ℕ
  prompt : String
  context : List (MessageRole × String)
deriving DecidableEq

/-- What the provider answers. -/
structure RunResult where
  text : String
  provider : String
deriving DecidableEq

/-- An entry of `activeTurns`. -/
structure ActiveTurn where
  aborted : Bool
  conversationId : Option String
  cancelRequestId : Option String
deriving DecidableEq

/-! ## Operations -/

/-- The operations a turn waits for. -/
inductive ChatOp
  | remote (o : RemoteOp)
  | beginTurn (key : String)
  | noteConversation (key conversationId : String)
  | activeTurn (key : String)
  | abortTurn (key requestId : String)
  | endTurn (key : String)
  | resolveProvider (provider : Option String)
  | workspace
  | getConversation (id : String)
  | saveConversation (conversation : RemoteConversation)
  | getCredentials (conversationId : String)
  | setCredentials (conversationId : String) (token : ℕ)
  | nextConversationSequence (conversationId : String)
  | saveConversationMessage (message : RemoteConversationMessage)
  | listConversationMessages (conversationId : String) (limit : ℕ)
  | send (device : RemoteDevice) (message : ChatMessage)
  | run (device : RemoteDevice) (provider : Option String) (context : RunContext)
  | flush (requestId : String)
  | cancelStream (requestId : String)

/-- The answer of an operation. -/
abbrev ChatRes : ChatOp → Type
  | .remote o => RemoteRes o
  | .beginTurn _ => Bool
  | .noteConversation _ _ => Unit
  | .activeTurn _ => Option ActiveTurn
  | .abortTurn _ _ => Unit
  | .endTurn _ => Unit
  | .resolveProvider _ => Except RemoteFailure String
  | .workspace => Except RemoteFailure String
  | .getConversation _ => Except RemoteFailure (Option RemoteConversation)
  | .saveConversation _ => Except RemoteFailure Unit
  | .getCredentials _ => Except RemoteFailure (Option ℕ)
  | .setCredentials _ _ => Except RemoteFailure Unit
  | .nextConversationSequence _ => Except RemoteFailure ℕ
  | .saveConversationMessage _ => Except RemoteFailure Unit
  | .listConversationMessages _ _ => Except RemoteFailure (List RemoteConversationMessage)
  | .send _ _ => Except RemoteFailure Unit
  | .run _ _ _ => Except RemoteFailure RunResult
  | .flush _ => Except RemoteFailure ℕ
  | .cancelStream _ => Except RemoteFailure Unit

/-- A program of the conversation service. -/
abbrev ChatProg (α : Type) := Async ChatOp ChatRes RemoteFailure α

/-- Wait for one operation. -/
abbrev chat (o : ChatOp) : ChatProg (ChatRes o) := Async.perform o

/-- Go on with a result, or throw its error. -/
def orRaise {α : Type} (r : Except RemoteFailure α) : ChatProg α := .done r

/-- A program of remote control. -/
def lift {α : Type} : RemoteProg α → ChatProg α
  | .done r => .done r
  | .await o k => .await (.remote o) fun x => lift (k x)

/-- What the `catch` of a turn sees. -/
structure TurnFailure where
  failure : RemoteFailure
  conversation : Option RemoteConversation
  stream : Bool

/-- A part of a turn. -/
abbrev TurnProg (α : Type) := Async ChatOp ChatRes TurnFailure α

/-- A program, as a part of a turn in which so much is known. -/
def during {α : Type} (conversation : Option RemoteConversation) (stream : Bool) :
    ChatProg α → TurnProg α
  | .done (.ok a) => .done (.ok a)
  | .done (.error failure) => .done (.error ⟨failure, conversation, stream⟩)
  | .await o k => .await o fun x => during conversation stream (k x)

/-- Go on with the result of a program, be it a value or an error. -/
def settle {ε α : Type} : Async ChatOp ChatRes ε α → ChatProg (Except ε α)
  | .done r => .done (.ok r)
  | .await o k => .await o fun x => settle (k x)

/-! ## The world -/

/-- What is outside the program and answers arbitrarily. -/
structure ChatEnv where
  remote : RemoteEnv
  resolveProvider : ℕ → Option String → Except RemoteFailure String
  workspace : ℕ → Except RemoteFailure String
  vault : ℕ → Except RemoteFailure Unit
  send : ℕ → Except RemoteFailure Unit
  run : ℕ → RunContext → Except RemoteFailure RunResult
  flush : ℕ → Except RemoteFailure ℕ
  cancelStream : ℕ → Except RemoteFailure Unit

/-- The state the operations act on. -/
structure ChatWorld where
  remote : RemoteWorld
  conversations : List RemoteConversation
  messages : List RemoteConversationMessage
  /-- The session tokens of the conversations, in the vault. -/
  secrets : List (String × ℕ)
  /-- `activeTurns` -/
  turns : List (String × ActiveTurn)
  /-- How many answers were drawn from outside. -/
  answers : ℕ

namespace ChatWorld

variable (w : ChatWorld)

/-- The stored record of a conversation. -/
def conversation (id : String) : Option RemoteConversation :=
  Table.get RemoteConversation.id id w.conversations

/-- The stored token of a conversation. -/
def secret (id : String) : Option ℕ := (Table.get Prod.fst id w.secrets).map Prod.snd

/-- The numbers of the messages of a conversation. -/
def sequences (id : String) : List ℕ :=
  (w.messages.filter fun m => m.conversationId == id).map RemoteConversationMessage.sequence

/-- `SELECT COALESCE(MAX(sequence), 0) + 1` -/
def nextSequence (id : String) : ℕ := (w.sequences id).foldr max 0 + 1

/-- A message with this identifier, or with this number in the conversation, is stored. -/
def messageTaken (m : RemoteConversationMessage) : Bool :=
  w.messages.any fun n =>
    n.id == m.id || n.conversationId == m.conversationId && n.sequence == m.sequence

/-- `ORDER BY sequence DESC LIMIT ?`, reversed. -/
def lastMessages (id : String) (limit : ℕ) : List RemoteConversationMessage :=
  (((w.messages.filter fun m => m.conversationId == id).insertionSort fun a b =>
    b.sequence ≤ a.sequence).take (max 1 (min limit 500))).reverse

/-- One more answer was drawn from outside. -/
def drawn : ChatWorld := { w with answers := w.answers + 1 }

end ChatWorld

/-- The error of a statement that would store two messages under one number. -/
def sequenceConflict : RemoteFailure :=
  .thrown "UNIQUE constraint failed: remote_conversation_messages"

/-- What an operation answers, and the world it leaves. -/
def chatHandle (env : ChatEnv) : Async.Handler ChatOp ChatRes ChatWorld
  | .remote o, w =>
      let (x, remote) := remoteHandle env.remote o w.remote
      (x, { w with remote := remote })
  | .beginTurn key, w =>
      match Table.get Prod.fst key w.turns with
      | some _ => (false, w)
      | none => (true, { w with turns := w.turns ++ [(key, ⟨false, none, none⟩)] })
  | .noteConversation key conversationId, w =>
      ((), { w with turns := w.turns.map fun t =>
        if t.1 = key then (key, { t.2 with conversationId := some conversationId }) else t })
  | .activeTurn key, w => ((Table.get Prod.fst key w.turns).map Prod.snd, w)
  | .abortTurn key requestId, w =>
      ((), { w with turns := w.turns.map fun t =>
        if t.1 = key then (key, { t.2 with aborted := true, cancelRequestId := some requestId })
        else t })
  | .endTurn key, w => ((), { w with turns := w.turns.filter fun t => t.1 ≠ key })
  | .resolveProvider provider, w => (env.resolveProvider w.answers provider, w.drawn)
  | .workspace, w => (env.workspace w.answers, w.drawn)
  | .getConversation id, w => (.ok (w.conversation id), w)
  | .saveConversation conversation, w =>
      (.ok (), { w with
        conversations := Table.upsert RemoteConversation.id conversation w.conversations })
  | .getCredentials id, w => ((env.vault w.answers).map fun _ => w.secret id, w.drawn)
  | .setCredentials id token, w =>
      match env.vault w.answers with
      | .ok _ =>
          (.ok (), { w with secrets := Table.upsert Prod.fst (id, token) w.secrets }.drawn)
      | .error failure => (.error failure, w.drawn)
  | .nextConversationSequence id, w => (.ok (w.nextSequence id), w)
  | .saveConversationMessage message, w =>
      if w.messageTaken message then (.error sequenceConflict, w)
      else (.ok (), { w with messages := w.messages ++ [message] })
  | .listConversationMessages id limit, w => (.ok (w.lastMessages id limit), w)
  | .send device _, w =>
      if device.status = .active then (env.send w.answers, w.drawn)
      else (.error (.thrown "Cannot send to an inactive remote device."), w)
  | .run _ _ context, w => (env.run w.answers context, w.drawn)
  | .flush _, w => (env.flush w.answers, w.drawn)
  | .cancelStream _, w => (env.cancelStream w.answers, w.drawn)

/-! ## Texts -/

/-- `.replace(/\\s+/g, ' ')` -/
def collapseSpaces : List Char → List Char
  | [] => []
  | c :: cs =>
      if isJsSpace c then
        match cs with
        | d :: _ => if isJsSpace d then collapseSpaces cs else ' ' :: collapseSpaces cs
        | [] => [' ']
      else c :: collapseSpaces cs

/-- A text on one line, cut to a length. -/
def oneLine (max : ℕ) (content : String) : String :=
  let text := jsTrim (String.ofList (collapseSpaces content.toList))
  if max < text.toList.length then sliceText (max - 3) text ++ "…" else text

/-- `titleFrom` -/
def titleFrom (content : String) : String := oneLine 72 content

/-- `compactSummary` -/
def compactSummary (content : String) : String := oneLine 500 content

/-- `safeRemoteError` -/
def safeRemoteError (failure : RemoteFailure) : String :=
  if mentions ["token", "credential", "secret", "key"] failure.message then
    "The local assistant could not complete this request."
  else sliceText 500 failure.message

/-- `remoteErrorCode` -/
def remoteErrorCode (failure : RemoteFailure) : String :=
  if mentions ["codex cli is not available"] failure.message then "VOPS_REMOTE_AGENT_UNAVAILABLE"
  else if mentions ["timed out"] failure.message then "VOPS_REMOTE_AGENT_TIMEOUT"
  else "VOPS_REMOTE_CHAT_FAILED"

/-- `turnKey` -/
def turnKey (deviceId requestId : String) : String := deviceId ++ ":" ++ requestId

/-- `agentClient` -/
def agentClient (provider : String) : AgentClient :=
  if provider = "codex" then .codex
  else if provider = "claude-code" then .claudeCode
  else if provider = "opencode" then .opencode
  else if provider = "antigravity" then .antigravity
  else .other

/-! ## Sessions -/

/-- `REMOTE_CHAT_CAPABILITIES` -/
def remoteChatCapabilities : List String :=
  ["catalog.list", "catalog.describe", "provider.list", "provider.prices.compare", "target.list",
    "target.inspect", "server.list", "server.inspect", "application.status", "healthcheck.run",
    "firewall.inspect"]

/-- `supportsPlan` of an entry of `capabilities.json`: false for the ones that read. -/
def supportsPlan (c : CapabilityDefinition) : Bool := c.access != .read

/-- The capabilities that a session of the device may use in an approved plan. -/
def chatMutations (device : RemoteDevice) : List String :=
  if device.role = .viewer then []
  else
    (capabilities.filter fun c => c.enabled && c.access != .read && supportsPlan c &&
      c.risk != .destructive &&
      IntentService.riskRank c.risk ≤ IntentService.riskRank device.restrictions.maxRisk).map
        CapabilityDefinition.id

/-- The permissions of a session of the device. -/
def chatPermissions (device : RemoteDevice) : AgentSessionManager.PermissionsInput where
  allow := some ((capabilities.map CapabilityDefinition.id).filter remoteChatCapabilities.contains)
  allowWithinApprovedPlan := some (chatMutations device)
  requireApproval := some []
  deny := some ((capabilities.map CapabilityDefinition.id).filter fun id =>
    !remoteChatCapabilities.contains id && !(chatMutations device).contains id)

/-- `createSession` -/
def createSession (device : RemoteDevice) (objective provider : String) :
    ChatProg (AgentSession × ℕ) := do
  let workspace ← orRaise (← chat .workspace)
  lift (Vops.lift (AgentSessionManager.create
    { client := agentClient provider
      displayName := some s!"Remote assistant for {device.label}"
      objective := "Read-only remote support: " ++ sliceText 240 objective
      repository := workspace
      mode := some .advisory
      targets := some device.restrictions.targets
      environments := some device.restrictions.environments
      permissions := chatPermissions device
      expiresInMinutes := some (.fin (12 * 60))
      maxOperations := some (.fin 200)
      maxProviderSpendEur := some (.fin device.restrictions.maxProviderSpendEur) }))

/-- `event` -/
def event (conversation : RemoteConversation) (eventType summary : String) : ChatProg Unit := do
  let eventId ← chat (.remote (.agent .localId))
  let timestamp ← chat (.remote (.agent .now))
  lift (appendAudit
    { eventId := eventId
      timestamp := timestamp
      sessionId := some conversation.agentSessionId
      actor := "remote_device"
      operationId := none
      eventType := eventType
      capability := none
      target := none
      summary := summary
      detail := some (.obj [("conversationId", .str conversation.id),
        ("deviceId", .str conversation.deviceId),
        ("provider", .str conversation.agentProvider)]) })

/-! ## The steps of a turn -/

/-- The record of a new conversation. -/
def newConversation (device : RemoteDevice) (content selectedProvider : String) (sessionId id : ℕ)
    (now : ℤ) : RemoteConversation where
  id := idText "conversation" id
  deviceId := device.id
  title := titleFrom content
  status := .active
  agentProvider := selectedProvider
  agentSessionId := sessionId
  summary := none
  createdAt := now
  updatedAt := now

/-- A new conversation is stored, with the token of its session. -/
def storeConversation (conversation : RemoteConversation) (token : ℕ) :
    ChatProg RemoteConversation := do
  orRaise (← chat (.saveConversation conversation))
  orRaise (← chat (.setCredentials conversation.id token))
  event conversation "remote.chat.created" "Created governed remote conversation."
  return conversation

/-- `resolveConversation` -/
def resolveConversation (device : RemoteDevice) (request : RemoteChatUserMessage)
    (selectedProvider : String) : ChatProg RemoteConversation := do
  match request.conversation_id.filter (· ≠ "") with
  | some id => do
      match ← orRaise (← chat (.getConversation id)) with
      | some existing =>
          if existing.deviceId ≠ device.id ∨ existing.status ≠ .active then
            throw (.thrown "Remote conversation is unavailable to this device.")
          else return existing
      | none => throw (.thrown "Remote conversation is unavailable to this device.")
  | none => do
      let (session, token) ← createSession device request.content selectedProvider
      let now ← chat (.remote (.agent .now))
      let id ← chat (.remote (.agent .localId))
      storeConversation (newConversation device request.content selectedProvider session.id id now)
        token

/-- The session of a token, if it still is active. -/
def authenticated (token : ℕ) : ChatProg Bool := do
  let result ← settle (lift (Vops.lift (AgentSessionManager.authenticate (some token))))
  return result.toOption.isSome

/-- What `requireSessionToken` does when the stored token is of no use; the record it is given is
changed from the creation of the session on. -/
def renewSession (conversation : RemoteConversation) (device : RemoteDevice) :
    TurnProg (RemoteConversation × ℕ) := do
  let (session, token) ← during (some conversation) false
    (createSession device s!"Continue remote conversation {conversation.id}"
      conversation.agentProvider)
  let now ← during (some conversation) false (chat (.remote (.agent .now)))
  let renewed : RemoteConversation :=
    { conversation with agentSessionId := session.id, updatedAt := now }
  during (some renewed) false (do
    orRaise (← chat (.saveConversation renewed))
    orRaise (← chat (.setCredentials renewed.id token)))
  return (renewed, token)

/-- `requireSessionToken`, with the record as it is afterwards. -/
def requireSessionToken (conversation : RemoteConversation) (device : RemoteDevice) :
    TurnProg (RemoteConversation × ℕ) := do
  let stored ← during (some conversation) false
    (chat (.getCredentials conversation.id) >>= orRaise)
  match stored with
  | none => renewSession conversation device
  | some token =>
      if ← during (some conversation) false (authenticated token) then
        return (conversation, token)
      else renewSession conversation device

/-- `saveMessage` -/
def saveMessage (conversation : RemoteConversation) (requestId : String) (role : MessageRole)
    (content : String) : ChatProg RemoteConversationMessage := do
  let id ← chat (.remote (.agent .localId))
  let sequence ← orRaise (← chat (.nextConversationSequence conversation.id))
  let now ← chat (.remote (.agent .now))
  let message : RemoteConversationMessage :=
    { id := idText "remote_message" id
      conversationId := conversation.id
      requestId := requestId
      sequence := sequence
      role := role
      content := content
      createdAt := now }
  orRaise (← chat (.saveConversationMessage message))
  return message

/-- `MAX_CONTEXT_MESSAGES` -/
def maxContextMessages : ℕ := 12

/-- The messages that the provider is given. -/
def contextOf (requestId : String) (messages : List RemoteConversationMessage) :
    List (MessageRole × String) :=
  let earlier := messages.filter fun m => m.role != .status && m.requestId != requestId
  (earlier.drop (earlier.length - maxContextMessages)).map fun m => (m.role, m.content)

/-- `if (controller.signal.aborted) throw cancelledError()` -/
def throwIfAborted (key : String) : ChatProg Unit := do
  let active ← chat (.activeTurn key)
  if active.any ActiveTurn.aborted then throw (.thrown "Remote agent turn was cancelled.")
  else return ()

/-- The record after the provider has answered. -/
def answeredRecord (conversation : RemoteConversation) (result : RunResult) (now : ℤ) :
    RemoteConversation :=
  { conversation with
    agentProvider := result.provider
    summary := some (compactSummary result.text)
    updatedAt := now }

/-- What a turn does with the answer of the provider. -/
def completeTurn (device : RemoteDevice) (request : RemoteChatUserMessage)
    (conversation : RemoteConversation) (result : RunResult) (finalSequence : ℕ) :
    TurnProg Unit := do
  let assistant ← during (some conversation) true
    (saveMessage conversation request.request_id .assistant result.text)
  let now ← during (some conversation) true (chat (.remote (.agent .now)))
  let answered := answeredRecord conversation result now
  during (some answered) true (do
    orRaise (← chat (.saveConversation answered))
    orRaise (← chat (.send device
      (.completed request.request_id answered.id assistant.id finalSequence result.provider)))
    event answered "remote.chat.completed"
      s!"Completed remote chat request with {result.provider}.")

/-- The turn, once its conversation has a session. -/
def answerTurn (device : RemoteDevice) (request : RemoteChatUserMessage) (selectedProvider : String)
    (conversation : RemoteConversation) (sessionToken : ℕ) : TurnProg Unit := do
  let key := turnKey device.id request.request_id
  let previous ← during (some conversation) false (do
    let _ ← saveMessage conversation request.request_id .user request.content
    orRaise (← chat (.send device
      (.accepted request.request_id conversation.id selectedProvider)))
    orRaise (← chat (.listConversationMessages conversation.id (maxContextMessages + 1))))
  let (result, finalSequence) ← during (some conversation) true (do
    let result ← orRaise (← chat (.run device request.provider
      { requestId := request.request_id
        sessionToken := sessionToken
        prompt := request.content
        context := contextOf request.request_id previous }))
    throwIfAborted key
    let finalSequence ← orRaise (← chat (.flush request.request_id))
    throwIfAborted key
    return (result, finalSequence))
  completeTurn device request conversation result finalSequence

/-- The body of `handle`. -/
def turn (device : RemoteDevice) (request : RemoteChatUserMessage) : TurnProg Unit := do
  let (selectedProvider, conversation) ← during none false (do
    let selectedProvider ← orRaise (← chat (.resolveProvider request.provider))
    let conversation ← resolveConversation device request selectedProvider
    chat (.noteConversation (turnKey device.id request.request_id) conversation.id)
    return (selectedProvider, conversation))
  let (conversation, sessionToken) ← requireSessionToken conversation device
  answerTurn device request selectedProvider conversation sessionToken

/-- Record an event of the conversation, if there is one. -/
def eventOf (conversation : Option RemoteConversation) (eventType summary : String) :
    ChatProg Unit :=
  match conversation with
  | some conversation => event conversation eventType summary
  | none => return ()

/-- The `catch` of `handle`. -/
def failTurn (device : RemoteDevice) (request : RemoteChatUserMessage) (error : TurnFailure) :
    ChatProg Unit := do
  let active ← chat (.activeTurn (turnKey device.id request.request_id))
  let conversationId := error.conversation.map RemoteConversation.id
  if active.any ActiveTurn.aborted then do
    if error.stream then orRaise (← chat (.cancelStream request.request_id))
    let active ← chat (.activeTurn (turnKey device.id request.request_id))
    let cancelled := (active.bind ActiveTurn.cancelRequestId).getD request.request_id
    let _ ← chat (.send device (.cancelled cancelled request.request_id conversationId false))
    eventOf error.conversation "remote.chat.cancelled" "Remote chat turn stopped locally."
  else do
    let _ ← chat (.send device (.failed request.request_id conversationId
      (remoteErrorCode error.failure) (safeRemoteError error.failure)))
    eventOf error.conversation "remote.chat.failed" "Remote chat request failed."

/-- `handle` -/
def handle (device : RemoteDevice) (request : RemoteChatUserMessage) : ChatProg Unit := do
  let key := turnKey device.id request.request_id
  if ← chat (.beginTurn key) then do
    let outcome ← settle (turn device request)
    let ended ← settle (match outcome with
      | .ok _ => return ()
      | .error error => failTurn device request error)
    chat (.endTurn key)
    orRaise ended
  else return ()

/-- `cancel` -/
def cancel (device : RemoteDevice) (request : RemoteChatCancelMessage) : ChatProg Unit := do
  let key := turnKey device.id request.target_request_id
  let given := request.conversation_id.filter (· ≠ "")
  let active ← chat (.activeTurn key)
  let other := active.any fun a =>
    match given, a.conversationId with
    | some asked, some running => asked != running
    | _, _ => false
  if active.isNone || other then
    orRaise (← chat (.send device
      (.cancelled request.request_id request.target_request_id given true)))
  else chat (.abortTurn key request.request_id)

end ConversationService

end Vops
