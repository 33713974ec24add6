import Vops.AgentControl.AgentStore

/-!
# The session manager (`agent-control/agent-session-manager.ts`)

* `create`, `authenticate`, `list`, `showSession`, `pause`, `resume`, `revoke`, `stopAll`,
  `incrementOperation`, `commitProviderSpend`, `extendForConditionalIntent`, `grantScope`,
  `narrowScope` — the methods.
* `grantRecord`, `narrowRecord`, `spendRecord` — the record that the last three save, as a function of
  the record they read.

The updates that the source starts together with `Promise.all` are on different sessions and are
written one after the other here.
-/

namespace Vops.AgentSessionManager

/-! ## Arguments -/

/-- A date argument, by what `new Date(text)` makes of it. -/
inductive DateText
  | empty
  | invalid
  | at (ms : ℤ)
deriving DecidableEq

/-- `Partial<AgentSessionPermissions>` -/
structure PermissionsInput where
  allow : Option (List String) := none
  allowWithinApprovedPlan : Option (List String) := none
  requireApproval : Option (List String) := none
  deny : Option (List String) := none

/-- `CreateAgentSessionInput` -/
structure CreateAgentSessionInput where
  client : AgentClient
  clientVersion : Option String := none
  displayName : Option String := none
  objective : String
  repository : String
  mode : Option AgentSessionMode := none
  targets : Option (List String) := none
  environments : Option (List AgentEnvironment) := none
  permissions : PermissionsInput := {}
  expiresInMinutes : Option JsNum := none
  maxOperations : Option JsNum := none
  maxProviderSpendEur : Option JsNum := none

/-- The argument of `grantScope`. -/
structure GrantInput where
  capability : String
  target : Option String := none
  environment : Option AgentEnvironment := none
deriving DecidableEq

/-- The argument of `narrowScope`. -/
structure NarrowInput where
  capabilities : Option (List String) := none
  targets : Option (List String) := none
  expiresAt : DateText := .empty
  maxProviderSpendEur : Option JsNum := none
deriving DecidableEq

/-! ## Defaults -/

/-- `DEFAULT_PERMISSIONS` -/
def defaultPermissions : AgentSessionPermissions where
  allow := ["repository.inspect", "flui_spec.read", "flui_spec.generate", "flui_spec.validate",
    "catalog.list", "catalog.describe", "provider.list", "provider.prices.compare", "target.list",
    "target.inspect", "server.list", "server.inspect", "application.plan_deploy",
    "application.status", "logs.read_recent", "healthcheck.run", "firewall.inspect"]
  allowWithinApprovedPlan := ["catalog.install", "application.deploy", "application.restart",
    "server.harden", "firewall.open_port", "firewall.close_port"]
  requireApproval := ["server.provision"]
  deny := ["server.destroy", "application.rollback"]

/-- `mergePermissions` -/
def mergePermissions (input : PermissionsInput) : AgentSessionPermissions where
  allow := unique (input.allow.getD defaultPermissions.allow)
  allowWithinApprovedPlan :=
    unique (input.allowWithinApprovedPlan.getD defaultPermissions.allowWithinApprovedPlan)
  requireApproval := unique (input.requireApproval.getD defaultPermissions.requireApproval)
  deny := unique (input.deny.getD defaultPermissions.deny)

/-- `clientLabel` -/
def clientLabel : AgentClient → String
  | .claudeCode => "Claude Code"
  | .codex => "Codex"
  | .opencode => "OpenCode"
  | .antigravity => "Antigravity"
  | .other => "Coding agent"

/-- `narrowSummary` -/
def narrowSummary (narrow : NarrowInput) : String :=
  let orNone := fun (s : String) => if s = "" then "none" else s
  let parts :=
    (match narrow.capabilities with
      | some (c :: cs) => ["revoked " ++ ", ".intercalate (c :: cs)]
      | _ => []) ++
    (match narrow.targets with
      | some ts => ["targets limited to " ++ orNone (", ".intercalate ts)]
      | none => []) ++
    (if narrow.expiresAt = .empty then [] else ["expiry shortened"]) ++
    (match narrow.maxProviderSpendEur with
      | some n => ["spend limit set to " ++ Json.numberText n]
      | none => [])
  if parts = [] then "Narrowed the session."
  else "Narrowed the session: " ++ "; ".intercalate parts ++ "."

/-! ## Events and records -/

/-- `event` -/
def event (session : AgentSession) (eventType summary : String) : Prog Unit := do
  let eventId ← perform .localId
  let timestamp ← perform .now
  let _ ← appendEvent
    { eventId := eventId
      timestamp := timestamp
      sessionId := some session.id
      actor := session.actor.client.text
      operationId := none
      eventType := eventType
      capability := none
      target := none
      summary := summary
      detail := some (.obj [("objective", .str session.objective),
        ("mode", .str session.mode.text)]) }
  return ()

/-- `show` -/
def showSession (id : ℕ) : Prog AgentSession := do
  match ← perform (.getSession id) with
  | some session => return session
  | none =>
      let name := idText "ses" id
      throwControl { code := .notFound, message := s!"Agent session '{name}' was not found." }

/-- Save a record and record the event: how every change of a session ends. -/
def saveWithEvent (updated : AgentSession) (eventType summary : String) : Prog AgentSession := do
  perform (.saveSession updated none)
  event updated eventType summary
  return updated

/-- `setStatus` -/
def setStatus (id : ℕ) (status : AgentSessionStatus) : Prog AgentSession := do
  let session ← showSession id
  saveWithEvent { session with status := status } s!"session.{status.text}"
    s!"Session {status.text}."

/-- `setStatus` on several sessions. -/
def setStatusAll (status : AgentSessionStatus) : List AgentSession → Prog (List AgentSession)
  | [] => return []
  | session :: sessions => do
      let updated ← setStatus session.id status
      let rest ← setStatusAll status sessions
      return updated :: rest

/-! ## The methods -/

/-- `resolveRepository` -/
def resolveRepository (input : String) : Prog String := do
  let resolved ← liftExcept (← perform (.realpath input))
  if ← perform (.isDirectory resolved) then return resolved
  else throwMessage s!"{resolved} is not a directory."

/-- `new Date(now + minutes * 60_000)`; an invalid date throws. -/
def expiryOf (now : ℤ) : JsNum → Except Failure ℤ
  | .fin q => .ok (now + (q * 60000).floor)
  | _ => .error (.thrown "Invalid time value")

/-- The record of a new session. -/
def newRecord (input : CreateAgentSessionInput) (repository : String) (id : ℕ) (now expiresAt : ℤ) :
    AgentSession where
  id := id
  actor := ⟨input.client, input.clientVersion.filter (· ≠ ""),
    input.displayName.getD (clientLabel input.client)⟩
  objective := jsTrim input.objective
  mode := .advisory
  status := .active
  repository := ⟨repository, PosixPath.basename repository⟩
  scope := ⟨[PosixPath.basename repository], unique (input.targets.getD []),
    unique (input.environments.getD [.staging])⟩
  permissions := mergePermissions input.permissions
  limits :=
    { expiresAt := expiresAt
      maxOperations := some (JsNum.max 1 (JsNum.min (input.maxOperations.getD 50) 1000))
      maxProviderSpendEur := some (JsNum.max 0 (input.maxProviderSpendEur.getD 0)) }
  operationCount := 0
  providerSpendEur := some 0
  createdAt := now

/-- `create` -/
def create (input : CreateAgentSessionInput) : Prog (AgentSession × ℕ) := do
  if input.mode = some .guarded then
    throwControl
      { code := .unsupported
        message := "Protected mode is not implemented. Create an advisory session instead."
        recoverable := true }
  else do
    let repository ← resolveRepository input.repository
    let now ← perform .now
    let minutes := JsNum.max 1 (JsNum.min (input.expiresInMinutes.getD 60) 720)
    let token ← perform .localId
    let id ← perform .localId
    let expiresAt ← liftExcept (expiryOf now minutes)
    let session := newRecord input repository id now expiresAt
    perform (.saveSession session (some (hashToken token)))
    event session "session.created"
      s!"Created advisory session for {session.actor.displayName}."
    return (session, token)

/-- The session has used up its operations. -/
def operationsReached (session : AgentSession) : Bool :=
  (JsNum.ofField session.limits.maxOperations).le (.fin session.operationCount)

/-- What `authenticate` does with an expired session. -/
def expire (session : AgentSession) : Prog Unit := do
  if session.status = .expired then return ()
  else do
    let _ ← setStatus session.id .expired
    return ()

/-- `authenticate`, once the record is found. -/
def authenticateRecord (session : AgentSession) : Prog AgentSession := do
  let now ← perform .now
  if session.limits.expiresAt ≤ now then do
    expire session
    throwControl
      { code := .sessionExpired, message := "The agent session has expired.", status := .denied
        recoverable := true }
  else if session.status ≠ .active then
    throwControl
      { code := .sessionInactive, message := s!"The agent session is {session.status.text}."
        status := .denied, recoverable := session.status = .paused }
  else if operationsReached session then
    let limit := Json.numberText (JsNum.ofField session.limits.maxOperations)
    throwControl
      { code := .scopeDenied, message := s!"The session reached its {limit}-operation limit."
        status := .denied, recoverable := true }
  else return session

/-- `authenticate`; an absent or empty token is `none`. -/
def authenticate (token : Option ℕ) : Prog AgentSession :=
  match token with
  | none =>
      throwControl
        { code := .authRequired, message := "An active vOps agent session token is required."
          status := .denied, recoverable := true }
  | some token => do
      match ← perform (.getSessionByTokenHash (hashToken token)) with
      | none =>
          throwControl
            { code := .tokenInvalid, message := "The agent session token is invalid."
              status := .denied }
      | some session => authenticateRecord session

/-- The active sessions whose time is over, by a reading of the clock for each of them. -/
def expiredAmong : List AgentSession → Prog (List AgentSession)
  | [] => return []
  | session :: sessions => do
      if session.status = .active then do
        let now ← perform .now
        let rest ← expiredAmong sessions
        return if session.limits.expiresAt ≤ now then session :: rest else rest
      else expiredAmong sessions

/-- `list` -/
def list : Prog (List AgentSession) := do
  let sessions ← perform .listSessions
  let expired ← expiredAmong sessions
  let _ ← setStatusAll .expired expired
  perform .listSessions

/-- `pause` -/
def pause (id : ℕ) : Prog AgentSession := setStatus id .paused

/-- `resume` -/
def resume (id : ℕ) : Prog AgentSession := do
  let session ← showSession id
  let now ← perform .now
  if session.limits.expiresAt ≤ now then
    throwControl
      { code := .sessionExpired, message := "An expired session cannot be resumed." }
  else setStatus id .active

/-- `revoke` -/
def revoke (id : ℕ) : Prog AgentSession := setStatus id .revoked

/-- `stopAll` -/
def stopAll : Prog (List AgentSession) := do
  let sessions ← list
  setStatusAll .revoked
    (sessions.filter fun s => decide (s.status = .active ∨ s.status = .paused))

/-- `incrementOperation` -/
def incrementOperation (id : ℕ) : Prog AgentSession := do
  let session ← showSession id
  let updated := { session with operationCount := session.operationCount + 1 }
  perform (.saveSession updated none)
  return updated

/-- `value.toFixed(2)`: only numbers have it. -/
def toFixed : Json → Prog String
  | .num n => return Json.toFixed2 n
  | _ => throwMessage "monthlyEur.toFixed is not a function"

/-- `limit.toFixed(2)` of a limit that may be `null`. -/
def limitToFixed : Option JsNum → Prog String
  | some n => return Json.toFixed2 n
  | none => throwMessage "Cannot read properties of null (reading 'toFixed')"

/-- The total a commitment would lead to. -/
def committedTotal (session : AgentSession) (monthlyEur : Json) : JsNum :=
  (JsNum.ofField session.providerSpendEur).add (JsNum.max 0 monthlyEur.toNumber)

/-- The record that `commitProviderSpend` saves. -/
def spendRecord (session : AgentSession) (monthlyEur : Json) : AgentSession :=
  { session with providerSpendEur := some (committedTotal session monthlyEur) }

/-- The refusal of a commitment the session cannot afford. -/
def refuseSpend (session : AgentSession) (monthlyEur : Json) : Prog AgentSession := do
  let amount ← toFixed monthlyEur
  let limit ← limitToFixed session.limits.maxProviderSpendEur
  let committed := Json.toFixed2 (JsNum.ofField session.providerSpendEur)
  throwControl
    { code := .scopeDenied
      message := s!"This commitment costs {amount} EUR/month. The session has already committed " ++
        s!"{committed} of its {limit} EUR/month budget."
      status := .denied
      recoverable := true }

/-- What `commitProviderSpend` does once the record is saved. -/
def commitEvent (session : AgentSession) (monthlyEur : Json) : Prog AgentSession := do
  let amount ← toFixed monthlyEur
  let limit ← limitToFixed session.limits.maxProviderSpendEur
  let total := Json.toFixed2 (committedTotal session monthlyEur)
  event (spendRecord session monthlyEur) "session.spend_committed"
    s!"Committed {amount} EUR/month; {total} of {limit} used."
  return spendRecord session monthlyEur

/-- `commitProviderSpend`, once the record is read. -/
def commitRecord (session : AgentSession) (monthlyEur : Json) : Prog AgentSession :=
  if (JsNum.ofField session.limits.maxProviderSpendEur).lt (committedTotal session monthlyEur) then
    refuseSpend session monthlyEur
  else do
    perform (.saveSession (spendRecord session monthlyEur) none)
    commitEvent session monthlyEur

/-- `commitProviderSpend`; the amount is a value of the plan file, which need not be a number. -/
def commitProviderSpend (id : ℕ) (monthlyEur : Json) : Prog AgentSession := do
  let session ← showSession id
  commitRecord session monthlyEur

/-- The refusal of an extension. -/
def refuseExtension : Prog AgentSession :=
  throwControl
    { code := .scopeDenied
      message := "Only a bounded conditional-intent session may receive an extended expiry."
      status := .denied }

/-- The record that `extendForConditionalIntent` saves. -/
def extendRecord (session : AgentSession) (expires : ℤ) : AgentSession :=
  { session with limits := { session.limits with expiresAt := expires } }

/-- `extendForConditionalIntent`, once the record is read. -/
def extendRecordUntil (session : AgentSession) (expiresAt : DateText) : Prog AgentSession := do
  if "Conditional intent ".isPrefixOf session.actor.displayName then
    match expiresAt with
    | .at expires => do
        let now ← perform .now
        if expires ≤ now then refuseExtension
        else do
          let now ← perform .now
          if 30 * 24 * 60 * 60000 < expires - now then refuseExtension
          else
            saveWithEvent (extendRecord session expires) "session.intent_expiry_set"
              "Bound session expiry to its conditional intent."
    | _ => refuseExtension
  else refuseExtension

/-- `extendForConditionalIntent` -/
def extendForConditionalIntent (id : ℕ) (expiresAt : DateText) : Prog AgentSession := do
  let session ← showSession id
  extendRecordUntil session expiresAt

/-- The record that `grantScope` saves. -/
def grantRecord (session : AgentSession) (grant : GrantInput) : AgentSession :=
  { session with
    scope :=
      { session.scope with
        targets := match grant.target.filter (· ≠ "") with
          | some target => unique (session.scope.targets ++ [target])
          | none => session.scope.targets
        environments := match grant.environment with
          | some environment => unique (session.scope.environments ++ [environment])
          | none => session.scope.environments }
    permissions :=
      { session.permissions with
        allow := unique (session.permissions.allow ++ [grant.capability])
        deny := session.permissions.deny.filter (· ≠ grant.capability)
        requireApproval := session.permissions.requireApproval.filter (· ≠ grant.capability) } }

/-- `grantScope` -/
def grantScope (id : ℕ) (grant : GrantInput) : Prog AgentSession := do
  let session ← showSession id
  saveWithEvent (grantRecord session grant) "session.scope_granted"
    s!"Granted {grant.capability} to the session."

/-- The record that `narrowScope` saves, or the error of an invalid date. -/
def narrowRecord (session : AgentSession) (narrow : NarrowInput) : Except Failure AgentSession :=
  let removed := narrow.capabilities.getD []
  let keeps := fun (entries : List String) => entries.filter (· ∉ removed)
  let updated := fun (expiresAt : ℤ) =>
    { session with
      scope := { session.scope with
        targets := (narrow.targets.map unique).getD session.scope.targets }
      permissions :=
        { allow := keeps session.permissions.allow
          allowWithinApprovedPlan := keeps session.permissions.allowWithinApprovedPlan
          requireApproval := keeps session.permissions.requireApproval
          deny := unique (session.permissions.deny ++ removed) }
      limits :=
        { session.limits with
          expiresAt := expiresAt
          maxProviderSpendEur := match narrow.maxProviderSpendEur with
            | some n => some (JsNum.max 0 n)
            | none => session.limits.maxProviderSpendEur } }
  match narrow.expiresAt with
  | .empty => .ok (updated session.limits.expiresAt)
  | .invalid => .error (.thrown "Invalid time value")
  | .at ms => .ok (updated ms)

/-- `narrowScope` -/
def narrowScope (id : ℕ) (narrow : NarrowInput) : Prog AgentSession := do
  let session ← showSession id
  let updated ← liftExcept (narrowRecord session narrow)
  saveWithEvent updated "session.scope_narrowed" (narrowSummary narrow)

/-! ## The narrowed record -/

variable {s s' : AgentSession} {narrow : NarrowInput}

/-- Everything the narrowed record is. -/
theorem narrowRecord_ok (h : narrowRecord s narrow = .ok s') :
    s'.id = s.id ∧ s'.status = s.status ∧ s'.scope.environments = s.scope.environments ∧
    s'.scope.targets = (narrow.targets.map unique).getD s.scope.targets ∧
    s'.permissions.allow = s.permissions.allow.filter (· ∉ narrow.capabilities.getD []) ∧
    s'.permissions.allowWithinApprovedPlan =
      s.permissions.allowWithinApprovedPlan.filter (· ∉ narrow.capabilities.getD []) ∧
    s'.permissions.requireApproval =
      s.permissions.requireApproval.filter (· ∉ narrow.capabilities.getD []) ∧
    s'.permissions.deny = unique (s.permissions.deny ++ narrow.capabilities.getD []) ∧
    (s'.limits.maxProviderSpendEur = match narrow.maxProviderSpendEur with
      | some n => some (JsNum.max 0 n)
      | none => s.limits.maxProviderSpendEur) ∧
    (narrow.expiresAt = .empty ∧ s'.limits.expiresAt = s.limits.expiresAt ∨
      narrow.expiresAt = .at s'.limits.expiresAt) := by
  unfold narrowRecord at h
  cases he : narrow.expiresAt with
  | empty =>
      rw [he] at h
      obtain rfl := Except.ok.inj h
      exact ⟨rfl, rfl, rfl, rfl, rfl, rfl, rfl, rfl, rfl, .inl ⟨rfl, rfl⟩⟩
  | invalid => rw [he] at h; cases h
  | «at» ms =>
      rw [he] at h
      obtain rfl := Except.ok.inj h
      exact ⟨rfl, rfl, rfl, rfl, rfl, rfl, rfl, rfl, rfl, .inr rfl⟩

end Vops.AgentSessionManager
