import Vops.Remote.IntentService

/-!
# Paired devices (`remote/device-registry.ts`)

* `register` — a new device under a route.
* `getActiveByRoute` — the device that a message comes from, if it is active.
* `touch`, `setRole`, `setStatus` (`suspend`, `resume`, `revoke`) — the whole record is read, changed and
  written back.
* `touchRecord`, `roleRecord`, `statusRecord` — the records they write.
-/

namespace Vops.DeviceRegistry

open AgentSessionManager (DateText)

/-! ## Defaults -/

/-- `DEFAULT_DEVICE_RESTRICTIONS` -/
def defaultRestrictions : RemoteDeviceRestrictions where
  projects := []
  targets := []
  environments := [.development, .staging]
  maxRisk := .medium
  approvalKinds := ["plan", "operation"]
  maxProviderSpendEur := 0
  validUntil := .empty

/-- The restrictions from which `normalizeRestrictions` starts. -/
def baseline : RemoteDeviceRole → RemoteDeviceRestrictions
  | .viewer => { defaultRestrictions with maxRisk := .read_only, approvalKinds := [] }
  | .approver => defaultRestrictions
  | .admin => { defaultRestrictions with environments := [.development, .staging, .production] }

/-- `Partial<RemoteDeviceRestrictions>` -/
structure RestrictionsInput where
  projects : Option (List String) := none
  targets : Option (List String) := none
  environments : Option (List AgentEnvironment) := none
  maxRisk : Option CapabilityRisk := none
  approvalKinds : Option (List String) := none
  maxProviderSpendEur : Option ℚ := none
  validUntil : DateText := .empty

/-- `normalizeRestrictions` -/
def normalizeRestrictions (role : RemoteDeviceRole) (input : RestrictionsInput) :
    RemoteDeviceRestrictions where
  projects := input.projects.getD (baseline role).projects
  targets := input.targets.getD (baseline role).targets
  environments := input.environments.getD (baseline role).environments
  maxRisk := if role = .viewer then .read_only else input.maxRisk.getD (baseline role).maxRisk
  approvalKinds :=
    if role = .viewer then [] else input.approvalKinds.getD (baseline role).approvalKinds
  maxProviderSpendEur :=
    max 0 (input.maxProviderSpendEur.getD (baseline role).maxProviderSpendEur)
  validUntil := input.validUntil

/-- The restrictions of a record, as an argument. -/
def asInput (r : RemoteDeviceRestrictions) : RestrictionsInput where
  projects := some r.projects
  targets := some r.targets
  environments := some r.environments
  maxRisk := some r.maxRisk
  approvalKinds := some r.approvalKinds
  maxProviderSpendEur := some r.maxProviderSpendEur
  validUntil := r.validUntil

/-- `String(label).trim().replace(/[\\u0000-\\u001f]/g, '')` -/
@[irreducible] def labelText (label : String) : String :=
  String.ofList ((jsTrim label).toList.filter fun c => decide (0x1f < c.toNat))

/-- `cleanLabel` -/
def cleanLabel (label : String) : RemoteProg String := do
  if labelText label = "" ∨ 80 < (labelText label).toList.length then
    throwRemote "Device label must be between 1 and 80 characters."
  else return labelText label

/-! ## Records -/

/-- The record that `touch` writes. -/
def touchRecord (device : RemoteDevice) (now : ℤ) : RemoteDevice :=
  { device with lastSeenAt := some now, updatedAt := now }

/-- The record that `setRole` writes. -/
def roleRecord (device : RemoteDevice) (role : RemoteDeviceRole) (now : ℤ) : RemoteDevice :=
  { device with
    role := role
    restrictions := normalizeRestrictions role (asInput device.restrictions)
    updatedAt := now }

/-- The record that `setStatus` writes. -/
def statusRecord (device : RemoteDevice) (status : RemoteDeviceStatus) (now : ℤ) : RemoteDevice :=
  { device with
    status := status
    updatedAt := now
    revokedAt := if status = .revoked then some now else device.revokedAt
    suspendedAt := if status = .suspended then some now else device.suspendedAt }

/-- `event` -/
def event (device : RemoteDevice) (eventType summary : String) : RemoteProg Unit := do
  let eventId ← wait (.agent .localId)
  let timestamp ← clock
  appendAudit
    { eventId := eventId
      timestamp := timestamp
      sessionId := none
      actor := "local_user"
      operationId := none
      eventType := eventType
      capability := none
      target := none
      summary := summary
      detail := some (.obj [("deviceId", .str device.id), ("label", .str device.label),
        ("role", .str device.role.text), ("status", .str device.status.text)]) }

/-! ## The methods -/

/-- The argument of `register`. -/
structure RegisterInput where
  routeId : String
  label : String
  role : RemoteDeviceRole
  signingPublicKey : String
  exchangePublicKey : String
  keyId : String
  restrictions : RestrictionsInput

/-- `register` -/
def register (input : RegisterInput) : RemoteProg RemoteDevice := do
  let existing ← wait (.getDeviceByRoute input.routeId)
  if existing.any fun d => d.status != .revoked then
    throwRemote "This device route is already paired."
  else do
    let now ← clock
    let id ← wait (.agent .localId)
    let label ← cleanLabel input.label
    let device : RemoteDevice :=
      { id := idText "device" id
        routeId := input.routeId
        label := label
        role := input.role
        status := .active
        signingPublicKey := input.signingPublicKey
        exchangePublicKey := input.exchangePublicKey
        keyId := input.keyId
        restrictions := normalizeRestrictions input.role input.restrictions
        pairedAt := now
        updatedAt := now
        lastSeenAt := none
        revokedAt := none
        suspendedAt := none }
    orFail (← wait (.saveDevice device))
    event device "remote.device.paired" s!"Paired remote device '{device.label}'."
    return device

/-- `get` -/
def get (id : String) : RemoteProg RemoteDevice := do
  match ← wait (.getDevice id) with
  | some device => return device
  | none => throwRemote s!"Remote device '{id}' was not found."

/-- `getActiveByRoute` -/
def getActiveByRoute (routeId : String) : RemoteProg RemoteDevice := do
  match ← wait (.getDeviceByRoute routeId) with
  | none => throwRemote "Remote device is not active."
  | some device =>
      if device.status ≠ .active then throwRemote "Remote device is not active."
      else
        match device.restrictions.validUntil with
        | .at expires => do
            let now ← clock
            if expires ≤ now then throwRemote "Remote device grant expired."
            else return device
        | _ => return device

/-- `touch` -/
def touch (id : String) : RemoteProg RemoteDevice := do
  let device ← get id
  let now ← clock
  orFail (← wait (.saveDevice (touchRecord device now)))
  return touchRecord device now

/-- `setRole` -/
def setRole (id : String) (role : RemoteDeviceRole) : RemoteProg RemoteDevice := do
  let device ← get id
  if device.status = .revoked then throwRemote "A revoked device cannot receive a new role."
  else do
    let now ← clock
    let updated := roleRecord device role now
    orFail (← wait (.saveDevice updated))
    event updated "remote.device.role_changed" s!"Changed remote device role to {role.text}."
    return updated

/-- What `setStatus` does once the record is written. -/
def afterStatus (updated : RemoteDevice) (status : RemoteDeviceStatus) : RemoteProg RemoteDevice := do
  onlyWhen (status == .suspended || status == .revoked)
    (IntentService.disableForDevice updated.id (status == .revoked))
  wait (.setDeviceRouteState updated.routeId status)
  event updated s!"remote.device.{status.text}" s!"Remote device {status.text}."
  return updated

/-- `setStatus` -/
def setStatus (id : String) (status : RemoteDeviceStatus) : RemoteProg RemoteDevice := do
  let device ← get id
  if device.status = .revoked ∧ status ≠ .revoked then
    throwRemote "A revoked device cannot be resumed."
  else do
    let now ← clock
    orFail (← wait (.saveDevice (statusRecord device status now)))
    afterStatus (statusRecord device status now) status

/-- `suspend` -/
def suspend (id : String) : RemoteProg RemoteDevice := setStatus id .suspended

/-- `resume` -/
def resume (id : String) : RemoteProg RemoteDevice := setStatus id .active

/-- `revoke` -/
def revoke (id : String) : RemoteProg RemoteDevice := setStatus id .revoked

end Vops.DeviceRegistry
