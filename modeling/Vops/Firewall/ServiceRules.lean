import Vops.Firewall.Nftables

/-!
# Services as firewall rules (`firewall/firewall-services.ts`, `firewall/vops-server-firewall.service.ts`)

* `firstServiceError` — what is wrong with the enabled services, if anything is.
* `servicesToRules` — the rules of the enabled services.
* `rulesAllowPort` — whether a TCP rule allows a port; `providerRules` refuses a set of rules that does not
  allow the SSH port.
* `isManagedSshRule` — the rule for SSH that the engine on the host does without.
-/

namespace Vops

/-! ## Checks -/

/-- `portOk` -/
def portOk (port : List Char) : Bool :=
  isPortSpec port &&
    (port.splitOnP fun c => c == ',' || c == '-').all fun n => 1 ≤ portNumber n && portNumber n ≤ 65535

/-- `\d{1,most}` -/
def isShortNumber (most : ℕ) (cs : List Char) : Bool := isDigits cs && cs.length ≤ most

/-- `V4_CIDR` with its groups: the four numbers, and the length if there is one. -/
def v4Groups (cs : List Char) : Option (List (List Char) × Option (List Char)) :=
  let parts := cs.splitOn '/'
  let address := (parts.head?.getD []).splitOn '.'
  if address.length = 4 ∧ address.all (isShortNumber 3) ∧ parts.length ≤ 2 ∧
      parts.tail.all (isShortNumber 2) then
    some (address, parts[1]?)
  else none

/-- `[0-9a-fA-F:]` -/
def isV6Char (c : Char) : Bool :=
  c.isDigit || ('a' ≤ c && c ≤ 'f') || ('A' ≤ c && c ≤ 'F') || c == ':'

/-- `V6_CIDR` with its group. -/
def v6Group (cs : List Char) : Option (Option (List Char)) :=
  let parts := cs.splitOn '/'
  let address := parts.head?.getD []
  if address ≠ [] ∧ address.all isV6Char ∧ parts.length ≤ 2 ∧ parts.tail.all (isShortNumber 3) then
    some parts[1]?
  else none

/-- `cidrOk` -/
def cidrOk (src : String) : Bool :=
  let s := (jsTrim src).toList
  match v4Groups s with
  | some (address, length) =>
      address.all (portNumber · ≤ 255) && length.all (portNumber · ≤ 32)
  | none =>
      match v6Group s with
      | some length => s.contains ':' && length.all (portNumber · ≤ 128)
      | none => false

/-- What is wrong with an enabled service. -/
def serviceError (s : FirewallService) : Option String :=
  if portOk (jsTrim s.port).toList then
    (s.sources.find? (!cidrOk ·)).map fun src =>
      s!"Invalid source '{src}' for {s.label} — use a CIDR like 203.0.113.4/32."
  else some s!"Invalid port '{s.port}' for {s.label} — use 8080, 8000-8100 or 80,443 (1-65535)."

/-- `firstServiceError` -/
def firstServiceError (services : List FirewallService) : Option String :=
  (services.filter (·.enabled)).findSome? serviceError

/-! ## Rules -/

/-- The rule of a service. -/
def serviceRule (s : FirewallService) : VopsFirewallRule where
  direction := .inbound
  protocol := if s.protocol = "udp" then .udp else .tcp
  port := some s.port
  sourceIps := if s.sources = [] then none else some s.sources

/-- `servicesToRules` -/
def servicesToRules (services : List FirewallService) : List VopsFirewallRule :=
  (services.filter (·.enabled)).map serviceRule

/-- `rulesAllowPort`: a TCP rule allows the port, as a number, a member of a list or within a range. -/
def rulesAllowPort (rules : List VopsFirewallRule) (port : ℕ) : Bool :=
  let target := (toString port).toList
  rules.any fun r =>
    let spec := r.port.getD ""
    r.protocol = .tcp && spec ≠ "" && (spec.toList.splitOn ',').any fun part =>
      let p := (jsTrim (String.ofList part)).toList
      p == target || (portRange p).any fun m => portNumber m.1 ≤ port && port ≤ portNumber m.2

/-- The rules that `VopsServerFirewallService.set` applies at the provider. -/
def providerRules (services : List FirewallService) (sshPort : ℕ) : Except String (List VopsFirewallRule) :=
  match firstServiceError services with
  | some invalid => .error invalid
  | none =>
      let rules := servicesToRules services
      if rulesAllowPort rules sshPort then .ok rules
      else .error (s!"This would remove SSH (port {sshPort}) from the provider firewall and lock you out. " ++
        "Keep SSH allowed.")

/-- `isManagedSshRule` -/
def isManagedSshRule (r : VopsFirewallRule) (sshPort : ℕ) : Bool :=
  r.direction = .inbound && r.protocol = .tcp && jsTrim (r.port.getD "") == toString sshPort

end Vops
