import Vops.Firewall.FirewallServices

/-!
# Host firewall (`host-firewall/nftables.ts`, `dto/firewall.dto.ts`)

`renderNftables` writes portable firewall rules as an nftables ruleset for the host itself.

* `splitCidrs`, `portExpr`, `coversPort` — how one rule is read.
* `buildInboundLines`, `renderInbound` — the lines of the inbound rules.
* `renderNftables` — the file; it throws on a malformed port specification.
-/

namespace Vops

/-- `'in' | 'out'` -/
inductive FirewallDirection
  | inbound | outbound
deriving DecidableEq

inductive FirewallProtocol
  | tcp | udp | icmp
deriving DecidableEq

/-- `VopsFirewallRule`, as far as the host firewall reads it. -/
structure VopsFirewallRule where
  direction : FirewallDirection
  protocol : FirewallProtocol
  port : Option String := none
  sourceIps : Option (List String) := none

/-- `'drop' | 'accept'` -/
inductive InboundPolicy
  | drop | accept
deriving DecidableEq

def InboundPolicy.text : InboundPolicy → String
  | drop => "drop"
  | accept => "accept"

structure HostFirewallOptions where
  defaultInboundPolicy : Option InboundPolicy := none
  keepSshOpen : Option Bool := none
  sshPort : Option ℕ := none
  sshAlwaysOpen : Option Bool := none
  allowOutbound : Option Bool := none
  allowPing : Option Bool := none

namespace HostFirewallOptions

/-! The defaults that `renderNftables` fills in. -/

def policy (opts : HostFirewallOptions) : InboundPolicy := opts.defaultInboundPolicy.getD .drop
def keepSsh (opts : HostFirewallOptions) : Bool := opts.keepSshOpen.getD true
def port (opts : HostFirewallOptions) : ℕ := opts.sshPort.getD 22
def alwaysOpen (opts : HostFirewallOptions) : Bool := opts.sshAlwaysOpen.getD false
def outbound (opts : HostFirewallOptions) : Bool := opts.allowOutbound.getD true
def ping (opts : HostFirewallOptions) : Bool := opts.allowPing.getD true

end HostFirewallOptions

/-- `'vops_fw'` -/
def TABLE : String := "vops_fw"

/-- `'tcp' | 'udp'` -/
inductive TransportProtocol
  | tcp | udp
deriving DecidableEq

def TransportProtocol.text : TransportProtocol → String
  | tcp => "tcp"
  | udp => "udp"

/-- The protocol of a rule that has ports. -/
def FirewallProtocol.transport : FirewallProtocol → Option TransportProtocol
  | tcp => some .tcp
  | udp => some .udp
  | icmp => none

structure InboundLine where
  proto : TransportProtocol
  portExpr : String
  v4 : List String
  v6 : List String

/-! ## One rule -/

/-- `'0.0.0.0/0'` and `'::/0'` stand for any source. -/
def isAnySource (c : String) : Bool := c == "0.0.0.0/0" || c == "::/0"

/-- `splitCidrs`: the two families, without the entries for any source. -/
def splitCidrs (cidrs : Option (List String)) : List String × List String :=
  let specific := (cidrs.getD []).filter (!isAnySource ·)
  (specific.filter fun c => !c.toList.contains ':', specific.filter fun c => c.toList.contains ':')

/-- `set` -/
def set (items : List String) : String :=
  match items with
  | [item] => item
  | items => "\x7b " ++ ", ".intercalate items ++ " \x7d"

/-- `/^\d+(?:,\d+)+$/` -/
def isPortEnumeration (cs : List Char) : Bool :=
  2 ≤ (cs.splitOn ',').length && (cs.splitOn ',').all isDigits

/-- `/^(\d+)-(\d+)$/` with its two groups. -/
def portRange (cs : List Char) : Option (List Char × List Char) :=
  match cs.splitOn '-' with
  | [first, last] => if isDigits first && isDigits last then some (first, last) else none
  | _ => none

/-- `Number(digits)`, without rounding. -/
def portNumber (cs : List Char) : ℕ := cs.foldl (fun acc c => acc * 10 + (c.toNat - 48)) 0

/-- `coversPort`: the rule opens the TCP port, as a number, a member of a list or within a range. -/
def coversPort (r : VopsFirewallRule) (port : ℕ) : Bool :=
  let spec := r.port.getD ""
  if r.protocol ≠ .tcp ∨ spec = "" then false
  else
    let p := (jsTrim spec).toList
    let s := (toString port).toList
    if p = s then true
    else if isPortEnumeration p then (p.splitOn ',').contains s
    else match portRange p with
      | some (first, last) => portNumber first ≤ port && port ≤ portNumber last
      | none => false

/-- `/^\d+(?:-\d+)?(?:,\d+(?:-\d+)?)+$/` -/
def isPortList (cs : List Char) : Bool := 2 ≤ (cs.splitOn ',').length && isPortSpec cs

/-- `text.replaceAll(',', ', ')` -/
def spaceCommas (cs : List Char) : List Char :=
  cs.flatMap fun c => if c = ',' then [',', ' '] else [c]

/-- `portExpr`: no port stands for all ports, a malformed one is an error. -/
def portExpr (port : Option String) : Except String String :=
  let trimmed := jsTrim (port.getD "")
  if trimmed = "" then .ok "0-65535"
  else if isDigits trimmed.toList then .ok trimmed
  else if (portRange trimmed.toList).isSome then .ok trimmed
  else if isPortList trimmed.toList then
    .ok ("\x7b " ++ String.ofList (spaceCommas trimmed.toList) ++ " \x7d")
  else
    let spec := port.getD "undefined"
    .error (s!"Invalid port spec '{spec}'. Use a port (8080), range (8000-8100), " ++
      "or list (80,443).")

/-! ## The inbound rules -/

/-- The line of a rule, when its protocol has ports. -/
def inboundLine (r : VopsFirewallRule) : Except String (Option InboundLine) :=
  match r.protocol.transport with
  | none => .ok none
  | some proto => do
      let expr ← portExpr r.port
      pure (some ⟨proto, expr, (splitCidrs r.sourceIps).1, (splitCidrs r.sourceIps).2⟩)

/-- `buildInboundLines` -/
def buildInboundLines : List VopsFirewallRule → Except String (List InboundLine)
  | [] => .ok []
  | r :: rules => do
      let line ← inboundLine r
      let lines ← buildInboundLines rules
      pure (line.toList ++ lines)

/-- What a line ends with: `tcp dport 80 accept`. -/
def InboundLine.target (l : InboundLine) : String :=
  l.proto.text ++ " dport " ++ l.portExpr ++ " accept"

/-- `renderInbound`: one line without a source, else one line for each family that has sources. -/
def renderInbound (l : InboundLine) : String :=
  if l.v4 = [] ∧ l.v6 = [] then l.target
  else
    let parts := (if l.v4 = [] then [] else ["ip saddr " ++ set l.v4 ++ " " ++ l.target]) ++
      (if l.v6 = [] then [] else ["ip6 saddr " ++ set l.v6 ++ " " ++ l.target])
    "\n    ".intercalate parts

/-! ## The file -/

/-- `rules.filter((r) => r.direction === 'in')` -/
def inboundRules (rules : List VopsFirewallRule) : List VopsFirewallRule :=
  rules.filter (·.direction = .inbound)

/-- `pingWanted` -/
def pingWanted (inbound : List VopsFirewallRule) (opts : HostFirewallOptions) : Bool :=
  opts.ping || inbound.any (·.protocol = .icmp)

/-- `keepSshLine` -/
def keepSshLine (inbound : List VopsFirewallRule) (opts : HostFirewallOptions) : Bool :=
  opts.alwaysOpen ||
    (opts.keepSsh && opts.policy = .drop && !inbound.any (coversPort · opts.port))

/-- `sshComment` -/
def sshComment (opts : HostFirewallOptions) : String :=
  if opts.alwaysOpen then "vops: keep-ssh-open (not closable)" else "vops: keep-ssh-open"

/-- `inputChain` -/
def inputChain (inbound : List VopsFirewallRule) (opts : HostFirewallOptions)
    (lines : List InboundLine) : List String :=
  ["    type filter hook input priority 0; policy " ++ opts.policy.text ++ ";",
    "    ct state established,related accept",
    "    ct state invalid drop",
    "    iif \"lo\" accept"] ++
  (if pingWanted inbound opts then
    ["    ip protocol icmp accept", "    meta l4proto icmpv6 accept"] else []) ++
  (if keepSshLine inbound opts then
    ["    tcp dport " ++ toString opts.port ++ " accept comment \"" ++ sshComment opts ++ "\""]
    else []) ++
  lines.map fun l => "    " ++ renderInbound l

/-- `outputChain` -/
def outputChain (opts : HostFirewallOptions) : List String :=
  ["    type filter hook output priority 0; policy " ++
    (if opts.outbound then "accept" else "drop") ++ ";"] ++
  (if opts.outbound then [] else
    ["    ct state established,related accept", "    oif \"lo\" accept"])

/-- `ruleset`: only the table of its own is replaced. -/
def ruleset (input output : List String) : List String :=
  ["#!/usr/sbin/nft -f",
    "",
    "table inet " ++ TABLE,
    "delete table inet " ++ TABLE,
    "",
    "table inet " ++ TABLE ++ " \x7b",
    "  chain input \x7b"] ++ input ++
  ["  \x7d",
    "  chain output \x7b"] ++ output ++
  ["  \x7d",
    "\x7d"]

/-- `renderNftables` -/
def renderNftables (rules : List VopsFirewallRule) (opts : HostFirewallOptions) :
    Except String String := do
  let inbound := inboundRules rules
  let lines ← buildInboundLines inbound
  pure ("\n".intercalate (ruleset (inputChain inbound opts lines) (outputChain opts)) ++ "\n")

end Vops
