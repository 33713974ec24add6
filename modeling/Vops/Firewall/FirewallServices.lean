import Vops.World

/-!
# Firewall services (`firewall/firewall-services.ts`)

`parseServiceSpec` reads one service token: a well-known name or a port specification, with an
optional source behind `@`.
-/

namespace Vops

/-- `WELL_KNOWN_SERVICES`, enabled and open to every source. -/
def wellKnownServices : List FirewallService :=
  [⟨"ssh", "SSH", "tcp", "22", true, []⟩, ⟨"http", "Web (HTTP)", "tcp", "80", true, []⟩,
    ⟨"https", "Web (HTTPS)", "tcp", "443", true, []⟩]

/-- `\d+` -/
def isDigits (cs : List Char) : Bool := !cs.isEmpty && cs.all Char.isDigit

/-- `\d+(?:-\d+)?` -/
def isPortRange (cs : List Char) : Bool :=
  match cs.splitOn '-' with
  | [port] => isDigits port
  | [first, last] => isDigits first && isDigits last
  | _ => false

/-- `/^\d+(?:-\d+)?(?:,\d+(?:-\d+)?)*$/` -/
def isPortSpec (cs : List Char) : Bool := (cs.splitOn ',').all isPortRange

/-- `parseServiceSpec` -/
def parseServiceSpec (token : String) : Except Failure FirewallService :=
  let parts := (jsTrim token).toList.splitOn '@'
  let portPart := parts.head?.getD []
  let sources := match parts[1]? with
    | some source => if source = [] then [] else [String.ofList source]
    | none => []
  match wellKnownServices.find? fun s => s.id.toList == portPart.map Char.toLower with
  | some known => .ok { known with sources := sources }
  | none =>
      let fields := portPart.splitOn '/'
      let portChars := fields.head?.getD []
      let port := String.ofList portChars
      if isPortSpec portChars then
        let protocol := if fields[1]? = some "udp".toList then "udp" else "tcp"
        .ok ⟨s!"port-{protocol}-{port}", s!"Port {port}", protocol, port, true, sources⟩
      else
        .error (.thrown (s!"Bad service '{token}'. Use a name (ssh/http/https) or a port like " ++
          "8080, 8000-8100 or 51820/udp."))

end Vops
