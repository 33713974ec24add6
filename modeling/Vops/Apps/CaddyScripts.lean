import Vops.Apps.AppScripts
import Vops.HostOps.StatusBattery

/-!
# The route scripts of the Caddy backend (`apps/caddy-scripts.ts`, `apps/ingress-route-write.ts`)

* `Command` — the lines of the scripts; `buildCaddyRouteWriteScript`, `buildCaddyRouteRemoveScript`
  — the texts that are sent.
* `CaddyHost` — the fragments on the disk, and those that the proxy runs with.
* `Command.run` — what a line does; `none` where a line of the content ends the heredoc, so that the
  rest of the content is read as commands.
* `parseRouteWrite` — what is read of the output.

The commands on files succeed. The proxy answers anything; the configuration it runs with becomes
the one on the disk exactly when a reload succeeds.
-/

namespace Vops.CaddyScripts

open Apps (shq)
open AuthorizedKeys (Text)
open StatusBattery (section?)

/-! ## The scripts -/

def INGRESS_CONF_DIR : String := "/etc/vops/ingress"

def INGRESS_CONTAINER : String := "vops-ingress"

def CADDY_CONFIG_FILE : String := INGRESS_CONF_DIR ++ "/Caddyfile"

def CADDY_DYNAMIC_DIR : String := INGRESS_CONF_DIR ++ "/caddy"

/-- The characters of an install handle, `/^[a-z0-9][a-z0-9-]*$/`. -/
def isHandle (name : List Char) : Bool :=
  decide (name ≠ []) && decide (name.head? ≠ some '-') &&
    name.all fun c => c.isLower || c.isDigit || c == '-'

/-- The name of an installed app. -/
structure App where
  name : String
  handle : isHandle name.toList = true
deriving DecidableEq

def caddyRouteFile (app : String) : String := CADDY_DYNAMIC_DIR ++ "/" ++ app ++ ".caddy"

/-- `hashTag(s)`, of a text whose characters are code units. -/
def hashTag (s : String) : String :=
  String.ofList (Nat.toDigits 16 (s.toList.foldl (fun h c => (h * 31 + c.toNat) % 65536) 0))

/-- The line that ends a heredoc. -/
def heredocTag (path : String) : String := "VOPS_ING_EOF_" ++ hashTag path

def heredoc (path : String) (content : Text) : String :=
  "cat > " ++ shq path ++ " <<'" ++ heredocTag path ++ "'\n" ++ String.ofList content ++ "\n" ++
    heredocTag path

/-- What the proxy is asked to do with the configuration on the disk. -/
inductive Verb
  | validate | reload
deriving DecidableEq

def Verb.word : Verb → String
  | .validate => "validate"
  | .reload => "reload"

/-- `caddy(verb)`, without its redirections. -/
def caddy (verb : Verb) : String :=
  "podman exec " ++ shq INGRESS_CONTAINER ++ " caddy " ++ verb.word ++ " --config " ++
    shq CADDY_CONFIG_FILE ++ " --adapter caddyfile"

/-- The commands of one line. -/
inductive Simple
  | set (flag : String)
  | mkdir (path : String)
  | write (path : String) (content : Text)
  | remove (path : String)
  | capture (verb : Verb)
  | silent (verb : Verb)
  | echo (line : String)
  | echoPath (path : String)
  | tailError

def Simple.text : Simple → String
  | .set flag => "set " ++ flag
  | .mkdir path => "mkdir -p " ++ shq path
  | .write path content => heredoc path content
  | .remove path => "rm -f " ++ shq path
  | .capture verb => "err=$(" ++ caddy verb ++ " 2>&1)"
  | .silent verb => caddy verb ++ " >/dev/null 2>&1"
  | .echo line => "echo '" ++ line ++ "'"
  | .echoPath path => "echo " ++ shq path
  | .tailError => "printf '%s\\n' \"$err\" | tail -20"

/-- A line, or a block that ends the script where the last command failed. -/
inductive Command
  | line (c : Simple)
  | onFailure (body : List Simple)

def Command.text : Command → List String
  | .line c => [c.text]
  | .onFailure body => ["if [ $? -ne 0 ]; then"] ++ body.map ("  " ++ ·.text) ++ ["  exit 0", "fi"]

abbrev Script := List Command

def Script.text (script : Script) : String := "\n".intercalate (script.flatMap Command.text)

/-- `buildCaddyRouteWriteScript(app, content)` -/
def buildCaddyRouteWriteScript (app : String) (content : Text) : Script :=
  let f := caddyRouteFile app
  [.line (.set "-e"), .line (.mkdir CADDY_DYNAMIC_DIR), .line (.write f content), .line (.set "+e"),
    .line (.capture .validate), .onFailure [.remove f, .echo "@@invalid", .tailError],
    .line (.capture .reload), .onFailure [.echo "@@failed", .tailError],
    .line (.echo "@@wrote"), .line (.echoPath f)]

/-- `buildCaddyRouteRemoveScript(app)` -/
def buildCaddyRouteRemoveScript (app : String) : Script :=
  [.line (.set "+e"), .line (.remove (caddyRouteFile app)), .line (.silent .reload),
    .line (.echo "@@removed")]

/-! ## The host -/

/-- The fragments by their paths. -/
abbrev Files := String → Option Text

/-- The fragments on the disk, and those that the proxy runs with. -/
structure CaddyHost where
  files : Files
  running : Files

/-- What the proxy says. -/
structure Answer where
  ok : Bool
  text : Text

/-- What the proxy answers to a configuration on the disk. -/
structure Proxy where
  answer : Verb → Files → Answer

/-- A script that is running. -/
structure Shell where
  host : CaddyHost
  out : Text
  /-- The variable `err`. -/
  err : Text
  /-- The last command succeeded. -/
  ok : Bool
  /-- The script has ended. -/
  exited : Bool

/-- `$(command)`: without null characters and without the line breaks at the end. -/
def substituted (text : Text) : Text := (text.filter (· ≠ '\x00')).rdropWhile (· = '\n')

/-- `printf '%s\n' "$err" | tail -20` -/
def tailed (err : Text) : Text :=
  let lines := err.splitOn '\n'
  TextLines.join (lines.drop (lines.length - 20))

/-- The content is what the heredoc is read as. -/
def Verbatim (path : String) (content : Text) : Prop :=
  '\x00' ∉ content ∧ (heredocTag path).toList ∉ content.splitOn '\n'

instance (path : String) (content : Text) : Decidable (Verbatim path content) :=
  inferInstanceAs (Decidable (_ ∧ _))

/-- What the proxy does when it is asked. -/
def CaddyHost.ask (host : CaddyHost) (proxy : Proxy) (verb : Verb) : CaddyHost :=
  if verb = .reload ∧ (proxy.answer verb host.files).ok then { host with running := host.files }
  else host

/-- What a command does. -/
def Simple.run (proxy : Proxy) (s : Shell) : Simple → Option Shell
  | .set _ => some { s with ok := true }
  | .mkdir _ => some { s with ok := true }
  | .write path content =>
      if Verbatim path content then
        some { s with
          host := { s.host with
            files := Function.update s.host.files path (some (content ++ ['\n'])) }
          ok := true }
      else none
  | .remove path =>
      some { s with
        host := { s.host with files := Function.update s.host.files path none }
        ok := true }
  | .capture verb =>
      let a := proxy.answer verb s.host.files
      some { s with host := s.host.ask proxy verb, err := substituted a.text, ok := a.ok }
  | .silent verb =>
      some { s with host := s.host.ask proxy verb, ok := (proxy.answer verb s.host.files).ok }
  | .echo line => some { s with out := s.out ++ line.toList ++ ['\n'], ok := true }
  | .echoPath path => some { s with out := s.out ++ path.toList ++ ['\n'], ok := true }
  | .tailError => some { s with out := s.out ++ tailed s.err, ok := true }

def Command.run (proxy : Proxy) (s : Shell) : Command → Option Shell
  | .line c => if s.exited then some s else c.run proxy s
  | .onFailure body =>
      if s.exited || s.ok then some s
      else (body.foldlM (Simple.run proxy) s).map fun s => { s with exited := true }

/-- The host and the output after a script; `none` where the content is read as commands. -/
def Script.run (proxy : Proxy) (host : CaddyHost) (script : Script) : Option (CaddyHost × Text) :=
  (script.foldlM (Command.run proxy) ⟨host, [], [], true, false⟩).map fun s => (s.host, s.out)

/-! ## What is reported -/

inductive RouteWriteKind
  | wrote | rejected | reloadFailed | unknown
deriving DecidableEq

structure RouteWriteOutcome where
  ok : Bool
  kind : RouteWriteKind
  detail : Text
deriving DecidableEq

/-- `parseRouteWrite(stdout)` -/
def parseRouteWrite (stdout : Text) : RouteWriteOutcome :=
  match section? "wrote".toList stdout with
  | some _ => ⟨true, .wrote, []⟩
  | none =>
      match section? "invalid".toList stdout with
      | some detail => ⟨false, .rejected, detail⟩
      | none =>
          match section? "failed".toList stdout with
          | some detail => ⟨false, .reloadFailed, detail⟩
          | none => ⟨false, .unknown, []⟩

end Vops.CaddyScripts
