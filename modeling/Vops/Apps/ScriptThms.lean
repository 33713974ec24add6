import Vops.Apps.AppRuns
import Vops.Lib.Shell

/-!
# What the host reads of a script

* `PlanScript.Harmless` — the values of a script that are not quoted are plain where they stand, and no value
  has a null character.
* `lines_pull`, `lines_status`, `lines_smokeHttp`, `lines_diag`, `lines_postInstall` — the lines of the scripts.
* `planScripts_asWritten_iff` — the scripts of a plan are read as their templates mean exactly when they are
  harmless.
-/

/-!
## The scripts around a deploy (`apps/app-scripts.ts`, `apps/post-install.ts`)

* `Line`, `Script` — a script by its lines, and a line by the text of its template and by what is put into it:
  a number, a value as it is, or one that `shq` quotes.
* `buildPullScript`, `buildStatusScript`, `buildSmokeHttpScript`, `buildDiagScript`, `buildPostInstallScript` — the
  scripts.
* `PlanScript`, `planScripts` — the scripts that are run for a plan, and `asks_pullImages`, `asks_gatherDiag`,
  `asks_runSmoke`, `asks_runPostInstall`: its programs ask for no others.

The scripts that test a port or restart an app are left out.
-/

namespace Vops.Apps

open Async (AllOps)
open VopsApps (smokesHttp startupWindow pullImages gatherDiag runSmoke runPostInstall)

/-! ## Lines -/

/-- A line of a script. -/
abbrev Line := List Shell.Piece

/-- A script. -/
abbrev Script := List Line

/-- What is sent to the host. -/
def Script.text (script : Script) : String := String.ofList (Shell.textOf (Shell.joined script))

/-- Text of a template. -/
abbrev code (text : String) : Shell.Piece := .code text.toList

/-- A value as it is. -/
abbrev bare (value : String) : Shell.Piece := .bare value.toList

/-- A value that `shq` quotes. -/
abbrev quoted (value : String) : Shell.Piece := .quoted value.toList

theorem toList_shq (value : String) : (shq value).toList = (quoted value).text := by
  have hjoin (texts : List String) : (String.join texts).toList = texts.flatMap String.toList := by
    induction texts with
    | nil => rfl
    | cons t texts ih => rw [String.join_cons, String.toList_append, ih, List.flatMap_cons]
  have hchar (c : Char) : (if c = '\'' then "'\\''" else c.toString).toList = Shell.escapeQuote c := by
    unfold Shell.escapeQuote
    split_ifs
    · rfl
    · simp
  simp only [shq, String.toList_append, hjoin, List.flatMap_map, hchar]
  rfl

/-! ## The scripts -/

/-- `PULL_SECONDS_PER_IMAGE` -/
def PULL_SECONDS_PER_IMAGE : ℕ := 600

/-- `PULL_SECONDS_MAX` -/
def PULL_SECONDS_MAX : ℕ := 2400

/-- `pullBudgetSeconds` -/
def pullBudgetSeconds (imageCount : ℕ) : ℕ := min PULL_SECONDS_MAX (PULL_SECONDS_PER_IMAGE * max 1 imageCount)

/-- `registryLogin` -/
def registryLogin (r : RegistryLogin) : Line :=
  [code "printf %s ", quoted r.token, code " | podman login ", quoted r.host, code " -u ", quoted r.user,
    code " --password-stdin >/dev/null 2>&1 || \x7b echo '@@error'; echo \"podman login ", bare r.host,
    code " failed (check the token scope: it needs read access to packages)\"; exit 5; \x7d"]

/-- The line of a deadline. -/
def deadline (seconds : ℤ) : Line := [code "deadline=$(( $(date +%s) + ", .number seconds, code " ))"]

/-- The lines of `buildPullScript` behind its deadline. -/
def pullFunction : Script :=
  [[code "TMO=; command -v timeout >/dev/null 2>&1 && TMO=1"],
    [code "vops_pull() \x7b"],
    [code "  if podman image exists \"$1\"; then echo \"local $1\"; return; fi"],
    [code "  left=$(( deadline - $(date +%s) ))"],
    [code "  [ \"$left\" -lt 5 ] && left=5"],
    [code "  if [ -n \"$TMO\" ]; then timeout \"$left\" podman pull -q \"$1\" >/dev/null 2>&1;"],
    [code "  else podman pull -q \"$1\" >/dev/null 2>&1; fi"],
    [code "  if [ $? -eq 0 ]; then echo \"pulled $1\"; else echo \"failed $1\"; fi"],
    [code "\x7d"],
    [code "echo '@@pull'"]]

/-- The line of `buildPullScript` for an image. -/
def pullLine (img : String) : Line := [code "vops_pull ", quoted img]

/-- `buildPullScript` -/
def buildPullScript (images : List String) (registry : Option RegistryLogin) : Script :=
  let images := images.eraseDups
  [[code "set +e"]] ++ registry.toList.map registryLogin ++ [deadline (pullBudgetSeconds images.length)] ++
    pullFunction ++ images.map pullLine ++ [[code "echo '@@done'"]]

/-- The line of `statusTrailerLines` for a service. -/
def unitStatus (s : String) : Line :=
  [code "echo \"", bare s, code "|$(systemctl is-active ", quoted s,
    code " 2>/dev/null)|$(systemctl show -p SubState --value ", quoted s, code " 2>/dev/null)\""]

/-- The line of `statusTrailerLines` for the containers of an app. -/
def containersLine (app : String) : Line :=
  [code "podman ps -a --filter name=vops-", bare app,
    code "- --format '\x7b\x7b.Names\x7d\x7d|\x7b\x7b.Status\x7d\x7d|\x7b\x7b.Image\x7d\x7d' 2>/dev/null"]

/-- `statusTrailerLines` -/
def statusTrailerLines (app : String) (services : List String) : Script :=
  [[code "echo '@@units'"]] ++ services.map unitStatus ++
    [[code "echo '@@containers'"], containersLine app]

/-- `buildStatusScript` -/
def buildStatusScript (app : String) (services : List String) : Script :=
  [[code "set +e"]] ++ statusTrailerLines app services

/-- `deadlineLoopHead` -/
def deadlineLoopHead (budgetSeconds : ℤ) : Script :=
  [deadline (max 1 budgetSeconds), [code "while :; do"]]

/-- `deadlineLoopTail` -/
def deadlineLoopTail (sleepS : ℤ) : Script :=
  [[code "  [ \"$(date +%s)\" -ge \"$deadline\" ] && break"], [code "  sleep ", .number sleepS], [code "done"]]

/-- The path that `buildSmokeHttpScript` asks for. -/
def rooted (path : String) : String := if path.startsWith "/" then path else "/" ++ path

/-- The request of `buildSmokeHttpScript`. -/
def requestLine (port : ℤ) (path : String) : Line :=
  [code "  code=$(curl -s -o /dev/null -w '%\x7bhttp_code\x7d' --max-time 5 http://127.0.0.1:", .number port,
    bare (rooted path), code " 2>/dev/null)"]

/-- What `buildSmokeHttpScript` does with the answer. -/
def answerLine (expect : ℤ) : Line :=
  [code "  case \"$code\" in ", .number expect, code "|2??|3??) echo \"$code\"; exit 0;; esac"]

/-- `buildSmokeHttpScript` -/
def buildSmokeHttpScript (port : ℤ) (path : String) (expect budgetSeconds sleepS : ℤ) : Script :=
  [[code "set +e"], [code "echo '@@http'"]] ++ deadlineLoopHead budgetSeconds ++
    [requestLine port path, answerLine expect] ++ deadlineLoopTail sleepS ++
    [[code "echo \"$\x7bcode:-000\x7d\""]]

/-- The line of `buildDiagScript` for the containers of an app. -/
def statesLine (app : String) : Line :=
  [code "podman ps -a --filter name=vops-", bare app,
    code "- --format '\x7b\x7b.Names\x7d\x7d | \x7b\x7b.Status\x7d\x7d | \x7b\x7b.Ports\x7d\x7d' 2>&1"]

/-- The line of `buildDiagScript` for the log of a container. -/
def logLine (container : String) : Line :=
  [code "podman logs --tail 25 ", quoted container, code " 2>&1 | tail -25"]

/-- `buildDiagScript` -/
def buildDiagScript (app primaryContainer : String) : Script :=
  [[code "set +e"], [code "echo '@@ps'"], statesLine app, [code "echo '@@log'"], logLine primaryContainer]

/-- The line of `buildPostInstallScript` that runs a step. -/
def execLine (r : PostInstallRun) : Line :=
  [code "OUT=$(podman exec ", quoted r.container, code " "] ++ Shell.words (r.command.map String.toList) ++
    [code " 2>&1); RC=$?"]

/-- The line of `buildPostInstallScript` that says how a step ended. -/
def resultLine (name : String) : Line := [code "echo \"", bare name, code "=$RC\""]

/-- The line of `buildPostInstallScript` that keeps what a failed step printed. -/
def failureLine (name : String) : Line :=
  [code "[ \"$RC\" -eq 0 ] || \x7b echo \"### ", bare name,
    code "\" >>\"$VOPS_PI_FAIL\"; echo \"$OUT\" | tail -6 >>\"$VOPS_PI_FAIL\"; \x7d"]

/-- The lines of `buildPostInstallScript` for a step. -/
def stepLines (r : PostInstallRun) : Script := [execLine r, resultLine r.name, failureLine r.name]

/-- The line of `buildPostInstallScript` for a service. -/
def restartLine (s : String) : Line :=
  [code "systemctl restart ", quoted s, code " >/dev/null 2>&1; echo \"", bare s,
    code "=$(systemctl is-active ", quoted s, code " 2>/dev/null)\""]

/-- `buildPostInstallScript` -/
def buildPostInstallScript (runs : List PostInstallRun) (services : List String) : Script :=
  [[code "set +e"], [code "VOPS_PI_FAIL=$(mktemp)"], [code "echo '@@steps'"]] ++ runs.flatMap stepLines ++
    [[code "echo '@@restart'"]] ++ services.map restartLine ++
    [[code "echo '@@diag'"],
      [code "cat \"$VOPS_PI_FAIL\" 2>/dev/null; rm -f \"$VOPS_PI_FAIL\""], [code "echo '@@done'"]]

/-! ## What is run for a plan -/

/-- The scripts. -/
inductive PlanScript
  | pull (images : List String) (registry : Option RegistryLogin)
  | status (app : String) (services : List String)
  | smokeHttp (port : ℤ) (path : String) (expect budgetSeconds : ℤ)
  | diag (app primaryContainer : String)
  | postInstall (runs : List PostInstallRun) (services : List String)
deriving DecidableEq

/-- What is built. -/
def PlanScript.script : PlanScript → Script
  | pull images registry => buildPullScript images registry
  | status app services => buildStatusScript app services
  | smokeHttp port path expect budgetSeconds => buildSmokeHttpScript port path expect budgetSeconds 5
  | diag app primaryContainer => buildDiagScript app primaryContainer
  | postInstall runs services => buildPostInstallScript runs services

/-- The script of `runSmoke`, where it asks over HTTP. -/
def smokeScript (plan : FullAppPlan) (hp : HostDeployPlan) : Option PlanScript :=
  if plan.smokeTest.any fun st => st.type == .skip then none
  else ((hp.ports.get? plan.primary).getD []).head?.bind fun published =>
    if smokesHttp plan then
      some (.smokeHttp published.host ((plan.smokeTest.bind SmokeTestPlan.path).getD "/")
        ((plan.smokeTest.bind SmokeTestPlan.expectedStatus).getD 200) (startupWindow plan.smokeTest))
    else none

/-- The script of `gatherDiag`. -/
def diagScript (plan : FullAppPlan) : PlanScript :=
  let primary := (plan.components.find? fun c => c.name == plan.primary).orElse fun _ => plan.components.head?
  .diag plan.name ((primary.map fun c => containerName plan.name c.name).getD "")

/-- The script of `statusView`. -/
def statusScript (install : AppInstallV1) : PlanScript :=
  .status install.name (install.components.map fun c => c.container ++ ".service")

/-- The scripts that are run for a plan and for its record. -/
def planScripts (plan : FullAppPlan) (hp : HostDeployPlan) (install : AppInstallV1)
    (registry : Option RegistryLogin) (runs : List PostInstallRun) : List PlanScript :=
  [.pull (plan.components.map FullComponentPlan.image) registry, statusScript install, diagScript plan] ++
    (smokeScript plan hp).toList ++ if runs = [] then [] else [.postInstall runs hp.services]

/-- The script that is asked for. -/
def RemoteScript.planScript : RemoteScript → Option PlanScript
  | pull images registry => some (.pull images registry)
  | smokeHttp port path expect window => some (.smokeHttp port path expect window)
  | diag app container => some (.diag app container)
  | postInstall runs services => some (.postInstall runs services)
  | _ => none

/-- Of the scripts, an operation asks for no others. -/
def Asks (scripts : List PlanScript) : AppOp → Prop
  | .runScript _ script => ∀ s ∈ script.planScript, s ∈ scripts
  | _ => True

end Vops.Apps

namespace Vops.Apps

open Shell (Leads Lines isPlain isPlainInQuotes runs)

/-! ## Harmless values -/

/-- A value that can be an argument. -/
def NoNull (value : String) : Prop := '\x00' ∉ value.toList

/-- A value in front of a character, outside of quotes. -/
def PlainBefore (c : Char) (value : String) : Prop := isPlain value.toList (some c) = true

/-- A value in front of a character, in double quotes. -/
def PlainInQuotesBefore (c : Char) (value : String) : Prop := isPlainInQuotes value.toList (some c) = true

/-- The values of a script are kept as they are. -/
def PlanScript.Harmless : PlanScript → Prop
  | pull images registry => (∀ r ∈ registry, NoNull r.token ∧ NoNull r.host ∧ NoNull r.user ∧
      PlainInQuotesBefore ' ' r.host) ∧ ∀ image ∈ images, NoNull image
  | status app services => (∀ s ∈ services, NoNull s ∧ PlainInQuotesBefore '|' s) ∧ PlainBefore '-' app
  | smokeHttp _ path _ _ => PlainBefore ' ' (rooted path)
  | diag app primaryContainer => PlainBefore '-' app ∧ NoNull primaryContainer
  | postInstall runs services => (∀ r ∈ runs, NoNull r.container ∧ (∀ arg ∈ r.command, NoNull arg) ∧
      PlainInQuotesBefore '=' r.name ∧ PlainInQuotesBefore '"' r.name) ∧
      ∀ s ∈ services, NoNull s ∧ PlainInQuotesBefore '=' s

/-! ## Lines -/

/-- Between the words of a command. -/
abbrev between : Shell.State := [.script none false]

/-- In a word. -/
abbrev within : Shell.State := [.script none true]

/-- In double quotes. -/
abbrev inDouble : Shell.State := .double :: within

/-- In a substitution. -/
abbrev inSubst (mid : Bool) (below : Shell.State) : Shell.State := .script (some ')') mid :: below

/-- In an arithmetic expansion. -/
abbrev inArith : Shell.State := .arith 0 :: within

/-- A line without values that leaves nothing open. -/
def isClosed (line : Line) : Bool :=
  Shell.ends between line == some between || Shell.ends between line == some within

theorem lines_closed {lines : Script} (hcode : ∀ line ∈ lines, ∃ text, line = [.code text])
    (h : lines.all isClosed = true) : Lines lines True := by
  have hline (line : Line) (hmem : line ∈ lines) : Shell.ends between line = some between ∨
      Shell.ends between line = some within := by
    simpa [isClosed] using List.all_eq_true.mp h line hmem
  refine ⟨hline, iff_of_true (fun line hmem => ?_) trivial⟩
  obtain ⟨text, rfl⟩ := hcode line hmem
  trivial

/-- What the lines of the templates leave open, and what they ask of their values. -/
structure TemplateLines : Prop where
  deadline (seconds : ℤ) : Leads between (deadline seconds) True within
  login (r : RegistryLogin) : Leads between (registryLogin r)
    (NoNull r.token ∧ NoNull r.host ∧ NoNull r.user ∧ PlainInQuotesBefore ' ' r.host ∧ True) within
  pull (img : String) : Leads between (pullLine img) (NoNull img ∧ True) within
  unitStatus (s : String) : Leads between (unitStatus s)
    (PlainInQuotesBefore '|' s ∧ NoNull s ∧ NoNull s ∧ True) within
  containers (app : String) : Leads between (containersLine app) (PlainBefore '-' app ∧ True) within
  request (port : ℤ) (path : String) : Leads between (requestLine port path)
    (PlainBefore ' ' (rooted path) ∧ True) within
  answer (expect : ℤ) : Leads between (answerLine expect) True within
  sleep (seconds : ℤ) : Leads between [code "  sleep ", .number seconds] True within
  states (app : String) : Leads between (statesLine app) (PlainBefore '-' app ∧ True) within
  log (container : String) : Leads between (logLine container) (NoNull container ∧ True) within
  exec (r : PostInstallRun) : Leads between (execLine r)
    (NoNull r.container ∧ (∀ value ∈ r.command.map String.toList, '\x00' ∉ value) ∧ True) within
  result (name : String) : Leads between (resultLine name) (PlainInQuotesBefore '=' name ∧ True) within
  failure (name : String) : Leads between (failureLine name) (PlainInQuotesBefore '"' name ∧ True) within
  restart (s : String) : Leads between (restartLine s)
    (NoNull s ∧ PlainInQuotesBefore '=' s ∧ NoNull s ∧ True) within
  set : Lines [[code "set +e"]] True
  function : Lines pullFunction True
  done : Lines [[code "echo '@@done'"]] True
  units : Lines [[code "set +e"], [code "echo '@@units'"]] True
  containing : Lines [[code "echo '@@containers'"]] True
  http : Lines [[code "set +e"], [code "echo '@@http'"]] True
  loop : Lines [[code "while :; do"]] True
  late : Lines [[code "  [ \"$(date +%s)\" -ge \"$deadline\" ] && break"]] True
  answered : Lines [[code "done"], [code "echo \"$\x7bcode:-000\x7d\""]] True
  ps : Lines [[code "set +e"], [code "echo '@@ps'"]] True
  logged : Lines [[code "echo '@@log'"]] True
  steps : Lines [[code "set +e"], [code "VOPS_PI_FAIL=$(mktemp)"], [code "echo '@@steps'"]] True
  restarted : Lines [[code "echo '@@restart'"]] True
  failures : Lines [[code "echo '@@diag'"], [code "cat \"$VOPS_PI_FAIL\" 2>/dev/null; rm -f \"$VOPS_PI_FAIL\""],
    [code "echo '@@done'"]] True

/-- Each part of a template leads from what the part before it leaves open. -/
theorem templateLines : TemplateLines where
  deadline _ := .literal inArith (by decide +kernel) <| .number rfl <|
    .literal within (by decide +kernel) .nil
  login _ := .literal between (by decide +kernel) <| .quoted rfl <| .literal between (by decide +kernel) <|
    .quoted rfl <| .literal between (by decide +kernel) <| .quoted rfl <|
    .literal inDouble (by decide +kernel) <| .inQuotes ' ' (by decide +kernel) <|
    .literal within (by decide +kernel) .nil
  pull _ := .literal between (by decide +kernel) <| .quoted rfl .nil
  unitStatus _ := .literal inDouble (by decide +kernel) <| .inQuotes '|' (by decide +kernel) <|
    .literal (inSubst false inDouble) (by decide +kernel) <| .quoted rfl <|
    .literal (inSubst false inDouble) (by decide +kernel) <| .quoted rfl <|
    .literal within (by decide +kernel) .nil
  containers _ := .literal within (by decide +kernel) <| .bare '-' rfl (by decide +kernel) <|
    .literal within (by decide +kernel) .nil
  request _ _ := .literal (inSubst true within) (by decide +kernel) <| .number rfl <|
    .bare ' ' rfl (by decide +kernel) <| .literal within (by decide +kernel) .nil
  answer _ := .literal between (by decide +kernel) <| .number rfl <| .literal within (by decide +kernel) .nil
  sleep _ := .literal between (by decide +kernel) <| .number rfl .nil
  states _ := .literal within (by decide +kernel) <| .bare '-' rfl (by decide +kernel) <|
    .literal within (by decide +kernel) .nil
  log _ := .literal between (by decide +kernel) <| .quoted rfl <| .literal within (by decide +kernel) .nil
  exec r := by
    have hredirect (mid : Bool) : Leads (inSubst mid within) [code " 2>&1); RC=$?"] True within := by
      cases mid with
      | false => exact .literal within (by decide +kernel) .nil
      | true => exact .literal within (by decide +kernel) .nil
    exact .literal (inSubst false within) (by decide +kernel) <| .quoted rfl <|
      .literal (inSubst false within) (by decide +kernel) <| .words rfl hredirect false
  result _ := .literal inDouble (by decide +kernel) <| .inQuotes '=' (by decide +kernel) <|
    .literal within (by decide +kernel) .nil
  failure _ := .literal inDouble (by decide +kernel) <| .inQuotes '"' (by decide +kernel) <|
    .literal within (by decide +kernel) .nil
  restart _ := .literal between (by decide +kernel) <| .quoted rfl <| .literal inDouble (by decide +kernel) <|
    .inQuotes '=' (by decide +kernel) <| .literal (inSubst false inDouble) (by decide +kernel) <|
    .quoted rfl <| .literal within (by decide +kernel) .nil
  set := lines_closed (by simp) (by decide +kernel)
  function := lines_closed (by simp [pullFunction]) (by decide +kernel)
  done := lines_closed (by simp) (by decide +kernel)
  units := lines_closed (by simp) (by decide +kernel)
  containing := lines_closed (by simp) (by decide +kernel)
  http := lines_closed (by simp) (by decide +kernel)
  loop := lines_closed (by simp) (by decide +kernel)
  late := lines_closed (by simp) (by decide +kernel)
  answered := lines_closed (by simp) (by decide +kernel)
  ps := lines_closed (by simp) (by decide +kernel)
  logged := lines_closed (by simp) (by decide +kernel)
  steps := lines_closed (by simp) (by decide +kernel)
  restarted := lines_closed (by simp) (by decide +kernel)
  failures := lines_closed (by simp) (by decide +kernel)

theorem lines_map {α : Type} {f : α → Line} {C : α → Prop} (h : ∀ x, Leads between (f x) (C x) within)
    (xs : List α) : Lines (xs.map f) (∀ x ∈ xs, C x ∧ True) := by
  rw [List.map_eq_flatMap]
  exact .flatMap (fun x => .cons (h x) .nil) xs

/-- The lines of `buildPullScript`. -/
theorem lines_pull (images : List String) (registry : Option RegistryLogin) :
    Lines (buildPullScript images registry) (PlanScript.pull images registry).Harmless := by
  have h := templateLines
  have hhead := (h.set.append (lines_map h.login registry.toList)).append
    (.cons (h.deadline (pullBudgetSeconds images.eraseDups.length)) .nil)
  refine (((hhead.append h.function).append (lines_map h.pull images.eraseDups)).append h.done).congr ?_
  simp [PlanScript.Harmless]

/-- The lines of `buildStatusScript`. -/
theorem lines_status (app : String) (services : List String) :
    Lines (buildStatusScript app services) (PlanScript.status app services).Harmless := by
  have h := templateLines
  refine ((h.units.append (lines_map h.unitStatus services)).append
    (h.containing.append (.cons (h.containers app) .nil))).congr ?_
  simp [PlanScript.Harmless, and_comm]

/-- The lines of `buildSmokeHttpScript`. -/
theorem lines_smokeHttp (port : ℤ) (path : String) (expect budgetSeconds : ℤ) :
    Lines (buildSmokeHttpScript port path expect budgetSeconds 5)
      (PlanScript.smokeHttp port path expect budgetSeconds).Harmless := by
  have h := templateLines
  have hhead := h.http.append (.cons (h.deadline (max 1 budgetSeconds)) h.loop)
  have hrequest : Lines [requestLine port path, answerLine expect] _ :=
    .cons (h.request port path) (.cons (h.answer expect) .nil)
  refine ((hhead.append hrequest).append (h.late.append (.cons (h.sleep 5) h.answered))).congr ?_
  simp [PlanScript.Harmless]

/-- The lines of `buildDiagScript`. -/
theorem lines_diag (app primaryContainer : String) :
    Lines (buildDiagScript app primaryContainer) (PlanScript.diag app primaryContainer).Harmless := by
  have h := templateLines
  refine (h.ps.append (.cons (h.states app) (h.logged.append (.cons (h.log primaryContainer) .nil)))).congr ?_
  simp [PlanScript.Harmless]

/-- The lines of `buildPostInstallScript` for a step. -/
theorem lines_step (r : PostInstallRun) : Lines (stepLines r) (NoNull r.container ∧
    (∀ arg ∈ r.command, NoNull arg) ∧ PlainInQuotesBefore '=' r.name ∧ PlainInQuotesBefore '"' r.name) := by
  have h := templateLines
  refine (Lines.cons (h.exec r) (.cons (h.result r.name) (.cons (h.failure r.name) .nil))).congr ?_
  simp [NoNull, and_assoc]

/-- The lines of `buildPostInstallScript`. -/
theorem lines_postInstall (runs : List PostInstallRun) (services : List String) :
    Lines (buildPostInstallScript runs services) (PlanScript.postInstall runs services).Harmless := by
  have h := templateLines
  refine ((((h.steps.append (.flatMap lines_step runs)).append h.restarted).append
    (lines_map h.restart services)).append h.failures).congr ?_
  simp only [PlanScript.Harmless, true_and, and_true]
  exact and_congr_right fun _ => forall₂_congr fun s _ => by tauto

/-! ## The scripts of a plan -/

theorem lines_script (s : PlanScript) : Lines s.script s.Harmless := by
  cases s with
  | pull images registry => exact lines_pull images registry
  | status app services => exact lines_status app services
  | smokeHttp port path expect budgetSeconds => exact lines_smokeHttp port path expect budgetSeconds
  | diag app primaryContainer => exact lines_diag app primaryContainer
  | postInstall runs services => exact lines_postInstall runs services

/-- The scripts of a plan are read as their templates mean exactly when their values are harmless. -/
theorem planScripts_asWritten_iff (plan : FullAppPlan) (hp : HostDeployPlan) (install : AppInstallV1)
    (registry : Option RegistryLogin) (runs : List PostInstallRun) :
    (∀ s ∈ planScripts plan hp install registry runs, Shell.AsWritten s.script) ↔
      ∀ s ∈ planScripts plan hp install registry runs, s.Harmless :=
  forall₂_congr fun s _ => (lines_script s).asWritten_iff

namespace Grafana

/-- The plan of an app whose health is asked for with two parameters. -/
def plan : FullAppPlan where
  name := "grafana"
  appId := "grafana"
  pod := none
  components := [⟨"app", "grafana:1", [], [], [(⟨3000, true, .http⟩, none)], [], none, none, none, [], none⟩]
  primary := "app"
  smokeTest := some ⟨.http, some "/api/health?db=1&full=1", some 200, none, none, none⟩
  domain := none
  needsAppDomain := false
  access := none
  authMode := none
  exposure := none
  warnings := []

/-- What is bound to its host. -/
def hostPlan : HostDeployPlan where
  unitDir := "/etc/containers/systemd/vops/grafana"
  coexistence := false
  ports := .ofEntries [("app", [⟨3000, 3000, "127.0.0.1"⟩])]
  units := .empty
  healthUnits := .empty
  secrets := []
  services := ["vops-grafana-app.service"]
  prereqServices := []
  volumes := []
  pod := none
  endpoints := []

/-- Its record. -/
def install : AppInstallV1 where
  name := "grafana"
  pod := none
  primary := "app"
  components := [⟨"app", "vops-grafana-app", "grafana:1", [⟨3000, 3000, "127.0.0.1"⟩]⟩]
  units := .empty
  secrets := []
  volumes := []
  endpoints := []
  status := .deployed

/-- The second parameter is not a part of what is asked for. -/
theorem probe_split : ¬∀ s ∈ planScripts plan hostPlan install none [], Shell.AsWritten s.script := by
  intro h
  have hs := h (.smokeHttp 3000 "/api/health?db=1&full=1" 200 120) (by decide +kernel)
  have hplain : PlainBefore ' ' (rooted "/api/health?db=1&full=1") := (lines_script _).asWritten_iff.mp hs
  exact absurd hplain (by unfold PlainBefore; decide +kernel)

end Grafana

end Vops.Apps
