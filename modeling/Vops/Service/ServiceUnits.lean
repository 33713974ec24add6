import Mathlib.Data.List.Basic

/-!
# The units of the background service (`service/`)

* `ServiceContext`, `serviceEnv` — what a unit needs, and the environment of the service.
* `Systemd.renderUnit`, `Launchd.renderPlist`, `Schtasks.renderTaskXml` — the unit for each platform.
-/

namespace Vops.Service

/-- `ServiceContext` -/
structure ServiceContext where
  node : String
  binRun : String
  profile : String
  configDir : Option String
  port : ℕ
  label : String
  logPath : String
  user : String

/-- `serviceEnv` -/
def serviceEnv (ctx : ServiceContext) : List (String × String) :=
  [("VOPS_PORT", toString ctx.port), ("VOPS_PROFILE", ctx.profile)] ++
    match ctx.configDir with
    | some configDir => if configDir = "" then [] else [("VOPS_CONFIG_DIR", configDir)]
    | none => []

/-- `s.replaceAll(c, text)` -/
def replaceAll (c : Char) (text s : String) : String :=
  String.ofList (s.toList.flatMap fun d => if d = c then text.toList else [d])

namespace Systemd

/-- `quote` -/
def quote (v : String) : String :=
  let escaped := replaceAll '"' "\\\"" (replaceAll '\\' "\\\\" v)
  s!"\"{escaped}\""

/-- `renderUnit` -/
def renderUnit (ctx : ServiceContext) : String :=
  let env := "\n".intercalate ((serviceEnv ctx).map fun (k, v) => s!"Environment={k}={quote v}")
  s!"[Unit]
Description=vops local dashboard and metrics collector
Documentation=https://vops.flui.cloud
After=network-online.target

[Service]
Type=simple
ExecStart={quote ctx.node} {quote ctx.binRun} ui --no-open
Restart=always
RestartSec=3
{env}

[Install]
WantedBy=default.target
"

end Systemd

namespace Launchd

/-- `AGENT_PATH` -/
def AGENT_PATH : String := "/opt/homebrew/bin:/usr/local/bin:/usr/bin:/bin"

/-- `escapeXml` -/
def escapeXml (s : String) : String :=
  replaceAll '>' "&gt;" (replaceAll '<' "&lt;" (replaceAll '&' "&amp;" s))

/-- `renderPlist` -/
def renderPlist (ctx : ServiceContext) : String :=
  let args := "\n".intercalate ([ctx.node, ctx.binRun, "ui", "--no-open"].map fun a =>
    s!"      <string>{escapeXml a}</string>")
  let env := "\n".intercalate ((("PATH", AGENT_PATH) :: serviceEnv ctx).map fun (k, v) =>
    s!"    <key>{escapeXml k}</key>\n    <string>{escapeXml v}</string>")
  let log := escapeXml ctx.logPath
  s!"<?xml version=\"1.0\" encoding=\"UTF-8\"?>
<!DOCTYPE plist PUBLIC \"-//Apple//DTD PLIST 1.0//EN\" \"http://www.apple.com/DTDs/PropertyList-1.0.dtd\">
<plist version=\"1.0\">
<dict>
  <key>Label</key>
  <string>{escapeXml ctx.label}</string>
  <key>ProgramArguments</key>
  <array>
{args}
  </array>
  <key>RunAtLoad</key>
  <true/>
  <key>KeepAlive</key>
  <true/>
  <key>StandardOutPath</key>
  <string>{log}</string>
  <key>StandardErrorPath</key>
  <string>{log}</string>
  <key>EnvironmentVariables</key>
  <dict>
{env}
  </dict>
</dict>
</plist>
"

end Launchd

namespace Schtasks

/-- `TASK_NAME` -/
def TASK_NAME : String := "vops"

/-- `escapeXml` -/
def escapeXml (s : String) : String :=
  replaceAll '"' "&quot;" (replaceAll '>' "&gt;" (replaceAll '<' "&lt;" (replaceAll '&' "&amp;" s)))

/-- `command` of `renderTaskXml` -/
def command (ctx : ServiceContext) : String :=
  let env := " && ".intercalate ((serviceEnv ctx).map fun (k, v) => s!"set {k}={v}")
  s!"{env} && \"{ctx.node}\" \"{ctx.binRun}\" ui --no-open"

/-- `renderTaskXml`, with `os.homedir()` -/
def renderTaskXml (homedir : String) (ctx : ServiceContext) : String :=
  s!"<?xml version=\"1.0\" encoding=\"UTF-16\"?>
<Task version=\"1.2\" xmlns=\"http://schemas.microsoft.com/windows/2004/02/mit/task\">
  <RegistrationInfo>
    <Description>vops local dashboard and metrics collector</Description>
    <URI>\\{TASK_NAME}</URI>
  </RegistrationInfo>
  <Triggers>
    <LogonTrigger>
      <Enabled>true</Enabled>
      <UserId>{escapeXml ctx.user}</UserId>
    </LogonTrigger>
  </Triggers>
  <Principals>
    <Principal id=\"Author\">
      <UserId>{escapeXml ctx.user}</UserId>
      <LogonType>InteractiveToken</LogonType>
      <RunLevel>LeastPrivilege</RunLevel>
    </Principal>
  </Principals>
  <Settings>
    <MultipleInstancesPolicy>IgnoreNew</MultipleInstancesPolicy>
    <DisallowStartIfOnBatteries>false</DisallowStartIfOnBatteries>
    <StopIfGoingOnBatteries>false</StopIfGoingOnBatteries>
    <AllowHardTerminate>true</AllowHardTerminate>
    <StartWhenAvailable>true</StartWhenAvailable>
    <RunOnlyIfNetworkAvailable>false</RunOnlyIfNetworkAvailable>
    <IdleSettings>
      <StopOnIdleEnd>false</StopOnIdleEnd>
      <RestartOnIdle>false</RestartOnIdle>
    </IdleSettings>
    <AllowStartOnDemand>true</AllowStartOnDemand>
    <Enabled>true</Enabled>
    <Hidden>true</Hidden>
    <RunOnlyIfIdle>false</RunOnlyIfIdle>
    <RestartOnFailure>
      <Interval>PT1M</Interval>
      <Count>3</Count>
    </RestartOnFailure>
    <ExecutionTimeLimit>PT0S</ExecutionTimeLimit>
    <Priority>7</Priority>
  </Settings>
  <Actions Context=\"Author\">
    <Exec>
      <Command>cmd.exe</Command>
      <Arguments>/c {escapeXml (command ctx)}</Arguments>
      <WorkingDirectory>{escapeXml homedir}</WorkingDirectory>
    </Exec>
  </Actions>
</Task>
"

end Schtasks

end Vops.Service
