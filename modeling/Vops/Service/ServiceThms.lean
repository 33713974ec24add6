import Vops.Lib.CommandPrompt
import Vops.Lib.Numerals
import Vops.Lib.UnitFile
import Vops.Lib.Xml
import Vops.Service.ServiceUnits

/-!
# The service does not run what was installed

* `Schtasks.arguments_task` — the arguments of the task are `/c` and the command, whatever is in it.
* `Schtasks.not_isInstalled` — what the command sets first is the port with a blank behind it, and no name in
  the rest of the line can repair that: the line is too short.
* `not_runsInstalled` — so on no input the service runs what was installed.
-/

/-!
## What a unit of the service runs

* `Launch` — the arguments of a program, and its environment.
* `Systemd.read`, `Launchd.read`, `Schtasks.read` — what systemd, launchd and the task scheduler start.
* `RunsInstalled` — each of them starts what was installed.
-/

namespace Vops.Service

/-- What is started. -/
structure Launch where
  argv : List (List Char)
  env : List Char → Option (List Char)

/-- What was installed is started: the arguments are these, and the variables have their values. -/
structure Launch.IsInstalled (l : Launch) (ctx : ServiceContext) : Prop where
  argv : l.argv = [ctx.node, ctx.binRun, "ui", "--no-open"].map String.toList
  env : ∀ p ∈ serviceEnv ctx, l.env p.1.toList = some p.2.toList

namespace Systemd

/-- What an escape stands for; the numeric ones are left out. -/
def escaped (c : Char) : Option Char :=
  [('a', '\x07'), ('b', '\x08'), ('f', '\x0c'), ('n', '\n'), ('r', '\r'), ('t', '\t'), ('v', '\x0b'),
    ('\\', '\\'), ('"', '"'), ('\'', '\''), ('s', ' ')].lookup c

/-- The escapes in the words of a setting. -/
def escapes : Escapes where
  decode cs := cs.head?.bind fun c => (escaped c).map fun d => (d, 1)
  taken := by
    rintro (_ | ⟨c, cs⟩) d n h
    · cases h
    · rw [List.head?_cons, Option.bind_some] at h
      obtain ⟨e, -, he⟩ := Option.map_eq_some_iff.mp h
      obtain ⟨-, rfl⟩ := Prod.mk.inj he
      exact ⟨Nat.one_pos, Nat.succ_le_succ (Nat.zero_le _)⟩
  apostrophe := by
    rintro cs c n h
    have hescaped : escaped '\'' = some '\'' := by decide
    rw [List.head?_cons, Option.bind_some, hescaped] at h
    exact (Prod.mk.inj (Option.some.inj h)).1.symm

/-- The specifiers of a word; one that stands for nothing is kept. -/
def specifiers (spec : Char → Option (List Char)) : List Char → List Char
  | [] => []
  | ['%'] => ['%']
  | '%' :: c :: cs => (if c = '%' then ['%'] else (spec c).getD ['%', c]) ++ specifiers spec cs
  | c :: cs => c :: specifiers spec cs

/-- Where a word is read. -/
inductive Dollar
  | plain
  | dollar
  | braces (name : List Char)

/-- The variables in a word. -/
def substitute (env : List Char → Option (List Char)) : Dollar → List Char → List Char
  | .plain, [] => []
  | .dollar, [] => ['$']
  | .braces name, [] => '$' :: '{' :: name
  | .plain, c :: cs => if c = '$' then substitute env .dollar cs else c :: substitute env .plain cs
  | .dollar, c :: cs =>
      if c = '{' then substitute env (.braces []) cs
      else if c = '$' then '$' :: substitute env .plain cs
      else '$' :: c :: substitute env .plain cs
  | .braces name, c :: cs =>
      if c = '}' then (env name).getD [] ++ substitute env .plain cs
      else substitute env (.braces (name ++ [c])) cs

/-- The arguments of a word: a variable that is a word of its own is split into words. -/
def argumentsOf (env : List Char → Option (List Char)) (word : List Char) : List (List Char) :=
  match word with
  | '$' :: c :: name =>
      if c = '{' ∨ c = '$' then [substitute env .plain word]
      else ((env (c :: name)).bind (Words.ofLine escapes)).getD []
  | _ => [substitute env .plain word]

/-- The words of a value, with their specifiers. -/
def wordsOf (spec : Char → Option (List Char)) (value : List Char) : Option (List (List Char)) :=
  (Words.ofLine escapes value).map fun words => words.map (specifiers spec)

/-- A variable and its value. -/
def assignment (word : List Char) : List Char × List Char :=
  (word.takeWhile (· ≠ '='), (word.dropWhile (· ≠ '=')).tail)

/-- The values of a setting of the service. -/
def valuesOf (key : String) (settings : List UnitFile.Setting) : List (List Char) :=
  (settings.filter fun s => s.group = "Service".toList ∧ s.key = key.toList).map UnitFile.Setting.value

/-- The prefixes of a program. -/
def isPrefixSign (c : Char) : Bool := c == '@' || c == '-' || c == ':' || c == '+' || c == '!' || c == '|'

/-- What systemd starts, with its specifiers and the variables of its own environment. -/
def read (spec : Char → Option (List Char)) (vars : List Char → Option (List Char)) (unit : List Char) :
    Option Launch := do
  let settings := UnitFile.read unit
  let assignments ← (valuesOf "Environment" settings).mapM (wordsOf spec)
  let env := fun name => (((assignments.flatten.map assignment).reverse.lookup name).or (vars name))
  match ← (valuesOf "ExecStart" settings).mapM (wordsOf spec) with
  | [program :: words] =>
      some ⟨substitute env .plain (program.dropWhile isPrefixSign) :: words.flatMap (argumentsOf env), env⟩
  | _ => none

end Systemd

namespace Launchd

/-- What launchd starts. -/
def read (plist : List Char) : Option Launch := do
  let es ← Xml.events plist
  let argv ← Xml.stringArray "ProgramArguments".toList es
  let env ← Xml.stringDict "EnvironmentVariables".toList es
  return ⟨argv, fun name => env.lookup name⟩

end Launchd

namespace Schtasks

/-- The line that `cmd.exe` is given by `/c`; where it begins with a quote other rules hold. -/
def lineOf (arguments : List Char) : Option (List Char) :=
  match arguments with
  | '/' :: 'c' :: ' ' :: line => if line.head? = some '"' then none else some line
  | _ => none

/-- What the task scheduler starts, where texts between percent signs stand for what `vars` says. -/
def read (vars : CommandPrompt.Vars) (task : List Char) : Option Launch := do
  let es ← Xml.events task
  let command ← Xml.elementText "Command".toList es
  let line ← (Xml.elementText "Arguments".toList es).bind lineOf
  if command = "cmd.exe".toList then
    (CommandPrompt.read vars line).map fun run => ⟨run.1, run.2⟩
  else none

end Schtasks

/-- What was installed is started, on each platform and in every environment. -/
structure RunsInstalled (homedir : String) (ctx : ServiceContext) : Prop where
  unit : ∀ spec vars, ∃ l, Systemd.read spec vars (Systemd.renderUnit ctx).toList = some l ∧ l.IsInstalled ctx
  plist : ∃ l, Launchd.read (Launchd.renderPlist ctx).toList = some l ∧ l.IsInstalled ctx
  task : ∀ vars, ∃ l, Schtasks.read vars (Schtasks.renderTaskXml homedir ctx).toList = some l ∧
    l.IsInstalled ctx

end Vops.Service

namespace Vops.Service

open CommandPrompt (Vars weight setWeight)

variable {ctx : ServiceContext} {homedir : String}

theorem toList_replaceAll (c : Char) (text s : String) :
    (replaceAll c text s).toList = s.toList.flatMap fun d => if d = c then text.toList else [d] :=
  String.toList_ofList

namespace Schtasks

/-! ## The task -/

/-- How a character is written. -/
def escapeChar (c : Char) : List Char :=
  if c = '&' then "&amp;".toList
  else if c = '<' then "&lt;".toList
  else if c = '>' then "&gt;".toList
  else if c = '"' then "&quot;".toList
  else [c]

theorem escapeXml_eq (s : String) : (escapeXml s).toList = s.toList.flatMap escapeChar := by
  unfold escapeXml
  simp only [toList_replaceAll, List.flatMap_assoc]
  congr 1
  funext c
  unfold escapeChar
  split_ifs with hamp hless hgreater hquote
  · subst hamp
    rfl
  · subst hless
    rfl
  · subst hgreater
    rfl
  · subst hquote
    rfl
  · simp [hless, hgreater, hquote]

theorem written_escapeChar (c : Char) : Xml.Written c (escapeChar c) := by
  unfold escapeChar
  split_ifs with hamp hless hgreater hquote
  · subst hamp
    exact fun _ => rfl
  · subst hless
    exact fun _ => rfl
  · subst hgreater
    exact fun _ => rfl
  · subst hquote
    exact fun _ => rfl
  · exact Xml.written_self hless hamp

theorem leads_escapeXml (content : List Char) (s : String) :
    Xml.Leads content (escapeXml s).toList (content ++ s.toList) [] := by
  rw [escapeXml_eq]
  exact Xml.leads_written written_escapeChar content s.toList

/-- A part of the task that begins with a tag and opens no element of a name. -/
theorem leads_part {s : String} {cs content' name : List Char} (hs : s = String.ofList ('<' :: cs))
    (h : (Xml.run (.tag []) cs).map (fun r => (r.1, Xml.skips name r.2)) = some (.text content', true))
    (content : List Char) : ∃ es, Xml.Leads content s.toList content' es ∧ Xml.skips name es = true := by
  obtain ⟨⟨state, es⟩, hrun, heq⟩ := Option.map_eq_some_iff.mp h
  obtain ⟨rfl, hskips⟩ := Prod.mk.inj heq
  rw [Xml.of_literal hs]
  exact ⟨_, .of_tag hrun content, hskips⟩

/-- The part that opens the element. -/
theorem leads_opening {s : String} {cs content' name : List Char} (hs : s = String.ofList ('<' :: cs))
    (h : (Xml.run (.tag []) cs).map (fun r => (r.1, Xml.skips name r.2.dropLast, r.2.getLast?)) =
      some (.text content', true, some (.tag name))) (content : List Char) :
    ∃ es, Xml.Leads content s.toList content' (es ++ [.tag name]) ∧ Xml.skips name es = true := by
  obtain ⟨⟨state, es⟩, hrun, heq⟩ := Option.map_eq_some_iff.mp h
  obtain ⟨rfl, heq⟩ := Prod.mk.inj heq
  obtain ⟨hskips, hlast⟩ := Prod.mk.inj heq
  have hopens := Xml.Leads.of_tag hrun content
  dsimp only at hlast
  rw [← List.dropLast_append_getLast? _ hlast] at hopens
  rw [Xml.of_literal hs]
  exact ⟨.text content :: es.dropLast, hopens, hskips⟩

/-- The part that closes the element. -/
theorem leads_closing {s : String} {cs content' name : List Char} (hs : s = String.ofList ('<' :: cs))
    (h : (Xml.run (.tag []) cs).map (fun r => (r.1, r.2.head?)) = some (.text content', some (.tag ('/' :: name))))
    (content : List Char) :
    ∃ es, Xml.Leads content s.toList content' (.text content :: .tag ('/' :: name) :: es) := by
  obtain ⟨⟨state, es⟩, hrun, heq⟩ := Option.map_eq_some_iff.mp h
  obtain ⟨rfl, hhead⟩ := Prod.mk.inj heq
  obtain ⟨rest, rfl⟩ := List.head?_eq_some_iff.mp hhead
  rw [Xml.of_literal hs]
  exact ⟨rest, .of_tag hrun content⟩

set_option maxRecDepth 8000 in
/-- The parts of the task around the texts of a context. -/
theorem task_parts (homedir : String) (ctx : ServiceContext) :
    ∃ head uri logon principal exec directory : String,
      renderTaskXml homedir ctx = head ++ TASK_NAME ++ uri ++ escapeXml ctx.user ++ logon ++ escapeXml ctx.user ++
        principal ++ escapeXml (command ctx) ++ exec ++ escapeXml homedir ++ directory ∧
      (∀ content, ∃ es, Xml.Leads content head.toList ['\\'] es ∧ Xml.skips "Arguments".toList es = true) ∧
      (∀ content, ∃ es, Xml.Leads content uri.toList [] es ∧ Xml.skips "Arguments".toList es = true) ∧
      (∀ content, ∃ es, Xml.Leads content logon.toList [] es ∧ Xml.skips "Arguments".toList es = true) ∧
      (∀ content, ∃ es, Xml.Leads content principal.toList "/c ".toList (es ++ [.tag "Arguments".toList]) ∧
        Xml.skips "Arguments".toList es = true) ∧
      (∀ content, ∃ es, Xml.Leads content exec.toList []
        (.text content :: .tag ('/' :: "Arguments".toList) :: es)) ∧
      (∀ content, ∃ es, Xml.Leads content directory.toList ['\n'] es ∧
        Xml.skips "Arguments".toList es = true) := by
  refine ⟨_, _, _, _, _, _, rfl, ?_, ?_, ?_, ?_, ?_, ?_⟩
  · exact leads_part rfl (by decide)
  · exact leads_part rfl (by decide)
  · exact leads_part rfl (by decide)
  · exact leads_opening rfl (by decide)
  · exact leads_closing rfl (by decide)
  · exact leads_part rfl (by decide)

/-- The arguments of the task are `/c` and the command, whatever is in it. -/
theorem arguments_task (homedir : String) (ctx : ServiceContext) :
    ∃ es, Xml.events (renderTaskXml homedir ctx).toList = some es ∧
      Xml.elementText "Arguments".toList es = some ("/c ".toList ++ (command ctx).toList) := by
  obtain ⟨head, uri, logon, principal, exec, directory, heq, hhead, huri, hlogon, hprincipal, hexec, hdirectory⟩ :=
    task_parts homedir ctx
  obtain ⟨es₁, hhead, hskips₁⟩ := hhead []
  obtain ⟨es₂, huri, hskips₂⟩ := huri ("\\".toList ++ TASK_NAME.toList)
  obtain ⟨es₃, hlogon, hskips₃⟩ := hlogon ([] ++ ctx.user.toList)
  obtain ⟨es₄, hprincipal, hskips₄⟩ := hprincipal ([] ++ ctx.user.toList)
  obtain ⟨es₅, hexec⟩ := hexec ("/c ".toList ++ (command ctx).toList)
  obtain ⟨es₆, hdirectory, -⟩ := hdirectory ([] ++ homedir.toList)
  have hname : Xml.Leads "\\".toList TASK_NAME.toList ("\\".toList ++ TASK_NAME.toList) [] := rfl
  have huser : Xml.Leads [] (escapeXml ctx.user).toList ([] ++ ctx.user.toList) [] := leads_escapeXml [] ctx.user
  have hleads := ((((((((((hhead.append hname).append huri).append huser).append hlogon).append huser).append
    hprincipal).append (leads_escapeXml "/c ".toList (command ctx))).append hexec).append
    (leads_escapeXml [] homedir)).append hdirectory)
  rw [heq]
  simp only [String.toList_append]
  refine ⟨_, hleads.events, ?_⟩
  simp only [List.append_nil, List.append_assoc]
  rw [Xml.elementText_append hskips₁, Xml.elementText_append hskips₂, Xml.elementText_append hskips₃,
    Xml.elementText_append hskips₄]
  rw [List.singleton_append, Xml.elementText, if_pos rfl, List.cons_append, List.cons_append, Xml.textIn,
    if_pos rfl]

/-! ## The line -/

/-- The variables of a service. -/
theorem serviceEnv_cases (ctx : ServiceContext) :
    serviceEnv ctx = [("VOPS_PORT", toString ctx.port), ("VOPS_PROFILE", ctx.profile)] ∨
      ∃ configDir, serviceEnv ctx =
        [("VOPS_PORT", toString ctx.port), ("VOPS_PROFILE", ctx.profile), ("VOPS_CONFIG_DIR", configDir)] := by
  unfold serviceEnv
  split
  next configDir _ =>
    by_cases hempty : configDir = ""
    · exact .inl (by rw [if_pos hempty]; rfl)
    · exact .inr ⟨configDir, by rw [if_neg hempty]; rfl⟩
  next => exact .inl rfl

/-- What is to be set. -/
def setsOf (ctx : ServiceContext) : List (List Char × List Char) :=
  (serviceEnv ctx).map fun p => (p.1.toList, p.2.toList)

/-- The arguments that are asked for. -/
def argvOf (ctx : ServiceContext) : List (List Char) := [ctx.node, ctx.binRun, "ui", "--no-open"].map String.toList

/-- The first command sets the port with a blank behind it; the rest of the line is too short to set all there
is to set. -/
theorem command_eq (ctx : ServiceContext) : ∃ rest, (command ctx).toList =
    "set VOPS_PORT=".toList ++ ((toString ctx.port).toList ++ [' ']) ++ '&' :: '&' :: rest ∧
      rest.length + 1 < setWeight (setsOf ctx) + weight (argvOf ctx) := by
  unfold command setsOf argvOf
  rcases serviceEnv_cases ctx with henv | ⟨configDir, henv⟩
  · rw [henv]
    refine ⟨" set VOPS_PROFILE=".toList ++ ctx.profile.toList ++ " && \"".toList ++ ctx.node.toList ++
      "\" \"".toList ++ ctx.binRun.toList ++ "\" ui --no-open".toList, ?_, ?_⟩
    · simp [toString]
    · simp
      omega
  · rw [henv]
    refine ⟨" set VOPS_PROFILE=".toList ++ ctx.profile.toList ++ " && set VOPS_CONFIG_DIR=".toList ++
      configDir.toList ++ " && \"".toList ++ ctx.node.toList ++ "\" \"".toList ++ ctx.binRun.toList ++
        "\" ui --no-open".toList, ?_, ?_⟩
    · simp [toString]
    · simp
      omega

theorem setsOf_nodup (ctx : ServiceContext) : (setsOf ctx).Nodup := by
  unfold setsOf
  rcases serviceEnv_cases ctx with henv | ⟨configDir, henv⟩
  · simp [henv]
  · simp [henv]

theorem setsOf_port {set : List Char × List Char} (h : set ∈ setsOf ctx) (hname : set.1 = "VOPS_PORT".toList) :
    set.2 = (toString ctx.port).toList := by
  obtain ⟨⟨name, value⟩, hmem, rfl⟩ := List.mem_map.mp h
  obtain rfl : name = "VOPS_PORT" := String.toList_inj.mp hname
  have hvalue : value = toString ctx.port := by
    rcases serviceEnv_cases ctx with henv | ⟨configDir, henv⟩
    · rw [henv] at hmem
      simpa using hmem
    · rw [henv] at hmem
      simpa using hmem
  rw [hvalue]

/-- The port is set with the blank that stands behind it. -/
theorem assignment_port (value : List Char) :
    CommandPrompt.assignment ("set VOPS_PORT=".toList ++ value) = some ("VOPS_PORT".toList, value) := by
  have hpair : CommandPrompt.pair ("VOPS_PORT=".toList ++ value) = some ("VOPS_PORT".toList, value) := by
    have hmem : '=' ∈ "VOPS_PORT=".toList ++ value := List.mem_append_left _ (by decide)
    have hhead : ("VOPS_PORT=".toList ++ value).head? = some 'V' := rfl
    have hname : ("VOPS_PORT=".toList ++ value).takeWhile (· ≠ '=') = "VOPS_PORT".toList := rfl
    unfold CommandPrompt.pair
    dsimp only
    rw [hhead, hname, if_pos ⟨by decide, by decide, hmem⟩]
    rfl
  exact hpair

theorem plain_port (ctx : ServiceContext) :
    ∀ c ∈ "set VOPS_PORT=".toList ++ ((toString ctx.port).toList ++ [' ']), CommandPrompt.isPlain c = true := by
  intro c hc
  rw [List.mem_append, List.mem_append, List.mem_singleton] at hc
  rcases hc with hc | hc | rfl
  · revert c
    decide
  · have hdigit : c = '-' ∨ c.isDigit = true := Numerals.char_of_toString (n := (ctx.port : ℤ)) hc
    unfold CommandPrompt.isPlain
    simp only [Bool.and_eq_true, bne_iff_ne]
    refine ⟨⟨⟨⟨⟨?_, ?_⟩, ?_⟩, ?_⟩, ?_⟩, ?_⟩ <;>
      · rintro rfl
        revert hdigit
        decide
  · decide

/-- Where nothing stands for anything, the command does not run what was installed. -/
theorem not_isInstalled {argv : List (List Char)} {env : Vars}
    (h : CommandPrompt.read (fun _ => none) (command ctx).toList = some (argv, env)) :
    ¬ Launch.IsInstalled ⟨argv, env⟩ ctx := by
  rintro ⟨hargv, henv⟩
  obtain ⟨rest, hcommand, hlength⟩ := command_eq ctx
  have hsplit : CommandPrompt.commands (command ctx).toList =
      (CommandPrompt.split .plain [] rest).map
        (("set VOPS_PORT=".toList ++ ((toString ctx.port).toList ++ [' '])) :: ·) := by
    rw [hcommand, CommandPrompt.commands, CommandPrompt.split_plain (plain_port ctx),
      CommandPrompt.split_cons (.inl rfl), if_pos rfl, if_neg (by decide), CommandPrompt.split_cons (.inr rfl),
      if_pos rfl, if_pos rfl]
    rfl
  rw [CommandPrompt.read, CommandPrompt.expand_nothing, Option.map_none, Option.getD_none, List.nil_append,
    hsplit] at h
  obtain ⟨all, hall, hrun⟩ := Option.bind_eq_some_iff.mp h
  obtain ⟨cs, hcs, rfl⟩ := Option.map_eq_some_iff.mp hall
  have hset : ∀ set ∈ setsOf ctx, env set.1 = some set.2 := by
    intro set hmem
    obtain ⟨p, hp, rfl⟩ := List.mem_map.mp hmem
    exact henv p hp
  have hport : ("VOPS_PORT".toList, (toString ctx.port).toList) ∈ setsOf ctx :=
    List.mem_map.mpr ⟨_, List.mem_cons_self, rfl⟩
  cases cs with
  | nil =>
      obtain ⟨-, rfl⟩ := Prod.mk.inj (Option.some.inj hrun)
      cases hset _ hport
  | cons next cs =>
      rw [CommandPrompt.run_cons, assignment_port, Option.bind_some] at hrun
      have hbefore : ∀ set ∈ setsOf ctx, CommandPrompt.assign (fun _ => none)
          ("VOPS_PORT".toList, (toString ctx.port).toList ++ [' ']) set.1 ≠ some set.2 := by
        intro set hmem hassign
        unfold CommandPrompt.assign at hassign
        split_ifs at hassign with hname
        -- the port itself has no blank behind it
        have hvalue := Option.some.inj hassign
        have hlength := congrArg List.length (setsOf_port hmem hname)
        rw [← hvalue, List.length_append, List.length_singleton] at hlength
        omega
      have hle := CommandPrompt.weight_le_of_run hrun (setsOf_nodup ctx) hbefore hset
      have hweight := CommandPrompt.weight_split hcs
      rw [List.length_nil] at hweight
      change argv = argvOf ctx at hargv
      rw [hargv] at hle
      omega

/-- Where nothing stands for anything, the task does not run what was installed. -/
theorem task_differs (homedir : String) (ctx : ServiceContext) {l : Launch}
    (h : read (fun _ => none) (renderTaskXml homedir ctx).toList = some l) : ¬ l.IsInstalled ctx := by
  obtain ⟨es, hevents, harguments⟩ := arguments_task homedir ctx
  obtain ⟨rest, hcommand, -⟩ := command_eq ctx
  have hline : lineOf ("/c ".toList ++ (command ctx).toList) = some (command ctx).toList := by
    rw [hcommand]
    rfl
  unfold read at h
  rw [hevents, Option.bind_eq_bind, Option.bind_some] at h
  obtain ⟨exec, -, h⟩ := Option.bind_eq_some_iff.mp h
  rw [harguments, Option.bind_some, hline] at h
  dsimp only [Option.bind_eq_bind, Option.bind_some] at h
  split at h
  · obtain ⟨⟨argv, env⟩, hread, rfl⟩ := Option.map_eq_some_iff.mp h
    exact not_isInstalled hread
  · cases h

end Schtasks

/-- On no input what was installed is started on each platform. -/
theorem not_runsInstalled (homedir : String) (ctx : ServiceContext) : ¬ RunsInstalled homedir ctx := by
  intro h
  obtain ⟨l, hread, hinstalled⟩ := h.task fun _ => none
  exact Schtasks.task_differs homedir ctx hread hinstalled

/-- A context without anything special in it. -/
def plainContext : ServiceContext where
  node := "C:\\node.exe"
  binRun := "C:\\vops\\run"
  profile := "work"
  configDir := none
  port := 4765
  label := "cloud.flui.vops.ui"
  logPath := "C:\\vops\\ui.log"
  user := "dawit"

/-- A text without line breaks. -/
def OneLine (s : String) : Prop := '\n' ∉ s.toList ∧ '\r' ∉ s.toList

/-- Not even where no text has a line break. -/
theorem plainContext_differs : ¬ ∀ (homedir : String) (ctx : ServiceContext), OneLine homedir →
    (∀ s ∈ [ctx.node, ctx.binRun, ctx.profile, ctx.label, ctx.logPath, ctx.user] ++ ctx.configDir.toList,
      OneLine s) → RunsInstalled homedir ctx := by
  intro h
  have hruns := h "C:\\" plainContext (by unfold OneLine; decide) (by unfold OneLine; decide)
  obtain ⟨l, hread, hinstalled⟩ := hruns.task fun _ => none
  exact Schtasks.task_differs _ plainContext hread hinstalled

end Vops.Service
