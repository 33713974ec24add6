import Vops.HostOps.AuthorizedKeys
import Vops.Lib.ShellWords

/-!
# Backups mean what was asked

* `exportTokens`, `scriptTokens`, `probeTokens`, `resticTokens` — the words and operators that the texts
  should be to a shell, for the values that are asked for.
* `SetupTexts.AsAsked`, `RestoreTexts.AsAsked` — the texts of a setup and of a restore are taken so.
* `as_asked_iff` — they are exactly when single quotes keep each value, and `ls` can tell the target from an
  option.
-/

/-!
## Backups: the files and the commands

`backup-render.ts`, with the texts that `setup` and `restore` of `vops-backup.service.ts` send to a host.
-/

namespace Vops.Backup

open AuthorizedKeys (Text trim)

def resticRemotePath : Text := "/usr/local/bin/vops-restic".toList
def backupEnvPath : Text := "/etc/vops/backup.env".toList

structure BackupEnvConfig where
  repository : Text
  password : Text
  s3AccessKey : Option Text
  s3SecretKey : Option Text
  monitorPingUrl : Option Text

/-! ## How long backups are kept -/

def keepUnit : Char → Option Text
  | 'h' => some "--keep-hourly".toList
  | 'd' => some "--keep-daily".toList
  | 'w' => some "--keep-weekly".toList
  | 'm' => some "--keep-monthly".toList
  | 'y' => some "--keep-yearly".toList
  | _ => none

/-- The matches of `/(\d+)([hdwmy])/g`, behind some digits. -/
def keepMatches : Text → Text → List Text
  | _, [] => []
  | digits, c :: cs =>
      if c.isDigit then keepMatches (digits ++ [c]) cs
      else match keepUnit c with
        | some flag => (if digits = [] then [] else [flag, digits]) ++ keepMatches [] cs
        | none => keepMatches [] cs

def parseKeepPolicy (policy : Option Text) : List Text :=
  let flags := keepMatches [] (policy.getD [])
  if flags = [] then ["--keep-daily".toList, "7".toList] else flags

/-! ## The files -/

/-- Lines with line breaks between them. -/
def joinLines (ls : List Text) : Text := ['\n'].intercalate ls

/-- An environment line: `export NAME='value'`. -/
def exportLine (name value : Text) : Text := "export ".toList ++ name ++ "='".toList ++ value ++ ['\'']

/-- A line for a value that is given and not empty. -/
def exportGiven (name : Text) (value : Option Text) : List Text :=
  ((value.filter (· ≠ [])).map (exportLine name)).toList

def renderBackupEnv (cfg : BackupEnvConfig) : Text :=
  joinLines (["# vops backup — written by `vops backup setup` (0600, root).".toList,
      exportLine "RESTIC_REPOSITORY".toList cfg.repository,
      exportLine "RESTIC_PASSWORD".toList cfg.password] ++
    exportGiven "AWS_ACCESS_KEY_ID".toList cfg.s3AccessKey ++
    exportGiven "AWS_SECRET_ACCESS_KEY".toList cfg.s3SecretKey ++
    exportGiven "VOPS_BACKUP_PING".toList cfg.monitorPingUrl ++
    [[]])

/-- A value between single quotes, as it is. -/
def quoted (value : Text) : Text := '\'' :: value ++ ['\'']

/-- Paths between single quotes, with blanks between them. -/
def quotedPaths (paths : List Text) : Text := [' '].intercalate (paths.map quoted)

def renderBackupScript (paths keepFlags : List Text) : Text :=
  joinLines [
    "#!/bin/sh".toList,
    "# vops backup wrapper — readable, no daemon. Cron runs this.".toList,
    ". ".toList ++ backupEnvPath,
    "FAIL=0".toList,
    resticRemotePath ++ " backup --tag vops ".toList ++ quotedPaths paths ++ " || FAIL=1".toList,
    resticRemotePath ++ " forget --prune ".toList ++ [' '].intercalate keepFlags ++ " || true".toList,
    ("if [ \"$FAIL\" != \"0\" ] && [ -n \"$VOPS_BACKUP_PING\" ]; then curl -fsS -m 10 " ++
      "\"$VOPS_BACKUP_PING\" >/dev/null 2>&1 || true; fi").toList,
    "exit $FAIL".toList,
    []]

/-! ## What is at the target of a restore -/

inductive RestoreTargetState
  | missing | empty | notEmpty | unknown
deriving DecidableEq

def renderRestoreTargetProbe (target : Text) : Text :=
  [' '].intercalate [
    "if [ ! -e ".toList ++ quoted target ++ " ]; then echo missing;".toList,
    "elif [ -n \"$(ls -A ".toList ++ quoted target ++ " 2>/dev/null)\" ]; then echo not-empty;".toList,
    "else echo empty; fi".toList]

def parseRestoreTargetState (stdout : Text) : RestoreTargetState :=
  let last := ((trim stdout).splitOn '\n').getLast?.map trim
  if last = some "missing".toList then .missing
  else if last = some "empty".toList then .empty
  else if last = some "not-empty".toList then .notEmpty
  else .unknown

/-! ## The service -/

/-- A command with restic, on the host. -/
def restic (args : Text) : Text :=
  ". ".toList ++ backupEnvPath ++ " && ".toList ++ resticRemotePath ++ [' '] ++ args

structure BackupSetupOpts where
  paths : List Text
  «to» : Text
  keep : Option Text
  s3AccessKey : Option Text
  s3SecretKey : Option Text

/-- The texts of a setup: the two files, and the command that runs at its end. -/
structure SetupTexts where
  env : Text
  script : Text
  sanity : Text

def BackupSetupOpts.config (opts : BackupSetupOpts) (password : Text) : BackupEnvConfig where
  repository := opts.«to»
  password := password
  s3AccessKey := opts.s3AccessKey
  s3SecretKey := opts.s3SecretKey
  monitorPingUrl := none

def setup (opts : BackupSetupOpts) (password : Text) : Except Text SetupTexts :=
  if opts.paths = [] ∨ opts.«to» = [] then .error "--paths and --to are required.".toList
  else
    .ok {
      env := renderBackupEnv (opts.config password)
      script := renderBackupScript opts.paths (parseKeepPolicy opts.keep)
      sanity := restic ("backup --dry-run --tag vops ".toList ++ quotedPaths opts.paths) }

structure RestoreOpts where
  snapshot : Text
  target : Text
  dryRun : Bool

/-- The texts of a restore: the probe of a plan, and the command. -/
structure RestoreTexts where
  probe : Text
  command : Text

def restore (opts : RestoreOpts) : Except Text RestoreTexts :=
  if opts.target = [] then
    .error "--target directory is required (restore never overwrites in place).".toList
  else
    .ok {
      probe := renderRestoreTargetProbe opts.target
      command := restic ("restore ".toList ++ quoted opts.snapshot ++ " --target ".toList ++ quoted opts.target ++
        (if opts.dryRun then " --dry-run".toList else [])) }

end Vops.Backup

namespace Vops.Backup

open AuthorizedKeys (Text trim)
open Shell (Token Says IsRaw IsBare said top tokens raw through)

/-! ## What is asked for -/

/-- The variables of a configuration: those that are optional are left out where they are empty. -/
def BackupEnvConfig.given (cfg : BackupEnvConfig) : List (Text × Text) :=
  [("RESTIC_REPOSITORY".toList, cfg.repository), ("RESTIC_PASSWORD".toList, cfg.password)] ++
    [("AWS_ACCESS_KEY_ID".toList, cfg.s3AccessKey), ("AWS_SECRET_ACCESS_KEY".toList, cfg.s3SecretKey),
      ("VOPS_BACKUP_PING".toList, cfg.monitorPingUrl)].filterMap fun x => (x.2.filter (· ≠ [])).map (x.1, ·)

/-- The command that sets a variable. -/
def exportTokens (x : Text × Text) : List Token :=
  [.word "export".toList, .word (x.1 ++ '=' :: x.2), .operator '\n']

/-- The commands of the environment file, behind its comment. -/
def envTokens (given : List (Text × Text)) : List Token := .operator '\n' :: given.flatMap exportTokens

/-- The variables that a file of `export` commands and empty lines sets; none where another command runs. -/
def sourced : List Token → Option (List (Text × Text))
  | [] => some []
  | .operator '\n' :: ts => sourced ts
  | .word command :: .word assignment :: .operator '\n' :: ts =>
      if command = "export".toList ∧ '=' ∈ assignment then
        (sourced ts).map ((assignment.takeWhile (· ≠ '='), (assignment.dropWhile (· ≠ '=')).tail) :: ·)
      else none
  | _ => none

def expanded (text : String) : List Token := text.toList.map .expansion

/-- The line in front of the paths of the script, and what is in front of that line. -/
def headTokens : List Token :=
  [Token.operator '\n', .operator '\n'] ++ said [".".toList, backupEnvPath] ++ [Token.operator '\n'] ++
    said ["FAIL=0".toList] ++ [Token.operator '\n'] ++
    said [resticRemotePath, "backup".toList, "--tag".toList, "vops".toList]

def forgetTokens : List Token :=
  [Token.operator '|', .operator '|'] ++ said ["FAIL=1".toList] ++ [Token.operator '\n'] ++
    said [resticRemotePath, "forget".toList, "--prune".toList]

def tailTokens : List Token :=
  [Token.operator '|', .operator '|'] ++ said ["true".toList] ++ [Token.operator '\n'] ++
    said ["if".toList, "[".toList, []] ++ expanded "$FAIL" ++ said [[], "!=".toList, "0".toList, "]".toList] ++
    [Token.operator '&', .operator '&'] ++ said ["[".toList, "-n".toList, []] ++ expanded "$VOPS_BACKUP_PING" ++
    said [[], "]".toList] ++ [Token.operator ';'] ++
    said ["then".toList, "curl".toList, "-fsS".toList, "-m".toList, "10".toList, []] ++
    expanded "$VOPS_BACKUP_PING" ++ said [[]] ++ [Token.operator '>'] ++ said ["/dev/null".toList, "2".toList] ++
    [Token.operator '>', .operator '&'] ++ said ["1".toList] ++ [Token.operator '|', .operator '|'] ++
    said ["true".toList] ++ [Token.operator ';'] ++ said ["fi".toList] ++ [Token.operator '\n'] ++
    said ["exit".toList] ++ expanded "$FAIL" ++ [Token.operator '\n']

/-- The commands of the script: `restic backup` has the paths as its last arguments. -/
def scriptTokens (paths keepFlags : List Text) : List Token :=
  headTokens ++ (said paths ++ (forgetTokens ++ (said keepFlags ++ tailTokens)))

/-- restic with its environment, and with some arguments. -/
def resticTokens (args : List Text) : List Token :=
  said [".".toList, backupEnvPath] ++ [Token.operator '&', .operator '&'] ++ said (resticRemotePath :: args)

/-- The commands of the probe: `[ ! -e target ]` and `ls -A target`. -/
def probeTokens (target : Text) : List Token :=
  said ["if".toList, "[".toList, "!".toList, "-e".toList, target, "]".toList] ++ [Token.operator ';'] ++
    said ["then".toList, "echo".toList, "missing".toList] ++ [Token.operator ';'] ++
    said ["elif".toList, "[".toList, "-n".toList, []] ++ expanded "$(" ++
    said ["ls".toList, "-A".toList, target, "2".toList] ++ [Token.operator '>'] ++ said ["/dev/null".toList] ++
    [Token.operator ')'] ++ said [[], "]".toList] ++ [Token.operator ';'] ++
    said ["then".toList, "echo".toList, "not-empty".toList] ++ [Token.operator ';'] ++
    said ["else".toList, "echo".toList, "empty".toList] ++ [Token.operator ';'] ++ said ["fi".toList]

/-- An argument that `ls` takes as a file. -/
def IsOperand (arg : Text) : Prop := arg = ['-'] ∨ arg.head? ≠ some '-'

instance (arg : Text) : Decidable (IsOperand arg) := inferInstanceAs (Decidable (_ ∨ _))

/-- The files among the arguments of `ls`. -/
def operands : List Text → List Text
  | [] => []
  | arg :: args =>
      if arg = "--".toList then args else if IsOperand arg then arg :: operands args else operands args

/-- The texts of a setup are what was asked for. -/
structure SetupTexts.AsAsked (texts : SetupTexts) (opts : BackupSetupOpts) (password : Text) : Prop where
  env : tokens top none texts.env = some (envTokens (opts.config password).given)
  sets : (tokens top none texts.env).bind sourced = some (opts.config password).given
  script : tokens top none texts.script = some (scriptTokens opts.paths (parseKeepPolicy opts.keep))
  sanity : tokens top none texts.sanity =
    some (resticTokens (["backup".toList, "--dry-run".toList, "--tag".toList, "vops".toList] ++ opts.paths))

/-- The texts of a restore are what was asked for. -/
structure RestoreTexts.AsAsked (texts : RestoreTexts) (opts : RestoreOpts) : Prop where
  probe : tokens top none texts.probe = some (probeTokens opts.target)
  listed : operands ["-A".toList, opts.target] = [opts.target]
  command : tokens top none texts.command =
    some (resticTokens (["restore".toList, opts.snapshot, "--target".toList, opts.target] ++
      if opts.dryRun then ["--dry-run".toList] else []))

theorem operands_iff (target : Text) : operands ["-A".toList, target] = [target] ↔ IsOperand target := by
  have hdash : operands ["-A".toList, target] = operands [target] := by
    rw [operands, if_neg (by decide), if_neg (by decide)]
  rw [hdash, operands]
  by_cases hend : target = "--".toList
  · subst hend
    decide
  · rw [if_neg hend]
    by_cases htarget : IsOperand target
    · simp [htarget, operands]
    · simp [htarget, operands]

/-! ## The environment -/

theorem joinLines_cons (l l' : Text) (ls : List Text) :
    joinLines (l :: l' :: ls) = l ++ '\n' :: joinLines (l' :: ls) := by
  simp [joinLines, List.intercalate]

theorem joinLines_singleton (l : Text) : joinLines [l] = l := by
  simp [joinLines, List.intercalate]

/-- Lines with a line break at the end of each. -/
theorem joinLines_append_nil (ls : List Text) : joinLines (ls ++ [[]]) = ls.flatMap (· ++ ['\n']) := by
  induction ls with
  | nil => rfl
  | cons l ls ih =>
      rw [List.flatMap_cons, ← ih]
      cases ls with
      | nil => simp [joinLines_cons, joinLines_singleton]
      | cons l' ls => simp [joinLines_cons]

def headerLine : Text := "# vops backup — written by `vops backup setup` (0600, root).".toList

theorem exportGiven_eq (name : Text) (value : Option Text) :
    exportGiven name value = ((value.filter (· ≠ [])).map (name, ·)).toList.map fun x => exportLine x.1 x.2 := by
  unfold exportGiven
  cases value.filter (· ≠ []) <;> rfl

theorem renderBackupEnv_eq (cfg : BackupEnvConfig) :
    renderBackupEnv cfg =
      headerLine ++ ['\n'] ++ cfg.given.flatMap fun x => exportLine x.1 x.2 ++ ['\n'] := by
  have hlines : renderBackupEnv cfg =
      joinLines (headerLine :: cfg.given.map (fun x => exportLine x.1 x.2) ++ [[]]) := by
    unfold renderBackupEnv BackupEnvConfig.given
    simp only [exportGiven_eq, List.filterMap_cons, List.filterMap_nil]
    cases cfg.s3AccessKey.filter (· ≠ []) <;> cases cfg.s3SecretKey.filter (· ≠ []) <;>
      cases cfg.monitorPingUrl.filter (· ≠ []) <;> rfl
  rw [hlines, joinLines_append_nil, List.flatMap_cons, List.flatMap_map]

/-- The names of the variables. -/
def envNames : List Text :=
  ["RESTIC_REPOSITORY".toList, "RESTIC_PASSWORD".toList, "AWS_ACCESS_KEY_ID".toList,
    "AWS_SECRET_ACCESS_KEY".toList, "VOPS_BACKUP_PING".toList]

theorem mem_envNames (cfg : BackupEnvConfig) : ∀ x ∈ cfg.given, x.1 ∈ envNames := by
  intro x hx
  simp only [BackupEnvConfig.given, envNames, List.mem_append, List.mem_filterMap, List.mem_cons, List.not_mem_nil,
    or_false] at hx ⊢
  rcases hx with (rfl | rfl) | ⟨y, hy, hx⟩
  · exact .inl rfl
  · exact .inr (.inl rfl)
  · obtain ⟨value, -, rfl⟩ := Option.map_eq_some_iff.mp hx
    rcases hy with rfl | rfl | rfl
    · exact .inr (.inr (.inl rfl))
    · exact .inr (.inr (.inr (.inl rfl)))
    · exact .inr (.inr (.inr (.inr rfl)))

theorem name_given (cfg : BackupEnvConfig) : ∀ x ∈ cfg.given, '=' ∉ x.1 := by
  have hnames : ∀ name ∈ envNames, '=' ∉ name := by decide
  exact fun x hx => hnames x.1 (mem_envNames cfg x hx)

theorem through_export : ∀ name ∈ envNames,
    through top none ("export ".toList ++ name ++ ['=']) =
      some ([.word "export".toList], [.script none true], some (name ++ ['='])) := by
  decide

theorem exportLine_eq (name value : Text) :
    exportLine name value = "export ".toList ++ name ++ ['='] ++ raw value := by
  have hquote : "='".toList = ['=', '\''] := by decide
  unfold exportLine raw
  generalize "export ".toList = command
  rw [hquote]
  simp

/-- A line begins with a character that cannot end a word. -/
theorem head_exports (given : List (Text × Text)) :
    ∀ d ∈ (given.flatMap fun x => exportLine x.1 x.2 ++ ['\n']).head?,
      d ∉ [' ', '\t', '#'] ∧ Shell.isMark d = false := by
  intro d hd
  cases given with
  | nil => cases hd
  | cons x given =>
      have hexport : "export ".toList = 'e' :: "xport ".toList := by decide
      obtain rfl : 'e' = d := by
        rw [List.flatMap_cons, exportLine_eq, hexport] at hd
        exact Option.some.inj hd
      decide

/-- Lines that set variables. -/
theorem says_exports {given : List (Text × Text)}
    (hnames : ∀ x ∈ given, through top none ("export ".toList ++ x.1 ++ ['=']) =
      some ([.word "export".toList], [.script none true], some (x.1 ++ ['=']))) :
    Says top none (given.flatMap fun x => exportLine x.1 x.2 ++ ['\n']) (given.flatMap exportTokens)
      (∀ x ∈ given, IsRaw x.2) := by
  induction given with
  | nil => simp [Says, Shell.tokens, top, Shell.atTop, Shell.pending]
  | cons x given ih =>
      obtain ⟨hname, hrest⟩ := List.forall_mem_cons.mp hnames
      have hvalue : Says [.script none true] (some (x.1 ++ ['='])) (raw x.2 ++ '\n' :: _) _ _ :=
        Says.raw_line (by decide) (by simp) (head_exports given) (ih hrest)
      have hline := Says.code hname hvalue
      rw [List.forall_mem_cons, List.flatMap_cons, List.flatMap_cons, exportLine_eq]
      simp only [exportTokens, List.append_assoc, List.cons_append, List.nil_append, Option.getD_some] at hline ⊢
      exact hline

set_option maxRecDepth 20000 in
theorem says_env (cfg : BackupEnvConfig) :
    Says top none (renderBackupEnv cfg) (envTokens cfg.given) (∀ x ∈ cfg.given, IsRaw x.2) := by
  have hheader : through top none (headerLine ++ ['\n']) = some ([.operator '\n'], top, none) := by decide
  rw [renderBackupEnv_eq]
  exact Says.code hheader (says_exports fun x hx => through_export x.1 (mem_envNames cfg x hx))

/-- A file of such commands sets the variables that it was made of. -/
theorem sourced_envTokens {given : List (Text × Text)} (h : ∀ x ∈ given, '=' ∉ x.1) :
    sourced (envTokens given) = some given := by
  rw [envTokens, sourced]
  induction given with
  | nil => rfl
  | cons x given ih =>
      obtain ⟨hx, hrest⟩ := List.forall_mem_cons.mp h
      have hne : ∀ c ∈ x.1, decide (c ≠ '=') = true := fun c hc => decide_eq_true fun heq => hx (heq ▸ hc)
      have hname : (x.1 ++ '=' :: x.2).takeWhile (· ≠ '=') = x.1 := by
        rw [List.takeWhile_append_of_pos hne]
        simp
      have hvalue : (x.1 ++ '=' :: x.2).dropWhile (· ≠ '=') = '=' :: x.2 := by
        rw [List.dropWhile_append_of_pos hne]
        simp
      rw [List.flatMap_cons, exportTokens, List.cons_append, List.cons_append, List.cons_append, List.nil_append,
        sourced, if_pos ⟨rfl, by simp⟩, ih hrest, hname, hvalue]
      rfl

/-! ## The script -/

theorem isBare_keepUnit {c : Char} {flag : Text} (h : keepUnit c = some flag) : IsBare flag := by
  unfold keepUnit at h
  split at h
  · obtain rfl := Option.some.inj h
    decide
  · obtain rfl := Option.some.inj h
    decide
  · obtain rfl := Option.some.inj h
    decide
  · obtain rfl := Option.some.inj h
    decide
  · obtain rfl := Option.some.inj h
    decide
  · cases h

theorem isBare_digits {digits : Text} (hne : digits ≠ []) (h : ∀ c ∈ digits, c.isDigit = true) :
    IsBare digits :=
  ⟨hne, fun c hc => Shell.kind_numeral (.inr (h c hc))⟩

theorem isBare_keepMatches {digits policy : Text} (h : ∀ c ∈ digits, c.isDigit = true) :
    ∀ w ∈ keepMatches digits policy, IsBare w := by
  induction policy generalizing digits with
  | nil => simp [keepMatches]
  | cons c cs ih =>
      have hnil : ∀ w ∈ keepMatches [] cs, IsBare w := ih (by simp)
      rw [keepMatches]
      split
      · rename_i hc
        exact ih (List.forall_mem_append.mpr ⟨h, by simpa using hc⟩)
      · split
        · rename_i flag hflag
          rw [List.forall_mem_append]
          refine ⟨?_, hnil⟩
          split
          · simp
          · rename_i hne
            simpa using ⟨isBare_keepUnit hflag, isBare_digits hne h⟩
        · exact hnil

/-- The options of the retention are words without anything special in them. -/
theorem isBare_parseKeepPolicy (policy : Option Text) : ∀ w ∈ parseKeepPolicy policy, IsBare w := by
  unfold parseKeepPolicy
  simp only
  split
  · decide
  · exact isBare_keepMatches (by simp)

def headText : Text := joinLines [
  "#!/bin/sh".toList,
  "# vops backup wrapper — readable, no daemon. Cron runs this.".toList,
  ". ".toList ++ backupEnvPath,
  "FAIL=0".toList,
  resticRemotePath ++ " backup --tag vops ".toList]

def forgetText : Text := joinLines ["|| FAIL=1".toList, resticRemotePath ++ " forget --prune ".toList]

def tailText : Text := joinLines [
  "|| true".toList,
  ("if [ \"$FAIL\" != \"0\" ] && [ -n \"$VOPS_BACKUP_PING\" ]; then curl -fsS -m 10 " ++
    "\"$VOPS_BACKUP_PING\" >/dev/null 2>&1 || true; fi").toList,
  "exit $FAIL".toList,
  []]

theorem renderBackupScript_eq (paths keepFlags : List Text) :
    renderBackupScript paths keepFlags =
      headText ++ (quotedPaths paths ++
        ' ' :: (forgetText ++ ([' '].intercalate keepFlags ++ ' ' :: tailText))) := by
  have hfail : " || FAIL=1".toList = ' ' :: "|| FAIL=1".toList := by decide
  have htrue : " || true".toList = ' ' :: "|| true".toList := by decide
  unfold renderBackupScript headText forgetText tailText
  rw [hfail, htrue]
  simp only [joinLines_cons, joinLines_singleton, List.append_assoc, List.cons_append]

set_option maxRecDepth 20000 in
theorem says_script (paths keepFlags : List Text) (hkeep : ∀ w ∈ keepFlags, IsBare w) :
    Says top none (renderBackupScript paths keepFlags) (scriptTokens paths keepFlags)
      (∀ path ∈ paths, IsRaw path) := by
  have hhead : through top none headText = some (headTokens, top, none) := by
    unfold headText headTokens said backupEnvPath resticRemotePath
    repeat rw [String.toList_ofList]
    decide
  have hforget : through top none forgetText = some (forgetTokens, top, none) := by decide
  have htail : Says top none tailText tailTokens True := by
    have htokens : tokens top none tailText = some tailTokens := by
      unfold tailText tailTokens said expanded
      repeat rw [String.toList_ofList]
      decide
    simp [Says, htokens]
  rw [renderBackupScript_eq, scriptTokens]
  refine Says.code hhead ((Says.raws_blank (Says.code hforget (Says.plains_blank hkeep htail))).congr ?_)
  rw [and_true]

/-! ## The commands -/

theorem restic_append (args more : Text) : restic (args ++ more) = restic args ++ more :=
  (List.append_assoc ..).symm

theorem resticTokens_append (args more : List Text) :
    resticTokens (args ++ more) = resticTokens args ++ said more := by
  simp [resticTokens, said]

set_option maxRecDepth 20000 in
theorem says_sanity (paths : List Text) :
    Says top none (restic ("backup --dry-run --tag vops ".toList ++ quotedPaths paths))
      (resticTokens (["backup".toList, "--dry-run".toList, "--tag".toList, "vops".toList] ++ paths))
      (∀ path ∈ paths, IsRaw path) := by
  have hcode : through top none (restic "backup --dry-run --tag vops ".toList) =
      some (resticTokens ["backup".toList, "--dry-run".toList, "--tag".toList, "vops".toList], top, none) := by
    decide
  rw [restic_append, resticTokens_append]
  exact Says.code hcode Says.raws_end

/-- The target at the end of a command, with the option behind it or not. -/
theorem says_target (target : Text) (dryRun : Bool) :
    Says top none (quoted target ++ if dryRun then " --dry-run".toList else [])
      (.word target :: said (if dryRun then ["--dry-run".toList] else [])) (IsRaw target) := by
  cases dryRun with
  | false =>
      have htext : Says top none (raw target) [.word target] (IsRaw target) := Says.raw_word_end
      simpa [said, quoted, raw] using htext
  | true =>
      have hend : Says top none "--dry-run".toList [.word "--dry-run".toList] True := by
        have htokens : tokens top none "--dry-run".toList = some [.word "--dry-run".toList] := by decide
        exact iff_of_true htokens trivial
      have hblank : " --dry-run".toList = ' ' :: "--dry-run".toList := by decide
      rw [if_pos rfl, if_pos rfl, hblank]
      refine (Says.raw_word hend).congr ?_
      rw [and_true]

set_option maxRecDepth 20000 in
theorem says_restore (opts : RestoreOpts) :
    Says top none (restic ("restore ".toList ++ quoted opts.snapshot ++ " --target ".toList ++ quoted opts.target ++
        (if opts.dryRun then " --dry-run".toList else [])))
      (resticTokens (["restore".toList, opts.snapshot, "--target".toList, opts.target] ++
        if opts.dryRun then ["--dry-run".toList] else []))
      (IsRaw opts.snapshot ∧ IsRaw opts.target) := by
  have hcode : through top none (restic "restore ".toList) = some (resticTokens ["restore".toList], top, none) := by
    decide
  have htarget : through top none "--target ".toList = some ([.word "--target".toList], top, none) := by
    decide
  have hblank : " --target ".toList = ' ' :: "--target ".toList := by decide
  have htokens (more : List Text) :
      resticTokens (["restore".toList, opts.snapshot, "--target".toList, opts.target] ++ more) =
        resticTokens ["restore".toList] ++ (.word opts.snapshot ::
          ([.word "--target".toList] ++ (.word opts.target :: said more))) := by
    rw [resticTokens_append, ← List.singleton_append, resticTokens_append, List.append_assoc]
    rfl
  rw [List.append_assoc, List.append_assoc, List.append_assoc, restic_append, htokens, hblank]
  have hbehind := Says.code htarget (says_target opts.target opts.dryRun)
  exact Says.code hcode (Says.raw_word hbehind)

def probeStart : Text := "if [ ! -e ".toList

def probeMiddle : Text := "]; then echo missing;".toList ++ ' ' :: "elif [ -n \"$(ls -A ".toList

def probeEnd : Text := "2>/dev/null)\" ]; then echo not-empty;".toList ++ ' ' :: "else echo empty; fi".toList

def probeStartTokens : List Token := said ["if".toList, "[".toList, "!".toList, "-e".toList]

def probeMiddleTokens : List Token :=
  said ["]".toList] ++ [Token.operator ';'] ++ said ["then".toList, "echo".toList, "missing".toList] ++
    [Token.operator ';'] ++ said ["elif".toList, "[".toList, "-n".toList, []] ++ expanded "$(" ++
    said ["ls".toList, "-A".toList]

def probeEndTokens : List Token :=
  said ["2".toList] ++ [Token.operator '>'] ++ said ["/dev/null".toList] ++ [Token.operator ')'] ++
    said [[], "]".toList] ++ [Token.operator ';'] ++ said ["then".toList, "echo".toList, "not-empty".toList] ++
    [Token.operator ';'] ++ said ["else".toList, "echo".toList, "empty".toList] ++ [Token.operator ';'] ++
    said ["fi".toList]

theorem probeTokens_eq (target : Text) : probeTokens target =
    probeStartTokens ++ (.word target :: (probeMiddleTokens ++ (.word target :: probeEndTokens))) := by
  simp only [probeTokens, probeStartTokens, probeMiddleTokens, probeEndTokens, said, List.map_cons, List.map_nil,
    List.append_assoc, List.cons_append, List.nil_append]

theorem renderRestoreTargetProbe_eq (target : Text) : renderRestoreTargetProbe target =
    probeStart ++ (raw target ++ ' ' :: (probeMiddle ++ (raw target ++ ' ' :: probeEnd))) := by
  have hmiddle : " ]; then echo missing;".toList = ' ' :: "]; then echo missing;".toList := by decide
  have hend : " 2>/dev/null)\" ]; then echo not-empty;".toList =
      ' ' :: "2>/dev/null)\" ]; then echo not-empty;".toList := by
    decide
  have hquoted : quoted target = raw target := rfl
  unfold renderRestoreTargetProbe probeStart probeMiddle probeEnd
  rw [hmiddle, hend, hquoted]
  simp only [List.intercalate, List.intersperse, List.flatten_cons, List.flatten_nil, List.append_assoc,
    List.cons_append, List.nil_append, List.append_nil]

set_option maxRecDepth 20000 in
theorem says_probe (target : Text) :
    Says top none (renderRestoreTargetProbe target) (probeTokens target) (IsRaw target) := by
  have hstart : through top none probeStart = some (probeStartTokens, top, none) := by decide
  have hmiddle : through top none probeMiddle =
      some (probeMiddleTokens, [.script (some ')') false, .double, .script none true], none) := by
    decide
  have hend : Says [.script (some ')') false, .double, .script none true] none probeEnd probeEndTokens True := by
    have htokens : tokens [.script (some ')') false, .double, .script none true] none probeEnd =
        some probeEndTokens := by
      decide
    exact iff_of_true htokens trivial
  rw [renderRestoreTargetProbe_eq, probeTokens_eq]
  refine (Says.code hstart (Says.raw_blank (by decide) (by simp) (Says.code hmiddle
    (Says.raw_blank (by decide) (by simp) hend)))).congr ?_
  rw [and_true, and_self]

/-! ## Setup and restore -/

theorem SetupTexts.asAsked_iff {opts : BackupSetupOpts} {password : Text} {texts : SetupTexts}
    (h : setup opts password = .ok texts) :
    texts.AsAsked opts password ↔
      (∀ x ∈ (opts.config password).given, IsRaw x.2) ∧ ∀ path ∈ opts.paths, IsRaw path := by
  unfold setup at h
  split at h
  · cases h
  · obtain rfl := Except.ok.inj h
    have hkeep := isBare_parseKeepPolicy opts.keep
    constructor
    · rintro ⟨henv, -, hscript, -⟩
      exact ⟨(says_env _).mp henv, (says_script _ _ hkeep).mp hscript⟩
    · rintro ⟨hgiven, hpaths⟩
      have henv := (says_env _).mpr hgiven
      have hsets : (tokens top none (renderBackupEnv (opts.config password))).bind sourced =
          some (opts.config password).given := by
        rw [henv, Option.bind_some, sourced_envTokens (name_given _)]
      exact ⟨henv, hsets, (says_script _ _ hkeep).mpr hpaths, (says_sanity _).mpr hpaths⟩

theorem RestoreTexts.asAsked_iff {opts : RestoreOpts} {texts : RestoreTexts} (h : restore opts = .ok texts) :
    texts.AsAsked opts ↔ IsRaw opts.snapshot ∧ IsRaw opts.target ∧ IsOperand opts.target := by
  unfold restore at h
  split at h
  · cases h
  · obtain rfl := Except.ok.inj h
    constructor
    · rintro ⟨-, hlisted, hcommand⟩
      obtain ⟨hsnapshot, htarget⟩ := (says_restore opts).mp hcommand
      exact ⟨hsnapshot, htarget, (operands_iff _).mp hlisted⟩
    · rintro ⟨hsnapshot, htarget, hoperand⟩
      exact ⟨(says_probe _).mpr htarget, (operands_iff _).mpr hoperand,
        (says_restore opts).mpr ⟨hsnapshot, htarget⟩⟩

/-- What setup and restore write and run is what was asked for exactly when no value has a single quote or
a null character in it, and the target is nothing that `ls` takes as options. -/
theorem as_asked_iff {opts : BackupSetupOpts} {password : Text} {texts : SetupTexts} {restoreOpts : RestoreOpts}
    {restoreTexts : RestoreTexts} (hsetup : setup opts password = .ok texts)
    (hrestore : restore restoreOpts = .ok restoreTexts) :
    (texts.AsAsked opts password ↔
      (∀ x ∈ (opts.config password).given, IsRaw x.2) ∧ ∀ path ∈ opts.paths, IsRaw path) ∧
    (restoreTexts.AsAsked restoreOpts ↔
      IsRaw restoreOpts.snapshot ∧ IsRaw restoreOpts.target ∧ IsOperand restoreOpts.target) :=
  ⟨SetupTexts.asAsked_iff hsetup, RestoreTexts.asAsked_iff hrestore⟩

/-! ## A path with a quote in it -/

namespace QuotedPath

def opts : BackupSetupOpts where
  paths := ["/srv/a'; reboot; '".toList]
  «to» := "s3:https://s3.example.com/bucket".toList
  keep := none
  s3AccessKey := none
  s3SecretKey := none

def password : Text := "aa55".toList

def texts : SetupTexts where
  env := renderBackupEnv (opts.config password)
  script := renderBackupScript opts.paths (parseKeepPolicy opts.keep)
  sanity := restic ("backup --dry-run --tag vops ".toList ++ quotedPaths opts.paths)

def restoreOpts : RestoreOpts where
  snapshot := "latest".toList
  target := "/restore dir".toList
  dryRun := false

def restoreTexts : RestoreTexts where
  probe := renderRestoreTargetProbe restoreOpts.target
  command := restic ("restore ".toList ++ quoted restoreOpts.snapshot ++ " --target ".toList ++
    quoted restoreOpts.target ++ [])

/-- The sanity command runs another command, and its backup has another path. -/
theorem not_asAsked :
    setup opts password = .ok texts ∧ ¬ texts.AsAsked opts password ∧
      tokens top none texts.sanity =
        some (resticTokens ["backup".toList, "--dry-run".toList, "--tag".toList, "vops".toList, "/srv/a".toList] ++
          [.operator ';', .word "reboot".toList, .operator ';', .word []]) := by
  refine ⟨rfl, ?_, by decide +kernel⟩
  rintro ⟨-, -, -, hsanity⟩
  revert hsanity
  decide +kernel

/-- At this path neither side holds; a target with a blank in it is kept. -/
theorem as_asked_quotedPath :
    (¬ texts.AsAsked opts password) ∧ restoreTexts.AsAsked restoreOpts := by
  have hsetup : setup opts password = .ok texts := rfl
  have hrestore : restore restoreOpts = .ok restoreTexts := rfl
  obtain ⟨htexts, hrestoreTexts⟩ := as_asked_iff hsetup hrestore
  exact ⟨fun h => absurd (htexts.mp h).2 (by decide), hrestoreTexts.mpr (by decide)⟩

end QuotedPath

end Vops.Backup
