import Vops.Apps.AppRollback
import Mathlib.Data.List.Nodup

/-!
# A redeploy and its rollback

A host on which an app was deployed, a redeploy of the app that ran to any point, and the rollback that
deploys the recorded units again.

* `deployedFiles` — the files that a deploy writes, with what it writes into them.
* `Ran.files`, `Completed.files` — what a script that only writes leaves in a file.
* `Installed` — the host as the deploy of the previous install left it.
* `Restores`, `LeavesUnits` — what is expected of a rollback, and of a redeploy.
* `SameFiles`, `redeploy_iff` — both hold exactly when the two installs have the same unit files, the
  redeploy brings no new health files, and no unit file holds the tag that ends it.
-/

namespace Vops.Apps

/-! ## What a script writes -/

/-- The file that a command writes, and what it writes into it. -/
def HostCommand.written : HostCommand → Option (String × String)
  | heredoc path content index => some (path, heredocBody content index)
  | _ => none

/-- A command that takes no file away and disables no timer. -/
def HostCommand.onlyWrites : HostCommand → Bool
  | removeFiles _ | removeTree _ | disableTimer _ => false
  | _ => true

/-- The files that a script writes. -/
def writtenFiles (script : HostScript) : List (String × String) :=
  script.filterMap HostCommand.written

variable {script : HostScript} {s s' : HostState} {c : HostCommand} {p b : String}

/-- A command that writes a file does only that. -/
theorem exec_of_written (h : c.written = some (p, b)) :
    (c.exec s).files = Function.update s.files p (some b) ∧ c.strict = true := by
  cases c with
  | heredoc path content index =>
      obtain ⟨rfl, rfl⟩ := Prod.ext_iff.mp (Option.some.inj h)
      exact ⟨rfl, rfl⟩
  | _ => cases h

theorem exec_of_not_written (h : c.written = none) (honly : c.onlyWrites = true) :
    (c.exec s).files = s.files := by
  cases c with
  | heredoc path content index => cases h
  | removeFiles paths => cases honly
  | removeTree dir => cases honly
  | _ => rfl

/-- After a script that ran to any point, a file is as before or as it was written. -/
theorem Ran.files (h : Ran script s s') (honly : ∀ c ∈ script, c.onlyWrites = true) (p : String) :
    s'.files p = s.files p ∨ ∃ b, (p, b) ∈ writtenFiles script ∧ s'.files p = some b := by
  induction h with
  | stop script s => exact .inl rfl
  | @done c script s s' _ ih =>
      obtain ⟨hc, hrest⟩ := List.forall_mem_cons.mp honly
      rcases ih hrest with hsame | ⟨b, hb, hfile⟩
      · cases hw : c.written with
        | none => exact .inl (hsame.trans (congrFun (exec_of_not_written hw hc) p))
        | some w =>
            rw [hsame, (exec_of_written hw).1]
            by_cases hp : p = w.1
            · subst hp
              exact .inr ⟨w.2, List.mem_filterMap.mpr ⟨c, List.mem_cons_self, hw⟩,
                Function.update_self _ _ _⟩
            · exact .inl (Function.update_of_ne hp _ _)
      · exact .inr ⟨b, (List.sublist_cons_self c script).filterMap _ |>.subset hb, hfile⟩
  | @failed c script s s' _ _ ih =>
      rcases ih (List.forall_mem_cons.mp honly).2 with hsame | ⟨b, hb, hfile⟩
      · exact .inl hsame
      · exact .inr ⟨b, (List.sublist_cons_self c script).filterMap _ |>.subset hb, hfile⟩

/-- After a script that ran to its end, a file that it writes is as it was written. -/
theorem Completed.files (h : Completed script s s') (honly : ∀ c ∈ script, c.onlyWrites = true)
    (p : String) : (∃ b, (p, b) ∈ writtenFiles script ∧ s'.files p = some b) ∨
      (∀ b, (p, b) ∉ writtenFiles script) ∧ s'.files p = s.files p := by
  induction h with
  | nil s => exact .inr ⟨fun _ => List.not_mem_nil, rfl⟩
  | @done c script s s' _ ih =>
      obtain ⟨hc, hrest⟩ := List.forall_mem_cons.mp honly
      rcases ih hrest with ⟨b, hb, hfile⟩ | ⟨hnone, hsame⟩
      · exact .inl ⟨b, (List.sublist_cons_self c script).filterMap _ |>.subset hb, hfile⟩
      · cases hw : c.written with
        | none =>
            refine .inr ⟨fun b hb => hnone b ?_, hsame.trans (congrFun (exec_of_not_written hw hc) p)⟩
            unfold writtenFiles at hb
            rwa [List.filterMap_cons_none hw] at hb
        | some w =>
            rw [hsame, (exec_of_written hw).1]
            by_cases hp : p = w.1
            · subst hp
              exact .inl ⟨w.2, List.mem_filterMap.mpr ⟨c, List.mem_cons_self, hw⟩,
                Function.update_self _ _ _⟩
            · refine .inr ⟨fun b hb => ?_, Function.update_of_ne hp _ _⟩
              unfold writtenFiles at hb
              rw [List.filterMap_cons_some hw] at hb
              rcases List.mem_cons.mp hb with heq | hmem
              · exact hp (congrArg Prod.fst heq)
              · exact hnone b hmem
  | @failed c script s s' hlenient _ ih =>
      have hw : c.written = none := by
        cases hw : c.written with
        | none => rfl
        | some w => cases hlenient.symm.trans (exec_of_written (s := s) hw).2
      unfold writtenFiles at ih ⊢
      rw [List.filterMap_cons_none hw]
      exact ih (List.forall_mem_cons.mp honly).2

/-- After a script that ran to any point, a timer is enabled as before or by it. -/
theorem Ran.enabled (h : Ran script s s') (honly : ∀ c ∈ script, c.onlyWrites = true) (t : String) :
    s'.enabled t = s.enabled t ∨ .enableTimer t ∈ script ∧ s'.enabled t = true := by
  induction h with
  | stop script s => exact .inl rfl
  | @done c script s s' _ ih =>
      obtain ⟨hc, hrest⟩ := List.forall_mem_cons.mp honly
      rcases ih hrest with hsame | ⟨hmem, hon⟩
      · rw [hsame]
        cases c with
        | enableTimer timer =>
            by_cases ht : t = timer
            · subst ht
              exact .inr ⟨List.mem_cons_self, Function.update_self _ _ _⟩
            · exact .inl (Function.update_of_ne ht _ _)
        | disableTimer timer => cases hc
        | _ => exact .inl rfl
      · exact .inr ⟨List.mem_cons_of_mem _ hmem, hon⟩
  | @failed c script s s' _ _ ih =>
      rcases ih (List.forall_mem_cons.mp honly).2 with hsame | ⟨hmem, hon⟩
      · exact .inl hsame
      · exact .inr ⟨List.mem_cons_of_mem _ hmem, hon⟩

/-- A script that ran to its end ran to some point. -/
theorem Completed.ran (h : Completed script s s') : Ran script s s' := by
  induction h with
  | nil s => exact .stop _ _
  | done _ ih => exact .done ih
  | failed hlenient _ ih => exact .failed hlenient ih

/-- The script runs to its end when every command succeeds. -/
theorem completed_foldl (script : HostScript) (s : HostState) :
    Completed script s (script.foldl HostCommand.exec s) := by
  induction script generalizing s with
  | nil => exact .nil s
  | cons c script ih => exact .done (ih (c.exec s))

/-! ## The files of a deploy -/

/-- The path of a file in a directory. -/
def pathIn (dir name : String) : String := dir ++ "/" ++ name

/-- The files of a record in a directory, as they are written. -/
def recordFiles (dir : String) (first : ℕ) (files : Record String) : List (String × String) :=
  writtenFiles (heredocs dir first files.entries)

/-- The files that a deploy writes. -/
def deployedFiles (dir : String) (units healthUnits : Record String) : List (String × String) :=
  recordFiles dir 0 units ++ recordFiles SYSTEM_UNIT_DIR units.entries.length healthUnits

theorem mem_recordFiles {dir : String} {first : ℕ} {files : Record String} :
    (p, b) ∈ recordFiles dir first files ↔ ∃ (i : ℕ) (e : String × String), files.entries[i]? = some e ∧
      p = pathIn dir e.1 ∧ b = heredocBody e.2 (first + i) := by
  unfold recordFiles writtenFiles heredocs
  simp only [List.mem_filterMap, List.mem_mapIdx]
  constructor
  · rintro ⟨_, ⟨i, hi, rfl⟩, hw⟩
    obtain ⟨rfl, rfl⟩ := Prod.ext_iff.mp (Option.some.inj hw)
    exact ⟨i, files.entries[i], List.getElem?_eq_getElem hi, rfl, rfl⟩
  · rintro ⟨i, e, he, rfl, rfl⟩
    obtain ⟨hi, rfl⟩ := List.getElem?_eq_some_iff.mp he
    exact ⟨_, ⟨i, hi, rfl⟩, rfl⟩

theorem pathIn_toList (dir name : String) :
    (pathIn dir name).toList = (dir ++ "/").toList ++ name.toList := by
  simp [pathIn]

theorem pathIn_inj {dir name name' : String} (h : pathIn dir name = pathIn dir name') : name = name' := by
  have hlist := congrArg String.toList h
  rw [pathIn_toList, pathIn_toList] at hlist
  exact String.toList_inj.mp (List.append_cancel_left hlist)

theorem isUnder_pathIn (dir name : String) : isUnder dir (pathIn dir name) = true := by
  unfold isUnder
  rw [pathIn_toList]
  exact List.isPrefixOf_iff_prefix.mpr (List.prefix_append _ _)

/-- The directory of an app and that of the system are apart. -/
theorem not_isUnder_both (app : String) (h : isUnder (appUnitDir app) p = true)
    (h' : isUnder SYSTEM_UNIT_DIR p = true) : False := by
  obtain ⟨rest, hrest⟩ := List.isPrefixOf_iff_prefix.mp h
  obtain ⟨rest', hrest'⟩ := List.isPrefixOf_iff_prefix.mp h'
  have hdir : (appUnitDir app ++ "/").toList =
      "/etc/containers/systemd/vops/".toList ++ (app.toList ++ ['/']) := by
    unfold appUnitDir
    rw [String.toList_append, String.toList_append, List.append_assoc]
    congr 2
  have hsystem : (SYSTEM_UNIT_DIR ++ "/").toList = "/etc/systemd/system/".toList := by
    simp [SYSTEM_UNIT_DIR]
  have hc : p.toList[5]? = some 'c' := by
    rw [← hrest, hdir]
    simp
  have hs : p.toList[5]? = some 's' := by
    rw [← hrest', hsystem]
    simp
  cases hc.symm.trans hs

/-- A file of a record is where it was put. -/
theorem isUnder_of_mem {dir : String} {first : ℕ} {files : Record String}
    (h : (p, b) ∈ recordFiles dir first files) : isUnder dir p = true := by
  obtain ⟨i, e, -, rfl, -⟩ := mem_recordFiles.mp h
  exact isUnder_pathIn dir e.1

/-- The names of the files of a record. -/
theorem mem_keys_of_mem {dir name : String} {first : ℕ} {files : Record String}
    (h : (pathIn dir name, b) ∈ recordFiles dir first files) : name ∈ files.keys := by
  obtain ⟨i, e, he, hp, -⟩ := mem_recordFiles.mp h
  rw [pathIn_inj hp]
  exact List.mem_map_of_mem (List.mem_of_getElem? he)

theorem exists_mem_of_key {name : String} {files : Record String} (h : name ∈ files.keys)
    (dir : String) (first : ℕ) : ∃ b, (pathIn dir name, b) ∈ recordFiles dir first files := by
  obtain ⟨e, he, rfl⟩ := List.mem_map.mp h
  obtain ⟨i, hi⟩ := List.mem_iff_getElem?.mp he
  exact ⟨_, mem_recordFiles.mpr ⟨i, e, hi, rfl, rfl⟩⟩

/-- A file of a record is written once. -/
theorem eq_of_mem_recordFiles {dir b' : String} {first : ℕ} {files : Record String}
    (h : (p, b) ∈ recordFiles dir first files) (h' : (p, b') ∈ recordFiles dir first files) : b = b' := by
  obtain ⟨i, e, he, rfl, rfl⟩ := mem_recordFiles.mp h
  obtain ⟨j, e', he', hp, rfl⟩ := mem_recordFiles.mp h'
  have hi : files.keys[i]? = some e.1 := by rw [Record.keys, List.getElem?_map, he]; rfl
  have hj : files.keys[j]? = some e.1 := by rw [Record.keys, List.getElem?_map, he', pathIn_inj hp]; rfl
  have hij : i = j := by
    obtain ⟨hi, hi'⟩ := List.getElem?_eq_some_iff.mp hi
    obtain ⟨hj, hj'⟩ := List.getElem?_eq_some_iff.mp hj
    exact (List.Nodup.getElem_inj_iff files.keyed).mp (hi'.trans hj'.symm)
  subst hij
  rw [he] at he'
  rw [Option.some.inj he']

/-! ## The scripts -/

/-- A deploy writes its files. -/
theorem writtenFiles_deploy (input : DeployScriptInput) : writtenFiles (buildDeployScript input) =
    deployedFiles input.unitDir input.units input.healthUnits := by
  unfold writtenFiles buildDeployScript deployFiles deployedFiles recordFiles
  cases input.registry <;>
    simp [List.filterMap_cons, HostCommand.written, writtenFiles, Function.comp_def]

theorem onlyWrites_deploy (input : DeployScriptInput) :
    ∀ c ∈ buildDeployScript input, c.onlyWrites = true := by
  intro c hc
  simp only [buildDeployScript, deployFiles, heredocs, List.mem_append, List.mem_cons, List.mem_map,
    List.mem_mapIdx, List.not_mem_nil, Option.mem_toList, Option.map_eq_some_iff] at hc
  cases c with
  | removeFiles paths => simp at hc
  | removeTree dir => simp at hc
  | disableTimer timer => simp at hc
  | _ => rfl

/-! ## Here-documents -/

/-- A file holds its content and a newline exactly when no line of the content is the tag. -/
theorem heredocBody_eq_iff (content : String) (index : ℕ) : heredocBody content index = content ++ "\n" ↔
    (heredocTag index).toList ∉ content.toList.splitOn '\n' := by
  have hall : (content ++ "\n").toList = TextLines.join (content.toList.splitOn '\n') := by
    rw [TextLines.join_splitOn, String.toList_append]
    rfl
  unfold heredocBody
  rw [← String.toList_inj, String.toList_ofList, hall]
  constructor
  · intro heq hmem
    have hlines := TextLines.join_eq_of_isPrefix (List.takeWhile_prefix _) heq
    have htag := List.takeWhile_eq_self_iff.mp hlines _ hmem
    simp at htag
  · intro hmem
    rw [List.takeWhile_eq_self_iff.mpr]
    intro line hline
    exact decide_eq_true fun h => hmem (h ▸ hline)

/-! ## Redeploy and rollback -/

/-- A host on which the last deploy of an app was that of `prev` with these health units: its files are
the ones that this deploy wrote, and the timers of its health units are enabled. -/
structure Installed (prev : AppInstallV1) (prevHealth : Record String) (s : HostState) : Prop where
  present : ∀ e ∈ deployedFiles (appUnitDir prev.name) prev.units prevHealth, s.files e.1 = some e.2
  only : ∀ path body, isUnder (appUnitDir prev.name) path = true ∨ isUnder SYSTEM_UNIT_DIR path = true →
    s.files path = some body →
      (path, body) ∈ deployedFiles (appUnitDir prev.name) prev.units prevHealth
  enabled : ∀ timer ∈ healthTimers prevHealth, s.enabled timer = true

/-- The two states have the same files in the directory of the app and in that of the system, and the
same timers enabled. -/
def SameHost (app : String) (s s' : HostState) : Prop :=
  (∀ path, isUnder (appUnitDir app) path = true ∨ isUnder SYSTEM_UNIT_DIR path = true →
    s'.files path = s.files path) ∧ ∀ timer, s'.enabled timer = s.enabled timer

/-- A redeploy that stops anywhere, and the rollback after it, leave the host as it was. -/
def Restores (plan : AppPlan) (prev : AppInstallV1) (hp : HostDeployPlan) (before : HostState) : Prop :=
  ∀ generator registry pre redeployed after,
    Ran (buildDeployScript (deployInput hp generator registry)) before redeployed →
    Completed (rollbackDeploy ⟨plan, hp, some prev, generator, pre⟩) redeployed after →
    SameHost prev.name before after

/-- A redeploy that ran to its end leaves the units of the plan, and nothing else, in its directory. -/
def LeavesUnits (hp : HostDeployPlan) (before : HostState) : Prop :=
  ∀ generator registry after,
    Completed (buildDeployScript (deployInput hp generator registry)) before after →
    ∀ path, isUnder hp.unitDir path = true → ∀ body, after.files path = some body ↔
      ∃ e ∈ hp.units.entries, path = pathIn hp.unitDir e.1 ∧ body = e.2 ++ "\n"

/-- The redeploy writes under the names of the previous units, its health units are among the previous
ones, and no line of a unit is the tag that ends it. -/
structure SameFiles (prev : AppInstallV1) (prevHealth : Record String) (hp : HostDeployPlan) : Prop where
  kept : ∀ name ∈ hp.units.keys, name ∈ prev.units.keys
  covered : ∀ name ∈ prev.units.keys, name ∈ hp.units.keys
  health : recordFiles SYSTEM_UNIT_DIR hp.units.entries.length hp.healthUnits ⊆
    recordFiles SYSTEM_UNIT_DIR prev.units.entries.length prevHealth
  plain : ∀ (i : ℕ) e, hp.units.entries[i]? = some e → (heredocTag i).toList ∉ e.2.toList.splitOn '\n'

section Redeploy

variable {prev : AppInstallV1} {prevHealth : Record String} {hp : HostDeployPlan}
  {before redeployed after : HostState} {plan : AppPlan} {generator : String}
  {registry : Option RegistryLogin} {pre : HostAppData} {app : String} {units health : Record String}

/-- A file that a deploy writes is one of the units or one of the health units, by its directory. -/
theorem mem_deployed_unit (h : isUnder (appUnitDir app) p = true) :
    (p, b) ∈ deployedFiles (appUnitDir app) units health ↔ (p, b) ∈ recordFiles (appUnitDir app) 0 units := by
  unfold deployedFiles
  rw [List.mem_append, or_iff_left]
  exact fun hmem => not_isUnder_both app h (isUnder_of_mem hmem)

theorem mem_deployed_health (h : isUnder SYSTEM_UNIT_DIR p = true) :
    (p, b) ∈ deployedFiles (appUnitDir app) units health ↔
      (p, b) ∈ recordFiles SYSTEM_UNIT_DIR units.entries.length health := by
  unfold deployedFiles
  rw [List.mem_append, or_iff_right]
  exact fun hmem => not_isUnder_both app (isUnder_of_mem hmem) h

/-- The rollback writes the previous units and changes no other file. -/
theorem rollback_files (h : Completed (rollbackDeploy ⟨plan, hp, some prev, generator, pre⟩) redeployed after)
    (p : String) :
    (∃ b, (p, b) ∈ recordFiles (appUnitDir prev.name) 0 prev.units ∧ after.files p = some b) ∨
      (∀ b, (p, b) ∉ recordFiles (appUnitDir prev.name) 0 prev.units) ∧
        after.files p = redeployed.files p := by
  have hfiles := Completed.files h (onlyWrites_deploy (restoreInput prev generator)) p
  have hempty : deployedFiles (appUnitDir prev.name) prev.units .empty =
      recordFiles (appUnitDir prev.name) 0 prev.units := List.append_nil _
  rwa [show rollbackDeploy ⟨plan, hp, some prev, generator, pre⟩ =
    buildDeployScript (restoreInput prev generator) from rfl, writtenFiles_deploy,
    show deployedFiles (restoreInput prev generator).unitDir (restoreInput prev generator).units
      (restoreInput prev generator).healthUnits = _ from hempty] at hfiles

/-- The timers that a deploy enables are those of its health units. -/
theorem mem_deploy_enableTimer {input : DeployScriptInput} {timer : String}
    (h : .enableTimer timer ∈ buildDeployScript input) : timer ∈ healthTimers input.healthUnits := by
  simpa [buildDeployScript, deployFiles, heredocs] using h

/-- The rollback enables no timer. -/
theorem rollback_enabled (h : Completed (rollbackDeploy ⟨plan, hp, some prev, generator, pre⟩) redeployed after)
    (timer : String) : after.enabled timer = redeployed.enabled timer := by
  rcases h.ran.enabled (onlyWrites_deploy (restoreInput prev generator)) timer with hsame | ⟨hmem, -⟩
  · exact hsame
  · exact absurd (mem_deploy_enableTimer hmem) List.not_mem_nil

/-- What the redeploy leaves in a file, wherever it stopped. -/
theorem redeploy_files (hdir : hp.unitDir = appUnitDir prev.name)
    (h : Ran (buildDeployScript (deployInput hp generator registry)) before redeployed) (p : String) :
    redeployed.files p = before.files p ∨
      ∃ b, (p, b) ∈ deployedFiles (appUnitDir prev.name) hp.units hp.healthUnits ∧
        redeployed.files p = some b := by
  have hfiles := h.files (onlyWrites_deploy _) p
  rw [writtenFiles_deploy] at hfiles
  rwa [← hdir]

/-- What a redeploy that ran to its end leaves in a file. -/
theorem redeploy_completed (hdir : hp.unitDir = appUnitDir prev.name)
    (h : Completed (buildDeployScript (deployInput hp generator registry)) before redeployed) (p : String) :
    (∃ b, (p, b) ∈ deployedFiles (appUnitDir prev.name) hp.units hp.healthUnits ∧
      redeployed.files p = some b) ∨
      (∀ b, (p, b) ∉ deployedFiles (appUnitDir prev.name) hp.units hp.healthUnits) ∧
        redeployed.files p = before.files p := by
  have hfiles := h.files (onlyWrites_deploy _) p
  rw [writtenFiles_deploy] at hfiles
  rwa [← hdir]

/-- The health units of a redeploy that are all previous ones bring no timer. -/
theorem healthTimers_subset (hhealth : recordFiles SYSTEM_UNIT_DIR hp.units.entries.length hp.healthUnits ⊆
    recordFiles SYSTEM_UNIT_DIR prev.units.entries.length prevHealth) :
    healthTimers hp.healthUnits ⊆ healthTimers prevHealth := by
  intro timer htimer
  obtain ⟨hkey, htail⟩ := List.mem_filter.mp htimer
  obtain ⟨b, hb⟩ := exists_mem_of_key hkey SYSTEM_UNIT_DIR hp.units.entries.length
  exact List.mem_filter.mpr ⟨mem_keys_of_mem (hhealth hb), htail⟩

/-- A redeploy under the same names is undone by the rollback. -/
theorem restores (hdir : hp.unitDir = appUnitDir prev.name) (h : Installed prev prevHealth before)
    (hkept : ∀ name ∈ hp.units.keys, name ∈ prev.units.keys)
    (hhealth : recordFiles SYSTEM_UNIT_DIR hp.units.entries.length hp.healthUnits ⊆
      recordFiles SYSTEM_UNIT_DIR prev.units.entries.length prevHealth) : Restores plan prev hp before := by
  intro generator registry pre redeployed after hredeploy hrollback
  refine ⟨fun path hpath => ?_, fun timer => ?_⟩
  · rcases rollback_files hrollback path with ⟨b, hb, hfile⟩ | ⟨hnot, hsame⟩
    · exact hfile.trans (h.present (path, b) (List.mem_append_left _ hb)).symm
    · rw [hsame]
      rcases redeploy_files hdir hredeploy path with hleft | ⟨b, hb, hfile⟩
      · exact hleft
      · rcases hpath with hunit | hsystem
        · -- the name is one of the previous units, which the rollback writes
          obtain ⟨i, e, he, rfl, -⟩ := mem_recordFiles.mp ((mem_deployed_unit hunit).mp hb)
          have hname := hkept e.1 (List.mem_map_of_mem (List.mem_of_getElem? he))
          obtain ⟨b', hb'⟩ := exists_mem_of_key hname (appUnitDir prev.name) 0
          exact absurd hb' (hnot b')
        · have hprev := hhealth ((mem_deployed_health hsystem).mp hb)
          rw [hfile, h.present (path, b) (List.mem_append_right _ hprev)]
  · rw [rollback_enabled hrollback]
    rcases hredeploy.enabled (onlyWrites_deploy _) timer with hsame | ⟨hmem, hon⟩
    · exact hsame
    · rw [hon, h.enabled timer (healthTimers_subset hhealth (mem_deploy_enableTimer hmem))]

/-- A rollback that restores the host was of a redeploy under the same names. -/
theorem kept_of_restores (hdir : hp.unitDir = appUnitDir prev.name) (h : Installed prev prevHealth before)
    (hrestores : Restores plan prev hp before) :
    (∀ name ∈ hp.units.keys, name ∈ prev.units.keys) ∧
      recordFiles SYSTEM_UNIT_DIR hp.units.entries.length hp.healthUnits ⊆
        recordFiles SYSTEM_UNIT_DIR prev.units.entries.length prevHealth := by
  have hredeploy := completed_foldl (buildDeployScript (deployInput hp "" none)) before
  have hrollback := completed_foldl (rollbackDeploy ⟨plan, hp, some prev, "", UNPROBED_DATA⟩)
    ((buildDeployScript (deployInput hp "" none)).foldl HostCommand.exec before)
  have hsame := (hrestores _ _ _ _ _ hredeploy.ran hrollback).1
  constructor
  · intro name hname
    obtain ⟨b, hb⟩ := exists_mem_of_key hname (appUnitDir prev.name) 0
    have hunder := isUnder_pathIn (appUnitDir prev.name) name
    rcases rollback_files hrollback (pathIn (appUnitDir prev.name) name) with ⟨b', hb', -⟩ | ⟨-, hleft⟩
    · exact mem_keys_of_mem hb'
    · -- the rollback left what the redeploy had written there
      rcases redeploy_completed hdir hredeploy (pathIn (appUnitDir prev.name) name) with
        ⟨b', hb', hfile⟩ | ⟨hnot, -⟩
      · have hbefore := ((hsame _ (.inl hunder)).symm.trans hleft).trans hfile
        exact mem_keys_of_mem ((mem_deployed_unit hunder).mp (h.only _ _ (.inl hunder) hbefore))
      · exact absurd ((mem_deployed_unit hunder).mpr hb) (hnot b)
  · rintro ⟨path, b⟩ hb
    have hunder := isUnder_of_mem hb
    obtain ⟨-, hleft⟩ := (rollback_files hrollback path).resolve_left fun ⟨_, hb', _⟩ =>
      not_isUnder_both prev.name (isUnder_of_mem hb') hunder
    rcases redeploy_completed hdir hredeploy path with ⟨b', hb', hfile⟩ | ⟨hnot, -⟩
    · obtain rfl := eq_of_mem_recordFiles ((mem_deployed_health hunder).mp hb') hb
      have hbefore := ((hsame _ (.inr hunder)).symm.trans hleft).trans hfile
      exact (mem_deployed_health hunder).mp (h.only _ _ (.inr hunder) hbefore)
    · exact absurd ((mem_deployed_health hunder).mpr hb) (hnot b)

/-- The units of a redeploy, when no line of them is the tag. -/
theorem mem_recordFiles_plain {dir : String}
    (hplain : ∀ (i : ℕ) e, units.entries[i]? = some e → (heredocTag i).toList ∉ e.2.toList.splitOn '\n') :
    (p, b) ∈ recordFiles dir 0 units ↔ ∃ e ∈ units.entries, p = pathIn dir e.1 ∧ b = e.2 ++ "\n" := by
  rw [mem_recordFiles]
  constructor
  · rintro ⟨i, e, he, hp, rfl⟩
    refine ⟨e, List.mem_of_getElem? he, hp, ?_⟩
    rw [Nat.zero_add, (heredocBody_eq_iff e.2 i).mpr (hplain i e he)]
  · rintro ⟨e, he, hp, rfl⟩
    obtain ⟨i, hi⟩ := List.mem_iff_getElem?.mp he
    refine ⟨i, e, hi, hp, ?_⟩
    rw [Nat.zero_add, (heredocBody_eq_iff e.2 i).mpr (hplain i e hi)]

/-- A redeploy that covers the previous names leaves its units. -/
theorem leavesUnits (hdir : hp.unitDir = appUnitDir prev.name) (h : Installed prev prevHealth before)
    (hcovered : ∀ name ∈ prev.units.keys, name ∈ hp.units.keys)
    (hplain : ∀ (i : ℕ) e, hp.units.entries[i]? = some e →
      (heredocTag i).toList ∉ e.2.toList.splitOn '\n') : LeavesUnits hp before := by
  intro generator registry after hredeploy path hpath body
  rw [hdir] at hpath ⊢
  rw [← mem_recordFiles_plain hplain]
  rcases redeploy_completed hdir hredeploy path with ⟨b, hb, hfile⟩ | ⟨hnot, hsame⟩
  · rw [mem_deployed_unit hpath] at hb
    rw [hfile]
    constructor
    · rintro ⟨⟩
      exact hb
    · exact fun hbody => congrArg some (eq_of_mem_recordFiles hb hbody)
  · rw [hsame]
    constructor
    · intro hbefore
      have hprev := (mem_deployed_unit hpath).mp (h.only _ _ (.inl hpath) hbefore)
      obtain ⟨i, e, he, rfl, -⟩ := mem_recordFiles.mp hprev
      have hname := hcovered e.1 (List.mem_map_of_mem (List.mem_of_getElem? he))
      obtain ⟨b, hb⟩ := exists_mem_of_key hname (appUnitDir prev.name) 0
      exact absurd ((mem_deployed_unit hpath).mpr hb) (hnot b)
    · exact fun hbody => absurd ((mem_deployed_unit hpath).mpr hbody) (hnot body)

/-- A redeploy that leaves its units covers the previous names, and no line of a unit is the tag. -/
theorem covered_of_leavesUnits (hdir : hp.unitDir = appUnitDir prev.name)
    (h : Installed prev prevHealth before) (hleaves : LeavesUnits hp before) :
    (∀ name ∈ prev.units.keys, name ∈ hp.units.keys) ∧
      ∀ (i : ℕ) e, hp.units.entries[i]? = some e → (heredocTag i).toList ∉ e.2.toList.splitOn '\n' := by
  have hredeploy := completed_foldl (buildDeployScript (deployInput hp "" none)) before
  have hunits := hleaves _ _ _ hredeploy
  rw [hdir] at hunits
  constructor
  · intro name hname
    have hunder := isUnder_pathIn (appUnitDir prev.name) name
    rcases redeploy_completed hdir hredeploy (pathIn (appUnitDir prev.name) name) with
      ⟨b, hb, -⟩ | ⟨-, hsame⟩
    · exact mem_keys_of_mem ((mem_deployed_unit hunder).mp hb)
    · -- the previous unit is still there
      obtain ⟨b, hb⟩ := exists_mem_of_key hname (appUnitDir prev.name) 0
      have hbefore := h.present _ (List.mem_append_left _ hb)
      obtain ⟨e, he, hpath, -⟩ := (hunits _ hunder b).mp (hsame.trans hbefore)
      rw [pathIn_inj hpath]
      exact List.mem_map_of_mem he
  · intro i e he
    have hunder := isUnder_pathIn (appUnitDir prev.name) e.1
    have hwritten : (pathIn (appUnitDir prev.name) e.1, heredocBody e.2 (0 + i)) ∈
        recordFiles (appUnitDir prev.name) 0 hp.units := mem_recordFiles.mpr ⟨i, e, he, rfl, rfl⟩
    have hfile := (hunits _ hunder (e.2 ++ "\n")).mpr ⟨e, List.mem_of_getElem? he, rfl, rfl⟩
    rcases redeploy_completed hdir hredeploy (pathIn (appUnitDir prev.name) e.1) with
      ⟨b, hb, hfile'⟩ | ⟨hnot, -⟩
    · rw [eq_of_mem_recordFiles ((mem_deployed_unit hunder).mp hb) hwritten] at hfile'
      rw [← heredocBody_eq_iff, ← Nat.zero_add i]
      exact Option.some.inj (hfile'.symm.trans hfile)
    · exact absurd ((mem_deployed_unit hunder).mpr hwritten) (hnot _)

/-- The first deploy of an app leaves it installed. -/
theorem installed_of_completed (hdir : hp.unitDir = appUnitDir plan.name)
    (hempty : ∀ path, isUnder (appUnitDir plan.name) path = true ∨ isUnder SYSTEM_UNIT_DIR path = true →
      before.files path = none)
    (h : Completed (buildDeployScript (deployInput hp generator registry)) before after)
    (henabled : ∀ timer ∈ healthTimers hp.healthUnits, after.enabled timer = true) :
    Installed (toInstall plan hp) hp.healthUnits after := by
  have hfiles := @redeploy_completed (toInstall plan hp) hp before after generator registry hdir h
  refine ⟨fun e he => ?_, fun path body hpath hbody => ?_, henabled⟩
  · rcases hfiles e.1 with ⟨b, hb, hfile⟩ | ⟨hnot, -⟩
    · rw [hfile]
      rcases List.mem_append.mp he with hunit | hhealth
      · rw [mem_deployed_unit (isUnder_of_mem hunit)] at hb
        exact congrArg some (eq_of_mem_recordFiles hb hunit)
      · rw [mem_deployed_health (isUnder_of_mem hhealth)] at hb
        exact congrArg some (eq_of_mem_recordFiles hb hhealth)
    · exact absurd he (hnot e.2)
  · rcases hfiles path with ⟨b, hb, hfile⟩ | ⟨-, hsame⟩
    · rwa [Option.some.inj (hbody.symm.trans hfile)]
    · cases (hbody.symm.trans hsame).trans (hempty path hpath)

/-- A redeploy is undone by the rollback, and leaves its own units when it succeeds, exactly when the two
installs have the same unit files, the health files are among the previous ones, and no line of a unit is
the tag that ends it. -/
theorem redeploy_iff (plan : AppPlan) (prev : AppInstallV1) (prevHealth : Record String) (hp : HostDeployPlan)
    (before : HostState) (hdir : hp.unitDir = appUnitDir prev.name)
    (h : Installed prev prevHealth before) :
    Restores plan prev hp before ∧ LeavesUnits hp before ↔ SameFiles prev prevHealth hp := by
  constructor
  · rintro ⟨hrestores, hleaves⟩
    obtain ⟨hkept, hhealth⟩ := kept_of_restores hdir h hrestores
    obtain ⟨hcovered, hplain⟩ := covered_of_leavesUnits hdir h hleaves
    exact ⟨hkept, hcovered, hhealth, hplain⟩
  · rintro ⟨hkept, hcovered, hhealth, hplain⟩
    exact ⟨restores hdir h hkept hhealth, leavesUnits hdir h hcovered hplain⟩

end Redeploy

/-! ## A wiki that is deployed again -/

/-- An app of one component. -/
def wikiPlan (component image : String) : AppPlan where
  name := "wiki"
  pod := none
  components := [{
    name := component
    container := "vops-wiki-" ++ component
    image := image
    env := []
    secrets := []
    ports := []
    volumes := []
    cpu := none
    memory := none
    health := none
    dependsOn := []
    command := none }]
  primary := component
  needsAppDomain := false
  warnings := []

/-- Its deploy. -/
def wikiDeploy (component image : String) : HostDeployPlan where
  unitDir := appUnitDir "wiki"
  coexistence := false
  ports := .empty
  units := Record.empty.set ("vops-wiki-" ++ component ++ ".container") ("[Container]\nImage=" ++ image)
  healthUnits := .empty
  secrets := []
  services := ["vops-wiki-" ++ component ++ ".service"]
  prereqServices := []
  volumes := []
  pod := none
  endpoints := []

/-- The wiki, as it is installed first. -/
def wikiInstall : AppInstallV1 := toInstall (wikiPlan "app" "wiki:1") (wikiDeploy "app" "wiki:1")

/-- A host on which the wiki was installed. -/
def wikiHost : HostState :=
  (buildDeployScript (deployInput (wikiDeploy "app" "wiki:1") "" none)).foldl HostCommand.exec
    ⟨fun _ => none, fun _ => false, [], []⟩

theorem wikiHost_installed : Installed wikiInstall .empty wikiHost := by
  refine installed_of_completed rfl (fun _ _ => rfl)
    (completed_foldl (buildDeployScript (deployInput (wikiDeploy "app" "wiki:1") "" none)) _) ?_
  exact fun _ h => absurd h List.not_mem_nil

/-- A new image for the same component is undone. -/
theorem wiki_image : Restores (wikiPlan "app" "wiki:2") wikiInstall (wikiDeploy "app" "wiki:2") wikiHost ∧
    LeavesUnits (wikiDeploy "app" "wiki:2") wikiHost := by
  refine (redeploy_iff _ _ .empty _ _ rfl wikiHost_installed).mpr ⟨?_, ?_, ?_, ?_⟩
  · decide +kernel
  · decide +kernel
  · exact List.nil_subset _
  · intro i e he
    cases i with
    | zero =>
        obtain rfl := Option.some.inj he
        decide +kernel
    | succ i => cases he

/-- The unit of a component under a new name stays after the rollback, and that of the old name after a
redeploy that succeeds. -/
theorem wiki_renamed : Installed wikiInstall .empty wikiHost ∧
    (wikiDeploy "web" "wiki:2").unitDir = appUnitDir wikiInstall.name ∧
    ¬Restores (wikiPlan "web" "wiki:2") wikiInstall (wikiDeploy "web" "wiki:2") wikiHost ∧
    ¬LeavesUnits (wikiDeploy "web" "wiki:2") wikiHost := by
  refine ⟨wikiHost_installed, rfl, fun hrestores => ?_, fun hleaves => ?_⟩
  · obtain ⟨hkept, -⟩ := kept_of_restores rfl wikiHost_installed hrestores
    have hweb : "vops-wiki-web.container" ∈ wikiInstall.units.keys := hkept _ (by decide +kernel)
    revert hweb
    decide +kernel
  · obtain ⟨hcovered, -⟩ := covered_of_leavesUnits rfl wikiHost_installed hleaves
    have happ : "vops-wiki-app.container" ∈ (wikiDeploy "web" "wiki:2").units.keys :=
      hcovered _ (by decide +kernel)
    revert happ
    decide +kernel

end Vops.Apps
