import Vops.AgentControl.ExecutorThms
import Vops.AgentControl.PolicyEngine
import Vops.Lib.Interleave

/-!
# The target scope, end to end

The policy engine looks for a target under three keys of the input (`targetFrom`); each branch of the
executor reads its host from its own place.

* `inputHosts_in_scope` — a host that a branch reads from its input is one the policy engine looked at.
* `Renders` — a stored plan file that `apply` reads and gets to render.
* `hosts_in_scope_iff` — every host the executor hands to a service is a target of the session, but for
  `application.deploy`: there it holds exactly when the host in the stored plan file is one.
-/

namespace Vops.CoreActionExecutor

open CapabilityRegistry PolicyEngine VopsServers

variable {input : Json} {capability : String} {emergencyStop : Bool} {request : PolicyRequest}

/-! ## Accepted inputs -/

/-- What an input without errors looks like. -/
structure Accepts (schema : InputSchema) (input : Json) : Prop where
  required : ∀ key ∈ schema.required, input.get? key ≠ none
  known : ∀ key v, input.get? key = some v → ∃ p ∈ schema.properties, p.name = key
  typed : ∀ p ∈ schema.properties, ∀ v, input.get? p.name = some v → valueErrors p v = []

theorem accepts_of_no_errors {schema : InputSchema} (h : inputErrors schema input = []) :
    Accepts schema input := by
  cases input with
  | obj fields =>
      obtain ⟨hrequired, hextra, htyped⟩ :
          (∀ key ∈ schema.required, ¬(Json.obj fields).get? key = none) ∧
          (∀ key v, (key, v) ∈ fields → ∃ p ∈ schema.properties, p.name = key) ∧
          ∀ p ∈ schema.properties,
            (((Json.obj fields).get? p.name).map (valueErrors p)).getD [] = [] := by
        simpa [inputErrors] using h
      refine ⟨hrequired, fun key v hv => ?_, fun p hp v hv => ?_⟩
      · obtain ⟨f, hf, -⟩ := Option.map_eq_some_iff.mp hv
        have hname : f.1 = key := by simpa using List.find?_some hf
        exact hname ▸ hextra f.1 f.2 (List.mem_of_find?_eq_some hf)
      · simpa [hv] using htyped p hp
  | _ => simp [inputErrors] at h

/-- The entry under a key that is not completed by a default. -/
theorem get?_withDefaults {schema : InputSchema} {key : String}
    (hkey : ∀ p ∈ schema.properties, p.name = key → p.default = none) :
    (withDefaults schema input).get? key = input.get? key := by
  cases input with
  | obj fields =>
      have hadded : (schema.properties.filterMap fun p =>
          if ((Json.obj fields).get? p.name).isSome then none
          else p.default.map fun v => (p.name, v)).find? (fun f => f.1 == key) = none := by
        refine List.find?_eq_none.mpr fun f hmem hname => ?_
        obtain ⟨p, hp, hf⟩ := List.mem_filterMap.mp hmem
        by_cases hsome : ((Json.obj fields).get? p.name).isSome = true
        · simp [hsome] at hf
        · rw [if_neg hsome] at hf
          obtain ⟨v, hv, rfl⟩ := Option.map_eq_some_iff.mp hf
          rw [hkey p hp (by simpa using hname)] at hv
          cases hv
      simp only [withDefaults, Json.get?, List.find?_append]
      rw [show (fields.find? fun f => f.1 == key).or _ = fields.find? fun f => f.1 == key by
        erw [hadded, Option.or_none]]
  | _ => rfl

/-- A property that has to be a text of at least one character. -/
theorem text_of_accepted {schema : InputSchema} {key : String} {v : Json}
    (hinput : Accepts schema input) (hkey : nonEmptyText key ∈ schema.properties)
    (hv : input.get? key = some v) : ∃ s, v = .str s ∧ s ≠ "" := by
  have htyped := hinput.typed _ hkey v hv
  cases v with
  | str s =>
      refine ⟨s, rfl, ?_⟩
      rintro rfl
      simp [valueErrors, hasType, nonEmptyText, minLengthErrors] at htyped
  | num n => cases n <;> simp [valueErrors, hasType, nonEmptyText] at htyped
  | _ => simp [valueErrors, hasType, nonEmptyText] at htyped

/-- The schema asks for a non-empty text under the key, which the policy engine takes for the target. -/
structure Targeted (schema : InputSchema) (key : String) : Prop where
  text : nonEmptyText key ∈ schema.properties
  first : key = "target" ∨ key = "host" ∧ ∀ p ∈ schema.properties, p.name ≠ "target"
  plain : ∀ p ∈ schema.properties, p.name = key → p.default = none

/-- What stands under the key of an accepted input is the target. -/
theorem targetFrom_of_targeted {schema : InputSchema} {key : String} {v : Json}
    (hschema : Targeted schema key) (hinput : Accepts schema (withDefaults schema input))
    (hv : input.get? key = some v) : ∃ s, v = .str s ∧ targetFrom input = some s := by
  obtain ⟨s, rfl, hs⟩ := text_of_accepted hinput hschema.text
    ((get?_withDefaults hschema.plain).trans hv)
  refine ⟨s, rfl, ?_⟩
  rcases hschema.first with rfl | ⟨rfl, hnone⟩
  · simp [targetFrom, hv, hs]
  · have htarget : input.get? "target" = none := by
      rw [← get?_withDefaults fun (p : PropertySchema) (hp : p ∈ schema.properties) hname =>
        absurd hname (hnone p hp)]
      by_contra hsome
      obtain ⟨v, hv⟩ := Option.ne_none_iff_exists'.mp hsome
      obtain ⟨p, hp, hname⟩ := hinput.known "target" v hv
      exact hnone p hp hname
    simp [targetFrom, hv, hs, htarget]

/-- A target within the scope of the session is one of its targets. -/
theorem mem_of_scopeDenial {session : AgentSession} {c : CapabilityDefinition}
    {environment : AgentEnvironment} {target : String}
    (hscope : scopeDenial session c input environment = none) (htargets : session.scope.targets ≠ [])
    (htarget : targetFrom input = some target) : target ∈ session.scope.targets := by
  by_contra hmem
  unfold scopeDenial at hscope
  split at hscope
  · cases hscope
  · simp [htarget, hmem] at hscope

/-- The schemas of the capabilities whose hosts are read from their inputs. -/
theorem targeted {c : CapabilityDefinition} (hc : find capability = some c) :
    (capability ∈ hostRequired → Targeted c.inputSchema "host" ∧ "host" ∈ c.inputSchema.required) ∧
    (capability ∈ targetRequired →
      Targeted c.inputSchema "target" ∧ "target" ∈ c.inputSchema.required) ∧
    (capability ∈ hostOptional → Targeted c.inputSchema "host") := by
  refine ⟨fun hmem => ?_, fun hmem => ?_, fun hmem => ?_⟩ <;>
    simp only [hostRequired, targetRequired, hostOptional, List.mem_cons, List.not_mem_nil,
      or_false] at hmem
  · rcases hmem with rfl | rfl <;> cases hc <;>
      exact ⟨⟨by simp [catalogInstall, applicationPlanDeploy], .inr ⟨rfl, by decide⟩,
        by simp [catalogInstall, applicationPlanDeploy, nonEmptyText]⟩, by decide⟩
  · rcases hmem with rfl | rfl | rfl | rfl | rfl <;> cases hc <;>
      exact ⟨⟨by simp [targetInspect, serverHarden, firewallInspect, firewallOpenPort,
          firewallClosePort], .inl rfl, by simp [targetInspect, serverHarden, firewallInspect,
          firewallOpenPort, firewallClosePort, nonEmptyText]⟩, by decide⟩
  · rcases hmem with rfl | rfl | rfl | rfl <;> cases hc <;>
      exact ⟨by simp [applicationStatus, applicationRestart, logsReadRecent, healthcheckRun],
        .inr ⟨rfl, by decide⟩, by simp [applicationStatus, applicationRestart, logsReadRecent,
          healthcheckRun, nonEmptyText]⟩

/-- Every host that a branch reads from its input is a target of the session. -/
theorem inputHosts_in_scope (hvalid : (validate request.capability request.input).1 = [])
    (hallow : Answers emergencyStop request .allow) (htargets : request.session.scope.targets ≠ []) :
    ∀ host ∈ inputHosts request.capability request.input,
      host ∈ request.session.scope.targets := by
  obtain ⟨c, hc, heff⟩ := answers_iff.mp hallow
  have hpass := passes_of_not_deny (show (decideFor emergencyStop c request).effect ≠ .deny by
    rw [heff]; decide)
  have hinput : Accepts c.inputSchema (withDefaults c.inputSchema request.input) := by
    refine accepts_of_no_errors ?_
    simpa [validate, hc, hpass.enabled] using hvalid
  -- what stands under a targeted key is a target of the session
  have hkey : ∀ key v, Targeted c.inputSchema key → request.input.get? key = some v →
      ∃ s, v = .str s ∧ s ∈ request.session.scope.targets := by
    intro key v hschema hv
    obtain ⟨s, rfl, hs⟩ := targetFrom_of_targeted hschema hinput hv
    exact ⟨s, rfl, mem_of_scopeDenial hpass.in_scope htargets hs⟩
  have hrequired : ∀ key, Targeted c.inputSchema key → key ∈ c.inputSchema.required →
      text request.input key ∈ request.session.scope.targets := by
    intro key hschema hreq
    have hsome := hinput.required key hreq
    rw [get?_withDefaults hschema.plain] at hsome
    obtain ⟨v, hv⟩ := Option.ne_none_iff_exists'.mp hsome
    obtain ⟨s, rfl, hs⟩ := hkey key v hschema hv
    simpa [text, hv] using hs
  obtain ⟨hhost, htarget, happ⟩ := targeted hc
  intro host hmem
  unfold inputHosts at hmem
  split at hmem
  · next h =>
      obtain rfl := List.mem_singleton.mp hmem
      exact hrequired "host" (hhost h).1 (hhost h).2
  split at hmem
  · next h =>
      obtain rfl := List.mem_singleton.mp hmem
      exact hrequired "target" (htarget h).1 (htarget h).2
  split at hmem
  · next h =>
      obtain ⟨⟨v, hv, hvs⟩, -⟩ : (∃ v, request.input.get? "host" = some v ∧ v.str? = some host) ∧
          host ≠ "" := by
        simpa [appHost, Option.filter_eq_some_iff, Option.bind_eq_some_iff] using hmem
      obtain ⟨s, rfl, hs⟩ := hkey "host" v (happ h) hv
      rwa [← Option.some.inj hvs]
  · cases hmem

/-! ## What is handed on -/

/-- Everything that was recorded acts on these hosts only. -/
def LogWithin (hosts : List String) (log : List (Pool.Event Op Unit World)) : Prop :=
  ∀ e ∈ log, ∀ host ∈ e.op.hosts, host ∈ hosts

/-- Executed alone in `w`, the program hands only these hosts to a service. -/
def HandsOnly (env : Env) (w : World) (hosts : List String) {α : Type} (p : Prog α) : Prop :=
  LogWithin hosts (Async.run (Pool.recorded (handle env) ()) p (w, [])).2.2

variable {env : Env} {w : World} {hosts : List String} {α β : Type}
  {log : List (Pool.Event Op Unit World)}

/-- A program of operations on these hosts records nothing else. -/
theorem logWithin_run (env : Env) {p : Prog α} {s : World × List (Pool.Event Op Unit World)}
    (hp : p.AllOps fun o => ∀ host ∈ o.hosts, host ∈ hosts) (hs : LogWithin hosts s.2) :
    LogWithin hosts (Async.run (Pool.recorded (handle env) ()) p s).2.2 := by
  refine hp.run_keeps (I := fun s : World × _ => LogWithin hosts s.2) (fun o s ho hlog e he => ?_) hs
  rcases List.mem_append.mp he with he | he
  · exact hlog e he
  · obtain rfl := List.mem_singleton.mp he
    exact ho

/-! ## Stored plan files -/

/-- The values that were set when a stored plan was made are in the vault, as they were. -/
def ValuesKept (env : Env) (w : World) (stored inputs : Json) : Prop :=
  ∀ digests, inputs.get? "setDigest" = some digests → digests.truthy = true →
    (∃ v, env.service w.answers .ensureVaultUnlocked = .ok v) ∧
    ∃ set, env.planSecrets (w.answers + 1) (stored.get? "id") = some set ∧
      VopsAgentApi.digestsMatch digests (set.map fun e => (e.1, env.sha256 e.2)) = true

/-- The specification of a stored plan is the one it was made from. -/
def SpecKept (env : Env) (w : World) (projectDir : String) (inputs : Json) : Prop :=
  ∃ file content, VopsAgentApi.specPath projectDir (inputs.get? "spec") = .ok file ∧
    w.files file = some content ∧
    (inputs.get? "specHash").bind Json.str? = some (env.digestFile content)

/-- The stored plan can be rendered: it is a plan of the current schema, its values are kept, and the
specification is unchanged. -/
structure Renderable (env : Env) (w : World) (projectDir : String) (stored inputs : Json) :
    Prop where
  recorded : stored.get? "inputs" = some inputs ∧ inputs ≠ .null
  version : (stored.get? "schemaVersion").bind Json.num? = some 2
  values : ValuesKept env w stored inputs
  spec : SpecKept env w projectDir inputs

/-- `apply` finds the stored plan and gets to render it. -/
structure Renders (env : Env) (w : World) (projectDir id : String) (stored inputs : Json) :
    Prop extends Renderable env w projectDir stored inputs where
  file : ∃ path, VopsAgentApi.planFile projectDir id = .ok path ∧
    w.files path = some (.json stored)
  filled : stored.truthy = true

/-- The digests of the values are those of the environment. -/
theorem run_setDigests (set : List (String × String)) :
    Async.run (handle env) (VopsAgentApi.setDigests set) w =
      (.ok (set.map fun e => (e.1, env.sha256 e.2)), w) := by
  induction set with
  | nil => rfl
  | cons entry set ih =>
      obtain ⟨key, value⟩ := entry
      have hdigest : handle env (.digestText value) w = (env.sha256 value, w) := rfl
      rw [VopsAgentApi.setDigests, Async.perform_bind, Async.run_await, hdigest, Async.run_bind, ih]
      rfl

/-- The values are accepted exactly when they are kept. -/
theorem run_setValues (stored inputs : Json) :
    (∃ set, (Async.run (handle env)
      (VopsAgentApi.setValues stored (inputs.get? "setDigest")) w).1 = .ok set) ↔
    ValuesKept env w stored inputs := by
  unfold ValuesKept VopsAgentApi.setValues
  cases inputs.get? "setDigest" with
  | none => simp
  | some digests =>
      cases ht : digests.truthy with
      | false => simp [ht]
      | true =>
          have hunlock : (handle env (.service .ensureVaultUnlocked) w).1 =
              env.service w.answers .ensureVaultUnlocked := rfl
          have hdrawn : (handle env (.service .ensureVaultUnlocked) w).2 = w.drawn := rfl
          have hsecrets : (handle env (.planSecrets (stored.get? "id")) w.drawn).1 =
              env.planSecrets (w.answers + 1) (stored.get? "id") := rfl
          simp only [ht, if_true, call, Async.perform_bind, Async.await_bind, Async.run_await,
            hunlock, hdrawn]
          cases env.service w.answers .ensureVaultUnlocked with
          | error e => simp [ht]
          | ok v =>
              simp only [liftExcept_eq, Async.ok_bind, Async.run_await, hsecrets]
              cases env.planSecrets (w.answers + 1) (stored.get? "id") with
              | none => simp [ht, VopsAgentApi.stalePlan, throwMessage]
              | some set =>
                  simp only [Async.run_bind, run_setDigests]
                  split <;> simp_all [VopsAgentApi.stalePlan, throwMessage]

/-- The digest of a file is that of its content. -/
theorem run_hashFile (path : String) :
    Async.run (handle env) (VopsAgentApi.hashFile path) w =
      (match w.files path with
        | none => .error (.thrown s!"ENOENT: no such file or directory, open '{path}'")
        | some content => .ok (env.digestFile content), w) := by
  have hread : handle env (.readFile path) w = (w.files path, w) := rfl
  rw [VopsAgentApi.hashFile, Async.perform_bind, Async.run_await, hread]
  cases w.files path <;> rfl

/-- The specification is accepted exactly when it is kept. -/
theorem run_checkSpec (env : Env) (w : World) (projectDir id : String) (inputs : Json) :
    (Async.run (handle env) (VopsAgentApi.checkSpec projectDir id inputs) w).1 = .ok () ↔
    SpecKept env w projectDir inputs := by
  unfold SpecKept VopsAgentApi.checkSpec
  cases VopsAgentApi.specPath projectDir (inputs.get? "spec") with
  | error e => simp
  | ok file =>
      simp only [liftExcept_eq, Async.ok_bind, Async.run_bind, run_hashFile]
      cases hcontent : w.files file with
      | none => simp [hcontent]
      | some content =>
          by_cases hhash : (inputs.get? "specHash").bind Json.str? = some (env.digestFile content)
          · simp [hcontent, hhash]
          · simp [hcontent, hhash, VopsAgentApi.stalePlan, throwMessage]

/-- A silent program in front: the rest runs when it succeeds, on the same files. -/
theorem gate_iff {p : Prog α} {f : α → Prog β} {s : World × List (Pool.Event Op Unit World)}
    {G H : Prop} (hp : p.AllOps Silent) (hs : LogWithin hosts s.2)
    (hG : (∃ a, (Async.run (handle env) p s.1).1 = .ok a) ↔ G)
    (hf : ∀ a s', G → s'.1.files = s.1.files → LogWithin hosts s'.2 →
      (Async.run (handle env) p s.1).1 = .ok a → s'.1 = (Async.run (handle env) p s.1).2 →
      (LogWithin hosts (Async.run (Pool.recorded (handle env) ()) (f a) s').2.2 ↔ H)) :
    LogWithin hosts (Async.run (Pool.recorded (handle env) ()) (p >>= f) s).2.2 ↔ (G → H) := by
  have hrun := Pool.run_recorded (h := handle env) (i := ()) (s := s) p
  have hlog := logWithin_run env (hp.mono fun o ho host h => by simp [ho.2] at h) hs
  have hfiles : (Async.run (handle env) p s.1).2.files = s.1.files :=
    hp.run_keeps (I := fun w : World => w.files = s.1.files)
      (fun o w ho hf => (handle_files (Op.quiet_writes ho.1).2.2.2.2.1).trans hf) rfl
  rw [Async.run_bind]
  cases hr : Async.run (Pool.recorded (handle env) ()) p s with
  | mk r s' =>
      rw [hr] at hrun hlog
      obtain ⟨hr₁, hr₂⟩ := hrun
      cases r with
      | error e =>
          have hno : ¬G := fun h => by
            obtain ⟨a, ha⟩ := hG.mpr h
            rw [← hr₁] at ha
            cases ha
          exact ⟨fun _ h => absurd h hno, fun _ => hlog⟩
      | ok a =>
          have hyes : G := hG.mp ⟨a, hr₁.symm⟩
          have hfiles' : s'.1.files = s.1.files := by rw [← hfiles, ← hr₂]
          exact (hf a s' hyes hfiles' hlog hr₁.symm hr₂).trans ⟨fun h _ => h, fun h => h hyes⟩

/-- Deploying a stored plan hands on the host of the request. -/
theorem deployStored_iff {req : VopsAgentApi.PlanRequest} {id : String} {stored inputs : Json}
    {set : Option (List (String × String))} {s : World × List (Pool.Event Op Unit World)}
    {file : String} (hfile : VopsAgentApi.specPath req.projectDir (req.get "spec") = .ok file)
    (hs : LogWithin hosts s.2) :
    LogWithin hosts (Async.run (Pool.recorded (handle env) ())
      (VopsAgentApi.deployStored id stored inputs req set) s).2.2 ↔
    ∀ host, req.get "host" = some (.str host) → host ∈ hosts := by
  refine ⟨fun h host hhost => ?_, fun h => logWithin_run env ((deployStored_ops h).mono fun _ ho => ho.2) hs⟩
  -- the rendering is the first operation
  have hsource : ∃ app, VopsAgentApi.source req = .ok app := by
    simp [VopsAgentApi.source, hfile, bind, Except.bind, pure, Except.pure]
  obtain ⟨app, happ⟩ := hsource
  have hfirst : ∃ k, VopsAgentApi.deployStored id stored inputs req set =
      .await (.service (.appsDeploy app (req.get "host") (VopsAgentApi.deployOptions req true))) k := by
    simp only [VopsAgentApi.deployStored, VopsAgentApi.deploy, happ, liftExcept_eq, Async.ok_bind,
      call, Async.perform_bind, Async.await_bind]
    exact ⟨_, rfl⟩
  obtain ⟨k, hk⟩ := hfirst
  rw [hk, Async.run_await] at h
  refine h _ ((Pool.prefix_run_recorded _).subset (List.mem_append_right _ (List.mem_singleton_self _))) host ?_
  simp [Op.hosts, ServiceCall.hosts, hhost, Json.str?]

/-- What `apply` hands on, once the stored plan is read: the host that the file records, if the values
and the specification are those the plan was made from. -/
theorem applyStored_iff {projectDir id : String} {stored inputs : Json}
    {s : World × List (Pool.Event Op Unit World)} (hs : LogWithin hosts s.2) :
    LogWithin hosts (Async.run (Pool.recorded (handle env) ())
      (VopsAgentApi.applyStored projectDir id stored inputs) s).2.2 ↔
    (ValuesKept env s.1 stored inputs → SpecKept env s.1 projectDir inputs →
      ∀ host, inputs.get? "host" = some (.str host) → host ∈ hosts) := by
  refine gate_iff (setValues_silent _ _) hs (run_setValues stored inputs) ?_
  intro set s' _ hfiles hs' _ _
  have hspec : SpecKept env s.1 projectDir inputs ↔ SpecKept env s'.1 projectDir inputs := by
    unfold SpecKept
    rw [hfiles]
  rw [hspec]
  refine gate_iff (checkSpec_silent _ _ _) hs' ?_ ?_
  · rw [← run_checkSpec env s'.1 projectDir id inputs]
    exact ⟨fun ⟨_, h⟩ => h, fun h => ⟨(), h⟩⟩
  · rintro _ s'' ⟨file, content, hfile, -⟩ _ hs'' _ _
    exact deployStored_iff hfile hs''

/-- `loadPlan` answers what the file of the plan holds. -/
theorem run_loadPlan (projectDir id : String) (stored : Json) :
    (Async.run (handle env) (VopsAgentApi.loadPlan projectDir id) w).1 = .ok (some stored) ↔
      ∃ path, VopsAgentApi.planFile projectDir id = .ok path ∧
        w.files path = some (.json stored) := by
  unfold VopsAgentApi.loadPlan
  cases VopsAgentApi.planFile projectDir id with
  | error e => simp
  | ok path =>
      have hread : (handle env (.readFile path) w).1 = w.files path := rfl
      simp only [liftExcept_eq, Async.ok_bind, Async.perform_bind, Async.run_await, hread]
      rcases hfile : w.files path with _ | v | t <;> simp [throwMessage, hfile]

theorem loadPlan_silent (projectDir id : String) :
    (VopsAgentApi.loadPlan projectDir id).AllOps Silent := by
  refine (allOps_liftExcept _).bind fun path => ⟨⟨rfl, rfl⟩, fun content => ?_⟩
  rcases content with _ | _ | _ <;> trivial

/-- Loading a plan only reads. -/
theorem run_loadPlan_state (projectDir id : String) :
    (Async.run (handle env) (VopsAgentApi.loadPlan projectDir id) w).2 = w := by
  unfold VopsAgentApi.loadPlan
  cases VopsAgentApi.planFile projectDir id with
  | error e => rfl
  | ok path =>
      have hread : handle env (.readFile path) w = (w.files path, w) := rfl
      simp only [liftExcept_eq, Async.ok_bind, Async.perform_bind, Async.run_await, hread]
      rcases w.files path with _ | v | t <;> rfl

/-- The inputs of a stored plan are there to be read. -/
theorem prop_inputs_ok (stored : Json) :
    (∃ v, prop (stored.get? "inputs") "host" = .ok v) ↔
      ∃ inputs, stored.get? "inputs" = some inputs ∧ inputs ≠ .null := by
  cases stored.get? "inputs" with
  | none => simp [prop]
  | some inputs => cases inputs <;> simp [prop]

/-- What `apply` hands on, once the file is read. -/
theorem applyLoaded_iff {projectDir id : String} {v : Json}
    {s : World × List (Pool.Event Op Unit World)} (hs : LogWithin hosts s.2) :
    LogWithin hosts (Async.run (Pool.recorded (handle env) ())
      (VopsAgentApi.applyLoaded projectDir id v) s).2.2 ↔
    ∀ inputs, Renderable env s.1 projectDir v inputs →
      ∀ host, inputs.get? "host" = some (.str host) → host ∈ hosts := by
  have hgate : LogWithin hosts (Async.run (Pool.recorded (handle env) ())
      (VopsAgentApi.applyLoaded projectDir id v) s).2.2 ↔
      ((∃ inputs, v.get? "inputs" = some inputs ∧ inputs ≠ .null) →
        ∀ inputs, Renderable env s.1 projectDir v inputs →
          ∀ host, inputs.get? "host" = some (.str host) → host ∈ hosts) := by
    refine gate_iff (allOps_liftExcept _) hs (by rw [liftExcept_eq]; exact prop_inputs_ok v) ?_
    intro _ s' hrecorded _ hs' _ hstate
    obtain ⟨inputs, hinputs, hnull⟩ := hrecorded
    rw [liftExcept_eq] at hstate
    rw [← show s'.1 = s.1 from hstate]
    dsimp only
    by_cases hversion : (v.get? "schemaVersion").bind Json.num? = some 2
    · rw [if_pos hversion, hinputs]
      refine (applyStored_iff hs').trans ⟨fun h inputs' hr => ?_, fun h hvalues hspec => ?_⟩
      · obtain rfl := Option.some.inj (hinputs.symm.trans hr.recorded.1)
        exact h hr.values hr.spec
      · exact h inputs ⟨⟨hinputs, hnull⟩, hversion, hvalues, hspec⟩
    · rw [if_neg hversion]
      exact ⟨fun _ _ hr => absurd hr.version hversion, fun _ => hs'⟩
  exact hgate.trans ⟨fun h inputs hr => h ⟨inputs, hr.recorded⟩ inputs hr, fun h _ => h⟩

/-- What `apply` hands on: the host of the plan file that it gets to render. -/
theorem apply_iff {projectDir id : String} {s : World × List (Pool.Event Op Unit World)}
    (hs : LogWithin hosts s.2) :
    LogWithin hosts (Async.run (Pool.recorded (handle env) ())
      (VopsAgentApi.apply projectDir id) s).2.2 ↔
    ∀ stored inputs, Renders env s.1 projectDir id stored inputs →
      ∀ host, inputs.get? "host" = some (.str host) → host ∈ hosts := by
  have hloads : ∀ stored inputs, Renders env s.1 projectDir id stored inputs →
      (Async.run (handle env) (VopsAgentApi.loadPlan projectDir id) s.1).1 = .ok (some stored) :=
    fun stored inputs hr => (run_loadPlan projectDir id stored).mpr hr.file
  have hgate : LogWithin hosts (Async.run (Pool.recorded (handle env) ())
      (VopsAgentApi.apply projectDir id) s).2.2 ↔
      ((∃ loaded, (Async.run (handle env) (VopsAgentApi.loadPlan projectDir id) s.1).1 =
          .ok loaded) →
        ∀ stored inputs, Renders env s.1 projectDir id stored inputs →
          ∀ host, inputs.get? "host" = some (.str host) → host ∈ hosts) := by
    refine gate_iff (loadPlan_silent projectDir id) hs Iff.rfl ?_
    intro loaded s' _ _ hs' hloaded hstate
    rw [run_loadPlan_state] at hstate
    rw [hloaded] at hloads
    by_cases hv : ∃ v, loaded = some v ∧ v.truthy = true
    · obtain ⟨v, rfl, hv⟩ := hv
      simp only [Option.filter_some, hv, if_true]
      refine (applyLoaded_iff hs').trans ⟨fun h stored inputs hr => ?_, fun h inputs hr => ?_⟩
      · obtain rfl : v = stored := by simpa using hloads stored inputs hr
        exact h inputs (hstate ▸ hr.toRenderable)
      · refine h v inputs ⟨hstate ▸ hr, ?_, hv⟩
        exact (run_loadPlan projectDir id v).mp hloaded
    · have hnone : loaded.filter Json.truthy = none := by
        cases loaded with
        | none => rfl
        | some v => simpa using fun h => hv ⟨v, rfl, h⟩
      rw [hnone]
      refine ⟨fun _ stored inputs hr => absurd ⟨stored, ?_, hr.filled⟩ hv, fun _ => hs'⟩
      simpa using hloads stored inputs hr
  exact hgate.trans ⟨fun h stored inputs hr => h ⟨_, hloads stored inputs hr⟩ stored inputs hr,
    fun h _ => h⟩

/-- The project of the step is the repository of the session. -/
def InRepository (env : Env) (w : World) (input : Json) (session : AgentSession) : Prop :=
  env.realpath w.answers (Json.textOf (input.get? "projectDir")) = .ok session.repository.path

/-- `assertRepository` answers the repository of the session, or refuses. -/
theorem run_assertRepository (requested : Option Json) (session : AgentSession) (path : String) :
    (Async.run (handle env) (assertRepository requested session) w).1 = .ok path ↔
      path = session.repository.path ∧ env.realpath w.answers (Json.textOf requested) = .ok path := by
  have hread : (handle env (.realpath (Json.textOf requested)) w).1 =
      env.realpath w.answers (Json.textOf requested) := rfl
  rw [assertRepository, Async.perform_bind, Async.run_await, hread]
  cases env.realpath w.answers (Json.textOf requested) with
  | error e => simp
  | ok found =>
      rw [liftExcept_eq, Async.ok_bind]
      by_cases hfound : found = session.repository.path
      · subst hfound
        simp [eq_comm]
      · rw [if_pos hfound]
        simp only [throwControl, Async.throw_eq, Async.run_done, reduceCtorEq, Except.ok.injEq,
          false_iff, not_and]
        rintro rfl
        exact hfound

theorem run_assertRepository_state (requested : Option Json) (session : AgentSession) :
    (Async.run (handle env) (assertRepository requested session) w).2 = w.drawn := by
  have hdrawn : (handle env (.realpath (Json.textOf requested)) w).2 = w.drawn := rfl
  rw [assertRepository, Async.perform_bind, Async.run_await, hdrawn]
  cases (handle env (.realpath (Json.textOf requested)) w).1 with
  | error e => rfl
  | ok found =>
      rw [liftExcept_eq, Async.ok_bind]
      split <;> rfl

theorem assertRepository_silent (requested : Option Json) (session : AgentSession) :
    (assertRepository requested session).AllOps Silent := by
  refine Async.AllOps.bind (Async.AllOps.of_perform ⟨rfl, rfl⟩) fun x => ?_
  refine Async.AllOps.bind (allOps_liftExcept x) fun found => ?_
  split <;> trivial

/-- The stored plan that `application.deploy` would render records a host among these. -/
def PlannedHostIn (env : Env) (w : World) (hosts : List String) (input : Json)
    (session : AgentSession) : Prop :=
  InRepository env w input session → ∀ stored inputs,
    Renders env w.drawn session.repository.path (text input "planId") stored inputs →
      ∀ host, inputs.get? "host" = some (.str host) → host ∈ hosts

/-- What `application.deploy` hands on. -/
theorem deployPlanned_iff {session : AgentSession} {s : World × List (Pool.Event Op Unit World)}
    (hs : LogWithin hosts s.2) :
    LogWithin hosts (Async.run (Pool.recorded (handle env) ())
      (deployPlanned input session) s).2.2 ↔ PlannedHostIn env s.1 hosts input session := by
  refine gate_iff (assertRepository_silent _ _) hs ?_ ?_
  · refine ⟨fun ⟨path, h⟩ => ?_, fun h => ⟨_, (run_assertRepository _ _ _).mpr ⟨rfl, h⟩⟩⟩
    obtain ⟨rfl, hpath⟩ := (run_assertRepository _ _ _).mp h
    exact hpath
  · intro path s' _ _ hs' hpath hstate
    obtain ⟨rfl, -⟩ := (run_assertRepository _ _ _).mp hpath
    rw [run_assertRepository_state] at hstate
    rw [← hstate]
    exact apply_iff hs'

/-- Recording an event names no host. -/
theorem commitEvent_hostless (session : AgentSession) (monthlyEur : Json) :
    (AgentSessionManager.commitEvent session monthlyEur).AllOps (·.hosts = []) := by
  unfold AgentSessionManager.commitEvent
  cases monthlyEur <;> cases session.limits.maxProviderSpendEur <;>
    first
    | trivial
    | exact ⟨rfl, fun _ => ⟨rfl, fun _ => ⟨rfl, fun _ => ⟨rfl, fun _ => ⟨rfl, fun _ => trivial⟩⟩⟩⟩⟩

/-- Booking an amount names no host. -/
theorem commitProviderSpend_hostless (id : ℕ) (monthlyEur : Json) :
    (AgentSessionManager.commitProviderSpend id monthlyEur).AllOps (·.hosts = []) := by
  refine ⟨rfl, fun found => ?_⟩
  cases found with
  | none => trivial
  | some session =>
      refine Async.AllOps.bind trivial fun session => ?_
      unfold AgentSessionManager.commitRecord
      split
      · obtain ⟨e, he⟩ := AgentSessionManager.refuseSpend_eq session monthlyEur
        rw [he]
        trivial
      · exact ⟨rfl, fun _ => commitEvent_hostless session monthlyEur⟩

/-- Provisioning hands no host on. -/
theorem provision_hostless {session : AgentSession} :
    (provision input session).AllOps (·.hosts = []) := by
  refine (allOps_liftExcept _).bind fun path => ?_
  rw [readPlanFile_bind]
  refine ⟨rfl, fun content => (allOps_liftExcept _).bind fun plan => ?_⟩
  refine (allOps_liftExcept _).bind fun _ => (commitProviderSpend_hostless _ _).bind fun _ => ?_
  obtain ⟨rest, hrest, hops⟩ := create_eq plan
  rw [hrest]
  exact ⟨rfl, fun _ => hops.mono fun o ho => List.eq_nil_iff_forall_not_mem.mpr fun host h => by
    simpa using ho.2 host h⟩

/-- The hosts that the executor hands to services are targets of the session, except that
`application.deploy` deploys to the host of the stored plan file: there they are exactly when that host
is a target. -/
theorem hosts_in_scope_iff (env : Env) (w : World) (emergencyStop : Bool) (d : Dispatch)
    (environment : AgentEnvironment) (approvedPlan : Option AgentPlan)
    (htargets : d.session.scope.targets ≠ [])
    (hvalid : (validate d.step.capability d.step.input).1 = [])
    (hallow : Answers emergencyStop
      ⟨d.session, d.step.capability, d.step.input, environment, approvedPlan⟩ .allow) :
    HandsOnly env w d.session.scope.targets (execute d) ↔
      (d.step.capability = "application.deploy" →
        PlannedHostIn env w d.session.scope.targets d.step.input d.session) := by
  -- the mark of the call hands nothing on
  have hstart : LogWithin d.session.scope.targets
      (Pool.recorded (handle env) () (.execute d) (w, [])).2.2 := by
    intro e he host hhost
    obtain rfl := List.mem_singleton.mp he
    simp [Op.hosts] at hhost
  have hin := @inputHosts_in_scope emergencyStop
    ⟨d.session, d.step.capability, d.step.input, environment, approvedPlan⟩ hvalid hallow htargets
  rw [HandsOnly, execute, Async.perform_bind, Async.run_await]
  by_cases hdeploy : d.step.capability = "application.deploy"
  · rw [hdeploy]
    exact (deployPlanned_iff hstart).trans ⟨fun h _ => h, fun h => h rfl⟩
  refine ⟨fun _ h => absurd h hdeploy, fun _ => logWithin_run env ?_ hstart⟩
  by_cases hprovision : d.step.capability = "server.provision"
  · rw [hprovision]
    exact provision_hostless.mono fun o ho host h => by simp [ho] at h
  · exact (branch_ops hprovision hdeploy).mono fun o ho host h => hin host (ho.2 host h)

/-- A step that restarts an application on the host in scope. -/
def restartStep : Dispatch :=
  ⟨⟨"step-1", "application.restart", .obj [("name", .str "web"), ("host", .str "demo")], .medium⟩,
    sampleSession, samplePlan, 2⟩

/-- The theorem at a restart. -/
theorem hosts_in_scope_iff_restart :
    HandsOnly Env.sample sampleWorld ["demo"] (execute restartStep) ↔
      ("application.restart" = "application.deploy" →
        PlannedHostIn Env.sample sampleWorld ["demo"] restartStep.step.input sampleSession) :=
  hosts_in_scope_iff Env.sample sampleWorld false restartStep .staging
    (some { samplePlan with status := .approved }) (by decide) (by decide) ⟨_, rfl, rfl⟩

/-- A step that deploys the stored plan `abcdef`. -/
def deployStep : Dispatch :=
  ⟨⟨"step-1", "application.deploy",
      .obj [("projectDir", .str "/repo"), ("planId", .str "abcdef")], .medium⟩,
    sampleSession, samplePlan, 2⟩

/-- The repository holds a stored plan whose host is `prod`. -/
def plannedWorld : World :=
  { sampleWorld with
    files := fun path =>
      if path = "/repo/.vops/plans/abcdef.json" then
        some (.json (.obj [("schemaVersion", .num 2), ("id", .str "abcdef"),
          ("hash", .str "sha256"), ("inputs", .obj [("spec", .str "flui.yaml"),
            ("host", .str "prod"), ("specHash", .str "sha256")])]))
      else if path = "/repo/flui.yaml" then some (.raw "")
      else none }

/-- A session whose only target is `demo` deploys to `prod`: the policy engine finds no target in the
step's input, and the host is the one in the stored plan file. -/
theorem deploy_leaves_scope : ¬ ∀ (env : Env) (w : World) (emergencyStop : Bool) (d : Dispatch)
    (environment : AgentEnvironment) (approvedPlan : Option AgentPlan),
    d.session.scope.targets ≠ [] → (validate d.step.capability d.step.input).1 = [] →
    Answers emergencyStop
      ⟨d.session, d.step.capability, d.step.input, environment, approvedPlan⟩ .allow →
    HandsOnly env w d.session.scope.targets (execute d) := by
  intro h
  have hrun := h Env.sample plannedWorld false deployStep .staging
    (some { samplePlan with status := .approved }) (by decide) (by decide) ⟨_, rfl, rfl⟩
  have hlog : "prod" ∈ (Async.run (Pool.recorded (handle Env.sample) ()) (execute deployStep)
      (plannedWorld, [])).2.2.flatMap fun e => e.op.hosts := by decide +kernel
  obtain ⟨e, he, hhost⟩ := List.mem_flatMap.mp hlog
  exact absurd (hrun e he "prod" hhost) (by decide)

end Vops.CoreActionExecutor
