import Vops.AgentControl.CoreActionExecutor
import Vops.AgentControl.SessionCalls

/-!
# What the executor may do

* `Op.hosts`, `inputHosts` — the hosts an operation acts on, and those a branch reads from its input.
* `branch_ops` — every operation of a branch is outside and acts on the hosts of its input; the
  branches of `server.provision` and `application.deploy` are treated on their own.
* `ExecStep`, `follows_execute` — the executor as a protocol: it books the amount of a plan file and
  creates a server of that very file, and otherwise stays outside.
-/

namespace Vops

/-- The hosts an operation acts on. -/
def Op.hosts : Op → List String
  | service call => call.hosts
  | firewallGet target => [target]
  | _ => []

/-- A lifted result performs no operation. -/
theorem allOps_liftExcept {α : Type} {P : Op → Prop} (r : Except Failure α) :
    (liftExcept r).AllOps P := by
  rw [liftExcept_eq]
  trivial

/-- An operation that can fail, lifted. -/
theorem allOps_call {α : Type} {P : Op → Prop} {o : Op} (ho : P o) (f : Res o → Except Failure α) :
    (perform o >>= fun x => liftExcept (f x) : Prog α).AllOps P :=
  ⟨ho, fun x => allOps_liftExcept (f x)⟩

end Vops

namespace Vops.CoreActionExecutor

open VopsServers

/-! ## The operations of the branches -/

/-- The host of an application, as `appRef` reads it. -/
def appHost (input : Json) : Option String := ((input.get? "host").bind Json.str?).filter (· ≠ "")

/-- The capabilities with a required host. -/
def hostRequired : List String := ["catalog.install", "application.plan_deploy"]

/-- The capabilities with a required target. -/
def targetRequired : List String :=
  ["target.inspect", "server.harden", "firewall.inspect", "firewall.open_port",
    "firewall.close_port"]

/-- The capabilities on an application, whose host may be left out. -/
def hostOptional : List String :=
  ["application.status", "application.restart", "logs.read_recent", "healthcheck.run"]

/-- The hosts that the branch of a capability reads from its input. -/
def inputHosts (capability : String) (input : Json) : List String :=
  if capability ∈ hostRequired then [text input "host"]
  else if capability ∈ targetRequired then [text input "target"]
  else if capability ∈ hostOptional then (appHost input).toList
  else []

/-- The operation is outside the store and acts on none but these hosts. -/
def Within (hosts : List String) (o : Op) : Prop :=
  o.outside = true ∧ ∀ host ∈ o.hosts, host ∈ hosts

variable {hosts : List String} {input : Json} {session : AgentSession}

/-- A service call on these hosts. -/
theorem call_ops {c : ServiceCall} (hc : ∀ host ∈ c.hosts, host ∈ hosts) :
    (call c).AllOps (Within hosts) :=
  allOps_call (P := Within hosts) (o := .service c) ⟨rfl, hc⟩ fun x => x

/-- A service call that acts on no host. -/
theorem hostless_ops {c : ServiceCall} (hc : c.hosts = []) : (call c).AllOps (Within hosts) :=
  call_ops fun host hmem => by simp [hc] at hmem

/-- A program that waits for an operation on no host. -/
theorem within_of_hostless {o : Op} (ho : o.outside = true) (hh : o.hosts = []) : Within hosts o :=
  ⟨ho, fun host hmem => by simp [hh] at hmem⟩

theorem assertRepository_ops (path : Option Json) :
    (assertRepository path session).AllOps (Within hosts) := by
  refine Async.AllOps.bind (Async.AllOps.of_perform (within_of_hostless rfl rfl)) fun x => ?_
  refine Async.AllOps.bind (allOps_liftExcept x) fun requested => ?_
  split <;> trivial

theorem readSpec_ops : (readSpec input session).AllOps (Within hosts) := by
  refine (assertRepository_ops _).bind fun repository => ?_
  exact (allOps_liftExcept _).bind fun file => hostless_ops rfl

theorem generateSpec_ops : (generateSpec input session).AllOps (Within hosts) := by
  refine (assertRepository_ops _).bind fun repository => ?_
  exact (allOps_liftExcept _).bind fun output => hostless_ops rfl

theorem listCatalogByKind_ops (kind : String) :
    (listCatalogByKind kind).AllOps (Within hosts) := by
  unfold listCatalogByKind
  split
  · exact hostless_ops rfl
  · split <;> exact hostless_ops rfl

theorem compareProviders_ops : (compareProviders input).AllOps (Within hosts) := by
  refine Async.AllOps.bind (hostless_ops rfl) fun rows => ?_
  split <;> trivial

theorem installCatalog_ops : (installCatalog input).AllOps (Within [text input "host"]) :=
  call_ops fun _ h => h

theorem inspectTarget_ops (target : String) : (inspectTarget target).AllOps (Within [target]) := by
  refine Async.AllOps.bind (hostless_ops rfl) fun host => ?_
  exact (call_ops fun _ h => h).bind fun status => Async.AllOps.of_done _

theorem destroyServer_ops : (destroyServer input).AllOps (Within hosts) :=
  Async.AllOps.bind (hostless_ops rfl) fun _ => Async.AllOps.of_done _

theorem hardenServer_ops : (hardenServer input).AllOps (Within [text input "target"]) :=
  call_ops fun _ h => h

/-- A rendered or real deployment acts on the host of the request. -/
theorem deploy_ops (req : VopsAgentApi.PlanRequest) (dryRun : Bool)
    (hreq : ∀ host, req.get "host" = some (.str host) → host ∈ hosts) :
    (VopsAgentApi.deploy req dryRun).AllOps (Within hosts) := by
  refine (allOps_liftExcept _).bind fun app => ?_
  refine allOps_call (P := Within hosts)
    (o := .service (.appsDeploy app (req.get "host") (VopsAgentApi.deployOptions req dryRun)))
    ⟨rfl, fun host hmem => ?_⟩ fun x => x
  cases hhost : req.get "host" with
  | none => simp [Op.hosts, ServiceCall.hosts, hhost] at hmem
  | some v =>
      cases v with
      | str s =>
          obtain rfl : host = s := by simpa [Op.hosts, ServiceCall.hosts, hhost, Json.str?] using hmem
          exact hreq host hhost
      | _ => simp [Op.hosts, ServiceCall.hosts, hhost, Json.str?] at hmem

/-- The operation changes nothing and acts on no host. -/
def Silent (o : Op) : Prop := o.quiet = true ∧ o.hosts = []

theorem within_of_silent {o : Op} (ho : Silent o) : Within hosts o :=
  within_of_hostless (Op.outside_of_quiet ho.1) ho.2

theorem hashFile_silent (path : String) : (VopsAgentApi.hashFile path).AllOps Silent := by
  refine ⟨⟨rfl, rfl⟩, fun content => ?_⟩
  cases content with
  | none => trivial
  | some content => exact Async.AllOps.of_perform ⟨rfl, rfl⟩

/-- Planning a deployment acts on the host among the inputs. -/
theorem plan_ops (projectDir : String) (inputs : List (String × Json))
    (hhost : ∀ specHash host,
      (Json.obj (inputs ++ [("specHash", specHash)])).get? "host" = some (.str host) →
        host ∈ hosts) :
    (VopsAgentApi.plan projectDir inputs).AllOps (Within hosts) := by
  refine (allOps_liftExcept _).bind fun specFile => ?_
  refine ((hashFile_silent specFile).mono fun _ => within_of_silent).bind fun specHash => ?_
  dsimp only
  refine Async.AllOps.bind (deploy_ops _ true ?_) fun view => ?_
  · exact hhost (.str specHash)
  refine Async.AllOps.bind (Async.AllOps.of_perform (within_of_hostless rfl rfl)) fun hash => ?_
  refine (allOps_liftExcept _).bind fun file => ?_
  refine Async.AllOps.bind (Async.AllOps.of_perform (within_of_hostless rfl rfl)) fun _ => ?_
  exact Async.AllOps.bind (hostless_ops rfl) fun _ => Async.AllOps.of_done _

theorem planDeploy_ops : (planDeploy input session).AllOps (Within [text input "host"]) := by
  refine (assertRepository_ops _).bind fun projectDir => ?_
  refine (allOps_liftExcept _).bind fun spec => ?_
  refine plan_ops _ _ fun specHash host h => ?_
  simpa [Json.get?, eq_comm] using h

theorem appRef_host {name : String} {host : Option String} (h : appRef input = .ok (name, host)) :
    host = appHost input := by
  unfold appRef at h
  split at h
  · split at h
    · cases h
    · cases h
      rfl
  · cases h

/-- What a branch on an application does, it does on the host of its input. -/
theorem appRef_bind_ops {P : Op → Prop} {act : String × Option String → Prog Json}
    (hact : ∀ name, (act (name, appHost input)).AllOps P) :
    (liftExcept (appRef input) >>= act).AllOps P := by
  cases h : appRef input with
  | error e => trivial
  | ok app =>
      obtain ⟨name, host⟩ := app
      obtain rfl := appRef_host h
      exact hact name

theorem readRecentLogs_ops : (readRecentLogs input).AllOps (Within (appHost input).toList) := by
  refine appRef_bind_ops fun name => ?_
  exact (call_ops fun _ h => h).bind fun log => Async.AllOps.of_done _

theorem verify_ops (name : String) (host : Option String) :
    (VopsAgentApi.verify name host).AllOps (Within host.toList) := by
  refine Async.AllOps.bind (call_ops fun _ h => h) fun status => ?_
  exact hostless_ops rfl

theorem firewallGet_ops (target : String) : (firewallGet target).AllOps (Within [target]) :=
  allOps_call (P := Within [target]) (o := .firewallGet target) ⟨rfl, fun _ h => h⟩ fun x => x

/-- Setting the firewall of a host acts on that host. -/
theorem firewallSet_ops (target : String) (services : List FirewallService) :
    (call (.firewallSet target services)).AllOps (Within [target]) :=
  call_ops fun _ h => h

theorem openFirewallPort_ops :
    (openFirewallPort input).AllOps (Within [text input "target"]) := by
  unfold openFirewallPort
  generalize text input "target" = target
  generalize parseServiceSpec (text input "service") = service
  refine (firewallGet_ops target).bind fun current => ?_
  refine (allOps_liftExcept _).bind fun entry => ?_
  exact firewallSet_ops target _

theorem closeFirewallPort_ops :
    (closeFirewallPort input).AllOps (Within [text input "target"]) := by
  unfold closeFirewallPort
  generalize text input "target" = target
  generalize parseServiceSpec (text input "service") = service
  refine (firewallGet_ops target).bind fun current => ?_
  refine (allOps_liftExcept _).bind fun entry => ?_
  exact firewallSet_ops target _

theorem inspectFirewall_ops :
    (inspectFirewall input).AllOps (Within [text input "target"]) :=
  (firewallGet_ops _).bind fun _ => Async.AllOps.of_done _

/-- Every operation of a branch, but for the two that read a plan file, is outside the store and acts
on the hosts of its input. -/
theorem branch_ops {capability : String} (hprovision : capability ≠ "server.provision")
    (hdeploy : capability ≠ "application.deploy") :
    (executeCapability capability input session).AllOps (Within (inputHosts capability input)) := by
  unfold executeCapability
  split
  · exact (assertRepository_ops _).bind fun repository => hostless_ops rfl
  · exact readSpec_ops
  · exact generateSpec_ops
  · exact (allOps_liftExcept _).bind fun file => hostless_ops rfl
  · exact listCatalogByKind_ops _
  · exact hostless_ops rfl
  · exact installCatalog_ops
  · exact hostless_ops rfl
  · exact compareProviders_ops
  · exact Async.AllOps.bind (hostless_ops rfl) fun hosts => Async.AllOps.of_done _
  · exact inspectTarget_ops _
  · exact hostless_ops rfl
  · exact hostless_ops rfl
  · exact absurd rfl hprovision
  · exact destroyServer_ops
  · exact hardenServer_ops
  · exact planDeploy_ops
  · exact absurd rfl hdeploy
  · exact appRef_bind_ops fun name => call_ops fun _ h => h
  · exact appRef_bind_ops fun name => call_ops fun _ h => h
  · exact readRecentLogs_ops
  · exact appRef_bind_ops fun name => verify_ops name _
  · exact inspectFirewall_ops
  · exact openFirewallPort_ops
  · exact closeFirewallPort_ops
  · trivial

/-- Every operation is outside the store. -/
theorem outside_of_within {α : Type} {p : Prog α} (hp : p.AllOps (Within hosts)) :
    p.AllOps (·.outside = true) :=
  hp.mono fun _ ho => ho.1

theorem setDigests_silent (set : List (String × String)) :
    (VopsAgentApi.setDigests set).AllOps Silent := by
  induction set with
  | nil => trivial
  | cons entry set ih => exact ⟨⟨rfl, rfl⟩, fun digest => ih.bind fun rest => trivial⟩

theorem setValues_silent (stored : Json) (digests : Option Json) :
    (VopsAgentApi.setValues stored digests).AllOps Silent := by
  unfold VopsAgentApi.setValues
  cases digests with
  | none => trivial
  | some digests =>
      dsimp only
      split
      · refine (allOps_call (o := .service .ensureVaultUnlocked) ⟨rfl, rfl⟩ id).bind fun _ => ?_
        refine Async.AllOps.bind (Async.AllOps.of_perform ⟨rfl, rfl⟩) fun set => ?_
        cases set with
        | none => trivial
        | some set =>
            refine (setDigests_silent set).bind fun expected => ?_
            split <;> trivial
      · trivial

theorem checkSpec_silent (projectDir id : String) (inputs : Json) :
    (VopsAgentApi.checkSpec projectDir id inputs).AllOps Silent := by
  refine (allOps_liftExcept _).bind fun specFile => (hashFile_silent specFile).bind fun specHash => ?_
  split <;> trivial

/-- Deploying a stored plan acts on the host of the request. -/
theorem deployStored_ops {req : VopsAgentApi.PlanRequest} {id : String} {stored inputs : Json}
    {set : Option (List (String × String))}
    (hreq : ∀ host, req.get "host" = some (.str host) → host ∈ hosts) :
    (VopsAgentApi.deployStored id stored inputs req set).AllOps (Within hosts) := by
  have hredact : ∀ view, (VopsAgentApi.redactSet view set).AllOps (Within hosts) := by
    intro view
    unfold VopsAgentApi.redactSet
    split
    · exact ⟨within_of_hostless rfl rfl, fun redacted => allOps_liftExcept redacted⟩
    · trivial
  refine (deploy_ops req true hreq).bind fun rendered => (hredact rendered).bind fun view => ?_
  refine Async.AllOps.bind (Async.AllOps.of_perform (within_of_hostless rfl rfl)) fun hash => ?_
  split
  · trivial
  · exact deploy_ops req false hreq

theorem applyStored_outside (projectDir id : String) (stored inputs : Json) :
    (VopsAgentApi.applyStored projectDir id stored inputs).AllOps (·.outside = true) := by
  have hsilent : ∀ o, Silent o → o.outside = true := fun _ ho => Op.outside_of_quiet ho.1
  refine ((setValues_silent _ _).mono hsilent).bind fun set => ?_
  refine ((checkSpec_silent _ _ _).mono hsilent).bind fun _ => ?_
  have hops : (VopsAgentApi.deployStored id stored inputs
      (VopsAgentApi.storedRequest projectDir inputs set) set).AllOps
      (Within ((inputs.get? "host").bind Json.str?).toList) := by
    refine deployStored_ops fun host h => ?_
    simp [show inputs.get? "host" = some (.str host) from h, Json.str?]
  exact outside_of_within hops

/-- Applying a stored plan stays outside the store. -/
theorem apply_outside (projectDir id : String) :
    (VopsAgentApi.apply projectDir id).AllOps (·.outside = true) := by
  have hload : (VopsAgentApi.loadPlan projectDir id).AllOps (·.outside = true) := by
    refine (allOps_liftExcept _).bind fun path => ⟨rfl, fun content => ?_⟩
    rcases content with _ | _ | _ <;> trivial
  refine hload.bind fun loaded => ?_
  split
  · trivial
  refine (allOps_liftExcept _).bind fun _ => ?_
  dsimp only
  split
  · exact applyStored_outside _ _ _ _
  · trivial

theorem deployPlanned_outside : (deployPlanned input session).AllOps (·.outside = true) :=
  (outside_of_within (@assertRepository_ops [] session _)).bind fun _ => apply_outside _ _

/-! ## The protocol of an execution -/

/-- What the executor holds between two operations: nothing, the plan file `v` it read, or that file
and the session record `r` it is about to book on. -/
inductive Activity
  | fresh
  | holding (v : Json)
  | spending (v : Json) (r : AgentSession)

/-- The path of the plan file of a step. -/
def planPath (d : Dispatch) : Except Failure String :=
  assertRepoFile d.session (text d.step.input "planFile")

/-- The amount that is booked for a plan file. -/
def amountOf (v : Json) : Json := bookedAmount ((v.get? "estimatedCost").getD .null)

/-- The steps of an execution: the plan file of the step is read, its amount is booked on the session
record as it is stored, a server is created of the very file that was read. Whatever else it does is
outside the store. -/
inductive ExecStep (d : Dispatch) : Async.Protocol Op Res Activity
  | outside {a : Activity} {o : Op} {x : Res o} (ho : o.outside = true) : ExecStep d a o x a
  | readPlan {path : String} {v : Json} (hpath : planPath d = .ok path) :
      ExecStep d .fresh (.readFile path) (some (.json v)) (.holding v)
  | readSession {v : Json} {r : AgentSession} :
      ExecStep d (.holding v) (.getSession d.session.id) (some r) (.spending v r)
  | book {v : Json} {r : AgentSession} :
      ExecStep d (.spending v r)
        (.saveSession (AgentSessionManager.spendRecord r (amountOf v)) none) () (.holding v)
  | create {v : Json} : ExecStep d (.holding v) (.serversCreate v) () (.holding v)

variable {d : Dispatch} {ε α β : Type}

/-- An execution that needs no protocol. -/
theorem follows_of_outside {p : Prog α} {a : Activity} (hp : p.AllOps (·.outside = true)) :
    Async.Follows (ExecStep d) (fun _ _ => True) p a :=
  Async.Follows.of_allOps hp (fun _ _ ho => .outside ho) fun _ => trivial

/-- A first part outside the store. -/
theorem follows_bind_of_outside {p : Prog α} {f : α → Prog β} {a : Activity}
    (hp : p.AllOps (·.outside = true))
    (hf : ∀ x, Async.Follows (ExecStep d) (fun _ _ => True) (f x) a) :
    Async.Follows (ExecStep d) (fun _ _ => True) (p >>= f) a :=
  Async.Follows.of_allOps_bind hp (fun _ _ ho => .outside ho) hf fun _ => trivial

/-- What `create` does once it is called stays outside the store and acts on no host. -/
theorem create_eq (v : Json) : ∃ rest : Prog Json, VopsServers.create v =
    .await (.serversCreate v) (fun _ => rest) ∧ rest.AllOps (Within []) := by
  have hop : ∀ o : Op, o.outside = true → o.hosts = [] →
      (perform o).AllOps (Within []) :=
    fun o ho hh => Async.AllOps.of_perform (within_of_hostless ho hh)
  refine ⟨_, rfl, ?_⟩
  refine (allOps_liftExcept _).bind fun provider => ?_
  refine (allOps_liftExcept _).bind fun _ => ?_
  have hnode : (requirePlan (v.get? "provider") (v.get? "plan")).AllOps (Within []) := by
    refine (allOps_liftExcept _).bind fun provider => (hop (.nodeSizes provider) rfl rfl).bind
      fun sizes => ?_
    exact (allOps_liftExcept _).bind fun sizes => allOps_liftExcept _
  refine hnode.bind fun node => Async.AllOps.bind (hop (.billingCycle _) rfl rfl) fun billing => ?_
  refine (hostless_ops rfl).bind fun _ => ?_
  split
  · exact (allOps_liftExcept _).bind fun _ => trivial
  refine (allOps_liftExcept _).bind fun _ => ?_
  refine (allOps_liftExcept _).bind fun keys => ?_
  have huser : (userData v).AllOps (Within []) := by
    unfold userData
    split
    · split
      · exact (hop (.renderCloudInit _) rfl rfl).bind fun text =>
          (allOps_liftExcept _).bind fun _ => trivial
      · trivial
    · trivial
  refine huser.bind fun data => (hop (.createServer _ _) rfl rfl).bind fun result => ?_
  exact (allOps_liftExcept _).bind fun result => (hostless_ops rfl).bind fun _ => trivial

/-- Creating a server of the file that is held. -/
theorem follows_create (v : Json) :
    Async.Follows (ExecStep d) (fun _ _ => True) (VopsServers.create v) (.holding v) := by
  obtain ⟨rest, hrest, hops⟩ := create_eq v
  rw [hrest]
  exact fun _ => ⟨.holding v, .create, follows_of_outside (outside_of_within hops)⟩

/-- Booking the amount of the file that is held. -/
theorem follows_commit {v : Json} {f : AgentSession → Prog β}
    (hf : ∀ s, Async.Follows (ExecStep d) (fun _ _ => True) (f s) (.holding v)) :
    Async.Follows (ExecStep d) (fun _ _ => True)
      (AgentSessionManager.commitProviderSpend d.session.id (amountOf v) >>= f) (.holding v) := by
  obtain ⟨e, he⟩ := AgentSessionManager.showSession_bind d.session.id fun session =>
    AgentSessionManager.commitRecord session (amountOf v)
  refine Async.Follows.bind ?_
  rw [AgentSessionManager.commitProviderSpend, he]
  intro found
  cases found with
  | none => exact ⟨.holding v, .outside rfl, trivial⟩
  | some r =>
      refine ⟨.spending v r, .readSession, ?_⟩
      dsimp only [AgentSessionManager.commitRecord]
      split
      · obtain ⟨e, he⟩ := AgentSessionManager.refuseSpend_eq r (amountOf v)
        rw [he]
        trivial
      · refine fun _ => ⟨.holding v, .book, ?_⟩
        have hquiet := AgentSessionManager.commitEvent_quiet r (amountOf v)
        refine Async.Follows.of_allOps (hquiet.mono fun _ => Op.outside_of_quiet)
          (fun _ _ ho => .outside ho) fun result => ?_
        cases result with
        | ok s => exact hf s
        | error e => trivial

/-- Provisioning reads the plan file of the step, books its amount, and creates a server of it. -/
theorem follows_provision : Async.Follows (ExecStep d) (fun _ _ => True)
    (provision d.step.input d.session) .fresh := by
  unfold provision
  cases hpath : planPath d with
  | error e =>
      rw [show assertRepoFile d.session (text d.step.input "planFile") = .error e from hpath]
      trivial
  | ok path =>
      rw [show assertRepoFile d.session (text d.step.input "planFile") = .ok path from hpath]
      rw [liftExcept_eq, Async.ok_bind, readPlanFile_bind]
      refine Async.Follows.of_await fun content => ?_
      cases hv : parsePlanFile path content with
      | error e => exact ⟨.fresh, .outside rfl, trivial⟩
      | ok v =>
          obtain rfl := eq_of_parsePlanFile hv
          refine ⟨.holding v, .readPlan hpath, ?_⟩
          rw [liftExcept_eq, Async.ok_bind]
          refine follows_bind_of_outside (allOps_liftExcept _) fun _ => ?_
          exact follows_commit fun _ => follows_create v

/-- Whatever the capability, the executor follows its protocol. -/
theorem follows_execute : Async.Follows (ExecStep d) (fun _ _ => True)
    (executeCapability d.step.capability d.step.input d.session) .fresh := by
  by_cases hprovision : d.step.capability = "server.provision"
  · rw [hprovision]
    exact follows_provision
  by_cases hdeploy : d.step.capability = "application.deploy"
  · rw [hdeploy]
    exact follows_of_outside deployPlanned_outside
  · exact follows_of_outside (outside_of_within (branch_ops hprovision hdeploy))

end Vops.CoreActionExecutor
