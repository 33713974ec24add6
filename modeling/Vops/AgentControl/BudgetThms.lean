import Vops.AgentControl.ExecutorThms
import Mathlib.Algebra.BigOperators.Group.List.Basic
import Mathlib.Tactic.Linarith

/-!
# The spend budget and the servers created

`provision` books the amount that the plan file states and then creates a server, which the live
catalog prices. The file is written by the agent.

* `Move`, `runMoves` — steps that provision, and changes of the files and of the catalogs in between.
* `LiveEntry`, `livePrice` — what `create` buys for a plan file, and its monthly price.
* `provision_cases` — what one step does to the session record and to the servers created.
* `BooksEnough` — the condition: an accepted amount is a number, and where a server is created it is
  at least the live price.
* `budget_binds` — along every run under the condition the live prices add up to at most the limit,
  and the spend is a finite number that never decreases.
-/

namespace Vops.CoreActionExecutor

open AgentSessionManager VopsServers

variable {env : Env} {w : World} {α : Type}

/-! ## Servers created -/

/-- The live catalog's entry for a plan file, which the write gate lets through. -/
def LiveEntry (env : Env) (w : World) (v : Json) (node : NodeSizeDto) : Prop :=
  ∃ provider sizes, resolveProvider (v.get? "provider") = .ok provider ∧
    w.catalog provider = .ok sizes ∧
    planNode sizes (v.get? "provider") (v.get? "plan") = .ok node ∧
    (writeGate (env.billingCycle provider) provider node).allowed = true

/-- The monthly price of an entry at a location; nothing, where the catalog gives none. -/
def livePrice (node : NodeSizeDto) (location : Option Json) : ℚ :=
  (estimatedCost node location).monthly.getD 0

/-- The monthly prices of these servers, together. -/
def totalPrice (servers : List CreatedServer) : ℚ :=
  (servers.map fun s => livePrice s.node s.config.location).sum

/-- A program that creates no server. -/
theorem created_run (env : Env) (w : World) {p : Prog α} (hp : p.AllOps (·.createsServer = false)) :
    (Async.run (handle env) p w).2.created = w.created :=
  hp.run_keeps (I := fun w' : World => w'.created = w.created)
    (fun _ _ ho h => (handle_created ho).trans h) rfl

/-- A program that writes no session. -/
theorem sessions_run (env : Env) (w : World) {p : Prog α} (hp : p.AllOps (·.savesSession = false)) :
    (Async.run (handle env) p w).2.sessions = w.sessions :=
  hp.run_keeps (I := fun w' : World => w'.sessions = w.sessions)
    (fun _ _ ho h => (handle_sessions ho).trans h) rfl

/-- The servers are those of before, or one more: of this entry, at this location. -/
def OneMore (location : Option Json) (node : NodeSizeDto) (before after : List CreatedServer) :
    Prop :=
  after = before ∨ ∃ config : CreateServerConfig, config.location = location ∧
    after = before ++ [⟨config, node⟩]

/-- The cloud-init data of a server creates none. -/
theorem userData_creates_none (v : Json) : (userData v).AllOps (·.createsServer = false) := by
  unfold userData
  split
  · split
    · exact ⟨rfl, fun text => (allOps_liftExcept _).bind fun _ => trivial⟩
    · trivial
  · trivial

/-- A service call creates no server of its own. -/
theorem call_creates_none (c : ServiceCall) : (call c).AllOps (·.createsServer = false) :=
  allOps_call (P := fun o => o.createsServer = false) (o := .service c) rfl id

/-- What `provision` of the servers service creates. -/
theorem provision_creates (provider : CloudProvider) (v : Json) (node : NodeSizeDto) :
    OneMore (v.get? "location") node w.created
      (Async.run (handle env) (VopsServers.provision provider v node) w).2.created := by
  unfold VopsServers.provision
  cases sshKeys v with
  | error e => exact .inl rfl
  | ok keys =>
      have huser := created_run env w (userData_creates_none v)
      rw [liftExcept_eq, Async.ok_bind, Async.run_bind]
      cases hr : Async.run (handle env) (userData v) w with
      | mk r w₁ =>
          rw [hr] at huser
          cases r with
          | error e => exact .inl huser
          | ok data =>
              dsimp only at huser ⊢
              rw [Async.perform_bind, Async.run_await, created_run _ _ ?_, ← huser]
              · simp only [handle, createServerEffect]
                cases env.createServer w₁.answers _ with
                | refused failure => exact .inl rfl
                | _ => exact .inr ⟨_, rfl, rfl⟩
              · exact (allOps_liftExcept _).bind fun result =>
                  (call_creates_none _).bind fun _ => trivial

/-- `requirePlan` looks the entry up in the live catalog. -/
theorem run_requirePlan (name plan : Option Json) {provider : CloudProvider}
    (hprovider : resolveProvider name = .ok provider) :
    Async.run (handle env) (requirePlan name plan) w =
      ((w.catalog provider).bind fun sizes => planNode sizes name plan, w) := by
  have hread : handle env (.nodeSizes provider) w = (w.catalog provider, w) := rfl
  rw [requirePlan, hprovider, liftExcept_eq, Async.ok_bind, Async.perform_bind, Async.run_await, hread]
  cases w.catalog provider with
  | error e => rfl
  | ok sizes => simp [Except.bind]

/-- What is created of an entry that was found: nothing, unless the write gate lets it through. -/
theorem createNode_creates (provider : CloudProvider) (v : Json) (node : NodeSizeDto) :
    (Async.run (handle env) (createNode provider v node) w).2.created = w.created ∨
    (writeGate (env.billingCycle provider) provider node).allowed = true ∧
      OneMore (v.get? "location") node w.created
        (Async.run (handle env) (createNode provider v node) w).2.created := by
  have hbilling : handle env (.billingCycle provider) w = (env.billingCycle provider, w) := rfl
  rw [createNode, Async.perform_bind, Async.run_await, hbilling]
  dsimp only
  generalize writeGate (env.billingCycle provider) provider node = gate
  rw [Async.run_bind]
  cases hr : Async.run (handle env)
      (call (.appendAudit "server.create.request" (requestAudit provider v gate))) w with
  | mk r w₁ =>
      have hcall := created_run env w (call_creates_none
        (.appendAudit "server.create.request" (requestAudit provider v gate)))
      rw [hr] at hcall
      cases r with
      | error e => exact .inl hcall
      | ok _ =>
          dsimp only at hcall ⊢
          by_cases hguided : gate.guided = true
          · rw [if_pos hguided]
            cases howTo v <;> exact .inl hcall
          rw [if_neg hguided]
          by_cases hallowed : gate.allowed = true
          · rw [assertGate, if_pos hallowed, ← hcall]
            exact .inr ⟨hallowed, provision_creates provider v node⟩
          · rw [assertGate, if_neg hallowed]
            exact .inl hcall

/-- What `create` creates. -/
theorem create_creates (v : Json) :
    (Async.run (handle env) (VopsServers.create v) w).2.created = w.created ∨
    ∃ node, LiveEntry env w v node ∧ OneMore (v.get? "location") node w.created
      (Async.run (handle env) (VopsServers.create v) w).2.created := by
  have hmark : (handle env (.serversCreate v) w).2 = w := rfl
  rw [VopsServers.create, Async.perform_bind, Async.run_await, hmark]
  cases hprovider : resolveProvider (v.get? "provider") with
  | error e => exact .inl rfl
  | ok provider =>
      rw [liftExcept_eq, Async.ok_bind]
      cases assertHostFirewallApplicable provider v with
      | error e => exact .inl rfl
      | ok _ =>
          rw [liftExcept_eq, Async.ok_bind, Async.run_bind, run_requirePlan _ _ hprovider]
          cases hsizes : w.catalog provider with
          | error e => exact .inl rfl
          | ok sizes =>
              cases hnode : planNode sizes (v.get? "provider") (v.get? "plan") with
              | error e => simp [Except.bind, hnode]
              | ok node =>
                  simp only [Except.bind, hnode]
                  refine (createNode_creates provider v node).imp_right fun ⟨hallowed, hmore⟩ => ?_
                  exact ⟨node, ⟨provider, sizes, hprovider, hsizes, hnode, hallowed⟩, hmore⟩

/-! ## What one step does -/

/-- The session can afford the amount, as `commitProviderSpend` checks it. -/
def Accepted (s : AgentSession) (amount : Json) : Prop :=
  (JsNum.ofField s.limits.maxProviderSpendEur).lt (committedTotal s amount) = false

/-- What a step leaves: nothing is booked and nothing created, or the amount of its plan file is booked
and at most one server is created, of the live entry for that file. -/
inductive Provisioned (env : Env) (d : Dispatch) (w w' : World) : Prop
  | refused (hsessions : w'.sessions = w.sessions) (hcreated : w'.created = w.created)
  | booked (path : String) (v : Json) (s : AgentSession) (hpath : planPath d = .ok path)
      (hfile : w.files path = some (.json v)) (hs : w.session d.session.id = some s)
      (haccepted : Accepted s (amountOf v))
      (hsaved : w'.session d.session.id = some (storedSession (spendRecord s (amountOf v))))
      (hcreated : w'.created = w.created ∨ (∃ n, amountOf v = .num n) ∧ ∃ node, LiveEntry env w v node ∧
        OneMore (v.get? "location") node w.created w'.created)

/-- No program changes the catalog. -/
theorem catalog_run (env : Env) (w : World) (p : Prog α) : (Async.run (handle env) p w).2.catalog = w.catalog := by
  induction p generalizing w with
  | done r => rfl
  | await o k ih => exact (ih _ _).trans handle_catalog

/-- The events of a commitment, and whether it returns: only an amount that is a number does. -/
theorem commitEvent_num {s : AgentSession} {amount : Json} {u : AgentSession} {w' : World}
    (h : Async.run (handle env) (commitEvent s amount) w = (.ok u, w')) : ∃ n, amount = .num n := by
  cases amount with
  | num n => exact ⟨n, rfl⟩
  | _ => cases h

theorem commitProviderSpend_creates_none (id : ℕ) (amount : Json) :
    (commitProviderSpend id amount).AllOps (·.createsServer = false) := by
  obtain ⟨e, he⟩ := showSession_bind id fun session => commitRecord session amount
  rw [commitProviderSpend, he]
  refine ⟨rfl, fun found => ?_⟩
  cases found with
  | none => trivial
  | some s =>
      dsimp only [commitRecord]
      split
      · obtain ⟨e, he⟩ := refuseSpend_eq s amount
        rw [he]
        trivial
      · exact ⟨rfl, fun _ => (commitEvent_quiet s amount).mono fun _ ho =>
          (Op.quiet_writes ho).2.2.2.2.2⟩

/-- A commitment leaves the record as it is and fails, or books the amount. -/
inductive Committed (id : ℕ) (amount : Json) (w w' : World) : Except Failure AgentSession → Prop
  | refused (e : Failure) (hsessions : w'.sessions = w.sessions) : Committed id amount w w' (.error e)
  | booked {r : Except Failure AgentSession} (s : AgentSession) (hs : w.session id = some s)
      (haccepted : Accepted s amount)
      (hsaved : w'.session id = some (storedSession (spendRecord s amount)))
      (hr : ∀ u, r = .ok u → ∃ n, amount = .num n) : Committed id amount w w' r

theorem commit_cases (env : Env) (w : World) (id : ℕ) (amount : Json) :
    Committed id amount w (Async.run (handle env) (commitProviderSpend id amount) w).2
      (Async.run (handle env) (commitProviderSpend id amount) w).1 := by
  obtain ⟨e, he⟩ := showSession_bind id fun session => commitRecord session amount
  have hread : handle env (.getSession id) w = (w.session id, w) := rfl
  rw [commitProviderSpend, he, Async.run_await, hread]
  cases hs : w.session id with
  | none => exact .refused _ rfl
  | some s =>
      by_cases haccepted : Accepted s amount
      · have hrecord : commitRecord s amount =
            .await (.saveSession (spendRecord s amount) none) fun _ => commitEvent s amount := by
          rw [commitRecord, show JsNum.lt _ _ = false from haccepted]
          rfl
        have hid : s.id = id := session_id hs
        have hsessions := sessions_run env (w.saveSession (spendRecord s amount) none)
          ((commitEvent_quiet s amount).mono fun _ ho => (Op.quiet_writes ho).1)
        have hsave : handle env (.saveSession (spendRecord s amount) none) w =
            ((), w.saveSession (spendRecord s amount) none) := rfl
        dsimp only
        rw [hrecord, Async.run_await, hsave]
        refine .booked s hs haccepted ?_ fun u hu => ?_
        · rw [World.session, hsessions]
          exact (session_saveSession _ _ _).trans (if_pos hid)
        · exact commitEvent_num (Prod.ext hu rfl)
      · have hrecord : commitRecord s amount = refuseSpend s amount :=
          if_pos (by simpa [Accepted] using haccepted)
        obtain ⟨e, he⟩ := refuseSpend_eq s amount
        dsimp only
        rw [hrecord, he]
        exact .refused e rfl

/-- Creating a server writes no session. -/
theorem create_sessions (env : Env) (w : World) (v : Json) :
    (Async.run (handle env) (VopsServers.create v) w).2.sessions = w.sessions := by
  obtain ⟨rest, hrest, hops⟩ := create_eq v
  rw [hrest, Async.run_await]
  exact sessions_run env w (hops.mono fun _ ho => (Op.outside_writes ho.1).1)

/-- What one step does to the session record and to the servers created. -/
theorem provision_cases (d : Dispatch) : Provisioned env d w
    (Async.run (handle env) (provision d.step.input d.session) w).2 := by
  unfold provision
  cases hpath : planPath d with
  | error e =>
      rw [show assertRepoFile d.session (text d.step.input "planFile") = .error e from hpath]
      exact .refused rfl rfl
  | ok path =>
      rw [show assertRepoFile d.session (text d.step.input "planFile") = .ok path from hpath]
      have hread : handle env (.readFile path) w = (w.files path, w) := rfl
      rw [liftExcept_eq, Async.ok_bind, readPlanFile_bind, Async.run_await, hread]
      cases hv : parsePlanFile path (w.files path) with
      | error e => exact .refused rfl rfl
      | ok v =>
          have hfile := eq_of_parsePlanFile hv
          rw [liftExcept_eq, Async.ok_bind]
          dsimp only
          cases prop (v.get? "estimatedCost") "monthly" with
          | error e => exact .refused rfl rfl
          | ok _ =>
              rw [liftExcept_eq, Async.ok_bind, Async.run_bind]
              have hcommit := commit_cases env w d.session.id (amountOf v)
              have hnone := created_run env w
                (commitProviderSpend_creates_none d.session.id (amountOf v))
              have hcatalog := catalog_run env w
                (commitProviderSpend d.session.id (amountOf v))
              revert hcommit hnone hcatalog
              rw [show bookedAmount ((v.get? "estimatedCost").getD .null) = amountOf v from rfl]
              generalize Async.run (handle env) (commitProviderSpend d.session.id (amountOf v)) w = out
              obtain ⟨r, w₁⟩ := out
              intro hcommit hnone hcatalog
              cases hcommit with
              | refused e hsessions => exact .refused hsessions hnone
              | booked s hs haccepted hsaved hr =>
                  cases r with
                  | error e => exact .booked path v s hpath hfile hs haccepted hsaved (.inl hnone)
                  | ok u =>
                      have hcreate := create_sessions env w₁ v
                      refine .booked path v s hpath hfile hs haccepted ?_ ?_
                      · rw [World.session, hcreate]
                        exact hsaved
                      · dsimp only at hnone hcatalog
                        rw [← hnone]
                        refine (create_creates v).imp_right fun hcreates => ?_
                        obtain ⟨node, hnode, hmore⟩ := hcreates
                        refine ⟨hr u rfl, node, ?_, hmore⟩
                        unfold LiveEntry at hnode ⊢
                        rwa [← hcatalog]

/-! ## Runs of steps -/

/-- A step that provisions, or a change from outside between two steps: the agent rewrites files of the
repository, the providers change their catalogs. -/
inductive Move
  | provision (d : Dispatch)
  | files (content : String → Option FileText)
  | catalog (sizes : CloudProvider → Except Failure (List NodeSizeDto))

/-- One move; a step is executed to its end. -/
def runMove (env : Env) (w : World) : Move → World
  | .provision d => (Async.run (handle env) (provision d.step.input d.session) w).2
  | .files content => { w with files := content }
  | .catalog sizes => { w with catalog := sizes }

/-- A sequence of moves. -/
def runMoves (env : Env) (moves : List Move) (w : World) : World := moves.foldl (runMove env) w

/-- The steps are steps of this session. -/
def Move.OfSession (id : ℕ) : Move → Prop
  | provision d => d.session.id = id
  | _ => True

/-- The plan file of a step books enough: if the session can afford the stated amount, the amount is a
number, and no entry that the live catalog has for the file costs more at its location. An amount that
is no number value creates nothing. -/
def BooksEnough (env : Env) (w : World) : Move → Prop
  | .provision d => ∀ path v s, planPath d = .ok path → w.files path = some (.json v) →
      w.session d.session.id = some s → Accepted s (amountOf v) →
      (amountOf v).toNumber ≠ .nan ∧
      ∀ n node, amountOf v = .num n → LiveEntry env w v node →
        (JsNum.fin (livePrice node (v.get? "location"))).le (JsNum.max 0 n) = true
  | _ => True

/-- Every step of the run books enough. -/
def BooksAlong (env : Env) : List Move → World → Prop
  | [], _ => True
  | m :: moves, w => BooksEnough env w m ∧ BooksAlong env moves (runMove env w m)

/-- The session is stored with this limit and this spend. -/
structure Budget (id : ℕ) (limit spent : ℚ) (w : World) : Prop where
  stored : Stored w
  record : ∃ s, w.session id = some s ∧ JsNum.ofField s.limits.maxProviderSpendEur = .fin limit ∧
    s.providerSpendEur = some (.fin spent)
  nonneg : 0 ≤ spent

/-- An accepted amount that is a number is booked in full, within the limit. -/
theorem accepted_amount {s : AgentSession} {amount : Json} {limit spent : ℚ}
    (hlimit : JsNum.ofField s.limits.maxProviderSpendEur = .fin limit)
    (hspent : s.providerSpendEur = some (.fin spent)) (haccepted : Accepted s amount)
    (hnum : amount.toNumber ≠ .nan) :
    ∃ q, 0 ≤ q ∧ JsNum.max 0 amount.toNumber = .fin q ∧
      committedTotal s amount = .fin (spent + q) ∧ spent + q ≤ limit := by
  unfold Accepted at haccepted
  unfold committedTotal at haccepted ⊢
  rw [hlimit, hspent, JsNum.ofField_some] at haccepted
  rw [hspent, JsNum.ofField_some]
  cases hn : amount.toNumber with
  | nan => exact absurd hn hnum
  | posInf => simp [hn, JsNum.max, JsNum.lt, JsNum.add] at haccepted
  | negInf =>
      rw [hn] at haccepted
      refine ⟨0, le_rfl, by simp [JsNum.max, JsNum.lt], by simp [JsNum.max, JsNum.lt], ?_⟩
      simpa [JsNum.max, JsNum.lt] using haccepted
  | fin q =>
      rw [hn] at haccepted
      refine ⟨max 0 q, le_max_left 0 q, by simp, by simp, ?_⟩
      simpa using haccepted

theorem totalPrice_append (xs ys : List CreatedServer) :
    totalPrice (xs ++ ys) = totalPrice xs + totalPrice ys := by
  simp [totalPrice]

/-- What one step under the condition does to the budget: the spend grows by at least the price of what
was created, and where it grows it stays within the limit. -/
theorem budget_move {id : ℕ} {limit spent : ℚ} {m : Move} (hw : Budget id limit spent w)
    (hm : m.OfSession id) (hbooks : BooksEnough env w m) :
    ∃ q new, 0 ≤ q ∧ Budget id limit (spent + q) (runMove env w m) ∧
      (runMove env w m).created = w.created ++ new ∧ totalPrice new ≤ q ∧
      (q = 0 ∨ spent + q ≤ limit) := by
  -- a move that changes neither the sessions nor the servers
  have hsame : ∀ w' : World, Stored w' → w'.sessions = w.sessions → w'.created = w.created →
      ∃ q new, 0 ≤ q ∧ Budget id limit (spent + q) w' ∧ w'.created = w.created ++ new ∧
        totalPrice new ≤ q ∧ (q = 0 ∨ spent + q ≤ limit) := by
    intro w' hstored hsessions hcreated
    refine ⟨0, [], le_rfl, ⟨hstored, ?_, by simpa using hw.nonneg⟩, by simpa using hcreated,
      by simp [totalPrice], .inl rfl⟩
    simpa [World.session, hsessions] using hw.record
  cases m with
  | files content => exact hsame _ ⟨hw.stored.sessions, hw.stored.plans, hw.stored.approvals⟩ rfl rfl
  | catalog sizes => exact hsame _ ⟨hw.stored.sessions, hw.stored.plans, hw.stored.approvals⟩ rfl rfl
  | provision d =>
      have hstored : Stored (runMove env w (.provision d)) :=
        stored_run (provision d.step.input d.session) hw.stored
      have hcases : Provisioned env d w (runMove env w (.provision d)) := provision_cases d
      obtain rfl : d.session.id = id := hm
      generalize runMove env w (.provision d) = w' at hstored hcases ⊢
      cases hcases with
      | refused hsessions hcreated => exact hsame _ hstored hsessions hcreated
      | booked path v s hpath hfile hs haccepted hsaved hcreated =>
          obtain ⟨s', hs', hlimit, hspent⟩ := hw.record
          obtain rfl : s = s' := Option.some.inj (hs.symm.trans hs')
          obtain ⟨hnum, hprice⟩ := hbooks path v s hpath hfile hs haccepted
          obtain ⟨q, hq, hmax, htotal, hle⟩ := accepted_amount hlimit hspent haccepted hnum
          have hbudget : Budget d.session.id limit (spent + q) w' := by
            refine ⟨hstored, ⟨_, hsaved, ofField_stored hlimit, ?_⟩, add_nonneg hw.nonneg hq⟩
            simp [storedSession, spendRecord, htotal]
          have hnone : w'.created = w.created → ∃ q new, 0 ≤ q ∧
              Budget d.session.id limit (spent + q) w' ∧ w'.created = w.created ++ new ∧
              totalPrice new ≤ q ∧ (q = 0 ∨ spent + q ≤ limit) := fun hcreated =>
            ⟨q, [], hq, hbudget, by simpa using hcreated, by simpa [totalPrice] using hq, .inr hle⟩
          rcases hcreated with hcreated | ⟨⟨n, hn⟩, node, hnode, hcreated | ⟨config, hloc, hcreated⟩⟩
          · exact hnone hcreated
          · exact hnone hcreated
          · refine ⟨q, [⟨config, node⟩], hq, hbudget, hcreated, ?_, .inr hle⟩
            have hfin : JsNum.max 0 n = .fin q := by simpa [hn, Json.toNumber] using hmax
            have hpaid := hprice n node hn hnode
            rw [hfin, JsNum.le_fin] at hpaid
            simpa [totalPrice, hloc] using hpaid

/-- Along a run under the condition the live prices of the servers created add up to at most what was
booked, and that stays within the limit. -/
theorem budget_moves {id : ℕ} {limit spent : ℚ} {moves : List Move} (hw : Budget id limit spent w)
    (hmoves : ∀ m ∈ moves, m.OfSession id) (hbooks : BooksAlong env moves w) :
    ∃ q new, 0 ≤ q ∧ Budget id limit (spent + q) (runMoves env moves w) ∧
      (runMoves env moves w).created = w.created ++ new ∧ totalPrice new ≤ q ∧
      (q = 0 ∨ spent + q ≤ limit) := by
  induction moves generalizing w spent with
  | nil => exact ⟨0, [], le_rfl, by simpa [runMoves] using hw, by simp [runMoves],
      by simp [totalPrice], .inl rfl⟩
  | cons m moves ih =>
      obtain ⟨q, new, hq, hw', hnew, hprice, hlimit⟩ :=
        budget_move hw (hmoves m List.mem_cons_self) hbooks.1
      obtain ⟨q', new', hq', hw'', hnew', hprice', hlimit'⟩ :=
        ih hw' (fun m' hm' => hmoves m' (List.mem_cons_of_mem _ hm')) hbooks.2
      refine ⟨q + q', new ++ new', add_nonneg hq hq', ?_, ?_, ?_, ?_⟩
      · rw [← add_assoc]
        exact hw''
      · rw [← List.append_assoc, ← hnew]
        exact hnew'
      · rw [totalPrice_append]
        exact add_le_add hprice hprice'
      · rw [← add_assoc]
        rcases hlimit' with rfl | hlimit'
        · simpa using hlimit
        · exact .inr hlimit'

/-- A condition along a run holds along its two parts. -/
theorem booksAlong_append {before after : List Move} (h : BooksAlong env (before ++ after) w) :
    BooksAlong env before w ∧ BooksAlong env after (runMoves env before w) := by
  induction before generalizing w with
  | nil => exact ⟨trivial, h⟩
  | cons m before ih => exact ⟨⟨h.1, (ih h.2).1⟩, (ih h.2).2⟩

/-- The budget binds: along every run of steps that book enough, from a session with a spend that is a
number, the live monthly prices of the servers created add up to at most the session's limit; and the
spend is a finite number at every point of the run and never decreases. -/
theorem budget_binds (env : Env) (w : World) (id : ℕ) (limit spent : ℚ) (moves : List Move)
    (hw : Budget id limit spent w) (hlimit : 0 ≤ limit) (hmoves : ∀ m ∈ moves, m.OfSession id)
    (hbooks : BooksAlong env moves w) :
    (∃ new, (runMoves env moves w).created = w.created ++ new ∧ totalPrice new ≤ limit) ∧
    ∀ before after, moves = before ++ after → ∃ spent₁ spent₂,
      Budget id limit spent₁ (runMoves env before w) ∧
      Budget id limit spent₂ (runMoves env moves w) ∧ spent₁ ≤ spent₂ := by
  constructor
  · obtain ⟨q, new, -, -, hnew, hprice, hq⟩ := budget_moves hw hmoves hbooks
    have hspent := hw.nonneg
    refine ⟨new, hnew, hprice.trans ?_⟩
    rcases hq with rfl | hq
    · exact hlimit
    · linarith
  · rintro before after rfl
    obtain ⟨hbefore, hafter⟩ := booksAlong_append hbooks
    obtain ⟨q, -, -, hw', -⟩ := budget_moves hw
      (fun m hm => hmoves m (List.mem_append_left _ hm)) hbefore
    obtain ⟨q', -, hq', hw'', -⟩ := budget_moves hw'
      (fun m hm => hmoves m (List.mem_append_right _ hm)) hafter
    refine ⟨_, _, hw', ?_, le_add_of_nonneg_right hq'⟩
    simpa [runMoves] using hw''

/-- A step that provisions a server of the plan file `plan.json`. -/
def provisionStep : Dispatch :=
  ⟨⟨"step-1", "server.provision", .obj [("provider", .str "hetzner"),
    ("planFile", .str "plan.json")], .high⟩, sampleSession, samplePlan, 2⟩

/-- A plan file that states this monthly cost. -/
def statedPlan (monthly : Json) : Json :=
  .obj [("version", .str "vops.plan.v1"), ("provider", .str "hetzner"), ("plan", .str "cx22"),
    ("location", .str "fsn1"), ("name", .str "web"),
    ("sshKey", .obj [("mode", .str "none")]), ("estimatedCost", .obj [("monthly", monthly)])]

/-- The entry of the catalog for `cx22`, which costs 4 EUR a month. -/
def cx22 : NodeSizeDto :=
  ⟨"cx22", "cx22", true, false, [⟨"fsn1", some "0.006", some "4"⟩]⟩

/-- The repository holds that plan file, and the provider sells `cx22`. -/
def statedWorld (monthly : Json) : World :=
  { sampleWorld with
    files := fun path => if path = "/repo/plan.json" then some (.json (statedPlan monthly)) else none
    catalog := fun _ => .ok [cx22] }

theorem budget_statedWorld (monthly : Json) : Budget 0 6 0 (statedWorld monthly) where
  stored := ⟨stored_sampleWorld.sessions, stored_sampleWorld.plans, stored_sampleWorld.approvals⟩
  record := ⟨sampleSession, rfl, rfl, rfl⟩
  nonneg := le_rfl

/-- A file that states what the catalog asks books enough. -/
theorem booksEnough_stated : BooksEnough Env.sample (statedWorld (.num (.fin 4)))
    (.provision provisionStep) := by
  intro path v s hpath hfile _ _
  obtain rfl : "/repo/plan.json" = path := Except.ok.inj hpath
  obtain rfl : statedPlan (.num (.fin 4)) = v := FileText.json.inj (Option.some.inj hfile)
  refine ⟨by decide, fun n node hn hnode => ?_⟩
  obtain ⟨provider, sizes, -, hsizes, hfound, -⟩ := hnode
  obtain rfl : [cx22] = sizes := Except.ok.inj hsizes
  obtain rfl : cx22 = node := Except.ok.inj hfound
  obtain rfl : JsNum.fin 4 = n := Json.num.inj hn
  decide +kernel

/-- The theorem at one server of a file that states its price. -/
theorem budget_binds_stated :
    (∃ new, (runMoves Env.sample [.provision provisionStep] (statedWorld (.num (.fin 4)))).created =
      [] ++ new ∧ totalPrice new ≤ 6) ∧
    ∀ before after, [Move.provision provisionStep] = before ++ after → ∃ spent₁ spent₂,
      Budget 0 6 spent₁ (runMoves Env.sample before (statedWorld (.num (.fin 4)))) ∧
      Budget 0 6 spent₂
        (runMoves Env.sample [.provision provisionStep] (statedWorld (.num (.fin 4)))) ∧
      spent₁ ≤ spent₂ :=
  budget_binds Env.sample (statedWorld (.num (.fin 4))) 0 6 0 [.provision provisionStep]
    (budget_statedWorld _) (by decide +kernel) (by simp [Move.OfSession, provisionStep, sampleSession])
    ⟨booksEnough_stated, trivial⟩

/-- Two servers of a file that states a cost of nothing: their live prices add up to 8 EUR a month, of
a limit of 6. -/
theorem understated_exceeds_budget : ¬ ∀ (env : Env) (w : World) (id : ℕ) (limit spent : ℚ)
    (moves : List Move), Budget id limit spent w → 0 ≤ limit → (∀ m ∈ moves, m.OfSession id) →
    (∃ new, (runMoves env moves w).created = w.created ++ new ∧ totalPrice new ≤ limit) ∧
    ∀ before after, moves = before ++ after → ∃ spent₁ spent₂,
      Budget id limit spent₁ (runMoves env before w) ∧
      Budget id limit spent₂ (runMoves env moves w) ∧ spent₁ ≤ spent₂ := by
  intro h
  obtain ⟨⟨new, hnew, hprice⟩, -⟩ := h Env.sample (statedWorld (.num (.fin 0))) 0 6 0
    [.provision provisionStep, .provision provisionStep] (budget_statedWorld _)
    (by decide +kernel) (by simp [Move.OfSession, provisionStep, sampleSession])
  have htotal : totalPrice (runMoves Env.sample [.provision provisionStep, .provision provisionStep]
      (statedWorld (.num (.fin 0)))).created = 8 := by decide +kernel
  rw [hnew, show (statedWorld (.num (.fin 0))).created = [] from rfl, List.nil_append] at htotal
  rw [htotal] at hprice
  exact absurd hprice (by decide +kernel)

end Vops.CoreActionExecutor
