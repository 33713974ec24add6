import Vops.AgentControl.AgentSessionManager
import Vops.AgentControl.PolicyEngine
import Mathlib.Data.Set.Finite.Basic

/-!
# What narrowing a session takes away

`narrowScope` replaces the targets, the expiry and the spend limit by the values it is given, and
moves capabilities from the grants to `deny`.

* `NarrowsOnly` — no request is answered more favourably on the narrowed session, and expiry and
  limit are no greater.
* `TakesAway` — the condition on the session and the argument.
* `narrowScope_takes_away_iff` — the one holds exactly when the other does. The grants always shrink
  (`permits_keeps`, `permits_denied`); targets, expiry and limit shrink when the new value does.
-/

/-!
## The two policy passes

A plan is checked twice: `PlanEngine.create` evaluates each step without a plan, and
`ActionBroker.requireStepAllowed` evaluates it again, with the plan marked approved.

* `approved_allows_iff` — where the first pass asks for an approval, the second one allows the step
  exactly when one of the two plan lists of the session names the capability. An approval that was
  asked for by `approvalDefaults` alone never lets the step run.
-/

namespace Vops.PolicyEngine

open CapabilityRegistry

variable {emergencyStop : Bool}

/-- Where the first pass asks for an approval, the pass with the approved plan allows the step if
and only if `allowWithinApprovedPlan` or `requireApproval` of the session covers the capability. -/
theorem approved_allows_iff (session : AgentSession) (capability : String) (input : Json)
    (environment : AgentEnvironment) (plan : AgentPlan)
    (hask : Answers emergencyStop ⟨session, capability, input, environment, none⟩
      .approval_required)
    (hplan : plan.sessionId = session.id) :
    Answers emergencyStop
      ⟨session, capability, input, environment, some { plan with status := .approved }⟩ .allow ↔
    planGrant session capability = true := by
  obtain ⟨c, hc, heff⟩ := answers_iff.mp hask
  have hid := find_id hc
  have hpass : Passes emergencyStop c session input environment :=
    passes_of_not_deny (by rw [heff]; decide)
  have hfirst := @decideFor_of_passes emergencyStop c
    ⟨session, capability, input, environment, none⟩ hpass
  rw [heff] at hfirst
  -- the first pass did not find the capability among the session's grants
  have hallow : permits session.permissions.allow capability = false := by
    rw [Bool.eq_false_iff]
    intro hallow
    rw [hid, if_pos hallow] at hfirst
    cases hfirst
  have hsecond : (decideFor emergencyStop c
      ⟨session, capability, input, environment, some { plan with status := .approved }⟩).effect =
      if planGrant session capability = true then .allow
      else if c.approvalDefaults.get environment ≠ .session_grant then .approval_required
      else .deny := by
    rw [decideFor_of_passes (by exact hpass), hid]
    by_cases hg : planGrant session capability = true <;> simp [hallow, hg, approvedFor, hplan]
  rw [answers_iff]
  constructor
  · rintro ⟨c', hc', heff'⟩
    obtain rfl : c = c' := Option.some.inj (hc.symm.trans hc')
    rw [hsecond] at heff'
    by_contra hg
    rw [if_neg hg] at heff'
    split at heff' <;> cases heff'
  · intro hg
    exact ⟨c, hc, by rw [hsecond, if_pos hg]⟩

/-- The theorem at a plan to provision a server, which the session grants under approval. -/
theorem approved_allows_iff_provision :
    Answers false ⟨sampleSession, "server.provision", .obj [], .staging,
      some { samplePlan with status := .approved }⟩ .allow ↔
    planGrant sampleSession "server.provision" = true :=
  approved_allows_iff sampleSession "server.provision" (.obj []) .staging samplePlan
    ⟨_, rfl, rfl⟩ rfl

/-- Hardening a server asks for an approval that cannot be given: the session names `server.harden`
in no list, and the plan that asked for it is refused again once it is approved. -/
theorem approved_plan_still_asks : ¬ ∀ (emergencyStop : Bool) (session : AgentSession)
    (capability : String) (input : Json) (environment : AgentEnvironment) (plan : AgentPlan),
    plan.sessionId = session.id →
    Answers emergencyStop ⟨session, capability, input, environment, none⟩ .approval_required →
    Answers emergencyStop
      ⟨session, capability, input, environment, some { plan with status := .approved }⟩ .allow := by
  intro h
  obtain ⟨d, hd, heff⟩ := h false sampleSession "server.harden" (.obj [("target", .str "demo")])
    .staging samplePlan rfl ⟨_, rfl, rfl⟩
  cases hd
  cases heff

end Vops.PolicyEngine

namespace Vops.AgentSessionManager

open PolicyEngine CapabilityRegistry

/-! ## The property and the condition -/

/-- `a` is no greater than `b`, as numbers; a field that is `null` counts as zero. -/
def NoGreater (a b : Option JsNum) : Prop :=
  a = b ∨ (JsNum.ofField a).le (JsNum.ofField b) = true

/-- Going from `s` to `s'` only takes permission away. -/
structure NarrowsOnly (s s' : AgentSession) : Prop where
  allowed : ∀ emergencyStop capability input environment plan,
    Answers emergencyStop ⟨s', capability, input, environment, plan⟩ .allow →
    Answers emergencyStop ⟨s, capability, input, environment, plan⟩ .allow
  asked : ∀ emergencyStop capability input environment plan,
    Answers emergencyStop ⟨s', capability, input, environment, plan⟩ .approval_required →
    ¬ Answers emergencyStop ⟨s, capability, input, environment, plan⟩ .deny
  expiry : s'.limits.expiresAt ≤ s.limits.expiresAt
  spend : NoGreater s'.limits.maxProviderSpendEur s.limits.maxProviderSpendEur

/-- The session without a restriction to targets. -/
def anyTarget (s : AgentSession) : AgentSession := { s with scope := { s.scope with targets := [] } }

/-- The argument removes the capability, or the whole spend limit that it needs. -/
def Removes (narrow : NarrowInput) (capability : String) : Prop :=
  permits (narrow.capabilities.getD []) capability = true ∨
    capability = "server.provision" ∧
      ∃ n, narrow.maxProviderSpendEur = some n ∧ (JsNum.max 0 n).le 0 = true

/-- What is left of the session, targets aside, denies everything: each capability that some request
could still get an answer for is removed. -/
def LeavesNothing (s : AgentSession) (narrow : NarrowInput) : Prop :=
  ∀ emergencyStop capability environment plan effect, effect ≠ .deny →
    Answers emergencyStop ⟨anyTarget s, capability, .obj [], environment, plan⟩ effect →
    Removes narrow capability

/-- The new values are no greater than the session's own. -/
structure TakesAway (s : AgentSession) (narrow : NarrowInput) : Prop where
  expiry : ∀ ms, narrow.expiresAt = .at ms → ms ≤ s.limits.expiresAt
  spend : ∀ n, narrow.maxProviderSpendEur = some n →
    NoGreater (some (JsNum.max 0 n)) s.limits.maxProviderSpendEur
  targets : ∀ targets, narrow.targets = some targets → s.scope.targets = [] ∨
    (targets ≠ [] ∧ ∀ t ∈ targets, t = "" ∨ t ∈ s.scope.targets) ∨ LeavesNothing s narrow

/-! ## The grants -/

variable {s s' : AgentSession} {narrow : NarrowInput}

theorem permits_iff {patterns : List String} {capability : String} :
    permits patterns capability = true ↔ "*" ∈ patterns ∨ capability ∈ patterns := by
  simp only [permits, List.any_eq_true, Bool.or_eq_true, beq_iff_eq]
  constructor
  · rintro ⟨x, hx, rfl | rfl⟩
    · exact .inl hx
    · exact .inr hx
  · rintro (h | h)
    · exact ⟨_, h, .inl rfl⟩
    · exact ⟨_, h, .inr rfl⟩

/-- A grant that is kept permits what it permitted, for a capability that is not removed. -/
theorem permits_keeps {patterns removed : List String} {capability : String}
    (h : permits removed capability = false) :
    permits (patterns.filter (· ∉ removed)) capability = permits patterns capability := by
  have hr : ¬ ("*" ∈ removed ∨ capability ∈ removed) := by
    rw [← permits_iff, h]
    decide
  rw [not_or] at hr
  rw [Bool.eq_iff_iff, permits_iff, permits_iff]
  simp [hr.1, hr.2]

/-- What is removed is denied, and what was denied stays denied. -/
theorem permits_denied {denied removed : List String} {capability : String} :
    permits (unique (denied ++ removed)) capability = false ↔
      permits denied capability = false ∧ permits removed capability = false := by
  simp only [Bool.eq_false_iff, ne_eq, permits_iff, mem_unique, List.mem_append]
  tauto

variable {emergencyStop : Bool} {c : CapabilityDefinition} {input : Json}
  {environment : AgentEnvironment} {plan : Option AgentPlan}

/-- A request that passes the gates of the narrowed session is for a capability that is not removed,
and finds there the grants it finds in the session. -/
theorem narrowed_effect (h : narrowRecord s narrow = .ok s')
    (hp' : Passes emergencyStop c s' input environment) {t : AgentSession} {input' : Json}
    (ht : t.permissions = s.permissions) (hid : t.id = s.id)
    (hp : Passes emergencyStop c t input' environment) :
    (decideFor emergencyStop c ⟨s', c.id, input, environment, plan⟩).effect =
      (decideFor emergencyStop c ⟨t, c.id, input', environment, plan⟩).effect := by
  obtain ⟨hid', -, -, -, ha, hw, hr, hd, -, -⟩ := narrowRecord_ok h
  have hrem : permits (narrow.capabilities.getD []) c.id = false := by
    have := hp'.not_denied
    rw [hd] at this
    exact (permits_denied.mp this).2
  have happroved : approvedFor s' plan = approvedFor t plan := by
    cases plan with
    | none => rfl
    | some plan => simp only [approvedFor, hid', hid]
  rw [decideFor_of_passes (by exact hp'), decideFor_of_passes (by exact hp)]
  simp only [planGrant, ha, hw, hr, ht, permits_keeps hrem, happroved]

theorem ofField_le_zero_of_noGreater {a b : Option JsNum} (h : NoGreater a b)
    (ha : ¬ (JsNum.ofField a).le 0 = true) : ¬ (JsNum.ofField b).le 0 = true := by
  rcases h with rfl | h
  · exact ha
  · generalize JsNum.ofField a = x at *
    generalize JsNum.ofField b = y at *
    cases x <;> cases y
    case fin.fin q r =>
      simp only [JsNum.zero_eq, JsNum.le_fin, decide_eq_true_eq, not_le] at *
      exact ha.trans_le h
    all_goals simp_all [JsNum.le, JsNum.lt]

/-- In the session without a restriction to targets only the environment is in question. -/
theorem scopeDenial_anyTarget : scopeDenial (anyTarget s) c input environment = none ↔
    environment ∈ s.scope.environments := by
  unfold scopeDenial anyTarget
  by_cases h : environment ∈ s.scope.environments <;> simp [h]

theorem environment_of_in_scope (h : scopeDenial s c input environment = none) :
    environment ∈ s.scope.environments := by
  by_contra hne
  simp [scopeDenial, hne] at h

/-- The spending gate opens no wider. -/
theorem can_spend_of_narrowed (h : narrowRecord s narrow = .ok s')
    (hspend : ∀ n, narrow.maxProviderSpendEur = some n →
      NoGreater (some (JsNum.max 0 n)) s.limits.maxProviderSpendEur)
    (hp' : Passes emergencyStop c s' input environment) :
    ¬ (c.id = "server.provision" ∧
      (JsNum.ofField s.limits.maxProviderSpendEur).le 0 = true) := by
  rintro ⟨hc, hle⟩
  obtain ⟨-, -, -, -, -, -, -, -, hmax, -⟩ := narrowRecord_ok h
  have hno : NoGreater s'.limits.maxProviderSpendEur s.limits.maxProviderSpendEur := by
    rw [hmax]
    cases hn : narrow.maxProviderSpendEur with
    | none => exact .inl rfl
    | some n => exact hspend n hn
  exact ofField_le_zero_of_noGreater hno (fun hz => hp'.can_spend ⟨hc, hz⟩) hle

/-- The gates of the session, targets aside, let through what those of the narrowed one do. -/
theorem passes_anyTarget (h : narrowRecord s narrow = .ok s')
    (hspend : ∀ n, narrow.maxProviderSpendEur = some n →
      NoGreater (some (JsNum.max 0 n)) s.limits.maxProviderSpendEur)
    (hp' : Passes emergencyStop c s' input environment) :
    Passes emergencyStop c (anyTarget s) (.obj []) environment := by
  obtain ⟨-, hstatus, henv, -, -, -, -, hdeny, -, -⟩ := narrowRecord_ok h
  refine ⟨hp'.running, hp'.enabled, ?_, ?_, ?_, can_spend_of_narrowed (s := s) h hspend hp'⟩
  · rw [← hp'.active, hstatus]; rfl
  · rw [scopeDenial_anyTarget, ← henv]
    exact environment_of_in_scope hp'.in_scope
  · have := hp'.not_denied
    rw [hdeny] at this
    exact (permits_denied.mp this).1

/-- A request that is not denied is for a capability that is not removed. -/
theorem not_removes (h : narrowRecord s narrow = .ok s')
    (hp' : Passes emergencyStop c s' input environment) : ¬ Removes narrow c.id := by
  obtain ⟨-, -, -, -, -, -, -, hdeny, hmax, -⟩ := narrowRecord_ok h
  rintro (hrem | ⟨hc, n, hn, hle⟩)
  · have := hp'.not_denied
    rw [hdeny] at this
    rw [(permits_denied.mp this).2] at hrem
    cases hrem
  · refine hp'.can_spend ⟨hc, ?_⟩
    rw [hmax, hn]
    exact hle

/-- Under the condition a request in scope of the narrowed session is in scope of the session. -/
theorem in_scope_of_takesAway (h : narrowRecord s narrow = .ok s') (htake : TakesAway s narrow)
    (hp' : Passes emergencyStop c s' input environment)
    (heff : (decideFor emergencyStop c ⟨s', c.id, input, environment, plan⟩).effect ≠ .deny)
    (hc : find c.id = some c) : scopeDenial s c input environment = none := by
  obtain ⟨-, -, henv, htargets, -, -, -, -, -, -⟩ := narrowRecord_ok h
  have hin : environment ∈ s.scope.environments := henv ▸ environment_of_in_scope hp'.in_scope
  have hscope := hp'.in_scope
  cases hn : narrow.targets with
  | none =>
      rw [hn, Option.map_none, Option.getD_none] at htargets
      simpa [scopeDenial, henv, htargets] using hscope
  | some targets =>
      rcases htake.targets targets hn with hnone | ⟨hne, hsub⟩ | hnothing
      · simp [scopeDenial, hin, hnone]
      · obtain ⟨t, ts, rfl⟩ := List.exists_cons_of_ne_nil hne
        rw [hn, Option.map_some, Option.getD_some] at htargets
        have hne' : s'.scope.targets ≠ [] := by rw [htargets]; exact List.cons_ne_nil _ _
        by_cases hs : s.scope.targets = []
        · simp [scopeDenial, hin, hs]
        simp only [scopeDenial, henv, hin, not_true_eq_false, if_false, hne', hs] at hscope ⊢
        cases ht : targetFrom input with
        | none => simpa [ht] using hscope
        | some target =>
            have hmem : target ∈ s'.scope.targets := by
              by_contra hnot
              simp [ht, hnot] at hscope
            rw [htargets, mem_unique] at hmem
            rcases hsub target hmem with rfl | hmem'
            · exact absurd ht (targetFrom_ne_empty input)
            · simp [hmem']
      · -- the narrowed session denies everything
        have hpass := passes_anyTarget h htake.spend hp'
        refine absurd (hnothing emergencyStop c.id environment plan _ ?_
          (answers_iff.mpr ⟨c, hc, rfl⟩)) (not_removes h hp')
        rw [← narrowed_effect (t := anyTarget s) h hp' rfl rfl hpass]
        exact heff

/-- Under the condition the gates of the session let through what those of the narrowed one do. -/
theorem passes_of_takesAway (h : narrowRecord s narrow = .ok s') (htake : TakesAway s narrow)
    (hp' : Passes emergencyStop c s' input environment)
    (heff : (decideFor emergencyStop c ⟨s', c.id, input, environment, plan⟩).effect ≠ .deny)
    (hc : find c.id = some c) : Passes emergencyStop c s input environment := by
  obtain ⟨-, hstatus, -, -, -, -, -, hdeny, -, -⟩ := narrowRecord_ok h
  refine ⟨hp'.running, hp'.enabled, ?_, in_scope_of_takesAway h htake hp' heff hc, ?_,
    can_spend_of_narrowed h htake.spend hp'⟩
  · rw [← hp'.active, hstatus]
  · have := hp'.not_denied
    rw [hdeny] at this
    exact (permits_denied.mp this).1

/-- Under the condition an answer other than a refusal was already the session's answer. -/
theorem answers_of_takesAway (h : narrowRecord s narrow = .ok s') (htake : TakesAway s narrow)
    {capability : String} {effect : PolicyEffect} (heff : effect ≠ .deny)
    (ha : Answers emergencyStop ⟨s', capability, input, environment, plan⟩ effect) :
    Answers emergencyStop ⟨s, capability, input, environment, plan⟩ effect := by
  obtain ⟨c, hc, hd⟩ := answers_iff.mp ha
  obtain rfl : c.id = capability := find_id hc
  have hne : (decideFor emergencyStop c ⟨s', c.id, input, environment, plan⟩).effect ≠ .deny := by
    rw [hd]; exact heff
  have hp' := passes_of_not_deny hne
  have hp := passes_of_takesAway h htake hp' hne hc
  exact answers_iff.mpr ⟨c, hc, by rw [← narrowed_effect h hp' rfl rfl hp, hd]⟩

/-- An answer is given once. -/
theorem answers_unique {request : PolicyRequest} {effect effect' : PolicyEffect}
    (h : Answers emergencyStop request effect) (h' : Answers emergencyStop request effect') :
    effect = effect' := by
  obtain ⟨d, hd, rfl⟩ := h
  obtain ⟨d', hd', rfl⟩ := h'
  rw [Except.ok.inj (hd.symm.trans hd')]

/-! ## The converse -/

/-- There is a name that no list holds. -/
theorem exists_other_target (targets : List String) : ∃ t, t ≠ "" ∧ t ∉ targets := by
  have hinf : Infinite String := Infinite.of_injective String.ofList fun a b hab => by
    simpa using congrArg String.toList hab
  obtain ⟨t, ht⟩ := Infinite.exists_notMem_finset ("" :: targets).toFinset
  rw [List.mem_toFinset, List.mem_cons, not_or] at ht
  exact ⟨t, ht.1, ht.2⟩

/-- A request that names its target. -/
def naming (t : String) : Json := .obj [("target", .str t)]

theorem targetFrom_naming {t : String} (ht : t ≠ "") : targetFrom (naming t) = some t := by
  simp [targetFrom, naming, Json.get?, ht]

/-- A capability that is not removed passes the gates of the narrowed session, for a target that
this session does not exclude. -/
theorem passes_narrowed (h : narrowRecord s narrow = .ok s') {input' : Json}
    (hp : Passes emergencyStop c (anyTarget s) input' environment) (hrem : ¬ Removes narrow c.id)
    (hscope : scopeDenial s' c input environment = none) :
    Passes emergencyStop c s' input environment := by
  obtain ⟨-, hstatus, -, -, -, -, -, hdeny, hmax, -⟩ := narrowRecord_ok h
  rw [Removes, not_or] at hrem
  refine ⟨hp.running, hp.enabled, ?_, hscope, ?_, ?_⟩
  · rw [hstatus]; exact hp.active
  · rw [hdeny]
    exact permits_denied.mpr ⟨hp.not_denied, by simpa using hrem.1⟩
  · rintro ⟨hc, hle⟩
    rw [hmax] at hle
    cases hn : narrow.maxProviderSpendEur with
    | none => rw [hn] at hle; exact hp.can_spend ⟨hc, hle⟩
    | some n => rw [hn] at hle; exact hrem.2 ⟨hc, n, hn, hle⟩

/-- A new target that the session did not have opens it for every capability that is left. -/
theorem leavesNothing_of_new_target (h : narrowRecord s narrow = .ok s')
    (honly : NarrowsOnly s s') (hs : s.scope.targets ≠ []) {t : String} (ht : t ≠ "")
    (hnew : t ∉ s.scope.targets)
    (hmem : s'.scope.targets = [] ∨ t ∈ s'.scope.targets) : LeavesNothing s narrow := by
  intro emergencyStop capability environment plan effect heff hans
  by_contra hrem
  obtain ⟨c, hc, hd⟩ := answers_iff.mp hans
  obtain rfl : c.id = capability := find_id hc
  have hp : Passes emergencyStop c (anyTarget s) (.obj []) environment :=
    passes_of_not_deny (by rw [hd]; exact heff)
  obtain ⟨-, -, henv, -, -, -, -, -, -, -⟩ := narrowRecord_ok h
  have hin : environment ∈ s.scope.environments := scopeDenial_anyTarget.mp hp.in_scope
  have hscope : scopeDenial s' c (naming t) environment = none := by
    rcases hmem with hnil | hmem
    · simp [scopeDenial, henv, hin, hnil]
    · have hne : s'.scope.targets ≠ [] := List.ne_nil_of_mem hmem
      simp [scopeDenial, henv, hin, hne, targetFrom_naming ht, hmem]
  have hp' := passes_narrowed h hp hrem hscope
  have hans' : Answers emergencyStop ⟨s', c.id, naming t, environment, plan⟩ effect :=
    answers_iff.mpr ⟨c, hc, by rw [narrowed_effect (t := anyTarget s) h hp' rfl rfl hp, hd]⟩
  -- on the session itself the request is out of scope
  have hdeny : Answers emergencyStop ⟨s, c.id, naming t, environment, plan⟩ .deny := by
    refine answers_iff.mpr ⟨c, hc, ?_⟩
    by_contra hne
    have := (passes_of_not_deny hne).in_scope
    simp [scopeDenial, hin, hs, targetFrom_naming ht, hnew] at this
  cases effect with
  | allow => exact absurd (answers_unique (honly.allowed _ _ _ _ _ hans') hdeny) (by decide)
  | approval_required => exact honly.asked _ _ _ _ _ hans' hdeny
  | deny => exact heff rfl

/-- The narrowed record takes permission away, and nothing else, exactly under the condition. -/
theorem narrowsOnly_iff (h : narrowRecord s narrow = .ok s') :
    NarrowsOnly s s' ↔ TakesAway s narrow := by
  obtain ⟨-, -, -, htargets, -, -, -, -, hmax, hexp⟩ := narrowRecord_ok h
  constructor
  · intro honly
    refine ⟨fun ms hms => ?_, fun n hn => ?_, fun targets hn => ?_⟩
    · rcases hexp with ⟨hempty, -⟩ | hat
      · rw [hempty] at hms; cases hms
      · rw [hms] at hat
        cases hat
        exact honly.expiry
    · have := honly.spend
      rwa [hmax, hn] at this
    · by_cases hs : s.scope.targets = []
      · exact .inl hs
      rw [hn, Option.map_some, Option.getD_some] at htargets
      by_cases hsub : targets ≠ [] ∧ ∀ t ∈ targets, t = "" ∨ t ∈ s.scope.targets
      · exact .inr (.inl hsub)
      right; right
      by_cases hnil : targets = []
      · obtain ⟨t, ht, hnew⟩ := exists_other_target s.scope.targets
        exact leavesNothing_of_new_target h honly hs ht hnew (.inl (by rw [htargets, hnil]; rfl))
      · have : ∃ t ∈ targets, ¬ (t = "" ∨ t ∈ s.scope.targets) := by
          by_contra hall
          push Not at hall
          exact hsub ⟨hnil, hall⟩
        obtain ⟨t, hmem, hnot⟩ := this
        rw [not_or] at hnot
        exact leavesNothing_of_new_target h honly hs hnot.1 hnot.2
          (.inr (by rw [htargets, mem_unique]; exact hmem))
  · intro htake
    refine ⟨fun _ _ _ _ _ ha => answers_of_takesAway h htake (by decide) ha,
      fun _ _ _ _ _ ha hdeny => ?_, ?_, ?_⟩
    · have := answers_unique (answers_of_takesAway h htake (by decide) ha) hdeny
      cases this
    · rcases hexp with ⟨-, heq⟩ | hat
      · exact heq.le
      · exact htake.expiry _ hat
    · rw [hmax]
      cases hn : narrow.maxProviderSpendEur with
      | none => exact .inl rfl
      | some n => exact htake.spend n hn

/-! ## The method -/

variable {env : Env} {w : World} {id : ℕ}

/-- `narrowScope` answers the narrowed record of the session it reads. -/
theorem run_narrowScope (hs : w.session id = some s) :
    (Async.run (handle env) (narrowScope id narrow) w).1 = narrowRecord s narrow := by
  have hread : (handle env (.getSession id) w).1 = some s := hs
  unfold narrowScope showSession
  cases hn : narrowRecord s narrow with
  | error e =>
      simp only [Async.perform_bind, Async.await_bind, Async.run_await, hread, Async.pure_eq,
        Async.ok_bind, hn, liftExcept, Async.throw_eq, Async.error_bind, Async.run_done]
  | ok s' =>
      simp only [Async.perform_bind, Async.await_bind, Async.run_await, hread, Async.pure_eq,
        Async.ok_bind, hn, liftExcept]
      rfl

/-- For every session and every argument that `narrowScope` accepts, narrowing only takes permission
away if and only if the new targets, expiry and limit are no greater than the session's own. -/
theorem narrowScope_takes_away_iff (env : Env) (w : World) (id : ℕ) (narrow : NarrowInput)
    (s s' : AgentSession) (hs : w.session id = some s)
    (hok : (Async.run (handle env) (narrowScope id narrow) w).1 = .ok s') :
    NarrowsOnly s s' ↔ TakesAway s narrow :=
  narrowsOnly_iff ((run_narrowScope hs).symm.trans hok)

/-- The theorem at a narrowing to no capability and no target of its own. -/
theorem narrowScope_takes_away_iff_expiry :
    NarrowsOnly sampleSession
      { sampleSession with limits := { sampleSession.limits with expiresAt := 60000 } } ↔
    TakesAway sampleSession { expiresAt := .at 60000 } :=
  narrowScope_takes_away_iff Env.sample sampleWorld 0 { expiresAt := .at 60000 } sampleSession _ rfl
    (by rw [run_narrowScope (s := sampleSession) rfl]; rfl)

/-- Narrowing to no target opens the session to every target: the empty list, which the summary
calls `none`, is no restriction for the policy engine. -/
theorem narrowing_to_no_target_widens : ¬ ∀ (env : Env) (w : World) (id : ℕ) (narrow : NarrowInput)
    (s s' : AgentSession), w.session id = some s →
    (Async.run (handle env) (narrowScope id narrow) w).1 = .ok s' → NarrowsOnly s s' := by
  intro h
  have honly := h Env.sample sampleWorld 0 { targets := some [] } sampleSession _ rfl
    (run_narrowScope (s := sampleSession) rfl)
  obtain ⟨d, hd, heff⟩ := honly.allowed false "target.inspect" (naming "elsewhere") .staging none
    ⟨_, rfl, rfl⟩
  cases hd
  cases heff

end Vops.AgentSessionManager
