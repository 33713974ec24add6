import Vops.AgentControl.Digest
import Vops.AgentControl.PlanEngine

/-!
# The hash of a plan that was stored (`PlanEngine.create`, `PlanEngine.validate`)

`create` computes the hash from the plan as it was proposed, `savePlan` writes the plan redacted.

* `kept_iff` — which values are read back with the same text.
* `storedJson_planBody` — the body of what is read back is what is read back of the body.
* `CheckedAs`, `create_ok` — the steps of a plan that `create` accepts, and the world behind it.
* `Survives` — redaction changes no text that the caller chose.
* `hash_survives_iff` — the hash check passes on the plan that is read back exactly then.
-/

namespace Vops

open Async

variable {env : Env}

/-! ## Values that are stored unchanged -/

theorem storedJson_arr (xs : List Json) : storedJson (.arr xs) = .arr (xs.map storedJson) := by
  rw [storedJson, redactSecrets, Json.reparse, Json.reparseElements_eq, redactElements_eq,
    List.map_map]
  rfl

/-- A value without a sensitive key is kept exactly when redaction changes none of its texts. -/
theorem kept_iff (hnum : NumberText env.numText) (v : Json) (h : containsSecretLikeField v = false) :
    Kept env v ↔ redactionApplied v = false := by
  induction v using Json.inductionOn with
  | null => exact iff_of_true rfl rfl
  | bool b => exact iff_of_true rfl rfl
  | num n => exact iff_of_true (by cases n <;> rfl) rfl
  | str s => rw [storedText_iff, redactionApplied, bne_eq_false_iff_eq]
  | arr xs ih =>
      rw [containsSecretLikeField, containsSecretLikeElement_eq, List.any_eq_false] at h
      rw [Kept, storedJson_arr, stableChars_arr_map_iff hnum, redactionApplied,
        redactionAppliedElements_eq, List.any_eq_false]
      refine forall_congr' fun x => forall_congr' fun hx => ?_
      exact (ih x hx (by simpa using h x hx)).trans (by simp)
  | obj fields ih =>
      rw [containsSecretLikeField, containsSecretLikeKey_eq, List.any_eq_false] at h
      have hkey : ∀ f ∈ fields, isSensitiveKey f.1 = false ∧ containsSecretLikeField f.2 = false :=
        fun f hf => by simpa using h f hf
      rw [Kept, storedJson, redactSecrets, Json.reparse,
        storedFields_eq fun f hf => by simp [(hkey f hf).1], stableChars_obj_map_iff hnum,
        redactionApplied, redactionAppliedFields_eq, List.any_eq_false]
      refine forall_congr' fun f => forall_congr' fun hf => ?_
      exact (ih f hf (hkey f hf).2).trans (by simp [(hkey f hf).1])

namespace PlanEngine

/-! ## The body of a plan -/

theorem redactText_environment (e : AgentEnvironment) : redactText e.text = e.text := by
  cases e <;> exact redactText_of_plain (by decide)

theorem redactText_risk (r : CapabilityRisk) : redactText r.text = r.text := by
  cases r <;> exact redactText_of_plain (by decide)

theorem redactText_sessionId (id : ℕ) : redactText (idText "ses" id) = idText "ses" id :=
  redactText_idText (by decide) id

/-- The keys of the records of a plan name no secret. -/
theorem planKeys_plain : ∀ key ∈ ["sessionId", "objective", "environment", "target", "steps",
    "successCriteria", "estimatedEffects", "excludedEffects", "rollback", "id", "capability",
    "input", "risk", "available", "limitations"], isSensitiveKey key = false := by
  have hkey {cs : List Char} (h : sensitiveIn true ((normalizeKey cs).map Char.toLower) = false) :
      isSensitiveKey (String.ofList cs) = false := by
    rwa [isSensitiveKey, String.toList_ofList]
  repeat' first
    | exact hkey (by decide)
    | exact List.forall_mem_nil _
    | refine List.forall_mem_cons.mpr ⟨?_, ?_⟩

/-- An object without a sensitive key is stored value by value. -/
theorem storedJson_obj {fields : List (String × Json)}
    (h : ∀ f ∈ fields, (f.1 != "" && isSensitiveKey f.1) = false) :
    storedJson (.obj fields) = .obj (fields.map fun f => (f.1, storedJson f.2)) := by
  rw [storedJson, redactSecrets, Json.reparse, storedFields_eq h]

theorem storedJson_texts (xs : List String) :
    storedJson (.arr (xs.map .str)) = .arr ((xs.map redactText).map .str) := by
  rw [storedJson_arr, List.map_map, List.map_map]
  rfl

theorem storedJson_stepJson (step : AgentPlanStep) :
    storedJson (stepJson step) = stepJson (storedStep step) := by
  have hkeys : ∀ f ∈ [("id", Json.str step.id), ("capability", .str step.capability),
      ("input", step.input), ("risk", .str step.risk.text)],
      (f.1 != "" && isSensitiveKey f.1) = false := by
    simp [planKeys_plain]
  rw [stepJson, storedJson_obj hkeys]
  simp only [List.map_cons, List.map_nil, storedJson_str, redactText_risk]
  rfl

/-- `rollback` as JSON. -/
def rollbackJson (rollback : AgentRollback) : Json :=
  .obj [("available", .bool rollback.available),
    ("limitations", .arr (rollback.limitations.map .str))]

/-- The keys of the body of a plan. -/
def bodyKeys : List String :=
  ["sessionId", "objective", "environment", "target", "steps", "successCriteria",
    "estimatedEffects", "excludedEffects", "rollback"]

theorem bodyKeys_plain : ∀ key ∈ bodyKeys, isSensitiveKey key = false := by
  simp [bodyKeys, planKeys_plain]

/-- The fields of the body of a plan. -/
def bodyFields (plan : AgentPlan) : List (String × Option Json) :=
  [("sessionId", some (.str (idText "ses" plan.sessionId))), ("objective", some (.str plan.objective)),
    ("environment", some (.str plan.environment.text)), ("target", plan.target.map .str),
    ("steps", some (.arr (plan.steps.map stepJson))),
    ("successCriteria", some (.arr (plan.successCriteria.map .str))),
    ("estimatedEffects", some (.arr (plan.estimatedEffects.map .str))),
    ("excludedEffects", some (.arr (plan.excludedEffects.map .str))),
    ("rollback", some (rollbackJson plan.rollback))]

theorem planBody_eq (plan : AgentPlan) : planBody plan = .obj (definedFields (bodyFields plan)) := by
  cases hplan : plan.target <;> simp [planBody, bodyFields, definedFields, rollbackJson, hplan]

theorem bodyFields_keys (plan : AgentPlan) :
    ∀ f ∈ definedFields (bodyFields plan), isSensitiveKey f.1 = false := by
  intro f hf
  have hmem : f.1 ∈ (bodyFields plan).map Prod.fst :=
    List.mem_map.mpr ⟨_, mem_definedFields.mp hf, rfl⟩
  exact bodyKeys_plain f.1 hmem

theorem map_definedFields (g : Json → Json) (fields : List (String × Option Json)) :
    (definedFields fields).map (fun f => (f.1, g f.2)) =
      definedFields (fields.map fun f => (f.1, f.2.map g)) := by
  rw [definedFields, definedFields, List.map_filterMap, List.filterMap_map]
  congr 1
  funext f
  rw [Function.comp_apply, Option.map_map, Option.map_map]
  rfl

theorem storedJson_rollbackJson (rollback : AgentRollback) : storedJson (rollbackJson rollback) =
    rollbackJson ⟨rollback.available, rollback.limitations.map redactText⟩ := by
  have hkeys : ∀ f ∈ [("available", Json.bool rollback.available),
      ("limitations", .arr (rollback.limitations.map .str))],
      (f.1 != "" && isSensitiveKey f.1) = false := by
    simp [planKeys_plain]
  rw [rollbackJson, storedJson_obj hkeys, List.map_cons, List.map_cons,
    List.map_nil, storedJson_texts]
  rfl

/-- What is read back of the body is the body of what is read back. -/
theorem storedJson_planBody (plan : AgentPlan) :
    storedJson (planBody plan) = planBody (storedPlan plan) := by
  have hsteps : storedJson (.arr (plan.steps.map stepJson)) =
      .arr ((plan.steps.map storedStep).map stepJson) := by
    rw [storedJson_arr, List.map_map, List.map_map]
    exact congrArg Json.arr (List.map_congr_left fun step _ => storedJson_stepJson step)
  have htarget : (plan.target.map Json.str).map storedJson = (plan.target.map redactText).map .str := by
    rw [Option.map_map, Option.map_map]
    rfl
  have hfields : (bodyFields plan).map (fun f => (f.1, f.2.map storedJson)) =
      bodyFields (storedPlan plan) := by
    simp only [bodyFields, List.map_cons, List.map_nil, Option.map_some, storedJson_str,
      redactText_sessionId, redactText_environment, htarget, hsteps, storedJson_texts,
      storedJson_rollbackJson]
    rfl
  rw [planBody_eq, planBody_eq, storedJson_obj fun f hf => by simp [bodyFields_keys plan f hf],
    map_definedFields, hfields]

/-- The texts of a plan's body that redaction changes, if any. -/
theorem redactionApplied_planBody (plan : AgentPlan) :
    redactionApplied (planBody plan) = false ↔
      redactText plan.objective = plan.objective ∧
      (∀ target ∈ plan.target, redactText target = target) ∧
      (∀ step ∈ plan.steps, redactText step.id = step.id ∧
        redactText step.capability = step.capability ∧ redactionApplied step.input = false) ∧
      (∀ text ∈ plan.successCriteria, redactText text = text) ∧
      (∀ text ∈ plan.estimatedEffects, redactText text = text) ∧
      (∀ text ∈ plan.excludedEffects, redactText text = text) ∧
      ∀ text ∈ plan.rollback.limitations, redactText text = text := by
  have htexts : ∀ xs : List String, redactionApplied (.arr (xs.map .str)) = false ↔
      ∀ text ∈ xs, redactText text = text := by
    intro xs
    rw [redactionApplied, redactionAppliedElements_eq, List.any_map, List.any_eq_false]
    simp [redactionApplied]
  have hkey : ∀ key ∈ ["id", "capability", "input", "risk", "available", "limitations"],
      isSensitiveKey key = false := by simp [planKeys_plain]
  simp only [List.forall_mem_cons] at hkey
  obtain ⟨hid, hcapability, hinput, hrisk, havailable, hlimitations, -⟩ := hkey
  have hstep : ∀ step : AgentPlanStep, redactionApplied (stepJson step) = false ↔
      redactText step.id = step.id ∧ redactText step.capability = step.capability ∧
        redactionApplied step.input = false := by
    intro step
    simp [stepJson, redactionApplied, redactionAppliedFields, hid, hcapability, hinput, hrisk,
      redactText_risk]
  have hsteps : redactionApplied (.arr (plan.steps.map stepJson)) = false ↔
      ∀ step ∈ plan.steps, redactText step.id = step.id ∧
        redactText step.capability = step.capability ∧ redactionApplied step.input = false := by
    rw [redactionApplied, redactionAppliedElements_eq, List.any_map, List.any_eq_false]
    simp only [Function.comp_apply, Bool.not_eq_true, hstep]
  have hrollback : redactionApplied (rollbackJson plan.rollback) = false ↔
      ∀ text ∈ plan.rollback.limitations, redactText text = text := by
    rw [← htexts]
    simp [rollbackJson, redactionApplied, redactionAppliedFields, havailable, hlimitations]
  have hfields : redactionApplied (planBody plan) = false ↔
      ∀ f ∈ bodyFields plan, ∀ v ∈ f.2, redactionApplied v = false := by
    rw [planBody_eq, redactionApplied, redactionAppliedFields_eq, List.any_eq_false]
    constructor
    · intro h f hf v hv
      have hmem : (f.1, v) ∈ definedFields (bodyFields plan) := by
        rw [mem_definedFields, ← Option.mem_def.mp hv]
        exact hf
      simpa [bodyFields_keys plan _ hmem] using h (f.1, v) hmem
    · intro h f hf
      simpa [bodyFields_keys plan f hf] using h _ (mem_definedFields.mp hf) f.2 rfl
  have htarget : (∀ v ∈ plan.target.map Json.str, redactionApplied v = false) ↔
      ∀ target ∈ plan.target, redactText target = target := by
    cases plan.target <;> simp [redactionApplied]
  have hone : ∀ v : Json, (∀ u ∈ some v, redactionApplied u = false) ↔ redactionApplied v = false := by
    simp
  have hstr : ∀ s : String, redactionApplied (.str s) = false ↔ redactText s = s := by
    simp [redactionApplied]
  rw [hfields]
  simp only [bodyFields, List.forall_mem_cons, hone, htarget, hsteps, htexts, hrollback, hstr,
    redactText_sessionId, redactText_environment, true_and]
  simp

/-! ## What `create` accepts -/

/-- The input of a proposed step, completed with the defaults of its capability. -/
def completedInput (step : StepInput) : Json :=
  (CapabilityRegistry.validate step.capability (step.input.getD (.obj []))).2

/-- What `create` made of a proposed step without errors. -/
structure CheckedAs (step : StepInput) (c : CheckedStep) : Prop where
  definition : CapabilityRegistry.find step.capability = some c.definition
  id : ∃ index, c.step.id = stepName index
  capability : c.step.capability = c.definition.id
  input : c.step.input = completedInput step
  risk : c.step.risk = c.definition.risk
  no_secret : containsSecretLikeField (completedInput step) = false

theorem checkStep_ok {emergencyStop : Bool} {session : AgentSession} {environment : AgentEnvironment}
    {index : ℕ} {step : StepInput} {c : CheckedStep}
    (h : checkStep emergencyStop session environment index step = .ok c) (herr : c.errors = []) :
    CheckedAs step c := by
  obtain ⟨definition, hdescribe, h⟩ := except_bind_eq_ok.mp h
  have hcompleted : completedInput step =
      (CapabilityRegistry.validate step.capability (step.input.getD (.obj []))).2 := rfl
  generalize CapabilityRegistry.validate step.capability (step.input.getD (.obj [])) = validated
    at h hcompleted
  obtain ⟨invalid, completed⟩ := validated
  obtain ⟨policy, -, h⟩ := except_bind_eq_ok.mp h
  cases h
  rw [List.append_eq_nil_iff, List.append_eq_nil_iff] at herr
  refine ⟨CapabilityRegistry.describe_eq_ok.mp hdescribe, ⟨index, rfl⟩, rfl, hcompleted.symm, rfl, ?_⟩
  by_contra hsecret
  rw [Bool.not_eq_false, hcompleted] at hsecret
  have hnone := herr.1.2
  rw [if_pos hsecret] at hnone
  cases hnone

theorem checkSteps_ok {emergencyStop : Bool} {session : AgentSession}
    {environment : AgentEnvironment} {steps : List StepInput} {index : ℕ}
    {checked : List CheckedStep}
    (h : checkSteps emergencyStop session environment index steps = .ok checked)
    (herr : checked.flatMap CheckedStep.errors = []) : List.Forall₂ CheckedAs steps checked := by
  induction steps generalizing index checked with
  | nil =>
      cases h
      exact .nil
  | cons step steps ih =>
      obtain ⟨c, hstep, h⟩ := except_bind_eq_ok.mp h
      obtain ⟨rest, hrest, h⟩ := except_bind_eq_ok.mp h
      cases h
      rw [List.flatMap_cons, List.append_eq_nil_iff] at herr
      exact .cons (checkStep_ok hstep herr.1) (ih hrest herr.2)

/-- What `create` does when it succeeds. -/
theorem create_ok {session : AgentSession} {input : CreatePlanInput} {w w' : World} {plan : AgentPlan}
    (h : run (handle env) (create session input) w = (.ok plan, w')) :
    ∃ checked, List.Forall₂ CheckedAs input.steps checked ∧
      plan = newPlan session input checked w.nextId plan.hash ∧
      plan.hash = env.digest (planBody plan) ∧ w'.plan plan.id = some (storedPlan plan) := by
  unfold create at h
  split_ifs at h with hsteps
  · cases h
  · have hstop : handle env .emergencyStop w = (w.emergencyStop, w) := rfl
    rw [perform_bind, run_await, hstop] at h
    obtain ⟨checked, w₁, hchecked, h⟩ := run_bind_eq_ok.mp h
    rw [liftExcept_eq, run_done] at hchecked
    obtain ⟨hok, rfl⟩ := Prod.mk.inj hchecked
    dsimp only at h
    split_ifs at h with herr
    · -- a refusal throws
      cases h
    · rw [not_not] at herr
      cases h
      refine ⟨checked, checkSteps_ok hok herr, rfl, rfl, ?_⟩
      exact (plan_savePlan _ _).trans (if_pos rfl)

/-! ## The texts of a new plan -/

/-- Redaction changes no text of the input that goes into the plan. -/
structure Survives (input : CreatePlanInput) : Prop where
  objective : redactText (jsTrim input.objective) = jsTrim input.objective
  target : ∀ target ∈ input.target, redactText target = target
  successCriteria : ∀ text ∈ input.successCriteria.getD [], redactText text = text
  excludedEffects : ∀ text ∈ input.excludedEffects.getD [], redactText text = text
  inputs : ∀ step ∈ input.steps, redactionApplied (completedInput step) = false

/-- The texts of the published capabilities are plain. -/
theorem capabilities_plain : ∀ c ∈ capabilities, (∀ d ∈ c.id.toList, isPlainChar d = true) ∧
    ∀ effect ∈ c.possibleEffects, ∀ d ∈ effect.toList, isPlainChar d = true := by
  have hplain {cs : List Char} (h : ∀ d ∈ cs, isPlainChar d = true) :
      ∀ d ∈ (String.ofList cs).toList, isPlainChar d = true := by
    rwa [String.toList_ofList]
  unfold capabilities
  -- each literal is decided as the list of its characters
  repeat' first
    | exact hplain (by decide)
    | exact List.forall_mem_nil _
    | refine List.forall_mem_cons.mpr ⟨?_, ?_⟩
    | apply And.intro

theorem redactText_stepName (index : ℕ) : redactText (stepName index) = stepName index :=
  @redactText_idText "step" (by decide) (index + 1)

theorem redactText_rollbackLimitations (values : List Reversible) :
    ∀ text ∈ rollbackLimitations values, redactText text = text := by
  have hfixed : ∀ text ∈ ["At least one plan step has no rollback operation.",
      "Rollback depends on state captured by the underlying capability and may not restore " ++
        "persistent data."], redactText text = text := by
    decide
  intro text ht
  unfold rollbackLimitations at ht
  split_ifs at ht <;> simp_all

theorem exists_checkedAs {steps : List StepInput} {checked : List CheckedStep}
    (h : List.Forall₂ CheckedAs steps checked) {c : CheckedStep} (hc : c ∈ checked) :
    ∃ step, CheckedAs step c := by
  induction h with
  | nil => cases hc
  | cons hstep _ ih =>
      rcases List.mem_cons.mp hc with rfl | hc
      · exact ⟨_, hstep⟩
      · exact ih hc

/-- The inputs of the checked steps are the completed ones. -/
theorem forall_input_iff {steps : List StepInput} {checked : List CheckedStep}
    (h : List.Forall₂ CheckedAs steps checked) {P : Json → Prop} :
    (∀ c ∈ checked, P c.step.input) ↔ ∀ step ∈ steps, P (completedInput step) := by
  induction h with
  | nil => simp
  | cons hc _ ih => rw [List.forall_mem_cons, List.forall_mem_cons, hc.input, ih]

/-- Redaction changes no text of a new plan exactly when it changes none that the caller chose. -/
theorem redactionApplied_newPlan {session : AgentSession} {input : CreatePlanInput}
    {checked : List CheckedStep} {id : ℕ} {hash : String}
    (hchecked : List.Forall₂ CheckedAs input.steps checked) :
    redactionApplied (planBody (newPlan session input checked id hash)) = false ↔ Survives input := by
  have hempty : redactText "" = "" := by decide
  have htarget : (∀ target ∈ input.target.filter (· ≠ ""), redactText target = target) ↔
      ∀ target ∈ input.target, redactText target = target := by
    cases input.target with
    | none => simp
    | some target =>
        by_cases ht : target = ""
        · simp [ht, hempty]
        · simp [ht]
  have hstep : ∀ c ∈ checked, redactText c.step.id = c.step.id ∧
      redactText c.step.capability = c.step.capability ∧
      ∀ effect ∈ c.definition.possibleEffects, redactText effect = effect := by
    intro c hc
    obtain ⟨step, hstep⟩ := exists_checkedAs hchecked hc
    obtain ⟨hid, heffects⟩ :=
      capabilities_plain _ (CapabilityRegistry.find_mem hstep.definition)
    obtain ⟨index, hindex⟩ := hstep.id
    refine ⟨by rw [hindex, redactText_stepName], ?_, fun effect he => ?_⟩
    · rw [hstep.capability]
      exact redactText_of_plain hid
    · exact redactText_of_plain (heffects effect he)
  have heffects : ∀ text ∈ unique (checked.flatMap fun c => c.definition.possibleEffects),
      redactText text = text := by
    intro text ht
    obtain ⟨c, hc, ht⟩ := List.mem_flatMap.mp (mem_unique.mp ht)
    exact (hstep c hc).2.2 text ht
  have hsteps : (∀ step ∈ checked.map CheckedStep.step, redactText step.id = step.id ∧
      redactText step.capability = step.capability ∧ redactionApplied step.input = false) ↔
      ∀ step ∈ input.steps, redactionApplied (completedInput step) = false := by
    rw [← forall_input_iff (P := fun v => redactionApplied v = false) hchecked, List.forall_mem_map]
    refine forall_congr' fun c => forall_congr' fun hc => ?_
    simp [(hstep c hc).1, (hstep c hc).2.1]
  rw [redactionApplied_planBody]
  constructor
  · rintro ⟨hobjective, htexts, hbody, hcriteria, -, hexcluded, -⟩
    exact ⟨hobjective, htarget.mp htexts, hcriteria, hexcluded, hsteps.mp hbody⟩
  · intro h
    exact ⟨h.objective, htarget.mpr h.target, hsteps.mpr h.inputs, h.successCriteria, heffects,
      h.excludedEffects, redactText_rollbackLimitations _⟩

/-- No key of a new plan's body is sensitive. -/
theorem containsSecretLikeField_newPlan {session : AgentSession} {input : CreatePlanInput}
    {checked : List CheckedStep} {id : ℕ} {hash : String}
    (hchecked : List.Forall₂ CheckedAs input.steps checked) :
    containsSecretLikeField (planBody (newPlan session input checked id hash)) = false := by
  have hkey : ∀ key ∈ ["id", "capability", "input", "risk", "available", "limitations"],
      isSensitiveKey key = false := by simp [planKeys_plain]
  simp only [List.forall_mem_cons] at hkey
  obtain ⟨hid, hcapability, hinput, hrisk, havailable, hlimitations, -⟩ := hkey
  have htexts : ∀ xs : List String, containsSecretLikeField (.arr (xs.map .str)) = false := by
    intro xs
    rw [containsSecretLikeField, containsSecretLikeElement_eq, List.any_map, List.any_eq_false]
    simp [containsSecretLikeField]
  have hsteps : containsSecretLikeField (.arr ((checked.map CheckedStep.step).map stepJson)) =
      false := by
    rw [containsSecretLikeField, containsSecretLikeElement_eq, List.any_map, List.any_map,
      List.any_eq_false]
    intro c hc
    obtain ⟨step, hstep⟩ := exists_checkedAs hchecked hc
    simp [stepJson, containsSecretLikeField, containsSecretLikeKey, hid, hcapability, hinput, hrisk,
      hstep.input, hstep.no_secret]
  have hrollback : ∀ r, containsSecretLikeField (rollbackJson r) = false := by
    intro r
    have hlist := htexts r.limitations
    simp only [containsSecretLikeField] at hlist
    simp [rollbackJson, containsSecretLikeField, containsSecretLikeKey, havailable, hlimitations,
      hlist]
  have hall : ∀ f ∈ bodyFields (newPlan session input checked id hash), ∀ v ∈ f.2,
      containsSecretLikeField v = false := by
    have hone : ∀ v : Json, (∀ u ∈ some v, containsSecretLikeField u = false) ↔
        containsSecretLikeField v = false := by simp
    have htarget : ∀ target : Option String,
        ∀ v ∈ target.map Json.str, containsSecretLikeField v = false := by
      rintro (_ | target) v hv
      · cases hv
      · cases hv
        rfl
    simp only [bodyFields, List.forall_mem_cons, hone, htexts, hrollback]
    exact ⟨rfl, rfl, rfl, htarget _, hsteps, trivial, trivial, trivial, trivial,
      List.forall_mem_nil _⟩
  rw [planBody_eq, containsSecretLikeField, containsSecretLikeKey_eq, List.any_eq_false]
  intro f hf
  simp [bodyFields_keys _ f hf, hall _ (mem_definedFields.mp hf) f.2 rfl]

/-! ## The round trip -/

/-- A plan that is stored under its hash passes the check exactly when its texts are kept. -/
theorem get_hash_iff (hhex : HexDigest env) (hfree : CollisionFree env) {w : World}
    {plan : AgentPlan} (hplan : plan.hash = env.digest (planBody plan))
    (hstored : w.plan plan.id = some (storedPlan plan)) :
    (∃ p, run (handle env) (get plan.id) w = (.ok p, w) ∧ env.digest (planBody p) = p.hash) ↔
      Kept env (planBody plan) := by
  have hget : run (handle env) (get plan.id) w = (.ok (storedPlan plan), w) := by
    have hread : handle env (.getPlan plan.id) w = (some (storedPlan plan), w) :=
      congrArg (fun p => (p, w)) hstored
    rw [get, perform_bind, run_await, hread]
    rfl
  have hhash : (storedPlan plan).hash = env.digest (planBody plan) := by
    change redactText plan.hash = _
    rw [hplan]
    exact hhex.redactText _
  have hcheck : env.digest (planBody (storedPlan plan)) = (storedPlan plan).hash ↔
      Kept env (planBody plan) := by
    rw [hhash, hfree.digest_eq_iff, ← storedJson_planBody]
    rfl
  rw [hget, ← hcheck]
  constructor
  · rintro ⟨p, hp, h⟩
    obtain ⟨rfl⟩ := Except.ok.inj (Prod.mk.inj hp).1
    exact h
  · exact fun h => ⟨_, rfl, h⟩

/-- After `create` succeeded, the plan that is read back passes the hash check of `validate` exactly
when redaction changes no text that the caller chose. -/
theorem hash_survives_iff (env : Env) (hhex : HexDigest env) (hfree : CollisionFree env)
    (hnum : NumberText env.numText) (session : AgentSession) (input : CreatePlanInput) (w w' : World)
    (plan : AgentPlan) (h : run (handle env) (create session input) w = (.ok plan, w')) :
    (∃ p, run (handle env) (get plan.id) w' = (.ok p, w') ∧ env.digest (planBody p) = p.hash) ↔
      Survives input := by
  obtain ⟨checked, hchecked, hplan, hhash, hstored⟩ := create_ok h
  have hsecret : containsSecretLikeField (planBody plan) = false := by
    rw [hplan]
    exact containsSecretLikeField_newPlan hchecked
  rw [get_hash_iff hhex hfree hhash hstored, kept_iff hnum _ hsecret, hplan,
    redactionApplied_newPlan hchecked]

/-- A proposed plan for the examples of this module. -/
def sampleInput (objective : String) : CreatePlanInput where
  objective := objective
  steps := [{ capability := "target.inspect", input := some (.obj [("target", .str "demo")]) }]

/-- `create` accepts the sample plan, whatever its objective. -/
theorem create_sampleInput (objective : String) : ∃ plan w',
    run (handle Env.spelling) (create sampleSession (sampleInput objective)) sampleWorld =
      (.ok plan, w') := ⟨_, _, rfl⟩

/-- A plan with a plain objective passes the check. -/
theorem hash_survives_iff_plain : ∃ plan w', run (handle Env.spelling)
      (create sampleSession (sampleInput "Deploy")) sampleWorld = (.ok plan, w') ∧
    ∃ p, run (handle Env.spelling) (get plan.id) w' = (.ok p, w') ∧
      Env.spelling.digest (planBody p) = p.hash := by
  obtain ⟨plan, w', h⟩ := create_sampleInput "Deploy"
  refine ⟨plan, w', h, (hash_survives_iff Env.spelling hexDigest_spelling collisionFree_spelling
    numberText_spelling _ _ _ _ _ h).mpr ⟨by decide +kernel, ?_, ?_, ?_, by decide +kernel⟩⟩
  · rintro _ ⟨⟩
  · rintro _ ⟨⟩
  · rintro _ ⟨⟩

/-- A plan whose objective quotes a token does not pass the check. -/
theorem bearer_breaks_hash : ∃ plan w', run (handle Env.spelling)
      (create sampleSession (sampleInput "Bearer abcdefgh")) sampleWorld = (.ok plan, w') ∧
    ¬ ∃ p, run (handle Env.spelling) (get plan.id) w' = (.ok p, w') ∧
      Env.spelling.digest (planBody p) = p.hash := by
  obtain ⟨plan, w', h⟩ := create_sampleInput "Bearer abcdefgh"
  refine ⟨plan, w', h, ?_⟩
  obtain ⟨checked, hchecked, hplan, hhash, hstored⟩ := create_ok h
  have hsecret : containsSecretLikeField (planBody plan) = false := by
    rw [hplan]
    exact containsSecretLikeField_newPlan hchecked
  rw [get_hash_iff hexDigest_spelling collisionFree_spelling hhash hstored,
    kept_iff numberText_spelling _ hsecret, hplan, redactionApplied_newPlan hchecked]
  exact fun hsurvives => absurd hsurvives.objective (by decide +kernel)

end PlanEngine

end Vops
