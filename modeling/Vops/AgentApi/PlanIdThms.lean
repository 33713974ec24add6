import Vops.AgentControl.Digest
import Vops.AgentApi.VopsAgentApi
import Vops.Lib.Interleave

/-!
# The id of a stored plan and what is deployed under it (`VopsAgentApiService.apply`)

* `Deployed`, `HashedPlan` — what a run of `apply` deployed, and what it hashed before.
* `ApplyPhase`, `applyProtocol` — how far `apply` has come; `follows_apply` — it follows the protocol,
  whatever is answered.
* `deployed_id_iff` — what is deployed has the id exactly when the recorded hash has.
-/

namespace Vops.VopsAgentApi

open Async

variable {env : Env}

/-! ## What a run shows -/

/-- A run alone, with its operations. -/
def applied (env : Env) (w : World) (projectDir id : String) : List (Pool.Event Op Unit World) :=
  (run (Pool.recorded (handle env) ()) (apply projectDir id) (w, [])).2.2

/-- The operation deploys; a rendering does not. -/
def deploys : Op → Bool
  | .service (.appsDeploy _ _ options) => !options.dryRun
  | _ => false

/-- What `hashInputs` hashes. -/
def hashedPlan (inputs view : Json) : Json := .obj [("inputs", inputs), ("plan", view)]

/-- The run reached the deployment. -/
def Deployed (log : List (Pool.Event Op Unit World)) : Prop := ∃ e ∈ log, deploys e.op = true

/-- The run hashed these inputs and this view. -/
def HashedPlan (log : List (Pool.Event Op Unit World)) (inputs view : Json) : Prop :=
  ∃ e ∈ log, e.op = .digest (hashedPlan inputs view)

/-- The file of a plan holds this. -/
def PlanFile (w : World) (projectDir id : String) (stored : Json) : Prop :=
  ∃ path, planFile projectDir id = .ok path ∧ w.files path = some (.json stored)

/-- The hash that the file of a plan records. -/
def recordedHash (stored : Json) : Option String := (stored.get? "hash").bind Json.str?

/-! ## The protocol of `apply` -/

/-- How far `apply` has come. -/
inductive ApplyPhase
  | reading
  | loaded (stored : Option Json)
  | hashed (stored inputs view : Json) (hash : String)

/-- The operation neither hashes a plan nor deploys. -/
def Prepares : Op → Prop
  | .digest _ => False
  | o => deploys o = false

/-- The JSON that was read. -/
def jsonOf : Option FileText → Option Json
  | some (.json v) => some v
  | _ => none

/-- The operations of `apply`, phase by phase. -/
def applyProtocol (projectDir id : String) : Protocol Op Res ApplyPhase
  | .reading, .readFile path, content, φ =>
      planFile projectDir id = .ok path ∧ φ = .loaded (jsonOf content)
  | .loaded (some stored), .digest v, hash, φ =>
      ∃ inputs view, v = hashedPlan inputs view ∧ φ = .hashed stored inputs view hash
  | .loaded stored, o, _, φ => Prepares o ∧ φ = .loaded stored
  | .hashed stored inputs view hash, o, _, φ =>
      deploys o = true ∧ recordedHash stored = some hash ∧ φ = .hashed stored inputs view hash
  | _, _, _, _ => False

section Following

variable {projectDir id : String} {stored : Json} {α : Type}

theorem step_loaded {o : Op} (x : Res o) (ho : Prepares o) :
    applyProtocol projectDir id (.loaded (some stored)) o x (.loaded (some stored)) := by
  cases o with
  | digest v => cases ho
  | _ => exact ⟨ho, rfl⟩

/-- A part that only prepares, in front of the rest. -/
theorem follows_prepare {p : Prog α} {f : α → Prog Json} (hp : p.AllOps Prepares)
    (hf : ∀ a, Follows (applyProtocol projectDir id) (fun _ _ => True) (f a)
      (.loaded (some stored))) :
    Follows (applyProtocol projectDir id) (fun _ _ => True) (p >>= f) (.loaded (some stored)) :=
  Follows.of_allOps_bind hp (fun _ x ho => step_loaded x ho) hf fun _ => trivial

theorem prepares_liftExcept (r : Except Failure α) : (liftExcept r).AllOps Prepares := by
  cases r <;> trivial

theorem prepares_setDigests (set : List (String × String)) : (setDigests set).AllOps Prepares := by
  induction set with
  | nil => trivial
  | cons entry set ih => exact ⟨rfl, fun digest => ih.bind fun rest => trivial⟩

theorem prepares_setValues (digests : Option Json) : (setValues stored digests).AllOps Prepares := by
  unfold setValues
  cases digests with
  | none => trivial
  | some digests =>
      dsimp only
      split
      · refine ⟨rfl, fun unlocked => (prepares_liftExcept unlocked).bind fun _ => ⟨rfl, fun set => ?_⟩⟩
        cases set with
        | none => trivial
        | some set =>
            refine (prepares_setDigests set).bind fun expected => ?_
            split <;> trivial
      · trivial

theorem prepares_checkSpec (inputs : Json) : (checkSpec projectDir id inputs).AllOps Prepares := by
  refine (prepares_liftExcept _).bind fun file => ⟨rfl, fun content => ?_⟩
  cases content with
  | none => trivial
  | some content =>
      refine ⟨rfl, fun hash => ?_⟩
      change AllOps Prepares (if _ then _ else _)
      split <;> trivial

theorem prepares_render (req : PlanRequest) : (deploy req true).AllOps Prepares :=
  (prepares_liftExcept _).bind fun _ => ⟨rfl, fun answer => prepares_liftExcept answer⟩

theorem prepares_redactSet (view : Json) (set : Option (List (String × String))) :
    (redactSet view set).AllOps Prepares := by
  unfold redactSet
  split
  · exact ⟨rfl, fun redacted => prepares_liftExcept redacted⟩
  · trivial

/-- The deployment follows the comparison of the two hashes. -/
theorem follows_deployStored (inputs : Json) (req : PlanRequest)
    (set : Option (List (String × String))) :
    Follows (applyProtocol projectDir id) (fun _ _ => True) (deployStored id stored inputs req set)
      (.loaded (some stored)) := by
  refine follows_prepare (prepares_render req) fun rendered => ?_
  refine follows_prepare (prepares_redactSet rendered set) fun view => ?_
  intro hash
  refine ⟨.hashed stored inputs view hash, ⟨inputs, view, rfl, rfl⟩, ?_⟩
  change Follows _ _ (if _ then _ else _) _
  split
  · trivial
  next hsame =>
    rw [not_not] at hsame
    unfold deploy
    rw [liftExcept_eq]
    cases source req with
    | error e => trivial
    | ok app =>
        intro answer
        refine ⟨_, ⟨rfl, hsame, rfl⟩, ?_⟩
        cases answer <;> trivial

/-- `apply` follows the protocol, whatever is answered. -/
theorem follows_apply :
    Follows (applyProtocol projectDir id) (fun _ _ => True) (apply projectDir id) .reading := by
  unfold apply loadPlan
  rw [liftExcept_eq]
  cases hpath : planFile projectDir id with
  | error e => trivial
  | ok path =>
      intro content
      refine ⟨_, ⟨hpath, rfl⟩, ?_⟩
      rcases content with _ | v | text
      · trivial
      · dsimp only [Async.bind, pure_eq]
        cases hv : v.truthy with
        | false =>
            rw [Option.filter_some, hv]
            trivial
        | true =>
            rw [Option.filter_some, hv]
            refine follows_prepare (prepares_liftExcept _) fun _ => ?_
            dsimp only
            split
            · refine follows_prepare (prepares_setValues _) fun set => ?_
              refine follows_prepare (prepares_checkSpec _) fun _ => ?_
              exact follows_deployStored _ _ _
            · trivial
      · trivial

end Following

/-! ## What a run of `apply` deploys -/

/-- What is known of a run, phase by phase. -/
def Known (env : Env) (w : World) (projectDir id : String) :
    ApplyPhase → World × List (Pool.Event Op Unit World) → Prop
  | .reading, s => s = (w, [])
  | .loaded stored, s =>
      (∀ e ∈ s.2, Prepares e.op) ∧ ∀ v, stored = some v → PlanFile w projectDir id v
  | .hashed stored inputs view hash, s =>
      PlanFile w projectDir id stored ∧ hash = env.digest (hashedPlan inputs view) ∧
        HashedPlan s.2 inputs view ∧ (∀ e ∈ s.2, ∀ v, e.op = .digest v → v = hashedPlan inputs view) ∧
          (Deployed s.2 → recordedHash stored = some hash)

theorem not_deploys {o : Op} (ho : Prepares o) : deploys o = false := by
  cases o with
  | digest v => cases ho
  | _ => exact ho

/-- Every step of the protocol keeps what is known. -/
theorem known_step {w : World} {projectDir id : String} (φ : ApplyPhase) (o : Op) (φ' : ApplyPhase)
    (s : World × List (Pool.Event Op Unit World))
    (hT : applyProtocol projectDir id φ o (Pool.recorded (handle env) () o s).1 φ')
    (hs : Known env w projectDir id φ s) :
    Known env w projectDir id φ' (Pool.recorded (handle env) () o s).2 := by
  have hmem : ∀ {e : Pool.Event Op Unit World}, e ∈ (Pool.recorded (handle env) () o s).2.2 ↔
      e ∈ s.2 ∨ e = ⟨(), o, s.1⟩ := by
    intro e
    exact List.mem_append.trans (or_congr_right List.mem_singleton)
  cases φ with
  | reading =>
      obtain rfl : s = (w, []) := hs
      cases o with
      | readFile path =>
          obtain ⟨hpath, rfl⟩ := hT
          refine ⟨fun e he => ?_, fun v hv => ⟨path, hpath, ?_⟩⟩
          · rcases hmem.mp he with he | rfl
            · cases he
            · exact rfl
          · have hread : (Pool.recorded (handle env) () (.readFile path) (w, [])).1 = w.files path := rfl
            rw [hread] at hv
            rcases hfile : w.files path with _ | u | text
            · simp [hfile, jsonOf] at hv
            · simpa [hfile, jsonOf] using hv
            · simp [hfile, jsonOf] at hv
      | _ => cases hT
  | loaded stored =>
      obtain ⟨hlog, hfile⟩ := hs
      have hprepare : Prepares o ∧ φ' = .loaded stored →
          Known env w projectDir id φ' (Pool.recorded (handle env) () o s).2 := by
        rintro ⟨ho, rfl⟩
        refine ⟨fun e he => ?_, hfile⟩
        rcases hmem.mp he with he | rfl
        · exact hlog e he
        · exact ho
      cases stored with
      | none => exact hprepare (by cases o <;> exact hT)
      | some stored =>
          cases o with
          | digest v =>
              obtain ⟨inputs, view, rfl, rfl⟩ := hT
              refine ⟨hfile stored rfl, rfl, ⟨_, hmem.mpr (.inr rfl), rfl⟩, fun e he v hv => ?_, ?_⟩
              · rcases hmem.mp he with he | rfl
                · have hno := hlog e he
                  rw [hv] at hno
                  cases hno
                · exact (Op.digest.inj hv).symm
              · rintro ⟨e, he, hdeploys⟩
                rcases hmem.mp he with he | rfl
                · rw [not_deploys (hlog e he)] at hdeploys
                  cases hdeploys
                · cases hdeploys
          | _ => exact hprepare hT
  | hashed stored inputs view hash =>
      obtain ⟨hfile, hhash, hhashed, honly, -⟩ := hs
      obtain ⟨hdeploys, hsame, rfl⟩ : deploys o = true ∧ recordedHash stored = some hash ∧
          φ' = .hashed stored inputs view hash := by
        cases o <;> exact hT
      refine ⟨hfile, hhash, ?_, fun e he v hv => ?_, fun _ => hsame⟩
      · obtain ⟨e, he, hop⟩ := hhashed
        exact ⟨e, hmem.mpr (.inl he), hop⟩
      · rcases hmem.mp he with he | rfl
        · exact honly e he v hv
        · rw [show o = .digest v from hv] at hdeploys
          cases hdeploys

/-- A run that deploys read the plan file, hashed one plan, and found its hash recorded. -/
theorem deployed_cases {w : World} {projectDir id : String}
    (h : Deployed (applied env w projectDir id)) : ∃ stored inputs view,
      PlanFile w projectDir id stored ∧ HashedPlan (applied env w projectDir id) inputs view ∧
        (∀ inputs' view', HashedPlan (applied env w projectDir id) inputs' view' →
          hashedPlan inputs' view' = hashedPlan inputs view) ∧
          recordedHash stored = some (env.digest (hashedPlan inputs view)) := by
  obtain ⟨φ, -, hknown⟩ := follows_apply.run_keeps (h := Pool.recorded (handle env) ())
    (J := Known env w projectDir id) known_step (s := (w, [])) rfl
  cases φ with
  | reading =>
      obtain ⟨e, he, -⟩ := h
      rw [applied, hknown] at he
      cases he
  | loaded stored =>
      obtain ⟨e, he, hdeploys⟩ := h
      rw [not_deploys (hknown.1 e he)] at hdeploys
      cases hdeploys
  | hashed stored inputs view hash =>
      obtain ⟨hfile, rfl, hhashed, honly, hsame⟩ := hknown
      refine ⟨stored, inputs, view, hfile, hhashed, ?_, hsame h⟩
      rintro inputs' view' ⟨e, he, hop⟩
      exact honly e he _ hop

theorem PlanFile.unique {w : World} {projectDir id : String} {v v' : Json}
    (h : PlanFile w projectDir id v) (h' : PlanFile w projectDir id v') : v = v' := by
  obtain ⟨path, hpath, hv⟩ := h
  obtain ⟨path', hpath', hv'⟩ := h'
  obtain rfl := Except.ok.inj (hpath.symm.trans hpath')
  rw [hv] at hv'
  exact FileText.json.inj (Option.some.inj hv')

/-- What is deployed under an id has this id exactly when the hash that its file records has. -/
theorem deployed_id_iff (env : Env) (w : World) (projectDir id : String) :
    (Deployed (applied env w projectDir id) → ∀ inputs view,
      HashedPlan (applied env w projectDir id) inputs view →
        planId (env.digest (hashedPlan inputs view)) = id) ↔
    (Deployed (applied env w projectDir id) → ∀ stored, PlanFile w projectDir id stored →
      (recordedHash stored).map planId = some id) := by
  refine forall_congr' fun hdeployed => ?_
  obtain ⟨stored, inputs, view, hfile, hhashed, honly, hsame⟩ := deployed_cases hdeployed
  constructor
  · intro h stored' hfile'
    obtain rfl := hfile.unique hfile'
    rw [hsame, Option.map_some, h inputs view hhashed]
  · intro h inputs' view' hhashed'
    have hid := h stored hfile
    rw [hsame, Option.map_some] at hid
    rw [honly inputs' view' hhashed']
    exact Option.some.inj hid

/-! ## A plan that is deployed -/

section Deploying

variable {w : World} {projectDir id : String} {stored inputs view : Json} {app : AppSource}

/-- A request is deployed when its rendering has the recorded hash. -/
theorem deployed_deployStored {log : List (Pool.Event Op Unit World)} {req : PlanRequest}
    (hsource : source req = .ok app) (hview : ∀ c, (handle env (.service c) w).1 = .ok view)
    (hsame : recordedHash stored = some (env.digest (hashedPlan inputs view))) :
    Deployed (run (Pool.recorded (handle env) ()) (deployStored id stored inputs req none)
      (w, log)).2.2 := by
  have hrendered : ∀ c, (Pool.recorded (handle env) () (.service c) (w, log)).1 = .ok view := hview
  have hhash : ∀ s, (Pool.recorded (handle env) () (.digest (hashedPlan inputs view)) s).1 =
      env.digest (hashedPlan inputs view) := fun _ => rfl
  have hproceeds : ¬(stored.get? "hash").bind Json.str? ≠ some (env.digest (hashedPlan inputs view)) :=
    not_not_intro hsame
  unfold hashedPlan at hhash hproceeds
  simp only [deployStored, redactSet, deploy, hashInputs, call, hsource, liftExcept_eq, pure_eq, ok_bind,
    run_bind, run_perform, run_done, hrendered, hhash, if_neg hproceeds]
  exact ⟨_, List.mem_append_right _ (List.mem_singleton_self _), rfl⟩

/-- A plan without values is deployed when its specification and its rendering have the recorded
hashes. -/
theorem deployed_apply {path specFile : String} {content : FileText}
    (hpath : planFile projectDir id = .ok path) (hfile : w.files path = some (.json stored))
    (htruthy : stored.truthy = true)
    (hloaded : applyLoaded projectDir id stored = applyStored projectDir id stored inputs)
    (hset : setValues stored (inputs.get? "setDigest") = pure none)
    (hspec : specPath projectDir (inputs.get? "spec") = .ok specFile)
    (hcontent : w.files specFile = some content)
    (hspecHash : (inputs.get? "specHash").bind Json.str? = some (env.digestFile content))
    (hsource : source (storedRequest projectDir inputs none) = .ok app)
    (hview : ∀ c, (handle env (.service c) w).1 = .ok view)
    (hsame : recordedHash stored = some (env.digest (hashedPlan inputs view))) :
    Deployed (applied env w projectDir id) := by
  have hread : ∀ path s, Pool.recorded (handle env) () (.readFile path) s =
      (s.1.files path, (s.1, s.2 ++ [⟨(), .readFile path, s.1⟩])) := fun _ _ => rfl
  have hdigest : ∀ s, Pool.recorded (handle env) () (.digestFile content) s =
      (env.digestFile content, (s.1, s.2 ++ [⟨(), .digestFile content, s.1⟩])) := fun _ => rfl
  have hunchanged := not_not_intro hspecHash
  simp only [applied, apply, loadPlan, liftExcept_eq, hpath, ok_bind, run_bind, run_perform, run_done,
    hread, hfile, pure_eq, Option.filter_some, htruthy, if_true, hloaded, applyStored, hset, checkSpec,
    hspec, hashFile, hcontent, hdigest, if_neg hunchanged]
  exact deployed_deployStored hsource hview hsame

end Deploying

/-! ## A plan under the id of another -/

/-- The inputs of a plan, as they are recorded. -/
def swappedInputs : Json :=
  .obj [("spec", .str "flui.yaml"), ("host", .str "prod"),
    ("specHash", .str (Env.spelling.digestFile (.raw "")))]

/-- A file with these inputs and with their hash. -/
def swappedPlan : Json :=
  .obj [("schemaVersion", .num 2), ("id", .str "abcdef012345"),
    ("hash", .str (Env.spelling.digest (hashedPlan swappedInputs .null))), ("inputs", swappedInputs)]

/-- The file of the plan `abcdef012345` has been written again, with other inputs and their hash. -/
def swappedWorld : World :=
  { sampleWorld with
    files := fun path =>
      if path = "/repo/.vops/plans/abcdef012345.json" then some (.json swappedPlan)
      else if path = "/repo/flui.yaml" then some (.raw "")
      else none }

theorem recordedHash_swappedPlan :
    recordedHash swappedPlan = some (Env.spelling.digest (hashedPlan swappedInputs .null)) := by
  rw [recordedHash, swappedPlan]
  exact congrArg _ rfl

theorem deployed_swappedPlan :
    Deployed (applied Env.spelling swappedWorld "/repo" "abcdef012345") := by
  have hpath : planFile "/repo" "abcdef012345" = .ok "/repo/.vops/plans/abcdef012345.json" := rfl
  have hcontent : swappedWorld.files "/repo/flui.yaml" = some (.raw "") := rfl
  exact deployed_apply hpath rfl rfl rfl rfl rfl hcontent rfl rfl (fun _ => rfl)
    recordedHash_swappedPlan

/-- The digest that is recorded does not begin with the id: it has digits and `f` only. -/
theorem planId_swappedPlan :
    planId (Env.spelling.digest (hashedPlan swappedInputs .null)) ≠ "abcdef012345" := by
  intro hid
  have hmem : 'a' ∈ (Env.spelling.digest (hashedPlan swappedInputs .null)).toList := by
    apply @List.mem_of_mem_take _ 12
    rw [← @String.toList_ofList (List.take 12 _), ← planId, hid]
    decide
  rcases mem_spelledHash hmem with hdigit | hf
  · exact absurd hdigit (by decide)
  · exact absurd hf (by decide)

/-- The plan of another id is deployed. -/
theorem deploys_swappedPlan : ¬ ∀ (env : Env) (w : World) (projectDir id : String),
    Deployed (applied env w projectDir id) → ∀ inputs view,
      HashedPlan (applied env w projectDir id) inputs view →
        planId (env.digest (hashedPlan inputs view)) = id := by
  intro h
  obtain ⟨stored, inputs, view, hfile, hhashed, -, hsame⟩ := deployed_cases deployed_swappedPlan
  have hid := h Env.spelling swappedWorld "/repo" "abcdef012345" deployed_swappedPlan inputs view hhashed
  have hswapped : PlanFile swappedWorld "/repo" "abcdef012345" swappedPlan := ⟨_, rfl, rfl⟩
  obtain rfl := hfile.unique hswapped
  rw [recordedHash_swappedPlan] at hsame
  rw [← Option.some.inj hsame] at hid
  exact planId_swappedPlan hid

end Vops.VopsAgentApi
