import Vops.Apps.AppPlan
import Vops.Lib.Rounds

/-!
# The start order (`orderServices`)

* `waitingOf` — the components with their dependencies; `orderRounds_eq` — the loop takes them by
  rounds.
* `Needs` — one component names another one as a dependency.
* `orderServices_spec` — the loop ends, every service is started once, and one that reaches no cycle
  is started behind those that it needs.
-/

namespace Vops.Apps

open Rounds (ReachesCycle)

/-- The components that wait, with what they wait for. -/
def waitingOf (plan : AppPlan) : Rounds.Waiting String :=
  plan.components.map fun c => (c.name, c.dependsOn)

/-- The component of that name has the other name among its dependencies. -/
def Needs (plan : AppPlan) (a b : String) : Prop :=
  ∃ c ∈ plan.components, c.name = a ∧ b ∈ c.dependsOn

def serviceOf (c : AppComponentPlan) : String := c.container ++ ".service"

variable {plan : AppPlan}

theorem keys_waitingOf (plan : AppPlan) :
    Rounds.keys (waitingOf plan) = plan.components.map AppComponentPlan.name := by
  rw [Rounds.keys, waitingOf, List.map_map]
  rfl

/-- The rounds of the loop. -/
theorem orderRounds_eq (n : ℕ) (remaining : Rounds.Waiting String) :
    orderRounds n remaining = Rounds.order n remaining := by
  induction n generalizing remaining with
  | zero => rfl
  | succ n ih =>
      rw [orderRounds, Rounds.order]
      by_cases h : remaining = []
      · rw [if_pos h, if_pos h]
      · rw [if_neg h, if_neg h]
        exact congrArg (Rounds.batch remaining ++ ·) (ih (Rounds.rest remaining))

theorem entries_assign {β : Type} (r : Record β) (entries : List (String × β)) :
    (r.assign entries).entries =
      entries.foldl (fun out e => Table.upsert Prod.fst e out) r.entries := by
  induction entries generalizing r with
  | nil => rfl
  | cons e entries ih => exact ih (r.set e.1 e.2)

/-- Where the names are different, every component waits. -/
theorem entries_waitingOf (hnames : (plan.components.map AppComponentPlan.name).Nodup) :
    (Record.ofEntries (waitingOf plan)).entries = waitingOf plan := by
  rw [← keys_waitingOf] at hnames
  rw [Record.ofEntries, entries_assign]
  exact @Table.upserts_of_keyed _ _ _ Prod.fst (waitingOf plan) [] hnames

/-- The component of a name. -/
def componentOf (plan : AppPlan) (name : String) : Option AppComponentPlan :=
  plan.components.find? fun c => c.name == name

theorem componentOf_name (hnames : (plan.components.map AppComponentPlan.name).Nodup)
    {c : AppComponentPlan} (hc : c ∈ plan.components) : componentOf plan c.name = some c := by
  have hget : Table.get AppComponentPlan.name c.name plan.components = some c :=
    Table.Keyed.get_eq hnames hc
  rw [componentOf, ← hget, Table.get]
  rfl

/-- The components in the order in which they are started. -/
def startOrder (plan : AppPlan) : List AppComponentPlan :=
  (Rounds.order plan.components.length (waitingOf plan)).filterMap (componentOf plan)

theorem filterMap_componentOf (hnames : (plan.components.map AppComponentPlan.name).Nodup)
    {cs : List AppComponentPlan} (hcs : ∀ c ∈ cs, c ∈ plan.components) :
    (cs.map AppComponentPlan.name).filterMap (componentOf plan) = cs := by
  induction cs with
  | nil => rfl
  | cons c cs ih =>
      obtain ⟨hc, hrest⟩ := List.forall_mem_cons.mp hcs
      rw [List.map_cons, List.filterMap_cons, componentOf_name hnames hc, ih hrest]

/-- The services of the components in this order. -/
theorem orderServices_eq (hnames : (plan.components.map AppComponentPlan.name).Nodup) :
    orderServices plan = (startOrder plan).map serviceOf := by
  have hlength : (waitingOf plan).length = plan.components.length := List.length_map _
  have hentries := entries_waitingOf hnames
  rw [startOrder, List.map_filterMap, ← hlength, ← orderRounds_eq, orderServices]
  rw [waitingOf] at hentries
  rw [hentries]
  rfl

/-- The loop ends after as many rounds as there are components, every service is started once, and a
component that reaches no cycle is started behind each component that it needs. -/
theorem orderServices_spec (plan : AppPlan)
    (hnames : (plan.components.map AppComponentPlan.name).Nodup) :
    Rounds.left plan.components.length (waitingOf plan) = [] ∧
    (orderServices plan).Perm (plan.components.map serviceOf) ∧
    ∃ order : List AppComponentPlan, order.Perm plan.components ∧
      orderServices plan = order.map serviceOf ∧
      ∀ a ∈ plan.components, ∀ b ∈ plan.components, b.name ∈ a.dependsOn →
        ¬ReachesCycle (Needs plan) a.name → [b, a].Sublist order := by
  have hlength : (waitingOf plan).length ≤ plan.components.length := (List.length_map _).le
  have hkeys : (Rounds.keys (waitingOf plan)).Nodup := by rwa [keys_waitingOf]
  have hperm : (startOrder plan).Perm plan.components := by
    have hrounds := Rounds.perm_order hkeys hlength
    rw [keys_waitingOf] at hrounds
    have hall := hrounds.filterMap (componentOf plan)
    rwa [filterMap_componentOf hnames fun c hc => hc] at hall
  refine ⟨Rounds.left_eq_nil hlength, ?_, startOrder plan, hperm, orderServices_eq hnames, ?_⟩
  · rw [orderServices_eq hnames]
    exact hperm.map serviceOf
  · intro a ha b hb hab hcycle
    have hneeds (x y : String) (h : Rounds.DependsOn (waitingOf plan) x y) : Needs plan x y := by
      obtain ⟨-, e, he, hkey, hmem⟩ := h
      obtain ⟨c, hc, rfl⟩ := List.mem_map.mp he
      exact ⟨c, hc, hkey, hmem⟩
    have hwaits : Rounds.DependsOn (waitingOf plan) a.name b.name := by
      rw [Rounds.DependsOn, keys_waitingOf]
      exact ⟨List.mem_map_of_mem hb, (a.name, a.dependsOn), List.mem_map_of_mem ha, rfl, hab⟩
    have hbefore := (Rounds.before_of_dependsOn hneeds hkeys hlength hcycle hwaits).filterMap
      (componentOf plan)
    have hpair := @filterMap_componentOf plan hnames [b, a] (by simp [ha, hb])
    rw [List.map_cons, List.map_cons, List.map_nil] at hpair
    rwa [hpair] at hbefore

/-- A component that is started with these dependencies. -/
def waitingComponent (name : String) (dependsOn : List String) : AppComponentPlan where
  name := name
  container := "vops-demo-" ++ name
  image := "demo"
  env := []
  secrets := []
  ports := []
  volumes := []
  cpu := none
  memory := none
  health := none
  dependsOn := dependsOn
  command := none

/-- A server behind its database, and two workers that wait for each other. -/
def demoPlan : AppPlan where
  name := "demo"
  pod := none
  components := [waitingComponent "web" ["db", "cache"], waitingComponent "a" ["b"],
    waitingComponent "b" ["a"], waitingComponent "db" []]
  primary := "web"
  needsAppDomain := false
  warnings := []

theorem orderServices_spec_demo :
    orderServices demoPlan = ["vops-demo-db.service", "vops-demo-web.service",
      "vops-demo-a.service", "vops-demo-b.service"] ∧
    (orderServices demoPlan).Perm (demoPlan.components.map serviceOf) :=
  ⟨by decide +kernel, (orderServices_spec demoPlan (by decide +kernel)).2.1⟩

end Vops.Apps
