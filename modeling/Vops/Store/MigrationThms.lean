import Vops.Store.InstallMigration

/-!
# No record is lost by a migration that is left alone between its copy and its swap

* `Closing` — a process stands between its copy and its swap.
* `Undisturbed` — a scheduled statement that neither saves nor drops the staging table meanwhile, and does
  not replace another host's row in a table that is keyed by name.
* `Moves`, `migrateInstallKey_follows` — the phases of the migration.
* `Guarded` — what is kept along a run: the staging table of a closing process has all that is owed.
* `lost_row` — a save between the copy and the swap.
* `records_kept` — along undisturbed runs every record is kept, and a migration of the new table does
  nothing.
-/

namespace Vops.InstallMigration

open Async (Follows)

variable {ι : Type}

/-! ## The condition -/

/-- The statements behind the copy that lead to the swap. -/
def Statement.closing : Statement ι → Bool
  | countRows .staging => true
  | swap => true
  | _ => false

/-- The process stands between its copy and its swap, and was not stopped there. -/
def Closing (p : Processes ι) (i : ι) : Prop :=
  (p.task i).next.any Statement.closing = true ∧ i ∉ p.state.db.stopped

/-- A statement that saves a row or drops the staging table meets no other process between its copy and its
swap; and a row saved in a table that is keyed by name replaces none of another host. -/
def Meets (p : Processes ι) (i : ι) : Statement ι → Prop
  | .save row => (∀ j, ¬Closing p j) ∧ (p.state.db.key = .name →
      ∀ r ∈ p.state.db.appInstalls.rows, r.name = row.name → r.host = row.host)
  | .dropStaging => ∀ j, j ≠ i → ¬Closing p j
  | _ => True

/-- So does the next statement of a process, if it was not stopped. -/
def Undisturbed (p : Processes ι) (i : ι) : Prop :=
  i ∉ p.state.db.stopped → ∀ o ∈ (p.task i).next, Meets p i o

/-! ## Phases -/

/-- Where a process stands: between its copy and its swap, behind a migration that completed, or
elsewhere. -/
inductive Phase
  | outside | window | over
deriving DecidableEq

/-- The steps of the migration. -/
inductive Moves : Phase → (o : Statement ι) → Answer o → Phase → Prop
  | before {o x} (h : o.closing = false) : Moves .outside o x .outside
  | keyed : Moves .outside .tableInfo (.ok ["host", "name"]) .over
  | copied : Moves .outside .copyToStaging (.ok ()) .window
  | counted {n} : Moves .window (.countRows .staging) (.ok n) .window
  | left {x} : Moves .window (.countRows .staging) x .outside
  | swapped : Moves .window .swap (.ok ()) .over
  | kept {e} : Moves .window .swap (.error e) .outside

/-- Where a program ends: not between copy and swap; a migration that completed, in its phase. -/
def Ends (call : Call ι) (r : Except String Unit) (φ : Phase) : Prop :=
  φ ≠ .window ∧ (call = .migrateInstallKey → r = .ok () → φ = .over)

/-- The rule for a statement whose failure is thrown. -/
theorem follows_execute {α : Type} {Q : Except String α → Phase → Prop} {o : Statement ι} {φ : Phase}
    {f : o.Returns → Program ι α}
    (hok : ∀ r, ∃ φ', Moves φ o (.ok r) φ' ∧ Follows Moves Q (f r) φ')
    (herr : ∀ e, ∃ φ', Moves φ o (.error e) φ' ∧ Q (.error e) φ') :
    Follows Moves Q (execute o >>= f) φ := by
  intro x
  cases x with
  | ok r => exact hok r
  | error e => exact herr e

/-- The rule for a statement in front of the window. -/
theorem follows_before {α : Type} {Q : Except String α → Phase → Prop} {o : Statement ι}
    {f : o.Returns → Program ι α} (ho : o.closing = false) (hf : ∀ r, Follows Moves Q (f r) .outside)
    (hQ : ∀ e, Q (.error e) .outside) : Follows Moves Q (execute o >>= f) .outside :=
  follows_execute (fun r => ⟨_, .before ho, hf r⟩) fun e => ⟨_, .before ho, hQ e⟩

theorem ends_error (call : Call ι) (e : String) : Ends call (.error e) .outside := by
  refine ⟨by simp, ?_⟩
  rintro - ⟨⟩

theorem migrateInstallKey_follows :
    Follows Moves (Ends (.migrateInstallKey : Call ι)) (migrateInstallKey : Program ι Unit)
      .outside := by
  have herr := ends_error (.migrateInstallKey : Call ι)
  intro x
  cases x with
  | error e => exact ⟨_, .before rfl, herr e⟩
  | ok key =>
      by_cases hkey : key = ["host", "name"]
      · subst hkey
        exact ⟨_, .keyed, by simp, fun _ _ => rfl⟩
      · refine ⟨_, .before rfl, ?_⟩
        change Follows Moves _ (if key == ["host", "name"] then _ else _) _
        rw [if_neg (by simpa using hkey)]
        refine follows_before rfl (fun before => ?_) herr
        refine follows_before rfl (fun _ => ?_) herr
        refine follows_before rfl (fun _ => ?_) herr
        refine follows_execute (fun _ => ⟨_, .copied, ?_⟩) fun e => ⟨_, .before rfl, herr e⟩
        refine follows_execute (fun copied => ?_) fun e => ⟨_, .left, herr e⟩
        by_cases hcopied : copied = before
        · refine ⟨_, .counted, ?_⟩
          rw [if_neg (not_not_intro hcopied)]
          intro x
          cases x with
          | ok r => exact ⟨_, .swapped, by simp, fun _ _ => rfl⟩
          | error e => exact ⟨_, .kept, herr e⟩
        · refine ⟨_, .left, ?_⟩
          rw [if_pos hcopied]
          exact follows_before rfl (fun _ => herr _) herr

/-- A statement that is a program of its own. -/
theorem execute_follows {o : Statement ι} {Q : Except String o.Returns → Phase → Prop}
    (ho : o.closing = false) (hQ : ∀ r, Q r .outside) : Follows Moves Q (execute o) .outside := by
  intro x
  cases x with
  | ok r => exact ⟨_, .before ho, hQ _⟩
  | error e => exact ⟨_, .before ho, hQ _⟩

theorem Call.follows (call : Call ι) : Follows Moves (Ends call) call.program .outside := by
  cases call with
  | migrateInstallKey => exact migrateInstallKey_follows
  | saveInstall row => exact execute_follows (o := .save row) rfl fun r => ⟨by simp, by simp⟩
  | deleteInstall host name =>
      exact execute_follows (o := .delete host name) rfl fun r => ⟨by simp, by simp⟩
  | stop process => exact execute_follows (o := .stop process) rfl fun r => ⟨by simp, by simp⟩

/-- A process between its copy and its swap goes on with one of the closing statements. -/
theorem closing_of_window {call : Call ι} {q : Program ι Unit} (h : Follows Moves (Ends call) q .window) :
    q.next.any Statement.closing = true := by
  cases q with
  | done r => exact absurd rfl h.1
  | await o k =>
      obtain ⟨φ', hmove, -⟩ := h (.error "")
      cases hmove <;> rfl

/-! ## What is kept along a run -/

variable {φ : ι → Phase} {s : Tracked ι} {i : ι}

/-- All that is owed is in the table, and in the staging table of a process between its copy and its swap;
two of these meet only where nothing is owed. -/
structure Guarded (φ : ι → Phase) (s : Tracked ι) : Prop where
  keyed : Table.Keyed PrimaryKey.hostName.of s.owed
  present : ∀ r ∈ s.owed, r ∈ s.db.appInstalls.rows
  staged : ∀ j, φ j = .window → j ∉ s.db.stopped →
    s.owed = [] ∨ ∃ t, s.db.staging = some t ∧ ∀ r ∈ s.owed, r ∈ t.rows
  alone : ∀ j k, φ j = .window → φ k = .window → j ∉ s.db.stopped → k ∉ s.db.stopped → j ≠ k →
    s.owed = []
  migrated : ∀ j, φ j = .over → s.db.key = .hostName

namespace Guarded

/-- A process leaves its phase. -/
theorem leave [DecidableEq ι] (h : Guarded φ s) (i : ι) : Guarded (Function.update φ i .outside) s := by
  have hne : ∀ j φ', φ' ≠ Phase.outside → Function.update φ i .outside j = φ' → φ j = φ' := by
    intro j φ' hφ hj
    by_cases hji : j = i
    · rw [hji, Function.update_self] at hj
      exact absurd hj.symm hφ
    · rwa [Function.update_of_ne hji] at hj
  exact ⟨h.keyed, h.present, fun j hj => h.staged j (hne j _ (by simp) hj),
    fun j k hj hk => h.alone j k (hne j _ (by simp) hj) (hne k _ (by simp) hk),
    fun j hj => h.migrated j (hne j _ (by simp) hj)⟩

/-- A process that finds the new table, or has put it in place, is over. -/
theorem finish [DecidableEq ι] (h : Guarded φ s) (i : ι) (hkey : s.db.key = .hostName) :
    Guarded (Function.update φ i .over) s := by
  have hne : ∀ j, Function.update φ i .over j = .window → φ j = .window := by
    intro j hj
    by_cases hji : j = i
    · rw [hji, Function.update_self] at hj
      cases hj
    · rwa [Function.update_of_ne hji] at hj
  exact ⟨h.keyed, h.present, fun j hj => h.staged j (hne j hj),
    fun j k hj hk => h.alone j k (hne j hj) (hne k hk), fun _ _ => hkey⟩

/-- Where no process stands between its copy and its swap, the staging table does not matter. -/
theorem of_no_window (hkeyed : Table.Keyed PrimaryKey.hostName.of s.owed)
    (hpresent : ∀ r ∈ s.owed, r ∈ s.db.appInstalls.rows)
    (hnone : ∀ j, φ j = .window → j ∈ s.db.stopped)
    (hmigrated : ∀ j, φ j = .over → s.db.key = .hostName) : Guarded φ s :=
  ⟨hkeyed, hpresent, fun j hj hlive => absurd (hnone j hj) hlive,
    fun j _ hj _ hlive => absurd (hnone j hj) hlive, hmigrated⟩

/-- A saved row. -/
theorem save (h : Guarded φ s) {row : InstallRow} (hnone : ∀ j, φ j = .window → j ∈ s.db.stopped)
    (hhost : s.db.key = .name → ∀ r ∈ s.db.appInstalls.rows, r.name = row.name → r.host = row.host) :
    Guarded φ (s.execute (.save row)) := by
  have hkeyed : Table.Keyed PrimaryKey.hostName.of (Table.upsert PrimaryKey.hostName.of row s.owed) :=
    h.keyed.upsert
  refine of_no_window hkeyed ?_ hnone h.migrated
  intro r hr
  by_cases hrow : r = row
  · subst hrow
    exact Table.mem_upsert_self
  · have hmem : r ∈ s.owed := (Table.mem_upsert hr).resolve_left hrow
    have hkey : PrimaryKey.hostName.of r ≠ PrimaryKey.hostName.of row := by
      intro heq
      have hget := hkeyed.get_eq hr
      rw [heq, Table.get_upsert_self] at hget
      exact hrow (Option.some.inj hget).symm
    refine Table.mem_upsert_of_mem (h.present r hmem) fun heq => hkey ?_
    cases hk : s.db.key with
    | hostName => simpa [hk] using heq
    | name =>
        rw [hk] at heq
        have hname : r.name = row.name := by simpa [PrimaryKey.of] using heq
        simp [PrimaryKey.of, hname, hhost hk r (h.present r hmem) hname]

/-- A deleted row. -/
theorem delete (h : Guarded φ s) (host name : String) :
    Guarded φ (s.execute (.delete host name)) := by
  have hsub : ∀ r ∈ (s.execute (.delete host name)).owed, r ∈ s.owed :=
    fun r hr => List.mem_of_mem_filter hr
  have hnil : s.owed = [] → (s.execute (.delete host name)).owed = [] := by
    intro hnil
    change s.owed.filter _ = []
    rw [hnil, List.filter_nil]
  refine ⟨h.keyed.sublist (List.filter_sublist.map _), ?_, ?_, ?_, h.migrated⟩
  · intro r hr
    obtain ⟨hmem, hother⟩ := List.mem_filter.mp hr
    exact List.mem_filter.mpr ⟨h.present r hmem, hother⟩
  · intro j hj hlive
    rcases h.staged j hj hlive with hempty | ⟨t, ht, hall⟩
    · exact .inl (hnil hempty)
    · exact .inr ⟨t, ht, fun r hr => hall r (hsub r hr)⟩
  · exact fun j k hj hk hlj hlk hjk => hnil (h.alone j k hj hk hlj hlk hjk)

/-- A staging table that is dropped where no process stands between its copy and its swap. -/
theorem dropStaging (h : Guarded φ s) (hnone : ∀ j, φ j = .window → j ∈ s.db.stopped) :
    Guarded φ (s.execute .dropStaging) :=
  of_no_window h.keyed h.present hnone h.migrated

/-- `CREATE TABLE IF NOT EXISTS` changes no table that is there. -/
theorem createStaging (h : Guarded φ s) : Guarded φ (s.execute .createStaging) := by
  refine ⟨h.keyed, h.present, fun j hj hlive => ?_, h.alone, h.migrated⟩
  refine (h.staged j hj hlive).imp_right ?_
  rintro ⟨t, ht, hall⟩
  exact ⟨t, by simp [Tracked.execute, Db.execute, ht], hall⟩

/-- A copy appends all rows to a staging table with other keys, or it fails and changes nothing. -/
theorem copy_cases (s : Tracked ι) :
    (∃ t t', s.db.staging = some t ∧ t'.rows = t.rows ++ s.db.appInstalls.rows ∧
      s.execute .copyToStaging = ⟨{ s.db with staging := some t' }, s.owed⟩) ∨
    (∃ e, (s.db.execute .copyToStaging).1 = .error e) ∧ s.execute .copyToStaging = s := by
  cases ht : s.db.staging with
  | none => exact .inr (by simp [Tracked.execute, Db.execute, ht, owedAfter])
  | some t =>
      by_cases hkeyed : ((t.rows ++ s.db.appInstalls.rows).map PrimaryKey.hostName.of).Nodup
      · have hfrom : t.insertFrom s.db.appInstalls.rows = some ⟨_, hkeyed⟩ := dif_pos hkeyed
        exact .inl ⟨t, ⟨_, hkeyed⟩, rfl, rfl, by
          simp [Tracked.execute, Db.execute, ht, hfrom, owedAfter]⟩
      · have hfrom : t.insertFrom s.db.appInstalls.rows = none := dif_neg hkeyed
        exact .inr (by simp [Tracked.execute, Db.execute, ht, hfrom, owedAfter])

/-- A copy keeps what the other processes have. -/
theorem copyToStaging (h : Guarded φ s) : Guarded φ (s.execute .copyToStaging) := by
  rcases copy_cases s with ⟨t, t', ht, hrows, hs⟩ | ⟨-, hs⟩
  · rw [hs]
    refine ⟨h.keyed, h.present, fun j hj hlive => ?_, h.alone, h.migrated⟩
    refine (h.staged j hj hlive).imp_right ?_
    rintro ⟨t₀, ht₀, hall⟩
    cases ht.symm.trans ht₀
    exact ⟨t', rfl, fun r hr => hrows ▸ List.mem_append_left _ (hall r hr)⟩
  · rwa [hs]

/-- The process whose copy succeeded enters its window: two are in theirs only where nothing is owed. -/
theorem enter [DecidableEq ι] (h : Guarded φ s) (i : ι)
    (hx : (s.db.execute .copyToStaging).1 = .ok ()) :
    Guarded (Function.update φ i .window) (s.execute .copyToStaging) := by
  have hcopied := h.copyToStaging
  obtain ⟨t, t', ht, hrows, hs⟩ := (copy_cases s).resolve_right fun hfail => by
    obtain ⟨e, he⟩ := hfail.1
    cases hx.symm.trans he
  rw [hs] at hcopied ⊢
  -- what another process has staged, and what is in the table, would collide
  have hother : ∀ j, φ j = .window → j ∉ s.db.stopped → s.owed = [] := by
    intro j hj hlive
    rcases h.staged j hj hlive with hempty | ⟨t₀, ht₀, hall⟩
    · exact hempty
    · cases ht.symm.trans ht₀
      refine List.eq_nil_iff_forall_not_mem.mpr fun r hr => ?_
      have hkeyed := t'.keyed
      rw [hrows, Table.Keyed, List.map_append] at hkeyed
      exact (List.nodup_append.mp hkeyed).2.2 _ (List.mem_map_of_mem (hall r hr)) _
        (List.mem_map_of_mem (h.present r hr)) rfl
  have hwas : ∀ j, Function.update φ i .window j = .window → j = i ∨ φ j = .window := by
    intro j hj
    by_cases hji : j = i
    · exact .inl hji
    · exact .inr (by rwa [Function.update_of_ne hji] at hj)
  refine ⟨h.keyed, h.present, fun j hj hlive => ?_, fun j k hj hk hlj hlk hjk => ?_, fun j hj => ?_⟩
  · rcases hwas j hj with rfl | hj
    · exact .inr ⟨t', rfl, fun r hr => hrows ▸ List.mem_append_right _ (h.present r hr)⟩
    · exact hcopied.staged j hj hlive
  · rcases hwas j hj with rfl | hj
    · rcases hwas k hk with rfl | hk
      · exact absurd rfl hjk
      · exact hother k hk hlk
    · exact hother j hj hlj
  · refine h.migrated j ?_
    by_cases hji : j = i
    · rw [hji, Function.update_self] at hj
      cases hj
    · rwa [Function.update_of_ne hji] at hj

/-- The swap of a process whose staging table has all that is owed. -/
theorem swap [DecidableEq ι] (h : Guarded φ s) (i : ι) (hi : φ i = .window)
    (hlive : i ∉ s.db.stopped) (hx : (s.db.execute .swap).1 = .ok ()) :
    Guarded (Function.update φ i .over) (s.execute .swap) := by
  cases ht : s.db.staging with
  | none => simp [Db.execute, ht] at hx
  | some t =>
      have hs : s.execute .swap = ⟨⟨.hostName, t, none, s.db.stopped⟩, s.owed⟩ := by
        simp [Tracked.execute, Db.execute, ht, owedAfter]
      rw [hs]
      have hne : ∀ j, Function.update φ i .over j = .window → φ j = .window ∧ j ≠ i := by
        intro j hj
        by_cases hji : j = i
        · rw [hji, Function.update_self] at hj
          cases hj
        · exact ⟨by rwa [Function.update_of_ne hji] at hj, hji⟩
      refine ⟨h.keyed, fun r hr => ?_, fun j hj hlj => ?_, fun j k hj hk => ?_, fun _ _ => rfl⟩
      · rcases h.staged i hi hlive with hempty | ⟨t₀, ht₀, hall⟩
        · rw [hempty] at hr
          cases hr
        · cases ht.symm.trans ht₀
          exact hall r hr
      · exact .inl (h.alone j i (hne j hj).1 hi hlj hlive (hne j hj).2)
      · exact h.alone j k (hne j hj).1 (hne k hk).1

/-- A process that is stopped. -/
theorem stop (h : Guarded φ s) (i : ι) : Guarded φ (s.execute (.stop i)) := by
  have hlive : ∀ j, j ∉ (s.execute (.stop i)).db.stopped → j ∉ s.db.stopped :=
    fun j hj hmem => hj (List.mem_cons_of_mem _ hmem)
  exact ⟨h.keyed, h.present, fun j hj hl => h.staged j hj (hlive j hl),
    fun j k hj hk hlj hlk => h.alone j k hj hk (hlive j hlj) (hlive k hlk), h.migrated⟩

end Guarded

/-! ## Along a run -/

/-- Counting changes nothing. -/
theorem execute_countRows (s : Tracked ι) (table : TableName) : s.execute (.countRows table) = s := by
  cases table with
  | appInstalls => rfl
  | staging => cases ht : s.db.staging <;> simp [Tracked.execute, Db.execute, ht, owedAfter]

variable [DecidableEq ι] {calls : ι → Call ι} {p : Processes ι} {o : Statement ι}
  {k : Answer o → Program ι Unit} {φ' : Phase}

/-- A process that is seen nowhere between its copy and its swap was stopped or is elsewhere. -/
theorem stopped_of_not_closing (hf : Pool.Following (fun _ => Moves) (fun j => Ends (calls j)) p φ)
    {j : ι} (hj : ¬Closing p j) (hφ : φ j = .window) : j ∈ p.state.db.stopped := by
  by_contra hlive
  have hfollows := hf j
  rw [hφ] at hfollows
  exact hj ⟨closing_of_window hfollows, hlive⟩

/-- A statement of a process that stands outside. -/
theorem Guarded.outside (h : Guarded φ p.state) (hp : p.task i = .await o k) (hC : Undisturbed p i)
    (hlive : i ∉ p.state.db.stopped) (hi : φ i = .outside) (ho : o.closing = false)
    (hf : Pool.Following (fun _ => Moves) (fun j => Ends (calls j)) p φ) :
    Guarded φ (p.state.execute o) := by
  have hC := hC hlive o (by rw [hp]; rfl)
  cases o with
  | tableInfo => exact h
  | countRows table =>
      cases table with
      | appInstalls => exact h
      | staging => cases ho
  | dropStaging =>
      refine h.dropStaging fun j hj => stopped_of_not_closing hf (hC j ?_) hj
      rintro rfl
      cases hi.symm.trans hj
  | createStaging => exact h.createStaging
  | copyToStaging => exact h.copyToStaging
  | swap => cases ho
  | save row => exact h.save (fun j hj => stopped_of_not_closing hf (hC.1 j) hj) hC.2
  | delete host name => exact h.delete host name
  | stop process => exact h.stop process

/-- The step lemma. -/
theorem Guarded.step (h : Guarded φ p.state) (hp : p.task i = .await o k) (hC : Undisturbed p i)
    (hf : Pool.Following (fun _ => Moves) (fun j => Ends (calls j)) p φ)
    (hT : Moves (φ i) o (Tracked.exec i o p.state).1 φ') :
    Guarded (Function.update φ i φ') (Tracked.exec i o p.state).2 := by
  by_cases hstopped : i ∈ p.state.db.stopped
  · -- nothing is executed, and the process is told so
    have hexec : Tracked.exec i o p.state = (.error "stopped", p.state) := if_pos hstopped
    rw [hexec] at hT ⊢
    generalize φ i = from_ at hT
    cases hT <;> exact h.leave i
  · have hexec : Tracked.exec i o p.state = ((p.state.db.execute o).1, p.state.execute o) :=
      if_neg hstopped
    rw [hexec] at hT ⊢
    generalize hx : (p.state.db.execute o).1 = x at hT
    generalize hφ : φ i = from_ at hT
    cases hT with
    | before ho => exact (h.outside hp hC hstopped hφ ho hf).leave i
    | keyed =>
        refine h.finish i ?_
        cases hkey : p.state.db.key with
        | name => simp [Db.execute, hkey, PrimaryKey.columns] at hx
        | hostName => rfl
    | copied => exact h.enter i hx
    | counted =>
        rw [execute_countRows, ← hφ, Function.update_eq_self]
        exact h
    | left =>
        rw [execute_countRows]
        exact h.leave i
    | swapped => exact h.swap i hφ hstopped hx
    | kept =>
        cases ht : p.state.db.staging with
        | some t => simp [Db.execute, ht] at hx
        | none =>
            have hs : p.state.execute .swap = p.state := by
              simp [Tracked.execute, Db.execute, ht, owedAfter]
            rw [hs]
            exact h.leave i

/-- Rows with distinct names are distinct by host and name. -/
theorem keyed_hostName {rows : List InstallRow} (h : Table.Keyed PrimaryKey.name.of rows) :
    Table.Keyed PrimaryKey.hostName.of rows := by
  refine List.pairwise_map.mpr ((List.pairwise_map.mp h).imp fun hne heq => hne ?_)
  simp only [PrimaryKey.of, List.cons.injEq] at heq
  simp [PrimaryKey.of, heq.2.1]

/-- All that is owed is in the table, and a migration that is run again changes nothing. -/
structure Kept (s : Tracked ι) : Prop where
  present : ∀ r ∈ s.owed, r ∈ s.db.appInstalls.rows
  again : ∀ j, j ∉ s.db.stopped → Async.run (Tracked.exec j) migrateInstallKey s = (.ok (), s)

/-- A migration of the new table. -/
theorem run_migrateInstallKey {s : Tracked ι} {j : ι} (hkey : s.db.key = .hostName)
    (hj : j ∉ s.db.stopped) : Async.run (Tracked.exec j) migrateInstallKey s = (.ok (), s) := by
  have hexec : Tracked.exec j .tableInfo s = (.ok ["host", "name"], s) := by
    rw [Tracked.exec, if_neg hj]
    simp [Db.execute, Tracked.execute, owedAfter, hkey, PrimaryKey.columns]
  unfold migrateInstallKey isKeyedByHostAndName execute
  simp [Async.perform, hexec]

/-- From any old table, along every run in which no process saves a row or drops the staging table while
another one stands between its copy and its swap, and no row saved in the old table replaces one of
another host: once a migration has completed, every record is in the table, and a migration that is run
again changes nothing. -/
theorem records_kept (rows : List InstallRow) (h : Table.Keyed PrimaryKey.name.of rows)
    (staging : Option (InstallsTable .hostName)) (calls : ι → Call ι) (sched : List ι)
    (hC : Pool.Along Tracked.exec Undisturbed sched (start rows h staging calls)) (i : ι)
    (hi : Migrated calls ((start rows h staging calls).runs Tracked.exec sched) i) :
    Kept ((start rows h staging calls).runs Tracked.exec sched).state := by
  have hstart : Guarded (fun _ => .outside) (start rows h staging calls).state :=
    Guarded.of_no_window (keyed_hostName h) (fun r hr => hr) (by simp) (by simp)
  have hfollowing : Pool.Following (fun _ => Moves) (fun j => Ends (calls j))
      (start rows h staging calls) fun _ => .outside := fun j => (calls j).follows
  obtain ⟨φ, hf, hguarded⟩ := Pool.Following.along (fun φ p => Guarded φ p.state)
    (fun φ p i o k φ' hp hC hT hf hφ => by
      rw [Pool.step_of_await hp]
      exact hφ.step hp hC hf hT) hC hfollowing hstart
  refine ⟨hguarded.present, fun j hj => run_migrateInstallKey (hguarded.migrated i ?_) hj⟩
  have hends := hf i
  obtain ⟨hcall, hcompleted⟩ := hi
  cases hq : ((start rows h staging calls).runs Tracked.exec sched).task i with
  | await o k =>
      rw [hq] at hcompleted
      cases hcompleted
  | done r =>
      rw [hq] at hcompleted hends
      cases r with
      | error e => cases hcompleted
      | ok u => exact hends.2 hcall rfl

/-! ## Two processes -/

instance decidableClosing {n : ℕ} (p : Processes (Fin n)) (i : Fin n) : Decidable (Closing p i) :=
  inferInstanceAs (Decidable (_ ∧ _))

instance decidableMeets {n : ℕ} (p : Processes (Fin n)) (i : Fin n) :
    (o : Statement (Fin n)) → Decidable (Meets p i o)
  | .save _ => inferInstanceAs (Decidable ((∀ _, _) ∧ (_ → ∀ r ∈ _, _)))
  | .dropStaging => inferInstanceAs (Decidable (∀ j, j ≠ i → ¬Closing p j))
  | .tableInfo | .countRows _ | .createStaging | .copyToStaging | .swap | .delete _ _ | .stop _ =>
      inferInstanceAs (Decidable True)

instance decidableUndisturbed {n : ℕ} (p : Processes (Fin n)) (i : Fin n) :
    Decidable (Undisturbed p i) :=
  inferInstanceAs (Decidable (i ∉ _ → ∀ o ∈ (p.task i).next, Meets p i o))

/-- A row of an app on a host. -/
def installRow (host name : String) : InstallRow := ⟨host, name, "umami", "deployed", "2026-01-01", "{}"⟩

/-- A process migrates, another one saves an install of another host. -/
def savedMeanwhile : Fin 2 → Call (Fin 2)
  | 0 => .migrateInstallKey
  | 1 => .saveInstall (installRow "b" "wiki")

/-- They start on a table with one row. -/
def twoProcesses : Processes (Fin 2) :=
  start [installRow "a" "umami"] (by simp [Table.Keyed]) none savedMeanwhile

/-- The save comes behind the swap. -/
theorem saved_behind : Kept (twoProcesses.runs Tracked.exec [0, 0, 0, 0, 0, 0, 0, 1]).state := by
  refine records_kept _ _ _ savedMeanwhile _ ?_ 0 ⟨rfl, ?_⟩
  · decide +kernel
  · decide +kernel

/-- The save comes between the copy and the swap: the migration completes, and the row is gone. -/
theorem lost_row : Migrated savedMeanwhile (twoProcesses.runs Tracked.exec [0, 0, 0, 0, 0, 0, 1, 0]) 0 ∧
    ¬Kept (twoProcesses.runs Tracked.exec [0, 0, 0, 0, 0, 0, 1, 0]).state := by
  refine ⟨⟨rfl, by decide +kernel⟩, fun h => ?_⟩
  have hpresent := h.present (installRow "b" "wiki") (by decide +kernel)
  revert hpresent
  decide +kernel

end Vops.InstallMigration
