import Vops.AgentControl.AgentStore
import Vops.Lib.Interleave
import Vops.Lib.KeysetPages

/-!
# Pages of the audit log (`AgentStore.listEventPage`)

* `listEventPage` — one page, the newest event first, with the cursor of the next.
* `listEventPage_eq` — it is a page of a table of ascending keys.
* `sequenced_grows` — no operation takes an event away.
* `pages_show_log` — page after page, while events are appended, the log of the first page is shown.
-/

namespace Vops

open KeysetPages (Ascending behind page pageAt cursor)

/-- A row of `agent_events`, with its sequence and its session. -/
structure SequencedEvent where
  sequence : ℕ
  sessionId : Option String
  record : EventRecord

/-- The rows of `agent_events`: `sequence` counts the insertions, as no row is ever deleted, and the column
`session_id` is the session of the record. -/
def World.sequenced (w : World) : List SequencedEvent :=
  (w.events.zipIdx 1).map fun (row, sequence) =>
    ⟨sequence, (row.record.get? "sessionId").bind Json.str?, row.record⟩

/-- The options of `listEventPage`. -/
structure EventPageOptions where
  sessionId : Option String := none
  before : Option ℕ := none
  limit : Option ℤ := none

/-- What `listEventPage` answers; `none` is `null`. -/
structure EventPage where
  events : List SequencedEvent
  nextCursor : Option ℕ

/-- `bounded` -/
def pageLimit (limit : Option ℤ) : ℕ := (max 1 (min (limit.getD 30) 200)).toNat

/-- `session_id = ?`, which is asked when a session is named. -/
def ofSession (sessionId : Option String) (row : SequencedEvent) : Bool :=
  (sessionId.filter (· ≠ "")).all (row.sessionId = some ·)

/-- `listEventPage` -/
def listEventPage (opts : EventPageOptions) (w : World) : EventPage :=
  let bounded := pageLimit opts.limit
  let selected := w.sequenced.filter fun row =>
    ofSession opts.sessionId row && opts.before.all fun before => decide (row.sequence < before)
  let rows := selected.reverse.take (bounded + 1)
  let events := rows.take bounded
  ⟨events, if bounded < rows.length then events.getLast?.map SequencedEvent.sequence else none⟩

/-- The pages that are read one after the other, each with the cursor of the one before it. -/
def readPage (sessionId : Option String) (limits : ℕ → Option ℤ) (worlds : ℕ → World) : ℕ → EventPage
  | 0 => listEventPage ⟨sessionId, none, limits 0⟩ (worlds 0)
  | i + 1 =>
      let before := (readPage sessionId limits worlds i).nextCursor
      listEventPage ⟨sessionId, before, limits (i + 1)⟩ (worlds (i + 1))

/-! ## The table -/

theorem sequenced_ascending (w : World) : Ascending SequencedEvent.sequence w.sequenced := by
  rw [Ascending, World.sequenced, List.pairwise_map]
  have hindices : ((w.events.zipIdx 1).map Prod.snd).Pairwise (· < ·) := by
    rw [List.zipIdx_map_snd]
    exact List.pairwise_lt_range'
  exact List.pairwise_map.mp hindices

theorem sequenced_prefix {w w' : World} (h : w.events <+: w'.events) : w.sequenced <+: w'.sequenced := by
  obtain ⟨new, hnew⟩ := h
  rw [World.sequenced, World.sequenced, ← hnew, List.zipIdx_append, List.map_append]
  exact List.prefix_append _ _

/-- No operation takes an event away. -/
theorem events_handle (env : Env) (o : Op) (w : World) : w.events <+: (handle env o w).2.events := by
  cases o with
  | insertEvent e => exact List.prefix_append _ _
  | saveApproval a => exact List.prefix_rfl
  | service call =>
      change w.events <+: (serviceEffect env w call).events
      unfold serviceEffect
      split <;> exact List.prefix_rfl
  | createServer config node =>
      change w.events <+: (createServerEffect w config node _).2.drawn.events
      cases env.createServer w.answers config <;> exact List.prefix_rfl
  | _ => exact List.prefix_rfl

theorem pageLimit_pos (limit : Option ℤ) : 0 < pageLimit limit := by
  unfold pageLimit
  omega

/-! ## Pages -/

/-- A page of the log is a page of a table of ascending keys. -/
theorem listEventPage_eq (opts : EventPageOptions) (w : World) : listEventPage opts w =
    ⟨(page SequencedEvent.sequence (ofSession opts.sessionId) w.sequenced opts.before (pageLimit opts.limit)).rows,
      (page SequencedEvent.sequence (ofSession opts.sessionId) w.sequenced opts.before
        (pageLimit opts.limit)).next⟩ := rfl

theorem readPage_eq (sessionId : Option String) (limits : ℕ → Option ℤ) (worlds : ℕ → World) (i : ℕ) :
    readPage sessionId limits worlds i =
      ⟨(pageAt SequencedEvent.sequence (ofSession sessionId) (fun i => (worlds i).sequenced)
          (fun i => pageLimit (limits i)) none i).rows,
        (pageAt SequencedEvent.sequence (ofSession sessionId) (fun i => (worlds i).sequenced)
          (fun i => pageLimit (limits i)) none i).next⟩ := by
  induction i with
  | zero => exact listEventPage_eq _ _
  | succ i ih =>
      rw [readPage, ih]
      exact listEventPage_eq _ _

/-- Page after page, while events come on top, the pages end, and show the log of the first page: each of its
events once, the newest first. -/
theorem readPage_covers (sessionId : Option String) (limits : ℕ → Option ℤ) (worlds : ℕ → World)
    (hgrows : ∀ i, (worlds i).events <+: (worlds (i + 1)).events) : ∃ n,
      (∀ i < n, (readPage sessionId limits worlds i).nextCursor ≠ none) ∧
      (readPage sessionId limits worlds n).nextCursor = none ∧
      (List.range (n + 1)).flatMap (fun i => (readPage sessionId limits worlds i).events) =
        ((worlds 0).sequenced.filter (ofSession sessionId)).reverse := by
  obtain ⟨n, hopen, hlast, hshow⟩ := @KeysetPages.pages_cover _ SequencedEvent.sequence (ofSession sessionId)
    (fun i => (worlds i).sequenced) (fun i => pageLimit (limits i)) none
    (fun i => sequenced_ascending (worlds i)) (fun i => sequenced_prefix (hgrows i))
    (fun i => pageLimit_pos (limits i))
  refine ⟨n, fun i hi => ?_, ?_, ?_⟩
  · rw [readPage_eq]
    exact hopen i hi
  · rw [readPage_eq]
    exact hlast
  · simp only [readPage_eq]
    rw [hshow, behind]
    simp

/-! ## While events are appended -/

section Appending

variable {ι α : Type} [DecidableEq ι]

theorem events_runs (env : Env) (sched : List ι) (p : Pool Op Res Failure α ι World) :
    p.state.events <+: (p.runs (fun _ => handle env) sched).state.events := by
  induction sched generalizing p with
  | nil => exact List.prefix_rfl
  | cons i sched ih =>
      rw [Pool.runs_cons]
      refine List.IsPrefix.trans ?_ (ih _)
      unfold Pool.step
      split
      · exact List.prefix_rfl
      · exact events_handle env _ _

/-- The programs at work before the first page, and between the pages. -/
def poolAt (env : Env) (p : Pool Op Res Failure α ι World) (sched : ℕ → List ι) :
    ℕ → Pool Op Res Failure α ι World
  | 0 => p.runs (fun _ => handle env) (sched 0)
  | i + 1 => (poolAt env p sched i).runs (fun _ => handle env) (sched (i + 1))

/-- Whatever calls of `appendEvent` are at work between the pages, in whatever order: following the cursor
ends, and shows the events of the session that were stored when the first page was read, each once, and no
other, by descending sequence. -/
theorem pages_show_log (env : Env) (event : ι → AgentEvent) (w : World) (sched : ℕ → List ι)
    (sessionId : Option String) (limits : ℕ → Option ℤ) :
    let worlds := fun i => (poolAt env ⟨w, fun i => appendEvent (event i)⟩ sched i).state
    ∃ n, (∀ i < n, (readPage sessionId limits worlds i).nextCursor ≠ none) ∧
      (readPage sessionId limits worlds n).nextCursor = none ∧
      let shown := (List.range (n + 1)).flatMap fun i => (readPage sessionId limits worlds i).events
      shown.Pairwise (fun a b => b.sequence < a.sequence) ∧
        ∀ row, row ∈ shown ↔ row ∈ (worlds 0).sequenced ∧ ofSession sessionId row = true := by
  intro worlds
  have hgrows : ∀ i, (worlds i).events <+: (worlds (i + 1)).events := fun i => events_runs env _ _
  obtain ⟨n, hopen, hlast, hshow⟩ := readPage_covers sessionId limits worlds hgrows
  refine ⟨n, hopen, hlast, ?_⟩
  dsimp only
  rw [hshow]
  constructor
  · exact List.pairwise_reverse.mpr ((sequenced_ascending _).sublist List.filter_sublist)
  · intro row
    rw [List.mem_reverse, List.mem_filter]

end Appending

end Vops
