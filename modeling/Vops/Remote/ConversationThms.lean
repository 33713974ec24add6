import Vops.Lib.Interleave
import Vops.Remote.ChatTurns
import Vops.Remote.RegistryThms

/-!
# Is every message of a conversation stored, in order?

The next number of a message is read by one statement and used by a later one, and the record of the
conversation is written whole from a copy. Where another turn works in between, a message is not
stored, or the session that it has stored is lost.

* `insertedSince`, `changedSince` — what was done in between, by the operations so far;
  `Undisturbed` — the condition on a step.
* `Ids`, `Numbered`, `Knows` — what holds of the identifiers, the numbers and the sessions of the
  turns.
* `Conversing` — what holds at every moment of a schedule.
* `conversation_in_order` — in a schedule of undisturbed steps every message is stored, the numbers
  are distinct and in order, and no turn undoes the session of another.
-/

set_option linter.unusedSectionVars false

namespace Vops.ConversationService

open Async

/-! ## What was done -/

variable {ι : Type} [DecidableEq ι]

/-- What the turns have done, in which state. -/
abbrev ChatLog (ι : Type) := List (Pool.Event ChatOp ι ChatWorld)

/-- The operation reads the next number of the conversation. -/
def readsNumber (id : String) : ChatOp → Bool
  | .nextConversationSequence id' => id' == id
  | _ => false

/-- The operation inserts a message of the conversation. -/
def inserts (id : String) : ChatOp → Bool
  | .saveConversationMessage m => m.conversationId == id
  | _ => false

/-- The operation reads or writes the record of the conversation. -/
def touches (id : String) : ChatOp → Bool
  | .getConversation id' => id' == id
  | .saveConversation c => c.id == id
  | _ => false

/-- The session that the record of a conversation names. -/
def sessionOf (w : ChatWorld) (id : String) : Option ℕ :=
  (w.conversation id).map RemoteConversation.agentSessionId

/-- The operation stores another session for the conversation. -/
def changesSession (id : String) (w : ChatWorld) : ChatOp → Bool
  | .saveConversation c => c.id == id && sessionOf w id != some c.agentSessionId
  | _ => false

/-- Since the turn has read the next number of the conversation, a message was inserted. -/
def insertedSince (i : ι) (id : String) (log : ChatLog ι) : Bool :=
  log.foldl (fun b e => if e.task = i ∧ readsNumber id e.op then false else b || inserts id e.op)
    false

/-- Since the turn has read or written the record of the conversation, another session was stored.
-/
def changedSince (i : ι) (id : String) (log : ChatLog ι) : Bool :=
  log.foldl (fun b e => if e.task = i ∧ touches id e.op then false
    else b || changesSession id e.before e.op) false

/-- The session that an operation shows to the turn, or has from it. -/
def seenBy (id : String) (w : ChatWorld) : ChatOp → Option ℕ
  | .saveConversation c => some c.agentSessionId
  | _ => sessionOf w id

/-- The session that the turn knows: the one in the record that it last read or wrote. -/
def knownSession (i : ι) (id : String) (log : ChatLog ι) : Option ℕ :=
  log.foldl (fun known e => if e.task = i ∧ touches id e.op then seenBy id e.before e.op else known)
    none

/-- Turns at work, and what they have done. -/
abbrev TurnPool (ι : Type) :=
  Pool ChatOp ChatRes RemoteFailure Unit ι (ChatWorld × ChatLog ι)

/-- Something was done in between that the next operation of the turn does not see. -/
def disturbed (p : TurnPool ι) (i : ι) : Bool :=
  match (p.task i).next with
  | some (.saveConversationMessage m) => insertedSince i m.conversationId p.state.2
  | some (.saveConversation c) => changedSince i c.id p.state.2
  | _ => false

/-- The step of the turn does not come between the two statements of another: it inserts no message
if one was inserted since it has read the number, and writes no record in which another session was
stored since it has read it. -/
def Undisturbed (p : TurnPool ι) (i : ι) : Prop := disturbed p i = false

instance (p : TurnPool ι) (i : ι) : Decidable (Undisturbed p i) :=
  inferInstanceAs (Decidable (_ = _))

section Log

variable {i : ι} {id : String} {log : ChatLog ι} {e : Pool.Event ChatOp ι ChatWorld}

theorem insertedSince_append : insertedSince i id (log ++ [e]) =
    if e.task = i ∧ readsNumber id e.op then false
    else insertedSince i id log || inserts id e.op := by
  simp [insertedSince]

theorem changedSince_append : changedSince i id (log ++ [e]) =
    if e.task = i ∧ touches id e.op then false
    else changedSince i id log || changesSession id e.before e.op := by
  simp [changedSince]

theorem knownSession_append : knownSession i id (log ++ [e]) =
    if e.task = i ∧ touches id e.op then seenBy id e.before e.op else knownSession i id log := by
  simp [knownSession]

end Log

/-! ## What one step leaves -/

section Frames

variable {env : ChatEnv} {w : ChatWorld} {o : ChatOp}

/-- The operation inserts a message. -/
def isInsert : ChatOp → Bool
  | .saveConversationMessage _ => true
  | _ => false

/-- The operation writes the record of a conversation. -/
def isSave : ChatOp → Bool
  | .saveConversation _ => true
  | _ => false

theorem messages_of_not_insert (ho : isInsert o = false) :
    (chatHandle env o w).2.messages = w.messages := by
  cases o with
  | saveConversationMessage m => cases ho
  | beginTurn key => simp only [chatHandle]; split <;> rfl
  | setCredentials id token => simp only [chatHandle]; split <;> rfl
  | send device message => simp only [chatHandle]; split <;> rfl
  | _ => rfl

theorem conversations_of_not_save (ho : isSave o = false) :
    (chatHandle env o w).2.conversations = w.conversations := by
  cases o with
  | saveConversation c => cases ho
  | beginTurn key => simp only [chatHandle]; split <;> rfl
  | setCredentials id token => simp only [chatHandle]; split <;> rfl
  | saveConversationMessage m => simp only [chatHandle]; split <;> rfl
  | send device message => simp only [chatHandle]; split <;> rfl
  | _ => rfl

/-- Identifiers only grow. -/
theorem chat_nextId_le : w.remote.agent.nextId ≤ (chatHandle env o w).2.remote.agent.nextId := by
  cases o with
  | remote o => exact DeviceRegistry.nextId_le o
  | beginTurn key => simp only [chatHandle]; split <;> exact le_rfl
  | setCredentials id token => simp only [chatHandle]; split <;> exact le_rfl
  | saveConversationMessage m => simp only [chatHandle]; split <;> exact le_rfl
  | send device message => simp only [chatHandle]; split <;> exact le_rfl
  | _ => exact le_rfl

/-- A message is inserted where its identifier and its number are free. -/
theorem insert_cases (env : ChatEnv) (w : ChatWorld) (m : RemoteConversationMessage) :
    (w.messageTaken m = false ∧ chatHandle env (.saveConversationMessage m) w =
        (.ok (), { w with messages := w.messages ++ [m] })) ∨
      (w.messageTaken m = true ∧ chatHandle env (.saveConversationMessage m) w =
        (.error sequenceConflict, w)) := by
  cases h : w.messageTaken m with
  | false => exact .inl ⟨rfl, if_neg (by simp [h])⟩
  | true => exact .inr ⟨rfl, if_pos h⟩

end Frames

/-! ## Identifiers -/

section Identifiers

variable {env : ChatEnv} {w w' : ChatWorld} {φ φ₁ : ι → TurnPhase} {φ' : TurnPhase} {i : ι}
  {o : ChatOp}

/-- The identifiers of the messages were drawn, and what a turn has drawn last is its own. -/
structure Ids (φ : ι → TurnPhase) (w : ChatWorld) : Prop where
  drawn : ∀ m ∈ w.messages, ∃ n < w.remote.agent.nextId, m.id = idText "remote_message" n
  fresh : ∀ i n, (φ i).fresh = some n → n < w.remote.agent.nextId ∧
    (∀ m ∈ w.messages, m.id ≠ idText "remote_message" n) ∧ ∀ j, (φ j).fresh = some n → j = i

theorem Ids.frame (h : Ids φ w) (hm : w'.messages = w.messages)
    (hn : w.remote.agent.nextId ≤ w'.remote.agent.nextId)
    (hf : ∀ j n, (φ₁ j).fresh = some n → (φ j).fresh = some n) : Ids φ₁ w' where
  drawn m hmem := by
    obtain ⟨n, hlt, hid⟩ := h.drawn m (hm ▸ hmem)
    exact ⟨n, hlt.trans_le hn, hid⟩
  fresh i n hi := by
    obtain ⟨hlt, hfree, hown⟩ := h.fresh i n (hf i n hi)
    exact ⟨hlt.trans_le hn, hm ▸ hfree, fun j hj => hown j (hf j n hj)⟩

/-- The phase of another turn stays. -/
theorem update_fresh (hφ : ∀ n, φ'.fresh = some n → (φ i).fresh = some n) (j : ι) (n : ℕ)
    (hj : (Function.update φ i φ' j).fresh = some n) : (φ j).fresh = some n := by
  by_cases hji : j = i
  · subst hji
    exact hφ n (by simpa using hj)
  · rwa [Function.update_of_ne hji] at hj

/-- A new identifier is drawn. -/
theorem Ids.draw (h : Ids φ w) : Ids
    (Function.update φ i { φ i with fresh := some w.remote.agent.nextId })
    (chatHandle env (.remote (.agent .localId)) w).2 where
  drawn m hm := by
    obtain ⟨n, hn, hid⟩ := h.drawn m hm
    exact ⟨n, Nat.lt_succ_of_lt hn, hid⟩
  fresh j n hj := by
    have hold (k : ι) (hk : k ≠ i) (v : ℕ) (hv : (Function.update φ i
        { φ i with fresh := some w.remote.agent.nextId } k).fresh = some v) :
        (φ k).fresh = some v := by
      rwa [Function.update_of_ne hk] at hv
    by_cases hji : j = i
    · subst hji
      obtain rfl : w.remote.agent.nextId = n := by simpa using hj
      refine ⟨Nat.lt_succ_self _, fun m hm he => ?_, fun k hk => ?_⟩
      · obtain ⟨n, hn, hid⟩ := h.drawn m hm
        exact hn.ne (DeviceRegistry.idText_injective (hid.symm.trans he))
      · by_contra hkj
        exact lt_irrefl _ (h.fresh k _ (hold k hkj _ hk)).1
    · obtain ⟨hlt, hfree, hown⟩ := h.fresh j n (hold j hji n hj)
      refine ⟨Nat.lt_succ_of_lt hlt, hfree, fun k hk => ?_⟩
      by_cases hki : k = i
      · subst hki
        obtain rfl : w.remote.agent.nextId = n := by simpa using hk
        exact absurd hlt (lt_irrefl _)
      · exact hown k (hold k hki n hk)

/-- A message is stored under the identifier that its turn has drawn last. -/
theorem Ids.insert (h : Ids φ w) {m : RemoteConversationMessage} {n : ℕ}
    (hn : (φ i).fresh = some n) (hid : m.id = idText "remote_message" n)
    (hφ : φ'.fresh = none) :
    Ids (Function.update φ i φ') { w with messages := w.messages ++ [m] } where
  drawn m' hm' := by
    rcases List.mem_append.mp hm' with hm' | hm'
    · exact h.drawn m' hm'
    · obtain rfl := List.mem_singleton.mp hm'
      exact ⟨n, (h.fresh i n hn).1, hid⟩
  fresh j v hj := by
    have hji : j ≠ i := by
      rintro rfl
      simp [hφ] at hj
    have hold := update_fresh (fun n hn => by simp [hφ] at hn) j v hj
    obtain ⟨hlt, hfree, hown⟩ := h.fresh j v hold
    refine ⟨hlt, fun m' hm' he => ?_, fun k hk =>
      hown k (update_fresh (fun n hn => by simp [hφ] at hn) k v hk)⟩
    rcases List.mem_append.mp hm' with hm' | hm'
    · exact hfree m' hm' he
    · obtain rfl := List.mem_singleton.mp hm'
      have hnv := DeviceRegistry.idText_injective (hid.symm.trans he)
      subst hnv
      exact hji ((h.fresh i n hn).2.2 j hold)

theorem Ids.step (h : Ids φ w) (hT : TurnStep (φ i) o (chatHandle env o w).1 φ') :
    Ids (Function.update φ i φ') (chatHandle env o w).2 := by
  obtain ⟨hallowed, rfl⟩ := hT
  cases o with
  | remote o =>
      cases o with
      | agent o =>
          cases o with
          | localId => exact h.draw
          | _ => exact h.frame rfl chat_nextId_le (update_fresh fun n hn => hn)
      | _ => exact h.frame rfl chat_nextId_le (update_fresh fun n hn => hn)
  | saveConversationMessage m =>
      obtain ⟨-, -, ⟨n, hn, hid⟩, -⟩ := hallowed
      rcases insert_cases env w m with ⟨-, hs⟩ | ⟨-, hs⟩
      · rw [hs]
        exact h.insert hn hid rfl
      · rw [hs]
        exact h.frame rfl le_rfl (update_fresh fun n hn => by cases hn)
  | getConversation id =>
      refine h.frame rfl le_rfl (update_fresh fun n hn => ?_)
      have hanswer : (chatHandle env (.getConversation id) w).1 = .ok (w.conversation id) := rfl
      rw [hanswer] at hn
      cases hc : w.conversation id with
      | none =>
          rw [hc] at hn
          exact hn
      | some c =>
          rw [hc] at hn
          exact hn
  | _ => exact h.frame (messages_of_not_insert rfl) chat_nextId_le (update_fresh fun n hn => hn)

end Identifiers

/-! ## Numbers -/

section Numbers

variable {env : ChatEnv} {w w' : ChatWorld} {log : ChatLog ι} {φ φ₁ : ι → TurnPhase}
  {φ' : TurnPhase} {i : ι} {o : ChatOp}

/-- No two messages of a conversation have one number. -/
def ChatWorld.Distinct (w : ChatWorld) : Prop :=
  (w.messages.map fun m => (m.conversationId, m.sequence)).Nodup

/-- Of the messages that a turn inserts, the answer has a larger number than the question. -/
def InTurn (log : ChatLog ι) : Prop :=
  ∀ e ∈ log, ∀ e' ∈ log, e.task = e'.task → ∀ m m', e.op = .saveConversationMessage m →
    e'.op = .saveConversationMessage m' → m.role = .user → m'.role = .assistant →
    m.sequence < m'.sequence

/-- What holds of one turn. -/
structure Numbered (w : ChatWorld) (log : ChatLog ι) (i : ι) (φ : TurnPhase) : Prop where
  next : ∀ id n, φ.number = some (id, n) → insertedSince i id log = false → n = w.nextSequence id
  above : ∀ v u, φ.number = some v → φ.user = some u → u.2 < v.2
  stored : ∀ u, φ.user = some u → φ.ended = false → u.2 ∈ w.sequences u.1
  only : φ.ended = false → ∀ e ∈ log, e.task = i → ∀ m, e.op = .saveConversationMessage m →
    m.role = .user ∧ φ.user = some (m.conversationId, m.sequence)

theorem lt_nextSequence {id : String} {n : ℕ} (h : n ∈ w.sequences id) : n < w.nextSequence id := by
  have hmax : ∀ ns : List ℕ, n ∈ ns → n ≤ ns.foldr max 0 := by
    intro ns hn
    induction ns with
    | nil => cases hn
    | cons k ns ih =>
        rcases List.mem_cons.mp hn with rfl | hn
        · exact le_max_left _ _
        · exact (ih hn).trans (le_max_right _ _)
  exact Nat.lt_succ_of_le (hmax _ h)

theorem mem_sequences {id : String} {n : ℕ} :
    n ∈ w.sequences id ↔ ∃ m ∈ w.messages, m.conversationId = id ∧ m.sequence = n := by
  simp [ChatWorld.sequences, and_assoc]

/-- The numbers of a conversation change with an insert into it. -/
theorem sequences_of_not_inserts {id : String} (ho : inserts id o = false) :
    (chatHandle env o w).2.sequences id = w.sequences id := by
  cases hi : isInsert o with
  | false => rw [ChatWorld.sequences, messages_of_not_insert hi, ChatWorld.sequences]
  | true =>
      cases o with
      | saveConversationMessage m =>
          rcases insert_cases env w m with ⟨-, hs⟩ | ⟨-, hs⟩
          · rw [hs]
            have hm : (m.conversationId == id) = false := ho
            simp [ChatWorld.sequences, List.filter_append, hm]
          · rw [hs]
      | _ => cases hi

/-- Messages are kept. -/
theorem sequences_kept {id : String} {n : ℕ} (h : n ∈ w.sequences id) :
    n ∈ (chatHandle env o w).2.sequences id := by
  cases ho : inserts id o with
  | false => rwa [sequences_of_not_inserts ho]
  | true =>
      cases o with
      | saveConversationMessage m =>
          rcases insert_cases env w m with ⟨-, hs⟩ | ⟨-, hs⟩
          · rw [hs, mem_sequences]
            obtain ⟨m', hm', h'⟩ := mem_sequences.mp h
            exact ⟨m', List.mem_append_left _ hm', h'⟩
          · rw [hs]
            exact h
      | _ => cases ho

/-- The operation reads a number. -/
def isNumber : ChatOp → Bool
  | .nextConversationSequence _ => true
  | _ => false

/-- Two phases with the same numbers. -/
structure SameNumbers (φ φ' : TurnPhase) : Prop where
  number : φ'.number = φ.number
  user : φ'.user = φ.user
  ended : φ'.ended = φ.ended

theorem sameNumbers_next {ψ : TurnPhase} {x : ChatRes o} (hn : isNumber o = false)
    (hi : isInsert o = false) : SameNumbers ψ (ψ.next o x) := by
  cases o with
  | remote o =>
      cases o with
      | agent o => cases o <;> exact ⟨rfl, rfl, rfl⟩
      | _ => exact ⟨rfl, rfl, rfl⟩
  | nextConversationSequence id => cases hn
  | saveConversationMessage m => cases hi
  | getConversation id =>
      cases x with
      | error e => exact ⟨rfl, rfl, rfl⟩
      | ok found =>
          cases found with
          | none => exact ⟨rfl, rfl, rfl⟩
          | some c => exact ⟨rfl, rfl, rfl⟩
  | _ => exact ⟨rfl, rfl, rfl⟩

/-- A turn that does not step, or whose step is not about numbers. -/
theorem Numbered.frame {ψ ψ' : TurnPhase} {j : ι} (h : Numbered w log i ψ)
    (hψ : SameNumbers ψ ψ') (hj : j = i → isNumber o = false ∧ isInsert o = false) :
    Numbered (chatHandle env o w).2 (log ++ [⟨j, o, w⟩]) i ψ' where
  next id n hn hsince := by
    have hreads : ¬ (j = i ∧ readsNumber id o = true) := by
      rintro ⟨hji, hreads⟩
      have hnumber := (hj hji).1
      cases o <;> first | cases hreads | cases hnumber
    rw [insertedSince_append, if_neg hreads, Bool.or_eq_false_iff] at hsince
    rw [ChatWorld.nextSequence, sequences_of_not_inserts hsince.2]
    exact h.next id n (hψ.number ▸ hn) hsince.1
  above v u hv hu := h.above v u (hψ.number ▸ hv) (hψ.user ▸ hu)
  stored u hu hended := sequences_kept (h.stored u (hψ.user ▸ hu) (hψ.ended ▸ hended))
  only hended e he htask m hop := by
    rw [hψ.user]
    rcases List.mem_append.mp he with he | he
    · exact h.only (hψ.ended ▸ hended) e he htask m hop
    · obtain rfl := List.mem_singleton.mp he
      have hinsert := (hj htask).2
      rw [show o = .saveConversationMessage m from hop] at hinsert
      cases hinsert

/-- A turn that reads the next number. -/
theorem Numbered.read {ψ : TurnPhase} {id : String} (h : Numbered w log i ψ)
    (hallowed : Allowed ψ (.nextConversationSequence id)) :
    Numbered w (log ++ [⟨i, .nextConversationSequence id, w⟩]) i
      { ψ with number := some (id, w.nextSequence id) } where
  next id' n hn _ := by
    obtain ⟨rfl, rfl⟩ : id = id' ∧ w.nextSequence id = n := by simpa using hn
    rfl
  above v u hv hu := by
    obtain rfl : (id, w.nextSequence id) = v := by simpa using hv
    have hid : u.1 = id := hallowed.2 u hu
    exact lt_nextSequence (hid ▸ h.stored u hu hallowed.1)
  stored := h.stored
  only hended e he htask m hop := by
    rcases List.mem_append.mp he with he | he
    · exact h.only hended e he htask m hop
    · obtain rfl := List.mem_singleton.mp he
      cases hop

/-- A turn that inserts a message. -/
theorem Numbered.insert {ψ : TurnPhase} {m : RemoteConversationMessage} (stored : Bool)
    (h : Numbered w log i ψ) (hallowed : Allowed ψ (.saveConversationMessage m))
    (hm : stored = true → m.sequence ∈ w'.sequences m.conversationId) :
    Numbered w' (log ++ [⟨i, .saveConversationMessage m, w⟩]) i (ψ.inserted m stored) := by
  obtain ⟨hended, -, -, hrole⟩ := hallowed
  have hfirst (hend : (ψ.inserted m stored).ended = false) : ψ.user = none ∧ stored = true := by
    simpa [TurnPhase.inserted] using hend
  refine ⟨fun _ _ hnumber => absurd hnumber (by simp [TurnPhase.inserted]),
    fun _ _ hnumber => absurd hnumber (by simp [TurnPhase.inserted]), fun u hu hend => ?_,
    fun hend e he htask m' hop => ?_⟩
  · obtain ⟨hnone, hstored⟩ := hfirst hend
    obtain rfl : (m.conversationId, m.sequence) = u := by
      simpa [TurnPhase.inserted, hnone, hstored] using hu
    exact hm hstored
  · obtain ⟨hnone, hstored⟩ := hfirst hend
    rcases List.mem_append.mp he with he | he
    · have hold := (h.only hended e he htask m' hop).2
      rw [hnone] at hold
      cases hold
    · obtain rfl := List.mem_singleton.mp he
      cases hop
      exact ⟨by simp [hrole, TurnPhase.role, hnone], by simp [TurnPhase.inserted, hnone, hstored]⟩

/-- The question and the answer of a turn, after one more insert. -/
theorem InTurn.insert {ψ : TurnPhase} {m : RemoteConversationMessage} (h : InTurn log)
    (hi : Numbered w log i ψ) (hallowed : Allowed ψ (.saveConversationMessage m)) :
    InTurn (log ++ [⟨i, .saveConversationMessage m, w⟩]) := by
  obtain ⟨hended, hnumber, -, hrole⟩ := hallowed
  intro e he e' he' htask m₁ m₂ hop hop' hrole₁ hrole₂
  rcases List.mem_append.mp he with he | he
  · rcases List.mem_append.mp he' with he' | he'
    · exact h e he e' he' htask m₁ m₂ hop hop' hrole₁ hrole₂
    · obtain rfl := List.mem_singleton.mp he'
      cases hop'
      exact hi.above _ _ hnumber (hi.only hended e he htask m₁ hop).2
  · obtain rfl := List.mem_singleton.mp he
    rcases List.mem_append.mp he' with he' | he'
    · have hold := (hi.only hended e' he' htask.symm m₂ hop').1
      cases hrole₂.symm.trans hold
    · obtain rfl := List.mem_singleton.mp he'
      cases hop
      cases hop'
      cases hrole₁.symm.trans hrole₂

theorem InTurn.other (h : InTurn log) (ho : isInsert o = false) : InTurn (log ++ [⟨i, o, w⟩]) := by
  intro e he e' he' htask m m' hop hop' hrole hrole'
  have hno (e : Pool.Event ChatOp ι ChatWorld) (he : e ∈ log ++ [⟨i, o, w⟩])
      (m : RemoteConversationMessage) (hop : e.op = .saveConversationMessage m) : e ∈ log := by
    rcases List.mem_append.mp he with he | he
    · exact he
    · obtain rfl := List.mem_singleton.mp he
      rw [show o = .saveConversationMessage m from hop] at ho
      cases ho
  exact h e (hno e he m hop) e' (hno e' he' m' hop') htask m m' hop hop' hrole hrole'

end Numbers

/-! ## Sessions -/

section Sessions

variable {env : ChatEnv} {w w' : ChatWorld} {log : ChatLog ι} {φ φ' : TurnPhase} {i j : ι}
  {o : ChatOp}

/-- The operation runs the provider. -/
def isRun : ChatOp → Bool
  | .run _ _ _ => true
  | _ => false

/-- What a turn knows of the sessions. -/
structure Knows (w : ChatWorld) (log : ChatLog ι) (i : ι) (φ : TurnPhase) : Prop where
  copy : ∀ id x, φ.copy = some (id, x) → knownSession i id log = some x
  ran : φ.ran = false → ∀ e ∈ log, e.task = i → isRun e.op = false
  known : ∀ id x, knownSession i id log = some x → changedSince i id log = false →
    sessionOf w id = some x

/-- A record that is written does not undo the session of another turn: the record still names the
session that the turn knows, and once the provider was run it is written back with that session. -/
def Keeps (log : ChatLog ι) (e : Pool.Event ChatOp ι ChatWorld) : Prop :=
  ∀ c x, e.op = .saveConversation c → knownSession e.task c.id log = some x →
    sessionOf e.before c.id = some x ∧
      ((∃ e' ∈ log, e'.task = e.task ∧ isRun e'.op = true) → c.agentSessionId = x)

theorem sessionOf_save (c : RemoteConversation) (id : String) :
    sessionOf (chatHandle env (.saveConversation c) w).2 id =
      if c.id = id then some c.agentSessionId else sessionOf w id := by
  have hget : (chatHandle env (.saveConversation c) w).2.conversation id =
      if c.id = id then some c else w.conversation id := Table.get_upsert
  rw [sessionOf, hget]
  split <;> rfl

/-- The session of a conversation changes where another one is stored only. -/
theorem sessionOf_of_not_changes {id : String} (ho : changesSession id w o = false) :
    sessionOf (chatHandle env o w).2 id = sessionOf w id := by
  cases hs : isSave o with
  | false =>
      rw [sessionOf, ChatWorld.conversation, conversations_of_not_save hs]
      rfl
  | true =>
      cases o with
      | saveConversation c =>
          rw [sessionOf_save]
          split
          next hid =>
            subst hid
            have hsame : sessionOf w c.id = some c.agentSessionId := by
              simpa [changesSession] using ho
            exact hsame.symm
          · rfl
      | _ => cases hs

/-- What a turn sees in a record is the session that is stored afterwards. -/
theorem sessionOf_of_touches {id : String} (ho : touches id o = true) :
    sessionOf (chatHandle env o w).2 id = seenBy id w o := by
  cases o with
  | getConversation id' => rfl
  | saveConversation c =>
      rw [sessionOf_save, if_pos (by simpa [touches] using ho)]
      rfl
  | _ => cases ho

/-- A step keeps what a turn knows of the sessions that are stored. -/
theorem Knows.known_step (h : Knows w log i φ) {id : String} {x : ℕ}
    (hx : knownSession i id (log ++ [⟨j, o, w⟩]) = some x)
    (hc : changedSince i id (log ++ [⟨j, o, w⟩]) = false) :
    sessionOf (chatHandle env o w).2 id = some x := by
  rw [knownSession_append] at hx
  rw [changedSince_append] at hc
  by_cases ht : j = i ∧ touches id o = true
  · rw [if_pos ht] at hx
    rw [sessionOf_of_touches ht.2, hx]
  · rw [if_neg ht] at hx hc
    obtain ⟨hold, hno⟩ := Bool.or_eq_false_iff.mp hc
    rw [sessionOf_of_not_changes hno]
    exact h.known id x hx hold

/-- A turn that does not step, or whose step does not touch a conversation. -/
theorem Knows.frame (h : Knows w log i φ) (hcopy : φ'.copy = φ.copy) (hran : φ'.ran = φ.ran)
    (hj : j = i → (∀ id, touches id o = false) ∧ isRun o = false) :
    Knows (chatHandle env o w).2 (log ++ [⟨j, o, w⟩]) i φ' where
  copy id x hx := by
    rw [knownSession_append, if_neg (fun ht => by simp [(hj ht.1).1] at ht)]
    exact h.copy id x (hcopy ▸ hx)
  ran hno e he htask := by
    rcases List.mem_append.mp he with he | he
    · exact h.ran (hran ▸ hno) e he htask
    · obtain rfl := List.mem_singleton.mp he
      exact (hj htask).2
  known id x hx hc := h.known_step hx hc

theorem ran_append (h : Knows w log i φ) (ho : isRun o = false) (hno : φ.ran = false) :
    ∀ e ∈ log ++ [⟨i, o, w⟩], e.task = i → isRun e.op = false := by
  intro e he htask
  rcases List.mem_append.mp he with he | he
  · exact h.ran hno e he htask
  · obtain rfl := List.mem_singleton.mp he
    exact ho

/-- A step of the turn itself. -/
theorem Knows.step (h : Knows w log i φ) (hT : TurnStep φ o (chatHandle env o w).1 φ') :
    Knows (chatHandle env o w).2 (log ++ [⟨i, o, w⟩]) i φ' := by
  obtain ⟨hallowed, rfl⟩ := hT
  cases o with
  | remote o =>
      cases o with
      | agent o => cases o <;> exact h.frame rfl rfl fun _ => ⟨fun _ => rfl, rfl⟩
      | _ => exact h.frame rfl rfl fun _ => ⟨fun _ => rfl, rfl⟩
  | getConversation id =>
      refine ⟨fun id' x hx => ?_, ?_, fun id' x hx hc => h.known_step hx hc⟩
      · cases hfound : w.conversation id with
        | none =>
            have hcopy : φ.copy = some (id', x) := by
              rw [show (chatHandle env (.getConversation id) w).1 = .ok none from
                congrArg Except.ok hfound] at hx
              exact hx
            exact absurd (hcopy.symm.trans hallowed) (by simp)
        | some c =>
            rw [show (chatHandle env (.getConversation id) w).1 = .ok (some c) from
              congrArg Except.ok hfound] at hx
            obtain ⟨rfl, rfl⟩ : c.id = id' ∧ c.agentSessionId = x := by
              simpa [TurnPhase.next] using hx
            have hid : c.id = id := Table.key_of_get hfound
            subst hid
            rw [knownSession_append, if_pos ⟨rfl, by simp [touches]⟩]
            simp [seenBy, sessionOf, hfound]
      · intro hran
        refine ran_append h rfl ?_
        have hanswer : (chatHandle env (.getConversation id) w).1 = .ok (w.conversation id) := rfl
        rw [hanswer] at hran
        cases hfound : w.conversation id with
        | none =>
            rw [hfound] at hran
            exact hran
        | some c =>
            rw [hfound] at hran
            exact hran
  | saveConversation c =>
      refine ⟨fun id x hx => ?_, fun hran => ran_append h rfl hran,
        fun id' x hx hc => h.known_step hx hc⟩
      obtain ⟨rfl, rfl⟩ : c.id = id ∧ c.agentSessionId = x := by
        simpa [TurnPhase.next] using hx
      rw [knownSession_append, if_pos ⟨rfl, by simp [touches]⟩]
      rfl
  | run device provider context =>
      refine ⟨fun id x hx => ?_, nofun, fun id' x hx hc => h.known_step hx hc⟩
      rw [knownSession_append, if_neg (by simp [touches])]
      exact h.copy id x hx
  | saveConversationMessage m =>
      rcases insert_cases env w m with ⟨-, hs⟩ | ⟨-, hs⟩
      · have hsame : φ.next (.saveConversationMessage m)
            (chatHandle env (.saveConversationMessage m) w).1 = φ.inserted m true := by
          rw [hs]
          rfl
        rw [hsame]
        exact h.frame rfl rfl fun _ => ⟨fun _ => rfl, rfl⟩
      · have hsame : φ.next (.saveConversationMessage m)
            (chatHandle env (.saveConversationMessage m) w).1 = φ.inserted m false := by
          rw [hs]
          rfl
        rw [hsame]
        exact h.frame rfl rfl fun _ => ⟨fun _ => rfl, rfl⟩
  | _ => exact h.frame rfl rfl fun _ => ⟨fun _ => rfl, rfl⟩

end Sessions

/-! ## Schedules -/

section Schedules

variable {env : ChatEnv} {w : ChatWorld} {s : ChatWorld × ChatLog ι} {φ : ι → TurnPhase}
  {φ' : TurnPhase} {i : ι} {o : ChatOp}

/-- An insert stores its message. -/
def Stored (env : ChatEnv) (e : Pool.Event ChatOp ι ChatWorld) : Prop :=
  ∀ m, e.op = .saveConversationMessage m →
    (chatHandle env (.saveConversationMessage m) e.before).1 = .ok ()

/-- No operation of the turn that was seen in between: for the operation that it performs. -/
def Unseen (i : ι) (log : ChatLog ι) : ChatOp → Prop
  | .saveConversationMessage m => insertedSince i m.conversationId log = false
  | .saveConversation c => changedSince i c.id log = false
  | _ => True

theorem unseen_of_undisturbed {p : TurnPool ι} {k : ChatRes o → ChatProg Unit}
    (hp : p.task i = .await o k) (h : Undisturbed p i) : Unseen i p.state.2 o := by
  unfold Undisturbed disturbed at h
  rw [hp] at h
  cases o <;> first | exact h | exact True.intro

/-- What holds at every moment. -/
structure Conversing (env : ChatEnv) (φ : ι → TurnPhase) (s : ChatWorld × ChatLog ι) : Prop where
  ids : Ids φ s.1
  distinct : ChatWorld.Distinct s.1
  numbered : ∀ i, Numbered s.1 s.2 i (φ i)
  ordered : InTurn s.2
  knows : ∀ i, Knows s.1 s.2 i (φ i)
  stored : ∀ e ∈ s.2, Stored env e
  keeps : ∀ before e after, s.2 = before ++ e :: after → Keeps before e

/-- The number that a turn has read is free where no message was inserted since. -/
theorem Conversing.not_taken {m : RemoteConversationMessage} (h : Conversing env φ s)
    (hallowed : Allowed (φ i) (.saveConversationMessage m))
    (hunseen : insertedSince i m.conversationId s.2 = false) : s.1.messageTaken m = false := by
  obtain ⟨-, hnumber, ⟨n, hn, hid⟩, -⟩ := hallowed
  have hnext := (h.numbered i).next _ _ hnumber hunseen
  rw [ChatWorld.messageTaken, List.any_eq_false]
  intro m' hm' htaken
  rcases Bool.or_eq_true_iff.mp htaken with hsame | hsame
  · exact (h.ids.fresh i n hn).2.1 m' hm' ((beq_iff_eq.mp hsame).trans hid)
  · obtain ⟨hconv, hseq⟩ := Bool.and_eq_true_iff.mp hsame
    have hmem : m.sequence ∈ s.1.sequences m.conversationId :=
      mem_sequences.mpr ⟨m', hm', beq_iff_eq.mp hconv, beq_iff_eq.mp hseq⟩
    exact (lt_nextSequence hmem).ne hnext

theorem Distinct.insert {m : RemoteConversationMessage} (h : ChatWorld.Distinct w)
    (hfree : w.messageTaken m = false) :
    ChatWorld.Distinct { w with messages := w.messages ++ [m] } := by
  rw [ChatWorld.Distinct, List.map_append, List.nodup_append]
  refine ⟨h, by simp, fun v hv v' hv' he => ?_⟩
  obtain ⟨m', hm', rfl⟩ := List.mem_map.mp hv
  obtain rfl : v' = (m.conversationId, m.sequence) := by simpa using hv'
  obtain ⟨hconv, hseq⟩ := Prod.mk.inj he
  have htaken : w.messageTaken m = true :=
    List.any_eq_true.mpr ⟨m', hm', by simp [hconv, hseq]⟩
  exact absurd htaken (by simp [hfree])

/-- What a step does to the numbers of the turns. -/
theorem Conversing.numbered_step (h : Conversing env φ s)
    (hT : TurnStep (φ i) o (chatHandle env o s.1).1 φ') (j : ι) :
    Numbered (chatHandle env o s.1).2 (s.2 ++ [⟨i, o, s.1⟩]) j (Function.update φ i φ' j) := by
  obtain ⟨hallowed, rfl⟩ := hT
  by_cases hji : j = i
  · subst hji
    rw [Function.update_self]
    cases hn : isNumber o with
    | true =>
        cases o with
        | nextConversationSequence id => exact (h.numbered j).read hallowed
        | _ => cases hn
    | false =>
        cases hi : isInsert o with
        | false => exact (h.numbered j).frame (sameNumbers_next hn hi) fun _ => ⟨hn, hi⟩
        | true =>
            cases o with
            | saveConversationMessage m =>
                rcases insert_cases env s.1 m with ⟨-, hs⟩ | ⟨-, hs⟩
                · rw [hs]
                  refine (h.numbered j).insert true hallowed fun _ => ?_
                  exact mem_sequences.mpr ⟨m, by simp, rfl, rfl⟩
                · rw [hs]
                  exact (h.numbered j).insert false hallowed nofun
            | _ => cases hi
  · rw [Function.update_of_ne hji]
    exact (h.numbered j).frame ⟨rfl, rfl, rfl⟩ fun he => absurd he.symm hji

theorem Conversing.knows_step (h : Conversing env φ s)
    (hT : TurnStep (φ i) o (chatHandle env o s.1).1 φ') (j : ι) :
    Knows (chatHandle env o s.1).2 (s.2 ++ [⟨i, o, s.1⟩]) j (Function.update φ i φ' j) := by
  by_cases hji : j = i
  · subst hji
    rw [Function.update_self]
    exact (h.knows j).step hT
  · rw [Function.update_of_ne hji]
    exact (h.knows j).frame rfl rfl fun he => absurd he.symm hji

/-- A record is written back with what its turn knows. -/
theorem Conversing.keeps_step (h : Conversing env φ s) (hallowed : Allowed (φ i) o)
    (hunseen : Unseen i s.2 o) : Keeps s.2 ⟨i, o, s.1⟩ := by
  rintro c x hop hx
  obtain rfl : o = .saveConversation c := hop
  refine ⟨(h.knows i).known c.id x hx hunseen, ?_⟩
  rintro ⟨e, he, htask, hrun⟩
  have hran : (φ i).ran = true := by
    by_contra hno
    have hnot := (h.knows i).ran (by simpa using hno) e he htask
    rw [hrun] at hnot
    cases hnot
  have hcopy := (h.knows i).copy _ _ (hallowed hran)
  exact Option.some.inj (hcopy.symm.trans hx)

/-- One step that nothing disturbs. -/
theorem Conversing.step (h : Conversing env φ s)
    (hT : TurnStep (φ i) o (chatHandle env o s.1).1 φ') (hunseen : Unseen i s.2 o) :
    Conversing env (Function.update φ i φ')
      ((chatHandle env o s.1).2, s.2 ++ [⟨i, o, s.1⟩]) where
  ids := h.ids.step hT
  distinct := by
    cases hi : isInsert o with
    | false =>
        rw [ChatWorld.Distinct, messages_of_not_insert hi]
        exact h.distinct
    | true =>
        cases o with
        | saveConversationMessage m =>
            rcases insert_cases env s.1 m with ⟨hfree, hs⟩ | ⟨-, hs⟩
            · rw [hs]
              exact Distinct.insert h.distinct hfree
            · rw [hs]
              exact h.distinct
        | _ => cases hi
  numbered := h.numbered_step hT
  ordered := by
    cases hi : isInsert o with
    | false => exact h.ordered.other hi
    | true =>
        cases o with
        | saveConversationMessage m => exact h.ordered.insert (h.numbered i) hT.1
        | _ => cases hi
  knows := h.knows_step hT
  stored := by
    intro e he
    rcases List.mem_append.mp he with he | he
    · exact h.stored e he
    · obtain rfl := List.mem_singleton.mp he
      rintro m hop
      obtain rfl : o = .saveConversationMessage m := hop
      have hfree := h.not_taken hT.1 hunseen
      exact congrArg Prod.fst (if_neg (by simp [hfree]))
  keeps := by
    intro before e after heq
    rcases List.eq_nil_or_concat after with rfl | ⟨rest, last, rfl⟩
    · obtain ⟨rfl, he⟩ := List.append_inj' heq rfl
      obtain rfl : ⟨i, o, s.1⟩ = e := by simpa using he
      exact h.keeps_step hT.1 hunseen
    · rw [List.concat_eq_append, ← List.cons_append, ← List.append_assoc] at heq
      obtain ⟨hlog, -⟩ := List.append_inj' heq rfl
      exact h.keeps before e rest hlog

/-- Turns at work, before their first operation. -/
def startTurns (turns : ι → RemoteDevice × RemoteChatUserMessage) (w : ChatWorld) : TurnPool ι :=
  ⟨(w, []), fun i => handle (turns i).1 (turns i).2⟩

/-- The messages that are stored have identifiers that were drawn, and each its own number. -/
structure Ready (w : ChatWorld) : Prop where
  drawn : ∀ m ∈ w.messages, ∃ n < w.remote.agent.nextId, m.id = idText "remote_message" n
  distinct : ChatWorld.Distinct w

theorem numbered_start (i : ι) : Numbered w ([] : ChatLog ι) i TurnPhase.start where
  next _ _ h := by cases h
  above _ _ h := by cases h
  stored _ h := by cases h
  only _ e he := absurd he List.not_mem_nil

theorem knows_start (i : ι) : Knows w ([] : ChatLog ι) i TurnPhase.start where
  copy _ _ h := by cases h
  ran _ e he := absurd he List.not_mem_nil
  known _ _ h := by cases h

theorem conversing_start (hw : Ready w) :
    Conversing env (fun _ : ι => TurnPhase.start) (w, []) where
  ids := ⟨hw.drawn, fun _ _ h => by cases h⟩
  distinct := hw.distinct
  numbered := numbered_start
  ordered e he := absurd he List.not_mem_nil
  knows := knows_start
  stored e he := absurd he List.not_mem_nil
  keeps before e after h := by simp at h

/-- In every schedule of undisturbed steps of any turns, every message is stored, no two messages of
a conversation have one number, an answer has a larger number than its question, and no turn undoes
the session that another has stored. -/
theorem conversation_in_order {ι : Type} [DecidableEq ι] (env : ChatEnv) (w : ChatWorld)
    (hw : Ready w) (turns : ι → RemoteDevice × RemoteChatUserMessage) (sched : List ι)
    (hC : Pool.Along (Pool.recorded (chatHandle env)) Undisturbed sched (startTurns turns w))
    (s : ChatWorld × ChatLog ι)
    (hs : s = ((startTurns turns w).runs (Pool.recorded (chatHandle env)) sched).state) :
    (∀ e ∈ s.2, Stored env e) ∧ ChatWorld.Distinct s.1 ∧ InTurn s.2 ∧
      ∀ before e after, s.2 = before ++ e :: after → Keeps before e := by
  subst hs
  obtain ⟨φ, -, hφ⟩ := Pool.Following.along (T := fun _ => TurnStep) (Q := fun _ _ _ => True)
    (φ := fun _ => TurnPhase.start) (fun φ p => Conversing env φ p.state)
    (fun φ p i o k φ' hp hCi hT _ hJ => by
      rw [Pool.step_of_await hp]
      exact hJ.step hT (unseen_of_undisturbed hp hCi))
    hC (fun i => follows_handle (turns i).1 (turns i).2) (conversing_start hw)
  exact ⟨hφ.stored, hφ.distinct, hφ.ordered, hφ.keeps⟩

end Schedules

/-! ## Two turns of one conversation -/

/-- The sample environment; the provider says hello. -/
def ChatEnv.sample : ChatEnv where
  remote := .sample
  resolveProvider := fun _ provider => .ok (provider.getD "codex")
  workspace := fun _ => .ok "/home/me/.config/vops/remote-agent-workspace"
  vault := fun _ => .ok ()
  send := fun _ => .ok ()
  run := fun _ _ => .ok ⟨"Hello.", "codex"⟩
  flush := fun _ => .ok 1
  cancelStream := fun _ => .ok ()

/-- A conversation of the sample device, without a token. -/
def sampleConversation : RemoteConversation where
  id := "conversation_1"
  deviceId := sampleDevice.id
  title := "Hello"
  status := .active
  agentProvider := "codex"
  agentSessionId := 0
  summary := none
  createdAt := 0
  updatedAt := 0

/-- The device is paired and has a conversation. -/
def withConversation : ChatWorld where
  remote := { RemoteWorld.empty with devices := [sampleDevice] }
  conversations := [sampleConversation]
  messages := []
  secrets := []
  turns := []
  answers := 0

theorem ready_withConversation : Ready withConversation :=
  ⟨by simp [withConversation], by simp [ChatWorld.Distinct, withConversation]⟩

/-- Two messages to one conversation. -/
def twoTurns (second : Bool) : RemoteDevice × RemoteChatUserMessage :=
  (sampleDevice, ⟨if second then "req_2" else "req_1", some "conversation_1", "Hello?", none⟩)

/-- What the two turns have done. -/
def afterTurns (sched : List Bool) : ChatWorld × ChatLog Bool :=
  ((startTurns twoTurns withConversation).runs (Pool.recorded (chatHandle .sample)) sched).state

/-- The theorem at two turns, one after the other. -/
theorem conversation_in_order_in_turn :
    (∀ e ∈ (afterTurns (List.replicate 60 false ++ List.replicate 60 true)).2, Stored .sample e) ∧
      ChatWorld.Distinct (afterTurns (List.replicate 60 false ++ List.replicate 60 true)).1 ∧
      InTurn (afterTurns (List.replicate 60 false ++ List.replicate 60 true)).2 ∧
      ∀ before e after, (afterTurns (List.replicate 60 false ++ List.replicate 60 true)).2 =
        before ++ e :: after → Keeps before e :=
  conversation_in_order .sample withConversation ready_withConversation twoTurns
    (List.replicate 60 false ++ List.replicate 60 true) (by decide +kernel) _ rfl

/-- The event is an insert of a message that is not stored. -/
def refused (e : Pool.Event ChatOp ι ChatWorld) : Bool :=
  match e.op with
  | .saveConversationMessage m => e.before.messageTaken m
  | _ => false

theorem not_stored_of_refused {e : Pool.Event ChatOp ι ChatWorld} (env : ChatEnv)
    (h : refused e = true) : ¬ Stored env e := by
  unfold refused at h
  split at h
  next m hop =>
    intro hstored
    cases (hstored m hop).symm.trans (congrArg Prod.fst (if_pos h))
  · cases h

/-- The last event writes the record of a conversation in which another session was stored. -/
def undoes (log : ChatLog ι) : Bool :=
  match log.reverse with
  | [] => false
  | e :: before =>
      match e.op with
      | .saveConversation c =>
          match knownSession e.task c.id before.reverse with
          | some x => sessionOf e.before c.id != some x
          | none => false
      | _ => false

theorem not_keeps_of_undoes {log : ChatLog ι} (h : undoes log = true) :
    ¬ ∀ before e after, log = before ++ e :: after → Keeps before e := by
  intro hkeeps
  unfold undoes at h
  split at h
  · cases h
  next e before hlog =>
    have hsplit : log = before.reverse ++ e :: [] := by
      rw [← List.reverse_cons, ← hlog, List.reverse_reverse]
    split at h
    next c hop =>
      split at h
      next x hx =>
        have hsame := (hkeeps _ _ _ hsplit c x hop hx).1
        simp [hsame] at h
      · cases h
    · cases h

/-- A turn inserts between the two statements of another, whose message is not stored; a turn stores
its session while another holds the record, which is then written back without it. -/
theorem conversation_disturbed :
    (¬ ∀ (env : ChatEnv) (w : ChatWorld), Ready w →
      ∀ (turns : Bool → RemoteDevice × RemoteChatUserMessage) (sched : List Bool),
        ∀ e ∈ ((startTurns turns w).runs (Pool.recorded (chatHandle env)) sched).state.2,
          Stored env e) ∧
    ¬ ∀ (env : ChatEnv) (w : ChatWorld), Ready w →
      ∀ (turns : Bool → RemoteDevice × RemoteChatUserMessage) (sched : List Bool),
        ∀ before e after,
          ((startTurns turns w).runs (Pool.recorded (chatHandle env)) sched).state.2 =
            before ++ e :: after → Keeps before e := by
  constructor
  · intro h
    have hlost : (afterTurns (List.replicate 22 false ++ List.replicate 40 true ++
        List.replicate 2 false)).2.any refused = true := by decide +kernel
    obtain ⟨e, he, hrefused⟩ := List.any_eq_true.mp hlost
    exact not_stored_of_refused .sample hrefused
      (h .sample withConversation ready_withConversation twoTurns _ e he)
  · intro h
    have hundone : undoes (afterTurns (List.replicate 4 false ++ List.replicate 60 true ++
        List.replicate 19 false)).2 = true := by decide +kernel
    unfold afterTurns at hundone
    exact not_keeps_of_undoes hundone
      (h .sample withConversation ready_withConversation twoTurns _)

end Vops.ConversationService
