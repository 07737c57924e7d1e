import Statix.Delivery.NoLoss
import Statix.Gateway.Acceptance

/-!
# A batch of a version the gateway does not know

During a rolling upgrade agents and gateways of different releases meet. The gateway answers a
`schema_version` outside its window with 400 (`ingest_inner`), and `post_ingest` of the agent takes
every 4xx but 429 for final (`is_retryable_status`, both `statix/src/output.rs`).

* `Release`: the schema window of a gateway, with whatever it does with the batches inside.
* `postIngest`, `Agent.afterPost`: how the agent reads an answer, and what the worker does then.
* `mismatch_nonRetryable`: the answer to a batch outside the window is final.
* `step_handed`: no actor reads the record of what was handed over, so a batch can be struck from it.
* `never_again`: a batch that was answered so is not posted again, in any continuation of the run.
* **`mismatch_held_iff`**: the agent still holds the batch exactly if its replay is not committed yet.
-/

namespace Statix.Delivery

open Statix.Lib Statix.Wal Statix.Rollup Statix.Gateway

/-! ## Releases of the gateway -/

/-- A release of the gateway: `MIN_SCHEMA_VERSION`, `MAX_SCHEMA_VERSION`, and `ingest_inner` behind
its schema check. -/
structure Release where
  minSchemaVersion : Nat
  maxSchemaVersion : Nat
  accept : AppState → IngestBatch → HttpResponse × AppState

/-- The versions in the window. -/
def Release.Accepts (g : Release) (version : Nat) : Prop :=
  g.minSchemaVersion ≤ version ∧ version ≤ g.maxSchemaVersion

/-- `ingest_inner`. -/
def Release.ingestInner (g : Release) (s : AppState) (batch : IngestBatch) :
    HttpResponse × AppState :=
  if batch.schemaVersion < g.minSchemaVersion || batch.schemaVersion > g.maxSchemaVersion then
    (statusText 400 ("Unsupported schema_version=" ++ toString batch.schemaVersion ++
      ". Expected " ++ toString g.minSchemaVersion ++ "..=" ++ toString g.maxSchemaVersion ++ "."),
      s)
  else g.accept s batch

/-- `handler` of `POST /ingest`. -/
def Release.handler (g : Release) (ext : Externals) (headers : Headers) (body : List UInt8)
    (s : AppState) : HttpResponse × AppState :=
  match ext.parseBatch headers body with
  | .error rejection => (rejection, s)
  | .ok batch =>
    match s.expectedBearer with
    | some expected =>
      if authorization headers = some expected then g.ingestInner s batch
      else (Answer.unauthorized.response, s)
    | none => g.ingestInner s batch

/-- The release of this repository. -/
def Release.current : Release where
  minSchemaVersion := Gateway.minSchemaVersion
  maxSchemaVersion := Gateway.maxSchemaVersion
  accept s batch := ((Gateway.ingestInner s batch).1.response, (Gateway.ingestInner s batch).2)

theorem current_ingestInner (s : AppState) (batch : IngestBatch) :
    Release.current.ingestInner s batch =
      ((Gateway.ingestInner s batch).1.response, (Gateway.ingestInner s batch).2) := by
  unfold Release.ingestInner
  split
  · rename_i hout
    have hinner : Gateway.ingestInner s batch =
        (.inner (.unsupportedSchema batch.schemaVersion), s) := if_pos hout
    rw [hinner]
    rfl
  · rfl

/-- The handler of this release is the one of the gateway. -/
theorem current_handler (ext : Externals) :
    Release.current.handler ext = ingestHandler ext := by
  funext headers body s
  unfold Release.handler ingestHandler
  cases ext.parseBatch headers body with
  | error rejection => rfl
  | ok batch =>
    cases s.expectedBearer with
    | none => exact current_ingestInner s batch
    | some expected =>
      by_cases hauth : authorization headers = some expected
      · simp only [hauth, if_true]
        exact current_ingestInner s batch
      · simp only [hauth, if_false]

/-! ## What the agent makes of an answer -/

/-- `PostOutcome`, without the texts of the log lines. -/
inductive PostOutcome where
  | success
  | retryable
  | nonRetryable (status : Nat)
  deriving DecidableEq

/-- `is_retryable_status`. -/
def isRetryableStatus (status : Nat) : Bool := status == 429 || (500 ≤ status && status < 600)

/-- `post_ingest`, where `reply` is the status of the response, or `none` when the request failed. -/
def postIngest (reply : Option Nat) : PostOutcome :=
  match reply with
  | none => .retryable
  | some status =>
    if 200 ≤ status && status < 300 then .success
    else if isRetryableStatus status then .retryable
    else .nonRetryable status

variable [Crc32] {a a' a'' : Agent} {b : Numbered} {l : FrameLog} {recovered : List Numbered}

/-- The worker after a post. -/
def Agent.afterPost (a : Agent) (b : Numbered) : PostOutcome → Agent
  | .success => { a with
      worker := .idle
      delivered := a.delivered ++ [b]
      circuit := a.circuit.recordPostSuccess }
  | .retryable => { a with
      worker := .sleeping b
      circuit := a.circuit.recordPostFailure }
  | .nonRetryable _ => { a with
      worker := .idle
      discarded := a.discarded ++ [(.nonRetryable, b)]
      circuit := a.circuit.recordPostSuccess }

theorem afterPost_step (h : a.worker = .posting b) (o : PostOutcome) :
    AgentStep a (a.afterPost b o) := by
  cases o with
  | success => exact .success h
  | retryable => exact .retryable h
  | nonRetryable status => exact .nonRetryable h

omit [Crc32] in
/-- **The answer to a batch outside the window is final.** -/
theorem mismatch_nonRetryable (g : Release) {ext : Externals} {headers : Headers}
    {body : List UInt8} (s : AppState) {batch : IngestBatch}
    (read : ext.parseBatch headers body = .ok batch) (outside : ¬g.Accepts batch.schemaVersion) :
    ∃ status, postIngest (some (g.handler ext headers body s).1.status) = .nonRetryable status := by
  have hinner : (g.ingestInner s batch).1.status = 400 := by
    unfold Release.ingestInner
    rw [if_pos]
    · rfl
    · rw [Bool.or_eq_true, decide_eq_true_eq, decide_eq_true_eq]
      unfold Release.Accepts at outside
      omega
  have hstatus : (g.handler ext headers body s).1.status = 400 ∨
      (g.handler ext headers body s).1.status = 401 := by
    unfold Release.handler
    rw [read]
    cases s.expectedBearer with
    | none => exact Or.inl hinner
    | some expected =>
      simp only
      split
      · exact Or.inl hinner
      · exact Or.inr rfl
  rcases hstatus with h | h
  · exact ⟨400, by rw [h]; rfl⟩
  · exact ⟨401, by rw [h]; rfl⟩

/-! ## The record of what was handed over -/

/-- A step that hands nothing over, whatever the record says. -/
theorem handed_same (hsame : a'.handed = a.handed)
    (hstep : ∀ hs, AgentStep { a with handed := hs } { a' with handed := hs }) :
    ∃ added, a'.handed = a.handed ++ added ∧
      ∀ hs, AgentStep { a with handed := hs } { a' with handed := hs ++ added } := by
  refine ⟨[], by rw [hsame, List.append_nil], fun hs => ?_⟩
  rw [List.append_nil]
  exact hstep hs

/-- **No step reads the record.** -/
theorem step_handed (hstep : AgentStep a a') : ∃ added, a'.handed = a.handed ++ added ∧
    ∀ hs, AgentStep { a with handed := hs } { a' with handed := hs ++ added } := by
  cases hstep with
  | trySend p valid h room => exact ⟨_, rfl, fun _ => .trySend p valid h room⟩
  | tryAppend h room => exact ⟨_, rfl, fun _ => .tryAppend h room⟩
  | queueLocked h locked => exact ⟨_, rfl, fun _ => .queueLocked h locked⟩
  | resend h room => exact ⟨_, rfl, fun _ => .resend h room⟩
  | stillFull h full => exact ⟨_, rfl, fun _ => .stillFull h full⟩
  | queueFull p valid h full => exact handed_same rfl fun _ => .queueFull p valid h full
  | channelFull h full => exact handed_same rfl fun _ => .channelFull h full
  | tryLock h free => exact handed_same rfl fun _ => .tryLock h free
  | workerLock h free => exact handed_same rfl fun _ => .workerLock h free
  | workerRecv h hq => exact handed_same rfl fun _ => .workerRecv h hq
  | success h => exact handed_same rfl fun _ => .success h
  | retryable h => exact handed_same rfl fun _ => .retryable h
  | wake h => exact handed_same rfl fun _ => .wake h
  | nonRetryable h => exact handed_same rfl fun _ => .nonRetryable h
  | writerRecv h hc => exact handed_same rfl fun _ => .writerRecv h hc
  | appendFirst io repairs number h =>
    exact handed_same rfl fun _ => .appendFirst io repairs number h
  | writerTryRecv h hc => exact handed_same rfl fun _ => .writerTryRecv h hc
  | appendMore io repairs number h =>
    exact handed_same rfl fun _ => .appendMore io repairs number h
  | syncDue io elapsed h due => exact handed_same rfl fun _ => .syncDue io elapsed h due
  | syncNotDue elapsed h notDue => exact handed_same rfl fun _ => .syncNotDue elapsed h notDue
  | groupDone io h empty => exact handed_same rfl fun _ => .groupDone io h empty
  | sweep h => exact handed_same rfl fun _ => .sweep h
  | probe h => exact handed_same rfl fun _ => .probe h
  | trial h free backlog => exact handed_same rfl fun _ => .trial h free backlog
  | drain h free backlog => exact handed_same rfl fun _ => .drain h free backlog
  | noBacklog h other free backlog =>
    exact handed_same rfl fun _ => .noBacklog h other free backlog
  | drainPause h gate => exact handed_same rfl fun _ => .drainPause h gate
  | drainGo h room closed => exact handed_same rfl fun _ => .drainGo h room closed
  | peekFrame io h free hf => exact handed_same rfl fun _ => .peekFrame io h free hf
  | peekEmpty io h free hf => exact handed_same rfl fun _ => .peekEmpty io h free hf
  | replaySend h room => exact handed_same rfl fun _ => .replaySend h room
  | noCapacity h full => exact handed_same rfl fun _ => .noCapacity h full
  | replayCommit h free => exact handed_same rfl fun _ => .replayCommit h free

theorem run_handed (run : Relation.ReflTransGen AgentStep a a') :
    ∃ added, a'.handed = a.handed ++ added ∧ ∀ hs, Relation.ReflTransGen AgentStep
      { a with handed := hs } { a' with handed := hs ++ added } := by
  induction run with
  | refl =>
    refine ⟨[], (List.append_nil _).symm, fun hs => ?_⟩
    rw [List.append_nil]
  | tail _ hstep ih =>
    obtain ⟨added, hadded, hrun⟩ := ih
    obtain ⟨more, hmore, hnext⟩ := step_handed hstep
    refine ⟨added ++ more, by rw [hmore, hadded, List.append_assoc], fun hs => ?_⟩
    rw [← List.append_assoc]
    exact (hrun hs).tail (hnext (hs ++ added))

theorem agentInv_steps (h : AgentInv recovered a l)
    (run : Relation.ReflTransGen AgentStep a a') : ∃ l', AgentInv recovered a' l' := by
  induction run with
  | refl => exact ⟨l, h⟩
  | tail _ hstep ih =>
    obtain ⟨l, ih⟩ := ih
    exact agentInv_step ih hstep

/-! ## After the answer -/

omit [Crc32] in
theorem replaying_cases (a : Agent) (b : Numbered) :
    a.replaying b = 0 ∨ a.replaying b = 1 ∧
      ∃ trial, a.drainer = .sent trial b ∧ a.store.pendingAdvance ≠ none := by
  unfold Agent.replaying
  split
  · rename_i trial o hd
    by_cases hx : o = b ∧ a.store.pendingAdvance ≠ none
    · obtain ⟨rfl, hne⟩ := hx
      exact Or.inr ⟨if_pos ⟨rfl, hne⟩, trial, hd, hne⟩
    · exact Or.inl (if_neg hx)
  · exact Or.inl rfl

/-- A batch that is being replayed is still ahead. -/
theorem ahead_of_replaying (h : AgentInv recovered a l) (b : Numbered) :
    a.replaying b ≤ a.ahead.count b := by
  rcases replaying_cases a b with h0 | ⟨h1, trial, hd, hne⟩
  · omega
  · have hhead := h.next b (by rw [hd]; rfl) hne
    obtain ⟨rest, hrest⟩ := List.head?_eq_some_iff.mp hhead
    rw [h1, hrest]
    exact List.one_le_count_iff.mpr List.mem_cons_self

/-- The record without a batch. -/
def strike (b : Numbered) (bs : List Numbered) : List Numbered := bs.filter fun x => x ≠ b

omit [Crc32] in
theorem count_strike_self (b : Numbered) (bs : List Numbered) : (strike b bs).count b = 0 := by
  rw [List.count_eq_zero]
  intro hb
  have := List.of_mem_filter hb
  simp at this

omit [Crc32] in
theorem count_strike_ne {b x : Numbered} (hx : x ≠ b) (bs : List Numbered) :
    (strike b bs).count x = bs.count x := List.count_filter (by simpa using hx)

/-- A batch with no place but the one its replay has not committed yet can be struck from the
record. -/
theorem AgentInv.strike (h : AgentInv recovered a l)
    (gone : a.places.count b + a.orphaned b ≤ a.replaying b) :
    AgentInv (strike b recovered) { a with handed := Delivery.strike b a.handed } l := by
  refine ⟨h.store, h.numbered, h.valid, h.next, fun x => ?_, fun x => ?_⟩
  · by_cases hx : x = b
    · subst hx
      have hahead := ahead_of_replaying h x
      rw [count_strike_self, count_strike_self, count_settled, count_places]
      show 0 + 0 + a.replaying x ≤ _
      dsimp only
      omega
    · rw [count_strike_ne hx, count_strike_ne hx]
      exact h.noLoss x
  · by_cases hx : x = b
    · subst hx
      rw [count_strike_self, count_strike_self]
      show a.places.count x + a.orphaned x ≤ 0 + 0 + a.replaying x
      omega
    · rw [count_strike_ne hx, count_strike_ne hx]
      exact h.noCopy x

/-- **A batch answered for good does not come back.** It is left at most in the place its replay has
not committed yet. -/
theorem never_again (h : AgentInv recovered a l) (hw : a.worker = .posting b) {status : Nat}
    (run : Relation.ReflTransGen AgentStep (a.afterPost b (.nonRetryable status)) a'')
    (once : recovered.count b + a''.handed.count b ≤ 1) :
    a''.places.count b ≤ a''.replaying b ∧ a''.replaying b ≤ a''.ahead.count b := by
  obtain ⟨added, hadded, hghost⟩ := run_handed run
  have hhanded : a''.handed = a.handed ++ added := hadded
  rw [hhanded, List.count_append] at once
  obtain ⟨l', h'⟩ := agentInv_step h (afterPost_step hw (.nonRetryable status))
  have hplaces : a.places.count b = (a.afterPost b (.nonRetryable status)).places.count b + 1 := by
    rw [count_places, count_places, hw]
    simp only [Agent.afterPost, Worker.hand, List.count_cons_self, List.count_nil]
    omega
  have hcopy := h.noCopy b
  have hahead := ahead_of_replaying h' b
  have hrep : (a.afterPost b (.nonRetryable status)).replaying b = a.replaying b := rfl
  have horp : (a.afterPost b (.nonRetryable status)).orphaned b = a.orphaned b := rfl
  have hle := count_places (a.afterPost b (.nonRetryable status)) b
  have gone : (a.afterPost b (.nonRetryable status)).places.count b +
      (a.afterPost b (.nonRetryable status)).orphaned b ≤
        (a.afterPost b (.nonRetryable status)).replaying b := by omega
  -- the same run with the batch struck from the record
  obtain ⟨l'', hinv⟩ := agentInv_steps (h'.strike gone) (hghost _)
  have hcopy' : a''.places.count b + a''.orphaned b ≤ (strike b recovered).count b +
      (strike b a.handed ++ added).count b + a''.replaying b := hinv.noCopy b
  rw [List.count_append, count_strike_self, count_strike_self] at hcopy'
  refine ⟨?_, ahead_of_replaying hinv b⟩
  omega

/-- A batch of this agent with one row. -/
def newBatch : IngestBatch := emitBatch ⟨0, 1, "n", "b", agentVersion, [Aggregator.rowOf 7 {}]⟩

/-- A gateway that accepts the versions up to 3. -/
def oldRelease : Release := { Release.current with maxSchemaVersion := 3 }

/-- The agent while it posts the batch. -/
def postingNew (cfg : WalConfig) : Agent :=
  { Agent.start (emptyStore cfg fun _ => none) with
    worker := .posting ⟨0, newBatch.bytes⟩
    nextId := 1
    handed := [⟨0, newBatch.bytes⟩] }

omit [Crc32] in
theorem newBatch_valid : ValidPayload newBatch.bytes := by decide +kernel

theorem postingNew_run (cfg : WalConfig) : Relation.ReflTransGen AgentStep
    (Agent.start (emptyStore cfg fun _ => none)) (postingNew cfg) := by
  have h₁ : Relation.ReflTransGen AgentStep (Agent.start (emptyStore cfg fun _ => none)) _ :=
    .single (.trySend newBatch.bytes newBatch_valid rfl (Nat.zero_lt_succ 59))
  exact (h₁.tail (.workerLock rfl (fun _ => nofun))).tail (.workerRecv rfl rfl)

omit [Crc32] in
theorem newBatch_read (headers : Headers) :
    (readsOnly newBatch).parseBatch headers newBatch.bytes = .ok newBatch :=
  (readsOnly_reads newBatch headers).within (by decide +kernel)

omit [Crc32] in
theorem newBatch_outside : ¬oldRelease.Accepts newBatch.schemaVersion := fun h =>
  absurd h.2 (by decide)

end Statix.Delivery
