import Statix.Gateway.Accounting

/-!
# The gateway never drains

`ChWriter::shutdown` drops its sender and waits for the writer task, which ends when the channel is
closed. The depth sampler owns a clone of the sender and loops for ever, so the channel never
closes: `fill_batch` never returns `None`, `drain_final` never runs, and `main` waits for the whole
timeout.

* `not_closed`, `looping_run`: the channel stays open, and the writer task stays in its main loop.
* **`never_drains`**: after the shutdown dropped its sender the sampler's is the one sender that is
  alive, and the writer task does not end in any later state.
* `server_step`: with the numbers and the shutdown forgotten, the process is the gateway of
  `Serving`.
-/

namespace Statix.Gateway

open Statix.Rollup

variable {g g' : Process}

/-! ## The channel stays open -/

theorem sampler_sends (g : Process) : .depthSampler ∈ g.senders := by
  unfold Process.senders
  cases g.sampler <;> simp [Sampler.senders]

/-- **The channel is never closed.** -/
theorem not_closed (g : Process) : ¬g.closed := by
  intro h
  have hmem := sampler_sends g
  rw [h] at hmem
  exact List.not_mem_nil hmem

/-- The writer task is in its main loop. -/
def Writing.Looping : Writing → Prop
  | .draining _ => False
  | .ended => False
  | .flushing _ _ next => next = .fill
  | _ => True

theorem looping_step (h : g.writer.Looping) (hstep : TaskStep g g') : g'.writer.Looping := by
  cases hstep with
  | recvNone _ _ closed | recvManyNone _ _ _ closed | drainLast _ _ _ closed _
    | drainEnd _ _ _ closed => exact absurd closed (not_closed g)
  | drainFull hw _ | drainMany _ hw _ _ _ =>
    rw [hw] at h
    exact h.elim
  | insertOk hw | budgetExhausted hw _ =>
    -- a flush of the main loop goes back to `fill_batch`
    rw [hw] at h
    obtain rfl : _ = AfterFlush.fill := h
    trivial
  | insertFailed hw more =>
    rw [hw] at h
    exact h
  | ping ok hw => trivial
  | recv hw hq => trivial
  | recvMany n hw some room there => trivial
  | linger hw room => rfl
  | filled hw full => rfl
  | _ => exact h

/-- No handler runs once `serve` has returned. -/
def Idle (g : Process) : Prop := g.main.accepts = false → g.calls = []

theorem idle_step (h : Idle g) (hstep : TaskStep g g') : Idle g' := by
  -- a call is under way, so `serve` has not returned
  have hbusy : ∀ {pre post : List Call} {c : Call} {P : Prop}, g.calls = pre ++ c :: post →
      g.main.accepts = false → P := by
    intro pre post c P hc hm
    have hnil := h hm
    rw [hc] at hnil
    simp at hnil
  cases hstep with
  | arrive batch authorization hm auth => exact fun hm' => absurd (hm'.symm.trans hm) (by simp)
  | reject batch authorization hm auth => exact h
  | badSchema hc _ | unhealthy hc _ _ | check hc _ _ | empty hc _ | reserve hc _ _ _ | full hc _ _ _
    | gone hc _ _ | send hc _ | panic hc _ | sent hc _ => exact hbusy hc
  | drainMany n hw some room there =>
    unfold Process.drained
    split <;> exact h
  | serveReturns hm idle => exact fun _ => idle
  | signal hm => exact fun hm' => nomatch hm'
  | dropSender hm | joined hm _ | timeout hm => exact fun _ => h (by rw [hm]; rfl)
  | _ => exact h

variable {channelSize batchSize : Nat} {expectedBearer : Option String}

theorem looping_run (run : Relation.ReflTransGen ProcessStep
    (.start channelSize batchSize expectedBearer) g) : g.writer.Looping := by
  induction run with
  | refl => trivial
  | tail _ hstep ih => exact looping_step ih hstep.2

theorem idle_run (run : Relation.ReflTransGen ProcessStep
    (.start channelSize batchSize expectedBearer) g) : Idle g := by
  induction run with
  | refl => exact fun h => nomatch h
  | tail _ hstep ih => exact idle_step ih hstep.2

theorem not_ended {w : Writing} (h : w.Looping) : w ≠ .ended := by
  rintro rfl
  exact h

/-- The join of the writer task never returns. -/
theorem not_drained (run : Relation.ReflTransGen ProcessStep
    (.start channelSize batchSize expectedBearer) g) : g.main ≠ .drained := by
  induction run with
  | refl => exact fun h => nomatch h
  | tail run hstep ih =>
    have hloop := looping_run run
    intro hm
    cases hstep.2 with
    | joined _ ended => exact not_ended hloop ended
    | signal => cases hm
    | serveReturns => cases hm
    | dropSender => cases hm
    | timeout => cases hm
    | drainMany n hw some room there =>
      rw [hw] at hloop
      exact hloop
    | _ => exact ih hm

/-- **The gateway never drains.** Once `serve` has returned and `ChWriter::shutdown` has dropped its
sender, the depth sampler's sender is the one that is left. In every later state the channel is
open, the writer task has not ended, and `main` has not returned with the writer drained. -/
theorem never_drains (run : Relation.ReflTransGen ProcessStep
    (.start channelSize batchSize expectedBearer) g) (dropped : g.main = .waiting) :
    g.senders = [.depthSampler] ∧ ∀ g', Relation.ReflTransGen ProcessStep g g' →
      ¬g'.closed ∧ g'.writer ≠ .ended ∧ g'.main ≠ .drained := by
  constructor
  · have hcalls : g.calls = [] := idle_run run (by rw [dropped]; rfl)
    unfold Process.senders
    rw [dropped, hcalls]
    cases g.sampler <;> rfl
  · intro g' later
    have run' := run.trans later
    exact ⟨not_closed g', not_ended (looping_run run'), not_drained run'⟩

/-- A shutdown without a request. -/
theorem shutdown_run : ∃ g, Relation.ReflTransGen ProcessStep (.start 0 0 none) g ∧
    g.main = .waiting := by
  have hsignal : ProcessStep (.start 0 0 none) { Process.start 0 0 none with main := .stopping } :=
    ⟨rfl, .signal rfl⟩
  have hserved : ProcessStep { Process.start 0 0 none with main := .stopping }
      { Process.start 0 0 none with main := .served } := ⟨rfl, .serveReturns rfl rfl⟩
  have hdrop : ProcessStep { Process.start 0 0 none with main := .served }
      { Process.start 0 0 none with main := .waiting } := ⟨rfl, .dropSender rfl⟩
  exact ⟨_, .head hsignal (.head hserved (.single hdrop)), rfl⟩

theorem never_drains_idle : ∃ g, Relation.ReflTransGen ProcessStep (.start 0 0 none) g ∧
    g.main = .waiting ∧ g.senders = [.depthSampler] := by
  obtain ⟨g, run, hmain⟩ := shutdown_run
  exact ⟨g, run, hmain, (never_drains run hmain).1⟩

/-- **A sender is left**, and the writer task does not end. -/
theorem sender_left : ∃ g, Relation.ReflTransGen ProcessStep (.start 0 0 none) g ∧
    g.main = .waiting ∧ g.senders ≠ [] ∧
    ∀ g', Relation.ReflTransGen ProcessStep g g' → g'.writer ≠ .ended := by
  obtain ⟨g, run, hmain⟩ := shutdown_run
  exact ⟨g, run, hmain, not_closed g, fun g' later => not_ended (looping_run (run.trans later))⟩

/-! ## The gateway of `Serving` -/

/-- A call without its number. -/
def Call.handler : Call → Handler
  | .arrived _ batch => .arrived batch
  | .checked _ batch => .checked batch
  | .sending _ batch sent _ => .sending batch (batch.workloads.drop sent)

/-- The writer task without the drain. -/
def Writing.task : Writing → WriterTask
  | .pinging => .pinging
  | .filling batch => .filling (batch.map Tagged.row)
  | .flushing batch attempt _ => .flushing (batch.map Tagged.row) attempt
  | _ => .receiving

/-- An answer of `ingest_inner`. -/
def innerAnswer : Nat × IngestBatch × Answer → Option (IngestBatch × Response)
  | (_, batch, .inner r) => some (batch, r)
  | _ => none

/-- The gateway without the numbers, the authorization and the shutdown. -/
def Process.server (g : Process) : Server where
  capacity := g.capacity
  batchMax := g.batchMax
  healthy := g.healthy
  queue := g.queue.map Tagged.row
  handlers := g.calls.map Call.handler
  writer := g.writer.task
  answers := g.answers.filterMap innerAnswer
  inserted := g.inserted.map Tagged.row
  dropped := g.dropped.map Tagged.row

theorem server_used (h : Requests g) : g.server.used = g.used := by
  have hres : (g.calls.map Call.handler).map Handler.reserved = g.calls.map Call.permits := by
    rw [List.map_map]
    refine List.map_congr_left fun c hc => ?_
    have hexact := (h.calls c hc).1
    cases c with
    | arrived => rfl
    | checked => rfl
    | sending id batch sent permits =>
      simp only [Call.exactPermits] at hexact
      simp only [Function.comp_apply, Call.handler, Handler.reserved, Call.permits,
        List.length_drop]
      omega
  unfold Server.used Server.reserved Process.used
  simp only [Process.server, List.length_map, hres]

theorem server_answer {pre post : List Call} {id : Nat} {batch : IngestBatch} {r : Response} :
    (g.answer pre post id batch (.inner r)).server =
      g.server.answer (pre.map Call.handler) (post.map Call.handler) batch r := by
  simp [Process.server, Process.answer, Server.answer, innerAnswer]

/-- **Every step of the process is one of the serving gateway**, or does not show in it. -/
theorem server_step (hr : Requests g) (hw : g.writer.Looping) (hstep : TaskStep g g') :
    g'.server = g.server ∨ ∃ ev, ServeStep ev g.server g'.server := by
  have handlers : ∀ {pre post : List Call} {c : Call}, g.calls = pre ++ c :: post →
      g.server.handlers = pre.map Call.handler ++ c.handler :: post.map Call.handler := by
    intro pre post c hc
    simp [Process.server, hc]
  have task : ∀ {w : Writing}, g.writer = w → g.server.writer = w.task := fun h => by
    rw [← h]
    rfl
  cases hstep with
  | arrive batch authorization hm auth =>
    refine Or.inr ⟨.request, ?_⟩
    have := ServeStep.arrive (x := g.server) batch
    simpa [Process.server, Call.handler] using this
  | reject batch authorization hm auth =>
    left
    simp [Process.server, innerAnswer]
  | badSchema hc bad =>
    rw [server_answer]
    exact Or.inr ⟨_, .badSchema (handlers hc) bad⟩
  | unhealthy hc good flag =>
    rw [server_answer]
    exact Or.inr ⟨_, .unhealthy (handlers hc) good flag⟩
  | check hc good flag =>
    refine Or.inr ⟨.request, ?_⟩
    have := ServeStep.check (handlers hc) good flag
    simpa [Process.server, Call.handler] using this
  | empty hc none =>
    rw [server_answer]
    exact Or.inr ⟨_, .empty (handlers hc) none⟩
  | reserve hc some alive room =>
    refine Or.inr ⟨.request, ?_⟩
    have := ServeStep.reserve (handlers hc) some (by rw [server_used hr]; exact room)
    simpa [Process.server, Call.handler] using this
  | full hc some alive noRoom =>
    rw [server_answer]
    exact Or.inr ⟨_, .full (handlers hc) some (by rw [server_used hr]; exact noRoom)⟩
  | gone hc some ended => exact absurd ended (not_ended hw)
  | send hc more =>
    refine Or.inr ⟨.request, ?_⟩
    have hh := handlers hc
    simp only [Call.handler, List.drop_eq_getElem_cons more] at hh
    have := ServeStep.send hh
    simpa [Process.server, Call.handler] using this
  | panic hc more =>
    have hp := hr.exactPermits hc
    simp only [Call.exactPermits] at hp
    omega
  | sent hc all =>
    rw [server_answer]
    have hh := handlers hc
    simp only [Call.handler, List.drop_eq_nil_of_le all] at hh
    exact Or.inr ⟨_, .sent hh⟩
  | ping ok h =>
    cases ok with
    | true => exact Or.inr ⟨_, .pingOk (task h)⟩
    | false => exact Or.inr ⟨_, .pingFailed (task h)⟩
  | recv h hq =>
    refine Or.inr ⟨_, .recv (task h) ?_⟩
    simp [Process.server, hq]
  | recvMany n h some room there =>
    refine Or.inr ⟨.fill, ?_⟩
    have := ServeStep.recvMany n (task h) some (by simpa [Process.server] using room)
      (by simpa [Process.server] using there)
    simpa [Process.server, Writing.task, List.map_take, List.map_drop] using this
  | linger h room =>
    exact Or.inr ⟨_, .linger (task h) (by simpa [Process.server] using room)⟩
  | filled h full =>
    exact Or.inr ⟨_, .filled (task h) (by simpa [Process.server] using full)⟩
  | insertOk h =>
    rw [h] at hw
    obtain rfl : _ = AfterFlush.fill := hw
    refine Or.inr ⟨.inserted, ?_⟩
    have := ServeStep.insertOk (task h)
    simpa [Process.server, AfterFlush.writing, Writing.task] using this
  | insertFailed h more => exact Or.inr ⟨_, .insertFailed (task h) more⟩
  | budgetExhausted h last =>
    rw [h] at hw
    obtain rfl : _ = AfterFlush.fill := hw
    refine Or.inr ⟨.budgetExhausted, ?_⟩
    have := ServeStep.budgetExhausted (task h) last
    simpa [Process.server, AfterFlush.writing, Writing.task] using this
  | recvNone _ _ closed | recvManyNone _ _ _ closed | drainLast _ _ _ closed _
    | drainEnd _ _ _ closed => exact absurd closed (not_closed g)
  | drainFull h _ | drainMany _ h _ _ _ =>
    rw [h] at hw
    exact hw.elim
  | _ => exact Or.inl rfl

/-- **Every run of the process is one of the serving gateway.** -/
theorem server_run (run : Relation.ReflTransGen ProcessStep
    (.start channelSize batchSize expectedBearer) g) :
    Relation.ReflTransGen (fun x x' => ∃ ev, ServeStep ev x x')
      (.start (ingestChannelCapacity channelSize) (readBatchMax batchSize)) g.server := by
  induction run with
  | refl => exact .refl
  | tail run hstep ih =>
    rcases server_step (requests_run run) (looping_run run) hstep.2 with e | hserve
    · rw [e]
      exact ih
    · exact ih.tail hserve

end Statix.Gateway
