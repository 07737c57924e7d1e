import Statix.Gateway.Handlers
import Statix.Gateway.Shutdown

/-!
# The probes of the gateway

Model of `health_check`, `readiness_check` and `ingest_channel_over_threshold`
(`statix-gateway/src/main.rs`), asked in any state of the gateway process.

* `GET /health` and `GET /ready` read the ingest channel and `ch_healthy` and change nothing.
  `Sender::capacity` is the number of permits left, `Sender::is_closed` says that the receiver is
  gone. The warning in the log is left out.
* `usize` has 64 bits.
* `Since` follows the rows that ask for room from one state on: those of the requests that had come
  in without a reservation, and those posted later.

* **`probes`**: `/health` is 200 in every state, and when `/ready` is.
* **`ready_keeps_room`**: what `/ready` promises to the requests that follow.
-/

namespace Statix.Gateway

open Statix.Rollup

/-- `READY_CHANNEL_FULL_THRESHOLD_PCT`. -/
def readyChannelFullThresholdPct : Nat := 80

/-- `ingest_channel_over_threshold`. -/
def ingestChannelOverThreshold (remaining total thresholdPct : Nat) : Bool :=
  if total = 0 then false
  else
    let freePct := saturatingMul remaining 100 / total
    decide (freePct < 100 - thresholdPct)

/-- The receiver of the ingest channel is gone: `Sender::is_closed`. -/
def Writing.gone : Writing → Bool
  | .ended => true
  | _ => false

namespace Process

/-- `health_check`. -/
def healthCheck (g : Process) : Nat := if g.writer.gone then 503 else 200

/-- `readiness_check`. -/
def readinessCheck (g : Process) : Nat :=
  if g.writer.gone then 503
  else if !g.healthy then 503
  else
    let remaining := g.capacity - g.used
    let total := g.capacity
    if ingestChannelOverThreshold remaining total readyChannelFullThresholdPct then 503 else 200

end Process

/-! ## What the probes answer -/

/-- **The threshold, without the percent**: a fifth of the channel is free. The saturating product
matters where a fifth of the channel is more than a hundredth of what `usize` holds; such a channel
is over the threshold even when it is empty. -/
theorem overThreshold_iff {used total : Nat} (some : 0 < total) :
    ingestChannelOverThreshold (total - used) total readyChannelFullThresholdPct = false ↔
      5 * used ≤ 4 * total ∧ 20 * total ≤ 2 ^ 64 - 1 := by
  have hne : total ≠ 0 := Nat.pos_iff_ne_zero.mp some
  have hpct : 100 - readyChannelFullThresholdPct = 20 := rfl
  have hdiv : 20 ≤ saturatingMul (total - used) 100 / total ↔
      20 * total ≤ saturatingMul (total - used) 100 := Nat.le_div_iff_mul_le some
  have hmin : 20 * total ≤ saturatingMul (total - used) 100 ↔
      20 * total ≤ (total - used) * 100 ∧ 20 * total ≤ 2 ^ 64 - 1 := Nat.le_min
  simp only [ingestChannelOverThreshold, if_neg hne, hpct, decide_eq_false_iff_not, not_lt, hdiv,
    hmin]
  exact and_congr_left fun _ => by omega

variable {channelSize batchSize : Nat} {expectedBearer : Option String} {g g' : Process}

/-- No step changes the capacity of the channel or the largest batch. -/
theorem settings_step (hstep : TaskStep g g') :
    g'.capacity = g.capacity ∧ g'.batchMax = g.batchMax := by
  cases hstep with
  | drainMany n hw some room there =>
    unfold Process.drained
    split <;> exact ⟨rfl, rfl⟩
  | _ => exact ⟨rfl, rfl⟩

theorem settings_run (run : Relation.ReflTransGen ProcessStep
    (.start channelSize batchSize expectedBearer) g) :
    g.capacity = ingestChannelCapacity channelSize ∧ g.batchMax = readBatchMax batchSize := by
  induction run with
  | refl => exact ⟨rfl, rfl⟩
  | tail _ hstep ih =>
    obtain ⟨hcapacity, hbatch⟩ := settings_step hstep.2
    exact ⟨hcapacity.trans ih.1, hbatch.trans ih.2⟩

theorem gone_eq_false {w : Writing} (h : w.Looping) : w.gone = false := by
  cases w with
  | ended => exact h.elim
  | _ => rfl

/-- When `/ready` answers 200, while the receiver is there. -/
theorem readinessCheck_iff (looping : g.writer.Looping) (some : 0 < g.capacity) :
    g.readinessCheck = 200 ↔
      g.healthy = true ∧ 5 * g.used ≤ 4 * g.capacity ∧ 20 * g.capacity ≤ 2 ^ 64 - 1 := by
  rw [← overThreshold_iff some]
  unfold Process.readinessCheck
  rw [gone_eq_false looping]
  by_cases flag : g.healthy = true <;> simp [flag]

/-- **The probes.** In every state of the gateway `/health` answers 200, whatever ClickHouse does.
`/ready` answers 200 if and only if the last word of ClickHouse was good and at least a fifth of the
channel is free; a channel of more than a twentieth of `usize::MAX` is never ready. -/
theorem probes (run : Relation.ReflTransGen ProcessStep
    (.start channelSize batchSize expectedBearer) g) :
    g.healthCheck = 200 ∧
      (g.readinessCheck = 200 ↔ g.healthy = true ∧ 5 * g.used ≤ 4 * g.capacity ∧
        20 * g.capacity ≤ 2 ^ 64 - 1) ∧
      (g.readinessCheck ≠ 200 → g.readinessCheck = 503) := by
  have looping := looping_run run
  have some : 0 < g.capacity := by
    rw [(settings_run run).1]
    exact Nat.lt_of_lt_of_le (by omega) (Nat.le_max_right channelSize 1024)
  refine ⟨?_, readinessCheck_iff looping some, ?_⟩
  · unfold Process.healthCheck
    rw [gone_eq_false looping]
    simp
  · unfold Process.readinessCheck
    intro hno
    split_ifs at hno ⊢ <;> simp_all

/-- The gateway after a good ping. -/
def pingedGateway : Process := { Process.start 0 0 none with healthy := true, writer := .receiving }

theorem pinged_run : Relation.ReflTransGen ProcessStep (.start 0 0 none) pingedGateway :=
  .single ⟨rfl, .ping true rfl⟩

theorem probes_pinged : ∃ g, Relation.ReflTransGen ProcessStep (.start 0 0 none) g ∧
    g.healthCheck = 200 ∧ g.readinessCheck = 200 := by
  have ready := (probes pinged_run).2.1.mpr ⟨rfl, by decide, by decide⟩
  exact ⟨pingedGateway, pinged_run, (probes pinged_run).1, ready⟩

/-! ## What a ready gateway has room for -/

/-- The rows of a request that has no permits yet. -/
def Call.waiting : Call → Nat
  | .arrived _ batch => batch.workloads.length
  | .checked _ batch => batch.workloads.length
  | .sending _ _ _ _ => 0

/-- The rows of the requests that have no permits yet. -/
def Process.waiting (g : Process) : Nat := (g.calls.map Call.waiting).sum

/-- The rows of the request that a step lets in. -/
def posted (g g' : Process) : Nat :=
  ((g'.calls.filter fun c => decide (g.nextId ≤ c.id)).map Call.waiting).sum

/-- A run in which no insert fails, with the rows that ask for room in it. -/
inductive Since (g₀ : Process) : Nat → Process → Prop
  | here : Since g₀ g₀.waiting g₀
  | next {rows : Nat} {g g' : Process} (run : Since g₀ rows g) (step : ProcessStep g g')
      (healthy : g'.healthy = true) : Since g₀ (rows + posted g g') g'

/-- The answers that blame the request, or accept it. -/
inductive Answered (batch : IngestBatch) : Answer → Prop
  | accepted : Answered batch (.inner .ok)
  | unauthorized : Answered batch .unauthorized
  | badSchema (bad : ¬supported batch) :
      Answered batch (.inner (.unsupportedSchema batch.schemaVersion))

/-- The answers that blame the gateway, with the reason. -/
inductive Refused (g : Process) : Answer → Prop
  | unavailable (flag : g.healthy = false) : Refused g (.inner .unavailable)
  | bufferFull (full : g.capacity < g.used + g.waiting) : Refused g (.inner .bufferFull)
  | writerUnavailable (gone : g.writer = .ended) : Refused g .writerUnavailable

theorem sum_calls (f : Call → Nat) (pre post : List Call) (c : Call) :
    ((pre ++ c :: post).map f).sum = ((pre ++ post).map f).sum + f c := by
  simp only [List.map_append, List.map_cons, List.sum_append, List.sum_cons]
  omega

theorem posted_arrive (g : Process) (batch : IngestBatch) :
    batch.workloads.length ≤ posted g { g with
      calls := g.calls ++ [.arrived g.nextId batch], nextId := g.nextId + 1 } := by
  have hnew : (([Call.arrived g.nextId batch].filter fun c => decide (g.nextId ≤ c.id)).map
      Call.waiting).sum = batch.workloads.length := by
    simp [Call.id, Call.waiting]
  simp only [posted, List.filter_append, List.map_append, List.sum_append, hnew]
  exact Nat.le_add_left _ _

/-- **What is taken and asked for grows with the requests only.** -/
theorem room_step (hstep : TaskStep g g') :
    g'.used + g'.waiting ≤ g.used + g.waiting + posted g g' := by
  cases hstep with
  | arrive batch authorization hm auth =>
    have hposted := posted_arrive g batch
    simp only [Process.used, Process.waiting, List.map_append, List.map_cons, List.map_nil,
      List.sum_append, List.sum_cons, List.sum_nil, Call.permits, Call.waiting]
    omega
  | badSchema hc _ | unhealthy hc _ _ | empty hc _ | full hc _ _ _ | gone hc _ _ | sent hc _
    | panic hc _ =>
    -- a request ends, and leaves its permits and its wish
    simp only [Process.used, Process.waiting, Process.answer, hc, sum_calls]
    omega
  | check hc _ _ | reserve hc _ _ _ | send hc _ =>
    simp only [Process.used, Process.waiting, hc, sum_calls, Call.permits, Call.waiting,
      List.length_append, List.length_singleton]
    omega
  | recv hw hq =>
    simp only [Process.used, Process.waiting, hq, List.length_cons]
    omega
  | recvMany n hw some room there =>
    simp only [Process.used, Process.waiting, List.length_drop]
    omega
  | drainMany n hw some room there =>
    unfold Process.drained
    split <;>
      · simp only [Process.used, Process.waiting, Process.flush, List.length_drop]
        omega
  | _ => exact Nat.le_add_right _ _

/-- **What a step answers.** -/
theorem answers_step (hstep : TaskStep g g') : g'.answers = g.answers ∨
    ∃ id batch a, g'.answers = g.answers ++ [(id, batch, a)] ∧
      (Answered batch a ∨ Refused g a) := by
  cases hstep with
  | reject batch _ _ _ => exact .inr ⟨_, batch, _, rfl, .inl .unauthorized⟩
  | badSchema _ bad => exact .inr ⟨_, _, _, rfl, .inl (.badSchema bad)⟩
  | unhealthy _ _ flag => exact .inr ⟨_, _, _, rfl, .inr (.unavailable flag)⟩
  | empty _ _ | sent _ _ => exact .inr ⟨_, _, _, rfl, .inl .accepted⟩
  | @full pre post id batch hc some alive noRoom =>
    refine .inr ⟨_, _, _, rfl, .inr (.bufferFull ?_)⟩
    have hwaiting : g.waiting = ((pre ++ post).map Call.waiting).sum + batch.workloads.length := by
      unfold Process.waiting
      rw [hc, sum_calls]
      rfl
    omega
  | gone _ _ ended => exact .inr ⟨_, _, _, rfl, .inr (.writerUnavailable ended)⟩
  | drainMany n hw some room there =>
    unfold Process.drained
    split <;> exact .inl rfl
  | _ => exact .inl rfl

namespace Since

variable {g₀ : Process} {rows : Nat}

theorem steps (since : Since g₀ rows g) : Relation.ReflTransGen ProcessStep g₀ g := by
  induction since with
  | here => exact .refl
  | next _ hstep _ ih => exact ih.tail hstep

theorem healthy (since : Since g₀ rows g) (h : g₀.healthy = true) : g.healthy = true := by
  cases since with
  | here => exact h
  | next _ _ healthy => exact healthy

theorem capacity (since : Since g₀ rows g) : g.capacity = g₀.capacity := by
  induction since with
  | here => rfl
  | next _ hstep _ ih => exact (settings_step hstep.2).1.trans ih

theorem room (since : Since g₀ rows g) : g.used + g.waiting ≤ g₀.used + rows := by
  induction since with
  | here => exact Nat.le_refl _
  | next _ hstep _ ih =>
    have hroom := room_step hstep.2
    omega

end Since

/-- **A ready gateway refuses no request for a while.** From a state in which `/ready` answers 200,
over every interleaving of the handlers with the writer task and `main`: until an insert fails, or
more rows have asked for room than a fifth of the channel, every request that is answered is
accepted, or refused for its token or its schema. None is answered 503, and no handler panics. -/
theorem ready_keeps_room (run : Relation.ReflTransGen ProcessStep
    (.start channelSize batchSize expectedBearer) g) (ready : g.readinessCheck = 200) {rows : Nat}
    (since : Since g rows g') (few : 5 * rows ≤ g.capacity) :
    ∃ later, g'.answers = g.answers ++ later ∧ (∀ e ∈ later, Answered e.2.1 e.2.2) ∧
      g'.panics = 0 := by
  obtain ⟨flag, free, -⟩ := (probes run).2.1.mp ready
  have panics := (requests_run (run.trans since.steps)).panics
  suffices h : ∃ later, g'.answers = g.answers ++ later ∧ ∀ e ∈ later, Answered e.2.1 e.2.2 by
    obtain ⟨later, hlater, hall⟩ := h
    exact ⟨later, hlater, hall, panics⟩
  clear panics
  induction since with
  | here => exact ⟨[], (List.append_nil _).symm, fun e he => absurd he List.not_mem_nil⟩
  | @next rows x x' since hstep healthy ih =>
    obtain ⟨later, hlater, hall⟩ := ih (by omega)
    have room := since.room
    have capacity := since.capacity
    rcases answers_step hstep.2 with hsame | ⟨id, batch, a, hnew, hanswer⟩
    · exact ⟨later, hsame.trans hlater, hall⟩
    · -- the flag is true, there is room and the writer is there, so nothing is refused
      have hans : Answered batch a := by
        rcases hanswer with hans | hrefused
        · exact hans
        · cases hrefused with
          | unavailable unhealthy =>
            rw [since.healthy flag] at unhealthy
            cases unhealthy
          | bufferFull full => omega
          | writerUnavailable gone =>
            exact absurd gone (not_ended (looping_run (run.trans since.steps)))
      refine ⟨later ++ [(id, batch, a)], ?_, ?_⟩
      · rw [hnew, hlater, List.append_assoc]
      · intro e he
        rcases List.mem_append.mp he with he | he
        · exact hall e he
        · rw [List.mem_singleton.mp he]
          exact hans

/-- A request is accepted by a gateway that was ready. -/
theorem ready_keeps_room_one_row : ∃ g g' rows,
    Relation.ReflTransGen ProcessStep (.start 0 0 none) g ∧ g.readinessCheck = 200 ∧
      Since g rows g' ∧ 5 * rows ≤ g.capacity ∧ g'.answers = [(0, oneRow, .inner .ok)] ∧
      ∃ later, g'.answers = g.answers ++ later ∧ ∀ e ∈ later, Answered e.2.1 e.2.2 := by
  let t : Tagged := ⟨0, 0, .fromIngest oneRow (Aggregator.rowOf 7 {})⟩
  let arrived : Process := { pingedGateway with calls := [.arrived 0 oneRow], nextId := 1 }
  let checked : Process := { arrived with calls := [.checked 0 oneRow] }
  let reserved : Process := { arrived with calls := [.sending 0 oneRow 0 1] }
  let sent : Process := { arrived with
    calls := [.sending 0 oneRow 1 0], queue := [t], sent := [t] }
  let g' : Process := { sent with calls := [], answers := [(0, oneRow, .inner .ok)] }
  have harrive : ProcessStep pingedGateway arrived := ⟨rfl, .arrive oneRow none rfl (Or.inl rfl)⟩
  have ha : arrived.calls = [] ++ Call.arrived 0 oneRow :: [] := rfl
  have hc : checked.calls = [] ++ Call.checked 0 oneRow :: [] := rfl
  have hr : reserved.calls = [] ++ Call.sending 0 oneRow 0 (0 + 1) :: [] := rfl
  have hs : sent.calls = [] ++ Call.sending 0 oneRow 1 0 :: [] := rfl
  have hcheck : ProcessStep arrived checked := ⟨rfl, .check ha (by decide) rfl⟩
  have hreserve : ProcessStep checked reserved :=
    ⟨rfl, .reserve hc (by decide) (fun e => nomatch e) (by decide)⟩
  have hsend : ProcessStep reserved sent := ⟨rfl, .send hr (by decide)⟩
  have hsent : ProcessStep sent g' := ⟨rfl, .sent hs (by decide)⟩
  have ready : pingedGateway.readinessCheck = 200 :=
    (readinessCheck_iff (looping_run pinged_run) (by decide)).mpr ⟨rfl, by decide, by decide⟩
  have since : Since pingedGateway 1 g' :=
    .next (.next (.next (.next (.next .here harrive rfl) hcheck rfl) hreserve rfl) hsend rfl)
      hsent rfl
  have few : 5 * 1 ≤ pingedGateway.capacity := by decide
  obtain ⟨later, hlater, hall, -⟩ := ready_keeps_room pinged_run ready since few
  exact ⟨pingedGateway, g', 1, pinged_run, ready, since, few, rfl, later, hlater, hall⟩

end Statix.Gateway
