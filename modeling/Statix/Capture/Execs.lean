import Statix.Capture.Ring
import Statix.Rollup.Conservation

/-!
# Execs from the tracepoint to the rows

The ring buffer in front of the aggregator: the main loop calls `on_statix_event` on every event it
drains (`statix/src/main.rs`), between any other calls on the aggregator
(`statix/src/aggregator.rs`).

* `reported_run`: a count that adds up over windows is reported as a whole, for any such count.
* **`execs_conserved`**: the execs of a cgroup are the exec counts of its rows, and those that are
  still in the active map, in the ring, or dropped.
-/

namespace Statix.Rollup

open Statix.Lib

variable {env : Env} {c : Nat}

/-! ## What a run reports -/

/-- **What is counted is reported**: a count that adds up over windows, if every batch reports that
of its window and the active map holds that of the open one. -/
theorem reported_run (env : Env) (count : List Call → Nat) (out : BatchPayload → Nat)
    (held : Aggregator → Nat) (bound : Nat)
    (hadd : ∀ xs ys, count (xs ++ ys) = count xs + count ys)
    (hout : ∀ {w b}, IsRollup w b → count w ≤ bound → out b = count w)
    (hheld : ∀ {a w}, AggregatorInv a w → count w ≤ bound → held a = count w)
    (calls : List Call) {a : Aggregator} {cur : List Call} (h : AggregatorInv a cur)
    (hle : count (cur ++ calls) ≤ bound) :
    ((batches (a.run env calls).2).map out).sum + held (a.run env calls).1 =
      count (cur ++ calls) := by
  induction calls generalizing a cur with
  | nil =>
    rw [List.append_nil] at *
    rw [Aggregator.run, hheld h hle]
    exact Nat.zero_add _
  | cons call rest ih =>
    rw [List.append_cons] at hle ⊢
    rw [Aggregator.run]
    rcases call_spec env h call with ⟨hnone, hinv⟩ | ⟨b, hsome, hroll, hinv⟩
    · simp only [hnone]
      exact ih hinv hle
    · rw [hadd] at hle ⊢
      have ih := ih hinv (by rw [List.nil_append]; omega)
      rw [List.nil_append] at ih
      simp only [hsome]
      rw [batches_closed, List.map_cons, List.sum_cons, hout hroll (by omega), Nat.add_assoc, ih]

/-! ## Exec counts -/

/-- The execs of a cgroup over the rows of a batch. -/
def execsIn (c : Nat) (b : BatchPayload) : Nat :=
  ((b.workloads.filter fun row => row.cgroupId = c).map WorkloadRow.execCount).sum

/-- The execs of a cgroup in the active map. -/
def activeExecs (c : Nat) (a : Aggregator) : Nat :=
  ((a.buffers a.active).lookup c).elim 0 WorkloadStats.execCount

/-- The execs of a cgroup among calls. -/
def execTouches (c : Nat) (w : List Call) : Nat :=
  (touches c w).countP fun t => t.sample = .exec

theorem execTouches_append (c : Nat) (xs ys : List Call) :
    execTouches c (xs ++ ys) = execTouches c xs + execTouches c ys := by
  simp [execTouches, touches]

theorem execsIn_rollup {w : List Call} {b : BatchPayload} (h : IsRollup w b)
    (hle : execTouches c w ≤ u32Max) : execsIn c b = execTouches c w := by
  unfold execsIn
  by_cases hc : touches c w = []
  · have hnone : b.workloads.filter (fun row => row.cgroupId = c) = [] := by
      refine List.filter_eq_nil_iff.mpr fun row hrow e => ?_
      obtain ⟨c', hne, rfl⟩ := (h.rows row).mp hrow
      obtain rfl : c' = c := of_decide_eq_true e
      exact hne hc
    rw [hnone]
    simp [execTouches, hc]
  · have hone : b.workloads.filter (fun row => row.cgroupId = c) =
        [Aggregator.rowOf c (rollup (touches c w))] :=
      filter_key WorkloadRow.cgroupId h.distinct ((h.rows _).mpr ⟨c, hc, rfl⟩)
    rw [hone]
    simpa [Aggregator.rowOf, rollup, execTouches] using hle

theorem activeExecs_held {a : Aggregator} {w : List Call} (h : AggregatorInv a w)
    (hle : execTouches c w ≤ u32Max) : activeExecs c a = execTouches c w := by
  unfold activeExecs
  rw [h.held]
  split
  · next hc => simp [execTouches, hc]
  · exact Nat.min_eq_left hle

/-- The event of a call of `on_statix_event`. -/
def Call.ringEvent? : Call → Option StatixEvent
  | .event e _ _ => some e
  | _ => none

/-- An exec of a cgroup. -/
def StatixEvent.isExecOf (c : Nat) (e : StatixEvent) : Bool :=
  e.kind = eventKindWorkloadIdentity && e.cgroupId = c

theorem execTouches_single (c : Nat) (call : Call) :
    execTouches c [call] = (call.ringEvent?.toList).countP (StatixEvent.isExecOf c) := by
  cases call with
  | event e labels node =>
    by_cases hk : e.kind = eventKindWorkloadIdentity
    · by_cases hc : e.cgroupId = c <;>
        simp [execTouches, touches, Call.touch?, Call.ringEvent?, StatixEvent.isExecOf, hk, hc]
    · have hkinds : eventKindMemorySample ≠ eventKindWorkloadIdentity := by decide
      by_cases hm : e.kind = eventKindMemorySample <;> by_cases hc : e.cgroupId = c <;>
        simp [execTouches, touches, Call.touch?, Call.ringEvent?, StatixEvent.isExecOf, hk, hm, hc,
          hkinds]
  | memorySample d bytes labels node =>
    by_cases hc : d = c <;> simp [execTouches, touches, Call.touch?, Call.ringEvent?, hc]
  | cpuSample d delta labels node =>
    by_cases hc : d = c <;> simp [execTouches, touches, Call.touch?, Call.ringEvent?, hc]
  | flush node => simp [execTouches, touches, Call.touch?, Call.ringEvent?]

theorem execTouches_events (c : Nat) (w : List Call) :
    execTouches c w = (w.filterMap Call.ringEvent?).countP (StatixEvent.isExecOf c) := by
  induction w with
  | nil => rfl
  | cons call w ih =>
    rw [← List.singleton_append, execTouches_append, ih, execTouches_single,
      List.filterMap_append, List.countP_append]
    cases h : call.ringEvent? <;> simp [h]

/-- **The rows report the execs they were given**, as long as they fit in 32 bits. -/
theorem reported_execs (env : Env) (maxKeys : Nat) (calls : List Call)
    (hle : (calls.filterMap Call.ringEvent?).countP (StatixEvent.isExecOf c) ≤ u32Max) :
    let r := Aggregator.run env { Aggregator.new env with maxKeys := maxKeys } calls
    ((batches r.2).map (execsIn c)).sum + activeExecs c r.1 =
      (calls.filterMap Call.ringEvent?).countP (StatixEvent.isExecOf c) := by
  rw [← execTouches_events] at hle ⊢
  have hrun := reported_run env (execTouches c) (execsIn c) (activeExecs c) u32Max
    (execTouches_append c) execsIn_rollup activeExecs_held calls (aggregatorInv_new env maxKeys)
  rw [List.nil_append] at hrun
  exact hrun hle

end Statix.Rollup

namespace Statix.Capture

open Relation
open Statix.Rollup

variable {cpus capacity : Nat} {s : RingState cpus}

/-- What the aggregator reads of an event. -/
def RingEvent.forAggregator (e : RingEvent) : StatixEvent where
  kind := e.kind.toNat
  cgroupId := e.cgroupId.toNat
  memoryBytes := e.memoryBytes.toNat

/-- An exec by a task of the cgroup. -/
def inCgroup (c : UInt64) (e : Fin cpus × Exec) : Bool := e.2.cgroupId = c

theorem isExecOf_eventOf (c : UInt64) (e : Fin cpus × Exec) :
    (eventOf e.1 e.2).forAggregator.isExecOf c.toNat = inCgroup c e := by
  unfold StatixEvent.isExecOf RingEvent.forAggregator eventOf inCgroup
  simp [eventKindWorkloadIdentity, UInt64.toNat_inj]

/-- **Every exec of a cgroup is accounted for.** Of every run of the ring buffer, and every run of
calls on a new aggregator in which the calls of `on_statix_event` are those of the events drained:
as long as the execs of a cgroup fit in 32 bits, they are what the rows of its batches count, and
those still in the active map, in the ring, or dropped. -/
theorem execs_conserved (run : ReflTransGen (Step capacity) (.start cpus) s) (env : Env)
    (maxKeys : Nat) (calls : List Rollup.Call)
    (drained : calls.filterMap Call.ringEvent? = s.delivered.map RingEvent.forAggregator)
    (c : UInt64) (fits : s.execs.countP (inCgroup c) < 2 ^ 32) :
    let r := Aggregator.run env { Aggregator.new env with maxKeys := maxKeys } calls
    s.execs.countP (inCgroup c) =
      ((batches r.2).map (execsIn c.toNat)).sum + activeExecs c.toNat r.1 +
        (s.captured.drop s.delivered.length).countP (inCgroup c) +
        s.dropped.countP (inCgroup c) := by
  have h := ringInv_run run
  have hgiven : (calls.filterMap Call.ringEvent?).countP (StatixEvent.isExecOf c.toNat) =
      (s.captured.take s.delivered.length).countP (inCgroup c) := by
    have hevents := congrArg (List.map RingEvent.forAggregator) h.delivered_eq
    rw [drained, hevents, List.map_map, List.countP_map]
    exact List.countP_congr fun e _ => by
      rw [Function.comp_apply, Function.comp_apply, isExecOf_eventOf]
  have hsum : s.execs.countP (inCgroup c) =
      (s.captured.take s.delivered.length).countP (inCgroup c) +
        (s.captured.drop s.delivered.length).countP (inCgroup c) +
        s.dropped.countP (inCgroup c) := by
    have htake := congrArg (List.countP (inCgroup c))
      (List.take_append_drop s.delivered.length s.captured)
    rw [List.countP_append] at htake
    rw [htake, h.split.countP_eq, List.countP_append]
  have hrun := reported_execs env maxKeys calls (c := c.toNat) (by
    rw [hgiven]
    unfold u32Max
    omega)
  intro r
  rw [hsum, ← hgiven, ← hrun]

/-- Three execs, of which one is dropped and one still in the ring. -/
theorem execs_conserved_three : ∃ (s : RingState 2) (calls : List Rollup.Call),
    s.execs.length = 3 ∧ calls.filterMap Call.ringEvent? =
      s.delivered.map RingEvent.forAggregator ∧
    3 = ((batches (Aggregator.run ⟨id, fun _ => "b"⟩ (.new ⟨id, fun _ => "b"⟩) calls).2).map
      (execsIn 7)).sum + activeExecs 7 (Aggregator.run ⟨id, fun _ => "b"⟩
        (.new ⟨id, fun _ => "b"⟩) calls).1 + 1 + 1 := by
  let x : Exec := ⟨0x200000001, 7, 10, none⟩
  let s₁ := (RingState.start 2).reserve 1 0 x
  let s₂ := s₁.reserve 1 1 x
  let s₃ := s₂.submit 0 x
  let s₄ := s₃.drain.take (eventOf (0 : Fin 2) x).bytes [] 0
  have run : ReflTransGen (Step 1) (.start 2) (s₄.reserve 1 1 x) :=
    (((((ReflTransGen.refl.tail (.exec 0 x rfl)).tail (.exec 1 x rfl)).tail
      (.submit 0 x rfl)).tail (.drain rfl)).tail (.next rfl (by decide) rfl rfl)).tail
        (.exec 1 x rfl)
  let calls : List Rollup.Call := [.flush "n", .event ⟨1, 7, 0⟩ {} "n", .flush "n"]
  have drained : calls.filterMap Call.ringEvent? =
      (s₄.reserve 1 1 x).delivered.map RingEvent.forAggregator := by decide +kernel
  have hcounts := execs_conserved run ⟨id, fun _ => "b"⟩ defaultMaxKeys calls drained 7 (by decide)
  have hexecs : (s₄.reserve 1 1 x).execs.countP (inCgroup 7) = 3 := by decide
  have hring : ((s₄.reserve 1 1 x).captured.drop (s₄.reserve 1 1 x).delivered.length).countP
      (inCgroup 7) = 1 := by decide +kernel
  have hdropped : (s₄.reserve 1 1 x).dropped.countP (inCgroup 7) = 1 := by decide +kernel
  simp only [hexecs, hring, hdropped] at hcounts
  exact ⟨_, calls, rfl, drained, hcounts⟩

end Statix.Capture
