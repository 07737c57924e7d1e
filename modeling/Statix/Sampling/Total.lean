import Mathlib.Algebra.BigOperators.Fin
import Statix.Rollup.Conservation

/-!
# All CPU time that is reported

The CPU time of all cgroups together, in the batches emitted and in the two maps of the aggregator
(`statix/src/aggregator.rs`): no call makes it grow by more than the delta it ingests.

* `call_cpuTotal`, `loop_tick`: one call, and one tick.
-/

namespace Statix.Rollup

variable {env : Env}

/-- The CPU time of all rows of a batch. -/
def batchCpu (b : BatchPayload) : Nat := (b.workloads.map WorkloadRow.cpuUsageUsec).sum

/-- The CPU time of all entries of a map. -/
def bufferCpu (b : Buffer) : Nat := (b.entries.map fun e => e.2.cpuUsageUsec).sum

/-- The CPU time of both maps. -/
def Aggregator.heldCpu (a : Aggregator) : Nat := ∑ i, bufferCpu (a.buffers i)

/-- The CPU time of everything emitted and held. -/
def Loop.cpuTotal (s : Loop) : Nat := (s.emitted.map batchCpu).sum + s.aggregator.heldCpu

/-- The CPU time a call ingests. -/
def Call.cpuDelta : Call → Nat
  | .cpuSample _ delta _ _ => delta
  | _ => 0

/-! ## One call -/

/-- An entry is replaced. -/
theorem bufferCpu_insert (b : Buffer) (c : Nat) (s : WorkloadStats) :
    bufferCpu (b.insert c s) + ((b.lookup c).getD {}).cpuUsageUsec =
      bufferCpu b + s.cpuUsageUsec := by
  have hinsert : bufferCpu (b.insert c s) =
      s.cpuUsageUsec + ((b.entries.kerase c).map fun e => e.2.cpuUsageUsec).sum := by
    unfold bufferCpu
    rw [AList.entries_insert, List.map_cons, List.sum_cons]
  have herase : ((b.entries.kerase c).map fun e => e.2.cpuUsageUsec).sum +
      ((b.lookup c).getD {}).cpuUsageUsec = bufferCpu b := by
    by_cases hc : c ∈ b.entries.keys
    · obtain ⟨old, before, after, hfirst, hsplit, hrest⟩ := List.exists_of_kerase hc
      have hlook : b.lookup c = some old := by
        refine AList.mem_lookup_iff.mpr ?_
        rw [hsplit]
        exact List.mem_append_right _ List.mem_cons_self
      unfold bufferCpu
      rw [hlook, hrest, hsplit]
      simp only [List.map_append, List.map_cons, List.sum_append, List.sum_cons, Option.getD_some]
      omega
    · have hlook : b.lookup c = none := AList.lookup_eq_none.mpr hc
      rw [hlook, List.kerase_of_notMem_keys hc]
      exact Nat.add_zero _
  omega

theorem heldCpu_update (a : Aggregator) (i : Fin 2) (b : Buffer) :
    ({ a with buffers := Function.update a.buffers i b } : Aggregator).heldCpu +
      bufferCpu (a.buffers i) = a.heldCpu + bufferCpu b := by
  unfold Aggregator.heldCpu
  rw [Fin.sum_univ_two, Fin.sum_univ_two]
  have hi : i = 0 ∨ i = 1 := by
    revert i
    decide
  rcases hi with rfl | rfl <;> simp <;> omega

/-- An entry changes. -/
theorem heldCpu_updateEntry (a : Aggregator) (c : Nat) {f : WorkloadStats → WorkloadStats}
    {delta : Nat} (hf : ∀ s, (f s).cpuUsageUsec ≤ s.cpuUsageUsec + delta) :
    (a.updateEntry c f).heldCpu ≤ a.heldCpu + delta := by
  have hheld := heldCpu_update a a.active
    ((a.buffers a.active).insert c (f (((a.buffers a.active).lookup c).getD {})))
  have hinsert := bufferCpu_insert (a.buffers a.active) c
    (f (((a.buffers a.active).lookup c).getD {}))
  have hf := hf (((a.buffers a.active).lookup c).getD {})
  unfold Aggregator.updateEntry
  simp only
  omega

/-- A flush moves the entries of the active map into its batch. -/
theorem heldCpu_flush (a : Aggregator) (env : Env) (node : String) :
    (a.flush env node).2.elim 0 batchCpu + (a.flush env node).1.heldCpu = a.heldCpu := by
  unfold Aggregator.flush
  simp only
  split
  · exact Nat.zero_add _
  · have hheld := heldCpu_update a a.active ∅
    have hrows : ((Aggregator.rowsOf (a.buffers a.active)).map WorkloadRow.cpuUsageUsec).sum =
        bufferCpu (a.buffers a.active) := by
      unfold Aggregator.rowsOf bufferCpu
      rw [List.map_map]
      rfl
    have hempty : bufferCpu ∅ = 0 := rfl
    simp only [Option.elim_some, batchCpu, Aggregator.resetWindow]
    rw [hrows]
    unfold Aggregator.heldCpu at hheld ⊢
    simp only at hheld ⊢
    omega

theorem heldCpu_tryEarlyFlush (a : Aggregator) (env : Env) (node : String) :
    (a.tryEarlyFlush env node).2.elim 0 batchCpu + (a.tryEarlyFlush env node).1.heldCpu =
      a.heldCpu := by
  unfold Aggregator.tryEarlyFlush
  split
  · exact heldCpu_flush a env node
  · exact Nat.zero_add _

/-- **No call makes it grow by more than the delta it ingests.** -/
theorem call_cpuTotal (a : Aggregator) (env : Env) (call : Call) :
    (a.call env call).2.elim 0 batchCpu + (a.call env call).1.heldCpu ≤
      a.heldCpu + call.cpuDelta := by
  cases call with
  | event e labels node =>
    unfold Aggregator.call Aggregator.onStatixEvent
    simp only
    rw [heldCpu_tryEarlyFlush]
    split
    · exact heldCpu_updateEntry a _ fun s => Nat.le_refl _
    · split
      · exact heldCpu_updateEntry a _ fun s => Nat.le_refl _
      · exact Nat.le_refl _
  | memorySample c bytes labels node =>
    unfold Aggregator.call Aggregator.ingestMemorySample
    simp only
    rw [heldCpu_tryEarlyFlush]
    exact heldCpu_updateEntry a _ fun s => Nat.le_refl _
  | cpuSample c delta labels node =>
    unfold Aggregator.call Aggregator.ingestCpuSample
    simp only
    rw [heldCpu_tryEarlyFlush]
    exact heldCpu_updateEntry a _ fun s => Nat.min_le_left _ _
  | flush node => exact Nat.le_of_eq (heldCpu_flush a env node)

theorem run_cpuTotal (env : Env) (calls : List Call) (a : Aggregator) :
    ((batches (a.run env calls).2).map batchCpu).sum + (a.run env calls).1.heldCpu ≤
      a.heldCpu + (calls.map Call.cpuDelta).sum := by
  induction calls generalizing a with
  | nil => exact Nat.le_of_eq (Nat.zero_add _)
  | cons call rest ih =>
    have hcall := call_cpuTotal a env call
    have ih := ih (a.call env call).1
    rw [Aggregator.run, List.map_cons, List.sum_cons]
    have hout : ((batches ((call, (a.call env call).2) ::
        ((a.call env call).1.run env rest).2)).map batchCpu).sum =
          (a.call env call).2.elim 0 batchCpu +
            ((batches ((a.call env call).1.run env rest).2).map batchCpu).sum := by
      unfold batches
      cases (a.call env call).2 with
      | none => exact (Nat.zero_add _).symm
      | some b => rfl
    simp only [hout]
    omega

/-! ## One tick -/

/-- The delta of a reading. -/
def deltaSum (b : Baseline) (rs : List Reading) : Nat :=
  (rs.map fun r => (deltaOf b r).getD 0).sum

theorem deltaSum_congr {b b' : Baseline} {rs : List Reading}
    (h : ∀ r ∈ rs, b r.cgroupId = b' r.cgroupId) : deltaSum b rs = deltaSum b' rs := by
  unfold deltaSum
  congr 1
  refine List.map_congr_left fun r hr => ?_
  unfold deltaOf
  rw [h r hr]

/-- The calls of a tick ingest the deltas over the baseline before it. -/
theorem cpuDelta_readingCalls (labels : TickLabels) {rs : List Reading} (b : Baseline)
    (hd : (rs.map Reading.cgroupId).Nodup) :
    ((readingCalls labels b rs).map Call.cpuDelta).sum = deltaSum b rs := by
  induction rs generalizing b with
  | nil => rfl
  | cons r rs ih =>
    rw [List.map_cons, List.nodup_cons] at hd
    have hmemory : ((memoryCall labels r).map Call.cpuDelta).sum = 0 := by
      unfold memoryCall
      cases r.memoryBytes <;> rfl
    have hcpu : ((cpuCall labels b r).map Call.cpuDelta).sum = (deltaOf b r).getD 0 := by
      unfold cpuCall
      cases deltaOf b r <;> rfl
    have hrest : deltaSum (rebase b r) rs = deltaSum b rs := by
      refine deltaSum_congr fun r' hr' => rebase_ne (fun e => hd.1 ?_) b
      exact e ▸ List.mem_map_of_mem hr'
    rw [readingCalls, List.map_append, List.map_append, List.sum_append, List.sum_append, hmemory,
      hcpu, ih (rebase b r) hd.2, hrest, Nat.zero_add]
    unfold deltaSum
    rw [List.map_cons, List.sum_cons]

/-- A step of the loop adds what its calls ingest. -/
theorem loop_step (env : Env) (s : Loop) (op : Op) : (s.step env op).cpuTotal ≤
    s.cpuTotal + ((op.calls s.baseline).map Call.cpuDelta).sum := by
  have hrun := run_cpuTotal env (op.calls s.baseline) s.aggregator
  rw [Loop.step_eq]
  unfold Loop.cpuTotal
  simp only [List.map_append, List.sum_append]
  omega

/-- **What a tick adds** is at most the deltas of its readings. -/
theorem loop_tick (env : Env) (s : Loop) (labels : TickLabels) (rs : Readings) :
    (s.step env (.tick labels (some rs))).cpuTotal ≤ s.cpuTotal + deltaSum s.baseline rs.list := by
  have hdelta : ((tickCalls labels (some rs) s.baseline).map Call.cpuDelta).sum =
      deltaSum s.baseline rs.list := by
    unfold tickCalls
    simp only
    rw [cpuDelta_readingCalls labels _ rs.distinct]
    exact deltaSum_congr fun r hr => if_pos (List.mem_map_of_mem hr)
  rw [← hdelta]
  exact loop_step env s (.tick labels (some rs))

theorem loop_other (env : Env) (s : Loop) (o : Other) :
    (s.other env o).cpuTotal ≤ s.cpuTotal := by
  have hzero : (((Op.other o).calls s.baseline).map Call.cpuDelta).sum = 0 := by cases o <;> rfl
  have hstep := loop_step env s (.other o)
  rwa [hzero] at hstep

end Statix.Rollup
