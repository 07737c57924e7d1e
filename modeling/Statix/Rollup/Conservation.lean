import Statix.Rollup.Sampler

/-!
# CPU time is conserved

The CPU time reported of a cgroup, over all batches and the active map, against its readings.

* `cpu_run`: over any run of calls, what is reported is what was ingested.
* `ingested_spent`: over the prime and the ticks, what is ingested is what the readings rose by
  inside each stretch of calls that found the cgroup.
* **`cpu_conservation`**: the two together, for every interleaving with events and flushes.
-/

namespace Statix.Rollup

open Statix.Lib

/-! ## What is reported -/

/-- The CPU time of a cgroup over the rows of a batch. -/
def cpuIn (c : Nat) (b : BatchPayload) : Nat :=
  ((b.workloads.filter fun row => row.cgroupId = c).map WorkloadRow.cpuUsageUsec).sum

/-- The CPU time of a cgroup in the active map. -/
def activeCpu (c : Nat) (a : Aggregator) : Nat :=
  ((a.buffers a.active).lookup c).elim 0 WorkloadStats.cpuUsageUsec

theorem filter_key {α κ : Type} [DecidableEq κ] (key : α → κ) : ∀ {l : List α} {x : α},
    (l.map key).Nodup → x ∈ l → l.filter (fun y => key y = key x) = [x]
  | y :: l, x, hd, hx => by
    rw [List.map_cons, List.nodup_cons] at hd
    rcases List.mem_cons.mp hx with rfl | hx
    · rw [List.filter_cons_of_pos (by simp), List.filter_eq_nil_iff.mpr fun z hz e => hd.1 ?_]
      exact List.mem_map.mpr ⟨z, hz, of_decide_eq_true e⟩
    · have hne : key y ≠ key x := fun e => hd.1 (e ▸ List.mem_map_of_mem hx)
      rw [List.filter_cons_of_neg (by simp [hne])]
      exact filter_key key hd.2 hx

/-- A batch reports the deltas of its window. -/
theorem cpuIn_rollup {w : List Call} {b : BatchPayload} (h : IsRollup w b) (c : Nat) :
    cpuIn c b = min (cpuDeltas c w).sum u64Max := by
  unfold cpuIn
  by_cases hc : touches c w = []
  · have hnone : b.workloads.filter (fun row => row.cgroupId = c) = [] := by
      refine List.filter_eq_nil_iff.mpr fun row hrow e => ?_
      obtain ⟨c', hne, rfl⟩ := (h.rows row).mp hrow
      obtain rfl : c' = c := of_decide_eq_true e
      exact hne hc
    rw [hnone]
    simp [cpuDeltas, hc, deltas]
  · have hrow := (h.rows _).mpr ⟨c, hc, rfl⟩
    have hone := filter_key WorkloadRow.cgroupId h.distinct hrow
    have hkey : (fun row : WorkloadRow => decide (row.cgroupId = c)) = fun row =>
        decide (row.cgroupId = (Aggregator.rowOf c (rollup (touches c w))).cgroupId) := rfl
    rw [hkey, hone]
    simp [Aggregator.rowOf, rollup, cpuDeltas]

theorem activeCpu_held {a : Aggregator} {w : List Call} (h : AggregatorInv a w) (c : Nat) :
    activeCpu c a = min (cpuDeltas c w).sum u64Max := by
  unfold activeCpu
  rw [h.held]
  split
  · rename_i hc
    simp [cpuDeltas, hc, deltas]
  · rfl

/-- **What is reported is what was ingested**, as long as it fits in 64 bits. -/
theorem cpu_run (env : Env) (c : Nat) (calls : List Call) {a : Aggregator} {cur : List Call}
    (h : AggregatorInv a cur) (hle : (cpuDeltas c (cur ++ calls)).sum ≤ u64Max) :
    ((batches (a.run env calls).2).map (cpuIn c)).sum + activeCpu c (a.run env calls).1 =
      (cpuDeltas c (cur ++ calls)).sum := by
  induction calls generalizing a cur with
  | nil =>
    rw [List.append_nil] at *
    rw [Aggregator.run, activeCpu_held h, Nat.min_eq_left hle]
    exact Nat.zero_add _
  | cons call rest ih =>
    rw [List.append_cons] at hle ⊢
    rw [Aggregator.run]
    rcases call_spec env h call with ⟨hnone, hinv⟩ | ⟨b, hsome, hroll, hinv⟩
    · simp only [hnone]
      exact ih hinv hle
    · rw [cpuDeltas_append, List.sum_append] at hle ⊢
      have ih := ih hinv (by rw [List.nil_append]; omega)
      rw [List.nil_append] at ih
      have hb : cpuIn c b = (cpuDeltas c (cur ++ [call])).sum := by
        rw [cpuIn_rollup hroll]
        omega
      simp only [hsome]
      rw [batches_closed, List.map_cons, List.sum_cons, hb, ← ih, Nat.add_assoc]

/-! ## The main loop -/

/-- What the loop does besides sampling. -/
inductive Other where
  | event (event : StatixEvent) (labels : WorkloadLabels) (node : String)
  | flush (node : String)

/-- A step of the loop. -/
inductive Op where
  | tick (labels : TickLabels) (readings : Option Readings)
  | other (o : Other)

def Other.call : Other → Call
  | .event e labels node => .event e labels node
  | .flush node => .flush node

/-- The sampler, the aggregator and the batches emitted so far. -/
structure Loop where
  baseline : Baseline
  aggregator : Aggregator
  emitted : List BatchPayload

def Loop.other (env : Env) (s : Loop) (o : Other) : Loop :=
  let (a, out) := s.aggregator.call env o.call
  { s with aggregator := a, emitted := s.emitted ++ out.toList }

def Loop.step (env : Env) (s : Loop) : Op → Loop
  | .tick labels readings =>
    let t := tick env labels readings s.baseline s.aggregator
    ⟨t.baseline, t.aggregator, s.emitted ++ t.earlyBatches⟩
  | .other o => s.other env o

/-- A new sampler and aggregator, `before` the prime only events and flushes, then the prime, then
the loop. -/
def Loop.run (env : Env) (maxKeys : Nat) (before : List Other) (primed : Readings) (ops : List Op) :
    Loop :=
  let s := before.foldl (Loop.other env) ⟨fun _ => none, { Aggregator.new env with maxKeys }, []⟩
  ops.foldl (Loop.step env) { s with baseline := prime primed }

/-- What was reported of a cgroup: in the batches emitted and in the active map. -/
def Loop.reported (s : Loop) (c : Nat) : Nat :=
  (s.emitted.map (cpuIn c)).sum + activeCpu c s.aggregator

/-- What a step that counts found of a cgroup. A tick whose blocking task failed does not count. -/
def Op.found (c : Nat) : Op → Option (Option (Option Nat))
  | .tick _ (some rs) => some (presence c rs.list)
  | _ => none

/-- What the prime and the counted ticks found of a cgroup, in order. -/
def findings (c : Nat) (primed : Readings) (ops : List Op) : List (Option (Option Nat)) :=
  presence c primed.list :: ops.filterMap (Op.found c)

/-- The successful readings of a stretch. -/
def successes (g : List (Option Nat)) : List Nat := g.filterMap id

/-- What the readings rose by, stretch by stretch. -/
def spent (found : List (Option (Option Nat))) : Nat :=
  ((stretches found).map fun g => risen (successes g)).sum

/-- The latest successful reading of the stretch that is still open. -/
def latest (found : List (Option (Option Nat))) : Option Nat :=
  (successes (stretchesOpen found).2).getLast?

/-! ## What is ingested -/

theorem spent_eq (found : List (Option (Option Nat))) : spent found =
    ((stretchesOpen found).1.map fun g => risen (successes g)).sum +
      risen (successes (stretchesOpen found).2) := by
  simp [spent, stretches]

theorem successes_snoc (g : List (Option Nat)) (x : Option Nat) :
    successes (g ++ [x]) = successes g ++ x.toList := by
  cases x <;> simp [successes]

/-- **One more finding**: a rise over the latest reading of the stretch, if it is a reading and
there is one. -/
theorem spent_snoc (found : List (Option (Option Nat))) (x : Option (Option Nat)) :
    spent (found ++ [x]) =
      spent found + ((x.join.bind fun usage => (latest found).map (usage - ·)).getD 0) ∧
    latest (found ++ [x]) = x.bind fun p => p.or (latest found) := by
  unfold latest
  rw [spent_eq, spent_eq, stretchesOpen_snoc]
  cases x with
  | none => simp [stretch, successes, risen]
  | some p =>
    simp only [stretch, successes_snoc]
    cases p with
    | none => simp
    | some usage =>
      simp only [Option.toList_some, risen_snoc, Option.join_some, Option.bind_some,
        List.getLast?_concat]
      cases (successes (stretchesOpen found).2).getLast? <;> simp [Nat.add_assoc]

/-- The calls of a step. -/
def Op.calls (b : Baseline) : Op → List Call
  | .tick labels readings => tickCalls labels readings b
  | .other o => [o.call]

/-- The baseline after a step. -/
def Op.rebase (b : Baseline) : Op → Baseline
  | .tick _ readings => rebaseTick readings b
  | .other _ => b

/-- The calls of a run. -/
def callsOf : Baseline → List Op → List Call
  | _, [] => []
  | b, op :: ops => op.calls b ++ callsOf (op.rebase b) ops

theorem cpuDeltas_other (c : Nat) (o : Other) : cpuDeltas c [o.call] = [] := by
  refine cpuDeltas_single fun t ht => ?_
  cases o with
  | event e labels node =>
    simp only [Other.call, Call.touch?] at ht
    split at ht
    · rw [← Option.some.inj ht]
      rfl
    · split at ht
      · rw [← Option.some.inj ht]
        rfl
      · cases ht
  | flush node => cases ht

/-- **What is ingested is what the readings rose by.** -/
theorem ingested_spent (c : Nat) (ops : List Op) (b : Baseline)
    (found : List (Option (Option Nat))) (h : b c = latest found) :
    spent found + (cpuDeltas c (callsOf b ops)).sum =
      spent (found ++ ops.filterMap (Op.found c)) := by
  induction ops generalizing b found with
  | nil => simp [callsOf, cpuDeltas, touches, deltas]
  | cons op ops ih =>
    rw [callsOf, cpuDeltas_append, List.sum_append]
    cases op with
    | other o =>
      rw [Op.calls, cpuDeltas_other, List.sum_nil, Nat.zero_add]
      exact ih b found h
    | tick labels readings =>
      cases readings with
      | none =>
        have hnil : cpuDeltas c (Op.calls b (.tick labels none)) = [] := rfl
        rw [hnil, List.sum_nil, Nat.zero_add]
        exact ih b found h
      | some rs =>
        obtain ⟨hdelta, hbase⟩ := tick_cgroup c labels rs b
        obtain ⟨hspent, hlatest⟩ := spent_snoc found (presence c rs.list)
        have ih := ih (rebaseTick (some rs) b) (found ++ [presence c rs.list])
          (by rw [hbase, hlatest, h])
        have hsum : (cpuDeltas c (tickCalls labels (some rs) b)).sum =
            ((presence c rs.list).join.bind fun usage =>
              (latest found).map (usage - ·)).getD 0 := by
          rw [hdelta, h]
          cases (presence c rs.list).join.bind fun usage => (latest found).map (usage - ·) <;> simp
        have hfound : (Op.tick labels (some rs) :: ops).filterMap (Op.found c) =
            presence c rs.list :: ops.filterMap (Op.found c) := rfl
        rw [Op.calls, hsum, ← Nat.add_assoc, ← hspent, hfound]
        exact ih.trans (congrArg spent (List.append_cons _ _ _).symm)

/-! ## Whole runs -/

/-- A step is a run of its calls. -/
theorem Loop.step_eq (env : Env) (s : Loop) (op : Op) : s.step env op =
    ⟨op.rebase s.baseline, (s.aggregator.run env (op.calls s.baseline)).1,
      s.emitted ++ batches (s.aggregator.run env (op.calls s.baseline)).2⟩ := by
  cases op with
  | tick labels readings =>
    rw [Loop.step, tick_eq]
    rfl
  | other o =>
    rw [Loop.step, Loop.other]
    simp only [Op.calls, Op.rebase, Aggregator.run, batches, List.filterMap_cons,
      List.filterMap_nil]
    cases (s.aggregator.call env o.call).2 <;> rfl

theorem Loop.steps_eq (env : Env) (ops : List Op) (s : Loop) :
    (ops.foldl (Loop.step env) s).aggregator = (s.aggregator.run env (callsOf s.baseline ops)).1 ∧
    (ops.foldl (Loop.step env) s).emitted =
      s.emitted ++ batches (s.aggregator.run env (callsOf s.baseline ops)).2 := by
  induction ops generalizing s with
  | nil => exact ⟨rfl, (List.append_nil _).symm⟩
  | cons op ops ih =>
    obtain ⟨ih₁, ih₂⟩ := ih (s.step env op)
    rw [List.foldl_cons, callsOf, run_append, batches_append]
    rw [ih₁, ih₂, Loop.step_eq]
    exact ⟨rfl, List.append_assoc _ _ _⟩

theorem Loop.others_eq (env : Env) (before : List Other) (s : Loop) :
    before.foldl (Loop.other env) s = ⟨s.baseline,
      (s.aggregator.run env (before.map Other.call)).1,
      s.emitted ++ batches (s.aggregator.run env (before.map Other.call)).2⟩ := by
  induction before generalizing s with
  | nil => simp [Aggregator.run, batches]
  | cons o before ih =>
    have hstep : s.other env o = _ := Loop.step_eq env s (.other o)
    have hcons : (o :: before).map Other.call = [o.call] ++ before.map Other.call := rfl
    rw [List.foldl_cons, ih, hstep, hcons, run_append, batches_append,
      ← List.append_assoc]
    rfl

theorem cpuDeltas_before (c : Nat) (before : List Other) :
    cpuDeltas c (before.map Other.call) = [] := by
  induction before with
  | nil => rfl
  | cons o before ih =>
    have hcons : (o :: before).map Other.call = [o.call] ++ before.map Other.call := rfl
    rw [hcons, cpuDeltas_append, cpuDeltas_other, ih, List.append_nil]

/-- **CPU time is conserved.** For every run of a prime and ticks, interleaved with events and
flushes, and every cgroup whose readings rose by less than 2^64 in all: the CPU time reported of it,
in the batches and in the active map, is what its successful readings rose by inside each maximal
stretch of counted calls that found it; in a stretch without a fall this is the last reading less
the first. -/
theorem cpu_conservation (env : Env) (maxKeys : Nat) (before : List Other) (primed : Readings)
    (ops : List Op) (c : Nat) (fits : spent (findings c primed ops) < 2 ^ 64) :
    (Loop.run env maxKeys before primed ops).reported c =
      ((stretches (findings c primed ops)).map fun g => risen (successes g)).sum ∧
    ∀ g ∈ stretches (findings c primed ops), (successes g).Pairwise (· ≤ ·) →
      risen (successes g) = (successes g).getLast?.getD 0 - (successes g).head?.getD 0 := by
  refine ⟨?_, fun g _ hg => risen_sorted hg⟩
  show _ = spent (findings c primed ops)
  -- what is ingested
  have hprime : prime primed c = latest [presence c primed.list] := by
    have h := foldl_rebase c primed.list (fun _ => none) primed.distinct
    refine Eq.trans h ?_
    rw [show [presence c primed.list] = [] ++ [presence c primed.list] from rfl, (spent_snoc _ _).2]
    cases presence c primed.list with
    | none => rfl
    | some p => rfl
  have hzero : spent [presence c primed.list] = 0 := by
    rw [show [presence c primed.list] = [] ++ [presence c primed.list] from rfl, (spent_snoc _ _).1]
    cases presence c primed.list with
    | none => rfl
    | some p => cases p <;> rfl
  have hingested := ingested_spent c ops _ _ hprime
  rw [hzero, Nat.zero_add] at hingested
  -- the calls of the run
  let a₀ : Aggregator := { Aggregator.new env with maxKeys := maxKeys }
  let calls := before.map Other.call ++ callsOf (prime primed) ops
  have hsum : (cpuDeltas c ([] ++ calls)).sum = spent (findings c primed ops) := by
    rw [List.nil_append, cpuDeltas_append, cpuDeltas_before, List.nil_append]
    exact hingested
  have hrun := cpu_run env c calls (aggregatorInv_new env maxKeys)
    (by rw [hsum]; exact Nat.le_pred_of_lt fits)
  rw [hsum] at hrun
  rw [← hrun, run_append, batches_append]
  unfold Loop.run Loop.reported
  rw [Loop.others_eq]
  obtain ⟨h₁, h₂⟩ := Loop.steps_eq env ops ⟨prime primed,
    (a₀.run env (before.map Other.call)).1, batches (a₀.run env (before.map Other.call)).2⟩
  rw [← h₁, ← h₂]
  rfl

/-- A cgroup read at 100 and 150, gone for a tick, then read at 300 and 310. -/
theorem cpu_conservation_gap : ∃ (env : Env) (primed : Readings) (ops : List Op),
    stretches (findings 7 primed ops) = [[some 100, some 150], [some 300, some 310]] ∧
    (Loop.run env 2 [] primed ops).reported 7 = 60 := by
  let env : Env := ⟨id, fun _ => "b"⟩
  let labels : TickLabels := ⟨fun _ => {}, fun _ => {}, "n"⟩
  let read (usage : Nat) : Readings := ⟨[⟨7, some 1, some usage⟩], List.nodup_singleton _⟩
  let ops : List Op := [.tick labels (some (read 150)), .other (.flush "n"),
    .tick labels (some ⟨[], List.nodup_nil⟩), .tick labels (some (read 300)),
    .tick labels (some (read 310))]
  exact ⟨env, read 100, ops, rfl, (cpu_conservation env 2 [] (read 100) ops 7 (by decide)).1⟩

end Statix.Rollup
