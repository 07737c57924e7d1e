import Statix.Rollup.Aggregator

/-!
# Windows and their rollups

The batches an aggregator returns cut the calls made on it into windows, and each batch is the
rollup of its window: a plain fold over the calls, cgroup by cgroup.

* `placed`: each call with the number of its window.
* `rollup`: what the source keeps for one cgroup, said of the list of its touches in a window.
* `AggregatorInv`: the active map holds the rollup of the open window, the other one is empty.
* `call_spec`: what one call does.
* **`exact_rollup`**: the n-th batch is the rollup of the n-th window, over whole runs.
-/

namespace Statix.Rollup

/-! ## The rollup of a window -/

/-- What a call adds to a cgroup. -/
inductive Sample where
  | exec
  | memory (bytes : Nat)
  | cpu (deltaUsec : Nat)
  deriving DecidableEq

/-- A call that touches a cgroup. -/
structure Touch where
  cgroupId : Nat
  sample : Sample
  labels : WorkloadLabels
  deriving DecidableEq

/-- The touch of a call. A flush and an event of unknown kind touch nothing. -/
def Call.touch? : Call → Option Touch
  | .event e labels _ =>
    if e.kind = eventKindWorkloadIdentity then some ⟨e.cgroupId, .exec, labels⟩
    else if e.kind = eventKindMemorySample then some ⟨e.cgroupId, .memory e.memoryBytes, labels⟩
    else none
  | .memorySample c bytes labels _ => some ⟨c, .memory bytes, labels⟩
  | .cpuSample c delta labels _ => some ⟨c, .cpu delta, labels⟩
  | .flush _ => none

/-- The touches of cgroup `c` in a window. -/
def touches (c : Nat) (w : List Call) : List Touch :=
  (w.filterMap Call.touch?).filter fun t => t.cgroupId = c

def Sample.memory? : Sample → Option Nat
  | .memory bytes => some bytes
  | _ => none

def Sample.cpu? : Sample → Option Nat
  | .cpu delta => some delta
  | _ => none

/-- The memory samples among touches. -/
def memories (ts : List Touch) : List Nat := ts.filterMap fun t => t.sample.memory?

/-- The CPU deltas among touches. -/
def deltas (ts : List Touch) : List Nat := ts.filterMap fun t => t.sample.cpu?

/-- The rollup of the touches of one cgroup. -/
def rollup (ts : List Touch) : WorkloadStats where
  execCount := min (ts.countP fun t => t.sample = .exec) u32Max
  sampleCount := min (memories ts).length u32Max
  memoryBytesMax := (memories ts).max?.getD 0
  memoryBytesLast := (memories ts).getLast?.getD 0
  cpuUsageUsec := min (deltas ts).sum u64Max
  labels := (ts.getLast?.map Touch.labels).getD {}

/-- A batch holds exactly one row for each cgroup touched in the window: its rollup. -/
structure IsRollup (w : List Call) (b : BatchPayload) : Prop where
  distinct : (b.workloads.map WorkloadRow.cgroupId).Nodup
  rows : ∀ row, row ∈ b.workloads ↔
    ∃ c, touches c w ≠ [] ∧ row = Aggregator.rowOf c (rollup (touches c w))

/-- Each call of a trace with the number of its window, from `n` on: the batches returned before
it. -/
def placed : Nat → List (Call × Option BatchPayload) → List (Nat × Call)
  | _, [] => []
  | n, (c, out) :: rest => (n, c) :: placed (if out.isSome then n + 1 else n) rest

/-- The calls of window `n`. -/
def windowOf (n : Nat) (calls : List (Nat × Call)) : List Call :=
  (calls.filter fun e => e.1 = n).map Prod.snd

/-! ## A touch is a step of the rollup -/

/-- What a touch does to the entry of its cgroup. -/
def Touch.apply (t : Touch) (s : WorkloadStats) : WorkloadStats :=
  match t.sample with
  | .exec => s.addExec t.labels
  | .memory bytes => s.addMemory bytes t.labels
  | .cpu delta => s.addCpu delta t.labels

theorem saturatingAdd_min (top n d : Nat) : saturatingAdd top (min n top) d = min (n + d) top := by
  unfold saturatingAdd
  omega

theorem max_snoc (l : List Nat) (x : Nat) : (l ++ [x]).max?.getD 0 =
    if x > l.max?.getD 0 then x else l.max?.getD 0 := by
  cases l with
  | nil =>
    by_cases hx : x > 0
    · exact (if_pos hx).symm
    · exact (Nat.eq_zero_of_not_pos hx).trans (if_neg hx).symm
  | cons y l =>
    rw [List.cons_append, List.max?_cons', List.max?_cons', List.foldl_append]
    simp only [List.foldl_cons, List.foldl_nil, Option.getD_some]
    split <;> omega

/-- **The rollup is a fold.** -/
theorem rollup_snoc (ts : List Touch) (t : Touch) : rollup (ts ++ [t]) = t.apply (rollup ts) := by
  obtain ⟨c, sample, labels⟩ := t
  cases sample with
  | exec =>
    simp [rollup, Touch.apply, WorkloadStats.addExec, memories, deltas, Sample.memory?, Sample.cpu?,
      saturatingAdd_min]
  | memory bytes =>
    simp [rollup, Touch.apply, WorkloadStats.addMemory, memories, deltas, Sample.memory?,
      Sample.cpu?, saturatingAdd_min, max_snoc]
  | cpu delta =>
    simp [rollup, Touch.apply, WorkloadStats.addCpu, memories, deltas, Sample.memory?, Sample.cpu?,
      saturatingAdd_min]

theorem rollup_nil : rollup [] = {} := rfl

theorem touches_snoc (c : Nat) (w : List Call) (call : Call) :
    touches c (w ++ [call]) = touches c w ++ call.touch?.toList.filter fun t => t.cgroupId = c := by
  unfold touches
  rw [List.filterMap_append, List.filter_append]
  cases h : call.touch? <;> simp [h]

/-! ## The invariant -/

variable {env : Env} {a : Aggregator} {w : List Call}

/-- **What a run keeps**: the active map holds the rollup of the open window `w`. -/
structure AggregatorInv (a : Aggregator) (w : List Call) : Prop where
  held : ∀ c, (a.buffers a.active).lookup c =
    if touches c w = [] then none else some (rollup (touches c w))
  other : a.buffers (1 - a.active) = ∅

theorem one_sub_ne (i : Fin 2) : 1 - i ≠ i := by
  revert i
  decide

theorem one_sub_one_sub (i : Fin 2) : 1 - (1 - i) = i := by
  revert i
  decide

theorem update_one_sub {α : Type} (b : Fin 2 → α) (i : Fin 2) (x : α) :
    Function.update b i x (1 - i) = b (1 - i) := Function.update_of_ne (one_sub_ne i) x b

/-- A call that touches a cgroup. -/
theorem AggregatorInv.touch (h : AggregatorInv a w) {call : Call} {t : Touch}
    (ht : call.touch? = some t) :
    AggregatorInv (a.updateEntry t.cgroupId t.apply) (w ++ [call]) := by
  refine ⟨fun c => ?_, ?_⟩
  · rw [Aggregator.active_updateEntry, touches_snoc, ht]
    by_cases hc : c = t.cgroupId
    · subst hc
      have hold : ((a.buffers a.active).lookup t.cgroupId).getD {} =
          rollup (touches t.cgroupId w) := by
        rw [h.held]
        split
        · rename_i hnil
          rw [hnil, rollup_nil, Option.getD_none]
        · rw [Option.getD_some]
      rw [AList.lookup_insert, hold]
      simp [rollup_snoc]
    · rw [AList.lookup_insert_ne hc, h.held]
      simp [Ne.symm hc]
  · exact (update_one_sub _ _ _).trans h.other

/-- A call that touches nothing. -/
theorem AggregatorInv.idle (h : AggregatorInv a w) {call : Call} (ht : call.touch? = none) :
    AggregatorInv a (w ++ [call]) := by
  refine ⟨fun c => ?_, h.other⟩
  rw [h.held, touches_snoc, ht]
  simp

/-- The rows of the active map are the rollup of the window. -/
theorem isRollup_rowsOf (h : AggregatorInv a w) {b : BatchPayload}
    (hb : b.workloads = Aggregator.rowsOf (a.buffers a.active)) : IsRollup w b := by
  refine ⟨?_, fun row => ?_⟩
  · rw [hb]
    have hkeys := (a.buffers a.active).keys_nodup
    unfold Aggregator.rowsOf
    rw [List.map_map]
    exact hkeys
  · rw [hb]
    unfold Aggregator.rowsOf
    rw [List.mem_map]
    constructor
    · rintro ⟨⟨c, s⟩, hs, rfl⟩
      have hlook := AList.mem_lookup_iff.mpr hs
      rw [h.held] at hlook
      split at hlook
      · cases hlook
      · exact ⟨c, by assumption, by rw [← Option.some.inj hlook]⟩
    · rintro ⟨c, hne, rfl⟩
      refine ⟨⟨c, rollup (touches c w)⟩, AList.mem_lookup_iff.mp ?_, rfl⟩
      rw [h.held, if_neg hne]
      rfl

/-- What a call may do after its touch: return nothing and leave the window open, or return the
rollup of the window and open the next one. -/
def Rolls (w : List Call) (r : Aggregator × Option BatchPayload) : Prop :=
  (r.2 = none ∧ AggregatorInv r.1 w) ∨ ∃ b, r.2 = some b ∧ IsRollup w b ∧ AggregatorInv r.1 []

/-- **`flush` returns the rollup of the open window.** -/
theorem flush_spec (h : AggregatorInv a w) (node : String) : Rolls w (a.flush env node) := by
  unfold Aggregator.flush
  simp only
  split
  · exact Or.inl ⟨rfl, h.held, h.other⟩
  · -- the next window opens on the other map, and the one just drained becomes the other one
    have hnext : Function.update a.buffers a.active ∅ (1 - a.active) = ∅ :=
      (update_one_sub _ _ _).trans h.other
    have hdrained : Function.update a.buffers a.active ∅ (1 - (1 - a.active)) = ∅ := by
      rw [one_sub_one_sub, Function.update_self]
    exact Or.inr ⟨_, rfl, isRollup_rowsOf h rfl,
      fun c => (congrArg (AList.lookup c) hnext).trans (AList.lookup_empty c), hdrained⟩

theorem tryEarlyFlush_spec (h : AggregatorInv a w) (node : String) :
    Rolls w (a.tryEarlyFlush env node) := by
  unfold Aggregator.tryEarlyFlush
  split
  · exact flush_spec h node
  · exact Or.inl ⟨rfl, h⟩

/-- **One call**: its touch joins the open window, and a batch closes the window with it. -/
theorem call_spec (env : Env) (h : AggregatorInv a w) (c : Call) :
    Rolls (w ++ [c]) (a.call env c) := by
  cases c with
  | event e labels node =>
    refine tryEarlyFlush_spec ?_ node
    by_cases h1 : e.kind = eventKindWorkloadIdentity
    · rw [if_pos h1]
      exact h.touch (t := ⟨e.cgroupId, .exec, labels⟩) (by simp [Call.touch?, h1])
    · by_cases h2 : e.kind = eventKindMemorySample
      · rw [if_neg h1, if_pos h2]
        exact h.touch (t := ⟨e.cgroupId, .memory e.memoryBytes, labels⟩)
          (by simp [Call.touch?, h2, eventKindWorkloadIdentity, eventKindMemorySample])
      · rw [if_neg h1, if_neg h2]
        exact h.idle (by simp [Call.touch?, h1, h2])
  | memorySample c bytes labels node =>
    exact tryEarlyFlush_spec (h.touch (t := ⟨c, .memory bytes, labels⟩) rfl) node
  | cpuSample c delta labels node =>
    exact tryEarlyFlush_spec (h.touch (t := ⟨c, .cpu delta, labels⟩) rfl) node
  | flush node => exact flush_spec (h.idle rfl) node

/-! ## Whole runs -/

theorem batches_closed (c : Call) (b : BatchPayload) (rest : List (Call × Option BatchPayload)) :
    batches ((c, some b) :: rest) = b :: batches rest := rfl

theorem placed_open (k : Nat) (c : Call) (rest : List (Call × Option BatchPayload)) :
    placed k ((c, none) :: rest) = (k, c) :: placed k rest := rfl

theorem placed_closed (k : Nat) (c : Call) (b : BatchPayload)
    (rest : List (Call × Option BatchPayload)) :
    placed k ((c, some b) :: rest) = (k, c) :: placed (k + 1) rest := rfl

theorem placed_calls (n : Nat) (trace : List (Call × Option BatchPayload)) :
    (placed n trace).map Prod.snd = trace.map Prod.fst := by
  induction trace generalizing n with
  | nil => rfl
  | cons e rest ih => rw [placed, List.map_cons, ih, List.map_cons]

theorem placed_ge (n : Nat) (trace : List (Call × Option BatchPayload)) :
    ∀ e ∈ placed n trace, n ≤ e.1 := by
  induction trace generalizing n with
  | nil => exact fun e he => absurd he List.not_mem_nil
  | cons x rest ih =>
    intro e he
    rw [placed, List.mem_cons] at he
    rcases he with rfl | he
    · exact Nat.le_refl _
    · have := ih _ e he
      split at this <;> omega

/-- Windows are consecutive. -/
theorem placed_sorted (n : Nat) (trace : List (Call × Option BatchPayload)) :
    ((placed n trace).map Prod.fst).Pairwise (· ≤ ·) := by
  induction trace generalizing n with
  | nil => exact List.Pairwise.nil
  | cons x rest ih =>
    rw [placed, List.map_cons, List.pairwise_cons]
    refine ⟨fun m hm => ?_, ih _⟩
    obtain ⟨e, he, rfl⟩ := List.mem_map.mp hm
    have := placed_ge _ rest e he
    split at this <;> omega

theorem windowOf_lt {n m : Nat} (h : n < m) (trace : List (Call × Option BatchPayload)) :
    windowOf n (placed m trace) = [] := by
  unfold windowOf
  rw [List.filter_eq_nil_iff.mpr fun e he => ?_]
  · rfl
  · have := placed_ge m trace e he
    simp only [decide_eq_true_eq]
    omega

theorem run_calls (env : Env) (calls : List Call) (a : Aggregator) :
    (a.run env calls).2.map Prod.fst = calls := by
  induction calls generalizing a with
  | nil => rfl
  | cons c rest ih => rw [Aggregator.run, List.map_cons, ih]

/-- The `n`-th window of a trace that begins inside window `k`, after the calls `cur` of it. -/
def windowFrom (cur : List Call) (k : Nat) (trace : List (Call × Option BatchPayload)) (n : Nat) :
    List Call := (if n = 0 then cur else []) ++ windowOf (k + n) (placed k trace)

theorem windowOf_cons (n m : Nat) (c : Call) (l : List (Nat × Call)) :
    windowOf n ((m, c) :: l) = (if m = n then [c] else []) ++ windowOf n l := by
  unfold windowOf
  by_cases h : m = n <;> simp [h]

theorem windowFrom_open (cur : List Call) (k : Nat) (c : Call)
    (rest : List (Call × Option BatchPayload)) (n : Nat) :
    windowFrom cur k ((c, none) :: rest) n = windowFrom (cur ++ [c]) k rest n := by
  unfold windowFrom
  rw [placed_open, windowOf_cons]
  by_cases hn : n = 0
  · simp [hn]
  · simp [hn]

theorem windowFrom_closed (cur : List Call) (k : Nat) (c : Call) (b : BatchPayload)
    (rest : List (Call × Option BatchPayload)) :
    windowFrom cur k ((c, some b) :: rest) 0 = cur ++ [c] := by
  unfold windowFrom
  rw [placed_closed, windowOf_cons, Nat.add_zero, windowOf_lt (Nat.lt_succ_self k), if_pos rfl,
    if_pos rfl, List.append_nil]

theorem windowFrom_next (cur : List Call) (k : Nat) (c : Call) (b : BatchPayload)
    (rest : List (Call × Option BatchPayload)) (n : Nat) :
    windowFrom cur k ((c, some b) :: rest) (n + 1) = windowFrom [] (k + 1) rest n := by
  unfold windowFrom
  rw [placed_closed, windowOf_cons, if_neg (Nat.succ_ne_zero n), if_neg (by omega), ite_self,
    Nat.add_right_comm k 1 n]
  rfl

/-- A run from inside a window: each batch is the rollup of its window, and the active map that of
the last one. -/
theorem rolls_run (env : Env) (calls : List Call) {a : Aggregator} {cur : List Call} (k : Nat)
    (h : AggregatorInv a cur) :
    (∀ n b, (batches (a.run env calls).2)[n]? = some b →
      IsRollup (windowFrom cur k (a.run env calls).2 n) b) ∧
    AggregatorInv (a.run env calls).1
      (windowFrom cur k (a.run env calls).2 (batches (a.run env calls).2).length) := by
  induction calls generalizing a cur k with
  | nil =>
    have hcur : windowFrom cur k [] 0 = cur := List.append_nil cur
    refine ⟨fun n b hb => absurd hb (by simp [Aggregator.run, batches]), ?_⟩
    exact hcur.symm ▸ h
  | cons c rest ih =>
    rw [Aggregator.run]
    rcases call_spec env h c with ⟨hnone, hinv⟩ | ⟨b, hsome, hroll, hinv⟩
    · have ih := ih k hinv
      simp only [hnone]
      refine ⟨fun n b hb => ?_, ?_⟩
      · rw [windowFrom_open]
        exact ih.1 n b hb
      · rw [windowFrom_open]
        exact ih.2
    · have ih := ih (k + 1) hinv
      simp only [hsome]
      refine ⟨fun n b' hb => ?_, ?_⟩
      · cases n with
        | zero =>
          obtain rfl : b = b' := Option.some.inj hb
          rw [windowFrom_closed]
          exact hroll
        | succ n =>
          rw [windowFrom_next]
          exact ih.1 n b' hb
      · rw [batches_closed, List.length_cons, windowFrom_next]
        exact ih.2

/-- An aggregator that has not been called. -/
theorem aggregatorInv_new (env : Env) (maxKeys : Nat) :
    AggregatorInv { Aggregator.new env with maxKeys := maxKeys } [] :=
  ⟨fun _ => rfl, rfl⟩

/-- A batch of a new aggregator is the rollup of its window. -/
theorem batch_isRollup (env : Env) (maxKeys : Nat) (calls : List Call) {n : Nat} {b : BatchPayload}
    (h : (batches (Aggregator.run env { Aggregator.new env with maxKeys := maxKeys }
      calls).2)[n]? = some b) :
    IsRollup (windowOf n (placed 0 (Aggregator.run env
      { Aggregator.new env with maxKeys := maxKeys } calls).2)) b := by
  have hroll := (rolls_run env calls 0 (aggregatorInv_new env maxKeys)).1 n b h
  unfold windowFrom at hroll
  rwa [ite_self, List.nil_append, Nat.zero_add] at hroll

/-- **Exact windowed rollup.** In every run of calls on a new aggregator, of any size limit: the
returned batches cut the calls into consecutive windows, the n-th batch is the rollup of the n-th
window, and the active map is that of the window still open. -/
theorem exact_rollup (env : Env) (maxKeys : Nat) (calls : List Call) :
    let r := Aggregator.run env { Aggregator.new env with maxKeys := maxKeys } calls
    ((placed 0 r.2).map Prod.snd = calls ∧ ((placed 0 r.2).map Prod.fst).Pairwise (· ≤ ·)) ∧
    (∀ n b, (batches r.2)[n]? = some b → IsRollup (windowOf n (placed 0 r.2)) b) ∧
    ∀ c, (r.1.buffers r.1.active).lookup c =
      let ts := touches c (windowOf (batches r.2).length (placed 0 r.2))
      if ts = [] then none else some (rollup ts) := by
  intro r
  obtain ⟨hbatches, hopen⟩ := rolls_run env calls 0 (aggregatorInv_new env maxKeys)
  have hwin : ∀ n, windowFrom [] 0 r.2 n = windowOf n (placed 0 r.2) := fun n => by
    unfold windowFrom
    rw [ite_self, List.nil_append, Nat.zero_add]
  refine ⟨⟨(placed_calls 0 r.2).trans (run_calls env calls _), placed_sorted 0 r.2⟩,
    fun n b hb => ?_, fun c => ?_⟩
  · rw [← hwin]
    exact hbatches n b hb
  · rw [← hwin]
    exact hopen.held c

end Statix.Rollup
