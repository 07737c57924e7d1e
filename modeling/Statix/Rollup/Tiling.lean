import Statix.Rollup.Windows

/-!
# Windows tile the timeline

Every window is closed by one clock reading, which the next one starts at: by the flush of the timer,
by an early flush inside an ingest call, or by a flush of an empty buffer, which returns no batch and
only moves the start (`statix/src/aggregator.rs`).

* `call_windows`: what one call does to the start of the window.
* `Started`: the window starts at a reading taken before.
* `run_cut`: a trace cut in two is the traces of two runs, one after the other.

Result:

* **`windows_tile`**: with a clock that does not go back, no two batches overlap, and between two
  batches there is a gap only where an empty buffer was flushed, before anything was ingested.
-/

namespace Statix.Rollup

variable {env : Env} {a : Aggregator} {w : List Call}

/-! ## One call -/

/-- What a call does to the window. -/
inductive Closes (env : Env) (a : Aggregator) (c : Call) (r : Aggregator × Option BatchPayload) :
    Prop
  /-- The window stays open. -/
  | stays (out : r.2 = none) (start : r.1.windowStartNs = a.windowStartNs)
      (reads : r.1.reads = a.reads)
  /-- An empty buffer is flushed: the start moves. -/
  | moves (node : String) (flush : c = .flush node) (out : r.2 = none)
      (empty : (a.buffers a.active).entries = [])
      (start : r.1.windowStartNs = env.wallUnixNs a.reads) (reads : r.1.reads = a.reads + 1)
  /-- A batch closes the window, and the next one starts where it ends. -/
  | closes (p : BatchPayload) (out : r.2 = some p) (from_start : p.windowStartNs = a.windowStartNs)
      (to_now : p.windowEndNs = env.wallUnixNs a.reads) (start : r.1.windowStartNs = p.windowEndNs)
      (reads : r.1.reads = a.reads + 1)

theorem flush_closes (env : Env) (a : Aggregator) (c : Call) (node : String)
    (h : (a.buffers a.active).entries = [] → c = .flush node) :
    Closes env a c (a.flush env node) := by
  unfold Aggregator.flush
  simp only
  split
  · rename_i hempty
    exact .moves node (h hempty) rfl hempty rfl rfl
  · exact .closes _ rfl rfl rfl rfl rfl

/-- An early flush has something to flush. -/
theorem tryEarlyFlush_closes (env : Env) (a : Aggregator) (c : Call) (node : String)
    (hpos : 0 < a.maxKeys) : Closes env a c (a.tryEarlyFlush env node) := by
  unfold Aggregator.tryEarlyFlush
  split
  · rename_i hfull
    refine flush_closes env a c node fun hempty => ?_
    unfold Aggregator.activeLen at hfull
    rw [hempty, List.length_nil] at hfull
    omega
  · exact .stays rfl rfl rfl

/-- A change of an entry leaves the window alone. -/
theorem entry_closes (env : Env) (a : Aggregator) (c : Call) (node : String) (cgroupId : Nat)
    (f : WorkloadStats → WorkloadStats) (hpos : 0 < a.maxKeys) (hc : ∀ node, c ≠ .flush node) :
    Closes env a c ((a.updateEntry cgroupId f).tryEarlyFlush env node) := by
  cases tryEarlyFlush_closes env (a.updateEntry cgroupId f) c node hpos with
  | stays out start reads => exact .stays out start reads
  | moves node flush => exact absurd flush (hc node)
  | closes p out from_start to_now start reads => exact .closes p out from_start to_now start reads

/-- **One call**: the window stays open, an empty one moves, or a batch closes it. -/
theorem call_windows (env : Env) (a : Aggregator) (c : Call) (hpos : 0 < a.maxKeys) :
    Closes env a c (a.call env c) := by
  cases c with
  | event e labels node =>
    show Closes env a _ (a.onStatixEvent env e labels node)
    unfold Aggregator.onStatixEvent
    simp only
    split
    · exact entry_closes env a _ node _ _ hpos fun _ e => (nomatch e)
    · split
      · exact entry_closes env a _ node _ _ hpos fun _ e => (nomatch e)
      · exact tryEarlyFlush_closes env a _ node hpos
  | memorySample c bytes labels node =>
    exact entry_closes env a _ node _ _ hpos fun _ e => (nomatch e)
  | cpuSample c delta labels node =>
    exact entry_closes env a _ node _ _ hpos fun _ e => (nomatch e)
  | flush node => exact flush_closes env a _ node fun _ => rfl

theorem maxKeys_flush (env : Env) (a : Aggregator) (node : String) :
    (a.flush env node).1.maxKeys = a.maxKeys := by
  unfold Aggregator.flush
  simp only
  split <;> rfl

theorem maxKeys_call (env : Env) (a : Aggregator) (c : Call) :
    (a.call env c).1.maxKeys = a.maxKeys := by
  have hearly : ∀ (a : Aggregator) node, (a.tryEarlyFlush env node).1.maxKeys = a.maxKeys := by
    intro a node
    unfold Aggregator.tryEarlyFlush
    split
    · exact maxKeys_flush env a node
    · rfl
  cases c with
  | event e labels node =>
    show (a.onStatixEvent env e labels node).1.maxKeys = _
    unfold Aggregator.onStatixEvent
    simp only
    rw [hearly]
    split
    · rfl
    · split <;> rfl
  | memorySample c bytes labels node => exact hearly _ node
  | cpuSample c delta labels node => exact hearly _ node
  | flush node => exact maxKeys_flush env a node

/-! ## Runs -/

/-- The window starts at a clock reading taken before, and an ingest call can close it. -/
structure Started (env : Env) (a : Aggregator) : Prop where
  start : ∃ k < a.reads, a.windowStartNs = env.wallUnixNs k
  maxKeys : 0 < a.maxKeys

theorem started_new (env : Env) : Started env (.new env) :=
  ⟨⟨0, Nat.one_pos, rfl⟩, Nat.succ_pos 4095⟩

theorem Started.le_now (h : Started env a) (mono : Monotone env.wallUnixNs) :
    a.windowStartNs ≤ env.wallUnixNs a.reads := by
  obtain ⟨k, hk, e⟩ := h.start
  rw [e]
  exact mono (Nat.le_of_lt hk)

theorem started_call (h : Started env a) (c : Call) : Started env (a.call env c).1 := by
  refine ⟨?_, by rw [maxKeys_call]; exact h.maxKeys⟩
  obtain ⟨k, hk, e⟩ := h.start
  cases call_windows env a c h.maxKeys with
  | stays _ start reads => exact ⟨k, by rw [reads]; exact hk, start.trans e⟩
  | moves _ _ _ _ start reads => exact ⟨a.reads, by rw [reads]; exact Nat.lt_succ_self _, start⟩
  | closes p _ _ to_now start reads =>
    exact ⟨a.reads, by rw [reads]; exact Nat.lt_succ_self _, start.trans to_now⟩

/-- The start of the window does not go back. -/
theorem start_le_call (h : Started env a) (mono : Monotone env.wallUnixNs) (c : Call) :
    a.windowStartNs ≤ (a.call env c).1.windowStartNs := by
  have hnow := h.le_now mono
  cases call_windows env a c h.maxKeys with
  | stays _ start _ => exact Nat.le_of_eq start.symm
  | moves _ _ _ _ start _ => exact start ▸ hnow
  | closes p _ _ to_now start _ => exact (start.trans to_now) ▸ hnow

theorem run_cons (env : Env) (a : Aggregator) (c : Call) (calls : List Call) :
    (a.run env (c :: calls)).2 = (c, (a.call env c).2) :: ((a.call env c).1.run env calls).2 := rfl

theorem batches_open {c : Call} {out : Option BatchPayload} (h : out = none)
    (rest : List (Call × Option BatchPayload)) : batches ((c, out) :: rest) = batches rest := by
  rw [h]
  rfl

/-- The batches of a run lie one after another, from the start of the first window on. -/
theorem batches_tile (mono : Monotone env.wallUnixNs) : ∀ (calls : List Call) {a : Aggregator},
    Started env a →
      (∀ p ∈ batches (a.run env calls).2,
        a.windowStartNs ≤ p.windowStartNs ∧ p.windowStartNs ≤ p.windowEndNs) ∧
      (batches (a.run env calls).2).Pairwise fun p p' => p.windowEndNs ≤ p'.windowStartNs
  | [], _, _ => ⟨fun _ hp => absurd hp List.not_mem_nil, List.Pairwise.nil⟩
  | c :: calls, a, h => by
    obtain ⟨hin, hpair⟩ := batches_tile mono calls (started_call h c)
    have hle := start_le_call h mono c
    have hlater : ∀ p ∈ batches ((a.call env c).1.run env calls).2,
        a.windowStartNs ≤ p.windowStartNs ∧ p.windowStartNs ≤ p.windowEndNs := fun p hp =>
      ⟨Nat.le_trans hle (hin p hp).1, (hin p hp).2⟩
    cases call_windows env a c h.maxKeys with
    | stays out =>
      rw [run_cons, batches_open out]
      exact ⟨hlater, hpair⟩
    | moves _ _ out =>
      rw [run_cons, batches_open out]
      exact ⟨hlater, hpair⟩
    | closes p out from_start to_now start =>
      rw [run_cons, out, batches_closed]
      refine ⟨fun p' hp' => ?_, List.Pairwise.cons (fun p' hp' => ?_) hpair⟩
      · rcases List.mem_cons.mp hp' with rfl | hp'
        · rw [from_start, to_now]
          exact ⟨Nat.le_refl _, h.le_now mono⟩
        · exact hlater p' hp'
      · rw [← start]
        exact (hin p' hp').1

/-! ## Between two batches -/

/-- A trace cut in two. -/
theorem run_cut {calls : List Call} {xs ys : List (Call × Option BatchPayload)}
    (h : (a.run env calls).2 = xs ++ ys) : ∃ cs ds, calls = cs ++ ds ∧ (a.run env cs).2 = xs ∧
      ((a.run env cs).1.run env ds).2 = ys := by
  induction xs generalizing a calls with
  | nil => exact ⟨[], calls, rfl, rfl, h⟩
  | cons x xs ih =>
    cases calls with
    | nil => cases h
    | cons c calls =>
      rw [run_cons, List.cons_append] at h
      obtain ⟨rfl, hrest⟩ := List.cons.inj h
      obtain ⟨cs, ds, rfl, hxs, hys⟩ := ih hrest
      refine ⟨c :: cs, ds, rfl, ?_, hys⟩
      rw [run_cons, hxs]

/-- What holds between two batches, while the calls `w` join the open window: the start moves at an
empty flush only, and the buffer is empty then. -/
structure Between (start : Nat) (a : Aggregator) (trace : List (Call × Option BatchPayload)) :
    Prop where
  inv : AggregatorInv a (trace.map Prod.fst)
  le : start ≤ a.windowStartNs
  tight : (∀ node, (Call.flush node, none) ∉ trace) → a.windowStartNs = start
  untouched : ∀ before after node, trace = before ++ (Call.flush node, none) :: after →
    ∀ e ∈ before, e.1.touch? = none

theorem empty_of_flush {node : String} (h : (a.flush env node).2 = none) :
    (a.buffers a.active).entries = [] := by
  unfold Aggregator.flush at h
  simp only at h
  split at h
  · assumption
  · cases h

/-- With an empty buffer nothing was ingested. -/
theorem AggregatorInv.untouched (h : AggregatorInv a w)
    (hempty : (a.buffers a.active).entries = []) : ∀ c ∈ w, c.touch? = none := by
  intro c hc
  cases ht : c.touch? with
  | none => rfl
  | some t =>
    have hmem : t ∈ touches t.cgroupId w :=
      List.mem_filter.mpr ⟨List.mem_filterMap.mpr ⟨c, hc, ht⟩, decide_eq_true rfl⟩
    have hheld := h.held t.cgroupId
    rw [if_neg (List.ne_nil_of_mem hmem)] at hheld
    have hnone : (a.buffers a.active).lookup t.cgroupId = none := by
      rw [AList.lookup, hempty]
      rfl
    rw [hnone] at hheld
    cases hheld

/-- **One call between two batches.** -/
theorem Between.call {start : Nat} {trace : List (Call × Option BatchPayload)}
    (h : Between start a trace) (hs : Started env a) (mono : Monotone env.wallUnixNs) {c : Call}
    (out : (a.call env c).2 = none) : Between start (a.call env c).1 (trace ++ [(c, none)]) := by
  constructor
  case inv =>
    rw [List.map_append]
    rcases call_spec env h.inv c with ⟨-, hinv⟩ | ⟨b, hb, -⟩
    · exact hinv
    · rw [out] at hb
      cases hb
  case le => exact Nat.le_trans h.le (start_le_call hs mono c)
  case tight =>
    intro hno
    have hbefore : ∀ node, (Call.flush node, none) ∉ trace := fun node hmem =>
      hno node (List.mem_append_left _ hmem)
    cases call_windows env a c hs.maxKeys with
    | stays _ hstart => exact hstart.trans (h.tight hbefore)
    | moves node flush =>
      rw [flush] at hno
      exact absurd (List.mem_append_right _ List.mem_cons_self) (hno node)
    | closes p hp =>
      rw [out] at hp
      cases hp
  case untouched =>
    intro before after node hsplit
    rcases List.eq_nil_or_concat' after with rfl | ⟨after', last, rfl⟩
    · -- this call is the empty flush
      obtain ⟨rfl, hlast⟩ := List.append_inj' hsplit rfl
      obtain ⟨rfl, -⟩ := Prod.mk.inj (List.singleton_inj.mp hlast)
      intro e he
      exact h.inv.untouched (empty_of_flush out) e.1 (List.mem_map_of_mem he)
    · rw [← List.cons_append, ← List.append_assoc] at hsplit
      exact h.untouched before after' node (List.append_inj' hsplit rfl).1

theorem Between.run {start : Nat} (mono : Monotone env.wallUnixNs) : ∀ (calls : List Call)
    {a : Aggregator} {trace : List (Call × Option BatchPayload)}, Between start a trace →
    Started env a → (∀ e ∈ (a.run env calls).2, e.2 = none) →
    Between start (a.run env calls).1 (trace ++ (a.run env calls).2) ∧
      Started env (a.run env calls).1
  | [], _, trace, h, hs, _ => ⟨by rw [Aggregator.run, List.append_nil]; exact h, hs⟩
  | c :: calls, a, trace, h, hs, hnone => by
    rw [run_cons] at hnone
    have out : (a.call env c).2 = none := hnone _ List.mem_cons_self
    have hnext := Between.run mono calls (h.call hs mono out) (started_call hs c) fun e he =>
      hnone e (List.mem_cons_of_mem _ he)
    rw [run_cons, out, List.append_cons]
    exact hnext

theorem started_run (h : Started env a) (calls : List Call) : Started env (a.run env calls).1 := by
  induction calls generalizing a with
  | nil => exact h
  | cons c calls ih => exact ih (started_call h c)

/-- The call that returned the first batch of a trace. -/
theorem run_closed {calls : List Call} {c : Call} {p : BatchPayload}
    {rest : List (Call × Option BatchPayload)} (hs : Started env a) (h : AggregatorInv a w)
    (htrace : (a.run env calls).2 = (c, some p) :: rest) :
    ∃ a' calls', p.windowStartNs = a.windowStartNs ∧ Between p.windowEndNs a' [] ∧
      Started env a' ∧ (a'.run env calls').2 = rest := by
  cases calls with
  | nil => cases htrace
  | cons c₁ calls' =>
    rw [run_cons] at htrace
    obtain ⟨hhead, hrest⟩ := List.cons.inj htrace
    obtain ⟨rfl, hout⟩ := Prod.mk.inj hhead
    have hinv : AggregatorInv (a.call env c₁).1 [] := by
      rcases call_spec env h c₁ with ⟨hnone, -⟩ | ⟨b, -, -, hinv⟩
      · rw [hnone] at hout
        cases hout
      · exact hinv
    cases call_windows env a c₁ hs.maxKeys with
    | stays out =>
      rw [out] at hout
      cases hout
    | moves _ _ out =>
      rw [out] at hout
      cases hout
    | closes p₁ out from_start to_now start =>
      rw [out] at hout
      obtain rfl := Option.some.inj hout
      refine ⟨_, calls', from_start, ⟨hinv, Nat.le_of_eq start.symm, fun _ => start, ?_⟩,
        started_call hs c₁, hrest⟩
      intro before after node hsplit
      simp at hsplit

/-- **Windows tile the timeline.** For every sequence of calls with a clock that does not go back:
each batch ends no earlier than it starts, no two batches overlap, and of two batches in a row the
second starts where the first ends unless an empty buffer was flushed in between. Such a flush comes
before anything of the second batch was ingested. -/
theorem windows_tile (mono : Monotone env.wallUnixNs) (calls : List Call) :
    let trace := (Aggregator.run env (.new env) calls).2
    (∀ p ∈ batches trace, p.windowStartNs ≤ p.windowEndNs) ∧
    ((batches trace).Pairwise fun p p' => p.windowEndNs ≤ p'.windowStartNs) ∧
    ∀ pre mid post c c' p p', trace = pre ++ (c, some p) :: (mid ++ (c', some p') :: post) →
      (∀ e ∈ mid, e.2 = none) →
      p.windowEndNs ≤ p'.windowStartNs ∧
      ((∀ node, (Call.flush node, none) ∉ mid) → p'.windowStartNs = p.windowEndNs) ∧
      ∀ before after node, mid = before ++ (Call.flush node, none) :: after →
        ∀ e ∈ before, e.1.touch? = none := by
  intro trace
  obtain ⟨hin, hpair⟩ := batches_tile mono calls (started_new env)
  refine ⟨fun p hp => (hin p hp).2, hpair, ?_⟩
  intro pre mid post c c' p p' hsplit hnone
  obtain ⟨cs, ds, -, -, htail⟩ := run_cut hsplit
  have hopen := (rolls_run env cs 0 (aggregatorInv_new env defaultMaxKeys)).2
  obtain ⟨a₁, ds₁, -, hbetween, hs₁, hrest⟩ :=
    run_closed (started_run (started_new env) cs) hopen htail
  obtain ⟨ms, ps, -, hmid, hlast⟩ := run_cut hrest
  rw [← hmid] at hnone
  obtain ⟨hb, hs₂⟩ := hbetween.run mono ms hs₁ hnone
  obtain ⟨-, -, hstart, -⟩ := run_closed hs₂ hb.inv hlast
  rw [hmid, List.nil_append] at hb
  rw [hstart]
  exact ⟨hb.le, hb.tight, hb.untouched⟩

/-- Two batches with a flush of the empty buffer between them: a gap from 1 to 2. -/
theorem windows_tile_gap :
    let env : Env := ⟨id, fun _ => "b"⟩
    let calls : List Call := [.cpuSample 5 1 {} "n", .flush "n", .flush "n", .cpuSample 5 1 {} "n",
      .flush "n"]
    let trace := (Aggregator.run env (.new env) calls).2
    (batches trace).map (fun p => (p.windowStartNs, p.windowEndNs)) = [(0, 1), (2, 3)] ∧
      (batches trace).Pairwise fun p p' => p.windowEndNs ≤ p'.windowStartNs := by
  intro env calls trace
  have mono : Monotone env.wallUnixNs := monotone_id
  exact ⟨by decide +kernel, (windows_tile mono calls).2.1⟩

end Statix.Rollup
