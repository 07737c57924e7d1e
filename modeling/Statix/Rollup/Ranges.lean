import Statix.Rollup.Storage

/-!
# What fits its type

The numbers of an `IngestBatch` (`statix-wire/src/lib.rs`) are a `u32` or a `u64` each. In the model
they are any numbers, so that they fit is proved: the aggregator makes no number out of numbers that
fit which does not.

* `rowOf_inRange`: the counters of a row saturate, and its other numbers are given to it.
* **`emitBatch_inRange`**: every batch of an agent fits.
-/

namespace Statix.Rollup

/-- The numbers of a row fit their types. -/
structure WorkloadRow.InRange (r : WorkloadRow) : Prop where
  cgroupId : r.cgroupId < 2 ^ 64
  memoryBytesMax : r.memoryBytesMax < 2 ^ 64
  memoryBytesLast : r.memoryBytesLast < 2 ^ 64
  execCount : r.execCount < 2 ^ 32
  sampleCount : r.sampleCount < 2 ^ 32
  cpuUsageUsec : r.cpuUsageUsec < 2 ^ 64
  cpuRequestMillicores : r.cpuRequestMillicores < 2 ^ 64
  memoryRequestBytes : r.memoryRequestBytes < 2 ^ 64
  cpuLimitMillicores : r.cpuLimitMillicores < 2 ^ 64
  memoryLimitBytes : r.memoryLimitBytes < 2 ^ 64

/-- The numbers of a batch fit their types. -/
structure IngestBatch.InRange (b : IngestBatch) : Prop where
  schemaVersion : b.schemaVersion < 2 ^ 32
  windowStartNs : b.windowStartNs < 2 ^ 64
  windowEndNs : b.windowEndNs < 2 ^ 64
  workloads : ∀ r ∈ b.workloads, r.InRange

/-- The numbers of a pod's resources fit their types. -/
structure Resources.InRange (r : Resources) : Prop where
  cpuRequestMillicores : r.cpuRequestMillicores < 2 ^ 64
  memoryRequestBytes : r.memoryRequestBytes < 2 ^ 64
  cpuLimitMillicores : r.cpuLimitMillicores < 2 ^ 64
  memoryLimitBytes : r.memoryLimitBytes < 2 ^ 64

/-- The numbers of a call fit their types. -/
def Call.InRange : Call → Prop
  | .event e labels _ => e.cgroupId < 2 ^ 64 ∧ e.memoryBytes < 2 ^ 64 ∧ labels.resources.InRange
  | .memorySample c bytes labels _ => c < 2 ^ 64 ∧ bytes < 2 ^ 64 ∧ labels.resources.InRange
  | .cpuSample c _ labels _ => c < 2 ^ 64 ∧ labels.resources.InRange
  | .flush _ => True

/-- The numbers of a touch fit their types. -/
structure Touch.InRange (t : Touch) : Prop where
  cgroupId : t.cgroupId < 2 ^ 64
  bytes : ∀ bytes, t.sample = .memory bytes → bytes < 2 ^ 64
  resources : t.labels.resources.InRange

theorem touch_inRange {c : Call} (h : c.InRange) {t : Touch} (ht : c.touch? = some t) :
    t.InRange := by
  cases c with
  | event e labels node =>
    obtain ⟨hc, hbytes, hres⟩ := h
    rw [Call.touch?] at ht
    split at ht
    · obtain rfl := Option.some.inj ht
      exact ⟨hc, fun bytes e => (by cases e), hres⟩
    · split at ht
      · obtain rfl := Option.some.inj ht
        exact ⟨hc, fun bytes e => Sample.memory.inj e ▸ hbytes, hres⟩
      · cases ht
  | memorySample c bytes labels node =>
    obtain rfl := Option.some.inj ht
    exact ⟨h.1, fun _ e => Sample.memory.inj e ▸ h.2.1, h.2.2⟩
  | cpuSample c delta labels node =>
    obtain rfl := Option.some.inj ht
    exact ⟨h.1, fun _ e => (by cases e), h.2⟩
  | flush node => cases ht

theorem memories_inRange {ts : List Touch} (h : ∀ t ∈ ts, t.InRange) :
    ∀ bytes ∈ memories ts, bytes < 2 ^ 64 := by
  intro bytes hbytes
  obtain ⟨t, ht, hmem⟩ := List.mem_filterMap.mp hbytes
  refine (h t ht).bytes bytes ?_
  cases hs : t.sample with
  | exec => simp [hs, Sample.memory?] at hmem
  | memory b => simpa [hs, Sample.memory?] using hmem
  | cpu d => simp [hs, Sample.memory?] at hmem

/-- **The rollup of numbers that fit is a row that fits.** -/
theorem rowOf_inRange {c : Nat} {w : List Call} (h : ∀ call ∈ w, call.InRange)
    (htouched : touches c w ≠ []) : (Aggregator.rowOf c (rollup (touches c w))).InRange := by
  have hts : ∀ t ∈ touches c w, t.InRange ∧ t.cgroupId = c := fun t ht => by
    obtain ⟨ht, hc⟩ := List.mem_filter.mp ht
    obtain ⟨call, hcall, ht⟩ := List.mem_filterMap.mp ht
    exact ⟨touch_inRange (h call hcall) ht, of_decide_eq_true hc⟩
  have hmem := memories_inRange fun t ht => (hts t ht).1
  generalize touches c w = ts at htouched hts hmem
  obtain ⟨t, ht⟩ := List.exists_mem_of_ne_nil ts htouched
  have hlast : ts.getLast? = some (ts.getLast htouched) := List.getLast?_eq_some_getLast htouched
  have hres := (hts _ (List.getLast_mem htouched)).1.resources
  have hlabels : (rollup ts).labels.resources = (ts.getLast htouched).labels.resources := by
    unfold rollup
    rw [hlast]
    rfl
  rw [← hlabels] at hres
  have hmaxOf : ∀ {o : Option Nat}, (∀ b, o = some b → b < 2 ^ 64) → o.getD 0 < 2 ^ 64 := by
    rintro (_ | b) hb
    · decide
    · exact hb b rfl
  exact {
    cgroupId := (hts t ht).2 ▸ (hts t ht).1.cgroupId
    memoryBytesMax := hmaxOf fun b hb => hmem b (List.max?_mem hb)
    memoryBytesLast := hmaxOf fun b hb => hmem b (List.mem_of_getLast? hb)
    execCount := Nat.lt_of_le_of_lt (Nat.min_le_right _ _) (by decide)
    sampleCount := Nat.lt_of_le_of_lt (Nat.min_le_right _ _) (by decide)
    cpuUsageUsec := Nat.lt_of_le_of_lt (Nat.min_le_right _ _) (by decide)
    cpuRequestMillicores := hres.cpuRequestMillicores
    memoryRequestBytes := hres.memoryRequestBytes
    cpuLimitMillicores := hres.cpuLimitMillicores
    memoryLimitBytes := hres.memoryLimitBytes }

/-- The bounds of a window are readings of the clock. -/
theorem bounds_inRange {env : Env} (clock : ∀ n, env.wallUnixNs n < 2 ^ 64) (calls : List Call)
    {a : Aggregator} (h : a.windowStartNs < 2 ^ 64) :
    ∀ b ∈ batches (a.run env calls).2, b.windowStartNs < 2 ^ 64 ∧ b.windowEndNs < 2 ^ 64 := by
  induction calls generalizing a with
  | nil => exact fun b hb => absurd hb List.not_mem_nil
  | cons c rest ih =>
    rw [Aggregator.run]
    have ht := call_time env a c
    generalize a.call env c = r at ht
    cases ht with
    | unread start reads => exact ih (start ▸ h)
    | reset start reads => exact ih (start ▸ clock a.reads)
    | closed first last start reads =>
      rw [batches_closed]
      intro b hb
      rcases List.mem_cons.mp hb with rfl | hb
      · exact ⟨first ▸ h, last ▸ clock a.reads⟩
      · exact ih (start ▸ clock a.reads) b hb

/-- **Every batch of an agent fits its types.** -/
theorem emitBatch_inRange {env : Env} (clock : ∀ n, env.wallUnixNs n < 2 ^ 64) (maxKeys : Nat)
    {calls : List Call} (typed : ∀ c ∈ calls, c.InRange) {p : BatchPayload}
    (returned : p ∈ batches (Aggregator.run env
      { Aggregator.new env with maxKeys := maxKeys } calls).2) : (emitBatch p).InRange := by
  obtain ⟨hstart, hend⟩ := bounds_inRange clock calls (clock 0) p returned
  have hversion : schemaVersion < 2 ^ 32 := by decide
  refine ⟨hversion, hstart, hend, fun r hr => ?_⟩
  obtain ⟨n, hn⟩ := List.mem_iff_getElem?.mp returned
  obtain ⟨c, htouched, rfl⟩ := ((batch_isRollup env maxKeys calls hn).rows r).mp hr
  refine rowOf_inRange (fun call hcall => typed call ?_) htouched
  obtain ⟨e, he, rfl⟩ := List.mem_map.mp hcall
  have hmem := List.mem_map_of_mem (f := Prod.snd) (List.mem_filter.mp he).1
  rwa [placed_calls, run_calls] at hmem

end Statix.Rollup
