import Mathlib.Data.Set.Basic
import Statix.Rollup.Pairing

/-!
# The main loop of the agent

Model of the `select!` loop of `main` and of `sample_and_flush` (`statix/src/main.rs`), with the
blocking task of `Sampler::tick` cut at its reads (`statix/src/memory_sampler.rs`).

* The arms are ring-buffer events, the flush timer and the two signals (both `sample_and_flush`; a
  signal is the last), and the eviction. The other arms do not touch the aggregator.
* The cgroups change at any time, also between two reads of one tick. `readable` are the leaves
  whose `memory.current` can be read; of another cgroup a read may find anything.
* A window opens when the one before is closed by a flush. `stayed` are the cgroups that have been
  readable since. Each batch is recorded with the calls of its window and with `stayed`.
* Identity events and the eviction change which cgroups are tracked.

Results:
* `LoopInv`: by phase, which samples the open window has and will have.
* **`windows_sampled`**: each batch has one sample of every cgroup that stayed, in every run that
  meets `Calm`.
* `tick_run`: such a run can go on with a tick while the tracked cgroups fit in the active map.
* `unsampled_window`: an exec storm closes a window that was never sampled.
-/

namespace Statix.Rollup

/-! ## The model -/

/-- Where the main loop is; `last` is set by a signal. -/
inductive LoopPhase where
  /-- In `select!`. -/
  | selecting
  /-- In `tick`: the blocking task has `targets` left to read. -/
  | sampling (targets : List Nat) (read : List Reading) (last : Bool)
  /-- In `tick`'s loop over the readings, with `calls` left. -/
  | ingesting (calls : List Call) (last : Bool)
  | stopped

/-- A batch that was emitted, the calls of its window, and the cgroups that stayed. -/
structure ClosedWindow where
  batch : BatchPayload
  calls : List Call
  stayed : Set Nat

/-- The main loop with the cgroups around it. -/
structure MainLoop where
  aggregator : Aggregator
  baseline : Baseline
  tracked : Finset Nat
  phase : LoopPhase
  readable : Set Nat
  window : List Call
  stayed : Set Nat
  closed : List ClosedWindow

/-- At the first `select!`, after bootstrap and `prime`. -/
def MainLoop.start (env : Env) (tracked : Finset Nat) (readable : Set Nat) (baseline : Baseline) :
    MainLoop :=
  ⟨.new env, baseline, tracked, .selecting, readable, [], readable, []⟩

/-- A window is closed: with a batch, which is emitted, or empty. -/
def MainLoop.close (l : MainLoop) (calls : List Call) (out : Option BatchPayload) : MainLoop :=
  { l with
    window := []
    stayed := l.readable
    closed := l.closed ++ (out.map fun batch => ⟨batch, calls, l.stayed⟩).toList }

/-- An ingest call on the aggregator, with its early flush. -/
def MainLoop.call (env : Env) (l : MainLoop) (c : Call) : MainLoop :=
  let r := l.aggregator.call env c
  if r.2.isSome then { l with aggregator := r.1 }.close (l.window ++ [c]) r.2
  else { l with aggregator := r.1, window := l.window ++ [c] }

/-- The flush at the end of `sample_and_flush`. -/
def MainLoop.flush (env : Env) (node : String) (l : MainLoop) : MainLoop :=
  let r := l.aggregator.call env (.flush node)
  { l with aggregator := r.1 }.close (l.window ++ [Call.flush node]) r.2

/-- What the blocking task can find of a target. -/
def Reads (readable : Set Nat) (c : Nat) (found : Option Reading) : Prop :=
  (c ∈ readable → ∃ bytes usage, found = some ⟨c, some bytes, usage⟩) ∧
    ∀ r, found = some r → r.cgroupId = c

/-- What a step is about. -/
inductive LoopEvent where
  | call (c : Call)
  | tickStart
  | taskFailed
  | other

/-- One step of the loop, or of the cgroups. -/
inductive LoopStep (env : Env) (node : String) : LoopEvent → MainLoop → MainLoop → Prop
  | cgroups {l : MainLoop} (readable : Set Nat) :
      LoopStep env node .other l { l with readable := readable, stayed := l.stayed ∩ readable }
  | event {l : MainLoop} (e : StatixEvent) (labels : WorkloadLabels) (tracked : Finset Nat)
      (h : l.phase = .selecting)
      (ht : tracked = l.tracked ∨
        e.kind = eventKindWorkloadIdentity ∧ tracked = insert e.cgroupId l.tracked) :
      LoopStep env node (.call (.event e labels node)) l
        { l.call env (.event e labels node) with tracked := tracked }
  | evict {l : MainLoop} (gone : Finset Nat) (h : l.phase = .selecting)
      (hg : ∀ c ∈ gone, c ∉ l.readable) :
      LoopStep env node .other l { l with tracked := l.tracked \ gone }
  | tickStart {l : MainLoop} (targets : List Nat) (last : Bool) (h : l.phase = .selecting)
      (nodup : targets.Nodup) (ht : targets.toFinset = l.tracked) :
      LoopStep env node .tickStart l { l with phase := .sampling targets [] last }
  | read {l : MainLoop} {c : Nat} {rest : List Nat} {read : List Reading} {last : Bool}
      (found : Option Reading) (h : l.phase = .sampling (c :: rest) read last)
      (hr : Reads l.readable c found) :
      LoopStep env node .other l { l with phase := .sampling rest (read ++ found.toList) last }
  | readDone {l : MainLoop} {last : Bool} (rs : Readings) (labels : TickLabels)
      (h : l.phase = .sampling [] rs.list last) :
      LoopStep env node .other l { l with
        phase := .ingesting (tickCalls labels (some rs) l.baseline) last
        baseline := rebaseTick (some rs) l.baseline }
  | taskFailed {l : MainLoop} {targets : List Nat} {read : List Reading} {last : Bool}
      (h : l.phase = .sampling targets read last) :
      LoopStep env node .taskFailed l { l with phase := .ingesting [] last }
  | ingest {l : MainLoop} {c : Call} {rest : List Call} {last : Bool}
      (h : l.phase = .ingesting (c :: rest) last) :
      LoopStep env node (.call c) l { l.call env c with phase := .ingesting rest last }
  | flush {l : MainLoop} {last : Bool} (h : l.phase = .ingesting [] last) :
      LoopStep env node .other l
        { l.flush env node with phase := if last then .stopped else .selecting }

/-! ## What the window has -/

/-- A memory sample of cgroup `c` by the sampler. -/
def Call.samples (c : Nat) : Call → Bool
  | .memorySample d _ _ _ => d = c
  | _ => false

/-- How often the sampler sampled `c` in a window. -/
def samplesOf (c : Nat) (w : List Call) : Nat := w.countP (Call.samples c)

/-- A ring event of the memory kind. -/
def Call.rawSample : Call → Bool
  | .event e _ _ => e.kind = eventKindMemorySample
  | _ => false

/-- **Every cgroup that stayed was sampled once**, and its row says so. -/
def ClosedWindow.Sampled (w : ClosedWindow) : Prop :=
  ∀ c ∈ w.stayed, samplesOf c w.calls = 1 ∧
    (∃ row ∈ w.batch.workloads, row.cgroupId = c) ∧
    ∀ row ∈ w.batch.workloads, row.cgroupId = c → row.sampleCount = 1

/-- A call that makes no early flush: its cgroup leaves the active map below `max_keys`, and no
event carries a memory sample. -/
def CalmCall (a : Aggregator) : Call → Prop
  | .event e _ _ => e.kind ≠ eventKindMemorySample ∧
      (e.kind = eventKindWorkloadIdentity → (insert e.cgroupId a.activeKeys).card < a.maxKeys)
  | .memorySample c _ _ _ => (insert c a.activeKeys).card < a.maxKeys
  | .cpuSample c _ _ _ => (insert c a.activeKeys).card < a.maxKeys
  | .flush _ => False

/-- The blocking task does not fail, and a tick finds every cgroup that stayed among the tracked
ones. -/
def Calm (l : MainLoop) : LoopEvent → Prop
  | .call c => CalmCall l.aggregator c
  | .tickStart => ∀ c ∈ l.stayed, c ∈ l.tracked
  | .taskFailed => False
  | .other => True

/-- A step that meets the condition. -/
def CalmLoopStep (env : Env) (node : String) (l l' : MainLoop) : Prop :=
  ∃ ev, LoopStep env node ev l l' ∧ Calm l ev

variable {env : Env} {node : String} {a : Aggregator} {w : List Call} {l l' : MainLoop}

theorem samplesOf_append (c : Nat) (xs ys : List Call) :
    samplesOf c (xs ++ ys) = samplesOf c xs + samplesOf c ys := List.countP_append

theorem memories_touches_single {call : Call} (raw : call.rawSample = false) (c : Nat) :
    (memories (touches c [call])).length = samplesOf c [call] := by
  cases call with
  | event e labels node =>
    simp only [Call.rawSample, decide_eq_false_iff_not] at raw
    by_cases hk : e.kind = eventKindWorkloadIdentity
    · by_cases hc : e.cgroupId = c <;>
        simp [memories, touches, Call.touch?, samplesOf, Call.samples, Sample.memory?, hk, hc]
    · simp [memories, touches, Call.touch?, samplesOf, Call.samples, hk, raw]
  | memorySample d bytes labels node =>
    by_cases hc : d = c <;>
      simp [memories, touches, Call.touch?, samplesOf, Call.samples, Sample.memory?, hc]
  | cpuSample d delta labels node =>
    by_cases hc : d = c <;>
      simp [memories, touches, Call.touch?, samplesOf, Call.samples, Sample.memory?, hc]
  | flush node => simp [memories, touches, Call.touch?, samplesOf, Call.samples]

/-- Without ring events of the memory kind the sampler's samples are all there are. -/
theorem memories_touches (c : Nat) {w : List Call} (raw : ∀ call ∈ w, call.rawSample = false) :
    (memories (touches c w)).length = samplesOf c w := by
  induction w with
  | nil => rfl
  | cons call w ih =>
    have hw := ih fun x hx => raw x (List.mem_cons_of_mem _ hx)
    have hcall := memories_touches_single (raw call List.mem_cons_self) c
    have happ : memories (touches c ([call] ++ w)) =
        memories (touches c [call]) ++ memories (touches c w) := by
      unfold memories touches
      rw [List.filterMap_append, List.filter_append, List.filterMap_append]
    rw [← List.singleton_append, happ, List.length_append, hcall, hw, samplesOf_append]

/-! ## The samples of a tick -/

theorem samplesOf_pairCalls (c : Nat) (labels : TickLabels) (b : Baseline) (r : Reading) :
    samplesOf c (pairCalls labels b r) =
      if r.cgroupId = c ∧ r.memoryBytes ≠ none then 1 else 0 := by
  unfold pairCalls memoryCall cpuCall samplesOf
  cases r.memoryBytes with
  | none => cases deltaOf b r <;> simp [Call.samples]
  | some bytes =>
    by_cases hc : r.cgroupId = c
    · cases deltaOf b r <;> simp [Call.samples, hc]
    · cases deltaOf b r <;> simp [Call.samples, hc]

theorem samplesOf_absent {c : Nat} (labels : TickLabels) (b : Baseline) {rs : List Reading}
    (h : c ∉ rs.map Reading.cgroupId) : samplesOf c (rs.flatMap (pairCalls labels b)) = 0 := by
  induction rs with
  | nil => rfl
  | cons r rs ih =>
    rw [List.map_cons, List.mem_cons, not_or] at h
    rw [List.flatMap_cons, samplesOf_append, samplesOf_pairCalls, ih h.2,
      if_neg fun hr => h.1 hr.1.symm]

/-- **A tick samples every cgroup whose memory it read, once.** -/
theorem samplesOf_read (labels : TickLabels) (b : Baseline) {rs : List Reading} {r : Reading}
    (hd : (rs.map Reading.cgroupId).Nodup) (hr : r ∈ rs) (hm : r.memoryBytes ≠ none) :
    samplesOf r.cgroupId (rs.flatMap (pairCalls labels b)) = 1 := by
  induction rs with
  | nil => exact absurd hr List.not_mem_nil
  | cons x rs ih =>
    rw [List.map_cons, List.nodup_cons] at hd
    rw [List.flatMap_cons, samplesOf_append, samplesOf_pairCalls]
    rcases List.mem_cons.mp hr with rfl | hr
    · rw [if_pos ⟨rfl, hm⟩, samplesOf_absent labels b hd.1]
    · have hne : x.cgroupId ≠ r.cgroupId := by
        intro e
        exact hd.1 (e ▸ List.mem_map_of_mem hr)
      rw [if_neg fun hx => hne hx.1, ih hd.2 hr, Nat.zero_add]

/-! ## Calls that keep the window open -/

/-- What a calm call does. -/
theorem call_calm (env : Env) (h : AggregatorInv a w) (room : a.activeKeys.card < a.maxKeys) {c : Call}
    (calm : CalmCall a c) :
    (a.call env c).2 = none ∧ AggregatorInv (a.call env c).1 (w ++ [c]) ∧
      (a.call env c).1.activeKeys.card < (a.call env c).1.maxKeys := by
  have hkept : ∀ {d : Nat}, Ingested d a (a.call env c) →
      (insert d a.activeKeys).card < a.maxKeys → (a.call env c).2 = none ∧
        (a.call env c).1.activeKeys.card < (a.call env c).1.maxKeys := by
    intro d hi hlt
    obtain ⟨hout, hkeys⟩ := hi.kept hlt
    exact ⟨hout, by rw [hkeys, hi.maxKeys]; exact hlt⟩
  have hout : (a.call env c).2 = none ∧
      (a.call env c).1.activeKeys.card < (a.call env c).1.maxKeys := by
    cases c with
    | event e labels node =>
      by_cases hk : e.kind = eventKindWorkloadIdentity
      · refine hkept ?_ (calm.2 hk)
        have hi := ingest_spec env h e.cgroupId (.addExec labels) node
        simpa [Aggregator.call, Aggregator.onStatixEvent, hk] using hi
      · -- an unknown kind changes nothing
        have e' : a.call env (.event e labels node) = (a, none) := by
          have hlen : ¬a.activeLen ≥ a.maxKeys := by
            rw [← card_activeKeys]
            exact Nat.not_le_of_lt room
          simp only [Aggregator.call, Aggregator.onStatixEvent, if_neg hk, if_neg calm.1,
            Aggregator.tryEarlyFlush, if_neg hlen]
        rw [e']
        exact ⟨rfl, room⟩
    | memorySample d bytes labels node =>
      exact hkept (ingest_spec env h d (.addMemory bytes labels) node) calm
    | cpuSample d delta labels node =>
      exact hkept (ingest_spec env h d (.addCpu delta labels) node) calm
    | flush node => exact calm.elim
  refine ⟨hout.1, ?_, hout.2⟩
  rcases call_spec env h c with ⟨-, hinv⟩ | ⟨b, hb, -⟩
  · exact hinv
  · rw [hout.1] at hb
    cases hb

/-- A flush empties the active map. -/
theorem flush_empties (env : Env) (h : AggregatorInv a w) (node : String) :
    (a.flush env node).1.maxKeys = a.maxKeys ∧ (a.flush env node).1.activeKeys = ∅ ∧
      AggregatorInv (a.flush env node).1 [] := by
  unfold Aggregator.flush
  simp only
  split
  · rename_i hnil
    have hempty : a.buffers a.active = ∅ := AList.ext hnil
    refine ⟨rfl, ?_, fun c => ?_, h.other⟩
    · show (a.buffers a.active).keys.toFinset = ∅
      rw [hempty]
      rfl
    · show (a.buffers a.active).lookup c = none
      rw [hempty]
      exact AList.lookup_empty c
  · have hnext : Function.update a.buffers a.active ∅ (1 - a.active) = ∅ :=
      (update_one_sub _ _ _).trans h.other
    have hdrained : Function.update a.buffers a.active ∅ (1 - (1 - a.active)) = ∅ := by
      rw [one_sub_one_sub, Function.update_self]
    exact ⟨rfl, congrArg (fun m => (AList.keys m).toFinset) hnext,
      fun c => (congrArg (AList.lookup c) hnext).trans (AList.lookup_empty c), hdrained⟩

/-! ## The invariant -/

/-- Which samples the open window has, and which the tick under way will add. -/
def PhaseInv (window : List Call) (stayed : Set Nat) : LoopPhase → Prop
  | .selecting => ∀ c, samplesOf c window = 0
  | .sampling targets read _ => (∀ c, samplesOf c window = 0) ∧
      (read.map Reading.cgroupId ++ targets).Nodup ∧
      ∀ c ∈ stayed, c ∈ targets ∨ ∃ r ∈ read, r.cgroupId = c ∧ r.memoryBytes ≠ none
  | .ingesting calls _ => (∀ c ∈ stayed, samplesOf c (window ++ calls) = 1) ∧
      ∀ call ∈ calls, call.rawSample = false
  | .stopped => True

/-- **What a calm run keeps.** -/
structure LoopInv (l : MainLoop) : Prop where
  aggregator : AggregatorInv l.aggregator l.window
  room : l.aggregator.activeKeys.card < l.aggregator.maxKeys
  stays : ∀ c ∈ l.stayed, c ∈ l.readable
  raw : ∀ call ∈ l.window, call.rawSample = false
  phase : PhaseInv l.window l.stayed l.phase
  closed : ∀ w ∈ l.closed, w.Sampled

/-- Fewer cgroups stayed. -/
theorem PhaseInv.mono {stayed stayed' : Set Nat} {phase : LoopPhase}
    (h : PhaseInv w stayed phase) (hs : ∀ c ∈ stayed', c ∈ stayed) : PhaseInv w stayed' phase := by
  cases phase with
  | selecting => exact h
  | sampling targets read last => exact ⟨h.1, h.2.1, fun c hc => h.2.2 c (hs c hc)⟩
  | ingesting calls last => exact ⟨fun c hc => h.1 c (hs c hc), h.2⟩
  | stopped => trivial

/-- A calm call joins the window. -/
theorem call_eq (env : Env) (h : LoopInv l) {c : Call} (calm : CalmCall l.aggregator c) :
    l.call env c =
      { l with aggregator := (l.aggregator.call env c).1, window := l.window ++ [c] } := by
  unfold MainLoop.call
  simp [(call_calm env h.aggregator h.room calm).1]

theorem LoopInv.call (env : Env) (h : LoopInv l) {c : Call} (calm : CalmCall l.aggregator c)
    (raw : c.rawSample = false) (phase : LoopPhase) (tracked : Finset Nat)
    (hp : PhaseInv (l.window ++ [c]) l.stayed phase) :
    LoopInv { l.call env c with phase := phase, tracked := tracked } := by
  obtain ⟨-, hinv, hroom⟩ := call_calm env h.aggregator h.room calm
  rw [call_eq env h calm]
  refine ⟨hinv, hroom, h.stays, fun x hx => ?_, hp, h.closed⟩
  rcases List.mem_append.mp hx with hx | hx
  · exact h.raw x hx
  · rw [List.mem_singleton.mp hx]
    exact raw

/-- The batch at the end of a tick. -/
theorem sampled_flush (h : LoopInv l) (hs : ∀ c ∈ l.stayed, samplesOf c l.window = 1)
    {batch : BatchPayload} (hb : IsRollup (l.window ++ [.flush node]) batch) :
    ClosedWindow.Sampled ⟨batch, l.window ++ [.flush node], l.stayed⟩ := by
  intro c hc
  have hcount : samplesOf c (l.window ++ [.flush node]) = 1 := by
    rw [samplesOf_append, hs c hc]
    rfl
  have hraw : ∀ call ∈ l.window ++ [.flush node], call.rawSample = false := by
    intro call hcall
    rcases List.mem_append.mp hcall with hcall | hcall
    · exact h.raw call hcall
    · rw [List.mem_singleton.mp hcall]
      rfl
  have hmem := memories_touches c hraw
  rw [hcount] at hmem
  have hne : touches c (l.window ++ [.flush node]) ≠ [] := by
    intro hnil
    rw [hnil] at hmem
    cases hmem
  refine ⟨hcount, ⟨_, (hb.rows _).mpr ⟨c, hne, rfl⟩, rfl⟩, fun row hrow hid => ?_⟩
  obtain ⟨d, -, rfl⟩ := (hb.rows row).mp hrow
  obtain rfl : d = c := hid
  show min (memories _).length u32Max = 1
  rw [hmem]
  rfl

theorem LoopInv.flush (h : LoopInv l) (hs : ∀ c ∈ l.stayed, samplesOf c l.window = 1)
    {phase : LoopPhase} (hp : PhaseInv [] l.readable phase) :
    LoopInv { l.flush env node with phase := phase } := by
  obtain ⟨hmax, hkeys, hinv⟩ := flush_empties env h.aggregator node
  have hroll := call_spec env h.aggregator (.flush node)
  refine ⟨hinv, ?_, fun c hc => hc, fun x hx => absurd hx List.not_mem_nil, hp, fun w hw => ?_⟩
  · show (l.aggregator.flush env node).1.activeKeys.card < (l.aggregator.flush env node).1.maxKeys
    rw [hkeys, hmax]
    exact Nat.lt_of_le_of_lt (Nat.zero_le _) h.room
  · rcases List.mem_append.mp hw with hw | hw
    · exact h.closed w hw
    · rcases hroll with ⟨hnone, -⟩ | ⟨b, hb, hrollup, -⟩
      · rw [hnone] at hw
        exact absurd hw List.not_mem_nil
      · rw [hb] at hw
        rw [List.mem_singleton.mp hw]
        exact sampled_flush h hs hrollup

theorem loopInv_step (h : LoopInv l) (hstep : CalmLoopStep env node l l') : LoopInv l' := by
  obtain ⟨ev, hstep, calm⟩ := hstep
  cases hstep with
  | cgroups readable =>
    exact ⟨h.aggregator, h.room, fun c hc => hc.2, h.raw, h.phase.mono fun c hc => hc.1, h.closed⟩
  | event e labels tracked hp ht =>
    have calm : CalmCall l.aggregator (.event e labels node) := calm
    have hphase := h.phase
    rw [hp] at hphase
    have hraw : (Call.event e labels node).rawSample = false := decide_eq_false calm.1
    have hkeep : (l.call env (.event e labels node)).phase = .selecting := by
      rw [call_eq env h calm]
      exact hp
    have hzero : ∀ c, samplesOf c (l.window ++ [.event e labels node]) = 0 := by
      intro c
      rw [samplesOf_append, hphase c]
      rfl
    have hcall := h.call env calm hraw .selecting tracked hzero
    rw [← hkeep] at hcall
    exact hcall
  | evict gone hp hg => exact ⟨h.aggregator, h.room, h.stays, h.raw, h.phase, h.closed⟩
  | tickStart targets last hp nodup ht =>
    have hphase := h.phase
    rw [hp] at hphase
    refine ⟨h.aggregator, h.room, h.stays, h.raw, ⟨hphase, nodup, fun c hc => Or.inl ?_⟩, h.closed⟩
    have hmem := calm c hc
    rw [← ht, List.mem_toFinset] at hmem
    exact hmem
  | read found hp hr =>
    rename_i c rest read last
    have hphase := h.phase
    rw [hp] at hphase
    obtain ⟨hzero, hnodup, hstay⟩ := hphase
    refine ⟨h.aggregator, h.room, h.stays, h.raw, ⟨hzero, ?_, fun d hd => ?_⟩, h.closed⟩
    · cases found with
      | none =>
        rw [Option.toList_none, List.append_nil]
        exact (List.nodup_middle.mp hnodup).of_cons
      | some r =>
        rw [Option.toList_some, List.map_append, List.map_singleton, hr.2 r rfl,
          List.append_assoc]
        exact hnodup
    · rcases hstay d hd with hmem | ⟨r, hmem, hid, hm⟩
      · rcases List.mem_cons.mp hmem with rfl | hmem
        · obtain ⟨bytes, usage, rfl⟩ := hr.1 (h.stays d hd)
          exact Or.inr ⟨_, List.mem_append_right _ (List.mem_singleton_self _), rfl,
            Option.some_ne_none _⟩
        · exact Or.inl hmem
      · exact Or.inr ⟨r, List.mem_append_left _ hmem, hid, hm⟩
  | readDone rs labels hp =>
    have hphase := h.phase
    rw [hp] at hphase
    obtain ⟨hzero, hnodup, hstay⟩ := hphase
    refine ⟨h.aggregator, h.room, h.stays, h.raw, ⟨fun c hc => ?_, fun call hcall => ?_⟩, h.closed⟩
    · rcases hstay c hc with hmem | ⟨r, hmem, rfl, hm⟩
      · exact absurd hmem List.not_mem_nil
      · rw [samplesOf_append, hzero, tickCalls_eq, samplesOf_read labels l.baseline rs.distinct hmem hm]
    · rw [tickCalls_eq] at hcall
      obtain ⟨r, -, hcall⟩ := List.mem_flatMap.mp hcall
      have hs := sampled_pairCalls hcall
      cases call with
      | event e labels node => cases hs
      | _ => rfl
  | taskFailed hp => exact calm.elim
  | ingest hp =>
    rename_i c rest last
    have hphase := h.phase
    rw [hp] at hphase
    refine h.call env calm (hphase.2 c List.mem_cons_self) (.ingesting rest last)
      (l.call env c).tracked ⟨fun d hd => ?_, fun call hcall => ?_⟩
    · rw [List.append_assoc]
      exact hphase.1 d hd
    · exact hphase.2 call (List.mem_cons_of_mem _ hcall)
  | flush hp =>
    rename_i last
    have hphase := h.phase
    rw [hp] at hphase
    refine h.flush (fun c hc => ?_) ?_
    · rw [← List.append_nil l.window]
      exact hphase.1 c hc
    · cases last with
      | false => exact fun c => rfl
      | true => trivial

variable {tracked : Finset Nat} {readable : Set Nat} {baseline : Baseline}

theorem loopInv_steps (h : LoopInv l) (run : Relation.ReflTransGen (CalmLoopStep env node) l l') :
    LoopInv l' := by
  induction run with
  | refl => exact h
  | tail _ hstep ih => exact loopInv_step ih hstep

theorem loopInv_run (run : Relation.ReflTransGen (CalmLoopStep env node)
    (.start env tracked readable baseline) l) : LoopInv l := by
  have hstart : LoopInv (.start env tracked readable baseline) := by
    refine ⟨aggregatorInv_new env defaultMaxKeys, ?_, fun c hc => hc,
      fun x hx => absurd hx List.not_mem_nil, fun c => rfl, fun w hw => absurd hw List.not_mem_nil⟩
    show 0 < 4096
    decide
  exact loopInv_steps hstart run

/-- **No window closes unsampled** in a run in which no call fills the active map, no ring event
carries a memory sample, the blocking task does not fail, and each tick finds the cgroups that
stayed among the tracked ones. -/
theorem windows_sampled (run : Relation.ReflTransGen (CalmLoopStep env node)
    (.start env tracked readable baseline) l) : ∀ w ∈ l.closed, w.Sampled :=
  (loopInv_run run).closed

/-! ## Ticks -/

/-- The blocking task reads `bytes` of every target. -/
theorem reads_run (bytes : Nat) (targets : List Nat) {last : Bool} : ∀ {l : MainLoop}
    {read : List Reading}, l.phase = .sampling targets read last →
    Relation.ReflTransGen (CalmLoopStep env node) l
      { l with phase := .sampling [] (read ++ targets.map fun c => ⟨c, some bytes, none⟩) last } := by
  induction targets with
  | nil =>
    intro l read hp
    rw [List.map_nil, List.append_nil, ← hp]
  | cons c targets ih =>
    intro l read hp
    have hfound : Reads l.readable c (some ⟨c, some bytes, none⟩) := by
      refine ⟨fun _ => ⟨bytes, none, rfl⟩, ?_⟩
      rintro r ⟨⟩
      rfl
    have hread : CalmLoopStep env node l
        { l with phase := .sampling targets (read ++ [⟨c, some bytes, none⟩]) last } :=
      ⟨.other, .read _ hp hfound, trivial⟩
    have hrest := ih (l := { l with
      phase := .sampling targets (read ++ [⟨c, some bytes, none⟩]) last }) rfl
    rw [List.append_assoc] at hrest
    exact .head hread hrest

/-- Nothing but the aggregator, the open window and the phase changes. -/
structure SameWindow (l l' : MainLoop) : Prop where
  maxKeys : l'.aggregator.maxKeys = l.aggregator.maxKeys
  tracked : l'.tracked = l.tracked
  readable : l'.readable = l.readable
  stayed : l'.stayed = l.stayed
  closed : l'.closed = l.closed

/-- The samples of a tick are handed over, where they all fit below `max_keys`. -/
theorem ingests_run {keys : Finset Nat} (calls : List Call) {last : Bool} : ∀ {l : MainLoop},
    LoopInv l → l.phase = .ingesting calls last → l.aggregator.activeKeys ⊆ keys →
    keys.card < l.aggregator.maxKeys →
    (∀ call ∈ calls, ∃ c ∈ keys, ∃ bytes labels, call = .memorySample c bytes labels node) →
    ∃ l', Relation.ReflTransGen (CalmLoopStep env node) l l' ∧ l'.phase = .ingesting [] last ∧
      SameWindow l l' := by
  induction calls with
  | nil => exact fun {l} _ hp _ _ _ => ⟨l, .refl, hp, rfl, rfl, rfl, rfl, rfl⟩
  | cons call calls ih =>
    intro l h hp hkeys room hcalls
    obtain ⟨c, hc, bytes, labels, rfl⟩ := hcalls call List.mem_cons_self
    have hinsert : insert c l.aggregator.activeKeys ⊆ keys := Finset.insert_subset hc hkeys
    have hlt : (insert c l.aggregator.activeKeys).card < l.aggregator.maxKeys :=
      Nat.lt_of_le_of_lt (Finset.card_le_card hinsert) room
    have hi : Ingested c l.aggregator (l.aggregator.call env (.memorySample c bytes labels node)) :=
      ingest_spec env h.aggregator c (.addMemory bytes labels) node
    have hcalm : CalmCall l.aggregator (.memorySample c bytes labels node) := hlt
    have hstep : CalmLoopStep env node l
        { l.call env (.memorySample c bytes labels node) with phase := .ingesting calls last } :=
      ⟨_, .ingest hp, hcalm⟩
    have hinv := loopInv_step h hstep
    rw [call_eq env h hcalm] at hstep hinv
    obtain ⟨l', run, hphase, hsame⟩ := ih hinv rfl (by rw [(hi.kept hlt).2]; exact hinsert)
      (by rw [hi.maxKeys]; exact room) fun call hcall => hcalls call (List.mem_cons_of_mem _ hcall)
    exact ⟨l', .head hstep run, hphase, hsame.maxKeys.trans hi.maxKeys, hsame.tracked,
      hsame.readable, hsame.stayed, hsame.closed⟩

/-- **A calm run goes on with a tick**, which closes the open window with a batch. -/
theorem tick_run (env : Env) (node : String) (h : LoopInv l) (hp : l.phase = .selecting)
    (hne : l.stayed.Nonempty) (hstay : ∀ c ∈ l.stayed, c ∈ l.tracked)
    (room : (l.aggregator.activeKeys ∪ l.tracked).card < l.aggregator.maxKeys) :
    ∃ l', Relation.ReflTransGen (CalmLoopStep env node) l l' ∧ l'.phase = .selecting ∧
      (∃ batch calls, l'.closed = l.closed ++ [⟨batch, calls, l.stayed⟩]) ∧
      l'.aggregator.activeKeys = ∅ ∧ l'.aggregator.maxKeys = l.aggregator.maxKeys ∧
      l'.tracked = l.tracked ∧ l'.readable = l.readable ∧ l'.stayed = l.readable := by
  let targets := l.tracked.toList
  let rs : Readings := ⟨targets.map fun c => ⟨c, some 1, none⟩, by
    rw [List.map_map]
    exact (List.map_id _).symm ▸ l.tracked.nodup_toList⟩
  let labels : TickLabels := ⟨fun _ => {}, fun _ => {}, node⟩
  let calls := tickCalls labels (some rs) l.baseline
  let sampling : MainLoop := { l with phase := .sampling targets [] false }
  have hstart : CalmLoopStep env node l sampling :=
    ⟨_, .tickStart targets false hp l.tracked.nodup_toList l.tracked.toList_toFinset, hstay⟩
  have hsampling : sampling.phase = .sampling targets [] false := rfl
  have hreads : Relation.ReflTransGen (CalmLoopStep env node) sampling
      { l with phase := .sampling [] rs.list false } := reads_run 1 targets hsampling
  have hdone : CalmLoopStep env node { l with phase := .sampling [] rs.list false }
      { l with phase := .ingesting calls false, baseline := rebaseTick (some rs) l.baseline } :=
    ⟨_, .readDone rs labels rfl, trivial⟩
  have hread := (Relation.ReflTransGen.head hstart hreads).tail hdone
  have hcalls : ∀ call ∈ calls, ∃ c ∈ l.aggregator.activeKeys ∪ l.tracked, ∃ bytes labels,
      call = .memorySample c bytes labels node := by
    intro call hcall
    have hcall : call ∈ rs.list.flatMap (pairCalls labels l.baseline) :=
      tickCalls_eq labels l.baseline rs ▸ hcall
    obtain ⟨r, hr, hcall⟩ := List.mem_flatMap.mp hcall
    obtain ⟨c, hc, rfl⟩ := List.mem_map.mp hr
    exact ⟨c, Finset.mem_union_right _ (Finset.mem_toList.mp hc), 1, {}, List.mem_singleton.mp hcall⟩
  obtain ⟨l₁, hingest, hphase, hsame⟩ := ingests_run calls (loopInv_steps h hread) rfl
    Finset.subset_union_left room hcalls
  have h₁ := loopInv_steps h (hread.trans hingest)
  have hstep : CalmLoopStep env node l₁ { l₁.flush env node with phase := .selecting } :=
    ⟨.other, .flush hphase, trivial⟩
  obtain ⟨hmax, hkeys, hempty⟩ := flush_empties env h₁.aggregator node
  -- a cgroup that stayed was sampled, so the batch has a row
  have hbatch : ∃ batch, (l₁.aggregator.call env (.flush node)).2 = some batch := by
    rcases call_spec env h₁.aggregator (.flush node) with ⟨-, hinv⟩ | ⟨batch, hb, -⟩
    · obtain ⟨c, hc⟩ := hne
      have hsampled := h₁.phase
      rw [hphase] at hsampled
      have hone := hsampled.1 c (hsame.stayed ▸ hc)
      rw [List.append_nil, ← memories_touches c h₁.raw] at hone
      have htouched : touches c (l₁.window ++ [.flush node]) ≠ [] := by
        rw [touches_snoc]
        intro hnil
        rw [List.append_eq_nil_iff.mp hnil |>.1] at hone
        cases hone
      have hheld := hinv.held c
      rw [if_neg htouched] at hheld
      exact absurd (hheld.symm.trans (hempty.held c)) (Option.some_ne_none _)
    · exact ⟨batch, hb⟩
  obtain ⟨batch, hb⟩ := hbatch
  refine ⟨_, (hread.trans hingest).tail hstep, rfl, ⟨batch, l₁.window ++ [.flush node], ?_⟩, hkeys,
    hmax.trans hsame.maxKeys, hsame.tracked, hsame.readable, hsame.readable⟩
  show l₁.closed ++ ((l₁.aggregator.call env (.flush node)).2.map fun batch =>
    (⟨batch, l₁.window ++ [.flush node], l₁.stayed⟩ : ClosedWindow)).toList = _
  rw [hb, hsame.closed, hsame.stayed]
  rfl

/-- Two cgroups with an exec in one of them, and a tick; then the other one is removed and evicted,
and one more tick. -/
theorem windows_sampled_two_ticks :
    ∃ l, Relation.ReflTransGen (CalmLoopStep ⟨id, fun _ => "b"⟩ "n")
        (.start ⟨id, fun _ => "b"⟩ {7, 8} {7, 8} fun _ => none) l ∧
      l.closed.map ClosedWindow.stayed = [{7, 8}, {7}] ∧ ∀ w ∈ l.closed, w.Sampled := by
  let env : Env := ⟨id, fun _ => "b"⟩
  let start : MainLoop := .start env {7, 8} {7, 8} fun _ => none
  let exec : Call := .event ⟨eventKindWorkloadIdentity, 7, 0⟩ {} "n"
  let execed : MainLoop := { start.call env exec with tracked := {7, 8} }
  have hexec : CalmLoopStep env "n" start execed := by
    refine ⟨_, .event _ {} {7, 8} rfl (Or.inl rfl), by decide, fun _ => ?_⟩
    show (insert 7 (∅ : Finset Nat)).card < 4096
    decide
  have hcovered : ∀ c ∈ execed.stayed, c ∈ execed.tracked := by
    rintro c (rfl | rfl) <;> decide
  obtain ⟨l₁, hfirst, hphase, ⟨batch, calls, hclosed⟩, hkeys, hmax, htracked, hreadable, hstayed⟩ :=
    tick_run env "n" (loopInv_run (.single hexec)) rfl ⟨7, Or.inl rfl⟩ hcovered (by decide)
  have htracked : l₁.tracked = {7, 8} := htracked
  have hstayed : l₁.stayed = {7, 8} := hstayed
  have hclosed : l₁.closed = [⟨batch, calls, {7, 8}⟩] := hclosed
  let removed : MainLoop := { l₁ with readable := {7}, stayed := l₁.stayed ∩ {7} }
  let evicted : MainLoop := { removed with tracked := removed.tracked \ {8} }
  have hremoved : CalmLoopStep env "n" l₁ removed := ⟨_, .cgroups {7}, trivial⟩
  have hevicted : CalmLoopStep env "n" removed evicted := by
    refine ⟨_, .evict {8} hphase fun c hc hin => ?_, trivial⟩
    rw [Finset.mem_singleton.mp hc] at hin
    exact absurd hin (by decide : ¬ (8 : Nat) = 7)
  have hstays : evicted.stayed = {7} := by
    show l₁.stayed ∩ {7} = {7}
    rw [hstayed]
    exact Set.inter_eq_right.mpr fun c hc => Or.inl hc
  have hkept : evicted.tracked = {7} := by
    show l₁.tracked \ {8} = {7}
    rw [htracked]
    decide
  have hcovered' : ∀ c ∈ evicted.stayed, c ∈ evicted.tracked := by
    rw [hstays, hkept]
    exact fun c hc => Finset.mem_singleton.mpr hc
  have hroom : (evicted.aggregator.activeKeys ∪ evicted.tracked).card <
      evicted.aggregator.maxKeys := by
    rw [hkept]
    show (l₁.aggregator.activeKeys ∪ {7}).card < l₁.aggregator.maxKeys
    rw [hkeys, hmax]
    decide
  have hsecond := ((Relation.ReflTransGen.head hexec hfirst).tail hremoved).tail hevicted
  obtain ⟨l₂, hlast, -, ⟨batch', calls', hclosed'⟩, -⟩ := tick_run env "n" (loopInv_run hsecond)
    hphase (hstays ▸ Set.singleton_nonempty 7) hcovered' hroom
  refine ⟨l₂, hsecond.trans hlast, ?_, windows_sampled (hsecond.trans hlast)⟩
  rw [hclosed', hstays, show evicted.closed = [⟨batch, calls, {7, 8}⟩] from hclosed]
  rfl

/-! ## An exec storm -/

/-- An exec in cgroup `c`. -/
def execEvent (c : Nat) : StatixEvent := ⟨eventKindWorkloadIdentity, c, 0⟩

/-- After execs in the cgroups below `k`: no tick was due yet. -/
structure Storm (k : Nat) (l : MainLoop) : Prop where
  aggregator : AggregatorInv l.aggregator l.window
  keys : l.aggregator.activeKeys = Finset.range k
  maxKeys : l.aggregator.maxKeys = defaultMaxKeys
  phase : l.phase = .selecting
  unsampled : samplesOf 0 l.window = 0
  stayed : 0 ∈ l.stayed
  closed : l.closed = []

/-- The next exec, as an ingest call. -/
theorem storm_ingest (env : Env) (node : String) {k : Nat} (h : Storm k l) :
    Ingested k l.aggregator (l.aggregator.call env (.event (execEvent k) {} node)) :=
  ingest_spec env h.aggregator k (.addExec {}) node

theorem storm_step (env : Env) (node : String) {k : Nat} (h : Storm k l)
    (hk : k + 1 < defaultMaxKeys) : Storm (k + 1) (l.call env (.event (execEvent k) {} node)) := by
  have hi := storm_ingest env node h
  have hins : insert k l.aggregator.activeKeys = Finset.range (k + 1) := by
    rw [h.keys]
    exact Finset.range_add_one.symm
  have hlt : (insert k l.aggregator.activeKeys).card < l.aggregator.maxKeys := by
    rw [hins, Finset.card_range, h.maxKeys]
    exact hk
  obtain ⟨hout, hkeys⟩ := hi.kept hlt
  have hroll := call_spec env h.aggregator (.event (execEvent k) {} node)
  have hinv : AggregatorInv (l.aggregator.call env (.event (execEvent k) {} node)).1
      (l.window ++ [.event (execEvent k) {} node]) := by
    rcases hroll with ⟨-, hinv⟩ | ⟨b, hb, -⟩
    · exact hinv
    · rw [hout] at hb
      cases hb
  have e : l.call env (.event (execEvent k) {} node) = { l with
      aggregator := (l.aggregator.call env (.event (execEvent k) {} node)).1
      window := l.window ++ [.event (execEvent k) {} node] } := by
    unfold MainLoop.call
    simp [hout]
  rw [e]
  refine ⟨hinv, hkeys.trans hins, hi.maxKeys.trans h.maxKeys, h.phase, ?_, h.stayed, h.closed⟩
  show samplesOf 0 (l.window ++ [_]) = 0
  rw [samplesOf_append, h.unsampled]
  rfl

theorem storm_run (env : Env) (node : String) : ∀ k, k < defaultMaxKeys →
    ∃ l, Relation.ReflTransGen (fun l l' => ∃ ev, LoopStep env node ev l l')
      (.start env tracked Set.univ baseline) l ∧ Storm k l := by
  intro k
  induction k with
  | zero =>
    intro _
    exact ⟨_, .refl, aggregatorInv_new env defaultMaxKeys, rfl, rfl, rfl, rfl, trivial, rfl⟩
  | succ k ih =>
    intro hk
    obtain ⟨l, run, h⟩ := ih (Nat.lt_of_succ_lt hk)
    obtain ⟨hinv, hkeys, hmax, hphase, hnone, hstay, hclosed⟩ := storm_step env node h hk
    exact ⟨_, run.tail ⟨_, .event (execEvent k) {} l.tracked h.phase (Or.inl rfl)⟩,
      hinv, hkeys, hmax, hphase, hnone, hstay, hclosed⟩

/-- **A window that was never sampled.** 4096 execs in different cgroups between two ticks fill the
active map. Its early flush closes the window without a sample, though every cgroup stayed. -/
theorem unsampled_window :
    ∃ l, Relation.ReflTransGen
        (fun l l' => ∃ ev, LoopStep ⟨id, fun _ => "b"⟩ "n" ev l l')
        (.start ⟨id, fun _ => "b"⟩ (Finset.range defaultMaxKeys) Set.univ fun _ => none) l ∧
      ∃ w ∈ l.closed, ¬w.Sampled := by
  let env : Env := ⟨id, fun _ => "b"⟩
  obtain ⟨l, run, h⟩ := storm_run env "n" 4095 (by decide)
  have hi := storm_ingest env "n" h
  have hle : l.aggregator.maxKeys ≤ (insert 4095 l.aggregator.activeKeys).card := by
    rw [h.keys, h.maxKeys, ← Finset.range_add_one, Finset.card_range]
    exact Nat.le_refl _
  obtain ⟨hout, -⟩ := hi.flushed hle
  obtain ⟨b, hb⟩ := Option.isSome_iff_exists.mp hout
  have hclosed : (l.call env (.event (execEvent 4095) {} "n")).closed =
      [⟨b, l.window ++ [.event (execEvent 4095) {} "n"], l.stayed⟩] := by
    unfold MainLoop.call MainLoop.close
    simp [hb, h.closed]
  refine ⟨_, run.tail ⟨_, .event (execEvent 4095) {} l.tracked h.phase (Or.inl rfl)⟩,
    ⟨b, l.window ++ [.event (execEvent 4095) {} "n"], l.stayed⟩, ?_, ?_⟩
  · show _ ∈ (l.call env (.event (execEvent 4095) {} "n")).closed
    rw [hclosed]
    exact List.mem_singleton_self _
  · intro hs
    obtain ⟨hone, -⟩ := hs 0 h.stayed
    rw [samplesOf_append, h.unsampled] at hone
    cases hone

end Statix.Rollup
