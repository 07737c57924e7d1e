import Statix.Delivery.Agent
import Statix.Wal.Recovery

/-!
# Trials in the half-open circuit

In the half-open circuit every sweep of the drainer that finds a backlog replays one frame
(`statix/src/wal/drainer.rs:48-54`). The sweeps have a timer of their own; the retry worker may
meanwhile sleep on an older batch, and then no POST outcome moves the circuit.

* `trialsAfter`: the frames moved into the retry queue since the `try_half_open` that made the
  circuit half-open, as long as no POST outcome is recorded.
* `TrialsInv`: where the drainer is while it counts.
* **`single_trial`**: at most one frame, if no sweep begins while a trial is under way.
* `second_trial`: without that, a second one.
-/

namespace Statix.Delivery

open Statix.Lib Statix.Wal

variable [Crc32]

/-! ## Counting the trials -/

/-- The step from `a` to `a'` records a POST outcome. -/
def posted (a a' : Agent) : Bool :=
  match a.worker, a'.worker with
  | .posting _, .idle => true
  | .posting _, .sleeping _ => true
  | _, _ => false

/-- It moves the circuit from open to half-open. -/
def probed (a a' : Agent) : Bool := a.circuit.state = .opened ∧ a'.circuit.state = .halfOpen

/-- It moves a WAL frame into the retry queue. -/
def replayed (a a' : Agent) : Bool :=
  match a.drainer, a'.drainer with
  | .peeked _ _, .sent _ _ => true
  | _, _ => false

/-- The number of trials after a step, `none` outside an episode. -/
def trialsAfter (trials : Option Nat) (a a' : Agent) : Option Nat :=
  if posted a a' then none
  else if probed a a' then some 0
  else if replayed a a' then trials.map (· + 1)
  else trials

/-- The agent with the number of trials since the circuit went half-open. -/
structure Watched where
  agent : Agent
  trials : Option Nat

/-- A step of the agent. -/
def WatchedStep (x x' : Watched) : Prop :=
  AgentStep x.agent x'.agent ∧ x'.trials = trialsAfter x.trials x.agent x'.agent

/-- A step that, if it begins a trial, finds none under way. -/
def LoneTrialStep (x x' : Watched) : Prop :=
  WatchedStep x x' ∧ (x.agent.drainer = .matched .halfOpen → x'.agent.drainer = .peeking true →
    ∀ k, x.trials = some k → k = 0)

/-- Before the first step. -/
def Watched.start (s : Store) : Watched := ⟨.start s, none⟩

/-! ## The invariant -/

/-- How many trials there can be, by where the drainer is. -/
def trialsAt (k : Nat) : Drainer → Prop
  | .sweeping => k ≤ 1
  | .matched state => state = .halfOpen ∧ k ≤ 1
  | .peeking trial => trial = true ∧ k = 0
  | .peeked trial _ => trial = true ∧ k = 0
  | .sent trial _ => trial = true ∧ k = 1
  | _ => False

/-- **While trials are counted the circuit is half-open**, and the drainer is in a trial or about to
begin one. -/
def TrialsInv (x : Watched) : Prop :=
  ∀ k, x.trials = some k → x.agent.circuit.state = .halfOpen ∧ trialsAt k x.agent.drainer

variable {x x' : Watched} {a a' : Agent}

omit [Crc32] in
theorem posted_of_worker (h : a'.worker = a.worker) : posted a a' = false := by
  unfold posted
  rw [h]
  cases a.worker <;> rfl

omit [Crc32] in
theorem probed_of_circuit (h : a'.circuit = a.circuit) : probed a a' = false := by
  unfold probed
  rw [h]
  cases a.circuit.state <;> rfl

omit [Crc32] in
/-- A step outside the drainer and the circuit. -/
theorem TrialsInv.frame (h : TrialsInv x) (hs : x'.trials = trialsAfter x.trials x.agent x'.agent)
    (hc : x'.agent.circuit = x.agent.circuit) (hd : x'.agent.drainer = x.agent.drainer)
    (hw : posted x.agent x'.agent = false) : TrialsInv x' := by
  have hr : replayed x.agent x'.agent = false := by
    unfold replayed
    rw [hd]
    cases x.agent.drainer <;> rfl
  have ht : x'.trials = x.trials := by
    rw [hs, trialsAfter, hw, probed_of_circuit hc, hr]
    rfl
  intro k hk
  rw [ht] at hk
  rw [hc, hd]
  exact h k hk

omit [Crc32] in
/-- A step of the drainer that neither probes nor sends. -/
theorem TrialsInv.drain (h : TrialsInv x) (hs : x'.trials = trialsAfter x.trials x.agent x'.agent)
    (hc : x'.agent.circuit = x.agent.circuit) (hw : x'.agent.worker = x.agent.worker)
    (hr : replayed x.agent x'.agent = false)
    (hd : ∀ k, x.trials = some k → x.agent.circuit.state = .halfOpen →
      trialsAt k x.agent.drainer → trialsAt k x'.agent.drainer) : TrialsInv x' := by
  have ht : x'.trials = x.trials := by
    rw [hs, trialsAfter, posted_of_worker hw, probed_of_circuit hc, hr]
    rfl
  intro k hk
  rw [ht] at hk
  obtain ⟨hstate, hat⟩ := h k hk
  rw [hc]
  exact ⟨hstate, hd k hk hstate hat⟩

omit [Crc32] in
/-- A POST outcome ends the episode. -/
theorem TrialsInv.outcome (hs : x'.trials = trialsAfter x.trials x.agent x'.agent)
    (hw : posted x.agent x'.agent = true) : TrialsInv x' := by
  intro k hk
  rw [hs, trialsAfter, if_pos hw] at hk
  cases hk

omit [Crc32] in
/-- `try_half_open` begins an episode if it moves the circuit. -/
theorem TrialsInv.probe (h : TrialsInv x) (hs : x'.trials = trialsAfter x.trials x.agent x'.agent)
    (hd : x.agent.drainer = .matched .opened) (hw : x'.agent.worker = x.agent.worker)
    (hd' : x'.agent.drainer = .sweeping) : TrialsInv x' := by
  have hr : replayed x.agent x'.agent = false := by
    unfold replayed
    rw [hd]
  have hout : x.trials = none := by
    cases ht : x.trials with
    | none => rfl
    | some k =>
      have hat := (h k ht).2
      rw [hd] at hat
      cases hat.1
  intro k hk
  rw [hs, trialsAfter, posted_of_worker hw, hr, hout] at hk
  by_cases hp : probed x.agent x'.agent = true
  · rw [if_neg Bool.false_ne_true, if_pos hp] at hk
    cases hk
    rw [hd']
    exact ⟨(of_decide_eq_true hp).2, Nat.zero_le 1⟩
  · rw [if_neg Bool.false_ne_true, if_neg hp] at hk
    cases hk

omit [Crc32] in
/-- The frame that is sent counts as a trial. -/
theorem TrialsInv.send (h : TrialsInv x) (hs : x'.trials = trialsAfter x.trials x.agent x'.agent)
    {trial : Bool} {b : Numbered} (hd : x.agent.drainer = .peeked trial b)
    (hc : x'.agent.circuit = x.agent.circuit) (hw : x'.agent.worker = x.agent.worker)
    (hd' : x'.agent.drainer = .sent trial b) : TrialsInv x' := by
  have hr : replayed x.agent x'.agent = true := by
    unfold replayed
    rw [hd, hd']
  intro k hk
  rw [hs, trialsAfter, posted_of_worker hw, probed_of_circuit hc, hr] at hk
  obtain ⟨j, hj, rfl⟩ := Option.map_eq_some_iff.mp hk
  obtain ⟨hstate, hat⟩ := h j hj
  rw [hd] at hat
  rw [hc, hd']
  exact ⟨hstate, hat.1, congrArg (· + 1) hat.2⟩

/-- **A step that begins no sweep during a trial keeps the invariant.** -/
theorem trialsInv_step (h : TrialsInv x) (hstep : LoneTrialStep x x') : TrialsInv x' := by
  obtain ⟨⟨hstep, hs⟩, hlone⟩ := hstep
  obtain ⟨a, trials⟩ := x
  obtain ⟨a', trials'⟩ := x'
  dsimp only at hstep hs hlone
  cases hstep with
  | success hw | nonRetryable hw | retryable hw =>
    exact .outcome (x := ⟨a, trials⟩) hs (by simp [posted, hw])
  | workerLock hw _ | workerRecv hw _ | wake hw => exact h.frame hs rfl rfl (by simp [posted, hw])
  | probe hd => exact h.probe hs hd rfl rfl
  | sweep hd =>
    refine h.drain hs rfl rfl (by simp [replayed, hd]) fun k _ hhalf hat => ?_
    rw [show a.drainer = _ from hd] at hat
    exact ⟨hhalf, hat⟩
  | trial hd _ _ =>
    exact h.drain hs rfl rfl (by simp [replayed, hd]) fun k hk _ _ => ⟨rfl, hlone hd rfl k hk⟩
  | drain hd _ _ =>
    refine h.drain hs rfl rfl (by simp [replayed, hd]) fun k _ _ hat => ?_
    rw [show a.drainer = _ from hd] at hat
    cases hat.1
  | noBacklog hd _ _ _ =>
    refine h.drain hs rfl rfl (by simp [replayed, hd]) fun k _ _ hat => ?_
    rw [show a.drainer = _ from hd] at hat
    exact hat.2
  | drainPause hd _ | drainGo hd _ _ =>
    refine h.drain hs rfl rfl (by simp [replayed, hd]) fun k _ _ hat => ?_
    rw [show a.drainer = .draining from hd] at hat
    exact hat.elim
  | peekFrame io hd _ _ =>
    refine h.drain hs rfl rfl (by simp [replayed, hd]) fun k _ _ hat => ?_
    rw [show a.drainer = _ from hd] at hat
    exact hat
  | peekEmpty _ hd _ _ | noCapacity hd _ =>
    refine h.drain hs rfl rfl (by simp [replayed, hd]) fun k _ _ hat => ?_
    rw [show a.drainer = _ from hd] at hat
    exact Nat.le_trans (Nat.le_of_eq hat.2) (Nat.zero_le 1)
  | replaySend hd _ => exact h.send hs hd rfl rfl rfl
  | replayCommit hd _ =>
    refine h.drain hs rfl rfl (by simp [replayed, hd]) fun k _ _ hat => ?_
    rw [show a.drainer = _ from hd] at hat
    rw [hat.1]
    exact Nat.le_of_eq hat.2
  | _ => exact h.frame hs rfl rfl (posted_of_worker rfl)

theorem trialsInv_run {s : Store}
    (run : Relation.ReflTransGen LoneTrialStep (Watched.start s) x) : TrialsInv x := by
  induction run with
  | refl =>
    intro k hk
    cases hk
  | tail _ hstep ih => exact trialsInv_step ih hstep

/-- **A single trial in the half-open circuit**, in every run in which no sweep of the drainer
begins in the half-open circuit while a trial frame is without a POST outcome. -/
theorem single_trial {s : Store} (run : Relation.ReflTransGen LoneTrialStep (Watched.start s) x) :
    ∀ k, x.trials = some k → k ≤ 1 := by
  intro k hk
  obtain ⟨-, hat⟩ := trialsInv_run run k hk
  generalize x.agent.drainer = d at hat
  cases d with
  | sweeping => exact hat
  | matched state => exact hat.2
  | peeking trial => exact Nat.le_trans (Nat.le_of_eq hat.2) (Nat.zero_le 1)
  | peeked trial b => exact Nat.le_trans (Nat.le_of_eq hat.2) (Nat.zero_le 1)
  | sent trial b => exact Nat.le_of_eq hat.2
  | draining => exact hat.elim

/-! ## A second trial -/

/-- One batch posted in vain three times, then a probe; the worker sleeps. -/
def outage (s : Store) : Agent :=
  let b : Numbered := ⟨(undelivered s).length, [9]⟩
  { Agent.start s with
    worker := .sleeping b
    circuit := ⟨.halfOpen, 3⟩
    nextId := (undelivered s).length + 1
    handed := [b] }

theorem outage_run (s : Store) :
    Relation.ReflTransGen LoneTrialStep (Watched.start s) ⟨outage s, some 0⟩ := by
  let b : Numbered := ⟨(undelivered s).length, [9]⟩
  let a : Agent := { outage s with circuit := .start, worker := .idle }
  let posting (n : UInt8) : Agent := { a with worker := .posting b, circuit := ⟨.closed, n⟩ }
  let sleeping (n : UInt8) : Agent := { a with worker := .sleeping b, circuit := ⟨.closed, n⟩ }
  let down : Agent := { a with worker := .sleeping b, circuit := ⟨.opened, 3⟩ }
  have step : ∀ {x x' : Watched}, AgentStep x.agent x'.agent →
      x'.trials = trialsAfter x.trials x.agent x'.agent → x'.agent.drainer ≠ .peeking true →
      LoneTrialStep x x' := fun h ht hd => ⟨⟨h, ht⟩, fun _ hd' => absurd hd' hd⟩
  have hsend : LoneTrialStep (Watched.start s) ⟨{ a with queue := [b] }, none⟩ :=
    step (.trySend [9] (by decide) rfl (Nat.zero_lt_succ _)) rfl (fun e => nomatch e)
  have hlock : LoneTrialStep ⟨{ a with queue := [b] }, none⟩
      ⟨{ a with queue := [b], worker := .receiving }, none⟩ :=
    step (.workerLock rfl fun _ h => nomatch h) rfl (fun e => nomatch e)
  have hrecv : LoneTrialStep ⟨{ a with queue := [b], worker := .receiving }, none⟩
      ⟨posting 0, none⟩ := step (.workerRecv rfl rfl) rfl (fun e => nomatch e)
  have hfail₁ : LoneTrialStep ⟨posting 0, none⟩ ⟨sleeping 1, none⟩ :=
    step (.retryable rfl) rfl (fun e => nomatch e)
  have hwake₁ : LoneTrialStep ⟨sleeping 1, none⟩ ⟨posting 1, none⟩ :=
    step (.wake rfl) rfl (fun e => nomatch e)
  have hfail₂ : LoneTrialStep ⟨posting 1, none⟩ ⟨sleeping 2, none⟩ :=
    step (.retryable rfl) rfl (fun e => nomatch e)
  have hwake₂ : LoneTrialStep ⟨sleeping 2, none⟩ ⟨posting 2, none⟩ :=
    step (.wake rfl) rfl (fun e => nomatch e)
  have hfail₃ : LoneTrialStep ⟨posting 2, none⟩ ⟨down, none⟩ :=
    step (.retryable rfl) rfl (fun e => nomatch e)
  have hopen : LoneTrialStep ⟨down, none⟩ ⟨{ down with drainer := .matched .opened }, none⟩ :=
    step (.sweep rfl) rfl (fun e => nomatch e)
  have hprobe : LoneTrialStep ⟨{ down with drainer := .matched .opened }, none⟩ ⟨outage s, some 0⟩ :=
    step (.probe rfl) rfl (fun e => nomatch e)
  exact .head hsend (.head hlock (.head hrecv (.head hfail₁ (.head hwake₁ (.head hfail₂
    (.head hwake₂ (.head hfail₃ (.head hopen (.single hprobe)))))))))

/-- A sweep in the half-open circuit, up to the send of the frame it peeks. -/
theorem trial_steps {f : DecodedFrame} (k : Nat) (hd : a.drainer = .sweeping)
    (state : a.circuit.state = .halfOpen) (free : a.writer.locks = false)
    (backlog : hasBacklog a.store = true) (hf : (peekNext .ok a.store).2 = .frame f)
    (room : a.queue.length < retryQueueCapacity) :
    let a₀ : Agent := { a with drainer := .matched .halfOpen }
    let a₁ : Agent := { a with drainer := .peeking true }
    let a₂ : Agent := { a with
      store := (peekNext .ok a.store).1, drainer := .peeked true (a.peekedBatch f) }
    let a₃ : Agent := { a₂ with
      queue := a.queue ++ [a.peekedBatch f], drainer := .sent true (a.peekedBatch f) }
    WatchedStep ⟨a, some k⟩ ⟨a₀, some k⟩ ∧ WatchedStep ⟨a₀, some k⟩ ⟨a₁, some k⟩ ∧
      WatchedStep ⟨a₁, some k⟩ ⟨a₂, some k⟩ ∧ WatchedStep ⟨a₂, some k⟩ ⟨a₃, some (k + 1)⟩ := by
  intro a₀ a₁ a₂ a₃
  have hsweep : AgentStep a a₀ := by
    have h := AgentStep.sweep hd
    rwa [state] at h
  refine ⟨⟨hsweep, ?_⟩, ⟨.trial (a := a₀) rfl free backlog, ?_⟩,
    ⟨.peekFrame (a := a₁) .ok rfl free hf, ?_⟩, ⟨.replaySend (a := a₂) rfl room, ?_⟩⟩
  · simp [trialsAfter, a₀, posted_of_worker, probed_of_circuit, replayed, hd]
  · simp [trialsAfter, a₀, a₁, posted_of_worker, probed_of_circuit, replayed]
  · simp [trialsAfter, a₁, a₂, posted_of_worker, probed_of_circuit, replayed]
  · simp [trialsAfter, a₂, a₃, posted_of_worker, probed_of_circuit, replayed]

/-- A first trial in the outage: the frame `f` is in the retry queue and not committed yet. -/
def firstTrial (s : Store) (f : DecodedFrame) : Agent :=
  { outage s with
    store := (peekNext .ok s).1
    queue := [(outage s).peekedBatch f]
    drainer := .sent true ((outage s).peekedBatch f) }

theorem firstTrial_run {s : Store} {f : DecodedFrame} (backlog : hasBacklog s = true)
    (hf : (peekNext .ok s).2 = .frame f) :
    Relation.ReflTransGen LoneTrialStep (Watched.start s) ⟨firstTrial s f, some 1⟩ := by
  obtain ⟨h₀, h₁, h₂, h₃⟩ :=
    trial_steps (a := outage s) 0 rfl rfl rfl backlog hf (Nat.zero_lt_succ _)
  have hsweep := (outage_run s).tail ⟨h₀, fun hd => nomatch hd⟩
  have htrial := hsweep.tail ⟨h₁, fun _ _ k hk => (Option.some.inj hk).symm⟩
  have hpeek := htrial.tail ⟨h₂, fun hd => nomatch hd⟩
  exact hpeek.tail ⟨h₃, fun hd => nomatch hd⟩

/-- The commit ends the first trial, and the next sweep begins another one. -/
theorem secondTrial_run {s : Store} {f g : DecodedFrame} (backlog : hasBacklog s = true)
    (hf : (peekNext .ok s).2 = .frame f)
    (backlog' : hasBacklog (commitPending (peekNext .ok s).1) = true)
    (hg : (peekNext .ok (commitPending (peekNext .ok s).1)).2 = .frame g) :
    ∃ x, Relation.ReflTransGen WatchedStep (Watched.start s) x ∧ x.trials = some 2 := by
  have hfirst : Relation.ReflTransGen WatchedStep (Watched.start s) ⟨firstTrial s f, some 1⟩ :=
    Relation.ReflTransGen.mono (fun _ _ h => h.1) _ _ (firstTrial_run backlog hf)
  let a : Agent := { firstTrial s f with
    store := commitPending (peekNext .ok s).1
    ahead := if (peekNext .ok s).1.pendingAdvance = none then (outage s).ahead
      else (outage s).ahead.tail
    drainer := .sweeping }
  have hsent : (firstTrial s f).drainer = .sent true ((outage s).peekedBatch f) := rfl
  have hcommit : WatchedStep ⟨firstTrial s f, some 1⟩ ⟨a, some 1⟩ :=
    ⟨AgentStep.replayCommit hsent rfl, rfl⟩
  obtain ⟨h₀, h₁, h₂, h₃⟩ := trial_steps (a := a) 1 rfl rfl rfl backlog' hg (by
    show 1 < retryQueueCapacity
    decide)
  exact ⟨_, ((((hfirst.tail hcommit).tail h₀).tail h₁).tail h₂).tail h₃, rfl⟩

/-- A directory in which an earlier life left two frames. -/
def twoFrames : Disk :=
  (appendOne .ok (appendOne .ok (emptyStore smallConfig fun _ => none) [7]).1 [8]).1.disk

/-- The store recovered from it. -/
def recoveredTwo : Store :=
  (recover .ok smallConfig [segmentPath 0] twoFrames).getD (emptyStore smallConfig fun _ => none)

omit [Crc32] in
theorem recover_twoFrames : letI := crc32Ieee
    recover .ok smallConfig [segmentPath 0] twoFrames = some recoveredTwo := by
  let _ := crc32Ieee
  have hsome : (recover .ok smallConfig [segmentPath 0] twoFrames).isSome = true := by
    decide +kernel
  obtain ⟨s, e⟩ := Option.isSome_iff_exists.mp hsome
  unfold recoveredTwo
  rw [e, Option.getD_some]

omit [Crc32] in
/-- **Two trials without a POST outcome.** The worker sleeps on a batch it could not post, and two
sweeps of the drainer find the circuit half-open. -/
theorem second_trial : letI := crc32Ieee
    ∃ s x, recover .ok smallConfig [segmentPath 0] twoFrames = some s ∧
      Relation.ReflTransGen WatchedStep (Watched.start s) x ∧ x.trials = some 2 := by
  let _ := crc32Ieee
  obtain ⟨x, run, h⟩ := secondTrial_run (s := recoveredTwo) (f := ⟨0, [7]⟩) (g := ⟨1, [8]⟩)
    (by decide +kernel) (by decide +kernel) (by decide +kernel) (by decide +kernel)
  exact ⟨_, x, recover_twoFrames, run, h⟩

omit [Crc32] in
/-- The same run up to the first trial. -/
theorem single_trial_outage : letI := crc32Ieee
    ∃ s x, recover .ok smallConfig [segmentPath 0] twoFrames = some s ∧
      Relation.ReflTransGen LoneTrialStep (Watched.start s) x ∧ x.trials = some 1 ∧
      ∀ k, x.trials = some k → k ≤ 1 := by
  let _ := crc32Ieee
  have run := firstTrial_run (s := recoveredTwo) (f := ⟨0, [7]⟩) (by decide +kernel)
    (by decide +kernel)
  exact ⟨_, _, recover_twoFrames, run, rfl, single_trial run⟩

end Statix.Delivery
