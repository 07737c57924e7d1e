import Statix.Delivery.Upgrade
import Statix.Lib.Backoff

/-!
# The retry worker in time

Model of the clock of the retry worker (`init_retry_worker`, `recovery_spread_sleep_secs`,
`statix/src/output.rs`) over the running agent: how long it backs off after a retryable failure, how
it staggers the backlog after an outage, and when its posts go out.

* `TimedStep` is a step of the agent, with the clock, or time passing. A step of another actor finds
  the clock as it is.
* The random numbers are any rational in `[0, 1)`, and times are exact; the source computes the
  sleeps in `f64`. A sleep ends no earlier than it should.
* `nodeHash` is what `DefaultHasher` makes of the node name.

* `timed_agent`: with the clock forgotten, the steps are those of `Agent`.
* `TimedInv`: what a run keeps; `timedInv_run`.
* **`outage_paced`**: how the posts to a gateway that is down are spaced, in every run.
-/

namespace Statix.Delivery

open Statix.Lib Statix.Wal

/-! ## The model -/

/-- What `init_retry_worker` reads. -/
structure Pace where
  initialBackoff : Nat
  maxBackoff : Nat
  nodeHash : Nat
  ordered : initialBackoff ≤ maxBackoff

/-- `init_retry_worker`, where `initial` and `longest` are what the environment says. -/
def initRetryWorker (initial longest nodeHash : Nat) : Pace where
  initialBackoff := initial
  maxBackoff := max longest initial
  nodeHash := nodeHash
  ordered := Nat.le_max_right longest initial

/-- `recovery_spread_sleep_secs`, with a random number. -/
def Pace.recoverySpreadSleepSecs (p : Pace) (random : ℚ) : ℚ :=
  let spreadSecs : ℚ := (p.nodeHash % 30000 : Nat) / 1000
  random * 5 + spreadSecs

/-- The sleep after a retryable failure, with a random number. -/
def sleepSecs (backoffSecs : Nat) (random : ℚ) : ℚ :=
  let jitter := random * (backoffSecs * 3 / 10)
  backoffSecs + jitter

/-- The base of the next sleep; the product wraps. -/
def Pace.nextBackoff (p : Pace) (backoffSecs : Nat) : Nat :=
  min (backoffSecs * 2 % 2 ^ 64) p.maxBackoff

/-- What the worker waits for, and since when or until when. -/
inductive Clock where
  /-- Before the receiver's lock. -/
  | idle (since : ℚ)
  /-- In `recv`. -/
  | receiving (since : ℚ)
  /-- In `post_ingest`. -/
  | posting (since : ℚ)
  /-- In the sleep after a retryable failure. -/
  | backingOff (wakeAt : ℚ)
  /-- In the sleep after an outage. -/
  | staggering (wakeAt : ℚ)

/-- The worker can go on from now: a batch has come in. -/
def Clock.restart (now : ℚ) : Clock → Clock
  | .idle _ => .idle now
  | .receiving _ => .receiving now
  | c => c

/-- A post that was answered, or failed. -/
structure Post where
  sentAt : ℚ
  answeredAt : ℚ
  outcome : PostOutcome

/-- The post failed and is retried. -/
def Post.failed (p : Post) : Bool := decide (p.outcome = .retryable)

/-- The agent with the clock of its retry worker, and the record of its posts. -/
structure Timed where
  agent : Agent
  now : ℚ
  clock : Clock
  backoffSecs : Nat
  posts : List Post

variable [Crc32]

/-- The retry worker as it is spawned. -/
def Timed.start (p : Pace) (s : Store) : Timed where
  agent := .start s
  now := 0
  clock := .idle 0
  backoffSecs := p.initialBackoff
  posts := []

/-- The worker after a post that was sent at `sentAt`. -/
def Timed.answered (p : Pace) (x : Timed) (b : Numbered) (sentAt : ℚ) (o : PostOutcome)
    (random : ℚ) : Timed :=
  let posted : Timed := { x with
    agent := x.agent.afterPost b o
    posts := x.posts ++ [⟨sentAt, x.now, o⟩] }
  match o with
  | .success => { posted with
      clock :=
        if x.backoffSecs > p.initialBackoff then
          .staggering (x.now + p.recoverySpreadSleepSecs random)
        else .idle x.now
      backoffSecs := p.initialBackoff }
  | .retryable => { posted with
      clock := .backingOff (x.now + sleepSecs x.backoffSecs random)
      backoffSecs := p.nextBackoff x.backoffSecs }
  | .nonRetryable _ => { posted with
      clock := .idle x.now
      backoffSecs := p.initialBackoff }

/-- One step in time. -/
inductive TimedStep (p : Pace) : Timed → Timed → Prop
  | pass {x : Timed} (t : ℚ) (forward : 0 ≤ t) : TimedStep p x { x with now := x.now + t }
  -- the other actors
  | other {x : Timed} {a : Agent} (h : AgentStep x.agent a) (same : a.worker = x.agent.worker) :
      TimedStep p x { x with
        agent := a
        clock := if x.agent.queue = [] then x.clock.restart x.now else x.clock }
  -- the retry worker
  | lock {x : Timed} {since : ℚ} (clock : x.clock = .idle since) (h : x.agent.worker = .idle)
      (free : ∀ b, x.agent.caller ≠ .locked b) :
      TimedStep p x { x with
        agent := { x.agent with worker := .receiving }
        clock := .receiving x.now }
  | recv {x : Timed} {since : ℚ} {b : Numbered} {rest : List Numbered}
      (clock : x.clock = .receiving since) (h : x.agent.worker = .receiving)
      (hq : x.agent.queue = b :: rest) :
      TimedStep p x { x with
        agent := { x.agent with worker := .posting b, queue := rest }
        clock := .posting x.now }
  | answer {x : Timed} {since : ℚ} {b : Numbered} (clock : x.clock = .posting since)
      (h : x.agent.worker = .posting b) (o : PostOutcome) (random : ℚ) (least : 0 ≤ random)
      (most : random < 1) : TimedStep p x (x.answered p b since o random)
  | wake {x : Timed} {wakeAt : ℚ} {b : Numbered} (clock : x.clock = .backingOff wakeAt)
      (h : x.agent.worker = .sleeping b) (due : wakeAt ≤ x.now) :
      TimedStep p x { x with
        agent := { x.agent with worker := .posting b }
        clock := .posting x.now }
  | staggered {x : Timed} {wakeAt : ℚ} (clock : x.clock = .staggering wakeAt)
      (due : wakeAt ≤ x.now) : TimedStep p x { x with clock := .idle x.now }

/-- **A step in time is one of the agent**, or does not show in it. -/
theorem timed_agent {p : Pace} {x x' : Timed} (h : TimedStep p x x') :
    x'.agent = x.agent ∨ AgentStep x.agent x'.agent := by
  cases h with
  | pass | staggered => exact .inl rfl
  | other h _ => exact .inr h
  | lock _ h free => exact .inr (.workerLock h free)
  | recv _ h hq => exact .inr (.workerRecv h hq)
  | answer _ h o random _ _ =>
    refine .inr ?_
    cases o with
    | success => exact .success h
    | retryable => exact .retryable h
    | nonRetryable status => exact .nonRetryable h
  | wake _ h _ => exact .inr (.wake h)

/-! ## Sleeps -/

variable {p : Pace} {x x' : Timed} {b : Numbered} {sentAt random : ℚ} {o : PostOutcome}

omit [Crc32] in
theorem le_sleepSecs (n : Nat) (least : 0 ≤ random) : n ≤ sleepSecs n random := by
  have hbase : (0 : ℚ) ≤ n := Nat.cast_nonneg n
  have hjitter : 0 ≤ random * (n * 3 / 10) := mul_nonneg least (by linarith)
  simp only [sleepSecs]
  linarith

omit [Crc32] in
theorem sleepSecs_le {n : Nat} (cap : n ≤ p.maxBackoff) (most : random < 1) :
    sleepSecs n random ≤ 13 / 10 * p.maxBackoff := by
  have hcap : (n : ℚ) ≤ p.maxBackoff := Nat.cast_le.mpr cap
  have hbase : (0 : ℚ) ≤ n := Nat.cast_nonneg n
  have hjitter : random * (n * 3 / 10) ≤ 1 * (n * 3 / 10) :=
    mul_le_mul_of_nonneg_right most.le (by linarith)
  simp only [sleepSecs]
  linarith

omit [Crc32] in
/-- The backlog is staggered over 35 s at most. -/
theorem recoverySpread_le (p : Pace) (most : random < 1) :
    p.recoverySpreadSleepSecs random ≤ 35 := by
  have hspread : ((p.nodeHash % 30000 : Nat) : ℚ) ≤ 30000 := by
    exact_mod_cast (Nat.mod_lt p.nodeHash (by omega)).le
  simp only [Pace.recoverySpreadSleepSecs]
  linarith

omit [Crc32] in
/-- The base doubles with every failure in a row. -/
theorem nextBackoff_backoff (small : p.maxBackoff < 2 ^ 63) (k : Nat) :
    p.nextBackoff (backoff p.initialBackoff p.maxBackoff k) =
      backoff p.initialBackoff p.maxBackoff (k + 1) := by
  have hcap := backoff_le p.initialBackoff p.maxBackoff k
  rw [backoff_succ, Pace.nextBackoff, Nat.mod_eq_of_lt (by omega)]

/-! ## What a run keeps -/

/-- When the failures of the current row were answered. -/
def Timed.row (x : Timed) : List ℚ := (inRow Post.failed x.posts).map Post.answeredAt

omit [Crc32] in
theorem row_answered (x : Timed) : (x.answered p b sentAt o random).row =
    if o = .retryable then x.row ++ [x.now] else [] := by
  cases o with
  | success => simp [Timed.answered, Timed.row, Post.failed]
  | retryable => simp [Timed.answered, Timed.row, Post.failed]
  | nonRetryable status => simp [Timed.answered, Timed.row, Post.failed]

/-- The delay of the last failure is over at `t`. -/
def Timed.waitedUntil (p : Pace) (x : Timed) (t : ℚ) : Prop :=
  ∀ s ∈ x.row.getLast?, s + backoff p.initialBackoff p.maxBackoff (x.row.length - 1) ≤ t

/-- What the clock says. -/
inductive Clocked (p : Pace) (x : Timed) : Clock → Prop
  | idle {since : ℚ} (worker : x.agent.worker = .idle) (row : x.row = []) (past : since ≤ x.now) :
      Clocked p x (.idle since)
  | receiving {since : ℚ} (worker : x.agent.worker = .receiving) (row : x.row = [])
      (past : since ≤ x.now) : Clocked p x (.receiving since)
  | posting {since : ℚ} {b : Numbered} (worker : x.agent.worker = .posting b)
      (waited : x.waitedUntil p since) (past : since ≤ x.now) : Clocked p x (.posting since)
  | backingOff {wakeAt : ℚ} {b : Numbered} (worker : x.agent.worker = .sleeping b)
      (waited : x.waitedUntil p wakeAt) (soon : wakeAt ≤ x.now + 13 / 10 * p.maxBackoff) :
      Clocked p x (.backingOff wakeAt)
  | staggering {wakeAt : ℚ} (worker : x.agent.worker = .idle) (row : x.row = [])
      (soon : wakeAt ≤ x.now + 35) : Clocked p x (.staggering wakeAt)

/-- **What a run keeps.** -/
structure TimedInv (p : Pace) (x : Timed) : Prop where
  clocked : Clocked p x x.clock
  backoff : x.backoffSecs = backoff p.initialBackoff p.maxBackoff x.row.length
  spaced : Spaced (Lib.backoff p.initialBackoff p.maxBackoff) x.row

omit [Crc32] in
theorem waitedUntil_nil (h : x.row = []) (t : ℚ) : x.waitedUntil p t := by
  intro s hs
  rw [h] at hs
  simp at hs

omit [Crc32] in
/-- The clock is read in a later state with the same posts and the same worker. -/
theorem Clocked.later {c : Clock} (h : Clocked p x c) (worker : x'.agent.worker = x.agent.worker)
    (posts : x'.posts = x.posts) (now : x.now ≤ x'.now) : Clocked p x' c := by
  have hrow : x'.row = x.row := by rw [Timed.row, posts, Timed.row]
  have hwaited : ∀ {t}, x.waitedUntil p t → x'.waitedUntil p t := by
    intro t ht
    rw [Timed.waitedUntil, hrow]
    exact ht
  cases h with
  | idle w row past => exact .idle (worker.trans w) (hrow.trans row) (past.trans now)
  | receiving w row past => exact .receiving (worker.trans w) (hrow.trans row) (past.trans now)
  | posting w waited past => exact .posting (worker.trans w) (hwaited waited) (past.trans now)
  | backingOff w waited soon =>
    exact .backingOff (worker.trans w) (hwaited waited) (by linarith)
  | staggering w row soon => exact .staggering (worker.trans w) (hrow.trans row) (by linarith)

omit [Crc32] in
theorem Clocked.restart {c : Clock} (h : Clocked p x c) : Clocked p x (c.restart x.now) := by
  cases h with
  | idle w row past => exact .idle w row le_rfl
  | receiving w row past => exact .receiving w row le_rfl
  | posting w waited past => exact .posting w waited past
  | backingOff w waited soon => exact .backingOff w waited soon
  | staggering w row soon => exact .staggering w row soon

omit [Crc32] in
/-- The posts stay, and with them the base and the spacing. -/
theorem TimedInv.keep (h : TimedInv p x) (clocked : Clocked p x' x'.clock)
    (posts : x'.posts = x.posts) (backoff : x'.backoffSecs = x.backoffSecs) : TimedInv p x' := by
  have hrow : x'.row = x.row := by rw [Timed.row, posts, Timed.row]
  exact ⟨clocked, by rw [backoff, hrow]; exact h.backoff, by rw [hrow]; exact h.spaced⟩

omit [Crc32] in
/-- **A post that was answered.** -/
theorem TimedInv.answered (h : TimedInv p x) (small : p.maxBackoff < 2 ^ 63)
    (clock : x.clock = .posting sentAt) (o : PostOutcome) (least : 0 ≤ random) (most : random < 1) :
    TimedInv p (x.answered p b sentAt o random) := by
  have hclocked := h.clocked
  rw [clock] at hclocked
  obtain ⟨waited, past⟩ : x.waitedUntil p sentAt ∧ sentAt ≤ x.now := by
    cases hclocked with
    | posting _ waited past => exact ⟨waited, past⟩
  have hzero := backoff_zero p.ordered
  cases o with
  | success =>
    have hrow : (x.answered p b sentAt .success random).row = [] := row_answered x
    refine ⟨?_, ?_, ?_⟩
    · show Clocked p (x.answered p b sentAt .success random)
        (if x.backoffSecs > p.initialBackoff then _ else _)
      split
      · have hspread := recoverySpread_le p most
        exact .staggering rfl hrow (add_le_add_right hspread x.now)
      · exact .idle rfl hrow le_rfl
    · rw [hrow]
      exact hzero.symm
    · rw [hrow]
      exact .nil _
  | retryable =>
    have hrow : (x.answered p b sentAt .retryable random).row = x.row ++ [x.now] := row_answered x
    have hbase := le_sleepSecs x.backoffSecs least
    have hcap : x.backoffSecs ≤ p.maxBackoff := by
      rw [h.backoff]
      exact backoff_le _ _ _
    have hsleep := sleepSecs_le hcap most
    refine ⟨.backingOff (b := b) rfl ?_ ?_, ?_, ?_⟩
    · intro t ht
      rw [hrow, List.getLast?_concat] at ht
      obtain rfl := Option.some.inj ht
      rw [hrow, List.length_append, List.length_singleton, Nat.add_sub_cancel, ← h.backoff]
      exact add_le_add_right hbase x.now
    · exact add_le_add_right hsleep x.now
    · show p.nextBackoff x.backoffSecs = _
      rw [hrow, List.length_append, List.length_singleton, h.backoff, nextBackoff_backoff small]
    · rw [hrow]
      exact h.spaced.snoc fun t ht => (waited t ht).trans past
  | nonRetryable status =>
    have hrow : (x.answered p b sentAt (.nonRetryable status) random).row = [] := row_answered x
    refine ⟨.idle rfl hrow le_rfl, ?_, ?_⟩
    · rw [hrow]
      exact hzero.symm
    · rw [hrow]
      exact .nil _

/-- **A step keeps the invariant.** -/
theorem timedInv_step (small : p.maxBackoff < 2 ^ 63) (h : TimedInv p x)
    (hstep : TimedStep p x x') : TimedInv p x' := by
  have hclocked := h.clocked
  cases hstep with
  | pass t forward =>
    exact h.keep (hclocked.later rfl rfl (le_add_of_nonneg_right forward)) rfl rfl
  | other hagent same =>
    refine h.keep ?_ rfl rfl
    show Clocked p _ (if _ then _ else _)
    split
    · exact hclocked.restart.later same rfl le_rfl
    · exact hclocked.later same rfl le_rfl
  | lock clock hw free =>
    rw [clock] at hclocked
    cases hclocked with
    | idle _ row _ => exact h.keep (.receiving rfl row le_rfl) rfl rfl
  | recv clock hw hq =>
    rw [clock] at hclocked
    cases hclocked with
    | receiving _ row _ => exact h.keep (.posting rfl (waitedUntil_nil row _) le_rfl) rfl rfl
  | answer clock hw o random least most => exact h.answered small clock o least most
  | wake clock hw due =>
    rw [clock] at hclocked
    cases hclocked with
    | backingOff _ waited _ =>
      exact h.keep (.posting rfl (fun t ht => (waited t ht).trans due) le_rfl) rfl rfl
  | staggered clock due =>
    rw [clock] at hclocked
    cases hclocked with
    | staggering worker row _ => exact h.keep (.idle worker row le_rfl) rfl rfl

theorem timedInv_run {s : Store} (small : p.maxBackoff < 2 ^ 63)
    (run : Relation.ReflTransGen (TimedStep p) (.start p s) x) : TimedInv p x := by
  induction run with
  | refl => exact ⟨.idle rfl rfl le_rfl, (backoff_zero p.ordered).symm, .nil _⟩
  | tail _ hstep ih => exact timedInv_step small ih hstep

/-! ## Posts to a gateway that is down -/

/-- **An agent spares a gateway that is down.** In every run: from the failure number `i` of a row
to the failure number `j` the backoffs of all failures between them pass, each twice the one before
up to the cap; once the cap is reached, after `c` failures, every failure costs the cap; and while
the worker posts again, the backoff of the last failure is over. -/
theorem outage_paced {s : Store} (small : p.maxBackoff < 2 ^ 63)
    (run : Relation.ReflTransGen (TimedStep p) (.start p s) x) :
    (∀ i j (hij : i ≤ j) (hj : j < x.row.length),
      x.row[i] + waited p.initialBackoff p.maxBackoff i j ≤ x.row[j]) ∧
    (∀ j c (hj : j < x.row.length), p.maxBackoff ≤ p.initialBackoff * 2 ^ c →
      ((j - c) * p.maxBackoff : Nat) ≤ x.row[j] - x.row[0]) ∧
    (∀ since, x.clock = .posting since → ∀ last ∈ x.row.getLast?,
      last + backoff p.initialBackoff p.maxBackoff (x.row.length - 1) ≤ since) := by
  have hinv := timedInv_run small run
  refine ⟨fun i j hij hj => hinv.spaced.waited_le hij hj, fun j c hj cap => ?_,
    fun since clock => ?_⟩
  · have hsum := hinv.spaced.waited_le (Nat.zero_le j) hj
    have hcap : (((j - c) * p.maxBackoff : Nat) : ℚ) ≤
        waited p.initialBackoff p.maxBackoff 0 j := Nat.cast_le.mpr (cap_le_waited cap)
    linarith
  · have hclocked := hinv.clocked
    rw [clock] at hclocked
    cases hclocked with
    | posting _ waited _ => exact waited

/-! ### An outage of two posts -/

/-- The defaults of `init_retry_worker`. -/
def defaultPace : Pace := initRetryWorker 1 30 0

/-- The first batch of an agent. -/
def firstBatch : Numbered := ⟨0, [0]⟩

/-- An agent that starts with an empty WAL. -/
def newAgent : Timed := .start defaultPace (emptyStore smallConfig fun _ => none)

/-- It posts its first batch. -/
def firstPost : Timed :=
  { newAgent with
    agent := { newAgent.agent with
      worker := .posting firstBatch, nextId := 1, handed := [firstBatch] }
    clock := .posting 0 }

/-- The post failed. -/
def firstFailure : Timed := firstPost.answered defaultPace firstBatch 0 .retryable 0

/-- The backoff is over. -/
def secondPost : Timed :=
  { firstFailure with
    agent := { firstFailure.agent with worker := .posting firstBatch }
    now := 1
    clock := .posting 1 }

theorem firstFailure_run : Relation.ReflTransGen (TimedStep defaultPace) newAgent firstFailure := by
  have h₁ : Relation.ReflTransGen (TimedStep defaultPace) newAgent _ :=
    .single (.other (.trySend [0] (by decide) rfl (Nat.zero_lt_succ 59)) rfl)
  have h₂ := (h₁.tail (.lock rfl rfl fun _ => by simp [newAgent, Timed.start, Agent.start])).tail
    (.recv rfl rfl rfl)
  exact h₂.tail (.answer rfl rfl .retryable 0 le_rfl one_pos)

theorem firstFailure_clock : firstFailure.clock = .backingOff 1 := by
  show Clock.backingOff (0 + sleepSecs 1 0) = _
  simp [sleepSecs]

/-- Time passes until `now`. -/
theorem pass_until {p : Pace} {x : Timed} {now : ℚ} (h : x.now ≤ now) :
    TimedStep p x { x with now := now } := by
  have hstep : TimedStep p x _ := .pass (now - x.now) (sub_nonneg.mpr h)
  rwa [add_sub_cancel] at hstep

theorem secondPost_run : Relation.ReflTransGen (TimedStep defaultPace) newAgent secondPost := by
  have h₁ := firstFailure_run.tail (pass_until (zero_le_one' ℚ))
  exact h₁.tail (.wake firstFailure_clock rfl le_rfl)

omit [Crc32] in
/-- The second post fails one second after the first. -/
theorem outage_paced_two : letI := crc32Ieee
    ∃ x, Relation.ReflTransGen (TimedStep defaultPace) newAgent x ∧
    x.row = [0, 1] ∧ (0 : ℚ) + waited 1 30 0 1 ≤ 1 := by
  let _ := crc32Ieee
  have run := secondPost_run.tail (.answer rfl rfl .retryable 0 le_rfl one_pos)
  have hrow : (secondPost.answered defaultPace firstBatch 1 .retryable 0).row = [0, 1] := by
    simp [Timed.row, secondPost, firstFailure, firstPost, newAgent, Timed.start,
      Timed.answered, inRow, Post.failed]
  have hspaced := (outage_paced (by decide) run).1 0 1 (Nat.zero_le 1)
  simp only [hrow] at hspaced
  exact ⟨_, run, hrow, hspaced (by simp)⟩

end Statix.Delivery
