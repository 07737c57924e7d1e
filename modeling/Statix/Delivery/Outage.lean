import Statix.Delivery.Pacing

/-!
# The retry queue after an outage

How long the batches wait that are in the worker's hand and in the retry queue when the gateway
comes back.

* `Prompt`: how late the runtime may be, and how long a post takes at most (the timeout of the HTTP
  client). `GatewayBack`: every post sent since a moment succeeds.
* `DueBy`: by when a batch is final, read off the clock and the batches before it.
* `waiting_step`: no step makes a batch that waits due later.
* **`backlog_drained`**: the bound, over every run that is prompt.
-/

namespace Statix.Delivery

open Statix.Lib Statix.Wal

variable [Crc32] {p : Pace} {x x' : Timed} {b : Numbered} {sentAt random : ℚ} {o : PostOutcome}
  {timeout slack T D : ℚ} {k : Nat}

/-! ## By when a batch is final -/

/-- The runtime is at most `slack` late, and a post takes at most `timeout`. -/
def Prompt (timeout slack : ℚ) (x : Timed) : Prop :=
  match x.clock with
  | .idle since => x.agent.queue ≠ [] → x.now ≤ since + slack
  | .receiving since => x.agent.queue ≠ [] → x.now ≤ since + slack
  | .posting since => x.now ≤ since + timeout
  | .backingOff wakeAt => x.now ≤ wakeAt + slack
  | .staggering wakeAt => x.now ≤ wakeAt + slack

/-- The gateway is back at `T`: every post sent since then succeeds. -/
def GatewayBack (T : ℚ) (x : Timed) : Prop :=
  ∀ e ∈ x.posts, T ≤ e.sentAt → e.outcome = .success

/-- A step of an agent that is prompt, with the gateway back. -/
structure BackStep (p : Pace) (timeout slack T : ℚ) (x x' : Timed) : Prop where
  step : TimedStep p x x'
  prompt : Prompt timeout slack x'
  recovered : GatewayBack T x'

/-- The batch was delivered, or discarded with the reason logged. -/
def Agent.Final (a : Agent) (b : Numbered) : Prop :=
  b ∈ a.delivered ∨ ∃ why, (why, b) ∈ a.discarded

/-- What one batch costs when all goes well. -/
def perBatch (timeout slack : ℚ) : ℚ := timeout + 2 * slack

/-- What the first success after a failure costs. -/
def Timed.stagger (p : Pace) (slack : ℚ) (x : Timed) : ℚ :=
  if x.backoffSecs > p.initialBackoff then 35 + slack else 0

/-- The batch number `k` of those in the worker's hand and in the queue is final by `D`. A post that
was sent before the gateway was back can still fail. -/
def DueBy (p : Pace) (timeout slack T D : ℚ) (x : Timed) (k : Nat) : Prop :=
  match x.clock with
  | .idle since => since + perBatch timeout slack + k * perBatch timeout slack ≤ D
  | .receiving since => since + slack + timeout + k * perBatch timeout slack ≤ D
  | .posting since =>
      since + timeout + x.stagger p slack + k * perBatch timeout slack ≤ D ∧
        (since < T → since + timeout + 13 / 10 * p.maxBackoff + slack + timeout + (35 + slack) +
          k * perBatch timeout slack ≤ D)
  | .backingOff wakeAt =>
      wakeAt + slack + timeout + (35 + slack) + k * perBatch timeout slack ≤ D
  | .staggering wakeAt =>
      wakeAt + slack + perBatch timeout slack + k * perBatch timeout slack ≤ D

/-- The batch waits, and is final by `D`. -/
def Waiting (p : Pace) (timeout slack T D : ℚ) (b : Numbered) (x : Timed) : Prop :=
  ∃ pre post, x.agent.worker.hand ++ x.agent.queue = pre ++ b :: post ∧
    DueBy p timeout slack T D x pre.length

/-- Every step of the agent keeps the record. -/
theorem fate_step {a a' : Agent} (h : AgentStep a a') :
    a.delivered ⊆ a'.delivered ∧ a.discarded ⊆ a'.discarded := by
  cases h with
  | success => exact ⟨List.subset_append_left _ _, List.Subset.refl _⟩
  | queueLocked | tryLock | stillFull | nonRetryable =>
    exact ⟨List.Subset.refl _, List.subset_append_left _ _⟩
  | appendFirst | appendMore =>
    refine ⟨List.Subset.refl _, ?_⟩
    simp only [Agent.append, List.append_assoc]
    exact List.subset_append_left _ _
  | _ => exact ⟨List.Subset.refl _, List.Subset.refl _⟩

omit [Crc32] in
theorem Agent.Final.mono {a a' : Agent} (h : a.Final b) (delivered : a.delivered ⊆ a'.delivered)
    (discarded : a.discarded ⊆ a'.discarded) : a'.Final b := by
  rcases h with h | ⟨why, h⟩
  · exact .inl (delivered h)
  · exact .inr ⟨why, discarded h⟩

/-- What another actor does to the retry queue. -/
theorem queue_other {a a' : Agent} (h : AgentStep a a') (same : a'.worker = a.worker) :
    (∃ added, a'.queue = a.queue ++ added) ∨
      a'.queue = a.queue.drop 1 ∧ ∀ b ∈ a.queue.take 1, a'.Final b := by
  cases h with
  | trySend | resend | replaySend => exact .inl ⟨_, rfl⟩
  | tryLock h free =>
    refine .inr ⟨rfl, fun b hb => .inr ⟨.dropOldest, ?_⟩⟩
    exact List.mem_append_right _ (List.mem_map_of_mem hb)
  | workerRecv h hq => exact absurd (same.trans h) (by simp)
  | _ => exact .inl ⟨[], (List.append_nil _).symm⟩

/-! ## Steps -/

omit [Crc32] in
theorem stagger_le (hslack : 0 ≤ slack) (x : Timed) : x.stagger p slack ≤ 35 + slack := by
  unfold Timed.stagger
  split <;> linarith

omit [Crc32] in
theorem stagger_initial (h : x.backoffSecs = p.initialBackoff) : x.stagger p slack = 0 := by
  unfold Timed.stagger
  rw [if_neg (by omega)]

omit [Crc32] in
/-- An earlier batch is final earlier. -/
theorem DueBy.earlier {j : Nat} (h : DueBy p timeout slack T D x k) (hjk : j ≤ k)
    (per : 0 ≤ perBatch timeout slack) : DueBy p timeout slack T D x j := by
  have hcast : (j : ℚ) * perBatch timeout slack ≤ k * perBatch timeout slack :=
    mul_le_mul_of_nonneg_right (Nat.cast_le.mpr hjk) per
  unfold DueBy at h ⊢
  split at h
  · linarith
  · linarith
  · exact ⟨by linarith [h.1], fun hT => by linarith [h.2 hT]⟩
  · linarith
  · linarith

omit [Crc32] in
/-- The worker posts from now on. -/
theorem dueBy_posting {bound : ℚ} (clock : x.clock = .posting x.now) (back : T ≤ x.now)
    (cost : x.stagger p slack ≤ bound)
    (h : x.now + timeout + bound + k * perBatch timeout slack ≤ D) :
    DueBy p timeout slack T D x k := by
  unfold DueBy
  rw [clock]
  exact ⟨by linarith, fun hT => absurd hT (not_lt.mpr back)⟩

omit [Crc32] in
/-- **A post that is answered while a batch waits.** -/
theorem waiting_answered (hslack : 0 ≤ slack)
    (h : Waiting p timeout slack T D b x) {b₀ : Numbered} (clock : x.clock = .posting sentAt)
    (hw : x.agent.worker = .posting b₀) (intime : x.now ≤ sentAt + timeout) (most : random < 1)
    (recovered : T ≤ sentAt → o = .success)
    (cap : x.backoffSecs ≤ p.maxBackoff) :
    Waiting p timeout slack T D b (x.answered p b₀ sentAt o random) ∨
      (x.answered p b₀ sentAt o random).agent.Final b := by
  obtain ⟨pre, post, hsplit, hdue⟩ := h
  simp only [DueBy, clock] at hdue
  obtain ⟨hdue, hfail⟩ := hdue
  have hcost : 0 ≤ x.stagger p slack := by
    unfold Timed.stagger
    split <;> linarith
  rw [hw, show Worker.hand (.posting b₀) ++ x.agent.queue = b₀ :: x.agent.queue from rfl] at hsplit
  -- a final answer frees the worker: `b` was in its hand, or one batch fewer is before it
  have hfinal : (b₀ = b) ∨ ∃ pre', pre = b₀ :: pre' ∧ x.agent.queue = pre' ++ b :: post := by
    rcases List.cons_eq_append_iff.mp hsplit with ⟨-, hcons⟩ | hrest
    · exact .inl (List.cons.inj hcons).1.symm
    · exact .inr hrest
  cases o with
  | success =>
    rcases hfinal with rfl | ⟨pre', rfl, hqueue⟩
    · exact .inr (.inl (List.mem_append_right _ (List.mem_singleton_self _)))
    · refine .inl ⟨pre', post, hqueue, ?_⟩
      rw [List.length_cons, Nat.cast_succ, add_one_mul] at hdue
      have hspread := recoverySpread_le p most
      unfold DueBy Timed.answered
      unfold Timed.stagger at hdue
      by_cases houtage : x.backoffSecs > p.initialBackoff
      · simp only [if_pos houtage] at hdue ⊢
        linarith
      · simp only [if_neg houtage] at hdue ⊢
        linarith
  | retryable =>
    have hbefore : sentAt < T := by
      by_contra hback
      exact nomatch recovered (not_lt.mp hback)
    have hdue := hfail hbefore
    have hsleep := sleepSecs_le cap most
    refine .inl ⟨pre, post, hsplit, ?_⟩
    show x.now + sleepSecs x.backoffSecs random + slack + timeout + (35 + slack) +
      pre.length * perBatch timeout slack ≤ D
    linarith
  | nonRetryable status =>
    rcases hfinal with rfl | ⟨pre', rfl, hqueue⟩
    · exact .inr (.inr ⟨.nonRetryable, List.mem_append_right _ (List.mem_singleton_self _)⟩)
    · refine .inl ⟨pre', post, hqueue, ?_⟩
      rw [List.length_cons, Nat.cast_succ, add_one_mul] at hdue
      show x.now + perBatch timeout slack + pre'.length * perBatch timeout slack ≤ D
      linarith

omit [Crc32] in
/-- Where a batch is among the others when the queue drops its first one. -/
theorem drop_split {hand queue pre post : List Numbered} (h : hand ++ queue = pre ++ b :: post) :
    b ∈ queue.take 1 ∨ ∃ pre' post', pre'.length ≤ pre.length ∧
      hand ++ queue.drop 1 = pre' ++ b :: post' := by
  rcases List.append_eq_append_iff.mp h with ⟨front, rfl, rfl⟩ | ⟨back, rfl, hback⟩
  · cases front with
    | nil => exact .inl List.mem_cons_self
    | cons c front =>
      refine .inr ⟨hand ++ front, post, ?_, ?_⟩
      · simp only [List.length_append, List.length_cons]
        omega
      · rw [List.cons_append, List.drop_one, List.tail_cons, List.append_assoc]
  · cases back with
    | nil =>
      rw [List.nil_append] at hback
      rw [← hback]
      exact .inl List.mem_cons_self
    | cons c back =>
      obtain ⟨rfl, -⟩ := List.cons.inj hback
      exact .inr ⟨pre, back ++ queue.drop 1, le_rfl, by simp⟩

omit [Crc32] in
/-- The clock of a worker that holds a batch does not depend on the queue. -/
theorem restart_holding {c : Clock} (h : Clocked p x c) (holds : x.agent.worker.hand ≠ []) :
    c.restart x.now = c := by
  cases h with
  | idle w _ _ | receiving w _ _ | staggering w _ _ =>
    rw [w] at holds
    exact absurd rfl holds
  | posting | backingOff => rfl

/-- **A step while a batch waits**: it waits on, with no later bound, or it is final. -/
theorem waiting_step (hslack : 0 ≤ slack) (htimeout : 0 ≤ timeout) (hinv : TimedInv p x)
    (hprompt : Prompt timeout slack x) (back : T ≤ x.now)
    (h : Waiting p timeout slack T D b x) (hstep : BackStep p timeout slack T x x') :
    Waiting p timeout slack T D b x' ∨ x'.agent.Final b := by
  have hper : perBatch timeout slack = timeout + 2 * slack := rfl
  obtain ⟨hstep, -, recovered⟩ := hstep
  have hclocked := hinv.clocked
  cases hstep with
  | pass t forward => exact .inl h
  | other hagent same =>
    obtain ⟨pre, post, hsplit, hdue⟩ := h
    have hclock : (if x.agent.queue = [] then x.clock.restart x.now else x.clock) = x.clock := by
      split
      · rename_i hempty
        refine restart_holding hclocked fun hnone => ?_
        rw [hempty, hnone] at hsplit
        simp at hsplit
      · rfl
    rw [hclock]
    rcases queue_other hagent same with ⟨added, hqueue⟩ | ⟨hqueue, hfinal⟩
    · refine .inl ⟨pre, post ++ added, ?_, hdue⟩
      rw [same, hqueue, ← List.append_assoc, hsplit]
      simp
    · rcases drop_split hsplit with hfirst | ⟨pre', post', hlen, hrest⟩
      · exact .inr (hfinal b hfirst)
      · refine .inl ⟨pre', post', ?_, hdue.earlier hlen (by linarith)⟩
        rw [same, hqueue]
        exact hrest
  | lock clock hw free =>
    obtain ⟨pre, post, hsplit, hdue⟩ := h
    simp only [DueBy, Prompt, clock] at hdue hprompt
    rw [hw] at hsplit
    have hlate := hprompt (by rintro hempty; simp [hempty, Worker.hand] at hsplit)
    refine .inl ⟨pre, post, hsplit, ?_⟩
    show x.now + slack + timeout + pre.length * perBatch timeout slack ≤ D
    linarith
  | recv clock hw hq =>
    obtain ⟨pre, post, hsplit, hdue⟩ := h
    simp only [DueBy, Prompt, clock] at hdue hprompt
    rw [hw] at hsplit
    have hlate := hprompt (by rintro hempty; simp [hempty, Worker.hand] at hsplit)
    have hinitial : x.backoffSecs = p.initialBackoff := by
      rw [clock] at hclocked
      cases hclocked with
      | receiving _ row _ => rw [hinv.backoff, row, List.length_nil, backoff_zero p.ordered]
    refine .inl ⟨pre, post, ?_, ?_⟩
    · rw [hq] at hsplit
      exact hsplit
    · refine dueBy_posting rfl back (le_of_eq (stagger_initial hinitial)) ?_
      show x.now + timeout + 0 + pre.length * perBatch timeout slack ≤ D
      linarith
  | answer clock hw o random least most =>
    simp only [Prompt, clock] at hprompt
    refine waiting_answered hslack h clock hw hprompt most (fun hT => ?_) ?_
    · refine recovered ⟨_, x.now, o⟩ ?_ hT
      cases o <;> exact List.mem_append_right _ (List.mem_singleton_self _)
    · rw [hinv.backoff]
      exact backoff_le _ _ _
  | wake clock hw due =>
    obtain ⟨pre, post, hsplit, hdue⟩ := h
    simp only [DueBy, Prompt, clock] at hdue hprompt
    rw [hw] at hsplit
    refine .inl ⟨pre, post, hsplit, ?_⟩
    refine dueBy_posting rfl back (stagger_le hslack _) ?_
    show x.now + timeout + (35 + slack) + pre.length * perBatch timeout slack ≤ D
    linarith
  | staggered clock due =>
    obtain ⟨pre, post, hsplit, hdue⟩ := h
    simp only [DueBy, Prompt, clock] at hdue hprompt
    refine .inl ⟨pre, post, hsplit, ?_⟩
    show x.now + perBatch timeout slack + pre.length * perBatch timeout slack ≤ D
    linarith

/-- Time goes forward. -/
theorem now_step (h : TimedStep p x x') : x.now ≤ x'.now := by
  cases h with
  | pass t forward => exact le_add_of_nonneg_right forward
  | answer clock hw o random least most => cases o <;> exact le_rfl
  | _ => exact le_rfl

/-! ## Runs -/

/-- How long the batch number `k` takes at most, from the end of an outage on. -/
def recoveryBound (p : Pace) (timeout slack : ℚ) (k : Nat) : ℚ :=
  2 * timeout + 13 / 10 * p.maxBackoff + 35 + 3 * slack + k * perBatch timeout slack

omit [Crc32] in
/-- When the gateway comes back, every batch is due within the bound. -/
theorem dueBy_recoveryBound (hslack : 0 ≤ slack) (htimeout : 0 ≤ timeout) (hinv : TimedInv p x)
    (k : Nat) : DueBy p timeout slack x.now (x.now + recoveryBound p timeout slack k) x k := by
  have hper : perBatch timeout slack = timeout + 2 * slack := rfl
  have hcap : (0 : ℚ) ≤ p.maxBackoff := Nat.cast_nonneg _
  have hclocked := hinv.clocked
  have hcost := stagger_le hslack x (p := p)
  simp only [DueBy, recoveryBound]
  split <;> rename_i clock <;> rw [clock] at hclocked
  · cases hclocked with
    | idle _ _ past => linarith
  · cases hclocked with
    | receiving _ _ past => linarith
  · cases hclocked with
    | posting _ _ past => exact ⟨by linarith, fun _ => by linarith⟩
  · cases hclocked with
    | backingOff _ _ soon => linarith
  · cases hclocked with
    | staggering _ _ soon => linarith

omit [Crc32] in
/-- A batch that waits in a prompt agent is not overdue. -/
theorem Waiting.intime (hslack : 0 ≤ slack) (htimeout : 0 ≤ timeout) (hinv : TimedInv p x)
    (hprompt : Prompt timeout slack x) (h : Waiting p timeout slack T D b x) : x.now ≤ D := by
  obtain ⟨pre, post, hsplit, hdue⟩ := h
  have hper : perBatch timeout slack = timeout + 2 * slack := rfl
  have hbefore : 0 ≤ pre.length * perBatch timeout slack :=
    mul_nonneg (Nat.cast_nonneg _) (by linarith)
  have hclocked := hinv.clocked
  have hcost : 0 ≤ x.stagger p slack := by
    unfold Timed.stagger
    split <;> linarith
  have hqueue : x.agent.worker.hand = [] → x.agent.queue ≠ [] := by
    intro hnone hempty
    rw [hnone, hempty] at hsplit
    simp at hsplit
  simp only [DueBy] at hdue
  simp only [Prompt] at hprompt
  split at hdue <;> rename_i clock <;> rw [clock] at hclocked <;> simp only [clock] at hprompt
  · cases hclocked with
    | idle w _ _ => linarith [hprompt (hqueue (by rw [w]; rfl))]
  · cases hclocked with
    | receiving w _ _ => linarith [hprompt (hqueue (by rw [w]; rfl))]
  · linarith [hdue.1]
  · linarith
  · linarith

/-- **The backlog drains after an outage.** In every run of the agent with its clock, from a moment
`T` on after which every post succeeds, and while the runtime is at most `slack` late and a post
takes at most `timeout`: the batch with `k` others before it, in the worker's hand or in the retry
queue, is delivered or discarded with the reason logged once the longest backoff, the spread of
35 s, two timeouts and `k` more posts are over. -/
theorem backlog_drained {s : Store} (small : p.maxBackoff < 2 ^ 63) (hslack : 0 ≤ slack)
    (htimeout : 0 ≤ timeout) (run : Relation.ReflTransGen (TimedStep p) (.start p s) x)
    (hprompt : Prompt timeout slack x) {pre post : List Numbered}
    (waits : x.agent.worker.hand ++ x.agent.queue = pre ++ b :: post)
    (back : Relation.ReflTransGen (BackStep p timeout slack x.now) x x')
    (late : x.now + recoveryBound p timeout slack pre.length < x'.now) : x'.agent.Final b := by
  have hinv := timedInv_run small run
  suffices h : TimedInv p x' ∧ Prompt timeout slack x' ∧ x.now ≤ x'.now ∧
      (Waiting p timeout slack x.now (x.now + recoveryBound p timeout slack pre.length) b x' ∨
        x'.agent.Final b) by
    obtain ⟨hinv', hprompt', -, hwaits | hfinal⟩ := h
    · exact absurd (hwaits.intime hslack htimeout hinv' hprompt') (not_le.mpr late)
    · exact hfinal
  clear late
  induction back with
  | refl =>
    exact ⟨hinv, hprompt, le_rfl,
      .inl ⟨pre, post, waits, dueBy_recoveryBound hslack htimeout hinv _⟩⟩
  | tail _ hstep ih =>
    obtain ⟨hinv', hprompt', hnow, hfate⟩ := ih
    refine ⟨timedInv_step small hinv' hstep.step, hstep.prompt,
      hnow.trans (now_step hstep.step), ?_⟩
    rcases hfate with hwaits | hfinal
    · exact waiting_step hslack htimeout hinv' hprompt' hnow hwaits hstep
    · rcases timed_agent hstep.step with hsame | hagent
      · exact .inr (hsame ▸ hfinal)
      · exact .inr (hfinal.mono (fate_step hagent).1 (fate_step hagent).2)

omit [Crc32] in
/-- The gateway is back half a second after the first failure; the batch is delivered. -/
theorem backlog_drained_one : letI := crc32Ieee
    ∃ x x', Relation.ReflTransGen (TimedStep defaultPace) newAgent x ∧
      x.agent.worker.hand = [firstBatch] ∧
      Relation.ReflTransGen (BackStep defaultPace 5 1 x.now) x x' ∧ x'.agent.Final firstBatch := by
  let _ := crc32Ieee
  let back : Timed := { firstFailure with now := 1 / 2 }
  let due : Timed := { firstFailure with now := 1 }
  let delivered : Timed := secondPost.answered defaultPace firstBatch 1 .success 0
  let idle : Timed := { delivered with clock := .idle 1 }
  let later : Timed := { idle with now := 100 }
  have hclock : firstFailure.clock = .backingOff 1 := firstFailure_clock
  have hdelivered : delivered.clock = .staggering 1 := by
    show (if 2 > 1 then .staggering (1 + defaultPace.recoverySpreadSleepSecs 0) else .idle 1) =
      Clock.staggering 1
    simp [Pace.recoverySpreadSleepSecs, defaultPace, initRetryWorker]
  have hfailed : ∀ y : Timed, y.posts = firstFailure.posts → GatewayBack (1 / 2) y := by
    intro y hy e he hT
    rw [hy] at he
    obtain rfl := List.mem_singleton.mp he
    exact absurd hT (by norm_num [firstPost])
  have hrecovered : ∀ y : Timed, y.posts = delivered.posts → GatewayBack (1 / 2) y := by
    intro y hy e he hT
    rw [hy] at he
    rcases List.mem_append.mp he with he | he
    · exact hfailed firstFailure rfl e he hT
    · rw [List.mem_singleton.mp he]
  have run : Relation.ReflTransGen (TimedStep defaultPace) newAgent back :=
    firstFailure_run.tail (pass_until (show (0 : ℚ) ≤ 1 / 2 by norm_num))
  have h₁ : BackStep defaultPace 5 1 (1 / 2) back due := by
    refine ⟨pass_until (show (1 / 2 : ℚ) ≤ 1 by norm_num), ?_, hfailed due rfl⟩
    simp only [Prompt, due, hclock]
    norm_num
  have h₂ : BackStep defaultPace 5 1 (1 / 2) due secondPost := by
    refine ⟨.wake hclock rfl le_rfl, ?_, hfailed secondPost rfl⟩
    show (1 : ℚ) ≤ 1 + 5
    norm_num
  have h₃ : BackStep defaultPace 5 1 (1 / 2) secondPost delivered := by
    refine ⟨.answer rfl rfl .success 0 le_rfl one_pos, ?_, hrecovered delivered rfl⟩
    simp only [Prompt, hdelivered]
    show (1 : ℚ) ≤ 1 + 1
    norm_num
  have h₄ : BackStep defaultPace 5 1 (1 / 2) delivered idle :=
    ⟨.staggered hdelivered le_rfl, fun hqueue => absurd rfl hqueue, hrecovered idle rfl⟩
  have h₅ : BackStep defaultPace 5 1 (1 / 2) idle later :=
    ⟨pass_until (show (1 : ℚ) ≤ 100 by norm_num),
      fun hqueue => absurd rfl hqueue, hrecovered later rfl⟩
  have hsteps : Relation.ReflTransGen (BackStep defaultPace 5 1 back.now) back later :=
    .head h₁ (.head h₂ (.head h₃ (.head h₄ (.single h₅))))
  have hprompt : Prompt 5 1 back := by
    simp only [Prompt, back, hclock]
    norm_num
  have hlate : back.now + recoveryBound defaultPace 5 1 0 < later.now := by
    norm_num [back, later, recoveryBound, perBatch, defaultPace, initRetryWorker]
  have hwaits : back.agent.worker.hand ++ back.agent.queue = [] ++ firstBatch :: [] := rfl
  exact ⟨back, later, run, rfl, hsteps,
    backlog_drained (by decide) zero_le_one (by norm_num) run hprompt hwaits hsteps hlate⟩

end Statix.Delivery
