import Statix.Delivery.Agent
import Statix.Wal.Recovery

/-!
# No silent loss inside the running agent

Every batch handed to `enqueue_batch_json` stays in one of the places a batch can be, or was
delivered or discarded with a log line, and no batch is in the retry queue and in the undelivered
part of the store at once, except between a replay's send and its commit.

* `AgentInv`: the store represents a log whose unread frames are the batches `ahead`, and two
  balances: nothing handed over is missing, and nothing is in two places, up to the one copy a
  replay makes between its send and its commit.
* `AgentInv.move`: steps that leave the store and the drainer alone only move batches.
* `agentInv_append`, `agentInv_peek`, `agentInv_commit`: the steps on the store.
* `issued_step`: batches are numbered in the order they are handed over.
* **`no_silent_loss`**: both over whole runs.
-/

namespace Statix.Delivery

open Statix.Lib Statix.Wal

variable [Crc32] {a a' : Agent} {l : FrameLog} {recovered : List Numbered}

/-- The places a batch can be in. -/
def Agent.places (a : Agent) : List Numbered :=
  a.queue ++ a.worker.hand ++ a.chan ++ a.writer.hand ++ a.ahead

/-- What is accounted for: a place, or a recorded end. -/
def Agent.settled (a : Agent) : List Numbered :=
  a.places ++ a.delivered ++ a.discarded.map Prod.snd

/-- The batch of a call under way. -/
def Caller.hand : Caller → List Numbered
  | .idle => []
  | .full b => [b]
  | .spillFailed b => [b]
  | .locked b => [b]

/-- The batch a replay is about. -/
def Drainer.batch? : Drainer → Option Numbered
  | .peeked _ b => some b
  | .sent _ b => some b
  | _ => none

/-- One while a replay of `b` is between its send and its commit and the frame is still ahead. -/
def Agent.replaying (a : Agent) (b : Numbered) : Nat :=
  match a.drainer with
  | .sent _ o => if o = b ∧ a.store.pendingAdvance ≠ none then 1 else 0
  | _ => 0

/-- One while a replay holds `b` and the cap dropped its segment meanwhile. -/
def Agent.orphaned (a : Agent) (b : Numbered) : Nat :=
  match a.drainer with
  | .peeked _ o => if o = b ∧ a.store.pendingAdvance = none then 1 else 0
  | _ => 0

/-- **What a run of the agent keeps.** -/
structure AgentInv (recovered : List Numbered) (a : Agent) (l : FrameLog) : Prop where
  store : Represents a.store l
  numbered : a.ahead.map Numbered.payload = l.ahead.map DecodedFrame.payload
  valid : ∀ b ∈ a.caller.hand ++ a.chan ++ a.writer.hand, ValidPayload b.payload
  next : ∀ b, a.drainer.batch? = some b → a.store.pendingAdvance ≠ none → a.ahead.head? = some b
  noLoss : ∀ b, recovered.count b + a.handed.count b + a.replaying b ≤ a.settled.count b
  noCopy : ∀ b, a.places.count b + a.orphaned b ≤
    recovered.count b + a.handed.count b + a.replaying b

theorem undelivered_eq {s : Store} (h : Represents s l) :
    undelivered s = l.ahead.map DecodedFrame.payload := by
  unfold undelivered
  rw [aheadOf_eq h]

omit [Crc32] in
theorem count_places (a : Agent) (b : Numbered) : a.places.count b =
    a.queue.count b + a.worker.hand.count b + a.chan.count b + a.writer.hand.count b +
      a.ahead.count b := by
  unfold Agent.places
  simp only [List.count_append]

omit [Crc32] in
theorem count_settled (a : Agent) (b : Numbered) : a.settled.count b =
    a.places.count b + a.delivered.count b + (a.discarded.map Prod.snd).count b := by
  unfold Agent.settled
  simp only [List.count_append]

omit [Crc32] in
theorem count_take_drop (n : Nat) (bs : List Numbered) (b : Numbered) :
    bs.count b = (bs.take n).count b + (bs.drop n).count b := by
  rw [← List.count_append, List.take_append_drop]

/-- A step that leaves the store and the drainer alone: batches move between places and records. -/
theorem AgentInv.move (h : AgentInv recovered a l) (hstore : a'.store = a.store)
    (hahead : a'.ahead = a.ahead) (hdrainer : a'.drainer = a.drainer)
    (hvalid : ∀ b ∈ a'.caller.hand ++ a'.chan ++ a'.writer.hand, ValidPayload b.payload)
    (hloss : ∀ b, a'.handed.count b + a.settled.count b ≤ a.handed.count b + a'.settled.count b)
    (hcopy : ∀ b, a'.places.count b + a.handed.count b ≤ a.places.count b + a'.handed.count b) :
    AgentInv recovered a' l := by
  have hrep : ∀ b, a'.replaying b = a.replaying b := by
    intro b
    unfold Agent.replaying
    rw [hstore, hdrainer]
  have horp : ∀ b, a'.orphaned b = a.orphaned b := by
    intro b
    unfold Agent.orphaned
    rw [hstore, hdrainer]
  constructor
  · rw [hstore]
    exact h.store
  · rw [hahead]
    exact h.numbered
  · exact hvalid
  · rw [hstore, hdrainer, hahead]
    exact h.next
  · intro b
    have h1 := h.noLoss b
    have h2 := hloss b
    rw [hrep]
    omega
  · intro b
    have h1 := h.noCopy b
    have h2 := hcopy b
    rw [hrep, horp]
    omega

omit [Crc32] in
/-- Outside a replay's send-to-commit there is no copy. -/
theorem replaying_eq_zero (h : ∀ t b, a.drainer ≠ .sent t b) (b : Numbered) :
    a.replaying b = 0 := by
  unfold Agent.replaying
  split
  · exact absurd (by assumption) (h _ _)
  · rfl

omit [Crc32] in
theorem orphaned_eq_zero (h : ∀ t b, a.drainer ≠ .peeked t b) (b : Numbered) :
    a.orphaned b = 0 := by
  unfold Agent.orphaned
  split
  · exact absurd (by assumption) (h _ _)
  · rfl

/-- The drainer, not between a send and its commit, goes to a phase outside the replay. -/
theorem AgentInv.turn (h : AgentInv recovered a l) {d : Drainer} {c : Circuit} {s : Store}
    {l' : FrameLog} (hs : Represents s l') (hahead : l'.ahead = l.ahead)
    (hold : ∀ t b, a.drainer ≠ .sent t b) (hbatch : d.batch? = none) :
    AgentInv recovered { a with drainer := d, circuit := c, store := s } l' := by
  have hsent : ∀ t b, d ≠ .sent t b := by
    rintro t b rfl
    cases hbatch
  have hpeeked : ∀ t b, d ≠ .peeked t b := by
    rintro t b rfl
    cases hbatch
  constructor
  · exact hs
  · rw [hahead]
    exact h.numbered
  · exact h.valid
  · intro b hb
    cases hbatch.symm.trans hb
  · intro b
    have h1 := h.noLoss b
    rw [replaying_eq_zero hold] at h1
    rw [replaying_eq_zero hsent]
    exact h1
  · intro b
    have h1 := h.noCopy b
    rw [replaying_eq_zero hold] at h1
    rw [replaying_eq_zero hsent, orphaned_eq_zero hpeeked]
    exact Nat.le_trans (Nat.le_add_right _ _) h1

/-! ## An append -/

/-- With a frame peeked and pending the first dropped segment holds an unread frame. -/
theorem lostBy_ne_nil {s : Store} (h : Represents s l) (hp : s.pendingAdvance ≠ none) {n : Nat}
    (hn : 0 < n) : l.lostBy n ≠ [] := by
  obtain ⟨k, rfl⟩ := Nat.exists_eq_succ_of_ne_zero (Nat.ne_of_gt hn)
  cases h.cursor with
  | off _ _ h3 _ _ => exact absurd h3 hp
  | front g rest hs _ _ hpend =>
    rcases hpend with hpend | ⟨hc, -⟩
    · exact absurd hpend hp
    · rw [SegLog.lostBy_succ]
      refine List.append_ne_nil_of_left_ne_nil ?_ _
      unfold SegLog.lostBy
      rw [hs]
      simp [hc]

omit [Crc32] in
/-- When a pending advance goes, `k` counts the frame it was past. -/
theorem drop_shift (a : Agent) (s' : Store) (x : Numbered) (k : Nat)
    (hlost : a.store.pendingAdvance ≠ none → s'.pendingAdvance = none →
      a.drainer.batch? = some x → 1 ≤ k) :
    a.replaying x + Agent.orphaned { a with store := s' } x ≤
      Agent.replaying { a with store := s' } x + a.orphaned x + k := by
  unfold Agent.replaying Agent.orphaned
  cases hd : a.drainer with
  | sent t b =>
    simp only
    split
    · rename_i hx
      split
      · omega
      · rename_i hx'
        have hnone : s'.pendingAdvance = none := by
          by_contra hne
          exact hx' ⟨hx.1, hne⟩
        have := hlost hx.2 hnone (by rw [hd, hx.1]; rfl)
        omega
    · omega
  | peeked t b =>
    simp only
    split
    · rename_i hx
      split
      · omega
      · rename_i hx'
        have := hlost (fun hnone => hx' ⟨hx.1, hnone⟩) hx.2 (by rw [hd, hx.1]; rfl)
        omega
    · omega
  | _ => exact Nat.zero_le _

section Append

variable {io : Io} {b : Numbered} {next : WriterThread} {n : Nat} {rotates : Bool}

theorem cappedBy_eq (h : AgentInv recovered a l)
    (o : AppendOutcome io a.store l b.payload n rotates) :
    cappedBy io a.store b.payload = (l.lostBy n).length := by
  unfold cappedBy
  rw [droppedBy_eq h.store o.capped]

/-- The batches left ahead are those of the frames left ahead. -/
theorem numbered_append (h : AgentInv recovered a l)
    (o : AppendOutcome io a.store l b.payload n rotates) :
    (a.append io b next).ahead.map Numbered.payload =
      (appendedLog (l.dropSegs n) a.store.nextSeq rotates (appendOne io a.store b.payload).2
        ⟨a.store.nextBatchSeq, b.payload⟩).ahead.map DecodedFrame.payload := by
  have hdrop : (a.ahead.drop (l.lostBy n).length).map Numbered.payload =
      (l.dropSegs n).ahead.map DecodedFrame.payload := by
    rw [List.map_drop, h.numbered, SegLog.ahead_dropSegs n l, List.map_append]
    exact List.drop_left' (List.length_map _)
  rw [o.ahead, List.map_append, ← hdrop, ← cappedBy_eq h o]
  unfold Agent.append
  rw [List.map_append]
  split <;> rfl

/-- The batch in the writer's hand goes to the store or is discarded, and the batches the cap drops
leave the store. -/
theorem count_places_append (io : Io) (hhand : a.writer.hand = [b]) (hnext : next.hand = [])
    (x : Numbered) :
    (a.append io b next).places.count x +
        (a.ahead.take (cappedBy io a.store b.payload)).count x +
        (if (appendOne io a.store b.payload).2 then 0 else [b].count x) = a.places.count x := by
  rw [count_places, count_places, hhand, count_take_drop (cappedBy io a.store b.payload) a.ahead x]
  unfold Agent.append
  simp only [hnext, List.count_append, List.count_nil]
  split
  · omega
  · rw [List.count_nil]
    omega

theorem count_settled_append (hhand : a.writer.hand = [b]) (hnext : next.hand = []) (x : Numbered) :
    (a.append io b next).settled.count x = a.settled.count x := by
  have hplaces := count_places_append io hhand hnext x
  rw [count_settled, count_settled, ← hplaces]
  have hdisc : ((a.append io b next).discarded.map Prod.snd).count x =
      (a.discarded.map Prod.snd).count x +
        (a.ahead.take (cappedBy io a.store b.payload)).count x +
        (if (appendOne io a.store b.payload).2 then 0 else [b].count x) := by
    unfold Agent.append
    simp only [List.map_append, List.count_append, List.map_map, Function.comp_def,
      List.map_id_fun', id]
    split <;> rfl
  have hdel : (a.append io b next).delivered = a.delivered := rfl
  rw [hdisc, hdel]
  omega

/-- A pending advance goes exactly when the batch before it is dropped. -/
theorem one_le_count_dropped (h : AgentInv recovered a l)
    (o : AppendOutcome io a.store l b.payload n rotates) {x : Numbered}
    (hne : a.store.pendingAdvance ≠ none)
    (hnone : (appendOne io a.store b.payload).1.pendingAdvance = none)
    (hx : a.drainer.batch? = some x) :
    1 ≤ (a.ahead.take (cappedBy io a.store b.payload)).count x := by
  have hn : 0 < n := by
    rcases o.pending with ⟨-, e⟩ | ⟨hn, -⟩
    · exact absurd (e.symm.trans hnone) hne
    · exact hn
  obtain ⟨f, fs, hlost⟩ := List.exists_cons_of_ne_nil (lostBy_ne_nil h.store hne hn)
  obtain ⟨ys, hys⟩ := List.head?_eq_some_iff.mp (h.next x hx hne)
  rw [cappedBy_eq h o, hlost, hys, List.length_cons, List.take_succ_cons, List.one_le_count_iff]
  exact List.mem_cons_self

/-- The step of the writer thread that appends the batch in its hand. -/
theorem agentInv_append (h : AgentInv recovered a l) (io : Io) (repairs : io.Repairs)
    (number : NumbersLeft a.store) {b : Numbered} {next : WriterThread}
    (hhand : a.writer.hand = [b]) (hnext : next.hand = []) :
    ∃ l', AgentInv recovered (a.append io b next) l' := by
  have hp : ValidPayload b.payload := h.valid b (by rw [hhand]; simp)
  obtain ⟨n, rotates, o⟩ := appendOne_spec io h.store repairs number hp
  refine ⟨_, o.store, numbered_append h o, ?_, ?_, fun x => ?_, fun x => ?_⟩
  · intro x hx
    refine h.valid x (List.mem_append_left _ ?_)
    rcases List.mem_append.mp hx with hx | hx
    · exact hx
    · rw [show (a.append io b next).writer.hand = [] from hnext] at hx
      cases hx
  · intro x hx hne
    -- the advance is still pending, so nothing was dropped
    rcases o.pending with ⟨rfl, e⟩ | ⟨-, e⟩
    · have hhead := h.next x hx (by rw [← e]; exact hne)
      have hzero : cappedBy io a.store b.payload = 0 := by
        rw [cappedBy_eq h o, SegLog.lostBy_zero, List.length_nil]
      unfold Agent.append
      rw [hzero, List.drop_zero, List.head?_append, hhead]
      rfl
    · exact absurd e hne
  · have h1 := h.noLoss x
    have h2 : (a.append io b next).replaying x ≤ a.replaying x := by
      have hsent : (a.append io b next).drainer = a.drainer := rfl
      unfold Agent.replaying
      rw [hsent]
      cases a.drainer with
      | sent t f =>
        rcases o.pending with ⟨-, e⟩ | ⟨-, e⟩
        · exact Nat.le_of_eq (by rw [← e]; rfl)
        · refine Nat.le_trans (Nat.le_of_eq (if_neg fun hx => ?_)) (Nat.zero_le _)
          exact hx.2 e
      | _ => exact Nat.le_refl _
    rw [count_settled_append hhand hnext]
    exact Nat.le_trans (Nat.add_le_add_left h2 _) h1
  · have h1 := h.noCopy x
    have h2 := count_places_append io hhand hnext x
    have h3 := drop_shift a (appendOne io a.store b.payload).1 x _
      fun hne hnone hx => one_le_count_dropped h o hne hnone hx
    change (a.append io b next).places.count x +
        Agent.orphaned { a with store := (appendOne io a.store b.payload).1 } x ≤
      recovered.count x + a.handed.count x +
        Agent.replaying { a with store := (appendOne io a.store b.payload).1 } x
    omega

end Append

/-! ## The other steps on the store -/

/-- A sync by the writer thread. -/
theorem agentInv_sync (h : AgentInv recovered a l) {s : Store} {w : WriterThread}
    (hs : Represents s l) (hp : s.pendingAdvance = a.store.pendingAdvance)
    (hhand : a.writer.hand = []) (hw : w.hand = []) :
    AgentInv recovered { a with store := s, writer := w } l := by
  have hplaces : Agent.places { a with store := s, writer := w } = a.places := by
    unfold Agent.places
    rw [hhand, hw]
  have hrep : ∀ x, Agent.replaying { a with store := s, writer := w } x = a.replaying x := by
    intro x
    unfold Agent.replaying
    rw [hp]
  have horp : ∀ x, Agent.orphaned { a with store := s, writer := w } x = a.orphaned x := by
    intro x
    unfold Agent.orphaned
    rw [hp]
  constructor
  · exact hs
  · exact h.numbered
  · dsimp only
    rw [hw, ← hhand]
    exact h.valid
  · dsimp only
    rw [hp]
    exact h.next
  · intro x
    have h1 := h.noLoss x
    rw [count_settled] at h1 ⊢
    rw [hplaces, hrep]
    exact h1
  · intro x
    rw [hplaces, hrep, horp]
    exact h.noCopy x

/-- The drainer peeks a frame, which stays where it is. -/
theorem agentInv_peek (h : AgentInv recovered a l) {io : Io} {trial : Bool} {f : DecodedFrame}
    (hd : a.drainer = .peeking trial) (hf : (peekNext io a.store).2 = .frame f) :
    ∃ l', AgentInv recovered { a with
      store := (peekNext io a.store).1, drainer := .peeked trial (a.peekedBatch f) } l' := by
  obtain ⟨n, o⟩ := peekNext_spec io h.store
  obtain ⟨hhead, hpend⟩ := o.frame f hf
  have hahead : (l.dropSegs n).ahead = l.ahead := by
    rw [SegLog.ahead_dropSegs n l, o.readOut, List.nil_append]
  rw [hahead] at hhead
  -- the first batch ahead is that of the first frame ahead
  have hbatch : a.ahead.head? = some (a.peekedBatch f) := by
    have hpay := congrArg List.head? h.numbered
    rw [List.head?_map, List.head?_map, hhead] at hpay
    unfold Agent.peekedBatch
    cases hx : a.ahead.head? with
    | none =>
      rw [hx] at hpay
      cases hpay
    | some x =>
      rw [hx] at hpay
      have hpay : x.payload = f.payload := Option.some.inj hpay
      rw [← hpay]
      rfl
  have hold : ∀ t b, a.drainer ≠ .sent t b := by
    intro t b e
    rw [hd] at e
    cases e
  have hturn := h.turn (d := .sweeping) (c := a.circuit) o.store hahead hold rfl
  refine ⟨_, o.store, hturn.numbered, hturn.valid, ?_, hturn.noLoss, fun x => ?_⟩
  · intro x hx _
    rw [← Option.some.inj hx]
    exact hbatch
  · have horp : Agent.orphaned { a with
        store := (peekNext io a.store).1, drainer := .peeked trial (a.peekedBatch f) } x = 0 := by
      unfold Agent.orphaned
      exact if_neg fun e => hpend e.2
    rw [horp]
    exact hturn.noCopy x

/-- The drainer sends the peeked batch to the queue: for a moment there are two. -/
theorem agentInv_send (h : AgentInv recovered a l) {trial : Bool} {b : Numbered}
    (hd : a.drainer = .peeked trial b) :
    AgentInv recovered { a with queue := a.queue ++ [b], drainer := .sent trial b } l := by
  have hcount : ∀ x,
      Agent.replaying { a with queue := a.queue ++ [b], drainer := .sent trial b } x +
        a.orphaned x = [b].count x := by
    intro x
    unfold Agent.replaying Agent.orphaned
    rw [hd]
    by_cases hx : b = x
    · by_cases hne : a.store.pendingAdvance = none <;> simp [hx, hne]
    · simp [hx]
  have hrep : ∀ x, a.replaying x = 0 := by
    refine replaying_eq_zero fun t b e => ?_
    rw [hd] at e
    cases e
  constructor
  · exact h.store
  · exact h.numbered
  · exact h.valid
  · intro x hx hne
    refine h.next x ?_ hne
    rw [hd]
    exact hx
  · intro x
    have h1 := h.noLoss x
    have h2 := hcount x
    have h3 := hrep x
    rw [count_settled, count_places] at h1
    rw [count_settled, count_places]
    simp only [List.count_append]
    omega
  · intro x
    have h1 := h.noCopy x
    have h2 := hcount x
    have h3 := hrep x
    have h4 : Agent.orphaned { a with queue := a.queue ++ [b], drainer := .sent trial b } x = 0 :=
      orphaned_eq_zero (fun _ _ e => by cases e) x
    rw [count_places] at h1
    rw [count_places, h4]
    simp only [List.count_append]
    omega

/-- The commit takes the batch out of the undelivered part, when it is still there. -/
theorem agentInv_commit (h : AgentInv recovered a l) {trial : Bool} {b : Numbered}
    (hd : a.drainer = .sent trial b) : ∃ l', AgentInv recovered { a with
      store := commitPending a.store
      ahead := if a.store.pendingAdvance = none then a.ahead else a.ahead.tail
      drainer := afterReplay trial } l' := by
  have hsent : ∀ t b, afterReplay trial ≠ .sent t b := by
    cases trial <;> exact fun t b => (nomatch ·)
  have hpeeked : ∀ t b, afterReplay trial ≠ .peeked t b := by
    cases trial <;> exact fun t b => (nomatch ·)
  have hbatch : (afterReplay trial).batch? = none := by cases trial <;> rfl
  have horp : ∀ x, a.orphaned x = 0 := by
    refine orphaned_eq_zero fun t b e => ?_
    rw [hd] at e
    cases e
  -- what the commit takes away is the copy the send made
  have hcommit : ∃ l', Represents (commitPending a.store) l' ∧
      (if a.store.pendingAdvance = none then a.ahead else a.ahead.tail).map Numbered.payload =
        l'.ahead.map DecodedFrame.payload ∧
      ∀ x, a.ahead.count x = a.replaying x +
        (if a.store.pendingAdvance = none then a.ahead else a.ahead.tail).count x := by
    rcases commitPending_spec h.store with ⟨hnone, e⟩ | ⟨g, l', hne, hr, -, hcons, -⟩
    · refine ⟨l, by rw [e]; exact h.store, ?_, fun x => ?_⟩
      · rw [if_pos hnone]
        exact h.numbered
      · rw [if_pos hnone]
        unfold Agent.replaying
        rw [hd]
        simp [hnone]
    · obtain ⟨rest, hrest⟩ := List.head?_eq_some_iff.mp (h.next b (by rw [hd]; rfl) hne)
      have hnum := h.numbered
      rw [hrest, hcons, List.map_cons, List.map_cons] at hnum
      refine ⟨l', hr, ?_, fun x => ?_⟩
      · rw [if_neg hne, hrest, List.tail_cons]
        exact (List.cons.inj hnum).2
      · rw [if_neg hne, hrest, List.tail_cons, List.count_cons]
        unfold Agent.replaying
        rw [hd]
        simp [hne, Nat.add_comm]
  obtain ⟨l', hr, hnum, hahead⟩ := hcommit
  refine ⟨l', hr, hnum, h.valid, fun x hx => ?_, fun x => ?_, fun x => ?_⟩
  · cases hbatch.symm.trans hx
  · have h1 := h.noLoss x
    have h2 := hahead x
    rw [count_settled, count_places] at h1
    rw [count_settled, count_places, replaying_eq_zero hsent]
    dsimp only
    omega
  · have h1 := h.noCopy x
    have h2 := hahead x
    have h3 := horp x
    rw [count_places] at h1
    rw [count_places, replaying_eq_zero hsent, orphaned_eq_zero hpeeked]
    dsimp only
    omega

/-- **Every step of every actor keeps the invariant.** -/
theorem agentInv_step (h : AgentInv recovered a l) (hstep : AgentStep a a') :
    ∃ l', AgentInv recovered a' l' := by
  have hv := h.valid
  cases hstep with
  | trySend p valid hc room =>
    refine ⟨l, h.move rfl rfl rfl hv (fun x => ?_) fun x => ?_⟩
    · simp only [count_settled, count_places, List.count_append]
      omega
    · simp only [count_places, List.count_append]
      omega
  | queueFull p valid hc full =>
    refine ⟨l, h.move rfl rfl rfl ?_ (fun x => Nat.le_refl _) fun x => Nat.le_refl _⟩
    simp only [hc, Caller.hand, List.nil_append, List.cons_append, List.mem_cons] at hv ⊢
    rintro q (rfl | hq)
    · exact valid
    · exact hv q hq
  | tryAppend hc room =>
    refine ⟨l, h.move rfl rfl rfl ?_ (fun x => ?_) fun x => ?_⟩
    · simp only [hc, Caller.hand, List.mem_append, List.mem_cons, List.not_mem_nil, or_false,
        false_or] at hv ⊢
      exact fun q hq => hv q (by tauto)
    · simp only [count_settled, count_places, List.count_append]
      omega
    · simp only [count_places, List.count_append]
      omega
  | channelFull hc full =>
    refine ⟨l, h.move rfl rfl rfl ?_ (fun x => Nat.le_refl _) fun x => Nat.le_refl _⟩
    rw [hc] at hv
    exact hv
  | queueLocked hc _ | stillFull hc _ =>
    refine ⟨l, h.move rfl rfl rfl ?_ (fun x => ?_) fun x => ?_⟩
    · rw [hc] at hv
      exact fun q hq => hv q (List.mem_cons_of_mem _ hq)
    · simp only [count_settled, count_places, List.map_append, List.count_append, List.map_cons,
        List.map_nil]
      omega
    · simp only [count_places, List.count_append]
      omega
  | tryLock hc free =>
    refine ⟨l, h.move rfl rfl rfl ?_ (fun x => ?_) fun x => ?_⟩
    · rw [hc] at hv
      exact hv
    · have := count_take_drop 1 a.queue x
      simp only [count_settled, count_places, List.map_append, List.count_append, List.map_map,
        Function.comp_def, List.map_id_fun', id]
      omega
    · have := count_take_drop 1 a.queue x
      simp only [count_places]
      omega
  | resend hc room =>
    refine ⟨l, h.move rfl rfl rfl ?_ (fun x => ?_) fun x => ?_⟩
    · rw [hc] at hv
      exact fun q hq => hv q (List.mem_cons_of_mem _ hq)
    · simp only [count_settled, count_places, List.count_append]
      omega
    · simp only [count_places, List.count_append]
      omega
  | workerLock hw _ | retryable hw | wake hw =>
    refine ⟨l, h.move rfl rfl rfl hv (fun x => ?_) fun x => ?_⟩
    · simp only [count_settled, count_places, hw, Worker.hand]
      omega
    · simp only [count_places, hw, Worker.hand]
      omega
  | workerRecv hw hq =>
    refine ⟨l, h.move rfl rfl rfl hv (fun x => ?_) fun x => ?_⟩
    · simp only [count_settled, count_places, hw, hq, Worker.hand, List.count_cons, List.count_nil]
      omega
    · simp only [count_places, hw, hq, Worker.hand, List.count_cons, List.count_nil]
      omega
  | success hw =>
    refine ⟨l, h.move rfl rfl rfl hv (fun x => ?_) fun x => ?_⟩
    · simp only [count_settled, count_places, hw, Worker.hand, List.count_append, List.count_nil]
      omega
    · simp only [count_places, hw, Worker.hand, List.count_nil]
      omega
  | nonRetryable hw =>
    refine ⟨l, h.move rfl rfl rfl hv (fun x => ?_) fun x => ?_⟩
    · simp only [count_settled, count_places, hw, Worker.hand, List.map_append, List.count_append,
        List.map_cons, List.map_nil, List.count_nil]
      omega
    · simp only [count_places, hw, Worker.hand, List.count_nil]
      omega
  | writerRecv hw hc | writerTryRecv hw hc =>
    refine ⟨l, h.move rfl rfl rfl ?_ (fun x => ?_) fun x => ?_⟩
    · simp only [hw, hc, WriterThread.hand, List.mem_append, List.mem_cons, List.not_mem_nil,
        or_false] at hv ⊢
      exact fun q hq => hv q (by tauto)
    · simp only [count_settled, count_places, hw, hc, WriterThread.hand, List.count_cons,
        List.count_nil]
      omega
    · simp only [count_places, hw, hc, WriterThread.hand, List.count_cons, List.count_nil]
      omega
  | appendFirst io repairs number hw | appendMore io repairs number hw =>
    exact agentInv_append h io repairs number (by rw [hw]; rfl) rfl
  | syncDue io elapsed hw due =>
    exact ⟨l, agentInv_sync h (syncActive_spec h.store) rfl (by rw [hw]; rfl) rfl⟩
  | syncNotDue elapsed hw notDue =>
    exact ⟨l, agentInv_sync h h.store rfl (by rw [hw]; rfl) rfl⟩
  | groupDone io hw empty =>
    refine ⟨l, agentInv_sync h ?_ ?_ (by rw [hw]; rfl) rfl⟩
    · split
      · exact syncActive_spec h.store
      · exact h.store
    · split <;> rfl
  | sweep hd | probe hd | trial hd _ _ | drain hd _ _ | noBacklog hd _ _ _ | drainPause hd _
    | drainGo hd _ _ | noCapacity hd _ =>
    exact ⟨l, h.turn h.store rfl (fun t b e => by rw [hd] at e; cases e) rfl⟩
  | peekFrame io hd free hf => exact agentInv_peek h hd hf
  | peekEmpty io hd free hf =>
    obtain ⟨n, o⟩ := peekNext_spec io h.store
    refine ⟨_, h.turn o.store ?_ (fun t b e => by rw [hd] at e; cases e) rfl⟩
    rw [SegLog.ahead_dropSegs n l, o.readOut, List.nil_append]
  | replaySend hd room => exact ⟨l, agentInv_send h hd⟩
  | replayCommit hd free => exact agentInv_commit h hd

/-! ## The numbers -/

omit [Crc32] in
theorem number_payload : ∀ (n : Nat) (ps : List Bytes), (number n ps).map Numbered.payload = ps
  | _, [] => rfl
  | n, p :: ps => congrArg (p :: ·) (number_payload (n + 1) ps)

omit [Crc32] in
theorem number_id : ∀ (n : Nat) (ps : List Bytes),
    (number n ps).map Numbered.id = List.range' n ps.length
  | _, [] => rfl
  | n, _ :: ps => congrArg (n :: ·) (number_id (n + 1) ps)

/-- Batches are numbered in the order they are handed over, after the recovered ones. -/
def Agent.Issued (recovered : List Numbered) (a : Agent) : Prop :=
  (recovered ++ a.handed ++ a.caller.hand).map Numbered.id = List.range a.nextId

theorem issued_step (h : a.Issued recovered) (hstep : AgentStep a a') : a'.Issued recovered := by
  unfold Agent.Issued at *
  cases hstep with
  | trySend p valid hc room =>
    rw [hc] at h
    simp only [hc, Caller.hand, List.append_nil] at h ⊢
    rw [← List.append_assoc, List.map_append, h, List.range_succ]
    rfl
  | queueFull p valid hc full =>
    rw [hc] at h
    simp only [Caller.hand, List.append_nil] at h ⊢
    rw [List.map_append, h, List.range_succ]
    rfl
  | tryAppend hc room | queueLocked hc locked | resend hc room | stillFull hc full =>
    rw [hc] at h
    simp only [Caller.hand, List.append_nil] at h ⊢
    rw [← List.append_assoc]
    exact h
  | channelFull hc full | tryLock hc free =>
    rw [hc] at h
    exact h
  | _ => exact h

theorem issued_run {s₀ : Store} (run : Relation.ReflTransGen AgentStep (Agent.start s₀) a) :
    a.Issued (number 0 (undelivered s₀)) := by
  induction run with
  | refl =>
    unfold Agent.Issued Agent.start
    simp only [Caller.hand, List.append_nil]
    rw [number_id, List.range_eq_range']
  | tail _ hstep ih => exact issued_step ih hstep

/-- Different batches have different numbers. -/
theorem nodup_issued {s₀ : Store} (run : Relation.ReflTransGen AgentStep (Agent.start s₀) a) :
    ((number 0 (undelivered s₀) ++ a.handed).map Numbered.id).Nodup := by
  have hids : (number 0 (undelivered s₀) ++ a.handed ++ a.caller.hand).map Numbered.id =
      List.range a.nextId := issued_run run
  have hall := List.nodup_range (n := a.nextId)
  rw [← hids, List.map_append] at hall
  exact hall.of_append_left

theorem issued_once {s₀ : Store} (run : Relation.ReflTransGen AgentStep (Agent.start s₀) a)
    (b : Numbered) : (number 0 (undelivered s₀)).count b + a.handed.count b ≤ 1 := by
  rw [← List.count_append]
  exact List.nodup_iff_count_le_one.mp (List.Nodup.of_map _ (nodup_issued run)) b

/-! ## Whole runs -/

theorem agentInv_run {s₀ : Store} {l₀ : FrameLog} (h₀ : Represents s₀ l₀)
    (run : Relation.ReflTransGen AgentStep (Agent.start s₀) a) :
    ∃ l, AgentInv (number 0 (undelivered s₀)) a l := by
  induction run with
  | refl =>
    refine ⟨l₀, h₀, ?_, fun b hb => absurd hb List.not_mem_nil, fun b hb => (by cases hb),
      fun b => ?_, fun b => ?_⟩
    · rw [← undelivered_eq h₀]
      exact number_payload 0 _
    · simp [Agent.start, Agent.replaying, Agent.settled, Agent.places, Worker.hand,
        WriterThread.hand]
    · simp [Agent.start, Agent.replaying, Agent.orphaned, Agent.places, Worker.hand,
        WriterThread.hand]
  | tail _ hstep ih =>
    obtain ⟨l, ih⟩ := ih
    exact agentInv_step ih hstep

omit [Crc32] in
/-- A copy is the one a replay made. -/
theorem sent_of_replaying {b : Numbered} (h : a.replaying b ≠ 0) :
    ∃ trial, a.drainer = .sent trial b := by
  unfold Agent.replaying at h
  split at h
  · rename_i trial o hd
    refine ⟨trial, ?_⟩
    by_cases ho : o = b
    · rw [hd, ho]
    · exact absurd (if_neg fun hx => ho hx.1) h
  · exact absurd rfl h

/-- **No silent loss inside the running agent.** In every run of the caller, the retry worker, the
WAL writer and the drainer, every batch handed over or recovered from disk is in the retry queue, in
the worker's hand, in the WAL channel, in the WAL writer's hand, in the undelivered part of the
store, delivered, or discarded with a log line; and a batch is in the queue and in the undelivered
part at once only between a replay's send and its commit. Different batches have different numbers,
and `ahead` has the payloads of the undelivered part. -/
theorem no_silent_loss {io : Io} {cfg : WalConfig} {entries : List FileName} {d : Disk} {s₀ : Store}
    (written : WrittenDir d) (lists : Lists entries d) (truncates : ∀ n, io.setLen n = true)
    (opened : recover io cfg entries d = some s₀)
    (run : Relation.ReflTransGen AgentStep (Agent.start s₀) a) :
    (∀ b ∈ number 0 (undelivered s₀) ++ a.handed,
      b ∈ a.queue ∨ b ∈ a.worker.hand ∨ b ∈ a.chan ∨ b ∈ a.writer.hand ∨ b ∈ a.ahead ∨
        b ∈ a.delivered ∨ b ∈ a.discarded.map Prod.snd) ∧
    (∀ b, b ∈ a.queue → b ∈ a.ahead → ∃ trial, a.drainer = .sent trial b) ∧
    a.ahead.map Numbered.payload = undelivered a.store ∧
    ((number 0 (undelivered s₀) ++ a.handed).map Numbered.id).Nodup := by
  obtain ⟨s, l₀, e, o⟩ := recover_spec io truncates cfg written lists
  obtain rfl := Option.some.inj (e.symm.trans opened)
  obtain ⟨l, h⟩ := agentInv_run o.store run
  refine ⟨fun b hb => ?_, fun b hq ha => ?_, ?_, nodup_issued run⟩
  · have h1 := h.noLoss b
    have h2 := List.one_le_count_iff.mpr hb
    rw [List.count_append] at h2
    have hmem : b ∈ a.settled := List.one_le_count_iff.mp (by omega)
    simpa only [Agent.settled, Agent.places, List.mem_append, or_assoc] using hmem
  · have h1 := h.noCopy b
    have h2 := issued_once run b
    have h3 := List.one_le_count_iff.mpr hq
    have h4 := List.one_le_count_iff.mpr ha
    rw [count_places] at h1
    exact sent_of_replaying (by omega)
  · rw [h.numbered, undelivered_eq h.store]

/-- The queue filled with `n` batches. -/
theorem fill_queue (s : Store) (p : Bytes) (hp : ValidPayload p) : ∀ n, n ≤ retryQueueCapacity →
    Relation.ReflTransGen AgentStep (Agent.start s)
      { Agent.start s with
        queue := (List.range' (undelivered s).length n).map (Numbered.mk · p)
        nextId := (undelivered s).length + n
        handed := (List.range' (undelivered s).length n).map (Numbered.mk · p) }
  | 0, _ => .refl
  | n + 1, hn => by
    have hfill := fill_queue s p hp n (Nat.le_of_succ_le hn)
    rw [List.range'_1_concat, List.map_append]
    refine hfill.tail (.trySend p hp rfl ?_)
    rw [List.length_map, List.length_range']
    exact hn

omit [Crc32] in
/-- A batch spilled over a full queue and taken by the WAL writer is in the writer's hand only. -/
theorem batch_in_writer_hand : letI := crc32Ieee
    ∃ (cfg : WalConfig) (a : Agent) (b : Numbered), Relation.ReflTransGen AgentStep
        (Agent.start (emptyStore cfg fun _ => none)) a ∧
      b ∈ a.handed ∧ b ∉ a.queue ∧ b ∉ a.worker.hand ∧ b ∉ a.chan ∧ b ∉ a.ahead ∧
      b.payload ∉ undelivered a.store ∧ b ∉ a.delivered ∧ b ∉ a.discarded.map Prod.snd := by
  let _ := crc32Ieee
  have h₁ := fill_queue (emptyStore smallConfig fun _ => none) [1] (by decide) retryQueueCapacity
    (Nat.le_refl _)
  have h₂ := h₁.tail (.queueFull [2] (by decide) rfl (by simp))
  have h₃ := h₂.tail (.tryAppend rfl (by decide))
  have h₄ := h₃.tail (.writerRecv rfl (rfl : _ = (⟨60, [2]⟩ : Numbered) :: []))
  exact ⟨smallConfig, _, ⟨60, [2]⟩, h₄, by decide, by decide, by decide, by decide, by decide,
    by decide, by decide, by decide⟩

omit [Crc32] in
/-- A full queue and a batch spilled over it: the writer stores it, the worker delivers the first
batch of the queue, and the drainer sends the frame into the room that leaves. -/
theorem spilled_run : letI := crc32Ieee
    ∃ a : Agent, Relation.ReflTransGen AgentStep
        (Agent.start (emptyStore smallConfig fun _ => none)) a ∧
      a.handed.length = 61 ∧ a.delivered = [⟨0, [1]⟩] ∧ ⟨60, [2]⟩ ∈ a.queue ∧
      ⟨60, [2]⟩ ∈ a.ahead := by
  let _ := crc32Ieee
  have hfill := fill_queue (emptyStore smallConfig fun _ => none) [1] (by decide) retryQueueCapacity
    (Nat.le_refl _)
  have hspill := ((hfill.tail (.queueFull [2] (by decide) rfl (by simp))).tail
    (.tryAppend rfl (by decide))).tail (.writerRecv rfl (rfl : _ = (⟨60, [2]⟩ : Numbered) :: []))
  have hstored := (hspill.tail (.appendFirst .ok Io.repairs_ok (by decide) rfl)).tail
    (.groupDone .ok rfl rfl)
  have hroom := ((hstored.tail (.workerLock rfl fun _ h => nomatch h)).tail
    (.workerRecv rfl rfl)).tail (.success rfl)
  have hdrain := ((hroom.tail (.sweep rfl)).tail (.drain rfl rfl (by decide +kernel))).tail
    (.drainGo rfl (by decide +kernel) rfl)
  have hpeek := hdrain.tail (.peekFrame .ok (f := ⟨0, [2]⟩) rfl rfl (by decide +kernel))
  have hsend := hpeek.tail (.replaySend rfl (by decide +kernel))
  exact ⟨_, hsend, by decide +kernel, by decide +kernel, by decide +kernel, by decide +kernel⟩

omit [Crc32] in
/-- Both statements in that state, where the frame is in the queue and not committed yet. -/
theorem no_silent_loss_spilled : letI := crc32Ieee
    ∃ a : Agent, a.handed.length = 61 ∧ a.delivered = [⟨0, [1]⟩] ∧
      (∃ trial, a.drainer = .sent trial ⟨60, [2]⟩) ∧
      ∀ b ∈ a.handed, b ∈ a.queue ∨ b ∈ a.worker.hand ∨ b ∈ a.chan ∨ b ∈ a.writer.hand ∨
        b ∈ a.ahead ∨ b ∈ a.delivered ∨ b ∈ a.discarded.map Prod.snd := by
  let _ := crc32Ieee
  have written : WrittenDir fun _ => none :=
    ⟨fun _ hn => absurd rfl hn, fun _ _ h => absurd h (by simp)⟩
  have lists : Lists [] fun _ => none := ⟨List.nodup_nil, fun n => by simp⟩
  have recovered : recover .ok smallConfig [] (fun _ => none) =
      some (emptyStore smallConfig fun _ => none) := rfl
  obtain ⟨a, run, hlen, hdelivered, hqueue, hahead⟩ := spilled_run
  obtain ⟨hplace, hcopy, -⟩ := no_silent_loss written lists (fun _ => rfl) recovered run
  exact ⟨a, hlen, hdelivered, hcopy _ hqueue hahead,
    fun b hb => hplace b (List.mem_append_right _ hb)⟩

end Statix.Delivery
