import Statix.Delivery.NoLoss
import Statix.Wal.Crash

/-!
# The stop of the agent

Model of the two signal arms of `main` (`statix/src/main.rs:199-216`) over the running agent: after
SIGINT or SIGTERM `sample_and_flush` hands the last batches to `enqueue_batch_json` and `main` returns. The
return ends the retry worker, the WAL writer and the drainer where they are, and what is in memory
is gone. Between the signal and the return the others go on.

The agent records the batches `try_append` accepted, those handed over after the signal, and for
each frame of the WAL its batch with the number of its segment (`logged`).

* `Durable`: the frame of a batch is decoded from the synced bytes of a tracked segment.
* `NothingLost`: what the comment on `spawn_writer_thread` promises of an orderly stop.
* `LogInv`: `logged` follows the log the store represents.
* **`orderly_stop`**: nothing is lost when `main` returns in a state that meets `Settled`.
* `last_window_lost`: `main` does not wait for that.

Out of scope: what `Agent.lean` leaves out, a failed repair and used-up segment numbers. The bytes
the sync covers are those `fdatasync` returned for.
-/

namespace Statix.Delivery

open Statix.Lib Statix.Wal

variable [Crc32]

/-! ## The model -/

/-- Where `main` is. -/
inductive MainPhase where
  /-- In the `select!` loop. -/
  | running
  /-- In `sample_and_flush` of a signal arm. -/
  | stopping
  | returned
  deriving DecidableEq

/-- The agent with its main task and the record of the stop. -/
structure AgentMain where
  agent : Agent
  main : MainPhase
  accepted : List Numbered
  last : List Numbered
  logged : List (Nat × Numbered)

/-- `main` at its `select!` loop with a recovered store. -/
def AgentMain.start (s : Store) : AgentMain where
  agent := .start s
  main := .running
  accepted := []
  last := []
  logged := List.zipWith (fun e b => (e.1, b)) (taggedOf s) (number 0 (undelivered s))

/-- The batch of the call, when the step put it into the WAL channel. -/
def acceptedBy (a a' : Agent) : List Numbered :=
  if a'.chan = a.chan ++ a.caller.hand then a.caller.hand else []

/-- A step of the agent that appends no frame. -/
def AgentMain.observe (x : AgentMain) (a' : Agent) : AgentMain :=
  { x with
    agent := a'
    accepted := x.accepted ++ acceptedBy x.agent a'
    last := x.last ++ if x.main = .stopping then a'.handed.drop x.agent.handed.length else [] }

/-- `append_one` of `b`; a frame that was written is recorded with its segment. -/
def AgentMain.append (x : AgentMain) (io : Io) (b : Numbered) (next : WriterThread) : AgentMain :=
  { x with
    agent := x.agent.append io b next
    logged := x.logged ++
      if (appendOne io x.agent.store b.payload).2 then
        (appendOne io x.agent.store b.payload).1.active.toList.map fun act => (act.seq, b)
      else [] }

/-- One step of `main` or of the tasks it started. -/
inductive MainStep : AgentMain → AgentMain → Prop
  | act {x : AgentMain} {a' : Agent} (h : AgentStep x.agent a') (up : x.main ≠ .returned)
      (hand : ∀ b ∈ x.agent.writer.hand, b ∈ a'.writer.hand) : MainStep x (x.observe a')
  | append {x : AgentMain} {b : Numbered} {next : WriterThread} (io : Io) (repairs : io.Repairs)
      (number : NumbersLeft x.agent.store) (h : AgentStep x.agent (x.agent.append io b next))
      (up : x.main ≠ .returned) (hand : x.agent.writer.hand = [b]) (done : next.hand = []) :
      MainStep x (x.append io b next)
  | signal {x : AgentMain} (h : x.main = .running) (idle : x.agent.caller = .idle) :
      MainStep x { x with main := .stopping }
  | ret {x : AgentMain} (h : x.main = .stopping) (idle : x.agent.caller = .idle) :
      MainStep x { x with main := .returned }

/-! ## What is lost -/

/-- The frames in the synced bytes of a segment file. -/
def syncedFrames (s : Store) (m : SegmentMeta) : List DecodedFrame :=
  match s.disk m.path with
  | none => []
  | some file => framesFrom (file.data.take file.synced) segmentHeaderLen

/-- The batches of the frames of a segment. -/
def AgentMain.framesOf (x : AgentMain) (seq : Nat) : List Numbered :=
  (x.logged.filter fun e => e.1 = seq).map Prod.snd

/-- The frame of `b` is synced in a tracked segment. -/
def AgentMain.Durable (x : AgentMain) (b : Numbered) : Prop :=
  ∃ m ∈ x.agent.store.segments, ∃ (i : Nat) (f : DecodedFrame),
    (x.framesOf m.seq)[i]? = some b ∧ (syncedFrames x.agent.store m)[i]? = some f ∧
      f.payload = b.payload

/-- The gateway gave a final answer. -/
def AgentMain.Answered (x : AgentMain) (b : Numbered) : Prop :=
  b ∈ x.agent.delivered ∨ (.nonRetryable, b) ∈ x.agent.discarded

/-- What an orderly stop is about: the last window, the batches in the retry queue and in the worker's
hand, and every payload `try_append` accepted. -/
def AgentMain.atStake (x : AgentMain) : List Numbered :=
  x.last ++ x.agent.queue ++ x.agent.worker.hand ++ x.accepted

/-- **An orderly stop loses nothing.** -/
def AgentMain.NothingLost (x : AgentMain) : Prop := ∀ b ∈ x.atStake, x.Answered b ∨ x.Durable b

/-- The frame of `b` is in the tracked segment `m`. -/
def AgentMain.HeldBy (x : AgentMain) (b : Numbered) (m : SegmentMeta) : Prop :=
  m ∈ x.agent.store.segments ∧ (m.seq, b) ∈ x.logged

/-- **What `main` would have to wait for.** `replayed`: what is in the retry queue and in the worker's
hand came out of a segment that is still tracked. `kept`: no accepted or last batch was dropped
unanswered, unless its frame is still there. -/
structure Settled (x : AgentMain) : Prop where
  chan : x.agent.chan = []
  writer : x.agent.writer.hand = []
  synced : ∀ b ∈ x.atStake, ¬x.Answered b → ∀ m, x.HeldBy b m → ∀ file,
    x.agent.store.disk m.path = some file → file.data.length ≤ file.synced
  replayed : ∀ b ∈ x.agent.queue ++ x.agent.worker.hand, ∃ m, x.HeldBy b m
  kept : ∀ e ∈ x.agent.discarded, e.1 ≠ .nonRetryable → e.2 ∈ x.last ++ x.accepted →
    ∃ m, x.HeldBy e.2 m

/-- A step; `main` returns only when all is settled. -/
def OrderlyStep (x x' : AgentMain) : Prop := MainStep x x' ∧ (x'.main = .returned → Settled x)

variable {x x' : AgentMain} {a a' : Agent} {l l' : FrameLog}

/-! ## The agent below -/

theorem MainStep.agent (h : MainStep x x') : x'.agent = x.agent ∨ AgentStep x.agent x'.agent := by
  cases h with
  | act h up hand => exact Or.inr h
  | append io repairs number h up hand done => exact Or.inr h
  | signal h idle => exact Or.inl rfl
  | ret h idle => exact Or.inl rfl

/-- While `main` is up the agent takes every step it could take without it. -/
theorem mainStep_of_agentStep (up : x.main ≠ .returned) (h : AgentStep x.agent a') :
    ∃ x', MainStep x x' ∧ x'.agent = a' := by
  by_cases hand : ∀ b ∈ x.agent.writer.hand, b ∈ a'.writer.hand
  · exact ⟨_, .act h up hand, rfl⟩
  · have key := h
    cases h with
    | appendFirst io repairs number hw | appendMore io repairs number hw =>
      exact ⟨_, .append io repairs number key up (by rw [hw]; rfl) rfl, rfl⟩
    | writerRecv hw _ | writerTryRecv hw _ | syncDue _ _ hw _ | syncNotDue _ hw _
      | groupDone _ hw _ =>
      refine absurd (fun b hb => ?_) hand
      rw [hw] at hb
      cases hb
    | _ => exact absurd (fun b hb => hb) hand

theorem agent_run {s₀ : Store} (run : Relation.ReflTransGen MainStep (.start s₀) x) :
    Relation.ReflTransGen AgentStep (.start s₀) x.agent := by
  induction run with
  | refl => exact .refl
  | tail _ hstep ih =>
    rcases hstep.agent with e | h
    · rw [e]
      exact ih
    · exact ih.tail h

/-! ## The frames on record -/

/-- The frames on record in the segments `segs`. -/
def inSegs (segs : List (Seg DecodedFrame)) (logged : List (Nat × Numbered)) :
    List (Nat × Numbered) :=
  logged.filter fun e => e.1 ∈ seqsOf segs

/-- The record follows the log: the tracked frames are those of the log, in order, and the unread
batches are the last of them. -/
structure LogInv (a : Agent) (logged : List (Nat × Numbered)) (l : FrameLog) : Prop where
  store : Represents a.store l
  numbered : a.ahead.length = l.ahead.length
  tracked : (inSegs l.segs logged).map (fun e => (e.1, e.2.payload)) =
    (tagSegs l.segs).map fun e => (e.1, e.2.payload)
  unread : a.ahead <:+ (inSegs l.segs logged).map Prod.snd
  below : ∀ e ∈ logged, e.1 < a.store.nextSeq

omit [Crc32] in
theorem length_tagSegs (segs : List (Seg DecodedFrame)) :
    (tagSegs segs).length = (segs.flatMap Seg.items).length := by
  rw [← snd_tagSegs, List.length_map]

omit [Crc32] in
theorem length_ahead_le (l : FrameLog) : l.ahead.length ≤ (tagSegs l.segs).length := by
  rw [length_tagSegs]
  unfold SegLog.ahead SegLog.all
  rw [List.length_drop]
  exact Nat.sub_le _ _

omit [Crc32] in
theorem fst_mem_seqsOf {segs : List (Seg DecodedFrame)} {es : List (Nat × Numbered)}
    (h : es.map (fun e => (e.1, e.2.payload)) = (tagSegs segs).map fun e => (e.1, e.2.payload)) :
    ∀ e ∈ es, e.1 ∈ seqsOf segs := by
  intro e he
  have hmem : (e.1, e.2.payload) ∈ es.map fun e => (e.1, e.2.payload) := List.mem_map_of_mem he
  rw [h] at hmem
  obtain ⟨t, ht, heq⟩ := List.mem_map.mp hmem
  rw [← congrArg Prod.fst heq]
  exact mem_tagSegs ht

omit [Crc32] in
/-- The frames on record in the later segments are the last ones. -/
theorem inSegs_drop {segs : List (Seg DecodedFrame)} {logged : List (Nat × Numbered)} (n : Nat)
    (hsorted : segs.Pairwise fun a b => a.seq < b.seq)
    (htracked : (inSegs segs logged).map (fun e => (e.1, e.2.payload)) =
      (tagSegs segs).map fun e => (e.1, e.2.payload)) :
    inSegs (segs.drop n) logged <:+ inSegs segs logged ∧
      (inSegs (segs.drop n) logged).map (fun e => (e.1, e.2.payload)) =
        (tagSegs (segs.drop n)).map fun e => (e.1, e.2.payload) := by
  have hsub : ∀ q ∈ seqsOf (segs.drop n), q ∈ seqsOf segs := by
    intro q hq
    obtain ⟨g, hg, rfl⟩ := List.mem_map.mp hq
    exact List.mem_map_of_mem (List.mem_of_mem_drop hg)
  have hsplit := htracked
  rw [← List.take_append_drop n segs, tagSegs_append, List.map_append,
    List.take_append_drop] at hsplit
  obtain ⟨old, kept, hlog, hold, hkept⟩ := List.map_eq_append_iff.mp hsplit
  rw [← List.take_append_drop n segs, List.pairwise_append] at hsorted
  have hout : old.filter (fun e => e.1 ∈ seqsOf (segs.drop n)) = [] := by
    refine List.filter_eq_nil_iff.mpr fun e he hin => ?_
    obtain ⟨a, ha, ea⟩ := List.mem_map.mp (fst_mem_seqsOf hold e he)
    obtain ⟨b, hb, eb⟩ := List.mem_map.mp (of_decide_eq_true hin)
    have := hsorted.2.2 a ha b hb
    omega
  have hin : kept.filter (fun e => e.1 ∈ seqsOf (segs.drop n)) = kept :=
    List.filter_eq_self.mpr fun e he => decide_eq_true (fst_mem_seqsOf hkept e he)
  have hdrop : inSegs (segs.drop n) logged = kept := by
    unfold inSegs at hlog ⊢
    rw [filter_filter_seqs hsub, hlog, List.filter_append, hout, hin, List.nil_append]
  rw [hdrop, hlog]
  exact ⟨List.suffix_append old kept, hkept⟩

/-- Some oldest segments go: of the unread batches those in them are gone. -/
theorem LogInv.shrink {logged : List (Nat × Numbered)} (h : LogInv a logged l) (n : Nat) :
    (inSegs (l.dropSegs n).segs logged).map (fun e => (e.1, e.2.payload)) =
        (tagSegs (l.dropSegs n).segs).map (fun e => (e.1, e.2.payload)) ∧
      a.ahead.drop (l.lostBy n).length <:+ (inSegs (l.dropSegs n).segs logged).map Prod.snd ∧
      (a.ahead.drop (l.lostBy n).length).length = (l.dropSegs n).ahead.length := by
  obtain ⟨hsuffix, htracked⟩ := inSegs_drop n h.store.sorted h.tracked
  rw [← SegLog.segs_dropSegs] at hsuffix htracked
  have hlen : (a.ahead.drop (l.lostBy n).length).length = (l.dropSegs n).ahead.length := by
    have hahead := congrArg List.length (SegLog.ahead_dropSegs n l)
    rw [List.length_append] at hahead
    rw [List.length_drop, h.numbered]
    omega
  have hle : (l.dropSegs n).ahead.length ≤
      ((inSegs (l.dropSegs n).segs logged).map Prod.snd).length := by
    have hmap := congrArg List.length htracked
    rw [List.length_map, List.length_map] at hmap
    rw [List.length_map, hmap]
    exact length_ahead_le _
  -- both are ends of the frames on record, and the unread ones are fewer
  refine ⟨htracked, ?_, hlen⟩
  refine List.suffix_of_suffix_length_le ?_ (hsuffix.map Prod.snd) (hlen ▸ hle)
  exact (List.drop_suffix _ _).trans h.unread

omit [Crc32] in
/-- The record in the log `append` writes to. -/
theorem inSegs_openedLog {logged : List (Nat × Numbered)} {seq : Nat} (rotates : Bool)
    (below : ∀ e ∈ logged, e.1 < seq) :
    inSegs (openedLog l seq rotates).segs logged = inSegs l.segs logged ∧
      tagSegs (openedLog l seq rotates).segs = tagSegs l.segs := by
  unfold openedLog
  cases rotates with
  | false => exact ⟨rfl, rfl⟩
  | true => exact ⟨filter_push l below, tagSegs_push l seq⟩

omit [Crc32] in
/-- A frame behind the last one, with its record. -/
theorem inSegs_snoc (logged : List (Nat × Numbered)) {f : DecodedFrame} (b : Numbered)
    {init : List (Seg DecodedFrame)} {g : Seg DecodedFrame} (hs : (l.snoc f).segs = init ++ [g]) :
    inSegs (l.snoc f).segs (logged ++ [(g.seq, b)]) = inSegs l.segs logged ++ [(g.seq, b)] ∧
      tagSegs (l.snoc f).segs = tagSegs l.segs ++ [(g.seq, f)] := by
  rcases List.eq_nil_or_concat' l.segs with hnil | ⟨init₀, g₀, hs₀⟩
  · have hempty : (l.snoc f).segs = [] := congrArg (updateBack _) hnil
    rw [hempty] at hs
    exact absurd hs.symm (by simp)
  · have hs' := SegLog.segs_snoc hs₀ f
    obtain ⟨rfl, hg⟩ := List.append_inj' (hs.symm.trans hs') rfl
    obtain rfl : g = ⟨g₀.seq, g₀.items ++ [f]⟩ := (List.cons.inj hg).1
    have hseqs : seqsOf (l.snoc f).segs = seqsOf l.segs := by
      rw [hs', hs₀]
      simp [seqsOf]
    have hin : g₀.seq ∈ seqsOf l.segs := by
      rw [hs₀]
      simp [seqsOf]
    constructor
    · unfold inSegs
      rw [hseqs, List.filter_append]
      simp [hin]
    · rw [hs', hs₀, tagSegs_concat, tagSegs_concat, List.map_append, List.append_assoc]
      rfl

/-- An append follows the log. -/
theorem LogInv.append {logged : List (Nat × Numbered)} (h : LogInv a logged l) (io : Io)
    (repairs : io.Repairs) (number : NumbersLeft a.store) {b : Numbered} {next : WriterThread}
    (valid : ValidPayload b.payload) :
    ∃ l', LogInv (a.append io b next) (logged ++
      if (appendOne io a.store b.payload).2 then
        (appendOne io a.store b.payload).1.active.toList.map fun act => (act.seq, b)
      else []) l' := by
  obtain ⟨n, rotates, o⟩ := appendOne_spec io h.store repairs number valid
  obtain ⟨htracked, hunread, hlen⟩ := h.shrink n
  have hcap : cappedBy io a.store b.payload = (l.lostBy n).length := by
    unfold cappedBy
    rw [droppedBy_eq h.store o.capped]
  obtain ⟨hin, htag⟩ := inSegs_openedLog (l := l.dropSegs n) rotates h.below
  have hnext := nextSeq_le_appendOne io h.store number b.payload
  have hbelow : ∀ e ∈ logged, e.1 < (a.append io b next).store.nextSeq :=
    fun e he => Nat.lt_of_lt_of_le (h.below e he) hnext
  have hahead : (a.append io b next).ahead.length = (appendedLog (l.dropSegs n) a.store.nextSeq
      rotates (appendOne io a.store b.payload).2 ⟨a.store.nextBatchSeq, b.payload⟩).ahead.length := by
    rw [o.ahead]
    show (a.ahead.drop (cappedBy io a.store b.payload) ++ _).length = _
    rw [hcap, List.length_append, List.length_append, hlen]
    split <;> rfl
  have hst := o.store
  have hok := o.ok_active
  cases hb : (appendOne io a.store b.payload).2 with
  | false =>
    rw [hb] at hst hahead
    refine ⟨_, hst, hahead, ?_, ?_, ?_⟩
    · show (inSegs (openedLog _ _ _).segs (logged ++ [])).map _ =
        (tagSegs (openedLog _ _ _).segs).map _
      rw [List.append_nil, hin, htag]
      exact htracked
    · show a.ahead.drop (cappedBy io a.store b.payload) ++ _ <:+
        (inSegs (openedLog _ _ _).segs (logged ++ [])).map Prod.snd
      rw [List.append_nil, hin, hb, hcap]
      simpa using hunread
    · show ∀ e ∈ logged ++ [], _
      rw [List.append_nil]
      exact hbelow
  | true =>
    rw [hb] at hst hahead
    rcases hst.active with hnone | ⟨init, g, hs, hact⟩
    · exact absurd hnone (hok hb)
    obtain ⟨hin', htag'⟩ := inSegs_snoc logged b hs
    have hrec : (appendOne io a.store b.payload).1.active.toList.map (fun act => (act.seq, b)) =
        [(g.seq, b)] := by
      rw [hact]
      rfl
    rw [if_pos rfl, hrec]
    refine ⟨_, hst, hahead, ?_, ?_, fun e he => ?_⟩
    · show (inSegs (SegLog.snoc _ _).segs _).map _ = (tagSegs (SegLog.snoc _ _).segs).map _
      rw [hin', htag', hin, htag, List.map_append, List.map_append, htracked]
      rfl
    · show a.ahead.drop (cappedBy io a.store b.payload) ++ _ <:+
        (inSegs (SegLog.snoc _ _).segs _).map Prod.snd
      rw [hin', hin, hb, hcap, List.map_append]
      obtain ⟨old, hold⟩ := hunread
      exact ⟨old, by rw [← hold, List.append_assoc]; rfl⟩
    · rcases List.mem_append.mp he with he | he
      · exact hbelow e he
      · rw [List.mem_singleton.mp he]
        exact hst.below g (SegLog.mem_back hs)

/-- `peek_next` removes only segments without unread frames. -/
theorem LogInv.peek {logged : List (Nat × Numbered)} (h : LogInv a logged l) (io : Io)
    (drainer : Drainer) :
    ∃ l', LogInv { a with store := (peekNext io a.store).1, drainer := drainer } logged l' := by
  obtain ⟨n, o⟩ := peekNext_spec io h.store
  obtain ⟨htracked, hunread, hlen⟩ := h.shrink n
  rw [o.readOut, List.length_nil, List.drop_zero] at hunread hlen
  exact ⟨_, o.store, hlen, htracked, hunread, fun e he => o.nextSeq ▸ h.below e he⟩

theorem LogInv.commit {logged : List (Nat × Numbered)} (h : LogInv a logged l)
    (drainer : Drainer) :
    ∃ l', LogInv { a with
      store := commitPending a.store
      ahead := if a.store.pendingAdvance = none then a.ahead else a.ahead.tail
      drainer := drainer } logged l' := by
  rcases commitPending_spec h.store with ⟨hnone, e⟩ | ⟨f, l', hne, hr, hsegs, hcons, -, -, hnext, -⟩
  · rw [e, if_pos hnone]
    exact ⟨l, h.store, h.numbered, h.tracked, h.unread, h.below⟩
  · have hlen := h.numbered
    rw [hcons, List.length_cons] at hlen
    rw [if_neg hne]
    refine ⟨l', hr, ?_, ?_, ?_, fun e he => hnext ▸ h.below e he⟩
    · rw [List.length_tail, hlen, Nat.add_sub_cancel]
    · rw [hsegs]
      exact h.tracked
    · rw [hsegs]
      exact (List.tail_suffix _).trans h.unread

/-- A step that appends no frame. -/
theorem logInv_act {logged : List (Nat × Numbered)} (h : LogInv a logged l)
    (hstep : AgentStep a a') (hand : ∀ b ∈ a.writer.hand, b ∈ a'.writer.hand) :
    ∃ l', LogInv a' logged l' := by
  have hsame : ∀ a' : Agent, a'.store = a.store → a'.ahead = a.ahead → LogInv a' logged l := by
    intro a' hs ha
    refine ⟨by rw [hs]; exact h.store, by rw [ha]; exact h.numbered, h.tracked, ?_, ?_⟩
    · rw [ha]
      exact h.unread
    · rw [hs]
      exact h.below
  have hsync : ∀ io w, LogInv { a with store := syncActive io a.store, writer := w } logged l :=
    fun io w => ⟨syncActive_spec h.store, h.numbered, h.tracked, h.unread, h.below⟩
  cases hstep with
  | appendFirst io _ _ hw | appendMore io _ _ hw =>
    rw [hw] at hand
    cases hand _ List.mem_cons_self
  | syncDue io elapsed hw due => exact ⟨l, hsync io _⟩
  | groupDone io hw empty =>
    refine ⟨l, ?_⟩
    split
    · exact hsync io _
    · exact hsame _ rfl rfl
  | peekFrame io hd free hf => exact h.peek io _
  | peekEmpty io hd free hf => exact h.peek io _
  | replayCommit hd free => exact h.commit _
  | _ => exact ⟨l, hsame _ rfl rfl⟩

omit [Crc32] in
theorem zipWith_tags : ∀ {tags : List (Nat × DecodedFrame)} {bs : List Numbered},
    bs.map Numbered.payload = tags.map (fun e => e.2.payload) →
      (List.zipWith (fun e b => (e.1, b)) tags bs).map (fun e => (e.1, e.2.payload)) =
          tags.map (fun e => (e.1, e.2.payload)) ∧
        (List.zipWith (fun e b => (e.1, b)) tags bs).map Prod.snd = bs
  | [], [], _ => ⟨rfl, rfl⟩
  | [], _ :: _, h => by cases h
  | _ :: _, [], h => by cases h
  | e :: tags, b :: bs, h => by
    obtain ⟨hb, hbs⟩ := List.cons.inj h
    obtain ⟨h₁, h₂⟩ := zipWith_tags hbs
    exact ⟨congrArg₂ List.cons (congrArg (Prod.mk e.1) hb) h₁, congrArg (b :: ·) h₂⟩

theorem logInv_start {io : Io} {d : Disk} {s₀ : Store} (o : RecoverOutcome io d s₀ l) :
    LogInv (AgentMain.start s₀).agent (AgentMain.start s₀).logged l := by
  have htags := taggedOf_recovered o
  have hpay : (number 0 (undelivered s₀)).map Numbered.payload =
      (taggedOf s₀).map fun e => e.2.payload := by
    rw [number_payload, undelivered_eq o.store, ← snd_taggedOf o.store, List.map_map]
    rfl
  obtain ⟨htracked, hsnd⟩ := zipWith_tags hpay
  have hall : inSegs l.segs (AgentMain.start s₀).logged = (AgentMain.start s₀).logged := by
    refine List.filter_eq_self.mpr fun e he => decide_eq_true ?_
    refine fst_mem_seqsOf ?_ e he
    rw [← htags]
    exact htracked
  refine ⟨o.store, ?_, ?_, ?_, fun e he => ?_⟩
  · have := congrArg List.length hpay
    rw [List.length_map, List.length_map] at this
    show (number 0 (undelivered s₀)).length = _
    rw [this, ← snd_taggedOf o.store, List.length_map]
  · rw [hall, ← htags]
    exact htracked
  · rw [hall]
    exact hsnd ▸ List.suffix_refl _
  · rw [← hall] at he
    obtain ⟨g, hg, hseq⟩ := List.mem_map.mp (of_decide_eq_true (List.mem_filter.mp he).2)
    rw [← hseq]
    exact o.store.below g hg

/-! ## The batches of the stop -/

/-- Accepted and last batches were handed over. -/
def AgentMain.Handed (x : AgentMain) : Prop := ∀ b ∈ x.last ++ x.accepted, b ∈ x.agent.handed

theorem handed_grows (h : AgentStep a a') : ∀ b ∈ a.handed, b ∈ a'.handed := by
  intro b hb
  cases h with
  | trySend p valid hc room | tryAppend hc room | queueLocked hc locked | resend hc room
    | stillFull hc full => exact List.mem_append_left _ hb
  | _ => exact hb

omit [Crc32] in
theorem acceptedBy_spec {b : Numbered} (h : b ∈ acceptedBy a a') :
    b ∈ a.caller.hand ∧ a.chan.length < a'.chan.length := by
  unfold acceptedBy at h
  split at h
  · rename_i hc
    rw [hc, List.length_append]
    exact ⟨h, Nat.lt_add_of_pos_right (List.length_pos_of_mem h)⟩
  · exact absurd h List.not_mem_nil

/-- Only `try_append` puts a batch into the channel. -/
theorem accepted_handed (h : AgentStep a a') : ∀ b ∈ acceptedBy a a', b ∈ a'.handed := by
  intro b hb
  obtain ⟨hcall, hlt⟩ := acceptedBy_spec hb
  cases h with
  | tryAppend hc room =>
    rw [hc] at hcall
    exact List.mem_append_right _ hcall
  | writerRecv hw hc | writerTryRecv hw hc =>
    rw [hc, List.length_cons] at hlt
    exact absurd hlt (Nat.not_lt_of_le (Nat.le_succ _))
  | _ => exact absurd hlt (Nat.lt_irrefl _)

theorem handed_step (h : x.Handed) (hstep : MainStep x x') : x'.Handed := by
  cases hstep with
  | act hact up hand =>
    intro b hb
    rcases List.mem_append.mp hb with hb | hb <;> rcases List.mem_append.mp hb with hb | hb
    · exact handed_grows hact b (h b (List.mem_append_left _ hb))
    · split at hb
      · exact List.mem_of_mem_drop hb
      · exact absurd hb List.not_mem_nil
    · exact handed_grows hact b (h b (List.mem_append_right _ hb))
    · exact accepted_handed hact b hb
  | append io repairs number hact up hand done => exact h
  | signal hm idle => exact h
  | ret hm idle => exact h

/-! ## Whole runs -/

/-- **What a run keeps.** -/
theorem logInv_run {io : Io} {d : Disk} {s₀ : Store} {l₀ : FrameLog}
    (o : RecoverOutcome io d s₀ l₀) (run : Relation.ReflTransGen MainStep (.start s₀) x) :
    x.Handed ∧ ∃ l, LogInv x.agent x.logged l := by
  induction run with
  | refl => exact ⟨fun b hb => absurd hb List.not_mem_nil, l₀, logInv_start o⟩
  | tail run hstep ih =>
    rename_i y z
    obtain ⟨hhanded, l, h⟩ := ih
    refine ⟨handed_step hhanded hstep, ?_⟩
    cases hstep with
    | act hact up hand => exact logInv_act h hact hand
    | append io repairs number hact up hand done =>
      obtain ⟨l', ha⟩ := agentInv_run o.store (agent_run run)
      exact h.append io repairs number (ha.valid _ (by rw [hand]; simp))
    | signal hm idle => exact ⟨l, h⟩
    | ret hm idle => exact ⟨l, h⟩

omit [Crc32] in
theorem tagSegs_filter_seq {segs : List (Seg DecodedFrame)} {g : Seg DecodedFrame} (hg : g ∈ segs)
    (hsorted : segs.Pairwise fun a b => a.seq < b.seq) :
    (tagSegs segs).filter (fun e => e.1 = g.seq) = g.items.map (g.seq, ·) := by
  obtain ⟨pre, post, rfl⟩ := List.append_of_mem hg
  rw [List.pairwise_append, List.pairwise_cons] at hsorted
  have hout : ∀ segs', (∀ y ∈ segs', y.seq ≠ g.seq) →
      (tagSegs segs').filter (fun e => e.1 = g.seq) = [] := by
    intro segs' hne
    refine List.filter_eq_nil_iff.mpr fun e he heq => ?_
    obtain ⟨y, hy, hye⟩ := List.mem_map.mp (mem_tagSegs he)
    exact hne y hy (hye.trans (of_decide_eq_true heq))
  have hpre := hout pre fun y hy => Nat.ne_of_lt (hsorted.2.2 y hy g List.mem_cons_self)
  have hpost := hout post fun y hy => Nat.ne_of_gt (hsorted.2.1.1 y hy)
  have hself : (g.items.map (g.seq, ·)).filter (fun e => e.1 = g.seq) = g.items.map (g.seq, ·) := by
    refine List.filter_eq_self.mpr fun e he => decide_eq_true ?_
    obtain ⟨f, -, rfl⟩ := List.mem_map.mp he
    rfl
  have hcons : tagSegs (g :: post) = g.items.map (g.seq, ·) ++ tagSegs post := rfl
  rw [tagSegs_append, hcons, List.filter_append, List.filter_append, hpre, hpost, hself,
    List.nil_append, List.append_nil]

/-- The batches on record in a tracked segment are those of its frames. -/
theorem LogInv.framesOf (h : LogInv x.agent x.logged l) {g : Seg DecodedFrame} (hg : g ∈ l.segs) :
    (x.framesOf g.seq).map Numbered.payload = g.items.map DecodedFrame.payload := by
  have hin : (x.logged.filter fun e => e.1 = g.seq) =
      (inSegs l.segs x.logged).filter fun e => e.1 = g.seq := by
    unfold inSegs
    rw [List.filter_filter]
    refine List.filter_congr fun e _ => ?_
    by_cases he : e.1 = g.seq
    · simp [he, show g.seq ∈ seqsOf l.segs from List.mem_map_of_mem hg]
    · simp [he]
  have hfilter := congrArg (List.filter fun e => e.1 = g.seq) h.tracked
  rw [List.filter_map, List.filter_map] at hfilter
  have hpay := congrArg (List.map Prod.snd) hfilter
  rw [List.map_map, List.map_map] at hpay
  have hseg := tagSegs_filter_seq hg h.store.sorted
  unfold AgentMain.framesOf
  rw [hin, List.map_map]
  refine hpay.trans ?_
  show ((tagSegs l.segs).filter fun e => e.1 = g.seq).map _ = _
  rw [hseg, List.map_map]
  rfl

/-- A frame in a tracked segment that is synced to its end is durable. -/
theorem LogInv.durable (h : LogInv x.agent x.logged l) {b : Numbered} {m : SegmentMeta}
    (hb : x.HeldBy b m) (hsync : ∀ file, x.agent.store.disk m.path = some file →
      file.data.length ≤ file.synced) : x.Durable b := by
  obtain ⟨hm, hlog⟩ := hb
  obtain ⟨g, hg, rfl⟩ := List.mem_map.mp (h.store.segments ▸ hm)
  obtain ⟨file, hd, hframes⟩ := (h.store.files g hg).framesFrom (h.store.valid g hg) 0
  have hsynced : syncedFrames x.agent.store (metaOf g) = g.items := by
    unfold syncedFrames
    rw [metaOf_path, hd]
    show framesFrom (file.data.take file.synced) segmentHeaderLen = _
    rw [List.take_of_length_le (hsync file hd)]
    exact hframes
  have hmem : b ∈ x.framesOf g.seq :=
    List.mem_map.mpr ⟨(g.seq, b), List.mem_filter.mpr ⟨hlog, decide_eq_true rfl⟩, rfl⟩
  obtain ⟨i, hi⟩ := List.mem_iff_getElem?.mp hmem
  have hpay := congrArg (fun ps => ps[i]?) (h.framesOf hg)
  simp only [List.getElem?_map, hi, Option.map_some] at hpay
  obtain ⟨f, hf, hfb⟩ := Option.map_eq_some_iff.mp hpay.symm
  exact ⟨metaOf g, hm, i, f, hi, by rw [hsynced]; exact hf, hfb⟩

/-- Every unread batch is on record. -/
theorem LogInv.held (h : LogInv x.agent x.logged l) {b : Numbered} (hb : b ∈ x.agent.ahead) :
    ∃ m, x.HeldBy b m := by
  obtain ⟨e, he, rfl⟩ := List.mem_map.mp (h.unread.subset hb)
  obtain ⟨hlog, hin⟩ := List.mem_filter.mp he
  obtain ⟨g, hg, hseq⟩ := List.mem_map.mp (of_decide_eq_true hin)
  refine ⟨metaOf g, ?_, ?_⟩
  · rw [h.store.segments]
    exact List.mem_map_of_mem hg
  · rw [metaOf_seq, hseq]
    exact hlog

/-- Every accepted or last batch has a place or a recorded end. -/
theorem settled_handed {s₀ : Store} {l₀ : FrameLog} (h₀ : Represents s₀ l₀)
    (run : Relation.ReflTransGen MainStep (.start s₀) x) {b : Numbered} (hb : b ∈ x.agent.handed) :
    b ∈ x.agent.settled := by
  obtain ⟨l, h⟩ := agentInv_run h₀ (agent_run run)
  have h1 := h.noLoss b
  have h2 := List.one_le_count_iff.mpr hb
  exact List.one_le_count_iff.mp (by omega)

/-- A settled state has everything answered or durable. -/
theorem nothingLost_of_settled {io : Io} {d : Disk} {s₀ : Store} {l₀ : FrameLog}
    (o : RecoverOutcome io d s₀ l₀) (run : Relation.ReflTransGen MainStep (.start s₀) x)
    (h : Settled x) : x.NothingLost := by
  obtain ⟨hhanded, l, hlog⟩ := logInv_run o run
  -- on disk or answered is enough
  have hheld : ∀ b ∈ x.last ++ x.accepted, x.Answered b ∨ ∃ m, x.HeldBy b m := by
    intro b hb
    have hsettled := settled_handed o.store run (hhanded b hb)
    rw [Agent.settled, Agent.places, h.chan, h.writer] at hsettled
    simp only [List.append_nil, List.mem_append, or_assoc] at hsettled
    rcases hsettled with hq | hw | ha | hd | hd
    · exact Or.inr (h.replayed b (List.mem_append_left _ hq))
    · exact Or.inr (h.replayed b (List.mem_append_right _ hw))
    · exact Or.inr (hlog.held ha)
    · exact Or.inl (Or.inl hd)
    · obtain ⟨⟨why, b⟩, he, rfl⟩ := List.mem_map.mp hd
      by_cases hwhy : why = .nonRetryable
      · rw [hwhy] at he
        exact Or.inl (Or.inr he)
      · exact Or.inr (h.kept _ he hwhy hb)
  have hplace : ∀ b ∈ x.atStake, x.Answered b ∨ ∃ m, x.HeldBy b m := by
    intro b hb
    simp only [AgentMain.atStake, List.mem_append, or_assoc] at hb
    rcases hb with hb | hb | hb | hb
    · exact hheld b (List.mem_append_left _ hb)
    · exact Or.inr (h.replayed b (List.mem_append_left _ hb))
    · exact Or.inr (h.replayed b (List.mem_append_right _ hb))
    · exact hheld b (List.mem_append_right _ hb)
  intro b hb
  by_cases hanswered : x.Answered b
  · exact Or.inl hanswered
  · obtain ⟨m, hm⟩ := (hplace b hb).resolve_left hanswered
    exact Or.inr (hlog.durable hm (h.synced b hb hanswered m hm))

/-- **An orderly stop loses nothing** in every run in which `main` returns in a settled state: the WAL
channel and the writer's hand are empty, what is in the retry queue and in the worker's hand was
replayed from a tracked segment, no accepted or last batch was dropped before, and the segments with
an unanswered one are synced to their ends. -/
theorem orderly_stop {io : Io} {cfg : WalConfig} {entries : List FileName} {d : Disk} {s₀ : Store}
    (written : WrittenDir d) (lists : Lists entries d) (truncates : ∀ n, io.setLen n = true)
    (opened : recover io cfg entries d = some s₀)
    (run : Relation.ReflTransGen OrderlyStep (.start s₀) x) (returned : x.main = .returned) :
    x.NothingLost := by
  obtain ⟨s, l₀, e, o⟩ := recover_spec io truncates cfg written lists
  obtain rfl := Option.some.inj (e.symm.trans opened)
  cases run with
  | refl => cases returned
  | tail run hstep =>
    obtain ⟨hstep, hsettled⟩ := hstep
    have hlost := nothingLost_of_settled o
      (Relation.ReflTransGen.mono (fun _ _ (h : OrderlyStep _ _) => h.1) _ _ run)
      (hsettled returned)
    cases hstep with
    | act hact up hand => exact absurd returned up
    | append io repairs number hact up hand done => exact absurd returned up
    | signal hm idle => cases returned
    | ret hm idle => exact hlost

omit [Crc32] in
/-- The last window is answered before `main` returns. -/
theorem orderly_stop_answered : letI := crc32Ieee
    ∃ x : AgentMain, Relation.ReflTransGen OrderlyStep
        (.start (emptyStore smallConfig fun _ => none)) x ∧
      x.main = .returned ∧ x.last = [⟨0, [7]⟩] ∧ x.NothingLost := by
  let _ := crc32Ieee
  have written : WrittenDir fun _ => none :=
    ⟨fun _ hn => absurd rfl hn, fun _ _ h => absurd h (by simp)⟩
  have lists : Lists [] fun _ => none := ⟨List.nodup_nil, fun n => by simp⟩
  have recovered : recover .ok smallConfig [] (fun _ => none) =
      some (emptyStore smallConfig fun _ => none) := rfl
  have h₁ : Relation.ReflTransGen OrderlyStep
      (.start (emptyStore smallConfig fun _ => none)) _ :=
    .single ⟨.signal rfl rfl, fun h => absurd h (by decide)⟩
  have h₂ := h₁.tail ⟨.act (.trySend [7] (by decide) rfl (by decide)) (by decide) fun _ hb => hb,
    fun h => absurd h (by decide)⟩
  have h₃ := h₂.tail ⟨.act (.workerLock rfl fun b hb => (nomatch hb)) (by decide) fun _ hb => hb,
    fun h => absurd h (by decide)⟩
  have h₄ := h₃.tail ⟨.act (.workerRecv rfl (rfl : _ = (⟨0, [7]⟩ : Numbered) :: [])) (by decide)
    fun _ hb => hb, fun h => absurd h (by decide)⟩
  have h₅ := h₄.tail ⟨.act (.success rfl) (by decide) fun _ hb => hb,
    fun h => absurd h (by decide)⟩
  have h₆ := h₅.tail ⟨.ret rfl rfl, fun _ => ⟨rfl, rfl, fun _ _ _ _ hm => (nomatch hm.1),
    fun _ hb => (nomatch hb), fun _ he => (nomatch he)⟩⟩
  exact ⟨_, h₆, rfl, by decide, orderly_stop written lists (fun _ => rfl) recovered h₆ rfl⟩

omit [Crc32] in
/-- **`main` does not wait.** The last window is in the retry queue when `main` returns, neither
answered nor on disk. -/
theorem last_window_lost : letI := crc32Ieee
    ∃ x : AgentMain, Relation.ReflTransGen MainStep
        (.start (emptyStore smallConfig fun _ => none)) x ∧
      x.main = .returned ∧ ¬x.NothingLost := by
  let _ := crc32Ieee
  have h₁ : Relation.ReflTransGen MainStep
      (.start (emptyStore smallConfig fun _ => none)) _ := .single (.signal rfl rfl)
  have h₂ := h₁.tail (.act (.trySend [7] (by decide) rfl (by decide)) (by decide) fun _ hb => hb)
  have h₃ := h₂.tail (.ret rfl rfl)
  refine ⟨_, h₃, rfl, fun hlost => ?_⟩
  rcases hlost ⟨0, [7]⟩ (by decide) with (hd | hd) | ⟨m, hm, -⟩
  · exact absurd hd List.not_mem_nil
  · exact absurd hd List.not_mem_nil
  · exact absurd hm List.not_mem_nil

end Statix.Delivery
