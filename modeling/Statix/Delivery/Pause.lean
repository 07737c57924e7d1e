import Statix.Delivery.Relay

/-!
# The drainer pauses when the circuit opens

* `sendsAfter`: the frames sent since the circuit became open, as long as it stays open.
* `RelayPhase.due`: a frame the drainer may still send before it reads the circuit again.
* `PauseInv`: while the circuit is open, the frames sent since it opened and those due are at most
  one; and what is pending after a peek is the end of the frame it read.
* `cursor_step`: how a step of the drainer moves the read cursor.
* **`drainer_pauses`**: over whole runs, from any store, with any payloads.
* `observed_of_agent`: the runs of `Agent.lean` are among them.
-/

namespace Statix.Delivery

open Statix.Lib Statix.Wal

variable [Crc32]

/-! ## What is observed -/

/-- The frame a step moves into the retry queue. -/
def forwardedBy (r r' : Relay) : List DecodedFrame :=
  match r.drainer, r'.drainer with
  | .peeked _ f, .sent _ _ => [f]
  | _, _ => []

/-- The frames sent since the circuit became open, after a step; `none` while it is not. -/
def sendsAfter (sends : Option Nat) (r r' : Relay) : Option Nat :=
  if r'.circuit.state ≠ .opened then none
  else if r.circuit.state ≠ .opened then some 0
  else sends.map (· + (forwardedBy r r').length)

/-- The read cursor. -/
def cursorOf (s : Store) : Nat × Nat := (s.readSeq, s.readOffset)

/-- Where the frame of the last peek was read, after a step of the drainer to `r`. -/
def readAtAfter (readAt : Nat × Nat) (r : Relay) : Nat × Nat :=
  match r.drainer with
  | .peeked _ _ => cursorOf r.store
  | _ => readAt

/-- The frames ahead that a step of the drainer moves the read cursor past. -/
def passedBy (s s' : Store) : List DecodedFrame :=
  (aheadOf s).take ((aheadOf s).length - (aheadOf s').length)

/-- The drainer and the others, with what was observed. -/
structure Observed where
  relay : Relay
  sends : Option Nat
  /-- The frames whose send succeeded. -/
  forwarded : List DecodedFrame
  /-- The cursor at the frame of the last peek. -/
  readAt : Nat × Nat
  /-- The frames the drainer moved the read cursor past. -/
  passed : List DecodedFrame

/-- A step, observed. -/
inductive ObservedStep (guard : AppendGuard) : Observed → Observed → Prop
  | drainer {x : Observed} {r : Relay} (h : DrainerStep x.relay r) :
      ObservedStep guard x
        { relay := r
          sends := sendsAfter x.sends x.relay r
          forwarded := x.forwarded ++ forwardedBy x.relay r
          readAt := readAtAfter x.readAt r
          passed := x.passed ++ passedBy x.relay.store r.store }
  | other {x : Observed} {r : Relay} (h : OtherStep guard x.relay r) :
      ObservedStep guard x { x with relay := r, sends := sendsAfter x.sends x.relay r }

/-- Before the first step. -/
def Observed.start (s : Store) : Observed := ⟨.start s, none, [], cursorOf s, []⟩

/-- The frame `peek_next` finds where the cursor is. -/
def frameAtCursor (s : Store) : Option DecodedFrame :=
  match s.segments.find? (fun m => m.seq == s.readSeq) with
  | none => none
  | some m =>
    match s.disk m.path with
    | none => none
    | some file =>
      match readFrameAt file.data s.readOffset with
      | .frame f _ => some f
      | _ => none

/-! ## The invariant -/

/-- The frame a replay is about. -/
def RelayPhase.frame? : RelayPhase → Option DecodedFrame
  | .peeked _ f => some f
  | .sent _ f => some f
  | _ => none

/-- How many frames the drainer may send before it reads the circuit again. -/
def RelayPhase.due : RelayPhase → Nat
  | .matched .halfOpen => 1
  | .peeking _ => 1
  | .peeked _ _ => 1
  | _ => 0

/-- The frame that is sent and not committed yet. -/
def RelayPhase.uncommitted : RelayPhase → List DecodedFrame
  | .sent _ f => [f]
  | _ => []

/-- **What a run keeps.** -/
structure PauseInv (x : Observed) : Prop where
  queue : x.relay.queue.length ≤ retryQueueCapacity
  sends : x.relay.circuit.state = .opened → ∃ k, x.sends = some k ∧ k + x.relay.drainer.due ≤ 1
  last : ∃ before, x.forwarded = before ++ x.relay.drainer.uncommitted
  read : ∀ f, x.relay.drainer.frame? = some f → x.relay.store.pendingAdvance ≠ none →
    cursorOf x.relay.store = x.readAt ∧
      x.relay.store.pendingAdvance = some (x.readAt.2 + frameLenOnDisk f.payload.length)

variable {x x' : Observed} {r r' : Relay} {guard : AppendGuard}

/-! ## The circuit and the count -/

omit [Crc32] in
theorem RelayPhase.due_le (p : RelayPhase) : p.due ≤ 1 := by
  unfold RelayPhase.due
  split <;> decide

/-- **A step of the drainer while the circuit is open** uses up what was due. -/
theorem due_step (h : DrainerStep r r') (opened : r.circuit.state = .opened) :
    (forwardedBy r r').length + r'.drainer.due ≤ r.drainer.due := by
  unfold forwardedBy
  cases h with
  | wake hp =>
    simp only [hp, opened]
    decide
  | goOn hp state =>
    rw [opened] at state
    cases state
  | @commit trial f hp free =>
    simp only [hp]
    cases trial <;> exact Nat.le_refl _
  | loadOpen hp _ | loadOther hp _ | storeHalfOpen hp | trial hp _ _ | drain hp _ _ | capacity hp _
  | noRoom hp _ | pause hp _ | peekFrame _ hp _ _ | peekEmpty _ hp _ _ | send hp _
  | noCapacity hp _ | noBacklog hp _ _ _ =>
    simp only [hp]
    first | exact Nat.le_refl _ | exact Nat.zero_le _

theorem drainer_other (h : OtherStep guard r r') : r'.drainer = r.drainer := by
  cases h <;> rfl

omit [Crc32] in
theorem forwardedBy_of_drainer (h : r'.drainer = r.drainer) : forwardedBy r r' = [] := by
  unfold forwardedBy
  rw [h]
  cases r.drainer <;> rfl

omit [Crc32] in
theorem length_forwardedBy (r r' : Relay) : (forwardedBy r r').length ≤ 1 := by
  unfold forwardedBy
  split
  · exact Nat.le_refl 1
  · exact Nat.zero_le 1

omit [Crc32] in
/-- **One step and the count**: it begins when the circuit opens, and goes up by what was due. -/
theorem sends_step {sends : Option Nat}
    (h : r.circuit.state = .opened → ∃ k, sends = some k ∧ k + r.drainer.due ≤ 1)
    (hdue : r.circuit.state = .opened →
      (forwardedBy r r').length + r'.drainer.due ≤ r.drainer.due)
    (opened : r'.circuit.state = .opened) :
    ∃ k, sendsAfter sends r r' = some k ∧ k + r'.drainer.due ≤ 1 := by
  unfold sendsAfter
  rw [if_neg (not_not_intro opened)]
  by_cases hold : r.circuit.state = .opened
  · obtain ⟨k, rfl, hk⟩ := h hold
    have hd := hdue hold
    rw [if_neg (not_not_intro hold)]
    exact ⟨k + (forwardedBy r r').length, rfl, by omega⟩
  · rw [if_pos hold]
    exact ⟨0, rfl, by rw [Nat.zero_add]; exact r'.drainer.due_le⟩

/-! ## The queue and the frames sent -/

theorem uncommitted_step (h : DrainerStep r r') : r'.drainer.uncommitted = forwardedBy r r' := by
  unfold forwardedBy
  cases h with
  | @commit trial f hp free =>
    simp only [hp]
    cases trial <;> rfl
  | loadOpen hp _ | loadOther hp _ | storeHalfOpen hp | trial hp _ _ | drain hp _ _ | capacity hp _
  | noRoom hp _ | pause hp _ | peekFrame _ hp _ _ | peekEmpty _ hp _ _ | send hp _
  | noCapacity hp _ | noBacklog hp _ _ _ | wake hp | goOn hp _ =>
    simp only [hp]
    rfl

/-- **A frame is sent only into a queue with room**, and it is one frame. -/
theorem queue_step (h : DrainerStep r r') :
    r'.queue = r.queue ++ (forwardedBy r r').map DecodedFrame.payload ∧
      (forwardedBy r r' ≠ [] → r.queue.length < retryQueueCapacity) := by
  have hsent := uncommitted_step h
  rw [← hsent]
  cases h with
  | send hp room => exact ⟨rfl, fun _ => room⟩
  | @commit trial f hp free =>
    cases trial <;> exact ⟨(List.append_nil _).symm, fun hne => absurd rfl hne⟩
  | _ => exact ⟨(List.append_nil _).symm, fun hne => absurd rfl hne⟩

/-- A send that fails leaves the store as it is and ends the sweep. -/
theorem failed_send {trial : Bool} {f : DecodedFrame} (h : DrainerStep r r')
    (hp : r.drainer = .peeked trial f) (hf : forwardedBy r r' = []) :
    r'.store = r.store ∧ r'.drainer = .sleeping := by
  cases h with
  | noCapacity => exact ⟨rfl, rfl⟩
  | send hp' _ =>
    unfold forwardedBy at hf
    simp [hp'] at hf
  | loadOpen hp' _ | loadOther hp' _ | storeHalfOpen hp' | trial hp' _ _ | drain hp' _ _
  | capacity hp' _ | noRoom hp' _ | pause hp' _ | peekFrame _ hp' _ _ | peekEmpty _ hp' _ _
  | commit hp' _ | noBacklog hp' _ _ _ | wake hp' | goOn hp' _ =>
    cases hp.symm.trans hp'

/-! ## The cursor -/

theorem frameAtCursor_eq_some {s : Store} {f : DecodedFrame} (h : frameAtCursor s = some f) :
    ∃ m file next, s.segments.find? (fun m => m.seq == s.readSeq) = some m ∧
      s.disk m.path = some file ∧ readFrameAt file.data s.readOffset = .frame f next := by
  unfold frameAtCursor at h
  split at h
  · cases h
  · rename_i m hm
    split at h
    · cases h
    · rename_i file hd
      split at h
      · rename_i g next hf
        rw [← Option.some.inj h]
        exact ⟨m, file, next, hm, hd, hf⟩
      · cases h

/-- **A peek stays where there is a frame.** -/
theorem cursor_peekNext (io : Io) {s : Store} {f : DecodedFrame} (h : frameAtCursor s = some f) :
    cursorOf (peekNext io s).1 = cursorOf s := by
  obtain ⟨m, file, next, hm, hd, hf⟩ := frameAtCursor_eq_some h
  have hsync : resync s = s := by
    unfold resync
    rw [if_pos (List.any_eq_true.mpr ⟨m, List.mem_of_find?_eq_some hm, ?_⟩)]
    exact List.find?_some (p := fun m : SegmentMeta => m.seq == s.readSeq) hm
  unfold peekNext
  rw [peekLoop]
  simp only [hsync, hm, openRead, hd]
  by_cases hopen : io.openRead m.path = true
  · simp only [hopen, if_true, Option.map_some, hf]
    rfl
  · simp only [hopen]
    rfl

theorem pending_peekLoop (io : Io) {f : DecodedFrame} :
    ∀ (fuel : Nat) {s : Store} {r : Store × Peek}, peekLoop io fuel s = r → r.2 = .frame f →
      r.1.pendingAdvance = some (r.1.readOffset + frameLenOnDisk f.payload.length)
  | 0, s, r, e, h => by
    rw [← e] at h
    cases h
  | fuel + 1, s, r, e, h => by
    rw [peekLoop] at e
    split at e
    · rw [← e] at h
      cases h
    · split at e
      · rw [← e] at h
        cases h
      · split at e
        · rename_i g next hf
          subst e
          obtain rfl : g = f := Peek.frame.inj h
          exact congrArg some (readFrameAt_decode hf).2.1
        all_goals
          split at e
          · rw [← e] at h
            cases h
          · exact pending_peekLoop io fuel e h

/-- After a peek the end of the frame it read is pending. -/
theorem pending_peekNext (io : Io) {s : Store} {f : DecodedFrame}
    (h : (peekNext io s).2 = .frame f) :
    (peekNext io s).1.pendingAdvance =
      some ((peekNext io s).1.readOffset + frameLenOnDisk f.payload.length) :=
  pending_peekLoop io _ rfl h

/-- **How a step of the drainer moves the cursor**: over the frame it sent, from where it was read,
or in a peek that finds no frame. -/
theorem cursor_step (h : PauseInv x) (hstep : DrainerStep x.relay r) :
    cursorOf r.store = cursorOf x.relay.store ∨
    (∃ trial f, x.relay.drainer = .sent trial f ∧ cursorOf x.relay.store = x.readAt ∧
      cursorOf r.store = (x.readAt.1, x.readAt.2 + frameLenOnDisk f.payload.length)) ∨
    (∃ trial, x.relay.drainer = .peeking trial ∧ frameAtCursor x.relay.store = none) := by
  cases hstep with
  | @peekFrame trial _ io hp _ _ | @peekEmpty trial io hp _ _ =>
    cases hf : frameAtCursor x.relay.store with
    | none => exact .inr (.inr ⟨trial, hp, rfl⟩)
    | some f => exact .inl (cursor_peekNext io hf)
  | @commit trial f hp free =>
    cases hpend : x.relay.store.pendingAdvance with
    | none =>
      left
      simp only [commitPending, hpend]
    | some next =>
      have hsome : x.relay.store.pendingAdvance ≠ none := by
        rw [hpend]
        exact Option.some_ne_none _
      obtain ⟨hcur, hnext⟩ := h.read f (by rw [hp]; rfl) hsome
      refine .inr (.inl ⟨trial, f, hp, hcur, ?_⟩)
      rw [← Option.some.inj (hpend.symm.trans hnext), ← hcur]
      simp only [commitPending, hpend]
      rfl
  | _ => exact .inl rfl

/-! ## One step -/

/-- An append leaves the cursor and what is pending, or nothing is pending after it. -/
theorem reader_append (io : Io) (s : Store) (payload : Bytes)
    (h : (appendOne io s payload).1.pendingAdvance ≠ none) :
    readerOf (appendOne io s payload).1 = readerOf s := by
  have happend := readerOf_appendOne io s payload
  rcases (readerOf_enforceCap io s (frameLenOnDisk payload.length)).2 with hnone | hsame
  · have e : (appendOne io s payload).1.pendingAdvance = _ :=
      congrArg (fun r : WalConfig × Nat × Nat × Option Nat => r.2.2.2) happend
    exact absurd (e.trans hnone) h
  · exact happend.trans hsame

/-- **The others keep the invariant.** -/
theorem pauseInv_other (h : PauseInv x) (hstep : OtherStep guard x.relay r) :
    PauseInv { x with relay := r, sends := sendsAfter x.sends x.relay r } := by
  have hdrainer := drainer_other hstep
  have hdue : (forwardedBy x.relay r).length + r.drainer.due ≤ x.relay.drainer.due := by
    rw [forwardedBy_of_drainer hdrainer, hdrainer]
    exact Nat.le_of_eq (Nat.zero_add _)
  have hlast : ∃ before, x.forwarded = before ++ r.drainer.uncommitted := by
    rw [hdrainer]
    exact h.last
  have hkept : r.queue.length ≤ retryQueueCapacity ∧
      (r.store.pendingAdvance ≠ none → readerOf r.store = readerOf x.relay.store) := by
    cases hstep with
    | enqueue p room =>
      refine ⟨?_, fun _ => rfl⟩
      rw [List.length_append]
      exact room
    | dequeue =>
      refine ⟨?_, fun _ => rfl⟩
      rw [List.length_drop]
      exact (Nat.sub_le _ _).trans h.queue
    | append io p allowed held => exact ⟨h.queue, reader_append io _ p⟩
    | _ => exact ⟨h.queue, fun _ => rfl⟩
  refine ⟨hkept.1, sends_step h.sends fun _ => hdue, hlast, fun f hf hp => ?_⟩
  have hreader := hkept.2 hp
  obtain ⟨-, hseq, hoffset, hpend⟩ := by simpa only [readerOf, Prod.mk.injEq] using hreader
  obtain ⟨hcur, hnext⟩ := h.read f (hdrainer ▸ hf) (hpend ▸ hp)
  refine ⟨?_, hpend.trans hnext⟩
  rw [← hcur, cursorOf, cursorOf]
  exact Prod.ext hseq hoffset

/-- **The drainer keeps the invariant.** -/
theorem pauseInv_drainer (h : PauseInv x) (hstep : DrainerStep x.relay r) :
    PauseInv
      { relay := r
        sends := sendsAfter x.sends x.relay r
        forwarded := x.forwarded ++ forwardedBy x.relay r
        readAt := readAtAfter x.readAt r
        passed := x.passed ++ passedBy x.relay.store r.store } := by
  obtain ⟨hqueue, hroom⟩ := queue_step hstep
  have hone := length_forwardedBy x.relay r
  refine ⟨?_, sends_step h.sends (due_step hstep), ⟨x.forwarded, ?_⟩, ?_⟩
  · show r.queue.length ≤ _
    rw [hqueue, List.length_append, List.length_map]
    by_cases hf : forwardedBy x.relay r = []
    · rw [hf]
      exact h.queue
    · have hlt := hroom hf
      omega
  · rw [uncommitted_step hstep]
  · intro f hf hp
    cases hstep with
    | peekFrame io _ _ hpeek =>
      obtain rfl := Option.some.inj hf
      exact ⟨rfl, pending_peekNext io hpeek⟩
    | send hp' room =>
      obtain rfl := Option.some.inj hf
      exact h.read _ (by rw [hp']; rfl) hp
    | @commit trial _ _ _ => cases trial <;> cases hf
    | _ => cases hf

theorem pauseInv_step (h : PauseInv x) (hstep : ObservedStep guard x x') : PauseInv x' := by
  cases hstep with
  | drainer hstep => exact pauseInv_drainer h hstep
  | other hstep => exact pauseInv_other h hstep

/-! ## Whole runs -/

theorem pauseInv_run {s₀ : Store}
    (run : Relation.ReflTransGen (ObservedStep guard) (.start s₀) x) : PauseInv x := by
  induction run with
  | refl => exact ⟨Nat.zero_le _, fun h => (nomatch h), ⟨[], rfl⟩, fun _ h => (nomatch h)⟩
  | tail _ hstep ih => exact pauseInv_step ih hstep

/-- **The drainer pauses when the circuit opens.** In every run, whatever is recorded, sent or
appended between any two accesses of the drainer: at most one frame is sent while the circuit stays
open. A frame is sent only into a queue with room; a send that fails leaves the store alone and ends
the sweep. The read cursor is moved over the frame that was sent last, from where that one was read,
or by a peek where there is no frame. -/
theorem drainer_pauses {s₀ : Store}
    (run : Relation.ReflTransGen (ObservedStep guard) (.start s₀) x) :
    (x.relay.circuit.state = .opened → ∃ k, x.sends = some k ∧ k ≤ 1) ∧
    x.relay.queue.length ≤ retryQueueCapacity ∧
    ∀ r, DrainerStep x.relay r →
      r.queue = x.relay.queue ++ (forwardedBy x.relay r).map DecodedFrame.payload ∧
      (forwardedBy x.relay r ≠ [] → x.relay.queue.length < retryQueueCapacity) ∧
      (∀ trial f, x.relay.drainer = .peeked trial f → forwardedBy x.relay r = [] →
        r.store = x.relay.store ∧ r.drainer = .sleeping) ∧
      (cursorOf r.store = cursorOf x.relay.store ∨
        (∃ trial f, x.relay.drainer = .sent trial f ∧ x.forwarded.getLast? = some f ∧
          cursorOf x.relay.store = x.readAt ∧
          cursorOf r.store = (x.readAt.1, x.readAt.2 + frameLenOnDisk f.payload.length)) ∨
        (∃ trial, x.relay.drainer = .peeking trial ∧ frameAtCursor x.relay.store = none)) := by
  have h := pauseInv_run run
  refine ⟨fun hopen => ?_, h.queue, fun r hstep => ?_⟩
  · obtain ⟨k, hk, hle⟩ := h.sends hopen
    exact ⟨k, hk, (Nat.le_add_right _ _).trans hle⟩
  · obtain ⟨hqueue, hroom⟩ := queue_step hstep
    refine ⟨hqueue, hroom, fun trial f => failed_send hstep, ?_⟩
    refine (cursor_step h hstep).imp_right (Or.imp_left ?_)
    rintro ⟨trial, f, hp, hcur, hnext⟩
    obtain ⟨before, hlast⟩ := h.last
    refine ⟨trial, f, hp, ?_, hcur, hnext⟩
    rw [hlast, hp]
    exact List.getLast?_concat

omit [Crc32] in
/-- Three failed posts open the circuit between the peek of a frame and its send. -/
theorem drainer_pauses_open : letI := crc32Ieee
    ∃ x, Relation.ReflTransGen (ObservedStep fun _ _ _ => True)
        (.start (emptyStore smallConfig fun _ => none)) x ∧
      x.relay.circuit.state = .opened ∧ x.sends = some 1 ∧ ∃ k, x.sends = some k ∧ k ≤ 1 := by
  let _ := crc32Ieee
  have append := (((Relation.ReflTransGen.refl (r := ObservedStep fun _ _ _ => True)
    (a := .start (emptyStore smallConfig fun _ => none))).tail
      (.other (.lock rfl))).tail (.other (.append .ok [7] trivial rfl))).tail
      (.other (.unlock rfl))
  have sweep := (((append.tail (.drainer (.wake rfl))).tail
    (.drainer (.drain rfl rfl (by decide +kernel)))).tail
      (.drainer (.capacity rfl (by decide)))).tail (.drainer (.goOn rfl rfl))
  have peek := sweep.tail (.drainer (.peekFrame (f := ⟨0, [7]⟩) .ok rfl rfl (by decide +kernel)))
  have fail := (((peek.tail (.other (.countFailure rfl))).tail (.other (.countFailure rfl))).tail
    (.other (.countFailure rfl))).tail (.other (.notOpen rfl (by decide)))
  have run := (fail.tail (.other (.storeOpen rfl))).tail (.drainer (.send rfl (by decide)))
  exact ⟨_, run, rfl, rfl, (drainer_pauses run).1 rfl⟩

/-- **Every run of the agent is observed.** -/
theorem observed_of_agent {a : Agent} {s₀ : Store} {l₀ : FrameLog} (h₀ : Represents s₀ l₀)
    (run : Relation.ReflTransGen AgentStep (Agent.start s₀) a) :
    ∃ x, Relation.ReflTransGen (ObservedStep Regular) (.start s₀) x ∧ Relays a x.relay := by
  obtain ⟨r, hrun, h⟩ := relay_of_agent h₀ run
  have hobserved : ∃ x, Relation.ReflTransGen (ObservedStep Regular) (.start s₀) x ∧
      x.relay = r := by
    clear h
    induction hrun with
    | refl => exact ⟨_, .refl, rfl⟩
    | tail _ hstep ih =>
      obtain ⟨x, hx, rfl⟩ := ih
      rcases hstep with hstep | hstep
      · exact ⟨_, hx.tail (.drainer hstep), rfl⟩
      · exact ⟨_, hx.tail (.other hstep), rfl⟩
  obtain ⟨x, hx, rfl⟩ := hobserved
  exact ⟨x, hx, h⟩

end Statix.Delivery
