import Statix.Delivery.Pause

/-!
# What the drainer passes was sent

The frames ahead of the read cursor, in the runs of `Pause.lean` whose appends are `Regular`.

* `DrainerOutcome`: a step of the drainer passes at most the frame that is sent and not committed.
* `ForwardInv`: the frame of a replay is the first one ahead while its end is pending, and every
  frame passed was sent before.
* **`passed_was_sent`**: over whole runs from a recovered store.
-/

namespace Statix.Delivery

open Statix.Lib Statix.Wal

variable [Crc32]

/-- **What a run keeps.** -/
structure ForwardInv (x : Observed) (l : FrameLog) : Prop where
  store : Represents x.relay.store l
  next : ∀ f, x.relay.drainer.frame? = some f → x.relay.store.pendingAdvance ≠ none →
    l.ahead.head? = some f
  passed : (x.passed ++ x.relay.drainer.uncommitted).Sublist x.forwarded

variable {x x' : Observed} {r r' : Relay} {l : FrameLog}

omit [Crc32] in
theorem sent_of_uncommitted {p : RelayPhase} (h : p.uncommitted ≠ []) :
    ∃ trial f, p = .sent trial f ∧ p.uncommitted = [f] := by
  cases p with
  | sent trial f => exact ⟨trial, f, rfl, rfl⟩
  | _ => exact absurd rfl h

/-! ## The drainer -/

theorem passedBy_eq {s s' : Store} {gone : List DecodedFrame} (h : aheadOf s = gone ++ aheadOf s') :
    passedBy s s' = gone := by
  unfold passedBy
  rw [h, List.length_append, Nat.add_sub_cancel]
  exact List.take_left

theorem passedBy_self (s : Store) : passedBy s s = [] := passedBy_eq (List.nil_append _).symm

/-- A peek passes no frame. -/
theorem ahead_peekNext (io : Io) {s : Store} (h : Represents s l) :
    ∃ l', Represents (peekNext io s).1 l' ∧ l'.ahead = l.ahead ∧
      ∀ f, (peekNext io s).2 = .frame f → l.ahead.head? = some f := by
  obtain ⟨n, o⟩ := peekNext_spec io h
  have hahead : (l.dropSegs n).ahead = l.ahead := by
    rw [SegLog.ahead_dropSegs n l, o.readOut, List.nil_append]
  exact ⟨_, o.store, hahead, fun f hf => hahead ▸ (o.frame f hf).1⟩

/-- What a step of the drainer does to the log: it passes at most the frame that is sent and not
committed yet. -/
structure DrainerOutcome (r r' : Relay) (l l' : FrameLog) : Prop where
  store : Represents r'.store l'
  ahead : l.ahead = passedBy r.store r'.store ++ l'.ahead
  passed : passedBy r.store r'.store = [] ∨ passedBy r.store r'.store = r.drainer.uncommitted
  next : ∀ f, r'.drainer.frame? = some f → r'.store.pendingAdvance ≠ none →
    l'.ahead.head? = some f

/-- The store stays, and the frame the replay is about. -/
theorem DrainerOutcome.stay (h : ForwardInv x l) (hs : r.store = x.relay.store)
    (hf : r.drainer.frame? = none ∨ r.drainer.frame? = x.relay.drainer.frame?) :
    DrainerOutcome x.relay r l l := by
  have hself : passedBy x.relay.store r.store = [] := by rw [hs, passedBy_self]
  refine ⟨hs ▸ h.store, by rw [hself, List.nil_append], .inl hself, fun f hf' hp => ?_⟩
  rcases hf with hf | hf
  · cases hf.symm.trans hf'
  · exact h.next f (hf.symm.trans hf') (hs ▸ hp)

/-- A peek, which passes nothing. -/
theorem drainerOutcome_peek (h : ForwardInv x l) {io : Io}
    (hs : r.store = (peekNext io x.relay.store).1)
    (hf : r.drainer.frame? = none ∨
      ∃ f, r.drainer.frame? = some f ∧ (peekNext io x.relay.store).2 = .frame f) :
    ∃ l', DrainerOutcome x.relay r l l' := by
  obtain ⟨l', hr, hahead, hframe⟩ := ahead_peekNext io h.store
  have hnone : passedBy x.relay.store r.store = [] := by
    refine passedBy_eq ?_
    rw [hs, aheadOf_eq h.store, aheadOf_eq hr, hahead, List.nil_append]
  refine ⟨l', hs ▸ hr, by rw [hnone, hahead, List.nil_append], .inl hnone, fun f hf' _ => ?_⟩
  rcases hf with hf | ⟨g, hg, hpeek⟩
  · cases hf.symm.trans hf'
  · rw [hahead, ← Option.some.inj (hg.symm.trans hf')]
    exact hframe g hpeek

/-- The commit passes the frame that was sent, if it is still there. -/
theorem drainerOutcome_commit (h : ForwardInv x l) {trial : Bool} {f : DecodedFrame}
    (hp : x.relay.drainer = .sent trial f) (hs : r.store = commitPending x.relay.store)
    (hd : r.drainer = .afterReplay trial) : ∃ l', DrainerOutcome x.relay r l l' := by
  have hframe : r.drainer.frame? = none := by
    rw [hd]
    cases trial <;> rfl
  rcases commitPending_spec h.store with ⟨-, e⟩ | ⟨g, l', hne, hr, -, hcons, -⟩
  · exact ⟨l, .stay h (hs.trans e) (.inl hframe)⟩
  · have hhead := h.next f (by rw [hp]; rfl) hne
    rw [hcons] at hhead
    obtain rfl : g = f := Option.some.inj hhead
    have hpassed : passedBy x.relay.store r.store = [g] := by
      refine passedBy_eq ?_
      rw [hs, aheadOf_eq h.store, aheadOf_eq hr, hcons]
      rfl
    refine ⟨l', hs ▸ hr, by rw [hpassed, hcons]; rfl, .inr ?_, fun f' hf' _ => ?_⟩
    · rw [hpassed, hp]
      rfl
    · cases hframe.symm.trans hf'

/-- **A step of the drainer**, on the log. -/
theorem drainerOutcome (h : ForwardInv x l) (hstep : DrainerStep x.relay r) :
    ∃ l', DrainerOutcome x.relay r l l' := by
  cases hstep with
  | peekFrame io hp free hf => exact drainerOutcome_peek h rfl (.inr ⟨_, rfl, hf⟩)
  | peekEmpty io hp free hf => exact drainerOutcome_peek h rfl (.inl rfl)
  | commit hp free => exact drainerOutcome_commit h hp rfl rfl
  | send hp room => exact ⟨l, .stay h rfl (.inr (by rw [hp]; rfl))⟩
  | _ => exact ⟨l, .stay h rfl (.inl rfl)⟩

/-- **The drainer keeps the invariant.** -/
theorem forwardInv_drainer (h : ForwardInv x l) (hstep : DrainerStep x.relay r) :
    ∃ l', ForwardInv
      { relay := r
        sends := sendsAfter x.sends x.relay r
        forwarded := x.forwarded ++ forwardedBy x.relay r
        readAt := readAtAfter x.readAt r
        passed := x.passed ++ passedBy x.relay.store r.store } l' := by
  obtain ⟨l', o⟩ := drainerOutcome h hstep
  have hgone : (passedBy x.relay.store r.store).Sublist x.relay.drainer.uncommitted := by
    rcases o.passed with e | e <;> rw [e]
    exact List.nil_sublist _
  refine ⟨l', o.store, o.next, ?_⟩
  show (x.passed ++ passedBy x.relay.store r.store ++ r.drainer.uncommitted).Sublist _
  rw [uncommitted_step hstep]
  exact ((hgone.append_left _).trans h.passed).append_right _

/-! ## The others -/

/-- What becomes of the log in a step of the others: the first frame ahead stays while its end is
pending. -/
theorem log_other (h : Represents r.store l) (hstep : OtherStep Regular r r') :
    ∃ l', Represents r'.store l' ∧ (r'.store.pendingAdvance ≠ none →
      r.store.pendingAdvance ≠ none ∧ ∀ f, l.ahead.head? = some f → l'.ahead.head? = some f) := by
  cases hstep with
  | append io p allowed held =>
    obtain ⟨valid, repairs, number⟩ := allowed
    obtain ⟨n, rotates, o⟩ := appendOne_spec io h repairs number valid
    refine ⟨_, o.store, fun hp => ?_⟩
    -- the advance is still pending, so nothing was dropped
    rcases o.pending with ⟨rfl, e⟩ | ⟨-, e⟩
    · have hkept : l.ahead = (l.dropSegs 0).ahead := by
        rw [SegLog.ahead_dropSegs 0 l, SegLog.lostBy_zero]
        rfl
      refine ⟨fun hnone => hp (e.trans hnone), fun f hf => ?_⟩
      rw [o.ahead, ← hkept, List.head?_append, hf]
      rfl
    · exact absurd e hp
  | sync io held => exact ⟨l, syncActive_spec h, fun hp => ⟨hp, fun _ hf => hf⟩⟩
  | _ => exact ⟨l, h, fun hp => ⟨hp, fun _ hf => hf⟩⟩

theorem forwardInv_other (h : ForwardInv x l) (hstep : OtherStep Regular x.relay r) :
    ∃ l', ForwardInv { x with relay := r, sends := sendsAfter x.sends x.relay r } l' := by
  have hdrainer := drainer_other hstep
  obtain ⟨l', hs, hnext⟩ := log_other h.store hstep
  refine ⟨l', hs, fun f hf hp => ?_, ?_⟩
  · obtain ⟨hp', hhead⟩ := hnext hp
    exact hhead f (h.next f (hdrainer ▸ hf) hp')
  · show (x.passed ++ r.drainer.uncommitted).Sublist x.forwarded
    rw [hdrainer]
    exact h.passed

/-! ## Whole runs -/

theorem forwardInv_step (h : ForwardInv x l) (hstep : ObservedStep Regular x x') :
    ∃ l', ForwardInv x' l' := by
  cases hstep with
  | drainer hstep => exact forwardInv_drainer h hstep
  | other hstep => exact forwardInv_other h hstep

theorem forwardInv_run {s₀ : Store} {l₀ : FrameLog} (h₀ : Represents s₀ l₀)
    (run : Relation.ReflTransGen (ObservedStep Regular) (.start s₀) x) :
    ∃ l, ForwardInv x l := by
  induction run with
  | refl => exact ⟨l₀, h₀, fun _ h => (nomatch h), List.nil_sublist _⟩
  | tail _ hstep ih =>
    obtain ⟨l, h⟩ := ih
    exact forwardInv_step h hstep

/-- **What the drainer passes was sent.** In every run from a recovered store the frames the drainer
moved the cursor past are, in order, among those whose send succeeded; and a step of the drainer
takes no frame from those ahead but the one it has sent and not committed. -/
theorem passed_was_sent {io : Io} {cfg : WalConfig} {entries : List FileName} {d : Disk}
    {s₀ : Store} (written : WrittenDir d) (lists : Lists entries d)
    (truncates : ∀ n, io.setLen n = true)
    (opened : recover io cfg entries d = some s₀)
    (run : Relation.ReflTransGen (ObservedStep Regular) (.start s₀) x) :
    x.passed.Sublist x.forwarded ∧
    ∀ r, DrainerStep x.relay r →
      aheadOf x.relay.store = passedBy x.relay.store r.store ++ aheadOf r.store ∧
      (passedBy x.relay.store r.store ≠ [] → ∃ trial f, x.relay.drainer = .sent trial f ∧
        passedBy x.relay.store r.store = [f]) := by
  obtain ⟨s, l₀, e, o₀⟩ := recover_spec io truncates cfg written lists
  obtain rfl := Option.some.inj (e.symm.trans opened)
  obtain ⟨l, h⟩ := forwardInv_run o₀.store run
  refine ⟨(List.sublist_append_left _ _).trans h.passed, fun r hstep => ?_⟩
  obtain ⟨l', o⟩ := drainerOutcome h hstep
  refine ⟨?_, fun hne => ?_⟩
  · rw [aheadOf_eq h.store, aheadOf_eq o.store]
    exact o.ahead
  · have hpassed := o.passed.resolve_left hne
    rw [hpassed] at hne ⊢
    exact sent_of_uncommitted hne

end Statix.Delivery
