import Mathlib.Data.List.Perm.Lattice
import Statix.Gateway.Process

/-!
# Where the rows are

In every state of the gateway process every row of a batch that was answered 200 is in one place: in
the channel, in the writer's current batch, among the inserted rows or among those counted as
dropped. A batch with another answer has no row anywhere.

* `Ledger`: the rows that were sent are, in order, those of the flushed batches, those the writer
  holds and those in the channel.
* `Requests`: the rows of a request that were sent are the first ones of its batch, all of them when
  it was answered 200 and none when it was answered otherwise; its permits are exactly the rows that
  are left.
* **`rows_accounted`**.
-/

namespace Statix.Gateway

open Statix.Rollup

variable {g g' : Process}

/-! ## The channel and the writer -/

/-- What the writer's batch can be. -/
def Writing.Fits (batchMax : Nat) : Writing → Prop
  | .filling batch => 0 < batch.length ∧ batch.length ≤ batchMax
  | .draining batch => batch.length ≤ batchMax
  | _ => True

/-- **The rows that were sent**, by what became of them. -/
structure Ledger (g : Process) : Prop where
  positive : 0 < g.batchMax
  order : g.sent = g.flushed.flatten ++ g.writer.unflushed ++ g.queue
  outcome : (g.inserted ++ g.dropped ++ g.writer.inFlush).Perm g.flushed.flatten
  sizes : ∀ b ∈ g.flushed, 0 < b.length ∧ b.length ≤ g.batchMax
  current : g.writer.Fits g.batchMax

/-- The writer passes its batch on. -/
theorem Ledger.flush (h : Ledger g) {w : Writing} {batch : List Tagged} {next : AfterFlush}
    (hw : g.writer = w) (hb : w.unflushed = batch) (hf : w.inFlush = []) (some : 0 < batch.length)
    (le : batch.length ≤ g.batchMax) : Ledger (g.flush batch next) where
  positive := h.positive
  order := by
    show g.sent = (g.flushed ++ [batch]).flatten ++ [] ++ g.queue
    rw [h.order, hw, hb]
    simp
  outcome := by
    have ho := h.outcome
    rw [hw, hf, List.append_nil] at ho
    show (g.inserted ++ g.dropped ++ batch).Perm (g.flushed ++ [batch]).flatten
    rw [List.flatten_append, List.flatten_singleton]
    exact ho.append_right batch
  sizes := by
    intro b hmem
    rcases List.mem_append.mp hmem with hmem | hmem
    · exact h.sizes b hmem
    · rw [List.mem_singleton.mp hmem]
      exact ⟨some, le⟩
  current := trivial

theorem unflushed_next (next : AfterFlush) : next.writing.unflushed = [] := by
  cases next <;> rfl

theorem inFlush_next (next : AfterFlush) : next.writing.inFlush = [] := by
  cases next <;> rfl

/-- A flush ends: its rows are inserted, or dropped. -/
theorem Ledger.settle (h : Ledger g) {batch : List Tagged} {attempt : Nat} {next : AfterFlush}
    (hw : g.writer = .flushing batch attempt next) {healthy : Bool} {inserted dropped : List Tagged}
    (hp : (inserted ++ dropped).Perm (g.inserted ++ g.dropped ++ batch)) :
    Ledger { g with
      healthy := healthy, writer := next.writing, inserted := inserted, dropped := dropped } where
  positive := h.positive
  order := by
    have ho := h.order
    rw [hw] at ho
    show g.sent = g.flushed.flatten ++ next.writing.unflushed ++ g.queue
    rw [unflushed_next]
    exact ho
  outcome := by
    have ho := h.outcome
    rw [hw] at ho
    show (inserted ++ dropped ++ next.writing.inFlush).Perm g.flushed.flatten
    rw [inFlush_next, List.append_nil]
    exact hp.trans ho
  sizes := h.sizes
  current := by
    cases next with
    | fill => trivial
    | drain => exact Nat.zero_le _
    | finish => trivial

/-- Rows move from the channel to the writer. -/
theorem Ledger.receive (h : Ledger g) {writer : Writing} {queue : List Tagged}
    (hrows : writer.unflushed ++ queue = g.writer.unflushed ++ g.queue)
    (hf : writer.inFlush = g.writer.inFlush) (fits : writer.Fits g.batchMax) {healthy : Bool} :
    Ledger { g with healthy := healthy, writer := writer, queue := queue } where
  positive := h.positive
  order := by
    show g.sent = g.flushed.flatten ++ writer.unflushed ++ queue
    rw [List.append_assoc, hrows, ← List.append_assoc]
    exact h.order
  outcome := by
    show (g.inserted ++ g.dropped ++ writer.inFlush).Perm _
    rw [hf]
    exact h.outcome
  sizes := h.sizes
  current := fits

/-- The writer goes on with the rows it has. -/
theorem Ledger.turn (h : Ledger g) {w : Writing} (hw : g.writer = w) (writer : Writing)
    (hrows : writer.unflushed = w.unflushed) (hf : writer.inFlush = w.inFlush)
    (fits : writer.Fits g.batchMax) {healthy : Bool} :
    Ledger { g with healthy := healthy, writer := writer } := by
  refine h.receive ?_ ?_ fits
  · rw [hrows, hw]
  · rw [hf, hw]

theorem length_received {batch queue : List Tagged} {n batchMax : Nat}
    (room : n ≤ batchMax - batch.length) (le : batch.length ≤ batchMax) (there : n ≤ queue.length) :
    (batch ++ queue.take n).length = batch.length + n ∧ batch.length + n ≤ batchMax := by
  rw [List.length_append, List.length_take, Nat.min_eq_left there]
  exact ⟨rfl, by omega⟩

theorem Ledger.drainMany (h : Ledger g) {batch : List Tagged} {n : Nat}
    (hw : g.writer = .draining batch) (some : 0 < n) (room : n ≤ g.batchMax - batch.length)
    (there : n ≤ g.queue.length) :
    Ledger ({ g with queue := g.queue.drop n }.drained (batch ++ g.queue.take n)) := by
  have hfit := h.current
  rw [hw] at hfit
  obtain ⟨hlen, hle⟩ := length_received room hfit there
  have hrec : Ledger { g with
      writer := .draining (batch ++ g.queue.take n), queue := g.queue.drop n } := by
    refine h.receive ?_ ?_ ?_
    · rw [hw]
      simp [Writing.unflushed]
    · rw [hw]
      rfl
    · show (batch ++ g.queue.take n).length ≤ g.batchMax
      rw [hlen]
      exact hle
  unfold Process.drained
  split
  · exact hrec.flush rfl rfl rfl (by omega) (hlen ▸ hle)
  · exact hrec

theorem ledger_step (h : Ledger g) (hstep : TaskStep g g') : Ledger g' := by
  have hfit := h.current
  cases hstep with
  | send hc more =>
    refine ⟨h.positive, ?_, h.outcome, h.sizes, h.current⟩
    show g.sent ++ [_] = _ ++ (g.queue ++ [_])
    rw [h.order, List.append_assoc]
  | ping ok hw => exact h.turn hw .receiving rfl rfl trivial
  | recv hw hq =>
    refine h.receive ?_ ?_ ?_
    · rw [hw, hq]
      rfl
    · rw [hw]
      rfl
    · exact ⟨Nat.zero_lt_one, h.positive⟩
  | recvNone hw hq closed => exact h.turn hw (.draining []) rfl rfl (Nat.zero_le _)
  | recvMany n hw some room there =>
    rw [hw] at hfit
    obtain ⟨hlen, hle⟩ := length_received room hfit.2 there
    refine h.receive ?_ ?_ ?_
    · rw [hw]
      simp [Writing.unflushed]
    · rw [hw]
      rfl
    · exact ⟨by omega, by omega⟩
  | recvManyNone hw room hq closed | linger hw room | filled hw full =>
    rw [hw] at hfit
    exact h.flush hw rfl rfl hfit.1 hfit.2
  | drainFull hw full =>
    rw [hw] at hfit
    exact h.flush hw rfl rfl (Nat.lt_of_lt_of_le h.positive full) hfit
  | drainMany n hw some room there => exact h.drainMany hw some room there
  | drainLast hw room hq closed some =>
    rw [hw] at hfit
    exact h.flush hw rfl rfl (List.length_pos_of_ne_nil some) hfit
  | drainEnd hw room hq closed => exact h.turn hw .ended rfl rfl trivial
  | insertOk hw =>
    refine h.settle hw ?_
    rw [List.append_assoc, List.append_assoc]
    exact List.perm_append_comm.append_left _
  | insertFailed hw more =>
    rename_i batch attempt next
    exact h.turn hw (.flushing batch (attempt + 1) next) rfl rfl trivial
  | budgetExhausted hw last =>
    refine h.settle hw ?_
    rw [List.append_assoc]
  | _ => exact ⟨h.positive, h.order, h.outcome, h.sizes, h.current⟩

/-! ## The requests -/

theorem length_rowsOf (id : Nat) (batch : IngestBatch) :
    (rowsOf id batch).length = batch.workloads.length := by
  simp [rowsOf]

theorem getElem_rowsOf (id : Nat) (batch : IngestBatch) {k : Nat}
    (h : k < batch.workloads.length) :
    (rowsOf id batch)[k]? = some ⟨id, k, .fromIngest batch batch.workloads[k]⟩ := by
  simp [rowsOf, h]

theorem request_of_mem {id : Nat} {batch : IngestBatch} {t : Tagged} (h : t ∈ rowsOf id batch) :
    t.request = id := by
  obtain ⟨⟨w, i⟩, -, rfl⟩ := List.mem_map.mp h
  rfl

/-- The places in a batch are distinct. -/
theorem nodup_rowsOf (id : Nat) (batch : IngestBatch) : (rowsOf id batch).Nodup := by
  have hidx : (rowsOf id batch).map Tagged.index = List.range' 0 batch.workloads.length := by
    rw [← List.zipIdx_map_snd 0 batch.workloads, rowsOf, List.map_map]
    rfl
  have hnd : ((rowsOf id batch).map Tagged.index).Nodup := by
    rw [hidx]
    exact List.nodup_range'
  exact hnd.of_map

/-- The rows a request has sent. -/
def sentOf (sent : List Tagged) (id : Nat) : List Tagged := sent.filter fun t => t.request = id

/-- The rows of its batch a call has sent. -/
def Call.sentRows : Call → List Tagged
  | .sending id batch sent _ => (rowsOf id batch).take sent
  | _ => []

/-- The permit iterator has one permit for every row that is left. -/
def Call.exactPermits : Call → Prop
  | .sending _ batch sent permits => sent + permits = batch.workloads.length
  | _ => True

/-- **What the requests have sent.** -/
structure Requests (g : Process) : Prop where
  fresh : ∀ t ∈ g.sent, t.request < g.nextId
  ids : (g.calls.map Call.id ++ g.answers.map Prod.fst).Nodup
  below : ∀ id ∈ g.calls.map Call.id ++ g.answers.map Prod.fst, id < g.nextId
  calls : ∀ c ∈ g.calls, c.exactPermits ∧ sentOf g.sent c.id = c.sentRows
  answers : ∀ id batch a, (id, batch, a) ∈ g.answers →
    sentOf g.sent id = if a.status = 200 then rowsOf id batch else []
  panics : g.panics = 0

/-- A number that was not given out yet has no rows. -/
theorem Requests.sentOf_next (h : Requests g) : sentOf g.sent g.nextId = [] := by
  refine List.filter_eq_nil_iff.mpr fun t ht e => ?_
  have hlt := h.fresh t ht
  have heq : t.request = g.nextId := of_decide_eq_true e
  omega

theorem Requests.next_not_mem (h : Requests g) :
    g.nextId ∉ g.calls.map Call.id ++ g.answers.map Prod.fst :=
  fun hmem => Nat.lt_irrefl _ (h.below _ hmem)

theorem Requests.exactPermits (h : Requests g) {pre post : List Call} {c : Call}
    (hc : g.calls = pre ++ c :: post) : c.exactPermits := by
  have hmem : c ∈ g.calls := by
    rw [hc]
    simp
  exact (h.calls c hmem).1

/-- A call goes on without sending. -/
theorem Requests.advance (h : Requests g) {pre post : List Call} {c c' : Call}
    (hc : g.calls = pre ++ c :: post) (hid : c'.id = c.id) (exact_ : c'.exactPermits)
    (hrows : c'.sentRows = c.sentRows) :
    Requests { g with calls := pre ++ c' :: post } := by
  have hids : (pre ++ c' :: post).map Call.id = g.calls.map Call.id := by
    rw [hc]
    simp [hid]
  refine ⟨h.fresh, ?_, ?_, fun d hd => ?_, h.answers, h.panics⟩
  · show ((pre ++ c' :: post).map Call.id ++ _).Nodup
    rw [hids]
    exact h.ids
  · show ∀ id ∈ (pre ++ c' :: post).map Call.id ++ _, _
    rw [hids]
    exact h.below
  · have hmem : c ∈ g.calls := by
      rw [hc]
      simp
    have hd : d ∈ pre ++ c' :: post := hd
    rw [List.mem_append, List.mem_cons] at hd
    rcases hd with hd | rfl | hd
    · exact h.calls d (by rw [hc]; simp [hd])
    · exact ⟨exact_, by rw [hid, hrows]; exact (h.calls c hmem).2⟩
    · exact h.calls d (by rw [hc]; simp [hd])

/-- A call ends. -/
theorem Requests.answer (h : Requests g) {pre post : List Call} {c : Call} {id : Nat}
    {batch : IngestBatch} {a : Answer} (hc : g.calls = pre ++ c :: post) (hid : c.id = id)
    (hrows : c.sentRows = if a.status = 200 then rowsOf id batch else []) :
    Requests (g.answer pre post id batch a) := by
  have hperm : ((pre ++ post).map Call.id ++ (g.answers ++ [(id, batch, a)]).map Prod.fst).Perm
      (g.calls.map Call.id ++ g.answers.map Prod.fst) := by
    rw [hc, ← hid]
    simp only [List.map_append, List.map_cons, List.map_nil, List.append_assoc, List.cons_append]
    refine List.Perm.append_left _ ?_
    rw [← List.append_assoc]
    exact List.perm_append_singleton _ _
  refine ⟨h.fresh, hperm.nodup_iff.mpr h.ids, fun i hi => h.below i (hperm.mem_iff.mp hi),
    fun d hd => ?_, fun i b a' hmem => ?_, h.panics⟩
  · have hd : d ∈ pre ++ post := hd
    exact h.calls d (by rw [hc]; rcases List.mem_append.mp hd with hd | hd <;> simp [hd])
  · rcases List.mem_append.mp hmem with hmem | hmem
    · exact h.answers i b a' hmem
    · obtain ⟨rfl, rfl, rfl⟩ : i = id ∧ b = batch ∧ a' = a := by
        simpa using List.mem_singleton.mp hmem
      have hmem : c ∈ g.calls := by
        rw [hc]
        simp
      rw [← hrows, ← (h.calls c hmem).2, hid]
      rfl

/-- A call sends its next row. -/
theorem Requests.send (h : Requests g) {pre post : List Call} {id : Nat} {batch : IngestBatch}
    {sent permits : Nat} (hc : g.calls = pre ++ .sending id batch sent (permits + 1) :: post)
    (more : sent < batch.workloads.length) {queue : List Tagged} :
    Requests { g with
      queue := queue
      sent := g.sent ++ [⟨id, sent, .fromIngest batch batch.workloads[sent]⟩]
      calls := pre ++ .sending id batch (sent + 1) permits :: post } := by
  have hmem : Call.sending id batch sent (permits + 1) ∈ g.calls := by
    rw [hc]
    simp
  obtain ⟨hexact, hsent⟩ := h.calls _ hmem
  have hids : (pre ++ Call.sending id batch (sent + 1) permits :: post).map Call.id =
      g.calls.map Call.id := by
    rw [hc]
    simp [Call.id]
  -- the other requests have another number
  have hnd := h.ids
  rw [hc] at hnd
  simp only [List.map_append, List.map_cons, List.append_assoc, List.cons_append] at hnd
  have hne := (List.nodup_middle.mp hnd).notMem
  have hother : ∀ i, i ≠ id → sentOf (g.sent ++ [⟨id, sent, .fromIngest batch
      batch.workloads[sent]⟩]) i = sentOf g.sent i := by
    intro i hi
    simp [sentOf, Ne.symm hi]
  refine ⟨fun t ht => ?_, ?_, ?_, fun d hd => ?_, fun i b a hmem' => ?_, h.panics⟩
  · rcases List.mem_append.mp ht with ht | ht
    · exact h.fresh t ht
    · rw [List.mem_singleton.mp ht]
      exact h.below id (List.mem_append_left _ (List.mem_map_of_mem hmem))
  · show ((pre ++ Call.sending id batch (sent + 1) permits :: post).map Call.id ++ _).Nodup
    rw [hids]
    exact h.ids
  · show ∀ i ∈ (pre ++ Call.sending id batch (sent + 1) permits :: post).map Call.id ++ _, _
    rw [hids]
    exact h.below
  · have hd : d ∈ pre ++ Call.sending id batch (sent + 1) permits :: post := hd
    rw [List.mem_append, List.mem_cons] at hd
    rcases hd with hd | rfl | hd
    · have hdid : d.id ≠ id := by
        intro e
        have hmem : d.id ∈ pre.map Call.id := List.mem_map_of_mem hd
        rw [e] at hmem
        exact hne (List.mem_append_left _ hmem)
      have hcall := h.calls d (by rw [hc]; simp [hd])
      exact ⟨hcall.1, by rw [← hcall.2]; exact hother _ hdid⟩
    · refine ⟨?_, ?_⟩
      · show sent + 1 + permits = batch.workloads.length
        have : sent + (permits + 1) = batch.workloads.length := hexact
        omega
      · show sentOf (g.sent ++ [_]) id = (rowsOf id batch).take (sent + 1)
        have hs : sentOf g.sent id = (rowsOf id batch).take sent := hsent
        rw [List.take_add_one, getElem_rowsOf id batch more, ← hs]
        simp [sentOf]
    · have hdid : d.id ≠ id := by
        intro e
        have hmem : d.id ∈ post.map Call.id := List.mem_map_of_mem hd
        rw [e] at hmem
        exact hne (List.mem_append_right _ (List.mem_append_left _ hmem))
      have hcall := h.calls d (by rw [hc]; simp [hd])
      exact ⟨hcall.1, by rw [← hcall.2]; exact hother _ hdid⟩
  · have hi : i ≠ id := by
      rintro rfl
      refine hne (List.mem_append_right _ (List.mem_append_right _ ?_))
      exact List.mem_map_of_mem (f := Prod.fst) hmem'
    rw [← h.answers i b a hmem']
    exact hother i hi

theorem requests_step (h : Requests g) (hstep : TaskStep g g') : Requests g' := by
  cases hstep with
  | arrive batch authorization hm auth =>
    refine ⟨fun t ht => Nat.lt_succ_of_lt (h.fresh t ht), ?_, fun i hi => ?_, fun d hd => ?_,
      h.answers, h.panics⟩
    · show ((g.calls ++ [Call.arrived g.nextId batch]).map Call.id ++ _).Nodup
      rw [List.map_append, List.append_assoc]
      exact List.nodup_middle.mpr (List.nodup_cons.mpr ⟨h.next_not_mem, h.ids⟩)
    · have hi : i ∈ (g.calls ++ [Call.arrived g.nextId batch]).map Call.id ++ _ := hi
      rw [List.map_append, List.append_assoc] at hi
      rcases List.mem_cons.mp (List.perm_middle.mem_iff.mp hi) with rfl | hi
      · exact Nat.lt_succ_self _
      · exact Nat.lt_succ_of_lt (h.below i hi)
    · rcases List.mem_append.mp hd with hd | hd
      · exact h.calls d hd
      · rw [List.mem_singleton.mp hd]
        exact ⟨trivial, h.sentOf_next⟩
  | reject batch authorization hm auth =>
    refine ⟨fun t ht => Nat.lt_succ_of_lt (h.fresh t ht), ?_, fun i hi => ?_, h.calls,
      fun i b a hmem => ?_, h.panics⟩
    · show (_ ++ (g.answers ++ [(g.nextId, batch, Answer.unauthorized)]).map Prod.fst).Nodup
      rw [List.map_append, ← List.append_assoc]
      exact (List.perm_append_singleton _ _).nodup_iff.mpr
        (List.nodup_cons.mpr ⟨h.next_not_mem, h.ids⟩)
    · have hi : i ∈ _ ++ (g.answers ++ [(g.nextId, batch, Answer.unauthorized)]).map Prod.fst := hi
      rw [List.map_append, ← List.append_assoc] at hi
      rcases List.mem_cons.mp ((List.perm_append_singleton _ _).mem_iff.mp hi) with rfl | hi
      · exact Nat.lt_succ_self _
      · exact Nat.lt_succ_of_lt (h.below i hi)
    · rcases List.mem_append.mp hmem with hmem | hmem
      · exact h.answers i b a hmem
      · obtain ⟨rfl, rfl, rfl⟩ : i = g.nextId ∧ b = batch ∧ a = .unauthorized := by
          simpa using List.mem_singleton.mp hmem
        exact h.sentOf_next
  | badSchema hc bad => exact h.answer hc rfl rfl
  | unhealthy hc good flag => exact h.answer hc rfl rfl
  | check hc good flag => exact h.advance hc rfl trivial rfl
  | empty hc none =>
    refine h.answer hc rfl ?_
    simp [Call.sentRows, Answer.status, Response.status, rowsOf, none]
  | reserve hc some alive room =>
    refine h.advance hc rfl ?_ ?_
    · exact Nat.zero_add _
    · simp [Call.sentRows]
  | full hc some alive noRoom => exact h.answer hc rfl rfl
  | gone hc some ended => exact h.answer hc rfl rfl
  | send hc more => exact h.send hc more
  | panic hc more =>
    have hp := h.exactPermits hc
    simp only [Call.exactPermits] at hp
    omega
  | sent hc all =>
    refine h.answer hc rfl ?_
    simp only [Call.sentRows, Answer.status, Response.status, if_true]
    exact List.take_of_length_le (by rw [length_rowsOf]; exact all)
  | drainMany n hw some room there =>
    unfold Process.drained
    split <;> exact ⟨h.fresh, h.ids, h.below, h.calls, h.answers, h.panics⟩
  | _ => exact ⟨h.fresh, h.ids, h.below, h.calls, h.answers, h.panics⟩

/-! ## Runs -/

variable {channelSize batchSize : Nat} {expectedBearer : Option String}

theorem ledger_run (run : Relation.ReflTransGen ProcessStep
    (.start channelSize batchSize expectedBearer) g) : Ledger g := by
  induction run with
  | refl =>
    refine ⟨?_, rfl, List.Perm.nil, fun b hb => absurd hb List.not_mem_nil, trivial⟩
    show 0 < max 64 _
    omega
  | tail _ hstep ih => exact ledger_step ih hstep.2

theorem requests_run (run : Relation.ReflTransGen ProcessStep
    (.start channelSize batchSize expectedBearer) g) : Requests g := by
  induction run with
  | refl =>
    exact ⟨fun t ht => absurd ht List.not_mem_nil, List.nodup_nil,
      fun i hi => absurd hi List.not_mem_nil, fun c hc => absurd hc List.not_mem_nil,
      fun i b a hm => absurd hm List.not_mem_nil, rfl⟩
  | tail _ hstep ih => exact requests_step ih hstep.2

/-- The rows in the channel, in the writer's current batch, inserted or counted as dropped. -/
def Process.places (g : Process) : List Tagged :=
  g.queue ++ g.writer.batch ++ g.inserted ++ g.dropped

/-- They are the rows that were sent. -/
theorem places_perm (h : Ledger g) : g.places.Perm g.sent := by
  have hflush : (g.writer.inFlush ++ (g.inserted ++ g.dropped)).Perm g.flushed.flatten :=
    List.perm_append_comm.trans h.outcome
  have hwriter : (g.writer.batch ++ (g.inserted ++ g.dropped)).Perm
      (g.flushed.flatten ++ g.writer.unflushed) := by
    rw [Writing.batch, List.append_assoc]
    exact (hflush.append_left _).trans List.perm_append_comm
  rw [Process.places, h.order, List.append_assoc, List.append_assoc]
  exact (hwriter.append_left _).trans List.perm_append_comm

theorem count_places (h : Ledger g) (t : Tagged) :
    g.places.count t = (sentOf g.sent t.request).count t := by
  rw [(places_perm h).count_eq, sentOf, List.count_filter]
  exact decide_eq_true rfl

/-- An answer stays given, and a row stays sent. -/
theorem record_step (hstep : TaskStep g g') : g.answers ⊆ g'.answers ∧ g.sent ⊆ g'.sent := by
  cases hstep with
  | reject | badSchema | unhealthy | empty | full | gone | sent =>
    exact ⟨List.subset_append_left _ _, List.Subset.refl _⟩
  | send hc more => exact ⟨List.Subset.refl _, List.subset_append_left _ _⟩
  | drainMany n hw some room there =>
    unfold Process.drained
    split <;> exact ⟨List.Subset.refl _, List.Subset.refl _⟩
  | _ => exact ⟨List.Subset.refl _, List.Subset.refl _⟩

theorem record_run (run : Relation.ReflTransGen ProcessStep g g') :
    g.answers ⊆ g'.answers ∧ g.sent ⊆ g'.sent := by
  induction run with
  | refl => exact ⟨List.Subset.refl _, List.Subset.refl _⟩
  | tail _ hstep ih =>
    obtain ⟨ha, hs⟩ := record_step hstep.2
    exact ⟨List.Subset.trans ih.1 ha, List.Subset.trans ih.2 hs⟩

/-- **Every row of a batch answered 200 is in one place in every later state, and no row of a batch
answered otherwise is anywhere**, before the answer or after it. Every batch passed to
`flush_with_retry` has between one and `batch_max` rows, in the order of the channel, and no handler
runs out of permits. -/
theorem rows_accounted (run : Relation.ReflTransGen ProcessStep
    (.start channelSize batchSize expectedBearer) g)
    (later : Relation.ReflTransGen ProcessStep g g') :
    (∀ id batch a, (id, batch, a) ∈ g.answers → a.status = 200 →
      ∀ t ∈ rowsOf id batch, g'.places.count t = 1) ∧
    (∀ id batch a, (id, batch, a) ∈ g'.answers → a.status ≠ 200 →
      ∀ t : Tagged, t.request = id → t ∉ g.places ∧ t ∉ g'.places) ∧
    (∀ b ∈ g'.flushed, 1 ≤ b.length ∧ b.length ≤ g'.batchMax) ∧
    g'.sent = g'.flushed.flatten ++ g'.writer.unflushed ++ g'.queue ∧ g'.panics = 0 := by
  have hl := ledger_run (run.trans later)
  have hr := requests_run (run.trans later)
  obtain ⟨hanswers, hsent⟩ := record_run later
  refine ⟨fun id batch a hmem ok t ht => ?_, fun id batch a hmem bad t ht => ?_, hl.sizes,
    hl.order, hr.panics⟩
  · rw [count_places hl, request_of_mem ht, hr.answers id batch a (hanswers hmem), if_pos ok]
    exact List.count_eq_one_of_mem (nodup_rowsOf id batch) ht
  · -- the request has sent nothing by `g'`, so it had sent nothing before
    have hnot : t ∉ g'.sent := by
      intro hin
      have hmem' : t ∈ sentOf g'.sent id := List.mem_filter.mpr ⟨hin, decide_eq_true ht⟩
      rw [hr.answers id batch a hmem, if_neg bad] at hmem'
      exact List.not_mem_nil hmem'
    constructor
    · exact fun hin => hnot (hsent ((places_perm (ledger_run run)).subset hin))
    · exact fun hin => hnot ((places_perm hl).subset hin)

/-- A batch of one row. -/
def oneRow : IngestBatch := ⟨4, 0, 1, "n", "b", "1.2.0", [Aggregator.rowOf 7 {}]⟩

/-- A batch of two rows. -/
def twoRows : IngestBatch :=
  ⟨4, 0, 1, "n", "b", "1.2.0", [Aggregator.rowOf 7 {}, Aggregator.rowOf 8 {}]⟩

/-- Two rows are accepted while a batch of an old schema is refused, and taken one after the other;
the insert fails, which refuses the third request, and succeeds when it is tried again. -/
theorem three_requests : ∃ g g',
    Relation.ReflTransGen ProcessStep (.start 0 0 none) g ∧
      Relation.ReflTransGen ProcessStep g g' ∧
      g.answers = [(1, { oneRow with schemaVersion := 1 }, .inner (.unsupportedSchema 1)),
        (0, twoRows, .inner .ok)] ∧
      g'.answers = g.answers ++ [(2, oneRow, .inner .unavailable)] ∧
      g.writer = .filling (rowsOf 0 twoRows) ∧ g'.inserted = rowsOf 0 twoRows := by
  let old : IngestBatch := { oneRow with schemaVersion := 1 }
  let t : Tagged := ⟨0, 0, .fromIngest twoRows (Aggregator.rowOf 7 {})⟩
  let u : Tagged := ⟨0, 1, .fromIngest twoRows (Aggregator.rowOf 8 {})⟩
  let ready : Process := { Process.start 0 0 none with healthy := true, writer := .receiving }
  let arrived : Process := { ready with calls := [.arrived 0 twoRows], nextId := 1 }
  let checked : Process := { arrived with calls := [.checked 0 twoRows] }
  let sending : Process := { ready with calls := [.sending 0 twoRows 0 2], nextId := 1 }
  let both : Process := { ready with
    calls := [.sending 0 twoRows 1 1, .arrived 1 old], nextId := 2, queue := [t], sent := [t] }
  let refused : Process := { both with
    calls := [.sending 0 twoRows 1 1]
    answers := [(1, old, .inner (.unsupportedSchema 1))] }
  let taking : Process := { refused with queue := [], writer := .filling [t] }
  let taken : Process := { taking with
    calls := [.sending 0 twoRows 2 0], queue := [u], sent := [t, u] }
  let filled : Process := { taken with queue := [], writer := .filling [t, u] }
  let g : Process := { filled with
    calls := [], answers := refused.answers ++ [(0, twoRows, .inner .ok)] }
  let failed : Process := { g with
    healthy := false, writer := .flushing [t, u] 1 .fill, flushed := [[t, u]] }
  let third : Process := { failed with calls := [.arrived 2 oneRow], nextId := 3 }
  let unhealthy : Process := { third with
    calls := [], answers := g.answers ++ [(2, oneRow, .inner .unavailable)] }
  let g' : Process := { unhealthy with
    healthy := true, writer := .receiving, inserted := [t, u] }
  have ha : arrived.calls = [] ++ Call.arrived 0 twoRows :: [] := rfl
  have hc : checked.calls = [] ++ Call.checked 0 twoRows :: [] := rfl
  have hs : sending.calls = [] ++ Call.sending 0 twoRows 0 (1 + 1) :: [] := rfl
  have hb : both.calls = [.sending 0 twoRows 1 1] ++ Call.arrived 1 old :: [] := rfl
  have hr : taking.calls = [] ++ Call.sending 0 twoRows 1 (0 + 1) :: [] := rfl
  have ht : filled.calls = [] ++ Call.sending 0 twoRows 2 0 :: [] := rfl
  have h3 : third.calls = [] ++ Call.arrived 2 oneRow :: [] := rfl
  have hw : unhealthy.writer = .flushing [t, u] 1 .fill := rfl
  have hroom : 1 ≤ taken.batchMax - [t].length := by decide
  have hthere : 1 ≤ taken.queue.length := Nat.le_refl 1
  have hsending : Relation.ReflTransGen ProcessStep (.start 0 0 none) sending :=
    .head ⟨rfl, .ping true rfl⟩ (.head ⟨rfl, .arrive twoRows none rfl (Or.inl rfl)⟩
      (.head ⟨rfl, .check ha (by decide) rfl⟩
        (.single ⟨rfl, .reserve hc (by decide) (fun e => nomatch e) (by decide)⟩)))
  have hrefused : Relation.ReflTransGen ProcessStep sending refused :=
    .head ⟨rfl, .send hs (by decide)⟩ (.head ⟨rfl, .arrive old none rfl (Or.inl rfl)⟩
      (.single ⟨rfl, .badSchema hb (by decide)⟩))
  have hmany : ProcessStep taken filled := ⟨rfl, .recvMany 1 rfl one_pos hroom hthere⟩
  have hanswered : Relation.ReflTransGen ProcessStep refused g :=
    .head ⟨rfl, .recv rfl rfl⟩ (.head ⟨rfl, .send hr (by decide)⟩
      (.head hmany (.single ⟨rfl, .sent ht (by decide)⟩)))
  have hfailed : Relation.ReflTransGen ProcessStep g failed :=
    .head ⟨rfl, .linger rfl (by decide)⟩ (.single ⟨rfl, .insertFailed rfl (by decide)⟩)
  have hthird : ProcessStep failed third := ⟨rfl, .arrive oneRow none rfl (Or.inl rfl)⟩
  have hunhealthy : ProcessStep third unhealthy := ⟨rfl, .unhealthy h3 (by decide) rfl⟩
  have hinserted : ProcessStep unhealthy g' := ⟨rfl, .insertOk hw⟩
  exact ⟨g, g', (hsending.trans hrefused).trans hanswered,
    ((hfailed.tail hthird).tail hunhealthy).tail hinserted, rfl, rfl, rfl, rfl⟩

theorem rows_accounted_three_requests : ∃ g g',
    Relation.ReflTransGen ProcessStep (.start 0 0 none) g ∧
      Relation.ReflTransGen ProcessStep g g' ∧
      g.writer = .filling (rowsOf 0 twoRows) ∧ g'.inserted = rowsOf 0 twoRows ∧
      (∀ t ∈ rowsOf 0 twoRows, g'.places.count t = 1) ∧
      (∀ t : Tagged, t.request = 1 ∨ t.request = 2 → t ∉ g.places ∧ t ∉ g'.places) ∧
      g'.panics = 0 := by
  obtain ⟨g, g', run, later, hanswers, hanswers', hwriter, hinserted⟩ := three_requests
  obtain ⟨hok, hbad, -, -, hpanics⟩ := rows_accounted run later
  have hold : (0, twoRows, .inner .ok) ∈ g.answers := by
    rw [hanswers]
    exact List.mem_cons_of_mem _ (List.mem_singleton_self _)
  have hrefused : ∀ id batch response, response.status ≠ 200 →
      (id, batch, .inner response) ∈ g'.answers →
      ∀ t : Tagged, t.request = id → t ∉ g.places ∧ t ∉ g'.places :=
    fun id batch response bad hmem => hbad id batch (.inner response) hmem bad
  rw [hanswers', hanswers] at hrefused
  refine ⟨g, g', run, later, hwriter, hinserted, hok 0 twoRows _ hold rfl, ?_, hpanics⟩
  rintro t (h | h)
  · exact hrefused 1 _ (.unsupportedSchema 1) (by decide) (.head _) t h
  · exact hrefused 2 _ .unavailable (by decide) (.tail _ (.tail _ (.head _))) t h

end Statix.Gateway
