import Statix.Gateway.Serving

/-!
# The health flag

`ch_healthy` is set by the startup ping and by insert outcomes only, and `ingest_inner` turns rows
away while it is false. So it can come back only through a row that is already in the channel or in
the writer's hand.

* `HealthInv`: there is such a row whenever the flag is false.
* `release`, `settle`, `empty_queue`, `accept`: the way from any state of the serving gateway to an
  accepted batch, when inserts succeed.
* **`health_recovers`**: if the ping does not fail and no retry budget runs out on an empty channel,
  the flag always can come back.
* `wedged_after_ping`: after a failed ping it never does.
-/

namespace Statix.Gateway

open Statix.Rollup

variable {x x' : Server}

/-- A step other than a failed ping, and other than a last failed insert on an empty channel. -/
def GuardedStep (x x' : Server) : Prop :=
  ∃ ev, ServeStep ev x x' ∧ ev ≠ .pingFailed ∧ (ev = .budgetExhausted → x.queue ≠ [])

/-- A step in which ClickHouse does not fail. -/
def CalmStep (x x' : Server) : Prop :=
  ∃ ev, ServeStep ev x x' ∧ ev ≠ .pingFailed ∧ ev ≠ .insertFailed ∧ ev ≠ .budgetExhausted

/-! ## The invariant -/

/-- **What a guarded run keeps**: a batch in the writer's hand has rows, and after the ping a false
flag means there is a row to insert. -/
structure HealthInv (x : Server) : Prop where
  filling : ∀ batch, x.writer = .filling batch → batch ≠ []
  flushing : ∀ batch attempt, x.writer = .flushing batch attempt → batch ≠ []
  alive : x.writer ≠ .pinging → x.healthy = false → x.queue ≠ [] ∨ x.writer.batch ≠ []

/-- Steps of the handlers only add rows. -/
theorem HealthInv.request (h : HealthInv x) (hw : x'.writer = x.writer)
    (hh : x'.healthy = x.healthy) (hq : x.queue ≠ [] → x'.queue ≠ []) : HealthInv x' := by
  refine ⟨by rw [hw]; exact h.filling, by rw [hw]; exact h.flushing, ?_⟩
  rw [hw, hh]
  exact fun hp hf => (h.alive hp hf).imp_left hq

/-- The writer holds rows now. -/
theorem HealthInv.holds {batch : List MetricRow} (hb : batch ≠ [])
    (hw : x.writer = .filling batch ∨ ∃ attempt, x.writer = .flushing batch attempt) :
    HealthInv x := by
  rcases hw with hw | ⟨attempt, hw⟩
  · refine ⟨fun b e => ?_, fun b k e => ?_, fun _ _ => Or.inr ?_⟩
    · rw [hw] at e
      injection e with e
      rwa [← e]
    · rw [hw] at e
      cases e
    · rw [hw]
      exact hb
  · refine ⟨fun b e => ?_, fun b k e => ?_, fun _ _ => Or.inr ?_⟩
    · rw [hw] at e
      cases e
    · rw [hw] at e
      injection e with e
      rwa [← e]
    · rw [hw]
      exact hb

/-- The writer waits for a row, with the flag true or a row to come. -/
theorem HealthInv.waits (hw : x.writer = .receiving) (h : x.healthy = true ∨ x.queue ≠ []) :
    HealthInv x := by
  refine ⟨fun b e => ?_, fun b k e => ?_, fun _ hf => Or.inl (h.resolve_left fun ht => ?_)⟩
  · rw [hw] at e
    cases e
  · rw [hw] at e
    cases e
  · rw [ht] at hf
    cases hf

theorem append_ne_nil {α : Type} {l : List α} (h : l ≠ []) (m : List α) : l ++ m ≠ [] := by
  intro e
  exact h (List.append_eq_nil_iff.mp e).1

/-- **A guarded step keeps the invariant.** -/
theorem healthInv_step (h : HealthInv x) (hstep : GuardedStep x x') : HealthInv x' := by
  obtain ⟨ev, hstep, hping, hbudget⟩ := hstep
  cases hstep with
  | pingOk hw => exact .waits rfl (Or.inl rfl)
  | pingFailed hw => exact absurd rfl hping
  | recv hw hq => exact .holds (List.cons_ne_nil _ _) (Or.inl rfl)
  | recvMany n hw _ _ _ => exact .holds (append_ne_nil (h.filling _ hw) _) (Or.inl rfl)
  | linger hw _ => exact .holds (h.filling _ hw) (Or.inr ⟨0, rfl⟩)
  | filled hw _ => exact .holds (h.filling _ hw) (Or.inr ⟨0, rfl⟩)
  | insertOk hw => exact .waits rfl (Or.inl rfl)
  | insertFailed hw _ => exact .holds (h.flushing _ _ hw) (Or.inr ⟨_, rfl⟩)
  | budgetExhausted hw _ => exact .waits rfl (Or.inr (hbudget rfl))
  | send hs => exact h.request rfl rfl fun hq => append_ne_nil hq _
  | _ => exact h.request rfl rfl id

theorem healthInv_run {capacity batchMax : Nat}
    (run : Relation.ReflTransGen GuardedStep (Server.start capacity batchMax) x) : HealthInv x := by
  induction run with
  | refl =>
    exact ⟨(fun _ e => nomatch e), (fun _ _ e => nomatch e), fun hp _ => absurd rfl hp⟩
  | tail _ hstep ih => exact healthInv_step ih hstep

/-! ## The way to an accepted batch -/

theorem calm {ev : Event} (h : ServeStep ev x x')
    (hev : ev = .request ∨ ev = .fill ∨ ev = .inserted) : CalmStep x x' := by
  refine ⟨ev, h, ?_, ?_, ?_⟩ <;> rcases hev with rfl | rfl | rfl <;> exact fun e => nomatch e

/-- A reserved permit is held by a handler with a row to send. -/
theorem exists_sending (h : x.reserved ≠ 0) :
    ∃ batch w rest, Handler.sending batch (w :: rest) ∈ x.handlers := by
  by_contra hno
  refine h (List.sum_eq_zero_iff_forall_eq_nat.mpr fun k hk => ?_)
  obtain ⟨hd, hmem, rfl⟩ := List.mem_map.mp hk
  cases hd with
  | sending batch rest =>
    cases rest with
    | nil => rfl
    | cons w rest => exact absurd ⟨batch, w, rest, hmem⟩ hno
  | _ => rfl

/-- Handlers that hold permits send their rows. -/
theorem release (n : Nat) (h : x.reserved = n) :
    ∃ x', Relation.ReflTransGen CalmStep x x' ∧ x'.reserved = 0 ∧ x'.healthy = x.healthy ∧
      x'.writer = x.writer ∧ (x.queue ≠ [] → x'.queue ≠ []) ∧ x'.capacity = x.capacity ∧
      x'.answers = x.answers := by
  induction n generalizing x with
  | zero => exact ⟨x, .refl, h, rfl, rfl, id, rfl, rfl⟩
  | succ n ih =>
    obtain ⟨batch, w, rest, hmem⟩ := exists_sending (by rw [h]; exact Nat.succ_ne_zero n)
    obtain ⟨pre, post, hs⟩ := List.append_of_mem hmem
    let x₁ : Server := { x with
      queue := x.queue ++ [.fromIngest batch w]
      handlers := pre ++ .sending batch rest :: post }
    have hsend : CalmStep x x₁ := calm (.send hs) (Or.inl rfl)
    have hres : x₁.reserved = n := by
      unfold Server.reserved at h ⊢
      rw [hs] at h
      simp only [x₁, List.map_append, List.map_cons, List.sum_append, List.sum_cons,
        Handler.reserved, List.length_cons] at h ⊢
      omega
    obtain ⟨x', run, h1, h2, h3, h4, h5, h6⟩ := ih hres
    exact ⟨x', .head hsend run, h1, h2, h3, fun hq => h4 (append_ne_nil hq _), h5, h6⟩

/-- What the writer task alone leaves as it is. -/
structure Keeps (x x' : Server) : Prop where
  run : Relation.ReflTransGen CalmStep x x'
  handlers : x'.handlers = x.handlers
  capacity : x'.capacity = x.capacity
  answers : x'.answers = x.answers

theorem Keeps.trans {y : Server} (h : Keeps x x') (h' : Keeps x' y) : Keeps x y :=
  ⟨h.run.trans h'.run, h'.handlers.trans h.handlers, h'.capacity.trans h.capacity,
    h'.answers.trans h.answers⟩

/-- The writer task inserts what it holds. -/
theorem settle (hp : x.writer ≠ .pinging) : ∃ x', Keeps x x' ∧ x'.writer = .receiving ∧
    x'.queue = x.queue ∧ (x.healthy = true ∨ x.writer.batch ≠ [] → x'.healthy = true) := by
  have hinsert : ∀ {y : Server} {batch : List MetricRow} {attempt : Nat},
      y.writer = .flushing batch attempt → ∃ y', Keeps y y' ∧ y'.writer = .receiving ∧
        y'.queue = y.queue ∧ y'.healthy = true := fun hw =>
    ⟨_, ⟨.single (calm (.insertOk hw) (Or.inr (Or.inr rfl))), rfl, rfl, rfl⟩, rfl, rfl, rfl⟩
  cases hw : x.writer with
  | pinging => exact absurd hw hp
  | receiving =>
    exact ⟨x, ⟨.refl, rfl, rfl, rfl⟩, hw, rfl, fun h => h.resolve_right fun hb => hb rfl⟩
  | filling batch =>
    have hflush : Keeps x { x with writer := .flushing batch 0 } := by
      by_cases hroom : batch.length < x.batchMax
      · exact ⟨.single (calm (.linger hw hroom) (Or.inr (Or.inl rfl))), rfl, rfl, rfl⟩
      · exact ⟨.single (calm (.filled hw (Nat.le_of_not_lt hroom)) (Or.inr (Or.inl rfl))), rfl, rfl,
          rfl⟩
    obtain ⟨y, hk, hr, hq, hh⟩ := hinsert (y := { x with writer := .flushing batch 0 }) rfl
    exact ⟨y, hflush.trans hk, hr, hq, fun _ => hh⟩
  | flushing batch attempt =>
    obtain ⟨y, hk, hr, hq, hh⟩ := hinsert hw
    exact ⟨y, hk, hr, hq, fun _ => hh⟩

/-- The writer task empties the channel, row by row. -/
theorem empty_queue (hw : x.writer = .receiving) : ∃ x', Keeps x x' ∧ x'.writer = .receiving ∧
    x'.queue = [] ∧ (x.healthy = true ∨ x.queue ≠ [] → x'.healthy = true) := by
  generalize hq : x.queue = rows
  induction rows generalizing x with
  | nil => exact ⟨x, ⟨.refl, rfl, rfl, rfl⟩, hw, hq, fun h => h.resolve_right fun hne => hne rfl⟩
  | cons r rest ih =>
    let x₁ : Server := { x with writer := .filling [r], queue := rest }
    have hrecv : Keeps x x₁ :=
      ⟨.single (calm (.recv hw hq) (Or.inr (Or.inl rfl))), rfl, rfl, rfl⟩
    obtain ⟨x₂, hk₂, hw₂, hq₂, hh₂⟩ := settle (x := x₁) fun e => nomatch e
    obtain ⟨x₃, hk₃, hw₃, hq₃, hh₃⟩ := ih hw₂ hq₂
    refine ⟨x₃, (hrecv.trans hk₂).trans hk₃, hw₃, hq₃, fun _ => hh₃ (Or.inl ?_)⟩
    exact hh₂ (Or.inr (List.cons_ne_nil r []))

/-- A handler with its permits sends its rows and answers. -/
theorem send_all (batch : IngestBatch) (pre : List Handler) (rest : List WorkloadRow)
    (hs : x.handlers = pre ++ [.sending batch rest]) :
    ∃ x', Relation.ReflTransGen CalmStep x x' ∧ x'.healthy = x.healthy ∧
      x'.answers = x.answers ++ [(batch, .ok)] := by
  induction rest generalizing x with
  | nil => exact ⟨_, .single (calm (.sent hs) (Or.inl rfl)), rfl, rfl⟩
  | cons w rest ih =>
    have hsend := calm (ServeStep.send hs) (Or.inl rfl)
    obtain ⟨x', run, hh, ha⟩ := ih (x := { x with
      queue := x.queue ++ [.fromIngest batch w]
      handlers := pre ++ [.sending batch rest] }) rfl
    exact ⟨x', .head hsend run, hh, ha⟩

/-- With the flag true and the channel free a batch that fits is accepted. -/
theorem accept (hflag : x.healthy = true) (hq : x.queue = []) (hres : x.reserved = 0)
    {batch : IngestBatch} (good : supported batch) (hfits : batch.workloads.length ≤ x.capacity) :
    ∃ x', Relation.ReflTransGen CalmStep x x' ∧ x'.healthy = true ∧
      x'.answers = x.answers ++ [(batch, .ok)] := by
  have h₁ : CalmStep x { x with handlers := x.handlers ++ [.arrived batch] } :=
    calm (.arrive batch) (Or.inl rfl)
  let x₂ : Server := { x with handlers := x.handlers ++ [.checked batch] }
  have h₂ : Relation.ReflTransGen CalmStep x x₂ :=
    .tail (.single h₁) (calm (.check (rfl : _ = x.handlers ++ .arrived batch :: []) good hflag)
      (Or.inl rfl))
  have hs₂ : x₂.handlers = x.handlers ++ .checked batch :: [] := rfl
  by_cases hnone : batch.workloads = []
  · exact ⟨_, h₂.tail (calm (.empty hs₂ hnone) (Or.inl rfl)), hflag, rfl⟩
  · have hroom : x₂.used + batch.workloads.length ≤ x₂.capacity := by
      have hres₂ : x₂.reserved = 0 := by
        unfold Server.reserved at hres ⊢
        rw [show x₂.handlers = x.handlers ++ [.checked batch] from rfl, List.map_append,
          List.sum_append, hres]
        rfl
      unfold Server.used
      rw [hres₂, show x₂.queue = [] from hq]
      simpa using hfits
    have h₃ := h₂.tail (calm (.reserve hs₂ hnone hroom) (Or.inl rfl))
    obtain ⟨x', run, hh, ha⟩ := send_all batch x.handlers batch.workloads (x := { x₂ with
      handlers := x.handlers ++ [.sending batch batch.workloads] }) rfl
    exact ⟨x', h₃.trans run, hh.trans hflag, ha⟩

/-- **Gateway health cannot wedge, as long as the ping succeeds and no retry budget runs out on an
empty channel.** In every state after the ping: a false flag means a row is in the channel or in the
writer's hand, and from there, with inserts that succeed, any batch that fits is accepted. -/
theorem health_recovers (capacity batchMax : Nat)
    (run : Relation.ReflTransGen GuardedStep (Server.start capacity batchMax) x)
    (pinged : x.writer ≠ .pinging) :
    (x.healthy = false → x.queue ≠ [] ∨ x.writer.batch ≠ []) ∧
    ¬(x.healthy = false ∧ x.queue = [] ∧ x.writer = .receiving) ∧
    ∀ batch, supported batch → batch.workloads.length ≤ x.capacity →
      ∃ x', Relation.ReflTransGen CalmStep x x' ∧ x'.healthy = true ∧
        x'.answers = x.answers ++ [(batch, .ok)] := by
  have h := healthInv_run run
  refine ⟨h.alive pinged, fun ⟨hf, hq, hw⟩ => ?_, fun batch good hfits => ?_⟩
  · rcases h.alive pinged hf with hne | hne
    · exact hne hq
    · rw [hw] at hne
      exact hne rfl
  · obtain ⟨x₁, run₁, hres₁, hh₁, hw₁, hq₁, hc₁, ha₁⟩ := release x.reserved rfl
    obtain ⟨x₂, k₂, hw₂, hq₂, hh₂⟩ := settle (x := x₁) (by rw [hw₁]; exact pinged)
    obtain ⟨x₃, k₃, hw₃, hq₃, hh₃⟩ := empty_queue hw₂
    -- a row to insert brings the flag back
    have hflag : x₃.healthy = true := by
      cases hf : x.healthy with
      | true => exact hh₃ (Or.inl (hh₂ (Or.inl (hh₁.trans hf))))
      | false =>
        rcases h.alive pinged hf with hne | hne
        · exact hh₃ (Or.inr (by rw [hq₂]; exact hq₁ hne))
        · exact hh₃ (Or.inl (hh₂ (Or.inr (by rw [hw₁]; exact hne))))
    have hres₃ : x₃.reserved = 0 := by
      unfold Server.reserved at hres₁ ⊢
      rw [k₃.handlers, k₂.handlers]
      exact hres₁
    obtain ⟨x', run', hh', ha'⟩ := accept hflag hq₃ hres₃ good
      (by rw [k₃.capacity, k₂.capacity, hc₁]; exact hfits)
    refine ⟨x', ((run₁.trans k₂.run).trans k₃.run).trans run', hh', ?_⟩
    rw [ha', k₃.answers, k₂.answers, ha₁]

/-- One request accepted, its row taken, and a first insert that fails. -/
theorem health_recovers_failed_insert : ∃ x : Server,
    Relation.ReflTransGen GuardedStep (Server.start 8192 1024) x ∧ x.healthy = false ∧
    ∃ batch x', supported batch ∧ Relation.ReflTransGen CalmStep x x' ∧ x'.healthy = true ∧
      x'.answers = x.answers ++ [(batch, .ok)] := by
  let w : WorkloadRow := Aggregator.rowOf 7 {}
  let batch : IngestBatch := ⟨4, 0, 1, "n", "b", "1.2.0", [w]⟩
  let row : MetricRow := .fromIngest batch w
  let x₀ : Server := { Server.start 8192 1024 with healthy := true, writer := .receiving }
  let arrived : Server := { x₀ with handlers := [.arrived batch] }
  let checked : Server := { x₀ with handlers := [.checked batch] }
  let sending : Server := { x₀ with handlers := [.sending batch [w]] }
  let x₁ : Server := { x₀ with queue := [row], handlers := [.sending batch []] }
  let x : Server := { x₁ with healthy := false, queue := [], writer := .flushing [row] 1 }
  -- the steps of the request and of the writer task
  have step : ∀ {a b : Server} {ev : Event}, ServeStep ev a b → ev ≠ .pingFailed →
      ev ≠ .budgetExhausted → GuardedStep a b := fun h hp hb => ⟨_, h, hp, fun e => absurd e hb⟩
  have h₀ : Relation.ReflTransGen GuardedStep (Server.start 8192 1024) x₀ :=
    .single (step (.pingOk rfl) (by decide) (by decide))
  have ha : arrived.handlers = [] ++ Handler.arrived batch :: [] := rfl
  have hc : checked.handlers = [] ++ Handler.checked batch :: [] := rfl
  have hs : sending.handlers = [] ++ Handler.sending batch [w] :: [] := rfl
  have harrive : GuardedStep x₀ arrived := step (.arrive batch) (by decide) (by decide)
  have hcheck : GuardedStep arrived checked :=
    step (.check ha (by decide) rfl) (by decide) (by decide)
  have hreserve : GuardedStep checked sending :=
    step (.reserve hc (by decide) (by decide)) (by decide) (by decide)
  have hsend : GuardedStep sending x₁ := step (.send hs) (by decide) (by decide)
  have h₁ : Relation.ReflTransGen GuardedStep x₀ x₁ :=
    (((Relation.ReflTransGen.single harrive).tail hcheck).tail hreserve).tail hsend
  have h₂ : Relation.ReflTransGen GuardedStep x₁ x :=
    ((Relation.ReflTransGen.single (step (.recv rfl rfl) (by decide) (by decide))).tail
      (step (.linger rfl (by decide)) (by decide) (by decide))).tail
      (step (.insertFailed rfl (by decide)) (by decide) (by decide))
  have run := (h₀.trans h₁).trans h₂
  obtain ⟨-, -, hbatch⟩ := health_recovers 8192 1024 run fun e => nomatch e
  obtain ⟨x', run', hh, ha⟩ := hbatch batch (by decide) (by decide)
  exact ⟨x, run, rfl, batch, x', by decide, run', hh, ha⟩

/-! ## A failed ping -/

/-- Nothing can bring the flag back: no row anywhere, and no request past its check. -/
structure Wedged (x : Server) : Prop where
  healthy : x.healthy = false
  queue : x.queue = []
  writer : x.writer = .receiving
  handlers : ∀ hd ∈ x.handlers, ∃ batch, hd = .arrived batch
  answers : ∀ batch, (batch, Response.ok) ∉ x.answers

theorem Wedged.answer (h : Wedged x) {pre post : List Handler} {hd : Handler}
    (hs : x.handlers = pre ++ hd :: post) (batch : IngestBatch) {r : Response} (hr : r ≠ .ok) :
    Wedged (x.answer pre post batch r) := by
  refine ⟨h.healthy, h.queue, h.writer, fun hd' hmem => h.handlers hd' ?_, fun b hb => ?_⟩
  · rw [hs]
    rcases List.mem_append.mp hmem with hm | hm
    · exact List.mem_append_left _ hm
    · exact List.mem_append_right _ (List.mem_cons_of_mem _ hm)
  · rcases List.mem_append.mp hb with hb | hb
    · exact h.answers b hb
    · exact hr (congrArg Prod.snd (List.mem_singleton.mp hb)).symm

/-- **A wedged gateway stays wedged**, whatever comes. -/
theorem wedged_step {ev : Event} (h : Wedged x) (hstep : ServeStep ev x x') : Wedged x' := by
  -- no request is past its check
  have hpast : ∀ {pre post : List Handler} {hd : Handler}, x.handlers = pre ++ hd :: post →
      ∃ batch, hd = .arrived batch := fun hs =>
    h.handlers _ (by rw [hs]; exact List.mem_append_right _ List.mem_cons_self)
  have hwriter := h.writer
  cases hstep with
  | arrive batch =>
    refine ⟨h.healthy, h.queue, h.writer, fun hd hmem => ?_, h.answers⟩
    rcases List.mem_append.mp hmem with hm | hm
    · exact h.handlers hd hm
    · exact ⟨batch, List.mem_singleton.mp hm⟩
  | badSchema hs _ => exact h.answer hs _ fun e => nomatch e
  | unhealthy hs _ _ => exact h.answer hs _ fun e => nomatch e
  | check hs _ flag =>
    rw [h.healthy] at flag
    cases flag
  | empty hs _ => obtain ⟨_, e⟩ := hpast hs; cases e
  | reserve hs _ _ => obtain ⟨_, e⟩ := hpast hs; cases e
  | full hs _ _ => obtain ⟨_, e⟩ := hpast hs; cases e
  | send hs => obtain ⟨_, e⟩ := hpast hs; cases e
  | sent hs => obtain ⟨_, e⟩ := hpast hs; cases e
  | recv _ hq =>
    rw [h.queue] at hq
    cases hq
  | pingOk hw => rw [hwriter] at hw; cases hw
  | pingFailed hw => rw [hwriter] at hw; cases hw
  | recvMany _ hw _ _ _ => rw [hwriter] at hw; cases hw
  | linger hw _ => rw [hwriter] at hw; cases hw
  | filled hw _ => rw [hwriter] at hw; cases hw
  | insertOk hw => rw [hwriter] at hw; cases hw
  | insertFailed hw _ => rw [hwriter] at hw; cases hw
  | budgetExhausted hw _ => rw [hwriter] at hw; cases hw

/-- **After a failed ping the gateway never takes a row again**: the flag is false, the channel is
empty, the writer waits, and so it stays in every continuation. -/
theorem wedged_after_ping :
    ∃ x, Relation.ReflTransGen (fun a b => ∃ ev, ServeStep ev a b) (Server.start 8192 1024) x ∧
      x.writer = .receiving ∧ x.healthy = false ∧ x.queue = [] ∧
      ∀ x', Relation.ReflTransGen (fun a b => ∃ ev, ServeStep ev a b) x x' →
        x'.healthy = false ∧ ∀ batch, (batch, Response.ok) ∉ x'.answers := by
  refine ⟨_, .single ⟨.pingFailed, .pingFailed rfl⟩, rfl, rfl, rfl, fun x' run => ?_⟩
  have h : Wedged x' := by
    induction run with
    | refl =>
      exact ⟨rfl, rfl, rfl, fun hd hm => absurd hm List.not_mem_nil,
        fun b hb => absurd hb List.not_mem_nil⟩
    | tail _ hstep ih =>
      obtain ⟨ev, hstep⟩ := hstep
      exact wedged_step ih hstep
  exact ⟨h.healthy, h.answers⟩

end Statix.Gateway
