import Mathlib.Algebra.BigOperators.Fin
import Mathlib.Logic.Relation
import Statix.Capture.Layout

/-!
# Execs through the ring buffer

Model of the way of an exec from the tracepoint to the main loop: `capture_identity` on every CPU
(`statix-ebpf/src/main.rs`), the two arms of `main` that drain the ring (`statix/src/main.rs`), and
`spawn_ring_drops_monitor` (`statix/src/loader.rs`).

* A CPU runs one program at a time. Its record is reserved and submitted in two steps, and anything
  may happen between them: on the other CPUs, in the drain, in the monitor.
* The kernel gives the records out in the order of their reservation, and none after one that is
  not submitted yet. `capacity` is how many records fit.
* Either arm may begin a drain at any time, so the readiness of the ring is left out. Both stop
  after `DRAIN_BUDGET` events, at an empty ring, and at a record that is not submitted.
* Whether the main loop is woken is left to the kernel: with flag 0 it notifies a reader that has
  caught up. Only the flag is modelled (`wakeupFlag`).
* `captured`, `dropped`, `delivered` and `submits` record the run. A drain begins an epoch, and
  `arrivals` are the execs of the current one.

Results:

* `RingInv`: what every run keeps.
* **`execs_in_order`**: every exec is delivered, in the ring or counted as dropped; the delivered
  ones are as captured, in their order.
* **`paced_never_drops`**: no exec is dropped while the drains keep up.
-/

namespace Statix.Capture

open Relation

variable {cpus : Nat}

/-! ## The model -/

/-- What the program can ask about the task that calls exec. -/
structure Exec where
  pidTgid : UInt64
  cgroupId : UInt64
  ktimeNs : UInt64
  /-- `bpf_get_current_comm`, or its error. -/
  comm : Option Comm
  deriving DecidableEq

/-- The record `capture_identity` fills in. -/
def eventOf (cpu : Fin cpus) (x : Exec) : RingEvent where
  kind := 1
  pid := x.pidTgid.toUInt32
  tgid := (x.pidTgid >>> 32).toUInt32
  cpuId := UInt32.ofNat cpu
  cgroupId := x.cgroupId
  timestamp := x.ktimeNs
  memoryBytes := 0
  comm := x.comm.getD .zero

/-- A record of the ring, with its bytes once it is submitted, and the epoch it was reserved in. -/
structure Slot (cpus : Nat) where
  cpu : Fin cpus
  epoch : Nat
  item : Option (List UInt8)

/-- The maps of the program, the drain and the monitor, with the record of the run. -/
structure RingState (cpus : Nat) where
  /-- `EVENTS`: the records not consumed, the oldest first. -/
  events : List (Slot cpus)
  ringDrops : Fin cpus → UInt64
  wakeupCounter : Fin cpus → UInt32
  /-- The execs whose program has reserved and not submitted. -/
  running : Fin cpus → Option Exec
  /-- `drained`, in a drain. -/
  draining : Option Nat
  prevTotal : Nat
  /-- `statix_ring_drops_total`. -/
  ringDropsTotal : Nat
  execs : List (Fin cpus × Exec)
  captured : List (Fin cpus × Exec)
  dropped : List (Fin cpus × Exec)
  delivered : List RingEvent
  submits : Fin cpus → Nat
  epoch : Nat
  arrivals : Nat

/-- `wakeup_flag`: `BPF_RB_NO_WAKEUP`, or 0. -/
def wakeupFlag (count : UInt32) : Nat := if count &&& 63 = 0 then 0 else 1

/-- `DRAIN_BUDGET`. -/
def drainBudget : Nat := 256

/-- How many records a ring of so many bytes takes: the kernel gives each a header of 8 bytes, and
never fills the ring to the last byte. -/
def ringCapacity (ringBufBytes : Nat) : Nat := (ringBufBytes - 1) / (eventSize + 8)

namespace RingState

/-- When the program is attached. -/
def start (cpus : Nat) : RingState cpus where
  events := []
  ringDrops := fun _ => 0
  wakeupCounter := fun _ => 0
  running := fun _ => none
  draining := none
  prevTotal := 0
  ringDropsTotal := 0
  execs := []
  captured := []
  dropped := []
  delivered := []
  submits := fun _ => 0
  epoch := 0
  arrivals := 0

/-- `capture_identity` up to its `reserve`. -/
def reserve (capacity : Nat) (cpu : Fin cpus) (x : Exec) (s : RingState cpus) : RingState cpus :=
  let s := { s with execs := s.execs ++ [(cpu, x)], arrivals := s.arrivals + 1 }
  if s.events.length < capacity then
    { s with
      events := s.events ++ [⟨cpu, s.epoch, none⟩]
      running := Function.update s.running cpu (some x)
      captured := s.captured ++ [(cpu, x)] }
  else
    -- `record_ring_drop`
    { s with
      ringDrops := Function.update s.ringDrops cpu (s.ringDrops cpu + 1)
      dropped := s.dropped ++ [(cpu, x)] }

/-- The record of a CPU that is not submitted gets its bytes. -/
def commit (cpu : Fin cpus) (item : List UInt8) (slot : Slot cpus) : Slot cpus :=
  if slot.cpu = cpu ∧ slot.item = none then { slot with item := some item } else slot

/-- The rest of `capture_identity`. The record is submitted with the `wakeupFlag` of its count. -/
def submit (cpu : Fin cpus) (x : Exec) (s : RingState cpus) : RingState cpus :=
  let count := s.wakeupCounter cpu + 1
  { s with
    events := s.events.map (commit cpu (eventOf cpu x).bytes)
    wakeupCounter := Function.update s.wakeupCounter cpu count
    running := Function.update s.running cpu none
    submits := Function.update s.submits cpu (s.submits cpu + 1) }

/-- An arm begins to drain. -/
def drain (s : RingState cpus) : RingState cpus :=
  { s with draining := some 0, epoch := s.epoch + 1, arrivals := 0 }

/-- `rb.next()` returned `item`, and `rest` is left. An undersized one is skipped. -/
def take (item : List UInt8) (rest : List (Slot cpus)) (drained : Nat) (s : RingState cpus) :
    RingState cpus :=
  match readItem item with
  | none => { s with events := rest }
  | some e =>
    { s with events := rest, draining := some (drained + 1), delivered := s.delivered ++ [e] }

/-- The sum the monitor reads. -/
def totalDrops (s : RingState cpus) : UInt64 := (List.ofFn s.ringDrops).foldl (· + ·) 0

/-- One round of the monitor. -/
def monitor (s : RingState cpus) : RingState cpus :=
  if s.totalDrops.toNat > 0 then
    let delta := s.totalDrops.toNat - s.prevTotal
    if delta > 0 then
      { s with ringDropsTotal := s.ringDropsTotal + delta, prevTotal := s.totalDrops.toNat }
    else s
  else s

end RingState

/-- One step. -/
inductive Step (capacity : Nat) : RingState cpus → RingState cpus → Prop
  | exec {s : RingState cpus} (cpu : Fin cpus) (x : Exec) (idle : s.running cpu = none) :
      Step capacity s (s.reserve capacity cpu x)
  | submit {s : RingState cpus} (cpu : Fin cpus) (x : Exec) (h : s.running cpu = some x) :
      Step capacity s (s.submit cpu x)
  | drain {s : RingState cpus} (h : s.draining = none) : Step capacity s s.drain
  | next {s : RingState cpus} {drained : Nat} {slot : Slot cpus} {rest : List (Slot cpus)}
      {item : List UInt8} (h : s.draining = some drained) (hn : drained < drainBudget)
      (hs : s.events = slot :: rest) (hi : slot.item = some item) :
      Step capacity s (s.take item rest drained)
  | drained {s : RingState cpus} {drained : Nat} (h : s.draining = some drained)
      (stop : drained ≥ drainBudget ∨ ∀ slot ∈ s.events.head?, slot.item = none) :
      Step capacity s { s with draining := none }
  | monitor {s : RingState cpus} : Step capacity s s.monitor
  /-- The map could not be read. -/
  | unread {s : RingState cpus} : Step capacity s s

/-! ## What every run keeps -/

/-- What a record of the ring holds or will hold. -/
def Holds (running : Fin cpus → Option Exec) (slot : Slot cpus) (e : RingEvent) : Prop :=
  (∀ item, slot.item = some item → item = e.bytes) ∧
    (slot.item = none → ∃ x, running slot.cpu = some x ∧ e = eventOf slot.cpu x)

/-- **What every run keeps.** -/
structure RingInv (s : RingState cpus) : Prop where
  split : s.execs.Perm (s.captured ++ s.dropped)
  sub : s.captured.Sublist s.execs
  order : ∃ pending, s.captured.map (fun e => eventOf e.1 e.2) = s.delivered ++ pending ∧
    List.Forall₂ (Holds s.running) s.events pending
  drops : ∀ cpu, s.ringDrops cpu = UInt64.ofNat ((s.dropped.map Prod.fst).count cpu)
  counter : ∀ cpu, s.wakeupCounter cpu = UInt32.ofNat (s.submits cpu)
  metric : s.ringDropsTotal = s.prevTotal
  read : s.prevTotal ≤ s.dropped.length

variable {capacity : Nat} {s s' : RingState cpus} {running : Fin cpus → Option Exec}
  {events : List (Slot cpus)} {pending : List RingEvent} {cpu : Fin cpus} {x : Exec}

/-! ## The records -/

/-- A CPU without a running program has no record to submit. -/
theorem holds_reserve (idle : running cpu = none)
    (h : List.Forall₂ (Holds running) events pending) :
    List.Forall₂ (Holds (Function.update running cpu (some x))) events pending := by
  refine h.imp fun slot e ⟨hitem, hopen⟩ => ⟨hitem, fun hnone => ?_⟩
  obtain ⟨y, hy, he⟩ := hopen hnone
  have hne : slot.cpu ≠ cpu := by
    rintro rfl
    rw [idle] at hy
    cases hy
  exact ⟨y, by rw [Function.update_of_ne hne, hy], he⟩

/-- A record that is submitted has what its program saw. -/
theorem holds_submit (h : running cpu = some x)
    (hall : List.Forall₂ (Holds running) events pending) :
    List.Forall₂ (Holds (Function.update running cpu none))
      (events.map (RingState.commit cpu (eventOf cpu x).bytes)) pending := by
  refine List.forall₂_map_left_iff.mpr (hall.imp fun slot e ⟨hitem, hopen⟩ => ?_)
  unfold RingState.commit
  split
  · next hmine =>
    obtain ⟨rfl, hnone⟩ := hmine
    obtain ⟨y, hy, rfl⟩ := hopen hnone
    obtain rfl : y = x := Option.some.inj (hy.symm.trans h)
    exact ⟨fun item hi => (Option.some.inj hi).symm, fun hi => (by cases hi)⟩
  · next hother =>
    refine ⟨hitem, fun hnone => ?_⟩
    obtain ⟨y, hy, he⟩ := hopen hnone
    have hne : slot.cpu ≠ cpu := fun e => hother ⟨e, hnone⟩
    exact ⟨y, by rw [Function.update_of_ne hne, hy], he⟩

/-! ## The counters -/

theorem wake_iff (n : Nat) : UInt32.ofNat n &&& 63 = 0 ↔ n % 64 = 0 := by
  rw [← UInt32.toNat_inj, UInt32.toNat_and]
  have h63 : (63 : UInt32).toNat = 2 ^ 6 - 1 := rfl
  rw [h63, Nat.and_two_pow_sub_one_eq_mod, UInt32.toNat_ofNat', UInt32.toNat_zero]
  omega

/-- **Every 64th record of a CPU is submitted with flag 0**, also after the counter has wrapped. -/
theorem wakeupFlag_iff (counter : s.wakeupCounter cpu = UInt32.ofNat (s.submits cpu)) :
    wakeupFlag (s.wakeupCounter cpu + 1) = 0 ↔ (s.submits cpu + 1) % 64 = 0 := by
  have hcount : s.wakeupCounter cpu + 1 = UInt32.ofNat (s.submits cpu + 1) := by
    rw [counter, UInt32.ofNat_add]
    rfl
  rw [hcount, ← wake_iff]
  unfold wakeupFlag
  split
  · next h => exact ⟨fun _ => h, fun _ => rfl⟩
  · next h => exact ⟨fun h1 => absurd h1 Nat.one_ne_zero, fun h0 => absurd h0 h⟩

theorem foldl_ofNat (l : List Nat) (n : Nat) :
    (l.map UInt64.ofNat).foldl (· + ·) (UInt64.ofNat n) = UInt64.ofNat (n + l.sum) := by
  induction l generalizing n with
  | nil => rfl
  | cons m l ih =>
    rw [List.map_cons, List.foldl_cons, ← UInt64.ofNat_add, ih, List.sum_cons, Nat.add_assoc]

/-- The monitor reads how many execs were dropped, on all CPUs. -/
theorem totalDrops_eq
    (h : ∀ cpu, s.ringDrops cpu = UInt64.ofNat ((s.dropped.map Prod.fst).count cpu)) :
    s.totalDrops = UInt64.ofNat s.dropped.length := by
  have hread : s.ringDrops = UInt64.ofNat ∘ fun c => (s.dropped.map Prod.fst).count c := funext h
  have hsum : (List.ofFn fun c => (s.dropped.map Prod.fst).count c).sum = s.dropped.length := by
    rw [List.sum_ofFn]
    have hcard := Multiset.sum_count_eq_card (s := Finset.univ)
      (m := ((s.dropped.map Prod.fst : List (Fin cpus)) : Multiset (Fin cpus)))
      fun c _ => Finset.mem_univ c
    simpa using hcard
  unfold RingState.totalDrops
  rw [hread, ← List.map_ofFn]
  have hfold := foldl_ofNat (List.ofFn fun c => (s.dropped.map Prod.fst).count c) 0
  rwa [hsum, Nat.zero_add] at hfold

/-! ## One step -/

theorem ringInv_start (cpus : Nat) : RingInv (.start cpus) where
  split := .refl _
  sub := .refl _
  order := ⟨[], rfl, .nil⟩
  drops := fun _ => rfl
  counter := fun _ => rfl
  metric := rfl
  read := Nat.le_refl 0

theorem ringInv_reserve (h : RingInv s) (idle : s.running cpu = none) :
    RingInv (s.reserve capacity cpu x) := by
  obtain ⟨pending, horder, hheld⟩ := h.order
  unfold RingState.reserve
  simp only
  split
  · have hperm : (s.execs ++ [(cpu, x)]).Perm (s.captured ++ [(cpu, x)] ++ s.dropped) := by
      rw [List.append_assoc]
      exact (h.split.append_right _).trans (by
        rw [List.append_assoc]
        exact List.perm_append_comm.append_left _)
    have horder' : (s.captured ++ [(cpu, x)]).map (fun e => eventOf e.1 e.2) =
        s.delivered ++ (pending ++ [eventOf cpu x]) := by
      rw [List.map_append, horder, List.append_assoc]
      rfl
    have hlast : Holds (Function.update s.running cpu (some x)) ⟨cpu, s.epoch, none⟩
        (eventOf cpu x) :=
      ⟨fun item hi => (by cases hi), fun _ => ⟨x, Function.update_self _ _ _, rfl⟩⟩
    exact {
      split := hperm
      sub := h.sub.append (List.Sublist.refl _)
      order := ⟨_, horder', List.rel_append (holds_reserve idle hheld) (.cons hlast .nil)⟩
      drops := h.drops
      counter := h.counter
      metric := h.metric
      read := h.read }
  · have hdrops : ∀ c, Function.update s.ringDrops cpu (s.ringDrops cpu + 1) c =
        UInt64.ofNat (((s.dropped ++ [(cpu, x)]).map Prod.fst).count c) := by
      intro c
      rw [List.map_append, List.count_append]
      by_cases hc : c = cpu
      · rw [hc, Function.update_self, h.drops, UInt64.ofNat_add]
        simp
      · have hnone : (([(cpu, x)] : List (Fin cpus × Exec)).map Prod.fst).count c = 0 := by
          rw [List.count_eq_zero]
          simpa using hc
        rw [Function.update_of_ne hc, h.drops, hnone, Nat.add_zero]
    exact {
      split := (h.split.append_right _).trans (.of_eq (List.append_assoc _ _ _))
      sub := h.sub.trans (List.sublist_append_left _ _)
      order := ⟨pending, horder, hheld⟩
      drops := hdrops
      counter := h.counter
      metric := h.metric
      read := by
        rw [List.length_append]
        exact Nat.le_add_right_of_le h.read }

theorem ringInv_submit (h : RingInv s) (hrun : s.running cpu = some x) :
    RingInv (s.submit cpu x) := by
  obtain ⟨pending, horder, hheld⟩ := h.order
  have hcounter : ∀ c, (s.submit cpu x).wakeupCounter c =
      UInt32.ofNat ((s.submit cpu x).submits c) := by
    intro c
    unfold RingState.submit
    by_cases hc : c = cpu
    · rw [hc]
      simp only [Function.update_self]
      rw [h.counter, UInt32.ofNat_add]
      rfl
    · simp only [Function.update_of_ne hc]
      exact h.counter c
  exact {
    split := h.split
    sub := h.sub
    order := ⟨pending, horder, holds_submit hrun hheld⟩
    drops := h.drops
    counter := hcounter
    metric := h.metric
    read := h.read }

/-- What `rb.next()` returns is the oldest record, as it was captured. -/
theorem take_spec (h : RingInv s) {slot : Slot cpus} {rest : List (Slot cpus)} {item : List UInt8}
    (hs : s.events = slot :: rest) (hi : slot.item = some item) (drained : Nat) :
    ∃ e pending, s.captured.map (fun e => eventOf e.1 e.2) = s.delivered ++ e :: pending ∧
      List.Forall₂ (Holds s.running) rest pending ∧ s.take item rest drained =
        { s with events := rest, draining := some (drained + 1),
                 delivered := s.delivered ++ [e] } := by
  obtain ⟨pending, horder, hheld⟩ := h.order
  rw [hs] at hheld
  obtain ⟨e, pending', he, hrest, rfl⟩ := List.forall₂_cons_left_iff.mp hheld
  obtain rfl := he.1 item hi
  refine ⟨e, pending', horder, hrest, ?_⟩
  unfold RingState.take
  rw [read_bytes]

theorem ringInv_take (h : RingInv s) {slot : Slot cpus} {rest : List (Slot cpus)}
    {item : List UInt8} (hs : s.events = slot :: rest) (hi : slot.item = some item)
    (drained : Nat) : RingInv (s.take item rest drained) := by
  obtain ⟨e, pending, horder, hheld, heq⟩ := take_spec h hs hi drained
  rw [heq]
  exact {
    split := h.split
    sub := h.sub
    order := ⟨pending, by rw [List.append_assoc]; exact horder, hheld⟩
    drops := h.drops
    counter := h.counter
    metric := h.metric
    read := h.read }

/-- **A round of the monitor** brings the metric to the drops it read. -/
theorem monitor_spec (h : RingInv s) (hfit : s.dropped.length < 2 ^ 64) :
    s.monitor.ringDropsTotal = s.dropped.length := by
  have htotal : s.totalDrops.toNat = s.dropped.length := by
    rw [totalDrops_eq h.drops, UInt64.toNat_ofNat']
    exact Nat.mod_eq_of_lt hfit
  have hmetric := h.metric
  have hread := h.read
  unfold RingState.monitor
  rw [htotal]
  by_cases hrose : s.prevTotal < s.dropped.length
  · rw [if_pos (by omega), if_pos (by omega)]
    show s.ringDropsTotal + (s.dropped.length - s.prevTotal) = s.dropped.length
    omega
  · have hstay : ¬s.dropped.length - s.prevTotal > 0 := by omega
    simp only [if_neg hstay, ite_self]
    omega

theorem ringInv_monitor (h : RingInv s) : RingInv s.monitor := by
  have hread : s.totalDrops.toNat ≤ s.dropped.length := by
    rw [totalDrops_eq h.drops, UInt64.toNat_ofNat']
    exact Nat.mod_le _ _
  have hmetric := h.metric
  unfold RingState.monitor
  simp only
  split
  · split
    · refine ⟨h.split, h.sub, h.order, h.drops, h.counter, ?_, hread⟩
      show s.ringDropsTotal + (s.totalDrops.toNat - s.prevTotal) = s.totalDrops.toNat
      omega
    · exact h
  · exact h

theorem ringInv_step (h : RingInv s) (hstep : Step capacity s s') : RingInv s' := by
  cases hstep with
  | exec cpu x idle => exact ringInv_reserve h idle
  | submit cpu x hrun => exact ringInv_submit h hrun
  | drain => exact ⟨h.split, h.sub, h.order, h.drops, h.counter, h.metric, h.read⟩
  | next _ _ hs hi => exact ringInv_take h hs hi _
  | drained => exact ⟨h.split, h.sub, h.order, h.drops, h.counter, h.metric, h.read⟩
  | monitor => exact ringInv_monitor h
  | unread => exact h

theorem ringInv_run (run : ReflTransGen (Step capacity) (.start cpus) s) : RingInv s := by
  induction run with
  | refl => exact ringInv_start cpus
  | tail _ hstep ih => exact ringInv_step ih hstep

/-- The main loop has been given the first execs captured, as their programs saw them. -/
theorem RingInv.delivered_eq (h : RingInv s) : s.delivered =
    (s.captured.take s.delivered.length).map (fun e => eventOf e.1 e.2) := by
  obtain ⟨pending, horder, -⟩ := h.order
  rw [List.map_take, horder, List.take_left]

/-- The ring has the others. -/
theorem RingInv.length_eq (h : RingInv s) :
    s.captured.length = s.delivered.length + s.events.length := by
  obtain ⟨pending, horder, hheld⟩ := h.order
  have hlen := congrArg List.length horder
  rwa [List.length_map, List.length_append, ← hheld.length_eq] at hlen

/-- **Every exec is delivered, in the ring or counted.** In every run, over any interleaving of the
programs of all CPUs with the drains and the monitor: each exec is captured or dropped; of the
captured ones the main loop has been given the first ones, in their order and as their programs saw
them, and the ring has the others; each CPU's counter is the number of its drops, the next record of
a CPU is submitted with flag 0 exactly if it is a 64th one, and a round of the monitor brings the
metric to the drops so far. -/
theorem execs_in_order (run : ReflTransGen (Step capacity) (.start cpus) s) :
    s.execs.Perm (s.captured ++ s.dropped) ∧ s.captured.Sublist s.execs ∧
      s.captured.length = s.delivered.length + s.events.length ∧
      s.delivered =
        (s.captured.take s.delivered.length).map (fun e => eventOf e.1 e.2) ∧
      (∀ cpu, s.ringDrops cpu = UInt64.ofNat ((s.dropped.map Prod.fst).count cpu)) ∧
      (∀ cpu, wakeupFlag (s.wakeupCounter cpu + 1) = 0 ↔ (s.submits cpu + 1) % 64 = 0) ∧
      s.ringDropsTotal ≤ s.dropped.length ∧
      (s.dropped.length < 2 ^ 64 → s.monitor.ringDropsTotal = s.dropped.length) := by
  have h := ringInv_run run
  exact ⟨h.split, h.sub, h.length_eq, h.delivered_eq, h.drops,
    fun cpu => wakeupFlag_iff (h.counter cpu), h.metric ▸ h.read, monitor_spec h⟩

/-- Two execs, and room for one. -/
theorem execs_in_order_full : ∃ (s : RingState 2) (x : Exec),
    ReflTransGen (Step 1) (.start 2) s ∧ s.delivered = [eventOf (0 : Fin 2) x] ∧
      s.ringDrops 1 = 1 ∧ s.monitor.ringDropsTotal = 1 := by
  let x : Exec := ⟨0x200000001, 7, 10, none⟩
  let s₁ := (RingState.start 2).reserve 1 0 x
  let s₂ := s₁.reserve 1 1 x
  let s₃ := s₂.submit 0 x
  have run : ReflTransGen (Step 1) (.start 2) (s₃.drain.take (eventOf (0 : Fin 2) x).bytes [] 0) :=
    ((((ReflTransGen.refl.tail (.exec 0 x rfl)).tail (.exec 1 x rfl)).tail
      (.submit 0 x rfl)).tail (.drain rfl)).tail (.next rfl (by decide) rfl rfl)
  obtain ⟨-, -, -, hdelivered, hdrops, -, -, hmonitor⟩ := execs_in_order run
  exact ⟨_, x, run, hdelivered, hdrops 1, hmonitor (by decide)⟩

/-! ## A drain that keeps up -/

/-- Fewer than `rate` execs have come in this epoch, and a drain begins once the programs of the
epochs before have submitted. -/
def KeepsUp (rate : Nat) (s s' : RingState cpus) : Prop :=
  (s'.execs ≠ s.execs → s.arrivals < rate) ∧
    (s'.epoch ≠ s.epoch → ∀ slot ∈ s.events, slot.epoch < s.epoch → slot.item ≠ none)

/-- A step that meets the condition. -/
def PacedStep (capacity rate : Nat) (s s' : RingState cpus) : Prop :=
  Step capacity s s' ∧ KeepsUp rate s s'

/-- The epochs of the records, the oldest first. -/
def ages (s : RingState cpus) : List Nat := s.events.map Slot.epoch

/-- **What a paced run keeps.** In a drain the records of the epoch before the last are submitted,
and are not more than it may still take. -/
structure PacedInv (rate : Nat) (s : RingState cpus) : Prop where
  dropped : s.dropped = []
  arrivals : s.arrivals ≤ rate
  fresh : (ages s).count s.epoch ≤ s.arrivals
  last : ∀ k, k + 1 = s.epoch → (ages s).count k ≤ rate
  reserved : ∀ k ∈ ages s, k ≤ s.epoch
  sorted : (ages s).Pairwise (· ≤ ·)
  waiting : s.draining = none → ∀ k ∈ ages s, s.epoch ≤ k + 1
  draining : ∀ n, s.draining = some n → (∀ k ∈ ages s, s.epoch ≤ k + 2) ∧
    (∀ slot ∈ s.events, slot.epoch + 2 = s.epoch → slot.item ≠ none) ∧
    ∀ k, k + 2 = s.epoch → k ∈ ages s → (ages s).count k + n ≤ rate

variable {rate : Nat}

theorem length_le_sum {l : List Nat} : ∀ {ks : List Nat}, (∀ x ∈ l, x ∈ ks) →
    l.length ≤ (ks.map fun k => l.count k).sum := by
  intro ks
  induction ks generalizing l with
  | nil =>
    intro h
    rw [List.eq_nil_iff_forall_not_mem.mpr fun x hx => List.not_mem_nil (h x hx)]
    exact Nat.le_refl 0
  | cons k ks ih =>
    intro h
    have hrest := @ih (l.filter fun x => !(x == k)) fun x hx => by
      obtain ⟨hx, hne⟩ := List.mem_filter.mp hx
      exact (List.mem_cons.mp (h x hx)).resolve_left (by simpa using hne)
    have hle : (ks.map fun j => (l.filter fun x => !(x == k)).count j).sum ≤
        (ks.map fun j => l.count j).sum :=
      List.sum_le_sum fun j _ => List.Sublist.count_le j List.filter_sublist
    have hsplit : l.length = l.count k + (l.filter fun x => !(x == k)).length := by
      rw [List.count_eq_length_filter]
      exact List.length_eq_length_filter_add _
    rw [List.map_cons, List.sum_cons]
    omega

/-- The ring has the records of three epochs at most. -/
theorem PacedInv.length_lt (h : PacedInv rate s) (hroom : s.arrivals < rate) :
    s.events.length < 3 * rate := by
  have hfresh := h.fresh
  have hnear : ∀ k ∈ ages s, k ∈ [s.epoch, s.epoch - 1, s.epoch - 2] := by
    intro k hk
    have hle := h.reserved k hk
    have hage : s.epoch ≤ k + 2 := by
      cases hd : s.draining with
      | none =>
        have := h.waiting hd k hk
        omega
      | some n => exact (h.draining n hd).1 k hk
    simp only [List.mem_cons, List.not_mem_nil, or_false]
    omega
  have hlast : (ages s).count (s.epoch - 1) ≤ rate := by
    by_cases h0 : s.epoch = 0
    · have he : s.epoch - 1 = s.epoch := by omega
      rw [he]
      omega
    · exact h.last _ (by omega)
  have hold : (ages s).count (s.epoch - 2) ≤ rate := by
    by_cases h1 : s.epoch ≤ 1
    · have he : s.epoch - 2 = s.epoch - 1 := by omega
      rw [he]
      exact hlast
    · by_cases hmem : s.epoch - 2 ∈ ages s
      · cases hd : s.draining with
        | none =>
          have := h.waiting hd _ hmem
          omega
        | some n =>
          have := (h.draining n hd).2.2 _ (by omega) hmem
          omega
      · rw [List.count_eq_zero_of_not_mem hmem]
        exact Nat.zero_le _
  have hsum := length_le_sum hnear
  simp only [List.map_cons, List.map_nil, List.sum_cons, List.sum_nil] at hsum
  have hlen : (ages s).length = s.events.length := List.length_map _
  omega

theorem pacedInv_start (rate cpus : Nat) : PacedInv rate (.start cpus) where
  dropped := rfl
  arrivals := Nat.zero_le _
  fresh := Nat.le_refl 0
  last := fun _ _ => Nat.zero_le _
  reserved := fun _ h => absurd h List.not_mem_nil
  sorted := .nil
  waiting := fun _ _ h => absurd h List.not_mem_nil
  draining := fun _ h => (by cases h)

theorem pacedInv_reserve (h : PacedInv rate s) (hcap : 3 * rate ≤ capacity)
    (hroom : s.arrivals < rate) : PacedInv rate (s.reserve capacity cpu x) := by
  have hlt : s.events.length < capacity := Nat.lt_of_lt_of_le (h.length_lt hroom) hcap
  unfold RingState.reserve
  simp only [if_pos hlt]
  have hages : ages { s with
      execs := s.execs ++ [(cpu, x)], arrivals := s.arrivals + 1
      events := s.events ++ [⟨cpu, s.epoch, none⟩]
      running := Function.update s.running cpu (some x)
      captured := s.captured ++ [(cpu, x)] } = ages s ++ [s.epoch] := List.map_append ..
  have hcount : ∀ k, k ≠ s.epoch → (ages s ++ [s.epoch]).count k = (ages s).count k := by
    intro k hk
    have hnone : [s.epoch].count k = 0 := List.count_eq_zero_of_not_mem (by simpa using hk)
    rw [List.count_append, hnone, Nat.add_zero]
  refine ⟨h.dropped, hroom, ?_, ?_, ?_, ?_, ?_, ?_⟩
  · rw [hages, List.count_append]
    simpa using h.fresh
  · intro k hk
    rw [hages, hcount k (by simp only at hk; omega)]
    exact h.last k hk
  · rw [hages]
    intro k hk
    rcases List.mem_append.mp hk with hk | hk
    · exact h.reserved k hk
    · exact Nat.le_of_eq (List.mem_singleton.mp hk)
  · rw [hages]
    refine List.pairwise_append.mpr ⟨h.sorted, List.pairwise_singleton _ _, fun k hk j hj => ?_⟩
    rw [List.mem_singleton.mp hj]
    exact h.reserved k hk
  · rw [hages]
    intro hd k hk
    rcases List.mem_append.mp hk with hk | hk
    · exact h.waiting hd k hk
    · rw [List.mem_singleton.mp hk]
      exact Nat.le_succ _
  · intro n hd
    obtain ⟨hage, hsubmitted, hcountle⟩ := h.draining n hd
    rw [hages]
    refine ⟨fun k hk => ?_, fun slot hslot he => ?_, fun k hk hmem => ?_⟩
    · rcases List.mem_append.mp hk with hk | hk
      · exact hage k hk
      · rw [List.mem_singleton.mp hk]
        exact Nat.le_add_right _ 2
    · rcases List.mem_append.mp hslot with hslot | hslot
      · exact hsubmitted slot hslot he
      · rw [List.mem_singleton.mp hslot] at he
        simp only at he
        omega
    · have hne : k ≠ s.epoch := by
        simp only at hk
        omega
      rw [hcount k hne]
      refine hcountle k hk ((List.mem_append.mp hmem).resolve_right fun hk => ?_)
      exact hne (List.mem_singleton.mp hk)

theorem epoch_commit (cpu : Fin cpus) (item : List UInt8) (slot : Slot cpus) :
    (RingState.commit cpu item slot).epoch = slot.epoch := by
  unfold RingState.commit
  split <;> rfl

theorem item_commit {cpu : Fin cpus} {item : List UInt8} {slot : Slot cpus}
    (h : slot.item ≠ none) : (RingState.commit cpu item slot).item ≠ none := by
  unfold RingState.commit
  rw [if_neg fun hmine => h hmine.2]
  exact h

theorem pacedInv_submit (h : PacedInv rate s) : PacedInv rate (s.submit cpu x) := by
  have hages : ages (s.submit cpu x) = ages s := by
    unfold ages RingState.submit
    rw [List.map_map]
    exact List.map_congr_left fun slot _ => epoch_commit _ _ slot
  refine ⟨h.dropped, h.arrivals, hages ▸ h.fresh, fun k hk => hages ▸ h.last k hk,
    hages ▸ h.reserved, hages ▸ h.sorted, hages ▸ h.waiting, fun n hd => ?_⟩
  obtain ⟨hage, hsubmitted, hcount⟩ := h.draining n hd
  refine ⟨hages ▸ hage, fun slot hslot he => ?_, hages ▸ hcount⟩
  obtain ⟨slot, hmem, rfl⟩ := List.mem_map.mp hslot
  rw [epoch_commit] at he
  exact item_commit (hsubmitted slot hmem he)

/-- A new epoch: the records of the last one may be waited for, those before it are submitted. -/
theorem pacedInv_drain (h : PacedInv rate s) (hd : s.draining = none)
    (submitted : ∀ slot ∈ s.events, slot.epoch < s.epoch → slot.item ≠ none) :
    PacedInv rate s.drain where
  dropped := h.dropped
  arrivals := Nat.zero_le _
  fresh := by
    have hnone : (ages s).count (s.epoch + 1) = 0 := List.count_eq_zero_of_not_mem fun hk => by
      have := h.reserved _ hk
      omega
    exact Nat.le_of_eq hnone
  last := by
    intro k hk
    obtain rfl : k = s.epoch := Nat.succ.inj hk
    exact Nat.le_trans h.fresh h.arrivals
  reserved := fun k hk => Nat.le_succ_of_le (h.reserved k hk)
  sorted := h.sorted
  waiting := fun hn => (by cases hn)
  draining := by
    intro n hn
    obtain rfl : 0 = n := Option.some.inj hn
    refine ⟨fun k hk => Nat.succ_le_succ (h.waiting hd k hk), fun slot hslot he => ?_,
      fun k hk _ => h.last k (Nat.succ.inj hk)⟩
    have he : slot.epoch + 1 = s.epoch := Nat.succ.inj he
    exact submitted slot hslot (by omega)

theorem pacedInv_take (h : PacedInv rate s) (hring : RingInv s) {n : Nat} {slot : Slot cpus}
    {rest : List (Slot cpus)} {item : List UInt8} (hd : s.draining = some n)
    (hs : s.events = slot :: rest) (hi : slot.item = some item) :
    PacedInv rate (s.take item rest n) := by
  obtain ⟨e, -, -, -, heq⟩ := take_spec hring hs hi n
  have hages : ages s = slot.epoch :: rest.map Slot.epoch := by
    unfold ages
    rw [hs, List.map_cons]
  have hsub : (rest.map Slot.epoch).Sublist (ages s) := hages ▸ List.sublist_cons_self _ _
  obtain ⟨hage, hsubmitted, hcount⟩ := h.draining n hd
  have hsorted := h.sorted
  rw [hages, List.pairwise_cons] at hsorted
  rw [heq]
  refine ⟨h.dropped, h.arrivals, Nat.le_trans (hsub.count_le _) h.fresh,
    fun k hk => Nat.le_trans (hsub.count_le k) (h.last k hk),
    fun k hk => h.reserved k (hsub.subset hk), hsorted.2, fun hn => (by cases hn), ?_⟩
  intro m hm
  obtain rfl : n + 1 = m := Option.some.inj hm
  refine ⟨fun k hk => hage k (hsub.subset hk),
    fun slot' hslot => hsubmitted slot' (hs ▸ List.mem_cons_of_mem _ hslot), fun k hk hmem => ?_⟩
  -- the oldest record is of the same epoch, and was one of them
  have hfirst : slot.epoch = k := by
    have hle := hsorted.1 k hmem
    have hge : s.epoch ≤ slot.epoch + 2 := hage _ (hages ▸ List.mem_cons_self)
    have hk : k + 2 = s.epoch := hk
    omega
  have hcountle := hcount k hk (hsub.subset hmem)
  rw [hages, hfirst, List.count_cons_self] at hcountle
  have : (rest.map Slot.epoch).count k + (n + 1) ≤ rate := by omega
  exact this

/-- A drain ends with nothing of the epoch before the last in the ring. -/
theorem pacedInv_drained (h : PacedInv rate s) (hrate : rate ≤ drainBudget) {n : Nat}
    (hd : s.draining = some n)
    (stop : n ≥ drainBudget ∨ ∀ slot ∈ s.events.head?, slot.item = none) :
    PacedInv rate { s with draining := none } := by
  obtain ⟨hage, hsubmitted, hcount⟩ := h.draining n hd
  refine ⟨h.dropped, h.arrivals, h.fresh, h.last, h.reserved, h.sorted, fun _ k hk => ?_,
    fun m hm => (by cases hm)⟩
  by_contra hold
  have hk2 : k + 2 = s.epoch := by
    have := hage k hk
    simp only at hold
    omega
  rcases stop with hbudget | hhead
  · have hpos : 0 < (ages s).count k := List.count_pos_iff.mpr hk
    have := hcount k hk2 hk
    omega
  · -- the oldest record is of that epoch, so it is submitted
    cases hevents : s.events with
    | nil =>
      unfold ages at hk
      rw [hevents] at hk
      cases hk
    | cons slot rest =>
      have hmem : slot ∈ s.events := hevents ▸ List.mem_cons_self
      have hfirst : slot.epoch ≤ k := by
        have hsorted := h.sorted
        unfold ages at hsorted hk
        rw [hevents, List.map_cons] at hsorted hk
        rcases List.mem_cons.mp hk with rfl | hk
        · exact Nat.le_refl _
        · exact (List.pairwise_cons.mp hsorted).1 k hk
      have hge := hage slot.epoch (List.mem_map_of_mem hmem)
      refine hsubmitted slot hmem (by omega) (hhead slot ?_)
      rw [hevents]
      exact rfl

theorem pacedInv_monitor (h : PacedInv rate s) : PacedInv rate s.monitor := by
  unfold RingState.monitor
  simp only
  split
  · split
    · exact ⟨h.dropped, h.arrivals, h.fresh, h.last, h.reserved, h.sorted, h.waiting, h.draining⟩
    · exact h
  · exact h

theorem pacedInv_step (hrate : rate ≤ drainBudget) (hcap : 3 * rate ≤ capacity)
    (h : PacedInv rate s) (hring : RingInv s) (hstep : PacedStep capacity rate s s') :
    PacedInv rate s' := by
  obtain ⟨hstep, hrooms, hsubmitted⟩ := hstep
  cases hstep with
  | exec cpu x idle =>
    refine pacedInv_reserve h hcap (hrooms ?_)
    have hexecs : (s.reserve capacity cpu x).execs = s.execs ++ [(cpu, x)] := by
      unfold RingState.reserve
      simp only
      split <;> rfl
    rw [hexecs]
    exact fun e => List.append_ne_nil_of_right_ne_nil [] (List.cons_ne_nil _ _)
      (List.append_cancel_left (e.trans (List.append_nil _).symm))
  | submit cpu x hrun => exact pacedInv_submit h
  | drain hd => exact pacedInv_drain h hd (hsubmitted (Nat.succ_ne_self _))
  | next hd _ hs hi => exact pacedInv_take h hring hd hs hi
  | drained hd stop => exact pacedInv_drained h hrate hd stop
  | monitor => exact pacedInv_monitor h
  | unread => exact h

/-- **A drain that keeps up loses nothing.** In every run in which at most `rate` execs come from
one drain to the next, and a program submits its record by the drain after the next: with `rate`
within the budget of a drain and room for three times as many records no exec is dropped, so that
every one of them is delivered or still in the ring, and the metric stays at zero. -/
theorem paced_never_drops (hrate : rate ≤ drainBudget) (hcap : 3 * rate ≤ capacity)
    (run : ReflTransGen (PacedStep capacity rate) (.start cpus) s) :
    s.dropped = [] ∧ s.execs.Perm s.captured ∧
      s.execs.length = s.delivered.length + s.events.length ∧ s.ringDropsTotal = 0 := by
  have hboth : RingInv s ∧ PacedInv rate s := by
    induction run with
    | refl => exact ⟨ringInv_start cpus, pacedInv_start rate cpus⟩
    | tail _ hstep ih =>
      exact ⟨ringInv_step ih.1 hstep.1, pacedInv_step hrate hcap ih.2 ih.1 hstep⟩
  obtain ⟨hring, hpaced⟩ := hboth
  have hsplit := hring.split
  rw [hpaced.dropped, List.append_nil] at hsplit
  have hmetric := hring.metric ▸ hring.read
  rw [hpaced.dropped] at hmetric
  exact ⟨hpaced.dropped, hsplit, hsplit.length_eq.trans hring.length_eq,
    Nat.eq_zero_of_le_zero hmetric⟩

/-- With the default ring, 256 execs may come from one drain to the next. Two CPUs, an exec in each
of two epochs, and a drain that takes a record while the other program has not submitted. -/
theorem paced_never_drops_two : ∃ (s : RingState 2) (x : Exec),
    ReflTransGen (PacedStep (ringCapacity (512 * 1024)) drainBudget) (.start 2) s ∧
      s.execs.length = 2 ∧ s.delivered = [eventOf (0 : Fin 2) x] ∧ s.events.length = 1 ∧
      s.dropped = [] ∧ s.ringDropsTotal = 0 := by
  let x : Exec := ⟨0x200000001, 7, 10, none⟩
  let capacity := ringCapacity (512 * 1024)
  let s₁ := (RingState.start 2).reserve capacity 0 x
  let s₂ := s₁.submit 0 x
  let s₃ := s₂.drain
  let s₄ := s₃.reserve capacity 1 x
  let s₅ := s₄.take (eventOf (0 : Fin 2) x).bytes [⟨1, 1, none⟩] 0
  have hexec : PacedStep capacity drainBudget (.start 2) s₁ :=
    ⟨.exec 0 x rfl, fun _ => by decide, fun h => absurd rfl h⟩
  have hsubmit : PacedStep capacity drainBudget s₁ s₂ :=
    ⟨.submit 0 x rfl, fun h => absurd rfl h, fun h => absurd rfl h⟩
  have hdrain : PacedStep capacity drainBudget s₂ s₃ :=
    ⟨.drain rfl, fun h => absurd rfl h, fun _ slot _ h => absurd h (Nat.not_lt_zero _)⟩
  have hagain : PacedStep capacity drainBudget s₃ s₄ :=
    ⟨.exec 1 x rfl, fun _ => by decide, fun h => absurd rfl h⟩
  have htake : PacedStep capacity drainBudget s₄ s₅ :=
    ⟨.next rfl (by decide) rfl rfl, fun h => absurd rfl h, fun h => absurd rfl h⟩
  have run : ReflTransGen (PacedStep capacity drainBudget) (.start 2) s₅ :=
    ((((ReflTransGen.refl.tail hexec).tail hsubmit).tail hdrain).tail hagain).tail htake
  obtain ⟨hdropped, -, hlen, hmetric⟩ :=
    paced_never_drops (Nat.le_refl _) (by decide : 3 * drainBudget ≤ capacity) run
  have htaken : s₅ = { s₄ with
      events := [⟨1, 1, none⟩], draining := some 1, delivered := [eventOf (0 : Fin 2) x] } := by
    show s₄.take _ _ _ = _
    unfold RingState.take
    rw [read_bytes]
    rfl
  have hdelivered : s₅.delivered = [eventOf (0 : Fin 2) x] := by rw [htaken]
  have hevents : s₅.events.length = 1 := by rw [htaken]; rfl
  rw [hdelivered, hevents] at hlen
  exact ⟨s₅, x, run, hlen, hdelivered, hevents, hdropped, hmetric⟩

end Statix.Capture
