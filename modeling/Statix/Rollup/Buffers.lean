import Statix.Rollup.Pairing

/-!
# The two buffers

An entry is made by one of the three ingest paths, and every one of them ends in `try_early_flush`;
a flush flips the maps, drains the old one and clears it (`statix/src/aggregator.rs`).

* `Operation`: the public operations of an aggregator.
* `Settled`: what each of them leaves of the two maps.
* `flush_settles`, `updateEntry_settles`: the two ways the maps change.
* **`buffers_settled`**: after every operation of every run, with what a batch looks like.
-/

namespace Statix.Rollup

/-- A public operation: a call, or `try_early_flush` itself. -/
inductive Operation where
  | call (c : Call)
  | tryEarlyFlush (node : String)
  deriving DecidableEq

/-- One operation. -/
def Aggregator.perform (env : Env) (a : Aggregator) : Operation → Aggregator × Option BatchPayload
  | .call c => a.call env c
  | .tryEarlyFlush node => a.tryEarlyFlush env node

/-- What a run of operations leaves. -/
def Aggregator.performAll (env : Env) (a : Aggregator) (ops : List Operation) : Aggregator :=
  ops.foldl (fun a op => (a.perform env op).1) a

/-- **Between two operations**: the active map has room for one more key, the other one is empty. -/
structure Settled (m : Nat) (a : Aggregator) : Prop where
  maxKeys : a.maxKeys = m
  active : a.activeLen < m
  other : a.buffers (1 - a.active) = ∅

/-- A batch of one to `m` rows, one for each cgroup. -/
structure SizedBatch (m : Nat) (p : BatchPayload) : Prop where
  nonempty : 1 ≤ p.workloads.length
  le : p.workloads.length ≤ m
  distinct : (p.workloads.map WorkloadRow.cgroupId).Nodup

/-- What an operation leaves and returns. -/
def Settles (m : Nat) (r : Aggregator × Option BatchPayload) : Prop :=
  Settled m r.1 ∧ ∀ p, r.2 = some p → SizedBatch m p

variable {env : Env} {a : Aggregator} {m : Nat}

/-- The ids of the rows are the keys of the map. -/
theorem rowsOf_ids (b : Buffer) :
    (Aggregator.rowsOf b).map WorkloadRow.cgroupId = b.keys := by
  unfold Aggregator.rowsOf
  rw [List.map_map]
  rfl

/-- **A flush**, of a map that may have reached the limit. -/
theorem flush_settles (env : Env) (hmax : a.maxKeys = m) (hpos : 1 ≤ m) (hle : a.activeLen ≤ m)
    (hother : a.buffers (1 - a.active) = ∅) (node : String) : Settles m (a.flush env node) := by
  unfold Aggregator.flush
  simp only
  split
  · rename_i hempty
    refine ⟨⟨hmax, ?_, hother⟩, fun p hp => nomatch hp⟩
    show (a.buffers a.active).entries.length < m
    rw [hempty]
    exact hpos
  · rename_i hne
    -- the map that was empty is the active one now, and the drained one is cleared
    have hnext : Function.update a.buffers a.active ∅ (1 - a.active) = ∅ :=
      (update_one_sub _ _ _).trans hother
    have hdrained : Function.update a.buffers a.active ∅ (1 - (1 - a.active)) = ∅ := by
      rw [one_sub_one_sub, Function.update_self]
    refine ⟨⟨hmax, ?_, hdrained⟩, fun p hp => ?_⟩
    · show (Function.update a.buffers a.active ∅ (1 - a.active)).entries.length < m
      rw [hnext]
      exact hpos
    · obtain rfl := Option.some.inj hp
      have hlen : (Aggregator.rowsOf (a.buffers a.active)).length = a.activeLen := List.length_map _
      refine ⟨?_, hlen.trans_le hle, ?_⟩
      · exact hlen.symm ▸ List.length_pos_of_ne_nil hne
      · exact (rowsOf_ids _).symm ▸ (a.buffers a.active).keys_nodup

theorem tryEarlyFlush_settles (env : Env) (hmax : a.maxKeys = m) (hpos : 1 ≤ m)
    (hle : a.activeLen ≤ m) (hother : a.buffers (1 - a.active) = ∅) (node : String) :
    Settles m (a.tryEarlyFlush env node) := by
  unfold Aggregator.tryEarlyFlush
  split
  · exact flush_settles env hmax hpos hle hother node
  · rename_i hlt
    refine ⟨⟨hmax, ?_, hother⟩, fun p hp => nomatch hp⟩
    rw [← hmax]
    exact Nat.lt_of_not_le hlt

/-- An update adds at most one key. -/
theorem activeLen_updateEntry (a : Aggregator) (c : Nat) (f : WorkloadStats → WorkloadStats) :
    (a.updateEntry c f).activeLen ≤ a.activeLen + 1 := by
  rw [← card_activeKeys, ← card_activeKeys, activeKeys_updateEntry]
  exact Finset.card_insert_le _ _

/-- **An ingest path**: the new key may fill the active map, and then it is flushed at once. -/
theorem updateEntry_settles (env : Env) (h : Settled m a) (c : Nat)
    (f : WorkloadStats → WorkloadStats) (node : String) :
    Settles m ((a.updateEntry c f).tryEarlyFlush env node) := by
  have hmax : (a.updateEntry c f).maxKeys = m := h.maxKeys
  have hle : (a.updateEntry c f).activeLen ≤ m :=
    Nat.le_trans (activeLen_updateEntry a c f) h.active
  have hother : (a.updateEntry c f).buffers (1 - (a.updateEntry c f).active) = ∅ :=
    (update_one_sub _ _ _).trans h.other
  exact tryEarlyFlush_settles env hmax (Nat.one_le_of_lt h.active) hle hother node

/-- **One call.** -/
theorem call_settles (env : Env) (h : Settled m a) (c : Call) : Settles m (a.call env c) := by
  have hpos : 1 ≤ m := Nat.one_le_of_lt h.active
  have hle : a.activeLen ≤ m := Nat.le_of_lt h.active
  cases c with
  | event e labels node =>
    show Settles m (a.onStatixEvent env e labels node)
    unfold Aggregator.onStatixEvent
    simp only
    split
    · exact updateEntry_settles env h _ _ node
    · split
      · exact updateEntry_settles env h _ _ node
      · exact tryEarlyFlush_settles env h.maxKeys hpos hle h.other node
  | memorySample c bytes labels node => exact updateEntry_settles env h c _ node
  | cpuSample c delta labels node => exact updateEntry_settles env h c _ node
  | flush node => exact flush_settles env h.maxKeys hpos hle h.other node

/-- **One operation.** -/
theorem perform_settles (env : Env) (h : Settled m a) (op : Operation) :
    Settles m (a.perform env op) := by
  cases op with
  | call c => exact call_settles env h c
  | tryEarlyFlush node =>
    exact tryEarlyFlush_settles env h.maxKeys (Nat.one_le_of_lt h.active)
      (Nat.le_of_lt h.active) h.other node

theorem settled_run (h : Settled m a) (ops : List Operation) :
    Settled m (a.performAll env ops) := by
  induction ops generalizing a with
  | nil => exact h
  | cons op ops ih => exact ih (perform_settles env h op).1

theorem settled_new (env : Env) (hpos : 1 ≤ m) :
    Settled m { Aggregator.new env with maxKeys := m } := ⟨rfl, hpos, rfl⟩

/-- **The buffers are bounded.** In every run of public operations on a new aggregator of any size
limit from one on: each operation leaves fewer than `max_keys` entries in the active map and none in
the other one, and the batch it may return has one to `max_keys` rows, of different cgroups. -/
theorem buffers_settled (env : Env) {maxKeys : Nat} (hpos : 1 ≤ maxKeys) (ops : List Operation)
    (op : Operation) :
    let r := (Aggregator.performAll env { Aggregator.new env with maxKeys := maxKeys } ops).perform
      env op
    r.1.activeLen < maxKeys ∧ r.1.buffers (1 - r.1.active) = ∅ ∧
      ∀ p, r.2 = some p → 1 ≤ p.workloads.length ∧ p.workloads.length ≤ maxKeys ∧
        (p.workloads.map WorkloadRow.cgroupId).Nodup := by
  intro r
  obtain ⟨hs, hp⟩ := perform_settles env (settled_run (settled_new env hpos) ops) op
  exact ⟨hs.active, hs.other, fun p h => ⟨(hp p h).nonempty, (hp p h).le, (hp p h).distinct⟩⟩

/-- The second key fills a map of two: the batch has both rows, and both maps are empty after it. -/
theorem buffers_settled_two :
    let env : Env := ⟨id, fun _ => "b"⟩
    let a : Aggregator := { Aggregator.new env with maxKeys := 2 }
    let r := (Aggregator.performAll env a
      [.tryEarlyFlush "n", .call (.cpuSample 5 1 {} "n")]).perform
      env (.call (.cpuSample 6 1 {} "n"))
    r.2.map (fun p => p.workloads.map WorkloadRow.cgroupId) = some [6, 5] ∧ r.1.activeLen < 2 ∧
      r.1.buffers (1 - r.1.active) = ∅ := by
  intro env a r
  have h := buffers_settled env (by decide : 1 ≤ 2)
    [.tryEarlyFlush "n", .call (.cpuSample 5 1 {} "n")] (.call (.cpuSample 6 1 {} "n"))
  exact ⟨by decide +kernel, h.1, h.2.1⟩

end Statix.Rollup
