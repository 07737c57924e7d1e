import Statix.Rollup.Buffers
import Statix.Rollup.MainLoop

/-!
# How many rows a batch has

The early flush bounds a batch by `max_keys` rows (`statix/src/aggregator.rs`): one for each cgroup
touched in its window.

* `bounded_call`, **`bounded_run`**: at most `max_keys` rows, by one call and over whole runs.
* `length_workloads`: as many as cgroups were touched.
* `execs_flush`: execs in fewer than `max_keys` cgroups and a flush give a batch with all of them.
-/

namespace Statix.Rollup

/-- The cgroups touched in a window. -/
def touchedIn (w : List Call) : Finset Nat :=
  ((w.filterMap Call.touch?).map Touch.cgroupId).toFinset

variable {env : Env} {a : Aggregator} {w : List Call}

/-- What a call leaves: fewer than `m` keys, and at most `m` rows in the batch it returns. -/
structure Bounded (m : Nat) (r : Aggregator × Option BatchPayload) : Prop where
  maxKeys : r.1.maxKeys = m
  keys : r.1.activeLen < m
  rows : ∀ p, r.2 = some p → p.workloads.length ≤ m

/-- A batch has a row for each key. -/
theorem length_flush {node : String} {p : BatchPayload} (h : (a.flush env node).2 = some p) :
    p.workloads.length = a.activeLen := by
  unfold Aggregator.flush at h
  simp only at h
  split at h
  · cases h
  · rw [← Option.some.inj h]
    exact List.length_map _

/-- **One call.** -/
theorem bounded_call (env : Env) (h : AggregatorInv a w) (hlt : a.activeLen < a.maxKeys)
    (c : Call) : Bounded a.maxKeys (a.call env c) := by
  obtain ⟨hs, hp⟩ := call_settles env ⟨rfl, hlt, h.other⟩ c
  exact ⟨hs.maxKeys, hs.active, fun p e => (hp p e).le⟩

/-- **Whole runs.** -/
theorem bounded_run (env : Env) (calls : List Call) : ∀ {a : Aggregator} {w : List Call},
    AggregatorInv a w → a.activeLen < a.maxKeys →
    ∀ p ∈ batches (a.run env calls).2, p.workloads.length ≤ a.maxKeys := by
  induction calls with
  | nil => exact fun _ _ p hp => absurd hp List.not_mem_nil
  | cons c rest ih =>
    intro a w h hlt p hp
    have hb := bounded_call env h hlt c
    obtain ⟨w', h'⟩ : ∃ w', AggregatorInv (a.call env c).1 w' := by
      rcases call_spec env h c with ⟨-, h'⟩ | ⟨b, -, -, h'⟩
      · exact ⟨_, h'⟩
      · exact ⟨_, h'⟩
    have hrest := ih h' (by rw [hb.maxKeys]; exact hb.keys)
    rw [hb.maxKeys] at hrest
    have hmem : (a.call env c).2 = some p ∨ p ∈ batches ((a.call env c).1.run env rest).2 := by
      unfold batches at hp
      rw [List.mem_filterMap] at hp
      obtain ⟨e, he, hep⟩ := hp
      rcases List.mem_cons.mp he with rfl | he
      · exact Or.inl hep
      · exact Or.inr (List.mem_filterMap.mpr ⟨e, he, hep⟩)
    rcases hmem with hout | hin
    · exact hb.rows p hout
    · exact hrest p hin

/-- A batch has as many rows as cgroups were touched in its window. -/
theorem length_workloads {p : BatchPayload} (h : IsRollup w p) :
    p.workloads.length = (touchedIn w).card := by
  have hids : touchedIn w = (p.workloads.map WorkloadRow.cgroupId).toFinset := by
    ext c
    have htouched : c ∈ touchedIn w ↔ touches c w ≠ [] := by
      unfold touchedIn touches
      rw [List.mem_toFinset, List.mem_map, Ne, List.filter_eq_nil_iff]
      simp only [not_forall, decide_eq_true_eq, not_not, exists_prop]
    rw [htouched, List.mem_toFinset, List.mem_map]
    constructor
    · intro hc
      exact ⟨_, (h.rows _).mpr ⟨c, hc, rfl⟩, rfl⟩
    · rintro ⟨row, hrow, rfl⟩
      obtain ⟨c, hc, rfl⟩ := (h.rows row).mp hrow
      exact hc
  rw [hids, List.toFinset_card_of_nodup h.distinct, List.length_map]

/-! ## Execs and a flush -/

/-- One exec in each cgroup below `k`. -/
def execs (k : Nat) : List Call := (List.range k).map fun c => .event (execEvent c) {} "n"

theorem execs_run (env : Env) : ∀ k, k < defaultMaxKeys →
    let r := Aggregator.run env (.new env) (execs k)
    batches r.2 = [] ∧ (∃ w, AggregatorInv r.1 w) ∧ r.1.activeKeys = Finset.range k ∧
      r.1.maxKeys = defaultMaxKeys := by
  intro k
  induction k with
  | zero => exact fun _ => ⟨rfl, ⟨[], aggregatorInv_new env defaultMaxKeys⟩, rfl, rfl⟩
  | succ k ih =>
    intro hk
    obtain ⟨hout, ⟨w, hinv⟩, hkeys, hmax⟩ := ih (Nat.lt_of_succ_lt hk)
    have hi := ingest_spec env hinv k (.addExec {}) "n"
    have hins : insert k (Finset.range k) = Finset.range (k + 1) := Finset.range_add_one.symm
    obtain ⟨hnone, hnext⟩ := hi.kept (by rw [hkeys, hins, Finset.card_range, hmax]; exact hk)
    have hsnoc : execs (k + 1) = execs k ++ [.event (execEvent k) {} "n"] := by
      unfold execs
      rw [List.range_succ, List.map_append]
      rfl
    rw [hsnoc, run_append]
    refine ⟨?_, run_inv env hinv [.event (execEvent k) {} "n"],
      hnext.trans (by rw [hkeys, hins]), hi.maxKeys.trans hmax⟩
    rw [batches_append, hout]
    exact congrArg Option.toList hnone

/-- **Execs and a flush.** -/
theorem execs_flush (env : Env) {k : Nat} (hpos : 0 < k) (hk : k < defaultMaxKeys) :
    ∃ p, batches (Aggregator.run env (.new env) (execs k ++ [.flush "n"])).2 = [p] ∧
      p.workloads.length = k := by
  obtain ⟨hout, -, hkeys, -⟩ := execs_run env k hk
  have hlen : (Aggregator.run env (.new env) (execs k)).1.activeLen = k := by
    rw [← card_activeKeys, hkeys, Finset.card_range]
  have hsome : ((Aggregator.run env (.new env) (execs k)).1.flush env "n").2.isSome = true := by
    unfold Aggregator.flush
    simp only
    split
    · rename_i hnil
      unfold Aggregator.activeLen at hlen
      rw [hnil] at hlen
      exact absurd hlen (Nat.ne_of_lt hpos)
    · rfl
  obtain ⟨p, hp⟩ := Option.isSome_iff_exists.mp hsome
  refine ⟨p, ?_, (length_flush hp).trans hlen⟩
  rw [run_append, batches_append, hout]
  exact congrArg Option.toList hp

end Statix.Rollup
