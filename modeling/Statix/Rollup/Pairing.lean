import Mathlib.Data.Finset.Card
import Statix.Rollup.Sampler

/-!
# Memory and CPU of one tick

Whether the memory sample and the CPU delta a tick ingests for a cgroup fall into the same window,
and so into the same row. Each of the two calls can flush on its own.

* `ingest_spec`: an ingest call flushes exactly when its cgroup makes `max_keys` keys.
* `Unsplit`: no cgroup with both samples is the one that makes `max_keys` keys. It counts the keys
  the active map has before the tick and those of the readings, anew after each flush.
* **`one_row_per_sample`**: the two samples share a row exactly under that condition.
* `split_at_max_keys`: a tick of 4096 cgroups splits the last one.
-/

namespace Statix.Rollup

variable {env : Env} {a : Aggregator} {w : List Call}

/-! ## When an ingest call flushes -/

/-- The keys of the active map. -/
def Aggregator.activeKeys (a : Aggregator) : Finset Nat := (a.buffers a.active).keys.toFinset

theorem card_activeKeys (a : Aggregator) : a.activeKeys.card = a.activeLen := by
  unfold Aggregator.activeKeys
  rw [List.toFinset_card_of_nodup (AList.keys_nodup _)]
  exact List.length_map _

theorem activeKeys_updateEntry (a : Aggregator) (c : Nat) (f : WorkloadStats → WorkloadStats) :
    (a.updateEntry c f).activeKeys = insert c a.activeKeys := by
  unfold Aggregator.activeKeys
  rw [Aggregator.active_updateEntry]
  ext x
  rw [List.mem_toFinset, ← AList.mem_keys, AList.mem_insert, Finset.mem_insert, List.mem_toFinset,
    AList.mem_keys]

/-- What an ingest call for `c` does to the keys. -/
structure Ingested (c : Nat) (a : Aggregator) (r : Aggregator × Option BatchPayload) : Prop where
  maxKeys : r.1.maxKeys = a.maxKeys
  flushed : a.maxKeys ≤ (insert c a.activeKeys).card → r.2.isSome = true ∧ r.1.activeKeys = ∅
  kept : (insert c a.activeKeys).card < a.maxKeys →
    r.2 = none ∧ r.1.activeKeys = insert c a.activeKeys

/-- **An ingest call flushes exactly when its cgroup makes `max_keys` keys.** -/
theorem ingest_spec (env : Env) (h : AggregatorInv a w) (c : Nat)
    (f : WorkloadStats → WorkloadStats) (node : String) :
    Ingested c a ((a.updateEntry c f).tryEarlyFlush env node) := by
  have hkeys := activeKeys_updateEntry a c f
  have hlen : (a.updateEntry c f).activeLen = (insert c a.activeKeys).card := by
    rw [← card_activeKeys, hkeys]
  have hother : (a.updateEntry c f).buffers (1 - (a.updateEntry c f).active) = ∅ :=
    (update_one_sub _ _ _).trans h.other
  have hne : ((a.updateEntry c f).buffers (a.updateEntry c f).active).entries ≠ [] := by
    intro hnil
    have hc : c ∈ (a.updateEntry c f).activeKeys := by
      rw [hkeys]
      exact Finset.mem_insert_self _ _
    unfold Aggregator.activeKeys AList.keys at hc
    rw [hnil] at hc
    simp at hc
  have hmax : (a.updateEntry c f).maxKeys = a.maxKeys := rfl
  unfold Aggregator.tryEarlyFlush
  rw [hlen, hmax]
  by_cases hfull : (insert c a.activeKeys).card ≥ a.maxKeys
  · rw [if_pos hfull]
    unfold Aggregator.flush
    simp only [if_neg hne]
    refine ⟨rfl, fun _ => ⟨rfl, ?_⟩, fun hlt => absurd hfull (Nat.not_le_of_lt hlt)⟩
    exact congrArg (fun m => (AList.keys m).toFinset) ((update_one_sub _ _ _).trans hother)
  · rw [if_neg hfull]
    exact ⟨rfl, fun hle => absurd hle hfull, fun _ => ⟨rfl, hkeys⟩⟩

/-! ## Calls that share a row -/

/-- In every cgroup, memory samples and CPU samples fall into the same window. -/
def SameRow (calls : List (Nat × Call)) : Prop :=
  ∀ c i j bytes delta l l' node node', (i, Call.memorySample c bytes l node) ∈ calls →
    (j, Call.cpuSample c delta l' node') ∈ calls → i = j

/-- The cgroup of a sample. -/
def Call.sampled? : Call → Option Nat
  | .memorySample c _ _ _ => some c
  | .cpuSample c _ _ _ => some c
  | _ => none

/-- Calls for different cgroups do not concern each other. -/
theorem sameRow_append (xs ys : List (Nat × Call))
    (h : ∀ c, ∀ x ∈ xs, x.2.sampled? = some c → ∀ y ∈ ys, y.2.sampled? ≠ some c) :
    SameRow (xs ++ ys) ↔ SameRow xs ∧ SameRow ys := by
  constructor
  · intro hs
    constructor <;> intro c i j bytes delta l l' n n' hm hc
    · exact hs c i j bytes delta l l' n n' (List.mem_append_left _ hm) (List.mem_append_left _ hc)
    · exact hs c i j bytes delta l l' n n' (List.mem_append_right _ hm) (List.mem_append_right _ hc)
  · rintro ⟨hx, hy⟩ c i j bytes delta l l' n n' hm hc
    rcases List.mem_append.mp hm with hm | hm <;> rcases List.mem_append.mp hc with hc | hc
    · exact hx c i j bytes delta l l' n n' hm hc
    · exact absurd rfl (h c _ hm rfl _ hc)
    · exact absurd rfl (h c _ hc rfl _ hm)
    · exact hy c i j bytes delta l l' n n' hm hc

theorem placed_append (n : Nat) (xs ys : List (Call × Option BatchPayload)) :
    placed n (xs ++ ys) = placed n xs ++ placed (n + (batches xs).length) ys := by
  induction xs generalizing n with
  | nil => rfl
  | cons x xs ih =>
    obtain ⟨c, out⟩ := x
    rw [List.cons_append, placed, placed, ih]
    cases out with
    | none => rfl
    | some b =>
      rw [List.cons_append]
      congr 3
      exact Nat.add_right_comm n 1 _

/-! ## The calls of a tick, reading by reading -/

/-- The calls of one reading over the baseline before the tick. -/
def pairCalls (labels : TickLabels) (b : Baseline) (r : Reading) : List Call :=
  memoryCall labels r ++ cpuCall labels b r

theorem deltaOf_congr {b b' : Baseline} {r : Reading} (h : b r.cgroupId = b' r.cgroupId) :
    deltaOf b r = deltaOf b' r := by
  unfold deltaOf
  rw [h]

/-- A reading changes the baseline of its own cgroup only. -/
theorem readingCalls_eq (labels : TickLabels) (b : Baseline) {rs : List Reading} {b' : Baseline}
    (hd : (rs.map Reading.cgroupId).Nodup) (h : ∀ r ∈ rs, b' r.cgroupId = b r.cgroupId) :
    readingCalls labels b' rs = rs.flatMap (pairCalls labels b) := by
  induction rs generalizing b' with
  | nil => rfl
  | cons r rs ih =>
    rw [List.map_cons, List.nodup_cons] at hd
    have hne : ∀ x ∈ rs, r.cgroupId ≠ x.cgroupId := fun x hx e =>
      hd.1 (e ▸ List.mem_map_of_mem hx)
    rw [readingCalls, List.flatMap_cons, pairCalls, ih hd.2 fun x hx => ?_]
    · unfold cpuCall
      rw [deltaOf_congr (h r List.mem_cons_self)]
    · rw [rebase_ne (hne x hx)]
      exact h x (List.mem_cons_of_mem _ hx)

theorem tickCalls_eq (labels : TickLabels) (b : Baseline) (rs : Readings) :
    tickCalls labels (some rs) b = rs.list.flatMap (pairCalls labels b) :=
  readingCalls_eq labels b rs.distinct fun _ hr => if_pos (List.mem_map_of_mem hr)

theorem sampled_pairCalls {labels : TickLabels} {b : Baseline} {r : Reading} {call : Call}
    (h : call ∈ pairCalls labels b r) : call.sampled? = some r.cgroupId := by
  rcases List.mem_append.mp h with h | h
  · unfold memoryCall at h
    cases hm : r.memoryBytes with
    | none => rw [hm] at h; cases h
    | some bytes =>
      rw [hm] at h
      rw [List.mem_singleton.mp h]
      rfl
  · unfold cpuCall at h
    cases hd : deltaOf b r with
    | none => rw [hd] at h; cases h
    | some delta =>
      rw [hd] at h
      rw [List.mem_singleton.mp h]
      rfl

/-- **No cgroup with both samples is the one that makes `max_keys` keys**, counting from `keys` and
anew after each flush. -/
def Unsplit (maxKeys : Nat) (b : Baseline) : Finset Nat → List Reading → Prop
  | _, [] => True
  | keys, r :: rest =>
    if r.memoryBytes = none ∧ deltaOf b r = none then Unsplit maxKeys b keys rest
    else if (insert r.cgroupId keys).card < maxKeys then
      Unsplit maxKeys b (insert r.cgroupId keys) rest
    else ¬(r.memoryBytes ≠ none ∧ deltaOf b r ≠ none) ∧ Unsplit maxKeys b ∅ rest

/-! ## One reading -/

theorem sameRow_single (i : Nat) (call : Call) : SameRow [(i, call)] := by
  intro c j k bytes delta l l' n n' hm hc
  have hm := congrArg Prod.snd (List.mem_singleton.mp hm)
  have hc := congrArg Prod.snd (List.mem_singleton.mp hc)
  cases hm.trans hc.symm

theorem sameRow_pair {i j c bytes delta : Nat} {l l' : WorkloadLabels} {node node' : String} :
    SameRow [(i, .memorySample c bytes l node), (j, .cpuSample c delta l' node')] ↔ i = j := by
  constructor
  · intro h
    exact h c i j bytes delta l l' node node' List.mem_cons_self
      (List.mem_cons_of_mem _ List.mem_cons_self)
  · rintro rfl c' i' j' bytes' delta' m m' n n' hm hc
    simp only [List.mem_cons, List.not_mem_nil, or_false, Prod.mk.injEq, reduceCtorEq, and_false,
      false_or] at hm hc
    rw [hm.1, hc.1]

/-- What the calls for one reading do: to the keys, and whether they share a row. The reading has a
sample at all (`touched`) or two of them (`both`). -/
structure PairOutcome (a : Aggregator) (c : Nat) (touched both : Prop) (n : Nat)
    (r : Aggregator × List (Call × Option BatchPayload)) : Prop where
  maxKeys : r.1.maxKeys = a.maxKeys
  untouched : ¬touched → SameRow (placed n r.2) ∧ r.1.activeKeys = a.activeKeys
  fits : touched → (insert c a.activeKeys).card < a.maxKeys →
    SameRow (placed n r.2) ∧ r.1.activeKeys = insert c a.activeKeys
  full : touched → a.maxKeys ≤ (insert c a.activeKeys).card →
    (SameRow (placed n r.2) ↔ ¬both) ∧ (¬both → r.1.activeKeys = ∅)

/-- A single sample. -/
theorem single_spec {c : Nat} (call : Call) (n : Nat) (hi : Ingested c a (a.call env call)) :
    PairOutcome a c True False n (a.run env [call]) where
  maxKeys := hi.maxKeys
  untouched := fun h => absurd trivial h
  fits := fun _ hlt => ⟨sameRow_single n _, (hi.kept hlt).2⟩
  full := fun _ hle => ⟨⟨fun _ => id, fun _ => sameRow_single n _⟩, fun _ => (hi.flushed hle).2⟩

/-- Both samples: the second one finds the cgroup's key there unless the first one flushed. -/
theorem both_spec (env : Env) (h : AggregatorInv a w) (c bytes delta : Nat) (l l' : WorkloadLabels)
    (node : String) (n : Nat) : PairOutcome a c True True n
      (a.run env [.memorySample c bytes l node, .cpuSample c delta l' node]) := by
  have hi := ingest_spec env h c (.addMemory bytes l) node
  have hroll := call_spec env h (.memorySample c bytes l node)
  rw [Aggregator.run]
  change Ingested c a (a.call env (.memorySample c bytes l node)) at hi
  generalize a.call env (.memorySample c bytes l node) = r at hi hroll
  obtain ⟨a₁, out⟩ := r
  have hinv : ∃ w₁, AggregatorInv a₁ w₁ := by
    rcases hroll with ⟨-, h₁⟩ | ⟨-, -, -, h₁⟩
    · exact ⟨_, h₁⟩
    · exact ⟨_, h₁⟩
  obtain ⟨w₁, h₁⟩ := hinv
  have hi₁ : Ingested c a₁ (a₁.call env (.cpuSample c delta l' node)) :=
    ingest_spec env h₁ c (.addCpu delta l') node
  refine ⟨hi₁.maxKeys.trans hi.maxKeys, fun hf => absurd trivial hf, fun _ hlt => ?_,
    fun _ hle => ⟨?_, fun hb => absurd trivial hb⟩⟩
  · obtain ⟨hout, hkeys⟩ := hi.kept hlt
    dsimp only at hout hkeys
    have hsame : insert c a₁.activeKeys = insert c a.activeKeys := by
      rw [hkeys, Finset.insert_idem]
    have hmax : a₁.maxKeys = a.maxKeys := hi.maxKeys
    rw [← hsame, ← hmax] at hlt
    rw [hout]
    exact ⟨sameRow_pair.mpr rfl, (hi₁.kept hlt).2.trans hsame⟩
  · have hout : out.isSome = true := (hi.flushed hle).1
    show SameRow [(n, _), (if out.isSome then n + 1 else n, _)] ↔ _
    rw [if_pos hout, sameRow_pair]
    simp

/-- **One reading.** -/
theorem pair_spec (env : Env) (h : AggregatorInv a w) (labels : TickLabels) (b : Baseline)
    (r : Reading) (n : Nat) :
    PairOutcome a r.cgroupId (¬(r.memoryBytes = none ∧ deltaOf b r = none))
      (r.memoryBytes ≠ none ∧ deltaOf b r ≠ none) n (a.run env (pairCalls labels b r)) := by
  unfold pairCalls memoryCall cpuCall
  cases r.memoryBytes with
  | none =>
    cases deltaOf b r with
    | none =>
      have hno : ¬¬((none : Option Nat) = none ∧ (none : Option Nat) = none) :=
        not_not.mpr ⟨rfl, rfl⟩
      exact ⟨rfl, fun _ => ⟨fun _ _ _ _ _ _ _ _ _ hx => absurd hx List.not_mem_nil, rfl⟩,
        fun ht => absurd ht hno, fun ht => absurd ht hno⟩
    | some delta =>
      have hs := single_spec (.cpuSample r.cgroupId delta (labels.cpu r.cgroupId) labels.node) n
        (ingest_spec env h r.cgroupId (.addCpu delta (labels.cpu r.cgroupId)) labels.node)
      simpa using hs
  | some bytes =>
    cases deltaOf b r with
    | none =>
      have hs := single_spec
        (.memorySample r.cgroupId bytes (labels.memory r.cgroupId) labels.node) n
        (ingest_spec env h r.cgroupId (.addMemory bytes (labels.memory r.cgroupId)) labels.node)
      simpa using hs
    | some delta =>
      have hs := both_spec env h r.cgroupId bytes delta (labels.memory r.cgroupId)
        (labels.cpu r.cgroupId) labels.node n
      simpa using hs

/-! ## Whole ticks -/

theorem run_inv (env : Env) (h : AggregatorInv a w) (calls : List Call) :
    ∃ w', AggregatorInv (a.run env calls).1 w' :=
  ⟨_, (rolls_run env calls 0 h).2⟩

/-- The readings of a tick share their rows exactly if none is split. -/
theorem sameRow_iff (labels : TickLabels) (b : Baseline) : ∀ (rs : List Reading) {a : Aggregator}
    {w : List Call} (n : Nat), AggregatorInv a w → (rs.map Reading.cgroupId).Nodup →
    (SameRow (placed n (a.run env (rs.flatMap (pairCalls labels b))).2) ↔
      Unsplit a.maxKeys b a.activeKeys rs)
  | [], a, w, n, _, _ =>
    ⟨fun _ => trivial, fun _ _ _ _ _ _ _ _ _ _ hx => absurd hx List.not_mem_nil⟩
  | r :: rs, a, w, n, h, hd => by
    rw [List.map_cons, List.nodup_cons] at hd
    have o := pair_spec env h labels b r n
    obtain ⟨w', h'⟩ := run_inv env h (pairCalls labels b r)
    have ih := sameRow_iff labels b rs
      (n + (batches (a.run env (pairCalls labels b r)).2).length) h' hd.2
    -- the other readings are of other cgroups
    have hsplit := sameRow_append (placed n (a.run env (pairCalls labels b r)).2)
      (placed (n + (batches (a.run env (pairCalls labels b r)).2).length)
        ((a.run env (pairCalls labels b r)).1.run env (rs.flatMap (pairCalls labels b))).2) (by
      intro c x hx hxc y hy hyc
      have hx := List.mem_map_of_mem (f := Prod.snd) hx
      rw [placed_calls, run_calls] at hx
      have hy := List.mem_map_of_mem (f := Prod.snd) hy
      rw [placed_calls, run_calls] at hy
      obtain ⟨r', hr', hy⟩ := List.mem_flatMap.mp hy
      rw [sampled_pairCalls hx] at hxc
      rw [sampled_pairCalls hy, ← hxc] at hyc
      exact hd.1 (Option.some.inj hyc ▸ List.mem_map_of_mem hr'))
    rw [List.flatMap_cons, run_append, placed_append, hsplit, ih, o.maxKeys, Unsplit]
    by_cases ht : r.memoryBytes = none ∧ deltaOf b r = none
    · obtain ⟨hsame, hkeys⟩ := o.untouched (not_not.mpr ht)
      rw [if_pos ht, hkeys]
      exact ⟨fun hr => hr.2, fun hr => ⟨hsame, hr⟩⟩
    · rw [if_neg ht]
      by_cases hlt : (insert r.cgroupId a.activeKeys).card < a.maxKeys
      · obtain ⟨hsame, hkeys⟩ := o.fits ht hlt
        rw [if_pos hlt, hkeys]
        exact ⟨fun hr => hr.2, fun hr => ⟨hsame, hr⟩⟩
      · obtain ⟨hsame, hkeys⟩ := o.full ht (Nat.le_of_not_lt hlt)
        rw [if_neg hlt, hsame]
        exact and_congr_right fun hb => by rw [hkeys hb]

/-- **One row for each cgroup and tick, exactly when no cgroup is split.** In every state an
aggregator reaches and for every tick on it: its batches are those of the trace of its calls, and
the memory sample and the CPU delta of each cgroup fall into the same window if and only if no
cgroup with both is the one that makes `max_keys` keys. -/
theorem one_row_per_sample (env : Env) (maxKeys : Nat) (calls : List Call) (labels : TickLabels)
    (rs : Readings) (b : Baseline) :
    let a := (Aggregator.run env { Aggregator.new env with maxKeys := maxKeys } calls).1
    let r := a.run env (tickCalls labels (some rs) b)
    (tick env labels (some rs) b a).aggregator = r.1 ∧
    (tick env labels (some rs) b a).earlyBatches = batches r.2 ∧
    (SameRow (placed 0 r.2) ↔ Unsplit a.maxKeys b a.activeKeys rs.list) := by
  intro a r
  obtain ⟨w, h⟩ := run_inv env (aggregatorInv_new env maxKeys) calls
  refine ⟨by rw [tick_eq], by rw [tick_eq], ?_⟩
  show SameRow (placed 0 (a.run env (tickCalls labels (some rs) b)).2) ↔ _
  rw [tickCalls_eq]
  exact sameRow_iff labels b rs.list 0 h rs.distinct

/-! ## A tick of 4096 cgroups -/

/-- A cgroup with both samples. -/
def bothRead (c : Nat) : Reading := ⟨c, some 1, some 1⟩

/-- As many cgroups with both samples as there is room for keys: the last one is split. -/
theorem split_last (maxKeys : Nat) : ∀ (n k : Nat), k + (n + 1) = maxKeys →
    ¬Unsplit maxKeys (fun _ => some 0) (Finset.range k) ((List.range' k (n + 1)).map bothRead)
  | n, k, h => by
    rw [List.range'_succ, List.map_cons, Unsplit, if_neg (fun hno => nomatch hno.1),
      show insert (bothRead k).cgroupId (Finset.range k) = Finset.range (k + 1) from
        Finset.range_add_one.symm, Finset.card_range]
    cases n with
    | zero =>
      rw [if_neg (by omega)]
      exact fun hs => hs.1 ⟨(fun e => nomatch e), (fun e => nomatch e)⟩
    | succ n =>
      rw [if_pos (by omega)]
      exact split_last maxKeys n (k + 1) (by omega)

/-- A tick that finds `n` cgroups and reads all of them. -/
def fullTick (n : Nat) : Readings :=
  ⟨(List.range' 0 n).map bothRead, by
    rw [List.map_map]
    exact (List.map_id _).symm ▸ List.nodup_range'⟩

theorem split_fullTick (env : Env) (labels : TickLabels) (n : Nat) :
    ¬SameRow (placed 0 (Aggregator.run env { Aggregator.new env with maxKeys := n + 1 }
      (tickCalls labels (some (fullTick (n + 1))) fun _ => some 0)).2) := by
  intro hs
  rw [tickCalls_eq] at hs
  have h := (sameRow_iff labels _ _ 0 (aggregatorInv_new env (n + 1))
    (fullTick (n + 1)).distinct).mp hs
  exact split_last (n + 1) n 0 (Nat.zero_add _) h

/-- **A tick of 4096 primed cgroups splits the last one**: its memory sample fills the map and is
flushed, its CPU delta goes to the next window. -/
theorem split_at_max_keys :
    ∃ (env : Env) (labels : TickLabels), ¬SameRow (placed 0
      ((Aggregator.new env).run env (tickCalls labels (some (fullTick 4096)) fun _ => some 0)).2) :=
  ⟨⟨id, fun _ => "b"⟩, ⟨fun _ => {}, fun _ => {}, "n"⟩, split_fullTick _ _ 4095⟩

end Statix.Rollup
