import Mathlib.Data.List.Induction
import Statix.Gateway.Handlers

/-!
# The response cache

`TtlCache` (`statix-gateway/src/routes/dashboard/cache.rs`) over whole runs of `put` and `get`. A
`put` sweeps out what has expired, evicts the oldest entry when the cache is full, and spares pinned
entries in both.

* `TtlCache.kept`: what a `put` leaves of the entries before it inserts its own.
* `latestPut`: the latest `put` for a key, which is all a `get` may answer with.
* `put_within_iff`: when a `put` exceeds `max_entries`.

Result:

* **`cache_fresh`**: a `get` answers with the body of the latest `put` of its key, not older than the
  ttl, and always does when that `put` was pinned.
-/

namespace Statix.Gateway

/-- `TtlCache::new`. -/
def TtlCache.new (ttl maxEntries : Nat) : TtlCache := ⟨[], ttl, max maxEntries 4⟩

/-- A call on the cache. -/
inductive CacheCall where
  | put (key body : String) (pinned : Bool)
  | get (key : String)

/-- What a call at a time leaves of the cache. -/
def TtlCache.call (c : TtlCache) (now : Nat) : CacheCall → TtlCache
  | .put key body pinned => c.put now key body pinned
  | .get _ => c

/-- A run of calls, each with its time. -/
def TtlCache.run (c : TtlCache) (calls : List (Nat × CacheCall)) : TtlCache :=
  calls.foldl (fun c call => c.call call.1 call.2) c

/-- What a call says about `key`. -/
def CacheCall.entryOf (key : String) (now : Nat) : CacheCall → Option CacheEntry
  | .put k body pinned => if k = key then some ⟨now, body, pinned⟩ else none
  | .get _ => none

/-- The latest `put` for `key`. -/
def latestPut (key : String) (calls : List (Nat × CacheCall)) : Option CacheEntry :=
  (calls.filterMap fun call => call.2.entryOf key call.1).getLast?

/-! ## `put` -/

namespace TtlCache

/-- What the sweep of a `put` leaves. -/
def swept (c : TtlCache) (now : Nat) : List (String × CacheEntry) :=
  c.inner.filter fun e => now - e.2.storedAt ≤ c.ttl || e.2.pinned

/-- What the sweep and the eviction of a `put` leave. -/
def kept (c : TtlCache) (now : Nat) (key : String) : List (String × CacheEntry) :=
  if (c.swept now).length ≥ c.maxEntries && !((c.swept now).any fun e => e.1 == key) then
    match victimOf (c.swept now) with
    | none => c.swept now
    | some k => (c.swept now).filter fun e => e.1 != k
  else c.swept now

/-- The keys of the entries. -/
def keys (c : TtlCache) : List String := c.inner.map Prod.fst

/-- The pinned entries. -/
def pins (c : TtlCache) : List (String × CacheEntry) := c.inner.filter fun e => e.2.pinned

end TtlCache

variable {c : TtlCache} {now : Nat} {key body : String} {pinned : Bool}

theorem inner_put (c : TtlCache) (now : Nat) (key body : String) (pinned : Bool) :
    (c.put now key body pinned).inner =
      (key, ⟨now, body, pinned⟩) :: (c.kept now key).filter fun e => e.1 != key := rfl

/-- One turn of `min_by_key`: the older of two entries. -/
def older (best : Option (String × CacheEntry)) (e : String × CacheEntry) :
    Option (String × CacheEntry) :=
  match best with
  | none => some e
  | some b => if e.2.storedAt < b.2.storedAt then some e else some b

theorem older_cases (best : Option (String × CacheEntry)) (e : String × CacheEntry) :
    ∃ x, older best e = some x ∧ (x = e ∨ best = some x) := by
  unfold older
  split
  · exact ⟨e, rfl, Or.inl rfl⟩
  · rename_i b
    split
    · exact ⟨e, rfl, Or.inl rfl⟩
    · exact ⟨b, rfl, Or.inr rfl⟩

/-- The fold ends with an entry it has seen, or with none if there was none. -/
theorem oldest_cases : ∀ (l : List (String × CacheEntry)) (best : Option (String × CacheEntry)),
    (l.foldl older best = none → l = [] ∧ best = none) ∧
      ∀ e, l.foldl older best = some e → e ∈ l ∨ best = some e
  | [], best => ⟨fun h => ⟨rfl, h⟩, fun e h => Or.inr h⟩
  | e :: l, best => by
    obtain ⟨x, hx, hfrom⟩ := older_cases best e
    obtain ⟨hnone, hsome⟩ := oldest_cases l (some x)
    rw [List.foldl_cons, hx]
    refine ⟨fun h => (nomatch (hnone h).2), fun y hy => ?_⟩
    rcases hsome y hy with hmem | heq
    · exact Or.inl (List.mem_cons_of_mem _ hmem)
    · obtain rfl := Option.some.inj heq
      rcases hfrom with rfl | hbest
      · exact Or.inl List.mem_cons_self
      · exact Or.inr hbest

/-- The victim is an entry that is not pinned. -/
theorem victimOf_some {l : List (String × CacheEntry)} {k : String} (h : victimOf l = some k) :
    ∃ e ∈ l, e.1 = k ∧ e.2.pinned = false := by
  obtain ⟨e, he, rfl⟩ := Option.map_eq_some_iff.mp h
  rcases (oldest_cases _ none).2 e he with hmem | hnone
  · obtain ⟨hmem, hp⟩ := List.mem_filter.mp hmem
    exact ⟨e, hmem, rfl, by simpa using hp⟩
  · cases hnone

/-- Without a victim everything is pinned. -/
theorem victimOf_none {l : List (String × CacheEntry)} (h : victimOf l = none) :
    ∀ e ∈ l, e.2.pinned = true := by
  intro e he
  have hnil := ((oldest_cases _ none).1 (Option.map_eq_none_iff.mp h)).1
  rw [List.filter_eq_nil_iff] at hnil
  simpa using hnil e he

theorem swept_sublist (c : TtlCache) (now : Nat) : (c.swept now).Sublist c.inner :=
  List.filter_sublist

theorem kept_sublist (c : TtlCache) (now : Nat) (key : String) :
    (c.kept now key).Sublist (c.swept now) := by
  unfold TtlCache.kept
  split
  · split
    · exact List.Sublist.refl _
    · exact List.filter_sublist
  · exact List.Sublist.refl _

/-- A pinned entry is swept out by nothing. -/
theorem mem_swept_of_pinned (now : Nat) {e : String × CacheEntry} (he : e ∈ c.inner) (hp : e.2.pinned = true) :
    e ∈ c.swept now := by
  refine List.mem_filter.mpr ⟨he, ?_⟩
  rw [hp, Bool.or_true]

/-- Entries with one key are the same entry. -/
theorem entry_inj (distinct : c.keys.Nodup) {e e' : String × CacheEntry} (he : e ∈ c.inner)
    (he' : e' ∈ c.inner) (h : e.1 = e'.1) : e = e' :=
  List.inj_on_of_nodup_map distinct he he' h

/-- **A pinned entry is not evicted.** -/
theorem mem_kept_of_pinned (now : Nat) (key : String) (distinct : c.keys.Nodup) {e : String × CacheEntry} (he : e ∈ c.inner)
    (hp : e.2.pinned = true) : e ∈ c.kept now key := by
  have hswept := mem_swept_of_pinned now he hp
  unfold TtlCache.kept
  split
  · split
    · exact hswept
    · rename_i k hk
      obtain ⟨v, hv, rfl, hvp⟩ := victimOf_some hk
      refine List.mem_filter.mpr ⟨hswept, ?_⟩
      rw [bne_iff_ne]
      intro e1
      -- the victim would be pinned
      have hve := entry_inj distinct he ((swept_sublist c now).subset hv) e1
      rw [hve, hvp] at hp
      cases hp
  · exact hswept

theorem keys_put_nodup (distinct : c.keys.Nodup) : (c.put now key body pinned).keys.Nodup := by
  have hkept : ((c.kept now key).map Prod.fst).Nodup :=
    distinct.sublist (((kept_sublist c now key).trans (swept_sublist c now)).map Prod.fst)
  unfold TtlCache.keys
  rw [inner_put, List.map_cons, List.nodup_cons]
  constructor
  · intro hmem
    obtain ⟨e, he, hk⟩ := List.mem_map.mp hmem
    have hne := (List.mem_filter.mp he).2
    rw [bne_iff_ne] at hne
    exact hne hk
  · exact hkept.sublist (List.filter_sublist.map Prod.fst)

/-- **The entries after a `put`** are its own and entries of other keys. -/
theorem mem_put {e : String × CacheEntry} (he : e ∈ (c.put now key body pinned).inner) :
    e = (key, ⟨now, body, pinned⟩) ∨ e ∈ c.inner ∧ e.1 ≠ key := by
  rw [inner_put] at he
  rcases List.mem_cons.mp he with rfl | he
  · exact Or.inl rfl
  · obtain ⟨hkept, hne⟩ := List.mem_filter.mp he
    refine Or.inr ⟨((kept_sublist c now key).trans (swept_sublist c now)).subset hkept, ?_⟩
    rwa [bne_iff_ne] at hne

theorem mem_put_of_pinned (distinct : c.keys.Nodup) {e : String × CacheEntry} (he : e ∈ c.inner)
    (hp : e.2.pinned = true) (hne : e.1 ≠ key) : e ∈ (c.put now key body pinned).inner := by
  rw [inner_put]
  refine List.mem_cons_of_mem _ (List.mem_filter.mpr ⟨mem_kept_of_pinned now key distinct he hp, ?_⟩)
  rwa [bne_iff_ne]

/-! ## Freshness -/

/-- What a run keeps: one entry a key, which is its latest `put`, and every pinned latest `put`. -/
structure CacheInv (ttl : Nat) (calls : List (Nat × CacheCall)) (c : TtlCache) : Prop where
  ttl : c.ttl = ttl
  distinct : c.keys.Nodup
  latest : ∀ e ∈ c.inner, latestPut e.1 calls = some e.2
  pinned : ∀ key e, latestPut key calls = some e → e.pinned = true → (key, e) ∈ c.inner

theorem latestPut_snoc (key : String) (calls : List (Nat × CacheCall)) (now : Nat)
    (call : CacheCall) :
    latestPut key (calls ++ [(now, call)]) = (call.entryOf key now).or (latestPut key calls) := by
  unfold latestPut
  rw [List.filterMap_append]
  cases h : call.entryOf key now <;> simp [h]

theorem latestPut_put_self (calls : List (Nat × CacheCall)) :
    latestPut key (calls ++ [(now, .put key body pinned)]) = some ⟨now, body, pinned⟩ := by
  rw [latestPut_snoc]
  simp [CacheCall.entryOf]

theorem latestPut_put_ne (calls : List (Nat × CacheCall)) {other : String} (h : other ≠ key) :
    latestPut other (calls ++ [(now, .put key body pinned)]) = latestPut other calls := by
  rw [latestPut_snoc]
  simp [CacheCall.entryOf, h.symm]

theorem latestPut_get (calls : List (Nat × CacheCall)) (other : String) :
    latestPut other (calls ++ [(now, .get key)]) = latestPut other calls := by
  rw [latestPut_snoc]
  rfl

/-- **One call.** -/
theorem cacheInv_call {ttl : Nat} {calls : List (Nat × CacheCall)} (h : CacheInv ttl calls c)
    (now : Nat) (call : CacheCall) : CacheInv ttl (calls ++ [(now, call)]) (c.call now call) := by
  cases call with
  | get k =>
    refine ⟨h.ttl, h.distinct, fun e he => ?_, fun key e hl hp => ?_⟩
    · rw [latestPut_get]
      exact h.latest e he
    · rw [latestPut_get] at hl
      exact h.pinned key e hl hp
  | put k body pin =>
    refine ⟨h.ttl, keys_put_nodup h.distinct, fun e he => ?_, fun key e hl hp => ?_⟩
    · rcases mem_put he with rfl | ⟨hmem, hne⟩
      · exact latestPut_put_self calls
      · rw [latestPut_put_ne calls hne]
        exact h.latest e hmem
    · by_cases hk : key = k
      · subst hk
        rw [latestPut_put_self] at hl
        rw [← Option.some.inj hl]
        exact List.mem_cons_self
      · rw [latestPut_put_ne calls hk] at hl
        exact mem_put_of_pinned h.distinct (h.pinned key e hl hp) hp hk

theorem cacheInv_run (ttl maxEntries : Nat) (calls : List (Nat × CacheCall)) :
    CacheInv ttl calls ((TtlCache.new ttl maxEntries).run calls) := by
  induction calls using List.reverseRecOn with
  | nil =>
    exact ⟨rfl, List.nodup_nil, fun e he => absurd he List.not_mem_nil, fun _ _ h => (nomatch h)⟩
  | append_singleton calls call ih =>
    unfold TtlCache.run at ih ⊢
    rw [List.foldl_append]
    exact cacheInv_call ih call.1 call.2

/-- What `get` finds. -/
theorem get_eq_some_iff (distinct : c.keys.Nodup) {t : Nat} {b : String} :
    c.get t key = some b ↔ ∃ e, (key, e) ∈ c.inner ∧ e.body = b ∧ t ≤ e.storedAt + c.ttl := by
  unfold TtlCache.get
  constructor
  · intro h
    split at h
    · cases h
    · rename_i k e hfind
      obtain rfl : k = key := by simpa using List.find?_some hfind
      split at h
      · exact ⟨e, List.mem_of_find?_eq_some hfind, Option.some.inj h, by omega⟩
      · cases h
  · rintro ⟨e, hmem, rfl, hle⟩
    have hfind : c.inner.find? (fun x => x.1 == key) = some (key, e) := by
      cases hf : c.inner.find? (fun x => x.1 == key) with
      | none =>
        rw [List.find?_eq_none] at hf
        exact absurd (beq_self_eq_true key) (hf _ hmem)
      | some x =>
        have hx : x.1 = key := by simpa using List.find?_some hf
        rw [entry_inj distinct (List.mem_of_find?_eq_some hf) hmem hx]
    rw [hfind]
    exact if_pos (by omega)

/-- **Cache freshness and pinning.** After any calls of `put` and `get`: what `get` returns at a time
`t` is the body of the latest `put` for the key, at most the ttl before `t`; and when that `put` was
pinned, `get` returns it within the ttl, whatever was put for other keys. -/
theorem cache_fresh (ttl maxEntries : Nat) (calls : List (Nat × CacheCall)) (key : String)
    (t : Nat) :
    let c := (TtlCache.new ttl maxEntries).run calls
    (∀ b, c.get t key = some b →
      ∃ e, latestPut key calls = some e ∧ e.body = b ∧ t ≤ e.storedAt + ttl) ∧
    ∀ e, latestPut key calls = some e → e.pinned = true → t ≤ e.storedAt + ttl →
      c.get t key = some e.body := by
  intro c
  have h : CacheInv ttl calls c := cacheInv_run ttl maxEntries calls
  constructor
  · intro b hb
    obtain ⟨e, hmem, hbody, hle⟩ := (get_eq_some_iff h.distinct).mp hb
    exact ⟨e, h.latest _ hmem, hbody, h.ttl ▸ hle⟩
  · intro e hl hp hle
    exact (get_eq_some_iff h.distinct).mpr ⟨e, h.pinned key e hl hp, rfl, h.ttl.symm ▸ hle⟩

/-! ## Size -/

/-- The cache is full of pinned entries, and `key` is not among them. -/
def Crowded (c : TtlCache) (key : String) : Prop := c.maxEntries ≤ c.pins.length ∧ key ∉ c.keys

/-- Taking out the entry of a key. -/
theorem length_filter_key (k : String) : ∀ {l : List (String × CacheEntry)},
    (l.map Prod.fst).Nodup → (l.filter fun e => e.1 != k).length =
      if k ∈ l.map Prod.fst then l.length - 1 else l.length
  | [], _ => rfl
  | e :: l, hnd => by
    rw [List.map_cons, List.nodup_cons] at hnd
    have ih := length_filter_key k hnd.2
    by_cases hk : e.1 = k
    · subst hk
      rw [if_neg hnd.1] at ih
      simp [ih]
    · have hpos : k ∈ l.map Prod.fst → 0 < l.length := by
        intro hmem
        obtain ⟨x, hx, -⟩ := List.mem_map.mp hmem
        exact List.length_pos_of_mem hx
      rw [List.filter_cons_of_pos (by simpa using hk), List.length_cons, ih, List.map_cons,
        List.length_cons]
      simp only [List.mem_cons, Ne.symm hk, false_or]
      split
      · rename_i hmem
        have := hpos hmem
        omega
      · rfl

/-- **How many entries a `put` leaves.** Without room, and with nothing to evict, there is one more
than the sweep left; all of them are pinned then. -/
theorem length_put_cases (c : TtlCache) (now : Nat) (key body : String) (pinned : Bool)
    (distinct : c.keys.Nodup) :
    let n := (c.put now key body pinned).inner.length
    n = (c.swept now).length ∨
    n = (c.swept now).length + 1 ∧ key ∉ (c.swept now).map Prod.fst ∧
      ((c.swept now).length < c.maxEntries ∨ ∀ e ∈ c.swept now, e.2.pinned = true) := by
  intro n
  have hswept : ((c.swept now).map Prod.fst).Nodup :=
    distinct.sublist ((swept_sublist c now).map Prod.fst)
  have hn : n = ((c.kept now key).filter fun e => e.1 != key).length + 1 := by
    show (c.put now key body pinned).inner.length = _
    rw [inner_put, List.length_cons]
  by_cases hmem : key ∈ (c.swept now).map Prod.fst
  · -- the entry is replaced
    left
    have hany : ((c.swept now).any fun e => e.1 == key) = true := by
      obtain ⟨e, he, hk⟩ := List.mem_map.mp hmem
      exact List.any_eq_true.mpr ⟨e, he, beq_iff_eq.mpr hk⟩
    have hkept : c.kept now key = c.swept now := by
      unfold TtlCache.kept
      rw [hany]
      simp
    have hpos : 0 < (c.swept now).length := by
      obtain ⟨e, he, -⟩ := List.mem_map.mp hmem
      exact List.length_pos_of_mem he
    rw [hn, hkept, length_filter_key key hswept, if_pos hmem]
    omega
  · have hany : ((c.swept now).any fun e => e.1 == key) = false := by
      refine List.any_eq_false.mpr fun e he hk => hmem ?_
      exact List.mem_map.mpr ⟨e, he, beq_iff_eq.mp hk⟩
    have hout : ((c.kept now key).filter fun e => e.1 != key).length = (c.kept now key).length := by
      have hsub := (kept_sublist c now key).map Prod.fst
      rw [length_filter_key key (hswept.sublist hsub), if_neg fun h => hmem (hsub.subset h)]
    rw [hn, hout]
    unfold TtlCache.kept
    rw [hany]
    by_cases hroom : (c.swept now).length ≥ c.maxEntries
    · simp only [hroom, decide_true, Bool.not_false, Bool.and_self, if_true]
      split
      · rename_i hnone
        exact Or.inr ⟨rfl, hmem, Or.inr (victimOf_none hnone)⟩
      · rename_i k hk
        obtain ⟨v, hv, rfl, -⟩ := victimOf_some hk
        left
        rw [length_filter_key v.1 hswept, if_pos (List.mem_map_of_mem hv)]
        have := List.length_pos_of_mem hv
        omega
    · simp only [hroom, decide_false, Bool.false_and, Bool.false_eq_true, if_false]
      exact Or.inr ⟨trivial, hmem, Or.inl (Nat.lt_of_not_le hroom)⟩

/-- A `put` of a new key leaves every pinned entry and adds its own. -/
theorem pins_lt_put (now : Nat) (body : String) (pinned : Bool) (distinct : c.keys.Nodup)
    (hkey : key ∉ c.keys) : c.pins.length < (c.put now key body pinned).inner.length := by
  have hnew : (key, (⟨now, body, pinned⟩ : CacheEntry)) ∉ c.pins := by
    intro hmem
    exact hkey (List.mem_map_of_mem (List.mem_filter.mp hmem).1)
  have hnd : ((key, (⟨now, body, pinned⟩ : CacheEntry)) :: c.pins).Nodup :=
    List.nodup_cons.mpr ⟨hnew, (List.Nodup.of_map _ distinct).filter _⟩
  have hsub : (key, (⟨now, body, pinned⟩ : CacheEntry)) :: c.pins ⊆
      (c.put now key body pinned).inner := by
    intro e he
    rcases List.mem_cons.mp he with rfl | he
    · exact List.mem_cons_self
    · obtain ⟨hmem, hp⟩ := List.mem_filter.mp he
      have hne : e.1 ≠ key := fun h => hkey (h ▸ List.mem_map_of_mem hmem)
      exact mem_put_of_pinned distinct hmem hp hne
  exact (List.subperm_of_subset hnd hsub).length_le

/-- **When a `put` stays within `max_entries`.** -/
theorem put_within_iff (distinct : c.keys.Nodup) (within : c.inner.length ≤ c.maxEntries) :
    (c.put now key body pinned).inner.length ≤ c.maxEntries ↔ ¬ Crowded c key := by
  have hswept := (swept_sublist c now).length_le
  constructor
  · rintro hle ⟨hpins, hkey⟩
    have hgrow := pins_lt_put now body pinned distinct hkey
    omega
  · intro hfree
    rcases length_put_cases c now key body pinned distinct with h | ⟨h, hkey, hroom | hpinned⟩
    · omega
    · omega
    · rw [h]
      by_contra hover
      have hpins : (c.swept now).length ≤ c.pins.length := by
        have hsub := (swept_sublist c now).filter fun e => e.2.pinned
        rw [List.filter_eq_self.mpr hpinned] at hsub
        exact hsub.length_le
      have hall : c.swept now = c.inner := (swept_sublist c now).eq_of_length (by omega)
      rw [hall] at hkey
      exact hfree ⟨by omega, hkey⟩

end Statix.Gateway
