import Mathlib.Data.Finset.Card
import Mathlib.Logic.Relation
import Statix.Gateway.Access
import Statix.Gateway.CacheKey
import Statix.Gateway.ResponseCache

/-!
# The read tier of the dashboard

`state_handler` (`statix-gateway/src/routes/dashboard/mod.rs`) with its response cache over whole
runs. A handler looks its question up, awaits ClickHouse on a miss, and stores the body it has built;
other handlers run in between.

* `stateLookup` and `stateStore` are the two sides of the `await`.
* `TierStep` interleaves the handlers. `Tier.stored` is the record of the bodies built so far and of
  their questions.
* `is_hot_view` pins every question without a filter. Pinned entries are never given up, so the
  unfiltered views stored so far are what the cache must hold (`Tier.hotKeys`).

Results:

* **`answers_own_question`**: a hit is a body built for a question with the same key, which is the
  same question unless the two collide.
* **`cache_bounded`**: the cache stays within `max_entries` as long as nothing is stored after
  `max_entries` different unfiltered views except these views.
-/

namespace Statix.Gateway

open NormalizedQuery

/-- `CACHE_ENTRIES`. -/
def cacheEntries : Nat := 64

/-! ## Runs -/

/-- The gateway with the questions whose bodies are being built, and the bodies stored so far. -/
structure Tier where
  state : AppState
  asked : List NormalizedQuery
  stored : List (NormalizedQuery × String)

namespace Tier

/-- The gateway with a new `Dashboard`. -/
def start (s : AppState) (ttl : Nat) : Tier :=
  ⟨{ s with stateCache := TtlCache.new ttl cacheEntries }, [], []⟩

/-- The state cache. -/
def cache (t : Tier) : TtlCache := t.state.stateCache

/-- The keys of the unfiltered views stored so far. -/
def hotKeys (t : Tier) : Finset String :=
  ((t.stored.filter fun e => e.1.isHotView).map fun e => e.1.cacheKey).toFinset

/-- `max_entries` different unfiltered views have been stored, and `q` is none of them. -/
def Crowds (t : Tier) (q : NormalizedQuery) : Prop :=
  t.cache.maxEntries ≤ t.hotKeys.card ∧ q.cacheKey ∉ t.hotKeys

end Tier

/-- **A step of the gateway**: a handler looks up or stores what it has built, or something changes
that is not the state cache. The two queries of `build_state` see the tables at their own times, so a
body is any. -/
inductive TierStep (ext : Externals) (allowed : Tier → NormalizedQuery → Prop) : Tier → Tier → Prop
  | answered {t clock headers params response s}
      (h : stateLookup ext clock headers params t.state = (.answered response, s)) :
      TierStep ext allowed t { t with state := s }
  | missed {t clock headers params q s}
      (h : stateLookup ext clock headers params t.state = (.missed q, s)) :
      TierStep ext allowed t { t with state := s, asked := q :: t.asked }
  | built {t before after q now body} (h : t.asked = before ++ q :: after) (ok : allowed t q) :
      TierStep ext allowed t
        ⟨(stateStore now q (.ok body) t.state).2, before ++ after, (q, body) :: t.stored⟩
  | failed {t before after q now e} (h : t.asked = before ++ q :: after) :
      TierStep ext allowed t ⟨(stateStore now q (.error e) t.state).2, before ++ after, t.stored⟩
  | other {t s} (h : s.stateCache = t.state.stateCache) :
      TierStep ext allowed t { t with state := s }

variable {ext : Externals} {allowed : Tier → NormalizedQuery → Prop} {t t' : Tier}
  {clock : Clock} {headers : Headers} {params : StateParams} {s s' : AppState}
  {q q' : NormalizedQuery}

/-! ## Lookups -/

/-- A guard touches the rate limiter only. -/
theorem guard_state (clock : Clock) (headers : Headers) (s : AppState) :
    (guard clock headers s).2 = { s with limiter := (guard clock headers s).2.limiter } := by
  unfold guard
  split
  · rfl
  · split
    · rfl
    · dsimp only
      split <;> rfl

/-- A rejection is no success. -/
theorem guard_reject {r : HttpResponse} (h : guard clock headers s = (some r, s')) :
    r.status ≠ 200 := by
  unfold guard at h
  split at h
  · obtain ⟨h, -⟩ := Prod.mk.inj h
    obtain rfl := Option.some.inj h
    decide
  · split at h
    · obtain ⟨h, -⟩ := Prod.mk.inj h
      obtain rfl := Option.some.inj h
      decide
    · dsimp only at h
      split at h
      · cases (Prod.mk.inj h).1
      · obtain ⟨h, -⟩ := Prod.mk.inj h
        obtain rfl := Option.some.inj h
        decide

/-- A request the guard lets pass. -/
theorem stateLookup_of_guard (h : guard clock headers s = (none, s')) :
    stateLookup ext clock headers params s =
      let q := NormalizedQuery.new ext params s.dashboard.maxLimit
      match s.stateCache.get clock.get q.cacheKey with
      | some body => (.answered (jsonBody body true), s')
      | none => (.missed q, s') := by
  have hs : s' = { s with limiter := s'.limiter } := by
    have := guard_state clock headers s
    rwa [h] at this
  have hlimit : s'.dashboard = s.dashboard := by rw [hs]
  have hcache : s'.stateCache = s.stateCache := by rw [hs]
  simp only [← hlimit, ← hcache]
  -- the cache has the page or it has not
  cases hc : s'.stateCache.get clock.get
    (NormalizedQuery.new ext params s'.dashboard.maxLimit).cacheKey <;>
    simp only [stateLookup, h, hc]

/-- **What a lookup does**: it leaves all but the rate limiter, a hit is in the cache, and a miss is
about the question of the request. -/
theorem stateLookup_cases {l : Lookup} (h : stateLookup ext clock headers params s = (l, s')) :
    s' = { s with limiter := s'.limiter } ∧
      (∀ body, l = .answered (jsonBody body true) →
        s.stateCache.get clock.get (NormalizedQuery.new ext params s.dashboard.maxLimit).cacheKey =
          some body) ∧
      ∀ q, l = .missed q → q = NormalizedQuery.new ext params s.dashboard.maxLimit := by
  have hguard := guard_state clock headers s
  rcases hg : guard clock headers s with ⟨_ | r, s₁⟩
  · rw [hg] at hguard
    rw [stateLookup_of_guard hg] at h
    simp only at h
    split at h
    · rename_i body hget
      obtain ⟨rfl, rfl⟩ := Prod.mk.inj h
      refine ⟨hguard, fun b hb => ?_, fun q hq => (nomatch hq)⟩
      have hbody := congrArg HttpResponse.body (Lookup.answered.inj hb)
      rw [hget]
      exact congrArg some hbody
    · obtain ⟨rfl, rfl⟩ := Prod.mk.inj h
      exact ⟨hguard, fun b hb => (nomatch hb), fun q hq => (Lookup.missed.inj hq).symm⟩
  · rw [hg] at hguard
    rw [stateLookup, hg] at h
    obtain ⟨rfl, rfl⟩ := Prod.mk.inj h
    refine ⟨hguard, fun b hb => ?_, fun q hq => (nomatch hq)⟩
    exact absurd (congrArg HttpResponse.status (Lookup.answered.inj hb)) (guard_reject hg)

/-! ## What a run keeps -/

/-- A question with the key of an unfiltered view is one. -/
theorem hot_of_key (hq' : Normal q') (hkey : q.cacheKey = q'.cacheKey)
    (hot : q.isHotView = true) : q'.isHotView = true := by
  obtain ⟨hview, hjoined⟩ := (cacheKey_eq_iff_joined q q').mp hkey
  simp only [isHotView, Bool.and_eq_true, Option.isNone_iff_eq_none, Bool.not_eq_true'] at hot ⊢
  obtain ⟨⟨htext, hnode⟩, hunattr⟩ := hot
  have hlen := congrArg List.length hjoined
  simp only [nodeText, qText, htext, hnode, List.length_append, Option.getD_none, String.toList_empty,
    List.length_nil] at hlen
  have hnode' : q'.nodeText = [] := List.eq_nil_of_length_eq_zero (by simp only [nodeText]; omega)
  have htext' : q'.qText = [] := List.eq_nil_of_length_eq_zero (by simp only [qText]; omega)
  refine ⟨⟨?_, ?_⟩, hview.unattributed ▸ hunattr⟩
  · exact getD_inj hq'.text (Option.some_ne_none _).symm htext'
  · exact getD_inj hq'.host (Option.some_ne_none _).symm hnode'

/-- What a run keeps: every entry was stored under the key of its question, pinned if that is an
unfiltered view, and no unfiltered view is given up. -/
structure TierInv (t : Tier) : Prop where
  capacity : t.cache.maxEntries = cacheEntries
  distinct : t.cache.keys.Nodup
  asked : ∀ q ∈ t.asked, Normal q
  stored : ∀ e ∈ t.stored, Normal e.1
  source : ∀ e ∈ t.cache.inner, ∃ q, e.1 = q.cacheKey ∧ (q, e.2.body) ∈ t.stored ∧
    e.2.pinned = q.isHotView
  hot : ∀ e ∈ t.stored, e.1.isHotView = true →
    ∃ entry, (e.1.cacheKey, entry) ∈ t.cache.inner ∧ entry.pinned = true

theorem tierInv_start (s : AppState) (ttl : Nat) : TierInv (.start s ttl) where
  capacity := rfl
  distinct := List.nodup_nil
  asked _ h := absurd h List.not_mem_nil
  stored _ h := absurd h List.not_mem_nil
  source _ h := absurd h List.not_mem_nil
  hot _ h := absurd h List.not_mem_nil

/-- Steps that leave the cache and the record. -/
theorem TierInv.frame (h : TierInv t) (hcache : t'.cache = t.cache) (hstored : t'.stored = t.stored)
    (hasked : ∀ q ∈ t'.asked, Normal q) : TierInv t' where
  capacity := hcache ▸ h.capacity
  distinct := hcache ▸ h.distinct
  asked := hasked
  stored := hstored ▸ h.stored
  source := by
    rw [hcache, hstored]
    exact h.source
  hot := by
    rw [hcache, hstored]
    exact h.hot

/-- **Storing a body.** -/
theorem TierInv.store (h : TierInv t) {before after : List NormalizedQuery}
    (hq : t.asked = before ++ q :: after) (now : Nat) (body : String) :
    TierInv ⟨(stateStore now q (.ok body) t.state).2, before ++ after, (q, body) :: t.stored⟩ := by
  have hnormal : Normal q := h.asked q (by simp [hq])
  refine ⟨h.capacity, keys_put_nodup h.distinct, fun x hx => h.asked x ?_, fun e he => ?_,
    fun e he => ?_, fun e he hot => ?_⟩
  · rw [hq]
    rcases List.mem_append.mp hx with hx | hx
    · exact List.mem_append_left _ hx
    · exact List.mem_append_right _ (List.mem_cons_of_mem _ hx)
  · rcases List.mem_cons.mp he with rfl | he
    · exact hnormal
    · exact h.stored e he
  · rcases mem_put he with rfl | ⟨hmem, -⟩
    · exact ⟨q, rfl, List.mem_cons_self, rfl⟩
    · obtain ⟨x, hkey, hstored, hpin⟩ := h.source e hmem
      exact ⟨x, hkey, List.mem_cons_of_mem _ hstored, hpin⟩
  · by_cases hkey : e.1.cacheKey = q.cacheKey
    · -- its entry is the new one, pinned as well
      rw [hkey]
      exact ⟨⟨now, body, q.isHotView⟩, List.mem_cons_self, hot_of_key hnormal hkey hot⟩
    · rcases List.mem_cons.mp he with rfl | he
      · exact absurd rfl hkey
      · obtain ⟨entry, hmem, hpin⟩ := h.hot e he hot
        exact ⟨entry, mem_put_of_pinned h.distinct hmem hpin hkey, hpin⟩

theorem tierInv_step (h : TierInv t) (hstep : TierStep ext allowed t t') : TierInv t' := by
  cases hstep with
  | answered hl =>
    obtain ⟨hs, -⟩ := stateLookup_cases hl
    exact h.frame (by rw [Tier.cache, hs]; rfl) rfl h.asked
  | missed hl =>
    obtain ⟨hs, -, hq⟩ := stateLookup_cases hl
    refine h.frame (by rw [Tier.cache, hs]; rfl) rfl fun x hx => ?_
    rcases List.mem_cons.mp hx with rfl | hx
    · rw [hq _ rfl]
      exact normal_new ext _ _
    · exact h.asked x hx
  | built hq _ => exact h.store hq _ _
  | failed hq =>
    refine h.frame rfl rfl fun x hx => h.asked x ?_
    rw [hq]
    rcases List.mem_append.mp hx with hx | hx
    · exact List.mem_append_left _ hx
    · exact List.mem_append_right _ (List.mem_cons_of_mem _ hx)
  | other hs => exact h.frame hs rfl h.asked

theorem tierInv_run {ttl : Nat} (run : Relation.ReflTransGen (TierStep ext allowed) (.start s ttl) t) :
    TierInv t := by
  induction run with
  | refl => exact tierInv_start s ttl
  | tail _ hstep ih => exact tierInv_step ih hstep

/-! ## Whose body a hit is -/

/-- **A hit is a body built for a question with the same key.** -/
theorem hit_stored (h : TierInv t) {body : String}
    (hit : stateLookup ext clock headers params t.state = (.answered (jsonBody body true), s)) :
    let q := NormalizedQuery.new ext params t.state.dashboard.maxLimit
    ∃ q', (q', body) ∈ t.stored ∧ (q' = q ∨ Collide q' q) := by
  intro q
  obtain ⟨-, hget, -⟩ := stateLookup_cases hit
  obtain ⟨entry, hmem, rfl, -⟩ := (get_eq_some_iff h.distinct).mp (hget _ rfl)
  obtain ⟨q', hkey, hstored, -⟩ := h.source _ hmem
  refine ⟨q', hstored, (cacheKey_eq_iff (h.stored _ hstored) ?_).mp hkey.symm⟩
  exact normal_new ext params t.state.dashboard.maxLimit

/-- **Cache keys tell questions apart exactly if these do not collide.** And in every run, a request
whose question collides with none of those stored is answered from the cache only with a body built
for its own question. -/
theorem answers_own_question (ext : Externals) :
    (∀ p p' maxLimit, let q := NormalizedQuery.new ext p maxLimit
      let q' := NormalizedQuery.new ext p' maxLimit
      (q ≠ q' → q.cacheKey ≠ q'.cacheKey) ↔ ¬ Collide q q') ∧
    ∀ s ttl t, Relation.ReflTransGen (TierStep ext fun _ _ => True) (.start s ttl) t →
      ∀ clock headers params s' body,
        stateLookup ext clock headers params t.state = (.answered (jsonBody body true), s') →
        let q := NormalizedQuery.new ext params t.state.dashboard.maxLimit
        (∀ e ∈ t.stored, ¬ Collide e.1 q) → (q, body) ∈ t.stored := by
  refine ⟨fun p p' maxLimit => ?_, fun s ttl t run clock headers params s' body hit hfree => ?_⟩
  · intro q q'
    have hkey := cacheKey_eq_iff (normal_new ext p maxLimit) (normal_new ext p' maxLimit)
    constructor
    · intro hinj hcollide
      exact hinj (Collide.ne hcollide) (hkey.mpr (Or.inr hcollide))
    · intro hfree hne heq
      rcases hkey.mp heq with h | h
      · exact hne h
      · exact hfree h
  · obtain ⟨q', hstored, rfl | hcollide⟩ := hit_stored (tierInv_run run) hit
    · exact hstored
    · exact absurd hcollide (hfree _ hstored)

/-- The gateway without a token. -/
def openState : AppState := { stateWith "" [] with expectedBearer := none }

/-- ClickHouse with one workload, on the node `a`, and the number of rows as the body. -/
def countExternals : Externals :=
  { plainExternals with
    rowsQuery := fun _ q _ =>
      .ok (if q.node = some "a" then [⟨"a", 1, none, none, none, false, 0, 0, 0, 0, 0, 0, 0, 0⟩] else [])
    stateJson := fun response => some (toString response.returned) }

/-- A request with nothing but filters. -/
def filtered (node q : Option String) : StateParams := ⟨none, none, none, q, node, none, none⟩

/-- **Two questions with one key.** Whoever asks for the text `b&q=` on the node `a` gets what was
built for the node `a&q=b`: no row instead of one. -/
theorem filters_collide :
    let p := filtered (some "a&q=b") none
    let p' := filtered (some "a") (some "b&q=")
    let q := NormalizedQuery.new countExternals p 500
    let q' := NormalizedQuery.new countExternals p' 500
    q ≠ q' ∧ q.cacheKey = q'.cacheKey ∧
      ∃ t, Relation.ReflTransGen (TierStep countExternals fun _ _ => True) (.start openState 2000) t ∧
        t.stored = [(q, "0")] ∧
        buildState countExternals ⟨(0, 0), 0, 0, 0⟩ t.state q = .ok "0" ∧
        buildState countExternals ⟨(0, 0), 0, 0, 0⟩ t.state q' = .ok "1" ∧
        (stateLookup countExternals ⟨(0, 0), 0, 0, 0⟩ [] p' t.state).1 = .answered (jsonBody "0" true) := by
  intro p p' q q'
  have hq : q = ⟨300, .cpu, .desc, none, some "a&q=b", false, 100⟩ := rfl
  have hq' : q' = ⟨300, .cpu, .desc, some "b&q=", some "a", false, 100⟩ := rfl
  have hkey : q.cacheKey = q'.cacheKey := by
    rw [hq, hq', cacheKey_eq_iff_joined]
    exact ⟨⟨rfl, rfl, rfl, rfl, rfl⟩, by decide⟩
  refine ⟨by rw [hq, hq']; simp, hkey, ?_⟩
  let t₁ : Tier := ⟨{ (Tier.start openState 2000).state with limiter := ⟨0, 1, 600, 60000⟩ }, [q], []⟩
  let t₂ : Tier := ⟨(stateStore 0 q (.ok "0") t₁.state).2, [], [(q, "0")]⟩
  have hmiss : stateLookup countExternals ⟨(0, 0), 0, 0, 0⟩ [] p (Tier.start openState 2000).state =
      (.missed q, t₁.state) := rfl
  have hlookup : TierStep countExternals (fun _ _ => True) (.start openState 2000) t₁ := .missed hmiss
  have hasked : t₁.asked = [] ++ q :: [] := rfl
  have hstore : TierStep countExternals (fun _ _ => True) t₁ t₂ := .built hasked trivial
  have run := (Relation.ReflTransGen.single hlookup).tail hstore
  have hbuild : buildState countExternals ⟨(0, 0), 0, 0, 0⟩ t₂.state q = .ok "0" := by
    rw [hq]
    simp [buildState, countExternals, plainExternals]
    rfl
  have hbuild' : buildState countExternals ⟨(0, 0), 0, 0, 0⟩ t₂.state q' = .ok "1" := by
    rw [hq']
    simp [buildState, countExternals, plainExternals]
    rfl
  refine ⟨t₂, run, rfl, hbuild, hbuild', ?_⟩
  have hguard : guard ⟨(0, 0), 0, 0, 0⟩ [] t₂.state =
      (none, { t₂.state with limiter := ⟨0, 2, 600, 60000⟩ }) := rfl
  have hlimit : t₂.state.dashboard.maxLimit = 500 := rfl
  have hget : t₂.state.stateCache.get 0 (NormalizedQuery.new countExternals p' 500).cacheKey =
      some "0" := by
    refine (get_eq_some_iff (tierInv_run run).distinct).mpr ⟨⟨0, "0", q.isHotView⟩, ?_, rfl, by decide⟩
    exact hkey ▸ List.mem_cons_self
  rw [stateLookup_of_guard hguard, hlimit]
  simp only [hget]

/-! ## How much the cache holds -/

/-- **The pinned entries are the unfiltered views stored so far.** -/
theorem pins_toFinset (h : TierInv t) : (t.cache.pins.map Prod.fst).toFinset = t.hotKeys := by
  ext k
  simp only [Tier.hotKeys, List.mem_toFinset, List.mem_map, TtlCache.pins, List.mem_filter]
  constructor
  · rintro ⟨e, ⟨hmem, hpin⟩, rfl⟩
    obtain ⟨q, hkey, hstored, hhot⟩ := h.source e hmem
    exact ⟨(q, e.2.body), ⟨hstored, hhot ▸ hpin⟩, hkey.symm⟩
  · rintro ⟨e, ⟨hstored, hhot⟩, rfl⟩
    obtain ⟨entry, hmem, hpin⟩ := h.hot e hstored hhot
    exact ⟨_, ⟨hmem, hpin⟩, rfl⟩

theorem card_hotKeys (h : TierInv t) : t.hotKeys.card = t.cache.pins.length := by
  have hnd : (t.cache.pins.map Prod.fst).Nodup := h.distinct.sublist (List.filter_sublist.map _)
  rw [← pins_toFinset h, List.toFinset_card_of_nodup hnd, List.length_map]

theorem hotKeys_subset (h : TierInv t) {k : String} (hk : k ∈ t.hotKeys) : k ∈ t.cache.keys := by
  rw [← pins_toFinset h, List.mem_toFinset] at hk
  exact (List.filter_sublist.map Prod.fst).subset hk

/-- A cache that is not over its limit is crowded exactly if the unfiltered views alone fill it. -/
theorem crowded_iff (h : TierInv t) (within : t.cache.inner.length ≤ t.cache.maxEntries) :
    Crowded t.cache q.cacheKey ↔ t.Crowds q := by
  unfold Crowded Tier.Crowds
  rw [card_hotKeys h]
  refine and_congr_right fun hfull => not_congr ⟨fun hmem => ?_, hotKeys_subset h⟩
  -- the cache is full of pinned entries
  have hpins : t.cache.pins = t.cache.inner := List.filter_sublist.eq_of_length_le (by
    show t.cache.inner.length ≤ t.cache.pins.length
    omega)
  rwa [← pins_toFinset h, List.mem_toFinset, hpins]

theorem within_step (h : TierInv t) (within : t.cache.inner.length ≤ t.cache.maxEntries)
    (hstep : TierStep ext (fun t q => ¬ t.Crowds q) t t') :
    t'.cache.inner.length ≤ t'.cache.maxEntries := by
  cases hstep with
  | answered hl | missed hl =>
    obtain ⟨hs, -⟩ := stateLookup_cases hl
    rw [Tier.cache, hs]
    exact within
  | built hq ok => exact (put_within_iff h.distinct within).mpr fun hc => ok ((crowded_iff h within).mp hc)
  | failed hq => exact within
  | other hs =>
    rw [Tier.cache, hs]
    exact within

theorem within_run {ttl : Nat}
    (run : Relation.ReflTransGen (TierStep ext fun t q => ¬ t.Crowds q) (.start s ttl) t) :
    t.cache.inner.length ≤ t.cache.maxEntries := by
  induction run with
  | refl => exact Nat.zero_le _
  | tail run hstep ih => exact within_step (tierInv_run run) ih hstep

/-- **The cache is bounded** in every run in which nothing is stored after `max_entries` different
unfiltered views but these views. Any other body then makes it exceed `max_entries`. -/
theorem cache_bounded {ttl : Nat}
    (run : Relation.ReflTransGen (TierStep ext fun t q => ¬ t.Crowds q) (.start s ttl) t) :
    t.cache.inner.length ≤ t.cache.maxEntries ∧
      ∀ q now body, (stateStore now q (.ok body) t.state).2.stateCache.inner.length ≤
        t.cache.maxEntries ↔ ¬ t.Crowds q := by
  have within := within_run run
  have h := tierInv_run run
  refine ⟨within, fun q now body => ?_⟩
  rw [← crowded_iff h within]
  exact put_within_iff h.distinct within

/-! ## Sixty-five views -/

/-- The unfiltered view of a range of `60 + k` seconds. -/
def rangeView (k : Nat) : NormalizedQuery := ⟨60 + k, .cpu, .desc, none, none, false, 100⟩

theorem rangeView_key_inj {k l : Nat} (h : (rangeView k).cacheKey = (rangeView l).cacheKey) :
    k = l := by
  have := ((cacheKey_eq_iff_joined _ _).mp h).1.rangeSecs
  simp only [rangeView] at this
  omega

/-- The gateway after `n` requests for different ranges within a minute. -/
structure Viewed (allowed : Tier → NormalizedQuery → Prop) (n : Nat) (t : Tier) : Prop where
  run : Relation.ReflTransGen (TierStep countExternals allowed) (.start openState 2000) t
  state : t.state = { openState with stateCache := t.cache, limiter := ⟨0, n, 600, 60000⟩ }
  asked : t.asked = []
  stored : t.stored.map Prod.fst = ((List.range n).map rangeView).reverse

/-- Each view is a key of its own. -/
theorem Viewed.hotKeys {n : Nat} (h : Viewed allowed n t) :
    t.hotKeys = ((List.range n).map fun k => (rangeView k).cacheKey).toFinset := by
  have hall : t.stored.filter (fun e => e.1.isHotView) = t.stored := by
    refine List.filter_eq_self.mpr fun e he => ?_
    have hq : e.1 ∈ ((List.range n).map rangeView).reverse := h.stored ▸ List.mem_map_of_mem he
    rw [List.mem_reverse] at hq
    obtain ⟨k, -, hk⟩ := List.mem_map.mp hq
    rw [← hk]
    rfl
  have hkeys : t.stored.map (fun e => e.1.cacheKey) =
      ((List.range n).map fun k => (rangeView k).cacheKey).reverse := by
    calc t.stored.map (fun e => e.1.cacheKey)
      _ = (t.stored.map Prod.fst).map cacheKey := by
        rw [List.map_map]
        rfl
      _ = ((List.range n).map fun k => (rangeView k).cacheKey).reverse := by
        rw [h.stored, List.map_reverse, List.map_map]
        rfl
  rw [Tier.hotKeys, hall, hkeys, List.toFinset_reverse]

theorem Viewed.card {n : Nat} (h : Viewed allowed n t) : t.hotKeys.card = n := by
  have hnd : ((List.range n).map fun k => (rangeView k).cacheKey).Nodup :=
    List.Nodup.map_on (fun k _ l _ hkl => rangeView_key_inj hkl) List.nodup_range
  rw [h.hotKeys, List.toFinset_card_of_nodup hnd, List.length_map, List.length_range]

/-- **One more view** is looked up in vain and stored. -/
theorem viewed_succ {n : Nat} (hn : n < 600) (h : Viewed allowed n t)
    (ok : ∀ t' : Tier, t'.stored = t.stored → t'.cache = t.cache → allowed t' (rangeView n)) :
    ∃ t', Viewed allowed (n + 1) t' := by
  have hinv := tierInv_run h.run
  let s₁ : AppState := { openState with stateCache := t.cache, limiter := ⟨0, n + 1, 600, 60000⟩ }
  have hguard : guard ⟨(0, 0), 0, 0, 0⟩ [] t.state = (none, s₁) := by
    rw [h.state]
    have hcount : ¬ n ≥ 600 := by omega
    simp [guard, openState, stateWith, authorized, RateLimiter.allow, RateLimiter.expired, hcount, s₁]
  have hview : NormalizedQuery.new countExternals ⟨some (60 + n), none, none, none, none, none, none⟩
      500 = rangeView n := by
    have hclamp : clamp (60 + n) 60 3600 = 60 + n := by
      unfold clamp
      omega
    have hlimit : clamp 100 1 500 = 100 := rfl
    simp [NormalizedQuery.new, rangeView, hclamp, hlimit, SortBy.parse, OrderBy.parse]
  have hget : t.state.stateCache.get 0 (rangeView n).cacheKey = none := by
    refine Option.eq_none_iff_forall_ne_some.mpr fun b hb => ?_
    obtain ⟨entry, hmem, -⟩ := (get_eq_some_iff hinv.distinct).mp hb
    obtain ⟨q, hkey, hq, -⟩ := hinv.source _ hmem
    have hq : q ∈ ((List.range n).map rangeView).reverse := h.stored ▸ List.mem_map_of_mem hq
    rw [List.mem_reverse] at hq
    obtain ⟨k, hk, rfl⟩ := List.mem_map.mp hq
    have := rangeView_key_inj hkey
    rw [List.mem_range] at hk
    omega
  have hmiss : stateLookup countExternals ⟨(0, 0), 0, 0, 0⟩ []
      ⟨some (60 + n), none, none, none, none, none, none⟩ t.state = (.missed (rangeView n), s₁) := by
    have hlimit : t.state.dashboard.maxLimit = 500 := by
      rw [h.state]
      rfl
    rw [stateLookup_of_guard hguard, hlimit, hview]
    simp only [hget]
  let t₁ : Tier := ⟨s₁, rangeView n :: t.asked, t.stored⟩
  have hasked : t₁.asked = [] ++ rangeView n :: t.asked := rfl
  have hlookup : TierStep countExternals allowed t t₁ := .missed hmiss
  have hstore : TierStep countExternals allowed t₁
      ⟨(stateStore 0 (rangeView n) (.ok "0") s₁).2, [] ++ t.asked, (rangeView n, "0") :: t.stored⟩ :=
    .built hasked (ok t₁ rfl rfl)
  refine ⟨_, (h.run.tail hlookup).tail hstore, rfl, h.asked, ?_⟩
  rw [List.map_cons, h.stored, List.range_succ, List.map_append, List.reverse_append]
  rfl

theorem viewed : ∀ n ≤ 600, ∃ t, Viewed (fun _ _ => True) n t
  | 0, _ => ⟨.start openState 2000, .refl, rfl, rfl, rfl⟩
  | n + 1, hn => by
    obtain ⟨t, h⟩ := viewed n (by omega)
    exact viewed_succ (by omega) h fun _ _ _ => trivial

/-- The first `max_entries` views crowd nothing out. -/
theorem viewed_apart : ∀ n ≤ cacheEntries, ∃ t, Viewed (fun t q => ¬ t.Crowds q) n t
  | 0, _ => ⟨.start openState 2000, .refl, rfl, rfl, rfl⟩
  | n + 1, hn => by
    obtain ⟨t, h⟩ := viewed_apart n (by omega)
    refine viewed_succ (hn.trans (by decide)) h fun t' hstored hcache hcrowds => ?_
    have hcard : t'.hotKeys.card = n := by rw [Tier.hotKeys, hstored, ← Tier.hotKeys, h.card]
    have hcapacity : t'.cache.maxEntries = cacheEntries := by
      rw [hcache, (tierInv_run h.run).capacity]
    have := hcrowds.1
    omega

/-- After `n` views the cache holds `n` entries or more. -/
theorem Viewed.length {n : Nat} (h : Viewed allowed n t) : n ≤ t.cache.inner.length := by
  calc n = t.cache.pins.length := by rw [← card_hotKeys (tierInv_run h.run), h.card]
    _ ≤ t.cache.inner.length := List.length_filter_le _ _

/-- Sixty-four views fill the cache. One of them can be stored again, and one more cannot. -/
theorem cache_bounded_full : ∃ t, Relation.ReflTransGen
    (TierStep countExternals fun t q => ¬ t.Crowds q) (.start openState 2000) t ∧
      t.cache.inner.length = 64 ∧
      (stateStore 0 (rangeView 63) (.ok "0") t.state).2.stateCache.inner.length ≤ 64 ∧
      64 < (stateStore 0 (rangeView 64) (.ok "0") t.state).2.stateCache.inner.length := by
  obtain ⟨t, h⟩ := viewed_apart 64 (Nat.le_refl _)
  have hcapacity : t.cache.maxEntries = 64 := (tierInv_run h.run).capacity
  obtain ⟨hwithin, hstore⟩ := cache_bounded h.run
  rw [hcapacity] at hwithin hstore
  have hmem : ∀ k, (rangeView k).cacheKey ∈ t.hotKeys ↔ k < 64 := by
    intro k
    rw [h.hotKeys, List.mem_toFinset, List.mem_map]
    constructor
    · rintro ⟨l, hl, hkey⟩
      exact rangeView_key_inj hkey ▸ List.mem_range.mp hl
    · exact fun hk => ⟨k, List.mem_range.mpr hk, rfl⟩
  refine ⟨t, h.run, Nat.le_antisymm hwithin h.length, (hstore _ _ _).mpr ?_, ?_⟩
  · exact fun hcrowds => hcrowds.2 ((hmem 63).mpr (by decide))
  · refine Nat.lt_of_not_le fun hle => (hstore _ _ _).mp hle ⟨?_, ?_⟩
    · rw [hcapacity, h.card]
    · exact fun hin => absurd ((hmem 64).mp hin) (by decide)

/-- **Sixty-five views overflow the cache.** An anonymous caller asks for sixty-five different ranges
within a minute, and all of them stay. -/
theorem views_overflow : ∃ t,
    Relation.ReflTransGen (TierStep countExternals fun _ _ => True) (.start openState 2000) t ∧
      t.cache.maxEntries < t.cache.inner.length := by
  obtain ⟨t, h⟩ := viewed 65 (by decide)
  refine ⟨t, h.run, ?_⟩
  rw [(tierInv_run h.run).capacity]
  exact h.length

end Statix.Gateway
