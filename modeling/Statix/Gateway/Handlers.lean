import Statix.Gateway.Process
import Statix.Lib.Json

/-!
# The handlers of the gateway

Model of what each data endpoint does with one request: `handler` and `ingest_inner`
(`statix-gateway/src/routes/ingest.rs`), `workloads_summary` (`routes/query.rs`), and
`state_handler` and `health_handler` with the response cache and the rate limiter
(`routes/dashboard/mod.rs`, `routes/dashboard/cache.rs`).

* A handler is a function of the request, the `AppState` and its clock readings. The rows ClickHouse
  has stored are part of the state.
* What the handlers call outside the repository is collected in `Externals`: axum's extractors
  (which see the request only), the ClickHouse queries, `serde_json` for the two dashboard bodies,
  `str::trim` and `str::to_lowercase`.
* Lists stand for the hash maps of the caches. Cache statistics, metrics and log lines are left out,
  and no mutex is poisoned.
-/

namespace Statix.Gateway

open Statix.Lib
open Statix.Rollup

/-! ## Requests and responses -/

/-- `HeaderMap`: names in lower case, values as bytes. -/
abbrev Headers := List (String × List UInt8)

/-- `HeaderMap::get`. -/
def Headers.get (h : Headers) (name : String) : Option (List UInt8) :=
  (h.find? fun e => e.1 == name).map Prod.snd

/-- `HeaderValue::to_str`: visible ASCII only. -/
def toStr (value : List UInt8) : Option String :=
  if value.all fun b => (32 ≤ b && b < 127) || b == 9 then
    some (String.ofList (value.map fun b => Char.ofNat b.toNat))
  else none

/-- The text of the `Authorization` header. -/
def authorization (headers : Headers) : Option String :=
  (headers.get "authorization").bind toStr

/-- A response. -/
structure HttpResponse where
  status : Nat
  headers : List (String × String)
  body : String
  deriving DecidableEq

/-- A `StatusCode` alone. -/
def statusOnly (status : Nat) : HttpResponse := ⟨status, [], ""⟩

/-- A `StatusCode` with a text. -/
def statusText (status : Nat) (text : String) : HttpResponse :=
  ⟨status, [("content-type", "text/plain; charset=utf-8")], text⟩

/-! ## The cache and the rate limiter -/

/-- `Entry`. -/
structure CacheEntry where
  storedAt : Nat
  body : String
  pinned : Bool

/-- `TtlCache`. -/
structure TtlCache where
  inner : List (String × CacheEntry)
  ttl : Nat
  maxEntries : Nat

/-- `TtlCache::get`. -/
def TtlCache.get (c : TtlCache) (now : Nat) (key : String) : Option String :=
  match c.inner.find? fun e => e.1 == key with
  | none => none
  | some (_, entry) => if now - entry.storedAt ≤ c.ttl then some entry.body else none

/-- The key `put` evicts: of the entries that are not pinned the oldest. -/
def victimOf (entries : List (String × CacheEntry)) : Option String :=
  (entries.filter fun e => !e.2.pinned).foldl
    (fun best e => match best with
      | none => some e
      | some b => if e.2.storedAt < b.2.storedAt then some e else some b) none
    |>.map Prod.fst

/-- `TtlCache::put`. -/
def TtlCache.put (c : TtlCache) (now : Nat) (key body : String) (pinned : Bool) : TtlCache :=
  let kept := c.inner.filter fun e => now - e.2.storedAt ≤ c.ttl || e.2.pinned
  let kept :=
    if kept.length ≥ c.maxEntries && !(kept.any fun e => e.1 == key) then
      match victimOf kept with
      | none => kept
      | some k => kept.filter fun e => e.1 != k
    else kept
  { c with inner := (key, ⟨now, body, pinned⟩) :: kept.filter fun e => e.1 != key }

/-- `RateLimiter`. -/
structure RateLimiter where
  started : Nat
  count : Nat
  maxPerWindow : Nat
  window : Nat

/-- The clock readings of `allow`: for `elapsed`, and for the restart of a window that has expired. -/
abbrev Readings := Nat × Nat

/-- The guard of a reset. -/
def RateLimiter.expired (l : RateLimiter) (now : Nat) : Bool := now - l.started ≥ l.window

/-- `RateLimiter::allow`. -/
def RateLimiter.allow (l₀ : RateLimiter) (t : Readings) : Bool × RateLimiter :=
  let l := if l₀.expired t.1 then { l₀ with started := t.2, count := 0 } else l₀
  if l.count ≥ l.maxPerWindow then (false, l) else (true, { l with count := l.count + 1 })

/-! ## State -/

/-- `DashboardConfig`, the part the handlers read. -/
structure DashboardConfig where
  enabled : Bool
  maxLimit : Nat

/-- The ingest channel: rows in it, permits reserved by others, its capacity, and whether the
receiver is gone. -/
structure Channel where
  queue : List MetricRow
  reserved : Nat
  capacity : Nat
  closed : Bool

/-- `AppState`, with the rows of `statix.workload_metrics` as the queries of a request see them:
`tables` the first, and `tablesThen` the second, after what was inserted and merged meanwhile. -/
structure AppState where
  ingestTx : Channel
  chHealthy : Bool
  expectedBearer : Option String
  tables : List MetricRow
  tablesThen : List MetricRow
  dashboard : DashboardConfig
  stateCache : TtlCache
  healthCache : TtlCache
  limiter : RateLimiter

/-- The clock readings of a handler: `Instant`s in `allow`, `get` and `put`, and the system time. -/
structure Clock where
  allow : Readings
  get : Nat
  put : Nat
  wallNs : Nat

/-! ## Parameters and rows -/

/-- `Sort`. -/
inductive SortBy where
  | cpu
  | memory
  | memoryPeak
  | execs
  | lastSeen
  deriving DecidableEq

/-- `Sort::parse`. -/
def SortBy.parse (s : Option String) : SortBy :=
  match s.getD "cpu" with
  | "mem" | "memory" => .memory
  | "mem_peak" | "memory_peak" => .memoryPeak
  | "execs" | "exec_count" => .execs
  | "last_seen" => .lastSeen
  | _ => .cpu

/-- `Sort::as_str`. -/
def SortBy.asStr : SortBy → String
  | .cpu => "cpu"
  | .memory => "mem"
  | .memoryPeak => "mem_peak"
  | .execs => "execs"
  | .lastSeen => "last_seen"

/-- `Order`. -/
inductive OrderBy where
  | asc
  | desc
  deriving DecidableEq

/-- `Order::parse`. -/
def OrderBy.parse (s : Option String) : OrderBy :=
  match s.getD "desc" with
  | "asc" => .asc
  | _ => .desc

/-- `Order::as_str`. -/
def OrderBy.asStr : OrderBy → String
  | .asc => "asc"
  | .desc => "desc"

/-- `StateParams`. -/
structure StateParams where
  rangeSecs : Option Nat
  sort : Option String
  order : Option String
  q : Option String
  node : Option String
  unattributed : Option Bool
  limit : Option Nat

/-- `SummaryParams`. -/
structure SummaryParams where
  hours : Option Nat

/-- `WorkloadSummaryRow`. -/
structure WorkloadSummaryRow where
  cgroupId : Nat
  ns : Option String
  pod : Option String
  container : Option String
  peakMemory : Nat
  totalExecs : Nat
  totalCpuUsec : Nat
  deriving DecidableEq

/-- `WorkloadLive`. -/
structure WorkloadLive where
  node : String
  cgroupId : Nat
  ns : Option String
  pod : Option String
  container : Option String
  k8sResolved : Bool
  memoryBytesLast : Nat
  memoryBytesMax : Nat
  cpuUsageUsec : Nat
  cpuMillicores : Float
  execCount : Nat
  sampleCount : Nat
  windowStartNs : Nat
  windowEndNs : Nat

/-- `TotalsRow`. -/
structure TotalsRow where
  matchedCount : Nat := 0
  memoryBytes : Nat := 0
  execCount : Nat := 0
  cpuMillicores : Float := 0
  unattributedCount : Nat := 0
  newestWindowEndNs : Nat := 0

/-- `NodeRow`. -/
structure NodeRow where
  node : String
  lastSeenNs : Nat

/-- `StateResponse`, with its `Totals`. -/
structure StateResponse where
  generatedAtNs : Nat
  rangeSecs : Nat
  sort : String
  order : String
  filterActive : Bool
  returned : Nat
  totals : TotalsRow
  execRatePerSec : Float
  workloads : List WorkloadLive

/-- `NodeHealth`. -/
structure NodeHealth where
  node : String
  lastSeenNs : Nat
  ageSecs : Float
  stale : Bool

/-- `HealthResponse`, with its parts. -/
structure HealthResponse where
  generatedAtNs : Nat
  ready : Bool
  mpscUsed : Nat
  mpscCapacity : Nat
  healthy : Bool
  queryOk : Bool
  newestWindowEndNs : Nat
  ageSecs : Float
  stale : Bool
  hasData : Bool
  nodes : List NodeHealth

/-- `NormalizedQuery`. -/
structure NormalizedQuery where
  rangeSecs : Nat
  sort : SortBy
  order : OrderBy
  q : Option String
  node : Option String
  unattributed : Bool
  limit : Nat

/-- What the handlers call outside the repository. An extractor's rejection is its response. -/
structure Externals where
  /-- `Json<IngestBatch>` behind the body limit. -/
  parseBatch : Headers → List UInt8 → Except HttpResponse IngestBatch
  parseStateParams : String → Except HttpResponse StateParams
  parseSummaryParams : String → Except HttpResponse SummaryParams
  trim : String → String
  toLowercase : String → String
  /-- `SUMMARY_SQL` with its `cutoff_ns`. -/
  summaryQuery : List MetricRow → Nat → Except String (List WorkloadSummaryRow)
  /-- `sql::rows` and `sql::totals` with the parameters of a question and the `cutoff_ns`. -/
  rowsQuery : List MetricRow → NormalizedQuery → Nat → Except String (List WorkloadLive)
  totalsQuery : List MetricRow → NormalizedQuery → Nat → Except String (List TotalsRow)
  /-- `sql::nodes` with its `cutoff_ns`. -/
  nodesQuery : List MetricRow → Nat → Except String (List NodeRow)
  stateJson : StateResponse → Option String
  healthJson : HealthResponse → Option String

variable (ext : Externals)

/-! ## `POST /ingest` -/

/-- Outcome of `try_reserve_many`. -/
inductive Reserve where
  | permits
  | full
  | closed
  deriving DecidableEq

/-- `Sender::try_reserve_many`. -/
def Channel.tryReserveMany (c : Channel) (n : Nat) : Reserve :=
  if n > c.capacity then .full
  else if c.closed then .closed
  else if c.queue.length + c.reserved + n ≤ c.capacity then .permits
  else .full

/-- `ingest_inner`. -/
def ingestInner (s : AppState) (batch : IngestBatch) : Answer × AppState :=
  if batch.schemaVersion < minSchemaVersion || batch.schemaVersion > maxSchemaVersion then
    (.inner (.unsupportedSchema batch.schemaVersion), s)
  else if s.chHealthy = false then (.inner .unavailable, s)
  else if batch.workloads.isEmpty then (.inner .ok, s)
  else
    match s.ingestTx.tryReserveMany batch.workloads.length with
    | .full => (.inner .bufferFull, s)
    | .closed => (.writerUnavailable, s)
    | .permits =>
      let rows := batch.workloads.map (MetricRow.fromIngest batch)
      (.inner .ok, { s with ingestTx := { s.ingestTx with queue := s.ingestTx.queue ++ rows } })

/-- The response that carries an answer. -/
def Answer.response (a : Answer) : HttpResponse :=
  if a.body = "" then statusOnly a.status else statusText a.status a.body

/-- `handler` of `POST /ingest`. -/
def ingestHandler (headers : Headers) (body : List UInt8) (s : AppState) :
    HttpResponse × AppState :=
  match ext.parseBatch headers body with
  | .error rejection => (rejection, s)
  | .ok batch =>
    match s.expectedBearer with
    | some expected =>
      if authorization headers = some expected then
        let (answer, s) := ingestInner s batch
        (answer.response, s)
      else (Answer.unauthorized.response, s)
    | none =>
      let (answer, s) := ingestInner s batch
      (answer.response, s)

/-! ## `GET /api/v1/workloads/summary` -/

/-- Saturating arithmetic on `u64`. -/
def saturatingMul (a b : Nat) : Nat := min (a * b) (2 ^ 64 - 1)

/-- `cutoff_ns_from_hours`: the second product wraps. -/
def cutoffNsFromHours (nowNs hours : Nat) : Nat :=
  nowNs % 2 ^ 64 - saturatingMul hours 3600 * 1000000000 % 2 ^ 64

/-- The fields of a `WorkloadSummaryRow` in JSON. -/
def WorkloadSummaryRow.json (r : WorkloadSummaryRow) : Json.Text :=
  let label (v : Option String) : Json.Text := v.elim "null".toList Json.string
  Json.object [
    ("cgroup_id", Json.nat r.cgroupId),
    ("namespace", label r.ns),
    ("pod", label r.pod),
    ("container", label r.container),
    ("peak_memory", Json.nat r.peakMemory),
    ("total_execs", Json.nat r.totalExecs),
    ("total_cpu_usec", Json.nat r.totalCpuUsec)]

/-- `workloads_summary`. It does not take the headers. -/
def workloadsSummary (clock : Clock) (query : String) (s : AppState) : HttpResponse × AppState :=
  match ext.parseSummaryParams query with
  | .error rejection => (rejection, s)
  | .ok params =>
    let cutoffNs := cutoffNsFromHours clock.wallNs (params.hours.getD 24)
    match ext.summaryQuery s.tables cutoffNs with
    | .error _ => (statusOnly 500, s)
    | .ok rows =>
      (⟨200, [("content-type", "application/json")],
        String.ofList (Json.array (rows.map WorkloadSummaryRow.json))⟩, s)

/-! ## The dashboard -/

/-- `authorized`. -/
def authorized (headers : Headers) (s : AppState) : Bool :=
  match s.expectedBearer with
  | none => true
  | some expected => authorization headers == some expected

/-- `guard`: the response of a request that goes no further. -/
def guard (clock : Clock) (headers : Headers) (s : AppState) :
    Option HttpResponse × AppState :=
  if s.dashboard.enabled = false then (some (statusText 404 "Dashboard disabled."), s)
  else if authorized headers s = false then (some (statusOnly 401), s)
  else
    let (allowed, limiter) := s.limiter.allow clock.allow
    let s := { s with limiter := limiter }
    if allowed then (none, s) else (some (statusText 429 "Rate limit exceeded."), s)

/-- `json_body`. -/
def jsonBody (body : String) (cacheHit : Bool) : HttpResponse :=
  ⟨200, [("content-type", "application/json"), ("x-statix-cache", if cacheHit then "hit" else "miss"),
    ("cache-control", "no-store")], body⟩

/-- `clamp`. -/
def clamp (n lo hi : Nat) : Nat := max lo (min n hi)

/-- `NormalizedQuery::new`. -/
def NormalizedQuery.new (p : StateParams) (maxLimit : Nat) : NormalizedQuery where
  rangeSecs := clamp (p.rangeSecs.getD 300) 60 3600
  sort := SortBy.parse p.sort
  order := OrderBy.parse p.order
  q := ((p.q.map fun s => ext.toLowercase (ext.trim s)).filter fun s => !s.isEmpty).map fun s =>
    if s.length > 64 then String.ofList (s.toList.take 64) else s
  node := (p.node.map ext.trim).filter fun s => !s.isEmpty && s.length ≤ 64
  unattributed := p.unattributed.getD false
  limit := clamp (p.limit.getD 100) 1 maxLimit

/-- `cache_key`. -/
def NormalizedQuery.cacheKey (q : NormalizedQuery) : String :=
  "r=" ++ toString q.rangeSecs ++ "&s=" ++ q.sort.asStr ++ "&o=" ++ q.order.asStr ++ "&u=" ++
    toString q.unattributed ++ "&l=" ++ toString q.limit ++ "&n=" ++ q.node.getD "" ++ "&q=" ++
    q.q.getD ""

/-- `is_hot_view`. -/
def NormalizedQuery.isHotView (q : NormalizedQuery) : Bool :=
  q.q.isNone && q.node.isNone && !q.unattributed

/-- `cutoff_ns`. -/
def NormalizedQuery.cutoffNs (q : NormalizedQuery) (nowNs : Nat) : Nat :=
  nowNs - saturatingMul q.rangeSecs 1000000000

/-- `build_state`. It awaits its two queries one after the other. -/
def buildState (clock : Clock) (s : AppState) (q : NormalizedQuery) : Except String String := do
  let generatedAtNs := clock.wallNs % 2 ^ 64
  let cutoffNs := q.cutoffNs generatedAtNs
  let workloads ← ext.rowsQuery s.tables q cutoffNs
  let totals ← ext.totalsQuery s.tablesThen q cutoffNs
  let t := totals.head?.getD {}
  let response : StateResponse :=
    { generatedAtNs := generatedAtNs
      rangeSecs := q.rangeSecs
      sort := q.sort.asStr
      order := q.order.asStr
      filterActive := !q.isHotView
      returned := workloads.length
      totals := t
      execRatePerSec :=
        if q.rangeSecs > 0 then Float.ofNat t.execCount / Float.ofNat q.rangeSecs else 0
      workloads := workloads }
  match ext.stateJson response with
  | none => .error "dashboard serialize"
  | some body => .ok body

/-- How the lookup of a request ends: with a response, or with a question to build. -/
inductive Lookup where
  | answered (response : HttpResponse)
  | missed (q : NormalizedQuery)

/-- `state_handler` up to its `await`. -/
def stateLookup (clock : Clock) (headers : Headers) (params : StateParams) (s : AppState) :
    Lookup × AppState :=
  match guard clock headers s with
  | (some reject, s) => (.answered reject, s)
  | (none, s) =>
    let q := NormalizedQuery.new ext params s.dashboard.maxLimit
    match s.stateCache.get clock.get q.cacheKey with
    | some body => (.answered (jsonBody body true), s)
    | none => (.missed q, s)

/-- `state_handler` after its `await`, with what `build_state` has returned. -/
def stateStore (now : Nat) (q : NormalizedQuery) (built : Except String String) (s : AppState) :
    HttpResponse × AppState :=
  match built with
  | .ok body =>
    (jsonBody body false, { s with stateCache := s.stateCache.put now q.cacheKey body q.isHotView })
  | .error _ => (statusText 503 "ClickHouse query failed; see /api/v1/dashboard/health.", s)

/-- `state_handler`. -/
def stateHandler (clock : Clock) (headers : Headers) (query : String) (s : AppState) :
    HttpResponse × AppState :=
  match ext.parseStateParams query with
  | .error rejection => (rejection, s)
  | .ok params =>
    match stateLookup ext clock headers params s with
    | (.answered response, s) => (response, s)
    | (.missed q, s) => stateStore clock.put q (buildState ext clock s q) s

/-- `build_health`. -/
def buildHealth (clock : Clock) (s : AppState) : String :=
  let generatedAtNs := clock.wallNs % 2 ^ 64
  let remaining := s.ingestTx.capacity - (s.ingestTx.queue.length + s.ingestTx.reserved)
  let cutoffNs := generatedAtNs - 3600 * 1000000000
  let (nodes, queryOk) := match ext.nodesQuery s.tables cutoffNs with
    | .ok rows => (rows, true)
    | .error _ => ([], false)
  let newest := (nodes.map NodeRow.lastSeenNs).foldl max 0
  let age (ts : Nat) : Float :=
    if ts = 0 then 0 else Float.ofNat (generatedAtNs - ts) / 1000000000
  let response : HealthResponse :=
    { generatedAtNs := generatedAtNs
      ready := !s.ingestTx.closed && s.chHealthy
      mpscUsed := s.ingestTx.capacity - remaining
      mpscCapacity := s.ingestTx.capacity
      healthy := s.chHealthy
      queryOk := queryOk
      newestWindowEndNs := newest
      ageSecs := age newest
      stale := newest != 0 && age newest > 60
      hasData := newest != 0
      nodes := nodes.map fun n => ⟨n.node, n.lastSeenNs, age n.lastSeenNs, age n.lastSeenNs > 60⟩ }
  (ext.healthJson response).getD "\x7b\"error\":\"serialize failed\"\x7d"

/-- `health_handler`. -/
def healthHandler (clock : Clock) (headers : Headers) (s : AppState) : HttpResponse × AppState :=
  match guard clock headers s with
  | (some reject, s) => (reject, s)
  | (none, s) =>
    match s.healthCache.get clock.get "health" with
    | some body => (jsonBody body true, s)
    | none =>
      let body := buildHealth ext clock s
      (jsonBody body false, { s with healthCache := s.healthCache.put clock.put "health" body true })

end Statix.Gateway
