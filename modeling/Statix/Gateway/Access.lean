import Statix.Gateway.Handlers

/-!
# Who may read and write

Each handler checks the `Authorization` header by itself; the router has no layer for it. What a
caller without the token learns is stated over two runs: the same request, in two states that differ
only in the stored rows and in the response caches.

* `Blind`: the two responses are equal, and nothing enters the ingest channel.
* `blind_ingest`, `blind_state`, `blind_health`: three of the endpoints are, for every request
  without the token.
* `summary_leaks`: `workloads_summary` answers everybody from the table.
* **`token_protects_iff`**: a request without the token is blind unless it is a summary request whose
  query parses.
-/

namespace Statix.Gateway

open Statix.Lib
open Statix.Rollup

/-- The data endpoints. -/
inductive Route where
  | ingest
  | workloadsSummary
  | dashboardState
  | dashboardHealth
  deriving DecidableEq

/-- A request to one of them. -/
structure Request where
  route : Route
  headers : Headers
  query : String
  body : List UInt8

/-- The router of `main`. -/
def serve (ext : Externals) (clock : Clock) (req : Request) (s : AppState) :
    HttpResponse × AppState :=
  match req.route with
  | .ingest => ingestHandler ext req.headers req.body s
  | .workloadsSummary => workloadsSummary ext clock req.query s
  | .dashboardState => stateHandler ext clock req.headers req.query s
  | .dashboardHealth => healthHandler ext clock req.headers s

/-- Two states that differ at most in the stored rows and the response caches. -/
def SameBut (s t : AppState) : Prop :=
  t = { s with
    tables := t.tables
    tablesThen := t.tablesThen
    stateCache := t.stateCache
    healthCache := t.healthCache }

/-- **Nothing can be learned about the stored rows, and nothing written**, by this request, on a
gateway that expects the header `b`. -/
def Blind (ext : Externals) (clock : Clock) (b : String) (req : Request) : Prop :=
  ∀ s t, s.expectedBearer = some b → SameBut s t →
    (serve ext clock req s).1 = (serve ext clock req t).1 ∧
    (serve ext clock req s).2.ingestTx = s.ingestTx ∧
    (serve ext clock req t).2.ingestTx = t.ingestTx

/-- A request for the summary that its extractor accepts. -/
def asksSummary (ext : Externals) (req : Request) : Bool :=
  req.route == .workloadsSummary && (ext.parseSummaryParams req.query).toOption.isSome

variable {ext : Externals} {clock : Clock} {b : String} {req : Request} {s t : AppState}

/-! ## Endpoints that check -/

theorem SameBut.bearer (h : SameBut s t) : t.expectedBearer = s.expectedBearer := by
  rw [h]

/-- `handler` of `POST /ingest` answers without looking at the state. -/
theorem ingest_unauthorized {headers : Headers} {body : List UInt8}
    (hs : s.expectedBearer = some b) (hauth : authorization headers ≠ some b) :
    ingestHandler ext headers body s =
      (match ext.parseBatch headers body with
        | .error rejection => rejection
        | .ok _ => Answer.unauthorized.response, s) := by
  unfold ingestHandler
  cases ext.parseBatch headers body with
  | error rejection => rfl
  | ok batch => simp [hs, hauth]

/-- `guard` turns the request away before the limiter. -/
theorem guard_unauthorized {headers : Headers} (hs : s.expectedBearer = some b)
    (hauth : authorization headers ≠ some b) :
    guard clock headers s =
      (some (if s.dashboard.enabled then statusOnly 401 else statusText 404 "Dashboard disabled."),
        s) := by
  unfold guard authorized
  cases henabled : s.dashboard.enabled with
  | false => simp
  | true => simp [hs, hauth]

theorem blind_ingest (hr : req.route = .ingest) (hauth : authorization req.headers ≠ some b) :
    Blind ext clock b req := by
  intro s t hs hst
  have ht : t.expectedBearer = some b := hst.bearer.trans hs
  unfold serve
  rw [hr]
  simp only
  rw [ingest_unauthorized hs hauth, ingest_unauthorized ht hauth]
  exact ⟨rfl, rfl, rfl⟩

theorem SameBut.dashboard (h : SameBut s t) : t.dashboard = s.dashboard := by
  rw [h]

theorem blind_state (hr : req.route = .dashboardState)
    (hauth : authorization req.headers ≠ some b) : Blind ext clock b req := by
  intro s t hs hst
  have ht : t.expectedBearer = some b := hst.bearer.trans hs
  unfold serve stateHandler stateLookup
  rw [hr]
  simp only
  cases ext.parseStateParams req.query with
  | error rejection => exact ⟨rfl, rfl, rfl⟩
  | ok params =>
    simp only [guard_unauthorized hs hauth, guard_unauthorized ht hauth, hst.dashboard, and_self]

theorem blind_health (hr : req.route = .dashboardHealth)
    (hauth : authorization req.headers ≠ some b) : Blind ext clock b req := by
  intro s t hs hst
  have ht : t.expectedBearer = some b := hst.bearer.trans hs
  unfold serve healthHandler
  rw [hr]
  simp only [guard_unauthorized hs hauth, guard_unauthorized ht hauth, hst.dashboard, and_self]

/-! ## The endpoint that does not -/

/-- The row `SUMMARY_SQL` returns for the only row of the table. -/
def summaryOf (r : MetricRow) : WorkloadSummaryRow :=
  ⟨r.cgroupId, r.ns, r.pod, r.container, r.memoryBytesMax, r.execCount, r.cpuUsageUsec⟩

/-- What ClickHouse answers to `SUMMARY_SQL` on the smallest tables. -/
structure AnswersSummary (ext : Externals) : Prop where
  empty : ∀ cutoffNs, ext.summaryQuery [] cutoffNs = .ok []
  single : ∀ row cutoffNs, cutoffNs ≤ row.windowStartNs →
    ext.summaryQuery [row] cutoffNs = .ok [summaryOf row]

/-- A row of a window that started at `ns`. -/
def rowAt (ns : Nat) : MetricRow :=
  ⟨ns, ns, "node", "batch", "0", 1, none, none, none, false, 0, 0, 1, 0, 0, 0, 0, 0, 0⟩

/-- Any state with a table and the header it expects. -/
def stateWith (b : String) (tables : List MetricRow) : AppState where
  ingestTx := ⟨[], 0, 1024, false⟩
  chHealthy := true
  expectedBearer := some b
  tables := tables
  tablesThen := tables
  dashboard := ⟨true, 500⟩
  stateCache := ⟨[], 2000, 64⟩
  healthCache := ⟨[], 2000, 4⟩
  limiter := ⟨0, 0, 600, 60000⟩

/-- **`workloads_summary` tells an empty table from one with a row**, whoever asks. -/
theorem summary_leaks (ch : AnswersSummary ext) (h : asksSummary ext req = true) :
    ¬ Blind ext clock b req := by
  intro hblind
  simp only [asksSummary, Bool.and_eq_true, beq_iff_eq] at h
  obtain ⟨hr, hp⟩ := h
  cases hparse : ext.parseSummaryParams req.query with
  | error rejection =>
    rw [hparse] at hp
    cases hp
  | ok params =>
    generalize hcut : cutoffNsFromHours clock.wallNs (params.hours.getD 24) = cutoffNs
    obtain ⟨heq, -⟩ := hblind (stateWith b []) (stateWith b [rowAt cutoffNs]) rfl rfl
    have hone : ext.summaryQuery [rowAt cutoffNs] cutoffNs = .ok [summaryOf (rowAt cutoffNs)] :=
      ch.single _ _ (Nat.le_refl _)
    unfold serve workloadsSummary at heq
    rw [hr] at heq
    simp only [hparse, stateWith, hcut, ch.empty, hone, HttpResponse.mk.injEq, true_and] at heq
    have htext := String.ofList_injective heq
    exact Json.array_ne_nil (Json.object_ne_nil _) htext.symm

/-- **The token protects every request but the readable summary ones.** A request without the token
learns nothing about the stored rows and writes nothing exactly if it is not a summary request that
the extractor accepts. -/
theorem token_protects_iff (ch : AnswersSummary ext)
    (hauth : authorization req.headers ≠ some b) :
    Blind ext clock b req ↔ asksSummary ext req = false := by
  constructor
  · intro hblind
    by_contra hs
    exact summary_leaks ch (Bool.eq_true_of_not_eq_false hs) hblind
  · intro hs
    cases hr : req.route with
    | ingest => exact blind_ingest hr hauth
    | dashboardState => exact blind_state hr hauth
    | dashboardHealth => exact blind_health hr hauth
    | workloadsSummary =>
      -- the extractor has rejected the query
      intro s t _ _
      unfold serve workloadsSummary
      rw [hr]
      simp only
      cases hparse : ext.parseSummaryParams req.query with
      | error rejection => exact ⟨rfl, rfl, rfl⟩
      | ok params => simp [asksSummary, hr, hparse, Except.toOption] at hs

/-! ## A gateway with a token -/

/-- The columns `SUMMARY_SQL` groups by. -/
def groupKey (r : MetricRow) : Nat × Option String × Option String × Option String :=
  (r.cgroupId, r.ns, r.pod, r.container)

/-- `argMax(memory_bytes_max, window_start_ns)` of a group. -/
def peakMemory (group : List MetricRow) : Nat :=
  (group.foldl (fun best r => if best.1 ≤ r.windowStartNs then (r.windowStartNs, r.memoryBytesMax)
    else best) (0, 0)).2

/-- `SUMMARY_SQL`. -/
def summarize (rows : List MetricRow) (cutoffNs : Nat) : List WorkloadSummaryRow :=
  let kept := rows.filter fun r => cutoffNs ≤ r.windowStartNs
  let groups := (kept.map groupKey).eraseDups.map fun key =>
    let group := kept.filter fun r => groupKey r = key
    ⟨key.1, key.2.1, key.2.2.1, key.2.2.2, peakMemory group,
      (group.map MetricRow.execCount).sum, (group.map MetricRow.cpuUsageUsec).sum⟩
  (groups.mergeSort fun a b => b.peakMemory ≤ a.peakMemory).take 100

/-- ClickHouse as its queries are written, and extractors that know requests without parameters. -/
def plainExternals : Externals where
  parseBatch _ _ := .error (statusText 400 "Failed to parse the request body as JSON")
  parseStateParams query :=
    if query = "" then .ok ⟨none, none, none, none, none, none, none⟩
    else .error (statusText 400 "Failed to deserialize query string")
  parseSummaryParams query :=
    if query = "" then .ok ⟨none⟩ else .error (statusText 400 "Failed to deserialize query string")
  trim := id
  toLowercase := id
  summaryQuery rows cutoffNs := .ok (summarize rows cutoffNs)
  rowsQuery _ _ _ := .ok []
  totalsQuery _ _ _ := .ok []
  nodesQuery _ _ := .ok []
  stateJson _ := none
  healthJson _ := none

theorem plainExternals_answers : AnswersSummary plainExternals where
  empty := by
    intro cutoffNs
    simp [plainExternals, summarize]
  single := by
    intro row cutoffNs h
    simp [plainExternals, summarize, groupKey, peakMemory, summaryOf, h, List.eraseDups_cons]

/-- Without the token the dashboard says nothing. -/
theorem token_protects_dashboard :
    Blind plainExternals ⟨(0, 0), 0, 0, 0⟩ "Bearer secret" ⟨.dashboardState, [], "", []⟩ :=
  (token_protects_iff plainExternals_answers (by decide)).mpr rfl

/-- **Without the token the summary is served.** A request with no header at all sees whether the
table is empty. -/
theorem summary_without_token :
    authorization [] ≠ some "Bearer secret" ∧
      ¬ Blind plainExternals ⟨(0, 0), 0, 0, 0⟩ "Bearer secret" ⟨.workloadsSummary, [], "", []⟩ :=
  ⟨by decide, summary_leaks plainExternals_answers rfl⟩

end Statix.Gateway
