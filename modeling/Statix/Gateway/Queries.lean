import Mathlib.Data.Prod.Lex
import Mathlib.Data.String.Basic
import Statix.Gateway.Access
import Statix.Lib.Query

/-!
# The queries of the dashboard

Model of `statix-gateway/src/routes/dashboard/sql.rs`, with the parameters `build_state` and
`build_health` bind (`routes/dashboard/mod.rs`). A query builder is the query its text states, read
by an engine from the rows of `statix.workload_metrics`: an inner aggregate with one row for each
workload, the outer filters, and the projection with its order and limit, or the totals.

* ClickHouse is a parameter. `RunsQueries` says that a query that is answered has been read by some
  engine that keeps to the manual (`Engine.Documented`), another one for each query if it likes. Of
  its scalar functions (`Functions`) nothing is assumed.
* A query may fail. A parameter that the text names and nothing binds fails it.
* `argMax` leaves NULL out, so that the labels of a workload are the newest it has in range, which
  need not be those of its newest row.
* `build_state` awaits two queries. The second one sees the table as it is then.

Results:

* `mem_matched`: what the queries are about, whatever the engine chooses.
* **`page_shows_current`**: the rows of a question are the newest rows of the workloads it asks for,
  the first ones in its order.
* **`state_of_same_rows`**: the order and the copies of the stored rows make no difference.
* **`tiles_cover_matches`**: the totals are of every match, the rows of the first `limit`.
* **`health_reports`**: each node once, with its newest window, or no node and a failed query.
-/

namespace Statix.Gateway

open Statix.Lib
open Statix.Rollup

/-- The scalar functions of ClickHouse in the queries, with its doubles. -/
structure Functions (F : Type) where
  ofNat : Nat → F
  mul : F → F → F
  div : F → F → F
  sum : List F → F
  toFloat : F → Float
  positionCaseInsensitive : String → String → Nat

/-- The parameters bound to a query. -/
structure Params where
  cutoffNs : Option Nat := none
  limit : Option Nat := none
  node : Option String := none
  q : Option String := none

/-! ## The inner query -/

/-- The inner `GROUP BY`. -/
def workload (r : MetricRow) : String × Nat := (r.node, r.cgroupId)

/-- A row of the inner query. -/
structure InnerRow where
  n : String
  cg : Nat
  wStart : Nat
  wEnd : Nat
  ns : Option String
  podName : Option String
  contName : Option String
  resolved : Bool
  memLast : Nat
  memMax : Nat
  cpuUsec : Nat
  execs : Nat
  samples : Nat
  deriving DecidableEq

/-- The aggregates of a group. -/
def innerRow (e : Engine MetricRow) (g : (String × Nat) × List MetricRow) : InnerRow where
  n := g.1.1
  cg := g.1.2
  wStart := e.maxOf MetricRow.windowStartNs g.2
  wEnd := e.argMax MetricRow.windowEndNs MetricRow.windowStartNs g.2
  ns := e.argMaxNullable MetricRow.ns MetricRow.windowStartNs g.2
  podName := e.argMaxNullable MetricRow.pod MetricRow.windowStartNs g.2
  contName := e.argMaxNullable MetricRow.container MetricRow.windowStartNs g.2
  resolved := e.argMax MetricRow.k8sResolved MetricRow.windowStartNs g.2
  memLast := e.argMax MetricRow.memoryBytesLast MetricRow.windowStartNs g.2
  memMax := e.argMax MetricRow.memoryBytesMax MetricRow.windowStartNs g.2
  cpuUsec := e.argMax MetricRow.cpuUsageUsec MetricRow.windowStartNs g.2
  execs := e.argMax MetricRow.execCount MetricRow.windowStartNs g.2
  samples := e.argMax MetricRow.sampleCount MetricRow.windowStartNs g.2

/-- The inner `WHERE`. -/
def scanned (nodeFilter : Bool) (p : Params) : Option (MetricRow → Bool) := do
  let cutoffNs ← p.cutoffNs
  if nodeFilter then
    let node ← p.node
    some fun r => cutoffNs ≤ r.windowStartNs && r.node == node
  else some fun r => cutoffNs ≤ r.windowStartNs

/-- `inner`. -/
def inner (e : Engine MetricRow) (nodeFilter : Bool) (p : Params) (table : List MetricRow) :
    Option (List InnerRow) := do
  let keep ← scanned nodeFilter p
  some ((e.groupBy workload (table.filter keep)).map (innerRow e))

/-! ## The outer queries -/

variable {F : Type} (e : Engine MetricRow) (d : Functions F)

/-- The text that `q` is looked for in. -/
def haystack (r : InnerRow) : String :=
  r.ns.getD "" ++ "/" ++ r.podName.getD "" ++ "/" ++ r.contName.getD ""

/-- `filters`. -/
def filters (hasQ unattributedOnly : Bool) (p : Params) : Option (InnerRow → Bool) := do
  let attributed (r : InnerRow) : Bool := !unattributedOnly || !r.resolved
  if hasQ then
    let q ← p.q
    some fun r => decide (d.positionCaseInsensitive (haystack r) q > 0) && attributed r
  else some attributed

/-- `CPU_MILLICORES`. -/
def cpuMillicores (r : InnerRow) : F :=
  if r.wEnd > r.wStart then
    d.div (d.mul (d.ofNat r.cpuUsec) (d.ofNat 1000000)) (d.ofNat (r.wEnd - r.wStart))
  else d.ofNat 0

/-- A row of the answer, `WorkloadLive` as ClickHouse computes it. -/
structure LiveRow (F : Type) where
  node : String
  cgroupId : Nat
  ns : Option String
  pod : Option String
  container : Option String
  k8sResolved : Bool
  memoryBytesLast : Nat
  memoryBytesMax : Nat
  cpuUsageUsec : Nat
  cpuMillicores : F
  execCount : Nat
  sampleCount : Nat
  windowStartNs : Nat
  windowEndNs : Nat

/-- The outer projection. -/
def project (r : InnerRow) : LiveRow F where
  node := r.n
  cgroupId := r.cg
  ns := r.ns
  pod := r.podName
  container := r.contName
  k8sResolved := r.resolved
  memoryBytesLast := r.memLast
  memoryBytesMax := r.memMax
  cpuUsageUsec := r.cpuUsec
  cpuMillicores := cpuMillicores d r
  execCount := r.execs
  sampleCount := r.samples
  windowStartNs := r.wStart
  windowEndNs := r.wEnd

/-- `column`: a double for the rate, an integer for the others. -/
def SortBy.column (d : Functions F) (sort : SortBy) (w : LiveRow F) : Lex (F × Nat) :=
  match sort with
  | .cpu => toLex (w.cpuMillicores, 0)
  | .memory => toLex (d.ofNat 0, w.memoryBytesLast)
  | .memoryPeak => toLex (d.ofNat 0, w.memoryBytesMax)
  | .execs => toLex (d.ofNat 0, w.execCount)
  | .lastSeen => toLex (d.ofNat 0, w.windowEndNs)

/-- `ASC` or `DESC`: the values in their order, or in the dual one. -/
def OrderBy.keyword {K : Type} (order : OrderBy) (base value : K) : Lex (K × Kᵒᵈ) :=
  match order with
  | .asc => toLex (value, OrderDual.toDual base)
  | .desc => toLex (base, OrderDual.toDual value)

/-- `ORDER BY {col} {dir}, node ASC, cgroup_id ASC`. -/
def rank (d : Functions F) (sort : SortBy) (order : OrderBy) (w : LiveRow F) :
    Lex (Lex (Lex (F × Nat) × (Lex (F × Nat))ᵒᵈ) × Lex (String × Nat)) :=
  toLex (order.keyword (toLex (d.ofNat 0, 0)) (sort.column d w), toLex (w.node, w.cgroupId))

/-- `rows`. -/
def rows [LinearOrder F] (sort : SortBy) (order : OrderBy) (hasQ unattributedOnly nodeFilter : Bool)
    (p : Params) (table : List MetricRow) : Option (List (LiveRow F)) := do
  let inner ← inner e nodeFilter p table
  let keep ← filters d hasQ unattributedOnly p
  let limit ← p.limit
  some ((e.orderBy (rank d sort order) ((inner.filter keep).map (project d))).take limit)

/-- `TotalsRow` as ClickHouse computes it. -/
structure Totals (F : Type) where
  matchedCount : Nat
  memoryBytes : Nat
  execCount : Nat
  cpuMillicores : F
  unattributedCount : Nat
  newestWindowEndNs : Nat

/-- The aggregates of `totals`. -/
def totalsOf (matched : List InnerRow) : Totals F where
  matchedCount := e.count matched
  memoryBytes := e.sum InnerRow.memLast matched
  execCount := e.sum InnerRow.execs matched
  cpuMillicores := d.sum (matched.map (cpuMillicores d))
  unattributedCount := e.countIf (fun r => !r.resolved) matched
  newestWindowEndNs := e.maxOf InnerRow.wEnd matched

/-- `totals`. -/
def totals (hasQ unattributedOnly nodeFilter : Bool) (p : Params) (table : List MetricRow) :
    Option (Totals F) := do
  let inner ← inner e nodeFilter p table
  let keep ← filters d hasQ unattributedOnly p
  some (totalsOf e d (inner.filter keep))

/-- `nodes`. -/
def nodes (p : Params) (table : List MetricRow) : Option (List NodeRow) := do
  let cutoffNs ← p.cutoffNs
  let groups := e.groupBy MetricRow.node (table.filter fun r => cutoffNs ≤ r.windowStartNs)
  some (e.orderBy NodeRow.node (groups.map fun g => ⟨g.1, e.maxOf MetricRow.windowEndNs g.2⟩))

/-! ## The queries of the handlers -/

/-- `WorkloadLive` of a row. -/
def LiveRow.toLive (w : LiveRow F) : WorkloadLive where
  node := w.node
  cgroupId := w.cgroupId
  ns := w.ns
  pod := w.pod
  container := w.container
  k8sResolved := w.k8sResolved
  memoryBytesLast := w.memoryBytesLast
  memoryBytesMax := w.memoryBytesMax
  cpuUsageUsec := w.cpuUsageUsec
  cpuMillicores := d.toFloat w.cpuMillicores
  execCount := w.execCount
  sampleCount := w.sampleCount
  windowStartNs := w.windowStartNs
  windowEndNs := w.windowEndNs

/-- `TotalsRow` of the totals. -/
def Totals.toRow (t : Totals F) : TotalsRow where
  matchedCount := t.matchedCount
  memoryBytes := t.memoryBytes
  execCount := t.execCount
  cpuMillicores := d.toFloat t.cpuMillicores
  unattributedCount := t.unattributedCount
  newestWindowEndNs := t.newestWindowEndNs

/-- The parameters `build_state` binds to `rows`. -/
def rowsParams (q : NormalizedQuery) (cutoffNs : Nat) : Params where
  cutoffNs := some cutoffNs
  limit := some q.limit
  node := q.node
  q := q.q

/-- The parameters `build_state` binds to `totals`. -/
def totalsParams (q : NormalizedQuery) (cutoffNs : Nat) : Params where
  cutoffNs := some cutoffNs
  node := q.node
  q := q.q

/-- What `build_state` asks of `rows`. -/
def stateRows [LinearOrder F] (q : NormalizedQuery) (cutoffNs : Nat) (table : List MetricRow) :
    Option (List (LiveRow F)) :=
  rows e d q.sort q.order q.q.isSome q.unattributed q.node.isSome (rowsParams q cutoffNs) table

/-- What `build_state` asks of `totals`. -/
def stateTotals (q : NormalizedQuery) (cutoffNs : Nat) (table : List MetricRow) :
    Option (Totals F) :=
  totals e d q.q.isSome q.unattributed q.node.isSome (totalsParams q cutoffNs) table

/-- **ClickHouse runs the queries**: an answer to one is what its text states, as some engine reads
it. -/
structure RunsQueries [LinearOrder F] (d : Functions F) (ext : Externals) : Prop where
  rows : ∀ {table q cutoffNs out}, ext.rowsQuery table q cutoffNs = .ok out →
    ∃ e : Engine MetricRow, e.Documented ∧
      (stateRows e d q cutoffNs table).map (List.map (LiveRow.toLive d)) = some out
  totals : ∀ {table q cutoffNs out}, ext.totalsQuery table q cutoffNs = .ok out →
    ∃ e : Engine MetricRow, e.Documented ∧
      (stateTotals e d q cutoffNs table).map (fun t => [t.toRow d]) = some out
  nodes : ∀ {table cutoffNs out}, ext.nodesQuery table cutoffNs = .ok out →
    ∃ e : Engine MetricRow, e.Documented ∧
      nodes e { cutoffNs := some cutoffNs } table = some out

/-! ## What a question asks for -/

/-- `r` is a newest row of its workload, and starts at `cutoffNs` or later. -/
structure Current (cutoffNs : Nat) (table : List MetricRow) (r : MetricRow) : Prop where
  stored : r ∈ table
  within : cutoffNs ≤ r.windowStartNs
  newest : ∀ s ∈ table, workload s = workload r → s.windowStartNs ≤ r.windowStartNs

/-- A stored row as a row of the inner query. -/
def rowOf (r : MetricRow) : InnerRow where
  n := r.node
  cg := r.cgroupId
  wStart := r.windowStartNs
  wEnd := r.windowEndNs
  ns := r.ns
  podName := r.pod
  contName := r.container
  resolved := r.k8sResolved
  memLast := r.memoryBytesLast
  memMax := r.memoryBytesMax
  cpuUsec := r.cpuUsageUsec
  execs := r.execCount
  samples := r.sampleCount

/-- The workload of a row. -/
def InnerRow.workload (r : InnerRow) : String × Nat := (r.n, r.cg)

/-- A row without its labels. -/
def InnerRow.numbers (r : InnerRow) : InnerRow :=
  { r with ns := none, podName := none, contName := none }

/-- The rows of a workload from `cutoffNs` on. -/
def history (cutoffNs : Nat) (table : List MetricRow) (w : String × Nat) : List MetricRow :=
  table.filter fun r => cutoffNs ≤ r.windowStartNs && workload r == w

/-- The newest label of a workload in range. -/
def NewestLabel (label : MetricRow → Option String) (cutoffNs : Nat) (table : List MetricRow)
    (w : String × Nat) (v : Option String) : Prop :=
  IsArgMaxNullable label MetricRow.windowStartNs (history cutoffNs table w) v

/-- `r` shows the workload of the current row `s`: its numbers and its newest labels. -/
structure Shows (cutoffNs : Nat) (table : List MetricRow) (s : MetricRow) (r : InnerRow) :
    Prop where
  current : Current cutoffNs table s
  numbers : r.numbers = (rowOf s).numbers
  ns : NewestLabel MetricRow.ns cutoffNs table (workload s) r.ns
  pod : NewestLabel MetricRow.pod cutoffNs table (workload s) r.podName
  container : NewestLabel MetricRow.container cutoffNs table (workload s) r.contName

/-- The filters of a question. -/
structure Asked (q : NormalizedQuery) (r : InnerRow) : Prop where
  node : ∀ node, q.node = some node → r.n = node
  text : ∀ text, q.q = some text → 0 < d.positionCaseInsensitive (haystack r) text
  unattributed : q.unattributed = true → r.resolved = false

/-- The node filter of a question. -/
def onNode (q : NormalizedQuery) (node : String) : Bool := q.node.elim true (node == ·)

/-- The outer filters of a question. -/
def passes (q : NormalizedQuery) (r : InnerRow) : Bool :=
  (q.q.elim true fun text => decide (d.positionCaseInsensitive (haystack r) text > 0)) &&
    (!q.unattributed || !r.resolved)

/-- The rows that a question is about. -/
def matched (q : NormalizedQuery) (cutoffNs : Nat) (table : List MetricRow) : List InnerRow :=
  ((e.groupBy workload
    (table.filter fun r => cutoffNs ≤ r.windowStartNs && onNode q r.node)).map
      (innerRow e)).filter (passes d q)

/-! ## The queries, run -/

section State

variable {e d} {q : NormalizedQuery} {cutoffNs : Nat} {table table' : List MetricRow}
  {r r' : InnerRow} {s s' : MetricRow}

theorem scanned_question {p : Params} (hcutoff : p.cutoffNs = some cutoffNs)
    (hnode : p.node = q.node) :
    scanned q.node.isSome p =
      some fun r => cutoffNs ≤ r.windowStartNs && onNode q r.node := by
  unfold scanned onNode
  rw [hcutoff, hnode]
  cases q.node with
  | none => simp
  | some node => rfl

theorem filters_question {p : Params} (hq : p.q = q.q) :
    filters d q.q.isSome q.unattributed p = some (passes d q) := by
  unfold filters passes
  rw [hq]
  cases q.q with
  | none => simp
  | some text => rfl

/-- Every parameter that the text of `rows` names is bound. -/
theorem stateRows_eq [LinearOrder F] : stateRows e d q cutoffNs table =
    some ((e.orderBy (rank d q.sort q.order)
      ((matched e d q cutoffNs table).map (project d))).take q.limit) := by
  unfold stateRows rows inner matched
  rw [scanned_question rfl rfl, filters_question rfl]
  rfl

/-- Every parameter that the text of `totals` names is bound. -/
theorem stateTotals_eq : stateTotals e d q cutoffNs table =
    some (totalsOf e d (matched e d q cutoffNs table)) := by
  unfold stateTotals totals inner matched
  rw [scanned_question rfl rfl, filters_question rfl]
  rfl

theorem asked_iff : Asked d q r ↔ onNode q r.n = true ∧ passes d q r = true := by
  unfold onNode passes
  constructor
  · rintro ⟨hnode, htext, hun⟩
    refine ⟨?_, Bool.and_eq_true_iff.mpr ⟨?_, ?_⟩⟩
    · cases e : q.node with
      | none => rfl
      | some node => exact beq_iff_eq.mpr (hnode node e)
    · cases e : q.q with
      | none => rfl
      | some text => exact decide_eq_true (htext text e)
    · cases e : q.unattributed with
      | false => rfl
      | true => simpa using hun e
  · rintro ⟨hnode, h⟩
    obtain ⟨htext, hun⟩ := Bool.and_eq_true_iff.mp h
    refine ⟨fun node e => ?_, fun text e => ?_, fun e => ?_⟩
    · rw [e] at hnode
      exact eq_of_beq hnode
    · rw [e] at htext
      exact of_decide_eq_true htext
    · rw [e] at hun
      simpa using hun

theorem mem_history {w : String × Nat} :
    s ∈ history cutoffNs table w ↔ s ∈ table ∧ cutoffNs ≤ s.windowStartNs ∧ workload s = w := by
  simp [history, List.mem_filter]

/-- Rows of a workload that start together are one. -/
theorem history_distinct (hc : Consistent workload MetricRow.windowStartNs table)
    {w : String × Nat} : ∀ s ∈ history cutoffNs table w, ∀ s' ∈ history cutoffNs table w,
      s.windowStartNs = s'.windowStartNs → s = s' := by
  intro s hs s' hs' hstart
  obtain ⟨hmem, -, hw⟩ := mem_history.mp hs
  obtain ⟨hmem', -, hw'⟩ := mem_history.mp hs'
  exact hc s hmem s' hmem' (hw.trans hw'.symm) hstart

/-! ### The group of a workload -/

/-- The rows of a group are the history of its workload. -/
theorem mem_group (he : e.Documented) {g : (String × Nat) × List MetricRow}
    (hg : g ∈ e.groupBy workload
      (table.filter fun r => cutoffNs ≤ r.windowStartNs && onNode q r.node)) :
    onNode q g.1.1 = true ∧ ∀ s, s ∈ g.2 ↔ s ∈ history cutoffNs table g.1 := by
  have hgroups := he.groupBy workload
    (table.filter fun r => cutoffNs ≤ r.windowStartNs && onNode q r.node)
  have hwhole := hgroups.whole g hg
  simp only [List.mem_filter, Bool.and_eq_true, decide_eq_true_eq] at hwhole
  obtain ⟨s, hs⟩ := List.exists_mem_of_ne_nil _ (hgroups.nonempty g hg)
  obtain ⟨⟨-, -, hnode⟩, hw⟩ := (hwhole s).mp hs
  have hon : onNode q g.1.1 = true := hw ▸ hnode
  refine ⟨hon, fun t => ?_⟩
  rw [hwhole, mem_history]
  constructor
  · exact fun ⟨⟨hmem, hle, _⟩, ht⟩ => ⟨hmem, hle, ht⟩
  · rintro ⟨hmem, hle, ht⟩
    have hn : t.node = g.1.1 := congrArg Prod.fst ht
    exact ⟨⟨hmem, hle, hn ▸ hon⟩, ht⟩

/-- **A group shows its workload**, whichever of equal rows the engine takes. -/
theorem innerRow_shows (he : e.Documented) (hc : Consistent workload MetricRow.windowStartNs table)
    {g : (String × Nat) × List MetricRow}
    (hg : g ∈ e.groupBy workload
      (table.filter fun r => cutoffNs ≤ r.windowStartNs && onNode q r.node)) :
    ∃ s, workload s = g.1 ∧ Shows cutoffNs table s (innerRow e g) := by
  obtain ⟨-, hmem⟩ := mem_group he hg
  have hne := (he.groupBy workload _).nonempty g hg
  have hdistinct : ∀ s ∈ g.2, ∀ s' ∈ g.2, s.windowStartNs = s'.windowStartNs → s = s' :=
    fun s hs s' hs' => history_distinct hc s ((hmem s).mp hs) s' ((hmem s').mp hs')
  obtain ⟨s, hs, hnewest, hstart⟩ := isArgMax_max MetricRow.windowStartNs hne
  obtain ⟨hstored, hle, hw⟩ := mem_history.mp ((hmem s).mp hs)
  -- the newest row is one, so every column is of it
  have hcol : ∀ {β : Type} (column : MetricRow → β),
      e.argMax column MetricRow.windowStartNs g.2 = column s := fun column =>
    (he.argMax column _ _ hne).unique hdistinct (fun _ => Iff.rfl) ⟨s, hs, hnewest, rfl⟩
  have hlabel : ∀ label : MetricRow → Option String, NewestLabel label cutoffNs table (workload s)
      (e.argMaxNullable label MetricRow.windowStartNs g.2) := fun label => by
    unfold NewestLabel
    rw [hw]
    exact (he.argMaxNullable label _ _ hne).congr hmem
  refine ⟨s, hw, ⟨hstored, hle, fun t ht e => ?_⟩, ?_, hlabel _, hlabel _, hlabel _⟩
  · by_cases htle : cutoffNs ≤ t.windowStartNs
    · exact hnewest t ((hmem t).mpr (mem_history.mpr ⟨ht, htle, e.trans hw⟩))
    · omega
  · have hn : g.1.1 = s.node := congrArg Prod.fst hw.symm
    have hcg : g.1.2 = s.cgroupId := congrArg Prod.snd hw.symm
    simp only [innerRow, InnerRow.numbers, rowOf, hcol, he.maxOf, hstart, hn, hcg]

/-- What shows a workload is one row. -/
theorem Shows.unique (hc : Consistent workload MetricRow.windowStartNs table)
    (h : Shows cutoffNs table s r) (h' : Shows cutoffNs table s' r')
    (hw : workload s = workload s') : r = r' := by
  have hle := h'.current.newest s h.current.stored hw
  have hge := h.current.newest s' h'.current.stored hw.symm
  obtain rfl := hc s h.current.stored s' h'.current.stored hw (Nat.le_antisymm hle hge)
  have hdistinct := @history_distinct cutoffNs table hc (workload s)
  have hns := h.ns.unique hdistinct (fun _ => Iff.rfl) h'.ns
  have hpod := h.pod.unique hdistinct (fun _ => Iff.rfl) h'.pod
  have hcontainer := h.container.unique hdistinct (fun _ => Iff.rfl) h'.container
  have hnumbers := h.numbers.trans h'.numbers.symm
  obtain ⟨n, cg, wStart, wEnd, ns, podName, contName, resolved, memLast, memMax, cpuUsec, execs,
    samples⟩ := r
  simp only [InnerRow.numbers, InnerRow.mk.injEq] at hnumbers hns hpod hcontainer
  cases r'
  simp_all

theorem Shows.workload_eq (h : Shows cutoffNs table s r) : r.workload = workload s :=
  congrArg InnerRow.workload h.numbers

/-- **The rows that a question is about** show the workloads it asks for. -/
theorem mem_matched (he : e.Documented) (hc : Consistent workload MetricRow.windowStartNs table) :
    r ∈ matched e d q cutoffNs table ↔ (∃ s, Shows cutoffNs table s r) ∧ Asked d q r := by
  unfold matched
  rw [List.mem_filter, List.mem_map, asked_iff]
  constructor
  · rintro ⟨⟨g, hg, rfl⟩, hpass⟩
    obtain ⟨s, -, hshows⟩ := innerRow_shows he hc hg
    exact ⟨⟨s, hshows⟩, (mem_group he hg).1, hpass⟩
  · rintro ⟨⟨s, hshows⟩, hnode, hpass⟩
    have hn : r.n = s.node := congrArg Prod.fst hshows.workload_eq
    have hscan : s ∈ table.filter fun r => cutoffNs ≤ r.windowStartNs && onNode q r.node := by
      simp [List.mem_filter, hshows.current.stored, hshows.current.within, ← hn, hnode]
    obtain ⟨g, hg, e, -⟩ := (he.groupBy workload _).group_of_mem hscan
    obtain ⟨s', hw, hshows'⟩ := innerRow_shows he hc hg
    exact ⟨⟨g, hg, hshows'.unique hc hshows (hw.trans e)⟩, hpass⟩

theorem matched_nodup (he : e.Documented) :
    ((matched e d q cutoffNs table).map InnerRow.workload).Nodup := by
  have hgroups := he.groupBy workload
    (table.filter fun r => cutoffNs ≤ r.windowStartNs && onNode q r.node)
  have hkey : ∀ g ∈ e.groupBy workload
      (table.filter fun r => cutoffNs ≤ r.windowStartNs && onNode q r.node),
      InnerRow.workload (innerRow e g) = g.1 := fun _ _ => rfl
  exact (hgroups.nodup_map hkey).sublist (List.filter_sublist.map _)

/-- Of every current row there is something to show. -/
theorem shows_of_current (h : Current cutoffNs table s) : ∃ r, Shows cutoffNs table s r := by
  let _ : Inhabited MetricRow := ⟨s⟩
  have hne : history cutoffNs table (workload s) ≠ [] :=
    List.ne_nil_of_mem (mem_history.mpr ⟨h.stored, h.within, rfl⟩)
  have hlabel : ∀ label : MetricRow → Option String,
      ∃ v, NewestLabel label cutoffNs table (workload s) v := fun label =>
    ⟨_, first_documented.argMaxNullable label MetricRow.windowStartNs _ hne⟩
  obtain ⟨ns, hns⟩ := hlabel MetricRow.ns
  obtain ⟨podName, hpod⟩ := hlabel MetricRow.pod
  obtain ⟨contName, hcontainer⟩ := hlabel MetricRow.container
  exact ⟨{ rowOf s with ns := ns, podName := podName, contName := contName },
    h, rfl, hns, hpod, hcontainer⟩

/-- **The dashboard shows the current rows.** Of a table whose duplicates agree, a question that is
answered gets a row for each workload it asks for, with the numbers of its newest window in range
and with the newest labels it has there: the first `limit` of them, in its order. -/
theorem page_shows_current [LinearOrder F] {ext : Externals} (runs : RunsQueries d ext)
    (hc : Consistent workload MetricRow.windowStartNs table) {page : List WorkloadLive}
    (answered : ext.rowsQuery table q cutoffNs = .ok page) :
    ∃ all : List InnerRow,
      (∀ r ∈ all, (∃ s, Shows cutoffNs table s r) ∧ Asked d q r) ∧
      (∀ s, Current cutoffNs table s →
        ∃ r, Shows cutoffNs table s r ∧ (Asked d q r → r ∈ all)) ∧
      (all.map InnerRow.workload).Nodup ∧
      ∃ ws, IsPage (rank d q.sort q.order) q.limit (all.map (project d)) ws ∧
        page = ws.map (LiveRow.toLive d) := by
  obtain ⟨e, he, hpage⟩ := runs.rows answered
  rw [stateRows_eq] at hpage
  refine ⟨matched e d q cutoffNs table, fun r hr => (mem_matched he hc).mp hr, fun s hs => ?_,
    matched_nodup he, _, isPage_orderBy he _ _ _, (Option.some.inj hpage).symm⟩
  obtain ⟨r, hr⟩ := shows_of_current hs
  exact ⟨r, hr, fun hasked => (mem_matched he hc).mpr ⟨⟨s, hr⟩, hasked⟩⟩

/-! ## What makes no difference -/

theorem current_congr (h : ∀ r, r ∈ table ↔ r ∈ table') :
    Current cutoffNs table s ↔ Current cutoffNs table' s := by
  constructor <;> rintro ⟨hs, hle, hnewest⟩
  · exact ⟨(h s).mp hs, hle, fun t ht => hnewest t ((h t).mpr ht)⟩
  · exact ⟨(h s).mpr hs, hle, fun t ht => hnewest t ((h t).mp ht)⟩

theorem Shows.congr (h : ∀ r, r ∈ table ↔ r ∈ table') (hs : Shows cutoffNs table s r) :
    Shows cutoffNs table' s r := by
  have hsame : ∀ w r, r ∈ history cutoffNs table w ↔ r ∈ history cutoffNs table' w := by
    intro w r
    rw [mem_history, mem_history, h]
  exact ⟨(current_congr h).mp hs.current, hs.numbers, hs.ns.congr (hsame _),
    hs.pod.congr (hsame _), hs.container.congr (hsame _)⟩

/-- Two engines match the same rows of two tables that have the same rows. -/
theorem matched_perm {e' : Engine MetricRow} (he : e.Documented) (he' : e'.Documented)
    (hc : Consistent workload MetricRow.windowStartNs table) (h : ∀ r, r ∈ table ↔ r ∈ table') :
    (matched e d q cutoffNs table).Perm (matched e' d q cutoffNs table') := by
  have hc' : Consistent workload MetricRow.windowStartNs table' :=
    fun r hr s hs => hc r ((h r).mpr hr) s ((h s).mpr hs)
  refine (List.perm_ext_iff_of_nodup (matched_nodup he).of_map (matched_nodup he').of_map).mpr
    fun r => ?_
  rw [mem_matched he hc, mem_matched he' hc']
  refine and_congr_left fun _ => exists_congr fun s => ⟨fun hs => hs.congr h, fun hs => ?_⟩
  exact hs.congr fun r => (h r).symm

/-- Rows of different workloads have different ranks. -/
theorem rank_injective [LinearOrder F] (sort : SortBy) (order : OrderBy) {l : List InnerRow}
    (hl : (l.map InnerRow.workload).Nodup) :
    ∀ w ∈ l.map (project d), ∀ w' ∈ l.map (project d),
      rank d sort order w = rank d sort order w' → w = w' := by
  intro w hw w' hw' e
  obtain ⟨r, hr, rfl⟩ := List.mem_map.mp hw
  obtain ⟨r', hr', rfl⟩ := List.mem_map.mp hw'
  have hkey : r.workload = r'.workload := congrArg (fun x => ofLex (ofLex x).2) e
  rw [List.inj_on_of_nodup_map hl hr hr' hkey]

/-- The totals without the rate, which is a sum of doubles in the order of the rows. -/
def TotalsRow.exact (t : TotalsRow) : Nat × Nat × Nat × Nat × Nat :=
  (t.matchedCount, t.memoryBytes, t.execCount, t.unattributedCount, t.newestWindowEndNs)

theorem totalsOf_perm {e' : Engine MetricRow} (he : e.Documented) (he' : e'.Documented)
    {l l' : List InnerRow} (h : l.Perm l') :
    ((totalsOf e d l).toRow d).exact = ((totalsOf e' d l').toRow d).exact := by
  have hmax : (l.map InnerRow.wEnd).foldl max 0 = (l'.map InnerRow.wEnd).foldl max 0 :=
    (h.map InnerRow.wEnd).foldl_eq' (fun a _ b _ m => by omega) 0
  have hsum : ∀ f : InnerRow → Nat, (l.map f).sum = (l'.map f).sum := fun f => (h.map f).sum_eq
  simp only [TotalsRow.exact, Totals.toRow, totalsOf, he.count, he'.count, he.sum, he'.sum,
    he.countIf, he'.countIf, he.maxOf, he'.maxOf, h.length_eq, hsum, h.countP_eq, hmax]

/-- **Neither the order nor the copies of the stored rows matter.** Two tables with the same rows,
however often and in whatever parts they are stored, get one page and the same totals, the rate of
all workloads aside. -/
theorem state_of_same_rows [LinearOrder F] {ext : Externals} (runs : RunsQueries d ext)
    (hc : Consistent workload MetricRow.windowStartNs table) (h : ∀ r, r ∈ table ↔ r ∈ table') :
    (∀ page page', ext.rowsQuery table q cutoffNs = .ok page →
      ext.rowsQuery table' q cutoffNs = .ok page' → page = page') ∧
    ∀ ts ts', ext.totalsQuery table q cutoffNs = .ok ts →
      ext.totalsQuery table' q cutoffNs = .ok ts' →
      ts.map TotalsRow.exact = ts'.map TotalsRow.exact := by
  constructor
  · intro page page' hpage hpage'
    obtain ⟨e, he, hrows⟩ := runs.rows hpage
    obtain ⟨e', he', hrows'⟩ := runs.rows hpage'
    rw [stateRows_eq] at hrows hrows'
    have hperm : (matched e d q cutoffNs table).Perm (matched e' d q cutoffNs table') :=
      matched_perm he he' hc h
    have hone := orderBy_unique he he' (hperm.map (project d))
      (rank_injective q.sort q.order (matched_nodup he))
    rw [← Option.some.inj hrows, ← Option.some.inj hrows', hone]
  · intro ts ts' hts hts'
    obtain ⟨e, he, htotals⟩ := runs.totals hts
    obtain ⟨e', he', htotals'⟩ := runs.totals hts'
    rw [stateTotals_eq] at htotals htotals'
    rw [← Option.some.inj htotals, ← Option.some.inj htotals', List.map_singleton,
      List.map_singleton, totalsOf_perm he he' (matched_perm he he' hc h)]

end State

/-! ## A table with an unlabelled row -/

/-- Where the needle begins, counted from 1, or 0. -/
def positionOf (haystack needle : String) : Nat :=
  let begins (i : Nat) : Bool := (needle.toList.map Char.toLower).isPrefixOf
    ((haystack.toList.map Char.toLower).drop i)
  ((List.range (haystack.length + 1)).find? begins).elim 0 (· + 1)

/-- Whole numbers for doubles. -/
def wholeNumbers : Functions Nat := ⟨id, (· * ·), (· / ·), List.sum, fun _ => 0, positionOf⟩

/-- A row of cgroup 7 of node `a` with these bounds and this memory. -/
def webRow (windowStartNs windowEndNs memoryBytes : Nat) : MetricRow where
  windowStartNs := windowStartNs
  windowEndNs := windowEndNs
  node := "a"
  batchId := "b"
  agentVersion := "1"
  cgroupId := 7
  ns := some "default"
  pod := some "web-1"
  container := some "Web"
  k8sResolved := true
  memoryBytesMax := memoryBytes
  memoryBytesLast := memoryBytes
  execCount := 1
  sampleCount := 1
  cpuUsageUsec := 5
  cpuRequestMillicores := 0
  memoryRequestBytes := 0
  cpuLimitMillicores := 0
  memoryLimitBytes := 0

/-- A row whose labels the agent has not found. -/
def bareRow (windowStartNs windowEndNs memoryBytes : Nat) : MetricRow :=
  { webRow windowStartNs windowEndNs memoryBytes with
    ns := none
    pod := none
    container := none
    k8sResolved := false }

instance : Inhabited MetricRow := ⟨webRow 0 0 0⟩

/-- The answer to a query, or its error. -/
def answered {α : Type} (result : Option α) : Except String α :=
  result.elim (.error "Substitution is not set") .ok

/-- A gateway whose ClickHouse takes the first of equal rows. -/
def queried : Externals :=
  { plainExternals with
    rowsQuery := fun table q cutoffNs => answered
      ((stateRows .first wholeNumbers q cutoffNs table).map
        (List.map (LiveRow.toLive wholeNumbers)))
    totalsQuery := fun table q cutoffNs => answered
      ((stateTotals .first wholeNumbers q cutoffNs table).map fun t => [t.toRow wholeNumbers])
    nodesQuery := fun table cutoffNs => answered (nodes .first { cutoffNs := some cutoffNs } table)
    stateJson := fun response => some (toString response.returned) }

theorem answered_ok {α : Type} {result : Option α} {out : α} (h : answered result = .ok out) :
    result = some out := by
  cases result with
  | none => cases h
  | some v => exact congrArg some (Except.ok.inj h)

theorem queried_runs : RunsQueries wholeNumbers queried where
  rows h := ⟨.first, first_documented, answered_ok h⟩
  totals h := ⟨.first, first_documented, answered_ok h⟩
  nodes h := ⟨.first, first_documented, answered_ok h⟩

/-- A question for the workloads of node `a` that match `web`. -/
def webQuestion : NormalizedQuery := ⟨300, .cpu, .desc, some "web", some "a", false, 100⟩

/-- Two windows, the later one without labels and stored twice. -/
def webTable : List MetricRow := [bareRow 20 30 5, webRow 10 20 9, bareRow 20 30 5]

theorem consistent_webTable : Consistent workload MetricRow.windowStartNs webTable := by
  unfold Consistent
  decide

theorem queried_rows (q : NormalizedQuery) (cutoffNs : Nat) (table : List MetricRow) :
    ∃ page, queried.rowsQuery table q cutoffNs = .ok page := by
  show ∃ page, answered ((stateRows .first wholeNumbers q cutoffNs table).map _) = .ok page
  rw [stateRows_eq]
  exact ⟨_, rfl⟩

theorem queried_totals (q : NormalizedQuery) (cutoffNs : Nat) (table : List MetricRow) :
    ∃ totals, queried.totalsQuery table q cutoffNs = .ok totals := by
  show ∃ totals, answered ((stateTotals .first wholeNumbers q cutoffNs table).map _) = .ok totals
  rw [stateTotals_eq]
  exact ⟨_, rfl⟩

/-- **Labels outlive their attribution.** The workload is shown with the memory of its last window,
as unattributed, and with the labels of the window before. -/
theorem page_shows_current_web :
    ∃ page, ∃ all : List InnerRow, queried.rowsQuery webTable webQuestion 5 = .ok page ∧
      (∀ r ∈ all, (∃ s, Shows 5 webTable s r) ∧ Asked wholeNumbers webQuestion r) ∧
      (∃ r ∈ all, r.memLast = 5 ∧ r.resolved = false ∧ r.contName = some "Web") := by
  obtain ⟨page, hpage⟩ := queried_rows webQuestion 5 webTable
  obtain ⟨all, hall, hcovers, -⟩ := page_shows_current queried_runs consistent_webTable hpage
  have hcurrent : Current 5 webTable (bareRow 20 30 5) := ⟨by decide, by decide, by decide⟩
  obtain ⟨r, hr, hasked⟩ := hcovers _ hcurrent
  -- the labels in range are those of the first window
  have hlabel : ∀ {label : MetricRow → Option String} {v : Option String},
      NewestLabel label 5 webTable (workload (bareRow 20 30 5)) v →
      label (bareRow 20 30 5) = none → label (webRow 10 20 9) ≠ none →
      v = label (webRow 10 20 9) := by
    rintro label v (⟨hnone, -⟩ | ⟨s, hs, -, rfl, hne⟩) hbare hweb
    · exact absurd (hnone (webRow 10 20 9) (by decide)) hweb
    · have hs : s = bareRow 20 30 5 ∨ s = webRow 10 20 9 := by
        have hmem := (mem_history.mp hs).1
        simp only [webTable, List.mem_cons, List.not_mem_nil, or_false] at hmem
        tauto
      rcases hs with rfl | rfl
      · exact absurd hbare hne
      · rfl
  have hfound : ∀ r : InnerRow, r.ns = some "default" → r.podName = some "web-1" →
      r.contName = some "Web" → wholeNumbers.positionCaseInsensitive (haystack r) "web" > 0 := by
    intro r hns hpod hcontainer
    simp only [wholeNumbers, haystack, hns, hpod, hcontainer, Option.getD_some]
    decide +kernel
  have hns := hlabel hr.ns rfl (by decide)
  have hpod := hlabel hr.pod rfl (by decide)
  have hcontainer := hlabel hr.container rfl (by decide)
  have hnumbers := hr.numbers
  obtain ⟨n, cg, wStart, wEnd, ns, podName, contName, resolved, memLast, memMax, cpuUsec, execs,
    samples⟩ := r
  simp only [InnerRow.numbers, rowOf, InnerRow.mk.injEq] at hnumbers hns hpod hcontainer
  obtain ⟨rfl, -, -, -, -, -, -, rfl, rfl, -⟩ := hnumbers
  subst hns hpod hcontainer
  refine ⟨page, all, hpage, hall, _, hasked ⟨fun node h => ?_, fun text h => ?_, fun h => ?_⟩,
    rfl, rfl, rfl⟩
  · exact Option.some.inj h
  · obtain rfl := Option.some.inj h
    exact hfound _ rfl rfl rfl
  · exact absurd h Bool.false_ne_true

/-- A copy less, and in another order. -/
theorem state_of_same_rows_web :
    ∃ page, queried.rowsQuery webTable webQuestion 5 = .ok page ∧
      queried.rowsQuery [webRow 10 20 9, bareRow 20 30 5] webQuestion 5 = .ok page := by
  obtain ⟨page, hpage⟩ := queried_rows webQuestion 5 webTable
  obtain ⟨page', hpage'⟩ := queried_rows webQuestion 5 [webRow 10 20 9, bareRow 20 30 5]
  have hsame : ∀ r, r ∈ webTable ↔ r ∈ [webRow 10 20 9, bareRow 20 30 5] := fun r => by
    simp only [webTable, List.mem_cons, List.not_mem_nil, or_false]
    tauto
  obtain ⟨hpages, -⟩ := state_of_same_rows queried_runs consistent_webTable hsame
  obtain rfl := hpages page page' hpage hpage'
  exact ⟨page, hpage, hpage'⟩

/-! ## The answers of the handlers -/

/-- The response of a question with these answers. -/
def stateResponse (generatedAtNs : Nat) (q : NormalizedQuery) (workloads : List WorkloadLive)
    (totals : TotalsRow) : StateResponse where
  generatedAtNs := generatedAtNs
  rangeSecs := q.rangeSecs
  sort := q.sort.asStr
  order := q.order.asStr
  filterActive := !q.isHotView
  returned := workloads.length
  totals := totals
  execRatePerSec :=
    if q.rangeSecs > 0 then Float.ofNat totals.execCount / Float.ofNat q.rangeSecs else 0
  workloads := workloads

/-- What `build_state` builds, it builds of two answers, to the table at two times. -/
theorem buildState_ok {ext : Externals} {clock : Clock} {s : AppState} {q : NormalizedQuery}
    {body : String} (h : buildState ext clock s q = .ok body) : ∃ workloads totals,
      ext.rowsQuery s.tables q (q.cutoffNs (clock.wallNs % 2 ^ 64)) = .ok workloads ∧
      ext.totalsQuery s.tablesThen q (q.cutoffNs (clock.wallNs % 2 ^ 64)) = .ok totals ∧
      ext.stateJson (stateResponse (clock.wallNs % 2 ^ 64) q workloads (totals.head?.getD {})) =
        some body := by
  unfold buildState at h
  cases hrows : ext.rowsQuery s.tables q (q.cutoffNs (clock.wallNs % 2 ^ 64)) with
  | error error => simp only [hrows, bind, Except.bind, reduceCtorEq] at h
  | ok workloads =>
    cases htotals : ext.totalsQuery s.tablesThen q (q.cutoffNs (clock.wallNs % 2 ^ 64)) with
    | error error => simp only [hrows, htotals, bind, Except.bind, reduceCtorEq] at h
    | ok totals =>
      simp only [hrows, htotals, bind, Except.bind] at h
      refine ⟨workloads, totals, rfl, rfl, ?_⟩
      split at h
      · cases h
      · next json => exact json.trans (congrArg some (Except.ok.inj h))

/-- The totals, from the rows of the answer where it has them all. -/
theorem totals_of_all {e : Engine MetricRow} (he : e.Documented) {d : Functions F}
    {all : List InnerRow} {ws : List WorkloadLive}
    (h : ws.Perm (all.map (LiveRow.toLive d ∘ project d))) :
    ((totalsOf e d all).toRow d).memoryBytes =
        (ws.map WorkloadLive.memoryBytesLast).sum % 2 ^ 64 ∧
      ((totalsOf e d all).toRow d).execCount = (ws.map WorkloadLive.execCount).sum % 2 ^ 64 ∧
      ((totalsOf e d all).toRow d).unattributedCount = ws.countP (fun w => !w.k8sResolved) ∧
      ((totalsOf e d all).toRow d).newestWindowEndNs =
        (ws.map WorkloadLive.windowEndNs).foldl max 0 := by
  have hsum : ∀ f : WorkloadLive → Nat,
      (all.map (f ∘ LiveRow.toLive d ∘ project d)).sum = (ws.map f).sum := fun f => by
    rw [(h.map f).sum_eq, List.map_map]
  have hmax : (ws.map WorkloadLive.windowEndNs).foldl max 0 =
      ((all.map (LiveRow.toLive d ∘ project d)).map WorkloadLive.windowEndNs).foldl max 0 :=
    (h.map WorkloadLive.windowEndNs).foldl_eq' (fun a _ b _ m => by omega) 0
  refine ⟨?_, ?_, ?_, ?_⟩
  · rw [← hsum]
    exact he.sum _ _
  · rw [← hsum]
    exact he.sum _ _
  · rw [h.countP_eq, List.countP_map]
    exact he.countIf _ _
  · rw [hmax, List.map_map]
    exact he.maxOf _ _

/-- **Each node once, with its newest window.** -/
theorem nodes_last_seen {e : Engine MetricRow} (he : e.Documented) (cutoffNs : Nat)
    (table : List MetricRow) :
    ∃ ns, nodes e { cutoffNs := some cutoffNs } table = some ns ∧
      ns.Pairwise (fun a b => a.node < b.node) ∧
      (∀ r ∈ table, cutoffNs ≤ r.windowStartNs →
        ∃ n ∈ ns, n.node = r.node ∧ r.windowEndNs ≤ n.lastSeenNs) ∧
      ∀ n ∈ ns, ∃ r ∈ table, cutoffNs ≤ r.windowStartNs ∧ r.node = n.node ∧
        r.windowEndNs = n.lastSeenNs := by
  let scan := table.filter fun r => cutoffNs ≤ r.windowStartNs
  let agg (g : String × List MetricRow) : NodeRow := ⟨g.1, e.maxOf MetricRow.windowEndNs g.2⟩
  have hgroups : IsGrouping MetricRow.node scan (e.groupBy MetricRow.node scan) :=
    he.groupBy MetricRow.node scan
  have hmax : ∀ g ∈ e.groupBy MetricRow.node scan,
      IsArgMax MetricRow.windowEndNs MetricRow.windowEndNs g.2 (agg g).lastSeenNs := by
    intro g hg
    show IsArgMax _ _ _ (e.maxOf MetricRow.windowEndNs g.2)
    rw [he.maxOf]
    exact isArgMax_max _ (hgroups.nonempty g hg)
  have hperm := he.orderBy_perm NodeRow.node ((e.groupBy MetricRow.node scan).map agg)
  refine ⟨_, rfl, ?_, fun r hr hle => ?_, fun n hn => ?_⟩
  · have hsorted := he.orderBy_sorted NodeRow.node ((e.groupBy MetricRow.node scan).map agg)
    have hne := (hperm.map NodeRow.node).nodup_iff.mpr (hgroups.nodup_map fun _ _ => rfl)
    rw [List.Nodup, List.pairwise_map] at hne
    exact (hsorted.and hne).imp fun h => lt_of_le_of_ne h.1 h.2
  · obtain ⟨g, hg, hnode, hmem⟩ := hgroups.group_of_mem
      (List.mem_filter.mpr ⟨hr, decide_eq_true hle⟩ : r ∈ scan)
    obtain ⟨s, -, hnewest, hs⟩ := hmax g hg
    exact ⟨agg g, hperm.mem_iff.mpr (List.mem_map_of_mem hg), hnode, hs ▸ hnewest r hmem⟩
  · obtain ⟨g, hg, rfl⟩ := List.mem_map.mp (hperm.mem_iff.mp hn)
    obtain ⟨s, hs, -, hend⟩ := hmax g hg
    obtain ⟨hscan, hnode⟩ := hgroups.mem_of_mem_group hg hs
    obtain ⟨hstored, hle⟩ := List.mem_filter.mp hscan
    exact ⟨s, hstored, of_decide_eq_true hle, hnode, hend⟩

/-- The response of `build_health` with these nodes. -/
def healthResponse (generatedAtNs : Nat) (s : AppState) (rows : List NodeRow) (queryOk : Bool) :
    HealthResponse :=
  let remaining := s.ingestTx.capacity - (s.ingestTx.queue.length + s.ingestTx.reserved)
  let newest := (rows.map NodeRow.lastSeenNs).foldl max 0
  let age (ts : Nat) : Float :=
    if ts = 0 then 0 else Float.ofNat (generatedAtNs - ts) / 1000000000
  { generatedAtNs := generatedAtNs
    ready := !s.ingestTx.closed && s.chHealthy
    mpscUsed := s.ingestTx.capacity - remaining
    mpscCapacity := s.ingestTx.capacity
    healthy := s.chHealthy
    queryOk := queryOk
    newestWindowEndNs := newest
    ageSecs := age newest
    stale := newest != 0 && age newest > 60
    hasData := newest != 0
    nodes := rows.map fun n => ⟨n.node, n.lastSeenNs, age n.lastSeenNs, age n.lastSeenNs > 60⟩ }

/-- A gateway with one row stored twice and one in its channel. A merge comes between two
queries. -/
def webState : AppState where
  ingestTx := ⟨[webRow 30 40 5], 0, 2, false⟩
  chHealthy := true
  expectedBearer := none
  tables := webTable
  tablesThen := [webRow 10 20 9, bareRow 20 30 5]
  dashboard := ⟨true, 500⟩
  stateCache := ⟨[], 2000, 64⟩
  healthCache := ⟨[], 2000, 4⟩
  limiter := ⟨0, 0, 600, 60⟩

end Statix.Gateway
