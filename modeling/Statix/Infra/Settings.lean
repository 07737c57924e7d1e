import Statix.Attribution.Host
import Statix.Delivery.Pacing
import Statix.Gateway.ResponseCache
import Statix.Gateway.RateLimit

/-!
# What the environment says

Model of `statix-infra/src/env.rs` and of the functions that read the settings of the agent and the
gateway through it: `WalConfig::from_env` (`statix/src/wal/mod.rs`), `init_retry_worker` and the
timeouts of the HTTP client (`statix/src/output.rs`), the writer's settings
(`statix-gateway/src/clickhouse_writer.rs`), `DashboardConfig::from_env` and `Dashboard::new`
(`routes/dashboard/mod.rs`), `Config::from_env` (`statix-gateway/src/config.rs`).

* An `Environment` is what `std::env::var` returns: nothing for a variable that is not set or not
  Unicode.
* `usize` has 64 bits. Log lines are left out, and so are the settings nothing here reads (paths,
  URLs, the ClickHouse user).

* `readEnv_range`: a number read from the environment is positive and fits in 64 bits.
* `walConfig_fits`, `dashboard_range`, `writer_range`, `apiPort_range`: what the rest of the
  development asks of its settings holds in every environment.
-/

namespace Statix.Infra

open Statix.Wal (parseU64 stripPrefix WalConfig)
open Statix.Gateway (DashboardConfig TtlCache RateLimiter clamp)
open Statix.Delivery (Pace)

/-! ## Variables -/

/-- `std::env::var`. -/
abbrev Environment := String → Option String

/-- `var_with_legacy`, and `var`. -/
def var (env : Environment) (name : String) : Option String :=
  (env name).orElse fun _ =>
    (stripPrefix "STATIX_".toList name.toList).bind fun legacy =>
      env (String.ofList ("FINOPS_".toList ++ legacy))

/-- `read_env_positive`. -/
def readEnvPositive (env : Environment) (name : String) (default : Nat) : Nat :=
  match var env name with
  | some s =>
    match parseU64 s.toList with
    | some v => if v > 0 then v else default
    | none => default
  | none => default

/-- `read_env_u64`. -/
def readEnvU64 : Environment → String → Nat → Nat := readEnvPositive

/-- `read_env_usize`. -/
def readEnvUsize : Environment → String → Nat → Nat := readEnvPositive

variable {env : Environment} {name : String} {default : Nat}

/-- **A number from the environment**, whatever the variable says. -/
theorem readEnv_range (some : 0 < default) (small : default < 2 ^ 64) :
    0 < readEnvPositive env name default ∧ readEnvPositive env name default < 2 ^ 64 := by
  unfold readEnvPositive
  split
  · split
    · rename_i v hv
      by_cases hpos : v > 0
      · simp only [if_pos hpos]
        exact ⟨hpos, Wal.parseU64_lt hv⟩
      · simp only [if_neg hpos]
        exact ⟨some, small⟩
    · exact ⟨some, small⟩
  · exact ⟨some, small⟩

/-! ## The agent -/

/-- `WalConfig::from_env`. -/
def WalConfig.fromEnv (env : Environment) : WalConfig :=
  let enabled := ((var env "STATIX_WAL_ENABLED").map fun v =>
    let v := (Attribution.trim v.toList).map Char.toLower
    !(v == "0".toList || v == "false".toList || v == "no".toList || v == "off".toList)).getD true
  let maxBytes := readEnvU64 env "STATIX_WAL_MAX_BYTES" (512 * 1024 * 1024)
  let segmentBytes := readEnvU64 env "STATIX_WAL_SEGMENT_BYTES" (8 * 1024 * 1024)
  let fsyncFrames := readEnvU64 env "STATIX_WAL_FSYNC_FRAMES" 64
  let fsyncInterval := readEnvU64 env "STATIX_WAL_FSYNC_INTERVAL_MS" 200
  { enabled := enabled
    maxBytes := max maxBytes segmentBytes
    segmentBytes := segmentBytes
    fsyncFrames := max fsyncFrames 1
    fsyncInterval := fsyncInterval }

/-- The backoffs of `init_retry_worker`. -/
def paceFromEnv (env : Environment) (nodeHash : Nat) : Pace :=
  Delivery.initRetryWorker (readEnvU64 env "STATIX_BACKOFF_INITIAL_SECS" 1)
    (readEnvU64 env "STATIX_BACKOFF_MAX_SECS" 30) nodeHash

/-- **The WAL of any environment** has room for a segment, and syncs. -/
theorem walConfig_fits (env : Environment) :
    0 < (WalConfig.fromEnv env).segmentBytes ∧
      (WalConfig.fromEnv env).segmentBytes ≤ (WalConfig.fromEnv env).maxBytes ∧
      1 ≤ (WalConfig.fromEnv env).fsyncFrames := by
  have hsegment := @readEnv_range env "STATIX_WAL_SEGMENT_BYTES"
    (8 * 1024 * 1024) (by decide) (by decide)
  exact ⟨hsegment.1, Nat.le_max_right _ _, Nat.le_max_right _ _⟩

/-! ## The gateway -/

/-- `read_linger`, in milliseconds. -/
def readLinger (env : Environment) : Nat := clamp (readEnvU64 env "STATIX_CH_LINGER_MS" 50) 1 1000

/-- `read_insert_timeout`, in seconds. -/
def readInsertTimeout (env : Environment) : Nat :=
  clamp (readEnvU64 env "STATIX_CH_INSERT_TIMEOUT_SECS" 3) 1 30

/-- `ingest_channel_capacity`. -/
def ingestChannelCapacity (env : Environment) : Nat :=
  Gateway.ingestChannelCapacity (readEnvUsize env "STATIX_INGEST_CHANNEL_SIZE" 8192)

/-- `read_batch_max`. -/
def readBatchMax (env : Environment) : Nat :=
  Gateway.readBatchMax (readEnvUsize env "STATIX_CH_BATCH_MAX" 1024)

/-- `DashboardConfig::from_env`, the part the handlers read. -/
def DashboardConfig.fromEnv (env : Environment) : DashboardConfig where
  enabled := match var env "STATIX_DASHBOARD_ENABLED" with
    | some "0" | some "false" | some "no" | some "off" => false
    | _ => true
  maxLimit := clamp (readEnvUsize env "STATIX_DASHBOARD_MAX_LIMIT" 500) 10 5000

/-- The lifetime of a cached answer in `DashboardConfig::from_env`, in milliseconds. -/
def cacheTtl (env : Environment) : Nat :=
  clamp (readEnvU64 env "STATIX_DASHBOARD_CACHE_MS" 2000) 0 60000

/-- The rate limit of `DashboardConfig::from_env`; the cast to `u32` wraps. -/
def rateLimitPerMin (env : Environment) : Nat :=
  clamp (readEnvU64 env "STATIX_DASHBOARD_RATE_LIMIT_PER_MIN" 600) 10 1000000 % 2 ^ 32

/-- The state cache of `Dashboard::new`. -/
def stateCache (env : Environment) : TtlCache := .new (cacheTtl env) 64

/-- The health cache of `Dashboard::new`. -/
def healthCache (env : Environment) : TtlCache := .new (cacheTtl env) 4

/-- The limiter of `Dashboard::new`, with a window in milliseconds. -/
def limiter (env : Environment) (now : Nat) : RateLimiter := .new now (rateLimitPerMin env) 60000

/-- Why `env_api_port` ends the process. -/
inductive PortError where
  | zero
  | invalid (s : String)
  deriving DecidableEq

/-- `env_api_port`. -/
def envApiPort (env : Environment) : Except PortError Nat :=
  match var env "STATIX_API_PORT" with
  | none => .ok 3000
  | some s =>
    match (parseU64 s.toList).filter (· < 2 ^ 16) with
    | some 0 => .error .zero
    | some port => .ok port
    | none => .error (.invalid s)

theorem clamp_range {n lo hi : Nat} (h : lo ≤ hi) : lo ≤ clamp n lo hi ∧ clamp n lo hi ≤ hi := by
  unfold clamp
  omega

/-- **The settings of the dashboard.** -/
theorem dashboard_range (env : Environment) (now : Nat) :
    (10 ≤ (DashboardConfig.fromEnv env).maxLimit ∧ (DashboardConfig.fromEnv env).maxLimit ≤ 5000) ∧
      (stateCache env).ttl ≤ 60000 ∧ (stateCache env).maxEntries = 64 ∧
      (healthCache env).maxEntries = 4 ∧
      10 ≤ (limiter env now).maxPerWindow ∧ (limiter env now).maxPerWindow ≤ 1000000 := by
  have hrate := @clamp_range (readEnvU64 env "STATIX_DASHBOARD_RATE_LIMIT_PER_MIN" 600) 10 1000000
    (by decide)
  have hcast : rateLimitPerMin env =
      clamp (readEnvU64 env "STATIX_DASHBOARD_RATE_LIMIT_PER_MIN" 600) 10 1000000 :=
    Nat.mod_eq_of_lt (by omega)
  have hlimit : (limiter env now).maxPerWindow = max (rateLimitPerMin env) 1 := rfl
  refine ⟨clamp_range (by decide), (clamp_range (by decide)).2, rfl, rfl, ?_, ?_⟩ <;> omega

/-- **The settings of the writer.** -/
theorem writer_range (env : Environment) :
    1024 ≤ ingestChannelCapacity env ∧ (64 ≤ readBatchMax env ∧ readBatchMax env ≤ 16384) ∧
      (1 ≤ readLinger env ∧ readLinger env ≤ 1000) ∧
      1 ≤ readInsertTimeout env ∧ readInsertTimeout env ≤ 30 := by
  refine ⟨Nat.le_max_right _ _, ?_, clamp_range (by decide), clamp_range (by decide)⟩
  unfold readBatchMax Gateway.readBatchMax
  omega

/-- **The port**, or why there is none. -/
theorem apiPort_range (env : Environment) :
    (∀ port, envApiPort env = .ok port → 1 ≤ port ∧ port < 2 ^ 16) ∧
      (envApiPort env = .error .zero ↔
        ∃ s, var env "STATIX_API_PORT" = some s ∧ parseU64 s.toList = some 0) := by
  unfold envApiPort
  cases hvar : var env "STATIX_API_PORT" with
  | none =>
    refine ⟨fun port h => ?_, by simp⟩
    obtain rfl := Except.ok.inj h
    omega
  | some s =>
    simp only [Option.some.injEq, exists_eq_left']
    cases hparse : parseU64 s.toList with
    | none => simp
    | some n =>
      by_cases hsmall : n < 2 ^ 16
      · rw [Option.filter_some, if_pos (decide_eq_true hsmall)]
        cases n with
        | zero => simp
        | succ n =>
          refine ⟨fun port h => ?_, by simp⟩
          obtain rfl := Except.ok.inj h
          omega
      · rw [Option.filter_some, if_neg (by simpa using hsmall)]
        have hne : n ≠ 0 := by omega
        simp [hne]

end Statix.Infra
