import Statix.Gateway.Handlers

/-!
# The rate limiter

`RateLimiter` (`statix-gateway/src/routes/dashboard/cache.rs`) over whole sequences of calls. `allow`
reads the clock up to two times: for the age of the window, and when that has expired for the start
of the next one. Nothing panics while the lock is held, so it is never poisoned.

* `Clocked`: a sequence of calls on a clock that does not go back.
* `meets`: an allowed call some of whose time is in an interval.
* `spent_segment`: the calls between two resets.
* `spent_started`, `spent_running`: an interval that begins before the window, and one that begins
  inside it.
* **`rate_capped`**: `max_per_window` calls from one reset to the next, twice as many in an interval,
  and no change by a refused call.
-/

namespace Statix.Gateway

namespace RateLimiter

/-- `RateLimiter::new`. -/
def new (now maxPerWindow window : Nat) : RateLimiter := ⟨now, 0, max maxPerWindow 1, window⟩

/-- A call in a run: its readings, whether it reset the window, and its answer. -/
structure Verdict where
  readings : Readings
  reset : Bool
  allowed : Bool
  deriving DecidableEq

/-- What a run of calls leaves. -/
def after (l : RateLimiter) (calls : List Readings) : RateLimiter :=
  calls.foldl (fun l t => (l.allow t).2) l

/-- The answers of a run of calls. -/
def run : RateLimiter → List Readings → List Verdict
  | _, [] => []
  | l, t :: calls => ⟨t, l.expired t.1, (l.allow t).1⟩ :: run (l.allow t).2 calls

end RateLimiter

/-- Calls one after another from `now` on, on a clock that does not go back. -/
def Clocked : Nat → List Readings → Prop
  | _, [] => True
  | now, t :: calls => now ≤ t.1 ∧ t.1 ≤ t.2 ∧ Clocked t.2 calls

/-- An allowed call some of whose time is in the `span` from `x` on. -/
def meets (x span : Nat) (e : RateLimiter.Verdict) : Bool :=
  e.allowed && x ≤ e.readings.2 && e.readings.1 < x + span

open RateLimiter

variable {l : RateLimiter} {t : Readings} {x now : Nat} {calls : List Readings}

/-- A limiter that admits at least one call in a window, and no more than it may. -/
structure Sound (l : RateLimiter) : Prop where
  pos : 1 ≤ l.maxPerWindow
  le : l.count ≤ l.maxPerWindow

theorem sound_new (now maxPerWindow window : Nat) : Sound (.new now maxPerWindow window) :=
  ⟨Nat.le_max_right _ _, Nat.zero_le _⟩

/-- What one call does: it restarts the window and is its first one, it is one more, or it is refused
and changes nothing. -/
inductive Allows (l : RateLimiter) (t : Readings) (r : Bool × RateLimiter) : Prop
  | restarts (expired : l.expired t.1 = true) (answer : r.1 = true) (started : r.2.started = t.2)
      (count : r.2.count = 1)
  | oneMore (running : l.expired t.1 = false) (room : l.count < l.maxPerWindow)
      (answer : r.1 = true) (started : r.2.started = l.started) (count : r.2.count = l.count + 1)
  | refused (running : l.expired t.1 = false) (full : l.count = l.maxPerWindow)
      (answer : r.1 = false) (same : r.2 = l)

/-- **One call.** -/
theorem allow_cases (h : Sound l) (t : Readings) : Allows l t (l.allow t) := by
  have hpos := h.pos
  unfold allow
  cases he : l.expired t.1 with
  | true =>
    simp only [if_true]
    rw [if_neg (by omega)]
    exact .restarts he rfl rfl rfl
  | false =>
    simp only [Bool.false_eq_true, if_false]
    by_cases hfull : l.count ≥ l.maxPerWindow
    · rw [if_pos hfull]
      exact .refused he (Nat.le_antisymm h.le hfull) rfl rfl
    · rw [if_neg hfull]
      exact .oneMore he (Nat.lt_of_not_le hfull) rfl rfl rfl

theorem maxPerWindow_allow (l : RateLimiter) (t : Readings) :
    (l.allow t).2.maxPerWindow = l.maxPerWindow := by
  unfold allow
  simp only
  split <;> split <;> rfl

theorem window_allow (l : RateLimiter) (t : Readings) :
    (l.allow t).2.window = l.window := by
  unfold allow
  simp only
  split <;> split <;> rfl

theorem sound_allow (h : Sound l) (t : Readings) : Sound (l.allow t).2 := by
  have hpos := h.pos
  have hle := h.le
  refine ⟨?_, ?_⟩
  · rw [maxPerWindow_allow]
    exact hpos
  · rw [maxPerWindow_allow]
    cases allow_cases h t with
    | restarts _ _ _ count => omega
    | oneMore _ _ _ _ count => omega
    | refused _ _ _ same => rw [same]; exact hle

/-- The window never starts after the call. -/
theorem started_allow (h : Sound l) (hstart : l.started ≤ t.2) :
    (l.allow t).2.started ≤ t.2 := by
  cases allow_cases h t with
  | restarts _ _ started _ => exact Nat.le_of_eq started
  | oneMore _ _ _ started _ => exact started ▸ hstart
  | refused _ _ _ same => exact same.symm ▸ hstart

theorem after_spec (h : Sound l) (calls : List Readings) :
    Sound (l.after calls) ∧ (l.after calls).maxPerWindow = l.maxPerWindow := by
  induction calls generalizing l with
  | nil => exact ⟨h, rfl⟩
  | cons t calls ih =>
    obtain ⟨hs, hmax⟩ := ih (sound_allow h t)
    exact ⟨hs, hmax.trans (maxPerWindow_allow l t)⟩

/-- A call counts for one at most, and only if it is allowed. -/
theorem spent_cons {p : Verdict → Bool} (hp : ∀ e, p e = true → e.allowed = true) (l : RateLimiter)
    (t : Readings) (calls : List Readings) :
    (l.run (t :: calls)).countP p ≤
      ((l.allow t).2.run calls).countP p + if (l.allow t).1 = true then 1 else 0 := by
  rw [run, List.countP_cons]
  split
  · rename_i h
    rw [if_pos (hp _ h)]
  · exact Nat.le_add_right _ _

theorem allowed_of_meets {span : Nat} (e : Verdict) (h : meets x span e = true) :
    e.allowed = true := by
  unfold meets at h
  rw [Bool.and_eq_true, Bool.and_eq_true] at h
  exact h.1.1

/-! ## Between two resets -/

/-- Without a reset the answers use up what the window has left. -/
theorem spent_same (h : Sound l) (hno : ∀ e ∈ l.run calls, e.reset = false) :
    (l.run calls).countP Verdict.allowed + l.count ≤ l.maxPerWindow := by
  induction calls generalizing l with
  | nil =>
    rw [run, List.countP_nil, Nat.zero_add]
    exact h.le
  | cons t calls ih =>
    have hrun : l.expired t.1 = false := hno _ List.mem_cons_self
    have hrest := ih (sound_allow h t) fun e he => hno e (List.mem_cons_of_mem _ he)
    have hcons := spent_cons (fun _ he => he) l t calls
    rw [maxPerWindow_allow] at hrest
    cases allow_cases h t with
    | restarts expired =>
      rw [hrun] at expired
      cases expired
    | oneMore _ _ answer _ count =>
      rw [if_pos answer] at hcons
      omega
    | refused _ _ answer same =>
      rw [answer, if_neg Bool.false_ne_true] at hcons
      rw [same] at hrest hcons
      omega

/-- **From one reset to the next.** -/
theorem spent_segment (h : Sound l) (hno : ∀ e ∈ (l.run calls).tail, e.reset = false) :
    (l.run calls).countP Verdict.allowed ≤ l.maxPerWindow := by
  cases calls with
  | nil => exact Nat.zero_le _
  | cons t calls =>
    have hrest := spent_same (sound_allow h t) hno
    have hcons := spent_cons (fun _ he => he) l t calls
    rw [maxPerWindow_allow] at hrest
    cases allow_cases h t with
    | restarts _ answer _ count =>
      rw [if_pos answer] at hcons
      omega
    | oneMore _ _ answer _ count =>
      rw [if_pos answer] at hcons
      omega
    | refused _ _ answer same =>
      rw [answer, if_neg Bool.false_ne_true] at hcons
      omega

/-! ## In an interval -/

/-- Calls after the interval. -/
theorem spent_later {span : Nat} (hc : Clocked now calls) (hlate : x + span ≤ now)
    (l : RateLimiter) : (l.run calls).countP (meets x span) = 0 := by
  induction calls generalizing l now with
  | nil => rfl
  | cons t calls ih =>
    obtain ⟨hnow, hle, hrest⟩ := hc
    have hout : ¬ t.1 < x + span := by omega
    rw [run, List.countP_cons, ih hrest (by omega)]
    simp [meets, hout]

/-- An interval that begins before the window: no other window begins in it. -/
theorem spent_started (hc : Clocked now calls) (h : Sound l) (hx : x ≤ l.started)
    (hstart : l.started ≤ now) :
    (l.run calls).countP (meets x l.window) + l.count ≤ l.maxPerWindow := by
  induction calls generalizing l now with
  | nil =>
    rw [run, List.countP_nil, Nat.zero_add]
    exact h.le
  | cons t calls ih =>
    obtain ⟨hnow, hle, hrest⟩ := hc
    have hcons := spent_cons (p := meets x l.window) allowed_of_meets l t calls
    have hnext := ih hrest (sound_allow h t)
    rw [maxPerWindow_allow, window_allow] at hnext
    cases allow_cases h t with
    | restarts expired =>
      -- the window has expired, so the interval is over
      have hover : x + l.window ≤ t.1 := by
        have := of_decide_eq_true expired
        omega
      have hlater : Clocked t.1 (t :: calls) := ⟨Nat.le_refl t.1, hle, hrest⟩
      rw [spent_later hlater hover, Nat.zero_add]
      exact h.le
    | oneMore _ _ answer started count =>
      rw [if_pos answer] at hcons
      have := hnext (started ▸ hx) (by omega)
      omega
    | refused _ _ answer same =>
      rw [answer, if_neg Bool.false_ne_true] at hcons
      rw [same] at hnext hcons
      have := hnext hx (by omega)
      omega

/-- An interval that begins inside the window: one other window begins in it. -/
theorem spent_running (hc : Clocked now calls) (h : Sound l) (hx : x ≤ now)
    (hstart : l.started ≤ now) :
    (l.run calls).countP (meets x l.window) + l.count ≤ 2 * l.maxPerWindow := by
  induction calls generalizing l now with
  | nil =>
    have := h.le
    rw [run, List.countP_nil]
    omega
  | cons t calls ih =>
    obtain ⟨hnow, hle, hrest⟩ := hc
    have hlast : x ≤ t.2 := by omega
    have hcount := h.le
    have hcons := spent_cons (p := meets x l.window) allowed_of_meets l t calls
    have hnext := ih hrest (sound_allow h t) hlast (started_allow h (by omega))
    rw [maxPerWindow_allow, window_allow] at hnext
    cases allow_cases h t with
    | restarts _ answer started count =>
      -- the interval begins before the window that starts here
      have hother := spent_started (x := x) hrest (sound_allow h t) (by omega) (by omega)
      rw [maxPerWindow_allow, window_allow] at hother
      rw [if_pos answer] at hcons
      omega
    | oneMore _ _ answer _ count =>
      rw [if_pos answer] at hcons
      omega
    | refused _ _ answer same =>
      rw [answer, if_neg Bool.false_ne_true] at hcons
      rw [same] at hnext hcons
      omega

/-- **In any interval.** -/
theorem spent_interval (hc : Clocked now calls) (h : Sound l) (hstart : l.started ≤ now) (x : Nat) :
    (l.run calls).countP (meets x l.window) ≤ 2 * l.maxPerWindow := by
  induction calls generalizing l now with
  | nil => exact Nat.zero_le _
  | cons t calls ih =>
    obtain ⟨hnow, hle, hrest⟩ := hc
    have hstart' := started_allow h (t := t) (by omega)
    by_cases hx : x ≤ t.2
    · -- the first call that may be in the interval
      have hcons := spent_cons (p := meets x l.window) allowed_of_meets l t calls
      have hnext := spent_running hrest (sound_allow h t) hx hstart'
      rw [maxPerWindow_allow, window_allow] at hnext
      cases allow_cases h t with
      | restarts _ answer _ count =>
        rw [if_pos answer] at hcons
        omega
      | oneMore _ _ answer _ count =>
        rw [if_pos answer] at hcons
        omega
      | refused _ _ answer same =>
        rw [answer, if_neg Bool.false_ne_true] at hcons
        omega
    · have hnext := ih hrest (sound_allow h t) hstart'
      rw [maxPerWindow_allow, window_allow] at hnext
      rw [run, List.countP_cons]
      simpa [meets, hx] using hnext

/-- **Rate cap.** For every sequence of calls on a new limiter, on a clock that does not go back:
from one reset to the next at most `max_per_window` calls are allowed; of the calls that meet a
half-open interval as long as the window at most twice as many; and a refused call changes nothing. -/
theorem rate_capped (start maxPerWindow window : Nat) (calls : List Readings)
    (clocked : Clocked start calls) :
    let l := RateLimiter.new start maxPerWindow window
    (∀ before mid rest, calls = before ++ mid ++ rest →
      (∀ e ∈ ((l.after before).run mid).tail, e.reset = false) →
      ((l.after before).run mid).countP Verdict.allowed ≤ l.maxPerWindow) ∧
    (∀ x, (l.run calls).countP (meets x window) ≤ 2 * l.maxPerWindow) ∧
    ∀ before t rest, calls = before ++ t :: rest → ((l.after before).allow t).1 = false →
      ((l.after before).allow t).2 = l.after before := by
  intro l
  have hl : Sound l := sound_new start maxPerWindow window
  refine ⟨fun before mid rest _ hno => ?_, fun x => ?_, fun before t rest _ hanswer => ?_⟩
  · obtain ⟨hs, hmax⟩ := after_spec hl before
    rw [← hmax]
    exact spent_segment hs hno
  · exact spent_interval clocked hl (Nat.le_refl start) x
  · cases allow_cases (after_spec hl before).1 t with
    | restarts _ answer | oneMore _ _ answer =>
      rw [answer] at hanswer
      cases hanswer
    | refused _ _ _ same => exact same

/-- Three calls a window of 50: the last call of one window and the first three of the next one are
in one interval. -/
theorem rate_capped_three :
    let calls : List Readings :=
      [(0, 0), (40, 40), (49, 49), (49, 49), (50, 51), (60, 60), (61, 61)]
    let l := RateLimiter.new 0 3 50
    (l.run calls).map Verdict.allowed = [true, true, true, false, true, true, true] ∧
      (l.run calls).countP (meets 40 50) = 5 ∧ (l.run calls).countP (meets 40 50) ≤ 2 * 3 := by
  intro calls l
  have clocked : Clocked 0 calls := by simp [Clocked, calls]
  exact ⟨by decide, by decide, (rate_capped 0 3 50 calls clocked).2.1 40⟩

end Statix.Gateway
