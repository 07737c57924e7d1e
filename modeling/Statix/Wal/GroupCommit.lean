import Mathlib.Logic.Relation
import Statix.Wal.Failing

/-!
# Group commit

The loop of `spawn_writer_thread` (`statix/src/wal/writer.rs`), one whole `append_one` a step. The
first payload of a group is appended before the inner loop, which checks after each payload of its
own whether a sync is due; `rotate` syncs the segment it gives up.

* Payloads of any length arrive at any time. Every I/O call but `fdatasync` may fail, the time since
  the last sync is an input of the check, and the drainer calls `peek_next` and `commit_pending`
  whenever the thread does not hold the lock.
* `Group.uncovered` has the file of every appended frame that no `fdatasync` of the file came after.
* `GroupInv`: all of them are in the active file, and there are no more than `since_sync` counts.
* **`group_commit_exact`**: none while the thread waits. When it takes a payload, fewer than
  `fsync_frames`, unless it is the second one of a group, the first was appended and `fsync_frames`
  is 1.
* `second_unsynced`: such a second payload.
-/

namespace Statix.Wal

open Statix.Lib

variable [Crc32] {s s' : Store}

/-! ## The file an append writes to -/

section

omit [Crc32]

/-- The file of the active segment. -/
def activePath (s : Store) : Option FileName := s.active.map fun a => a.file.path

/-- Neither the active file nor the configuration changes. -/
structure SameFile (s s' : Store) : Prop where
  path : activePath s' = activePath s
  config : s'.cfg = s.cfg

theorem SameFile.refl (s : Store) : SameFile s s := ⟨rfl, rfl⟩

theorem SameFile.trans {s'' : Store} (h : SameFile s s') (h' : SameFile s' s'') : SameFile s s'' :=
  ⟨h'.path.trans h.path, h'.config.trans h.config⟩

theorem sameFile_writeActive (s : Store) (fault : Option Nat) (bs : Bytes) :
    SameFile s (writeActive s fault bs).1 := by
  unfold writeActive
  cases ha : s.active with
  | none => exact .refl s
  | some a => exact ⟨by rw [activePath, activePath, ha]; rfl, rfl⟩

theorem sameFile_accountFrame (s : Store) (size : Nat) : SameFile s (accountFrame s size) := by
  refine ⟨?_, rfl⟩
  unfold activePath accountFrame
  rw [Option.map_map]
  rfl

theorem sameFile_recoverActiveAfterError (io : Io) (s : Store) :
    SameFile s (recoverActiveAfterError io s) := by
  unfold recoverActiveAfterError
  cases ha : s.active with
  | none => exact .refl s
  | some a => exact ⟨by rw [activePath, activePath, ha]; rfl, rfl⟩

theorem sameFile_repaired (io : Io) (r : Store × Bool) : SameFile r.1 (repaired io r).1 := by
  obtain ⟨s, ok⟩ := r
  cases ok with
  | true => exact .refl s
  | false =>
    have hcounted : SameFile s
        { s with metrics := { s.metrics with writeErrors := s.metrics.writeErrors + 1 } } :=
      ⟨rfl, rfl⟩
    exact hcounted.trans (sameFile_recoverActiveAfterError io _)

theorem ok_repaired (io : Io) (r : Store × Bool) : (repaired io r).2 = r.2 := by
  obtain ⟨s, ok⟩ := r
  cases ok <;> rfl

theorem sameFile_commitPending (s : Store) : SameFile s (commitPending s) := by
  unfold commitPending
  split <;> exact ⟨rfl, rfl⟩

theorem sameFile_cappedFor (io : Io) (s : Store) (payload : Bytes) :
    SameFile s (cappedFor io s payload) := by
  obtain ⟨hact, -, hcfg, -⟩ := enforceCap_frame io s (frameLenOnDisk payload.length)
  unfold cappedFor
  exact ⟨by rw [activePath, activePath, hact], hcfg⟩

end

theorem sameFile_peekNext (io : Io) (s : Store) : SameFile s (peekNext io s).1 := by
  refine peekNext_keeps io (fun t t' h hsame => ?_) (fun t pre m post h _ _ _ => ?_) (.refl s)
  · rw [hsame]
    exact h.trans ⟨rfl, rfl⟩
  · exact h.trans ⟨rfl, rfl⟩

/-- A frame is written to the active file. -/
theorem path_writeFrame (io : Io) (s : Store) (payload : Bytes) :
    activePath (writeFrame io s payload).1 = activePath s ∧
      ((writeFrame io s payload).2 = true → activePath s ≠ none) := by
  refine ⟨?_, fun h => ?_⟩
  · exact writeFrame_preserves activePath io s payload (fun _ _ => rfl)
      (fun s fault bs => (sameFile_writeActive s fault bs).path)
      fun s size => (sameFile_accountFrame s size).path
  · cases ha : s.active with
    | none =>
      unfold writeFrame writeActive at h
      simp only [ha] at h
      cases h
    | some a =>
      rw [activePath, ha]
      exact Option.some_ne_none _

/-- **The file of an append**: the active one when there is room, and one there is when it
succeeds. -/
theorem path_appendOne (io : Io) (s : Store) (payload : Bytes) :
    (appendOne io s payload).1.cfg = s.cfg ∧
    (needsRotate (cappedFor io s payload) (frameLenOnDisk payload.length) = false →
      activePath (appendOne io s payload).1 = activePath s) ∧
    ((appendOne io s payload).2 = true → activePath (appendOne io s payload).1 ≠ none) := by
  have hcfg : (appendOne io s payload).1.cfg = s.cfg :=
    (congrArg Prod.fst (readerOf_appendOne io s payload)).trans (readerOf_enforceCap io s _).1
  have hrep := (sameFile_repaired io (append io s payload)).path
  refine ⟨hcfg, ?_⟩
  rw [appendOne_eq, ok_repaired, hrep]
  cases hroom : ensureActiveWithRoom io (cappedFor io s payload)
      (frameLenOnDisk payload.length) with
  | mk s₁ ok =>
    cases ok with
    | false =>
      rw [append_no_room hroom]
      refine ⟨fun hrot => ?_, fun h => nomatch h⟩
      rw [ensureActiveWithRoom_stay io hrot] at hroom
      cases hroom
    | true =>
      obtain ⟨hsame, hsome⟩ := path_writeFrame io s₁ payload
      rw [append_room hroom, hsame]
      refine ⟨fun hrot => ?_, hsome⟩
      rw [ensureActiveWithRoom_stay io hrot] at hroom
      cases hroom
      exact (sameFile_cappedFor io s payload).path

/-! ## The thread -/

/-- Where the writer thread is. -/
inductive GroupPhase where
  /-- In `blocking_recv`. -/
  | waiting
  /-- `blocking_recv` returned; the lock is not taken yet. -/
  | received (payload : Bytes)
  /-- With the lock, before `try_recv`. -/
  | holding (sinceSync : Nat)
  /-- With the lock, `try_recv` returned. -/
  | receivedMore (sinceSync : Nat) (payload : Bytes)
  /-- With the lock, before the check whether a sync is due. -/
  | appendedMore (sinceSync : Nat)
  deriving DecidableEq

/-- The lock is free. -/
def GroupPhase.unlocked : GroupPhase → Bool
  | .waiting => true
  | .received _ => true
  | _ => false

/-- The thread with its channel. -/
structure Group where
  store : Store
  chan : List Bytes
  phase : GroupPhase
  /-- The last `append` returned `Ok`. -/
  landed : Bool
  /-- The file of each appended frame that is not covered. -/
  uncovered : List FileName

namespace Group

omit [Crc32] in
/-- What an `fdatasync` of the active file of `s` leaves uncovered. -/
def beyond (s : Store) (files : List FileName) : List FileName :=
  files.filter fun n => activePath s ≠ some n

omit [Crc32] in
/-- The files left when the append of `payload` has made room: a rotation syncs the segment it gives
up. -/
def afterRoom (g : Group) (io : Io) (payload : Bytes) : List FileName :=
  let capped := cappedFor io g.store payload
  if needsRotate capped (frameLenOnDisk payload.length) then beyond capped g.uncovered
  else g.uncovered

/-- `append_one`, going on to `next`. -/
def append (g : Group) (io : Io) (payload : Bytes) (next : GroupPhase) : Group :=
  let r := appendOne io g.store payload
  { g with
    store := r.1
    phase := next
    landed := r.2
    uncovered := g.afterRoom io payload ++ if r.2 then (activePath r.1).toList else [] }

omit [Crc32] in
/-- `sync`, going on to `next`. -/
def sync (g : Group) (io : Io) (next : GroupPhase) : Group :=
  { g with
    store := syncActive io g.store
    phase := next
    uncovered := beyond g.store g.uncovered }

omit [Crc32] in
/-- The thread as it is started, with a store from `recover`. -/
def start (s : Store) : Group := ⟨s, [], .waiting, false, []⟩

end Group

/-- A step of the writer thread, an arrival on its channel, or a call of the drainer. Every
`fdatasync` succeeds. -/
inductive GroupStep : Group → Group → Prop
  | arrive {g : Group} (payload : Bytes) : GroupStep g { g with chan := g.chan ++ [payload] }
  | recv {g : Group} {payload : Bytes} {rest : List Bytes} (h : g.phase = .waiting)
      (queued : g.chan = payload :: rest) :
      GroupStep g { g with phase := .received payload, chan := rest }
  | appendFirst {g : Group} {payload : Bytes} (io : Io) (syncs : io.fdatasync = true)
      (h : g.phase = .received payload) : GroupStep g (g.append io payload (.holding 1))
  | tryRecv {g : Group} {n : Nat} {payload : Bytes} {rest : List Bytes} (h : g.phase = .holding n)
      (queued : g.chan = payload :: rest) :
      GroupStep g { g with phase := .receivedMore n payload, chan := rest }
  | appendMore {g : Group} {n : Nat} {payload : Bytes} (io : Io) (syncs : io.fdatasync = true)
      (h : g.phase = .receivedMore n payload) :
      GroupStep g (g.append io payload (.appendedMore (n + 1)))
  | syncDue {g : Group} {n : Nat} (io : Io) (syncs : io.fdatasync = true) (elapsed : Bool)
      (h : g.phase = .appendedMore n) (due : (n ≥ g.store.cfg.fsyncFrames || elapsed) = true) :
      GroupStep g (g.sync io (.holding 0))
  | syncNotDue {g : Group} {n : Nat} (elapsed : Bool) (h : g.phase = .appendedMore n)
      (notDue : (n ≥ g.store.cfg.fsyncFrames || elapsed) = false) :
      GroupStep g { g with phase := .holding n }
  | groupDone {g : Group} {n : Nat} (io : Io) (syncs : io.fdatasync = true)
      (h : g.phase = .holding n) (empty : g.chan = []) :
      GroupStep g (if n > 0 then g.sync io .waiting else { g with phase := .waiting })
  | peek {g : Group} (io : Io) (h : g.phase.unlocked = true) :
      GroupStep g { g with store := (peekNext io g.store).1 }
  | commit {g : Group} (h : g.phase.unlocked = true) :
      GroupStep g { g with store := commitPending g.store }

/-- The thread takes a payload from its channel. -/
def Takes (g g' : Group) : Prop :=
  match g.phase, g'.phase with
  | .waiting, .received _ => True
  | .holding _, .receivedMore _ _ => True
  | _, _ => False

/-! ## The invariant -/

/-- How many frames can be uncovered, by where the thread is. -/
def CountAt (fsyncFrames : Nat) (landed : Bool) (uncovered : List FileName) : GroupPhase → Prop
  | .waiting => uncovered = []
  | .received _ => uncovered = []
  | .holding n =>
    uncovered.length ≤ n ∧ (n = 0 ∨ n < fsyncFrames ∨ n = 1 ∧ (uncovered = [] ↔ landed = false))
  | .receivedMore n _ => uncovered.length ≤ n
  | .appendedMore n => uncovered.length ≤ n

/-- **What a run keeps**: uncovered frames are in the active file, and `since_sync` counts them. -/
structure GroupInv (cfg : WalConfig) (g : Group) : Prop where
  config : g.store.cfg = cfg
  inActive : ∀ n ∈ g.uncovered, activePath g.store = some n
  count : CountAt cfg.fsyncFrames g.landed g.uncovered g.phase

variable {g g' : Group} {cfg : WalConfig}

omit [Crc32] in
theorem groupInv_start (s : Store) : GroupInv s.cfg (.start s) :=
  ⟨rfl, fun _ h => absurd h List.not_mem_nil, rfl⟩

omit [Crc32] in
/-- A sync covers everything. -/
theorem beyond_eq_nil {s : Store} {files : List FileName}
    (h : ∀ n ∈ files, activePath s = some n) : Group.beyond s files = [] := by
  unfold Group.beyond
  exact List.filter_eq_nil_iff.mpr fun n hn => by simp [h n hn]

omit [Crc32] in
theorem GroupInv.afterRoom (h : GroupInv cfg g) (io : Io) (payload : Bytes) :
    g.afterRoom io payload =
      if needsRotate (cappedFor io g.store payload) (frameLenOnDisk payload.length) then []
      else g.uncovered := by
  have hnil : Group.beyond (cappedFor io g.store payload) g.uncovered = [] :=
    beyond_eq_nil fun n hn => (sameFile_cappedFor io g.store payload).path.trans (h.inActive n hn)
  unfold Group.afterRoom
  simp only [hnil]

/-- **One append**: at most one more frame is uncovered, and all of them are in the active file. -/
theorem GroupInv.append (h : GroupInv cfg g) (io : Io) (payload : Bytes) (next : GroupPhase) :
    (g.append io payload next).store.cfg = cfg ∧
    (∀ n ∈ (g.append io payload next).uncovered,
      activePath (g.append io payload next).store = some n) ∧
    (g.append io payload next).uncovered.length ≤ g.uncovered.length + 1 := by
  obtain ⟨hcfg, hstay, -⟩ := path_appendOne io g.store payload
  refine ⟨hcfg.trans h.config, fun n hn => ?_, ?_⟩
  · rcases List.mem_append.mp hn with hn | hn
    -- what was uncovered before and is not covered by a rotation
    · rw [h.afterRoom] at hn
      cases hrot : needsRotate (cappedFor io g.store payload) (frameLenOnDisk payload.length) with
      | true =>
        rw [hrot, if_pos rfl] at hn
        exact absurd hn List.not_mem_nil
      | false =>
        rw [hrot, if_neg Bool.false_ne_true] at hn
        exact (hstay hrot).trans (h.inActive n hn)
    · split at hn
      · exact Option.mem_toList.mp hn
      · exact absurd hn List.not_mem_nil
  · show (_ ++ _ : List FileName).length ≤ _
    rw [List.length_append, h.afterRoom]
    refine Nat.add_le_add ?_ ?_
    · split
      · exact Nat.zero_le _
      · exact Nat.le_refl _
    · split
      · exact Option.length_toList_le
      · exact Nat.zero_le _

/-- With nothing uncovered before, an append leaves a frame uncovered when it succeeds. -/
theorem GroupInv.append_first (h : GroupInv cfg g) (io : Io) (payload : Bytes) (next : GroupPhase)
    (hnil : g.uncovered = []) :
    (g.append io payload next).uncovered = [] ↔ (g.append io payload next).landed = false := by
  have hroom : g.afterRoom io payload = [] := by
    rw [h.afterRoom, hnil]
    exact ite_self _
  unfold Group.append
  simp only [hroom, List.nil_append]
  cases hok : (appendOne io g.store payload).2 with
  | false => simp
  | true =>
    obtain ⟨name, hname⟩ :=
      Option.ne_none_iff_exists'.mp ((path_appendOne io g.store payload).2.2 hok)
    simp [hname]

omit [Crc32] in
theorem GroupInv.sync (h : GroupInv cfg g) (io : Io) (next : GroupPhase)
    (hcount : CountAt cfg.fsyncFrames g.landed [] next) : GroupInv cfg (g.sync io next) := by
  have hnil : (g.sync io next).uncovered = [] := beyond_eq_nil h.inActive
  refine ⟨h.config, fun n hn => ?_, ?_⟩
  · rw [hnil] at hn
    exact absurd hn List.not_mem_nil
  · rw [hnil]
    exact hcount

omit [Crc32] in
/-- A step that leaves the active file alone. -/
theorem GroupInv.frame (h : GroupInv cfg g) (hsame : SameFile g.store g'.store)
    (hfiles : g'.uncovered = g.uncovered)
    (hcount : CountAt cfg.fsyncFrames g'.landed g.uncovered g'.phase) : GroupInv cfg g' := by
  refine ⟨hsame.config.trans h.config, ?_, ?_⟩
  · rw [hfiles, hsame.path]
    exact h.inActive
  · rw [hfiles]
    exact hcount

/-- **One step.** -/
theorem groupInv_step (h : GroupInv cfg g) (hstep : GroupStep g g') : GroupInv cfg g' := by
  have hcount := h.count
  cases hstep with
  | arrive payload => exact h.frame (.refl _) rfl hcount
  | recv hp queued =>
    rw [hp] at hcount
    exact h.frame (.refl _) rfl hcount
  | appendFirst io syncs hp =>
    rw [hp] at hcount
    obtain ⟨hcfg, hfiles, hlen⟩ := h.append io _ (.holding 1)
    have hnone : g.uncovered.length = 0 := List.length_eq_zero_iff.mpr hcount
    rw [hnone] at hlen
    exact ⟨hcfg, hfiles, hlen, .inr (.inr ⟨rfl, h.append_first io _ _ hcount⟩)⟩
  | tryRecv hp queued =>
    rw [hp] at hcount
    exact h.frame (.refl _) rfl hcount.1
  | appendMore io syncs hp =>
    rw [hp] at hcount
    obtain ⟨hcfg, hfiles, hlen⟩ := h.append io _ (.appendedMore _)
    exact ⟨hcfg, hfiles, hlen.trans (Nat.succ_le_succ hcount)⟩
  | syncDue io syncs elapsed hp due => exact h.sync io _ ⟨Nat.le_refl 0, .inl rfl⟩
  | syncNotDue elapsed hp notDue =>
    rw [hp] at hcount
    have hlt : ¬ _ ≥ g.store.cfg.fsyncFrames :=
      of_decide_eq_false (Bool.or_eq_false_iff.mp notDue).1
    rw [h.config] at hlt
    exact h.frame (.refl _) rfl ⟨hcount, .inr (.inl (Nat.lt_of_not_ge hlt))⟩
  | groupDone io syncs hp empty =>
    rw [hp] at hcount
    split
    · exact h.sync io _ rfl
    · rename_i hn
      have hzero : g.uncovered.length ≤ 0 := hcount.1.trans (Nat.le_of_not_gt hn)
      exact h.frame (.refl _) rfl (List.length_eq_zero_iff.mp (Nat.le_zero.mp hzero))
  | peek io hp => exact h.frame (sameFile_peekNext io _) rfl hcount
  | commit hp => exact h.frame (sameFile_commitPending _) rfl hcount

/-- **A whole run.** -/
theorem groupInv_run {s : Store} (run : Relation.ReflTransGen GroupStep (.start s) g) :
    GroupInv s.cfg g := by
  induction run with
  | refl => exact groupInv_start s
  | tail _ hstep ih => exact groupInv_step ih hstep

/-- **The bound of a group commit**, exactly, at every payload the thread takes. -/
theorem group_commit_exact (s : Store) (g : Group)
    (run : Relation.ReflTransGen GroupStep (.start s) g) :
    (g.phase = .waiting → g.uncovered = []) ∧
    ∀ g', GroupStep g g' → Takes g g' →
      (g.uncovered.length ≤ s.cfg.fsyncFrames - 1 ↔
        2 ≤ s.cfg.fsyncFrames ∨ g.phase ≠ .holding 1 ∨ g.landed = false) := by
  have hcount := (groupInv_run run).count
  refine ⟨fun hp => by rw [hp] at hcount; exact hcount, fun g' _ htakes => ?_⟩
  cases hp : g.phase with
  | waiting =>
    rw [hp] at hcount
    have hnil : g.uncovered = [] := hcount
    simp [hnil]
  | holding n =>
    rw [hp] at hcount
    obtain ⟨hlen, rfl | hlt | ⟨rfl, hfirst⟩⟩ := hcount
    · exact iff_of_true (by omega) (.inr (.inl fun e => nomatch e))
    · refine iff_of_true (by omega) ?_
      by_cases hn : n = 1
      · exact .inl (by omega)
      · exact .inr (.inl fun e => hn (GroupPhase.holding.inj e))
    -- the first payload of a group, after which nothing is checked
    · cases hl : g.landed with
      | true =>
        rw [hl] at hfirst
        have hpos : 0 < g.uncovered.length :=
          List.length_pos_iff.mpr fun hnil => Bool.noConfusion (hfirst.mp hnil)
        simp only [ne_eq, not_true_eq_false, Bool.true_eq_false, or_false]
        omega
      | false =>
        have hnil : g.uncovered = [] := hfirst.mpr hl
        simp [hnil]
  | received payload => simp [Takes, hp] at htakes
  | receivedMore n payload => simp [Takes, hp] at htakes
  | appendedMore n => simp [Takes, hp] at htakes

omit [Crc32] in
/-- Two payloads at `fsync_frames = 2`: the second is taken with one frame uncovered. -/
theorem group_commit_exact_two : letI := crc32Ieee
    ∃ g g', Relation.ReflTransGen GroupStep
        (.start (emptyStore { smallConfig with fsyncFrames := 2 } fun _ => none)) g ∧
      GroupStep g g' ∧ Takes g g' ∧ g.uncovered.length = 1 ∧
      (g.uncovered.length ≤ 2 - 1 ↔ 2 ≤ 2 ∨ g.phase ≠ .holding 1 ∨ g.landed = false) := by
  let _ := crc32Ieee
  have run := ((((Relation.ReflTransGen.refl (r := GroupStep)
    (a := .start (emptyStore { smallConfig with fsyncFrames := 2 } fun _ => none))).tail
      (.arrive [7])).tail (.arrive [8])).tail (.recv rfl rfl)).tail (.appendFirst .ok rfl rfl)
  refine ⟨_, _, run, .tryRecv rfl (rfl : _ = ([8] : Bytes) :: []), trivial, by decide +kernel, ?_⟩
  exact (group_commit_exact _ _ run).2 _ (.tryRecv rfl (rfl : _ = ([8] : Bytes) :: [])) trivial

omit [Crc32] in
/-- Two payloads at `fsync_frames = 1`: the second is taken with one frame uncovered, and after its
append there are two. -/
theorem second_unsynced : letI := crc32Ieee
    ∃ g g' g'', Relation.ReflTransGen GroupStep (.start (emptyStore smallConfig fun _ => none)) g ∧
      GroupStep g g' ∧ Takes g g' ∧ smallConfig.fsyncFrames = 1 ∧
      ¬ g.uncovered.length ≤ smallConfig.fsyncFrames - 1 ∧
      GroupStep g' g'' ∧ g''.uncovered.length = 2 := by
  let _ := crc32Ieee
  have run := ((((Relation.ReflTransGen.refl (r := GroupStep)
    (a := .start (emptyStore smallConfig fun _ => none))).tail
      (.arrive [7])).tail (.arrive [8])).tail (.recv rfl rfl)).tail (.appendFirst .ok rfl rfl)
  exact ⟨_, _, _, run, .tryRecv rfl (rfl : _ = ([8] : Bytes) :: []), trivial, rfl,
    by decide +kernel, .appendMore .ok rfl rfl, by decide +kernel⟩

end Statix.Wal
