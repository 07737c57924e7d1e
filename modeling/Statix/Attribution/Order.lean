import Statix.Attribution.Cache

/-!
# Registrations against pod updates

Two tasks write the cache: the main task registers cgroups (bootstrap, then identity events whose
read succeeds), and the watcher applies pod updates, each an `upsert_pod` and then a merge, a
snapshot section and a write section. A `Race` holds what each task has still to run. The tasks keep
their own order; their sections may fall in any order.

A registration computes labels without looking at the pods. It is right about a cgroup inside a
known pod only until the next merge, and after the last merge there is none.

* `final_paths`, `final_pods`: where the tasks end does not depend on the order.
* `LabelsInv`: which labels a cgroup has, by who wrote them last.
* **`labels_settle`**: the labels at the end are those a merge would compute exactly if `Settled`;
  two runs with the same final paths and pods that are both `Settled` end with the same labels.
* `registered_too_late`: a cgroup of a known pod registered after the merge.
-/

namespace Statix.Attribution

/-! ## The two tasks -/

/-- A registration of the main task. -/
inductive Registration where
  /-- `register_cgroup_directory`. -/
  | directory (id : Nat) (relPath : PathBuf)
  /-- `on_identity_event`; its read of `/proc/<pid>/cgroup` returns `relPath`. -/
  | identity (id : Nat) (relPath : PathBuf)

/-- Where the main task is. -/
inductive MainTask where
  | idle
  /-- In `on_identity_event`, before its write section. -/
  | checked (id : Nat) (relPath : PathBuf)

/-- Where the watcher is. -/
inductive WatcherTask where
  | idle
  /-- Before the snapshot of the merge. -/
  | upserted
  /-- Before the write section of the merge. -/
  | snapped (snap : Snapshot)

/-- The cache, what the tasks have still to run, and by whom the labels of a cgroup were written
last: by a merge that found this path, or by a registration (`none`). -/
structure Race where
  cache : CacheState
  main : MainTask
  registrations : List Registration
  watcher : WatcherTask
  updates : List (Text × PodInfo)
  merged : Map Nat PathBuf

/-- Before the first section. -/
def Race.start (registrations : List Registration) (updates : List (Text × PodInfo)) : Race :=
  ⟨.empty, .idle, registrations, .idle, updates, fun _ => none⟩

/-- One section of one task. -/
inductive RaceStep (root : PathBuf) : Race → Race → Prop
  | register {r : Race} {id : Nat} {relPath : PathBuf} {rest : List Registration}
      (h : r.main = .idle) (hr : r.registrations = .directory id relPath :: rest) :
      RaceStep root r { r with
        cache := r.cache.registerCgroupDirectory root id relPath
        registrations := rest
        merged := Function.update r.merged id none }
  | identityTracked {r : Race} {id : Nat} {relPath : PathBuf} {rest : List Registration}
      (h : r.main = .idle) (hr : r.registrations = .identity id relPath :: rest)
      (tracked : r.cache.tracks id = true) : RaceStep root r { r with registrations := rest }
  | identityCheck {r : Race} {id : Nat} {relPath : PathBuf} {rest : List Registration}
      (h : r.main = .idle) (hr : r.registrations = .identity id relPath :: rest)
      (untracked : r.cache.tracks id = false) :
      RaceStep root r { r with main := .checked id relPath, registrations := rest }
  | identityWrite {r : Race} {id : Nat} {relPath : PathBuf} (h : r.main = .checked id relPath) :
      RaceStep root r { r with
        cache := r.cache.identityWrite root id (some relPath)
        main := .idle
        merged := if r.cache.tracks id then r.merged else Function.update r.merged id none }
  | upsert {r : Race} {uid : Text} {info : PodInfo} {rest : List (Text × PodInfo)}
      (h : r.watcher = .idle) (hu : r.updates = (uid, info) :: rest) :
      RaceStep root r { r with
        cache := r.cache.upsertPod uid info
        watcher := .upserted
        updates := rest }
  | snapshot {r : Race} (h : r.watcher = .upserted) :
      RaceStep root r { r with watcher := .snapped r.cache.snapshot }
  | mergeWrite {r : Race} {snap : Snapshot} (h : r.watcher = .snapped snap) :
      RaceStep root r { r with
        cache := r.cache.mergeWrite snap
        watcher := .idle
        merged := fun id => (snap.paths id).or (r.merged id) }

/-- Both tasks ran all they had to run. -/
structure Race.Done (r : Race) : Prop where
  main : r.main = .idle
  registrations : r.registrations = []
  watcher : r.watcher = .idle
  updates : r.updates = []

variable {root : PathBuf} {r r' : Race}

/-! ## Where the tasks end -/

/-- The paths after a registration. -/
def Registration.paths (paths : Map Nat PathBuf) : Registration → Map Nat PathBuf
  | .directory id relPath => Function.update paths id (some relPath)
  | .identity id relPath =>
    if (paths id).isSome then paths else Function.update paths id (some relPath)

/-- The paths after all of them. -/
def pathsAfter (paths : Map Nat PathBuf) (rs : List Registration) : Map Nat PathBuf :=
  rs.foldl Registration.paths paths

/-- The pods after all updates. -/
def podsAfter (pods : Map Text PodInfo) (us : List (Text × PodInfo)) : Map Text PodInfo :=
  us.foldl (fun pods u => Function.update pods u.1 (some u.2)) pods

/-- The registrations that are not written yet. -/
def Race.pending (r : Race) : List Registration :=
  match r.main with
  | .idle => r.registrations
  | .checked id relPath => .identity id relPath :: r.registrations

theorem identityWrite_paths (c : CacheState) (id : Nat) (relPath : PathBuf) :
    (c.identityWrite root id (some relPath)).cgroupPaths =
      (Registration.identity id relPath).paths c.cgroupPaths := by
  unfold CacheState.identityWrite CacheState.tracks
  simp only [Registration.paths]
  by_cases h : (c.cgroupPaths id).isSome = true
  · rw [if_pos h, if_pos h]
  · rw [if_neg h, if_neg h]
    rfl

/-- What is still to be written leads to the same paths and pods. -/
theorem final_step (hstep : RaceStep root r r') :
    pathsAfter r'.cache.cgroupPaths r'.pending = pathsAfter r.cache.cgroupPaths r.pending ∧
      podsAfter r'.cache.podByUid r'.updates = podsAfter r.cache.podByUid r.updates := by
  cases hstep with
  | register h hr =>
    rw [Race.pending, Race.pending, h, hr]
    exact ⟨rfl, rfl⟩
  | identityTracked h hr tracked =>
    rename_i id relPath rest
    refine ⟨?_, rfl⟩
    have e : (Registration.identity id relPath).paths r.cache.cgroupPaths = r.cache.cgroupPaths :=
      if_pos tracked
    rw [Race.pending, Race.pending, h, hr]
    simp only [pathsAfter, List.foldl_cons, e]
  | identityCheck h hr untracked =>
    rw [Race.pending, Race.pending, h, hr]
    exact ⟨rfl, rfl⟩
  | identityWrite h =>
    rename_i id relPath
    have hpods : (r.cache.identityWrite root id (some relPath)).podByUid = r.cache.podByUid := by
      unfold CacheState.identityWrite
      split <;> rfl
    refine ⟨?_, congrArg (podsAfter · r.updates) hpods⟩
    rw [Race.pending, Race.pending, h]
    simp only [pathsAfter, List.foldl_cons, identityWrite_paths]
  | upsert h hu =>
    refine ⟨rfl, ?_⟩
    rw [hu]
    rfl
  | snapshot h => exact ⟨rfl, rfl⟩
  | mergeWrite h => exact ⟨rfl, rfl⟩

variable {registrations : List Registration} {updates : List (Text × PodInfo)}

theorem final_run (run : Relation.ReflTransGen (RaceStep root) (.start registrations updates) r) :
    pathsAfter r.cache.cgroupPaths r.pending = pathsAfter (fun _ => none) registrations ∧
      podsAfter r.cache.podByUid r.updates = podsAfter (fun _ => none) updates := by
  induction run with
  | refl => exact ⟨rfl, rfl⟩
  | tail _ hstep ih =>
    obtain ⟨h₁, h₂⟩ := final_step hstep
    exact ⟨h₁.trans ih.1, h₂.trans ih.2⟩

/-- **The paths at the end are those of the registrations in their order.** -/
theorem final_paths (run : Relation.ReflTransGen (RaceStep root) (.start registrations updates) r)
    (done : r.Done) : r.cache.cgroupPaths = pathsAfter (fun _ => none) registrations := by
  have h := (final_run run).1
  rw [Race.pending, done.main, done.registrations] at h
  exact h

theorem final_pods (run : Relation.ReflTransGen (RaceStep root) (.start registrations updates) r)
    (done : r.Done) : r.cache.podByUid = podsAfter (fun _ => none) updates := by
  have h := (final_run run).2
  rw [done.updates] at h
  exact h

/-! ## Who wrote the labels -/

/-- What the merge under way knows, and what the last one wrote. -/
def MergeInv (r : Race) : WatcherTask → Prop
  | .idle => ∀ id path, r.merged id = some path →
      r.cache.cgroupLabels id = some (mergedLabels r.cache.podByUid path)
  | .upserted => True
  | .snapped snap => snap.pods = r.cache.podByUid ∧
      (∀ id, (snap.paths id).isSome = true → r.cache.tracks id = true) ∧
      ∀ id, (r.merged id).isSome = true → (snap.paths id).isSome = true

/-- **The labels of every tracked cgroup**: of its path if a registration wrote them last, else of
the path the last merge found. -/
structure LabelsInv (r : Race) : Prop where
  tracked : ∀ id, (r.merged id).isSome = true → r.cache.tracks id = true
  registered : ∀ id path, r.cache.cgroupPaths id = some path → r.merged id = none →
    r.cache.cgroupLabels id = some (labelsFromCgroupPath (some path))
  watcher : MergeInv r r.watcher

/-- A registration of `id` writes the labels of its path. -/
theorem LabelsInv.register (h : LabelsInv r) (id : Nat) (relPath : PathBuf)
    {main : MainTask} {rest : List Registration} :
    LabelsInv { r with
      cache := r.cache.registerCgroupDirectory root id relPath
      main := main
      registrations := rest
      merged := Function.update r.merged id none } := by
  have hne : ∀ {j : Nat}, (Function.update r.merged id none j).isSome = true →
      j ≠ id ∧ (r.merged j).isSome = true := by
    intro j hj
    by_cases e : j = id
    · subst e
      simp at hj
    · simp [e] at hj
      exact ⟨e, by simpa using hj⟩
  have htracks : ∀ j, r.cache.tracks j = true →
      (r.cache.registerCgroupDirectory root id relPath).tracks j = true := by
    intro j hj
    show (Function.update r.cache.cgroupPaths id (some relPath) j).isSome = true
    rw [isSome_update]
    show (_ || r.cache.tracks j) = true
    rw [hj, Bool.or_true]
  refine ⟨fun j hj => htracks j (h.tracked j (hne hj).2), fun j path hp hm => ?_, ?_⟩
  · by_cases e : j = id
    · subst e
      simp only [CacheState.registerCgroupDirectory, CacheState.insertPaths,
        CacheState.insertLabels, Function.update_self] at hp ⊢
      rw [hp]
    · simp only [CacheState.registerCgroupDirectory, CacheState.insertPaths,
        CacheState.insertLabels, Function.update_of_ne e] at hp hm ⊢
      exact h.registered j path hp hm
  · have hw := h.watcher
    generalize r.watcher = w at hw
    cases w with
    | idle =>
      intro j path hj
      obtain ⟨e, -⟩ := hne (Option.isSome_iff_exists.mpr ⟨path, hj⟩)
      simp only [Function.update_of_ne e] at hj
      simp only [CacheState.registerCgroupDirectory, CacheState.insertPaths,
        CacheState.insertLabels, Function.update_of_ne e]
      exact hw j path hj
    | upserted => trivial
    | snapped snap => exact ⟨hw.1, fun j hj => htracks j (hw.2.1 j hj), fun j hj => hw.2.2 j (hne hj).2⟩

theorem LabelsInv.merge (h : LabelsInv r) {snap : Snapshot} (hw : r.watcher = .snapped snap) :
    LabelsInv { r with
      cache := r.cache.mergeWrite snap
      watcher := .idle
      merged := fun id => (snap.paths id).or (r.merged id) } := by
  have hm := h.watcher
  rw [hw] at hm
  obtain ⟨hpods, htracked, hsnap⟩ := hm
  refine ⟨fun id hid => ?_, fun id path hp hn => ?_, fun id path hid => ?_⟩
  · show r.cache.tracks id = true
    cases hs : snap.paths id with
    | some path => exact htracked id (by rw [hs]; rfl)
    | none =>
      simp only [hs, Option.none_or] at hid
      exact h.tracked id hid
  · obtain ⟨hs, hn⟩ := Option.or_eq_none_iff.mp hn
    simp only [CacheState.mergeWrite, hs]
    exact h.registered id path hp hn
  · cases hs : snap.paths id with
    | some q =>
      simp only [hs, Option.some_or, Option.some.injEq] at hid
      simp only [CacheState.mergeWrite, hs]
      rw [hid, hpods]
    | none =>
      -- a merge that wrote the labels before knew the cgroup, so this one does too
      simp only [hs, Option.none_or] at hid
      have := hsnap id (by rw [hid]; rfl)
      rw [hs] at this
      cases this

theorem labelsInv_step (h : LabelsInv r) (hstep : RaceStep root r r') : LabelsInv r' := by
  cases hstep with
  | register hm hr => exact h.register _ _
  | identityTracked hm hr tracked => exact ⟨h.tracked, h.registered, h.watcher⟩
  | identityCheck hm hr untracked => exact ⟨h.tracked, h.registered, h.watcher⟩
  | identityWrite hm =>
    rename_i id relPath
    unfold CacheState.identityWrite
    by_cases ht : r.cache.tracks id = true
    · simp only [ht, if_true]
      exact ⟨h.tracked, h.registered, h.watcher⟩
    · simp only [ht]
      exact h.register id relPath
  | upsert hw hu => exact ⟨h.tracked, h.registered, trivial⟩
  | snapshot hw => exact ⟨h.tracked, h.registered, rfl, fun _ hid => hid, h.tracked⟩
  | mergeWrite hw => exact h.merge hw

theorem labelsInv_run
    (run : Relation.ReflTransGen (RaceStep root) (.start registrations updates) r) :
    LabelsInv r := by
  induction run with
  | refl =>
    refine ⟨fun _ h => ?_, fun _ _ h => ?_, fun _ _ h => ?_⟩
    · cases h
    · cases h
    · cases h
  | tail _ hstep ih => exact labelsInv_step ih hstep

/-! ## The labels at the end -/

/-- Every tracked cgroup has the labels a merge would compute now. -/
def Attributed (c : CacheState) : Prop :=
  ∀ id path, c.cgroupPaths id = some path →
    c.labelsForCgroup id = mergedLabels c.podByUid path

/-- The cgroups registered since the snapshot of the last merge are in no known pod, and where that
merge wrote the labels of an older path they are those of the path it has. -/
def Settled (r : Race) : Prop :=
  ∀ id path, r.cache.cgroupPaths id = some path →
    match r.merged id with
    | none => knownPod r.cache.podByUid path = none
    | some old => mergedLabels r.cache.podByUid old = mergedLabels r.cache.podByUid path

theorem attributed_iff (h : LabelsInv r) (hw : r.watcher = .idle) :
    Attributed r.cache ↔ Settled r := by
  have hmerge := h.watcher
  rw [hw] at hmerge
  have key : ∀ id path, r.cache.cgroupPaths id = some path →
      (r.cache.labelsForCgroup id = mergedLabels r.cache.podByUid path ↔
        match r.merged id with
        | none => knownPod r.cache.podByUid path = none
        | some old => mergedLabels r.cache.podByUid old = mergedLabels r.cache.podByUid path) := by
    intro id path hp
    unfold CacheState.labelsForCgroup
    cases hm : r.merged id with
    | none =>
      rw [h.registered id path hp hm, Option.getD_some]
      exact mergedLabels_eq_iff _ _
    | some old =>
      rw [hmerge id old hm, Option.getD_some]
  constructor
  · intro ha id path hp
    exact (key id path hp).mp (ha id path hp)
  · intro hs id path hp
    exact (key id path hp).mpr (hs id path hp)

/-- **Attribution and the order of arrival.** A run of the two tasks ends with the labels a merge
computes from the final paths and pods exactly if it is `Settled`. Two runs whose registrations and
updates, each in its own order, lead to the same paths and pods end with them, and with the same
labels if both are `Settled`. -/
theorem labels_settle {registrations' : List Registration} {updates' : List (Text × PodInfo)}
    {x y : Race} (runX : Relation.ReflTransGen (RaceStep root) (.start registrations updates) x)
    (runY : Relation.ReflTransGen (RaceStep root) (.start registrations' updates') y)
    (doneX : x.Done) (doneY : y.Done) :
    (Attributed x.cache ↔ Settled x) ∧
      (pathsAfter (fun _ => none) registrations = pathsAfter (fun _ => none) registrations' →
        podsAfter (fun _ => none) updates = podsAfter (fun _ => none) updates' →
        (x.cache.cgroupPaths = y.cache.cgroupPaths ∧ x.cache.podByUid = y.cache.podByUid) ∧
          (Settled x → Settled y → ∀ id, x.cache.tracks id = true →
            x.cache.labelsForCgroup id = y.cache.labelsForCgroup id)) := by
  have hx := attributed_iff (labelsInv_run runX) doneX.watcher
  have hy := attributed_iff (labelsInv_run runY) doneY.watcher
  refine ⟨hx, fun sameRegistrations sameUpdates => ?_⟩
  have hpaths : x.cache.cgroupPaths = y.cache.cgroupPaths := by
    rw [final_paths runX doneX, sameRegistrations, final_paths runY doneY]
  have hpods : x.cache.podByUid = y.cache.podByUid := by
    rw [final_pods runX doneX, sameUpdates, final_pods runY doneY]
  refine ⟨⟨hpaths, hpods⟩, fun sx sy id ht => ?_⟩
  obtain ⟨path, hp⟩ := Option.isSome_iff_exists.mp ht
  rw [hx.mpr sx id path hp, hy.mpr sy id path (hpaths ▸ hp), hpods]

/-! ## One cgroup of one pod -/

/-- The merge comes after the registration. -/
theorem registered_then_merged (root : PathBuf) (id : Nat) (path : PathBuf) (uid : Text)
    (info : PodInfo) :
    ∃ x, Relation.ReflTransGen (RaceStep root) (.start [.directory id path] [(uid, info)]) x ∧
      x.Done ∧ Settled x ∧ x.cache.tracks id = true := by
  let a : Race := .start [.directory id path] [(uid, info)]
  let b : Race := { a with
    cache := a.cache.registerCgroupDirectory root id path
    registrations := []
    merged := Function.update a.merged id none }
  have h₁ : RaceStep root a b := .register rfl rfl
  have h₂ : RaceStep root b _ := .upsert rfl rfl
  have run := (((Relation.ReflTransGen.single h₁).tail h₂).tail (.snapshot rfl)).tail
    (.mergeWrite rfl)
  refine ⟨_, run, ⟨rfl, rfl, rfl, rfl⟩, fun j p hp => ?_, ?_⟩
  · -- the merge found every path there is
    have hp' : (Function.update (fun _ => none) id (some path) : Map Nat PathBuf) j = some p := hp
    show match ((Function.update (fun _ => none) id (some path) : Map Nat PathBuf) j).or _ with
      | none => _
      | some old => _
    rw [hp', Option.some_or]
  · show (Function.update (fun _ => none) id (some path) id : Option PathBuf).isSome = true
    rw [Function.update_self]
    rfl

/-- The registration comes after the merge. -/
theorem merged_then_registered (root : PathBuf) (id : Nat) (path : PathBuf) (uid : Text)
    (info : PodInfo) :
    ∃ y, Relation.ReflTransGen (RaceStep root) (.start [.directory id path] [(uid, info)]) y ∧
      y.Done ∧ y.cache.labelsForCgroup id = labelsFromCgroupPath (some path) := by
  let a : Race := .start [.directory id path] [(uid, info)]
  let b : Race := { a with
    cache := a.cache.upsertPod uid info, watcher := .upserted, updates := [] }
  have h₁ : RaceStep root a b := .upsert rfl rfl
  have h₂ : RaceStep root b _ := .snapshot rfl
  have run := (((Relation.ReflTransGen.single h₁).tail h₂).tail (.mergeWrite rfl)).tail
    (.register rfl rfl)
  refine ⟨_, run, ⟨rfl, rfl, rfl, rfl⟩, ?_⟩
  simp [CacheState.labelsForCgroup, CacheState.registerCgroupDirectory, CacheState.insertPaths,
    CacheState.insertLabels]

/-- A pod's uid. -/
def exampleUid : Text := "01234567-89ab-cdef-0123-456789abcdef".toList

/-- Its cgroup. -/
def examplePath : PathBuf := [.rootDir, .normal (.utf8 ("pod".toList ++ exampleUid))]

/-- The pod. -/
def exampleInfo : PodInfo := ⟨"default".toList, "web".toList, fun _ => none, fun _ => none⟩

theorem podUid_example : podUidFromPath examplePath = some exampleUid := by decide +kernel

/-- The registration first, the merge last: the labels are those of the pod. -/
theorem labels_settle_merged_last :
    ∃ x, Relation.ReflTransGen (RaceStep [.rootDir])
        (.start [.directory 7 examplePath] [(exampleUid, exampleInfo)]) x ∧
      x.Done ∧ x.cache.tracks 7 = true ∧ Attributed x.cache := by
  obtain ⟨x, run, done, settled, tracked⟩ :=
    registered_then_merged [.rootDir] 7 examplePath exampleUid exampleInfo
  exact ⟨x, run, done, tracked, (labels_settle run run done done).1.mpr settled⟩

/-- **Registered too late.** The same registration and the same pod update, in the other order: the
container stays without its pod. -/
theorem registered_too_late :
    ∃ x y, Relation.ReflTransGen (RaceStep [.rootDir])
        (.start [.directory 7 examplePath] [(exampleUid, exampleInfo)]) x ∧
      Relation.ReflTransGen (RaceStep [.rootDir])
        (.start [.directory 7 examplePath] [(exampleUid, exampleInfo)]) y ∧
      x.Done ∧ y.Done ∧ x.cache.labelsForCgroup 7 ≠ y.cache.labelsForCgroup 7 ∧
      ¬ Attributed y.cache := by
  obtain ⟨x, runX, doneX, settled, -⟩ :=
    registered_then_merged [.rootDir] 7 examplePath exampleUid exampleInfo
  obtain ⟨y, runY, doneY, labels⟩ :=
    merged_then_registered [.rootDir] 7 examplePath exampleUid exampleInfo
  have hpath : pathsAfter (fun _ => none) [.directory 7 examplePath] 7 = some examplePath := by
    simp [pathsAfter, Registration.paths]
  have hknown : knownPod (podsAfter (fun _ => none) [(exampleUid, exampleInfo)]) examplePath ≠
      none := by
    rw [knownPod, podUid_example]
    simp [podsAfter]
  have hne : labelsFromCgroupPath (some examplePath) ≠
      mergedLabels (podsAfter (fun _ => none) [(exampleUid, exampleInfo)]) examplePath :=
    fun e => hknown ((mergedLabels_eq_iff _ _).mp e)
  have hx := (attributed_iff (labelsInv_run runX) doneX.watcher).mpr settled 7 examplePath
    (by rw [final_paths runX doneX]; exact hpath)
  rw [final_pods runX doneX] at hx
  refine ⟨x, y, runX, runY, doneX, doneY, fun e => ?_, fun hy => ?_⟩
  · exact hne (labels.symm.trans (e.symm.trans hx))
  · have hy := hy 7 examplePath (by rw [final_paths runY doneY]; exact hpath)
    rw [final_pods runY doneY] at hy
    exact hne (labels.symm.trans hy)

end Statix.Attribution
