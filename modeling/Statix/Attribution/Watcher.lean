import Mathlib.Data.List.Induction
import Statix.Attribution.Cache

/-!
# The pod watcher

Model of `watch_k8s_pods` and `refresh_k8s_pods` (`statix/src/attribution/mod.rs`): what each event
of the watch stream does to the cache, and in which order the events can come.

* A stream begins with `Init`, the initial list as `InitApply` events and `InitDone`; then `Apply`
  and `Delete` follow. A re-init inside a stream begins with `Init` again. A stream may end at any
  time, also inside the initial list. Then comes one list refresh, which may fail, and a new stream.
* Between two events the other tasks run their write sections on the cache.
* `Law` is what the cache owes the API server at an event: after `InitDone` the pods it knows are
  those of the list, and between the lists it follows `Apply` and `Delete`.

`InitDone` removes nothing. So the law holds only as long as no pod vanishes between two lists:

* `knows_run`: what is known after a history, read off its events.
* **`watch_law_iff`**: in every history, the law holds at every event exactly if every initial list
  repeats the pods shown and not deleted before, and every list refresh has only such pods.
* `deleted_unseen`: a pod deleted while the stream was down stays known.
-/

namespace Statix.Attribution

/-! ## Events -/

/-- An event of the watch stream, the end of the stream, the list refresh after it (`none`: it
failed), or a write section of another task. -/
inductive WatchEvent where
  | init
  | initApply (pod : Pod)
  | initDone
  | apply (pod : Pod)
  | delete (pod : Pod)
  | streamEnd
  | refresh (list : Option (List Pod))
  | register (root : PathBuf) (id : Nat) (relPath : PathBuf)
  | other (root : PathBuf) (op : InFlight)

/-- `if let Some((uid, info)) = pod_info_from(&pod) { cache.upsert_pod(uid, info) }`. -/
def CacheState.storePod (c : CacheState) (pod : Pod) : CacheState :=
  match podInfoFrom pod with
  | none => c
  | some (uid, info) => c.upsertPod uid info

/-- `merge_cgroup_labels_from_k8s`, its sections in one go. -/
def CacheState.merge (c : CacheState) : CacheState := c.mergeWrite c.snapshot

/-- What the event does to the cache. -/
def CacheState.onEvent (c : CacheState) : WatchEvent → CacheState
  | .init => c
  | .initApply pod => c.storePod pod
  | .initDone => c.merge
  | .apply pod =>
    match podInfoFrom pod with
    | none => c
    | some (uid, info) => (c.upsertPod uid info).merge
  | .delete pod =>
    match pod.uid with
    | none => c
    | some uid => c.removePodByUid uid
  | .streamEnd => c
  | .refresh none => c
  | .refresh (some list) => (list.foldl CacheState.storePod c).merge
  | .register root id relPath => c.registerCgroupDirectory root id relPath
  | .other root op => op.write root c

/-- Where the watcher is. -/
inductive WatchPhase where
  /-- A new stream, before its first event. -/
  | connected
  /-- Between `Init` and `InitDone`. -/
  | listing
  | watching
  /-- Before the list refresh. -/
  | ended
  deriving DecidableEq

/-- The watcher's cache, and the UIDs listed since the latest `Init`. -/
structure Watcher where
  cache : CacheState
  phase : WatchPhase
  listed : List Text

/-- Before the first stream. -/
def Watcher.start : Watcher := ⟨.empty, .connected, []⟩

/-- Whether the event can come now. -/
def WatchPhase.admits : WatchPhase → WatchEvent → Bool
  | _, .register .. => true
  | _, .other .. => true
  | .ended, .refresh _ => true
  | .ended, _ => false
  | _, .refresh _ => false
  | _, .init => true
  | _, .streamEnd => true
  | .listing, .initApply _ => true
  | .listing, .initDone => true
  | .watching, .apply _ => true
  | .watching, .delete _ => true
  | _, _ => false

/-- Where the watcher is after it. -/
def WatchPhase.after : WatchPhase → WatchEvent → WatchPhase
  | _, .init => .listing
  | _, .initDone => .watching
  | _, .streamEnd => .ended
  | _, .refresh _ => .connected
  | phase, _ => phase

/-- The UIDs listed so far. -/
def listedAfter (listed : List Text) : WatchEvent → List Text
  | .init => []
  | .initApply pod => listed ++ ((podInfoFrom pod).map Prod.fst).toList
  | _ => listed

/-- One event. -/
def Watcher.step (w : Watcher) (e : WatchEvent) : Watcher :=
  ⟨w.cache.onEvent e, w.phase.after e, listedAfter w.listed e⟩

def Watcher.run (w : Watcher) (es : List WatchEvent) : Watcher := es.foldl Watcher.step w

/-- `P` holds at every event of the history. -/
def Along (P : Watcher → WatchEvent → Prop) : Watcher → List WatchEvent → Prop
  | _, [] => True
  | w, e :: es => P w e ∧ Along P (w.step e) es

/-- The history can happen. -/
def Possible : Watcher → List WatchEvent → Prop := Along fun w e => w.phase.admits e = true

/-! ## The law -/

/-- Whether `pod_by_uid` has the UID. -/
def CacheState.knows (c : CacheState) (uid : Text) : Bool := (c.podByUid uid).isSome

/-- **What the cache owes the API server at an event.** During an initial list nothing is said. -/
def Law (w : Watcher) : WatchEvent → Prop
  | .initDone => ∀ uid, (w.cache.onEvent .initDone).knows uid = true ↔ uid ∈ w.listed
  | .initApply _ => True
  | .apply pod => ∀ uid, (w.cache.onEvent (.apply pod)).knows uid = true ↔
      w.cache.knows uid = true ∨ (podInfoFrom pod).map Prod.fst = some uid
  | .delete pod => ∀ uid, (w.cache.onEvent (.delete pod)).knows uid = true ↔
      w.cache.knows uid = true ∧ pod.uid ≠ some uid
  | e => ∀ uid, (w.cache.onEvent e).knows uid = w.cache.knows uid

/-! ## What the events tell -/

/-- The event brings the pod. -/
def WatchEvent.Shows (uid : Text) : WatchEvent → Prop
  | .initApply pod => (podInfoFrom pod).map Prod.fst = some uid
  | .apply pod => (podInfoFrom pod).map Prod.fst = some uid
  | .refresh (some list) => ∃ pod ∈ list, (podInfoFrom pod).map Prod.fst = some uid
  | _ => False

/-- The event is the pod's `Delete`. -/
def WatchEvent.Deletes (uid : Text) : WatchEvent → Prop
  | .delete pod => pod.uid = some uid
  | _ => False

/-- The event brings the pod as part of an initial list. -/
def WatchEvent.Lists (uid : Text) : WatchEvent → Prop
  | .initApply pod => (podInfoFrom pod).map Prod.fst = some uid
  | _ => False

/-- An event with `A` has come, and none with `B` after it. -/
def Since (A B : WatchEvent → Prop) (past : List WatchEvent) : Prop :=
  ∃ before e after, past = before ++ e :: after ∧ A e ∧ ∀ x ∈ after, ¬ B x

/-- The pod was shown, and no `Delete` of it has come since. -/
def Shown (past : List WatchEvent) (uid : Text) : Prop :=
  Since (WatchEvent.Shows uid) (WatchEvent.Deletes uid) past

/-- The pod was listed since the latest `Init`. -/
def Listed (past : List WatchEvent) (uid : Text) : Prop :=
  Since (WatchEvent.Lists uid) (fun e => e = .init) past

/-- No deletion was missed: the initial list has every pod shown and not deleted before, and a list
refresh has only such pods. -/
def NothingMissed (past : List WatchEvent) : WatchEvent → Prop
  | .initDone => ∀ uid, Shown past uid → Listed past uid
  | .refresh list => ∀ uid, (WatchEvent.refresh list).Shows uid → Shown past uid
  | _ => True

variable {c : CacheState} {w : Watcher}

@[simp] theorem merge_knows (c : CacheState) (uid : Text) : c.merge.knows uid = c.knows uid := rfl

@[simp] theorem upsertPod_knows (c : CacheState) (uid : Text) (info : PodInfo) (u : Text) :
    (c.upsertPod uid info).knows u = (u == uid || c.knows u) := by
  unfold CacheState.knows CacheState.upsertPod
  by_cases h : u = uid
  · subst h
    simp
  · simp [h]

@[simp] theorem removePodByUid_knows (c : CacheState) (uid u : Text) :
    (c.removePodByUid uid).knows u = (u != uid && c.knows u) := by
  unfold CacheState.knows CacheState.removePodByUid
  by_cases h : u = uid
  · subst h
    simp
  · simp [h]

/-- The other operations leave the pods alone. -/
theorem write_knows (root : PathBuf) (op : InFlight) (uid : Text) :
    (op.write root c).knows uid = c.knows uid := by
  cases op with
  | identity id relPath =>
    simp only [InFlight.write, CacheState.identityWrite]
    by_cases h : c.tracks id = true
    · rw [if_pos h]
    · rw [if_neg h]
      cases relPath <;> rfl
  | evict stale => rfl
  | merge snap => rfl

theorem storePod_knows (c : CacheState) (pod : Pod) (uid : Text) :
    (c.storePod pod).knows uid = true ↔
      c.knows uid = true ∨ (podInfoFrom pod).map Prod.fst = some uid := by
  unfold CacheState.storePod
  cases h : podInfoFrom pod with
  | none => simp
  | some p =>
    obtain ⟨u, info⟩ := p
    simp only [upsertPod_knows, Bool.or_eq_true, beq_iff_eq, Option.map_some, Option.some.injEq]
    rw [or_comm, eq_comm (a := u)]

theorem foldl_storePod_knows (list : List Pod) (uid : Text) : ∀ c : CacheState,
    (list.foldl CacheState.storePod c).knows uid = true ↔
      c.knows uid = true ∨ ∃ pod ∈ list, (podInfoFrom pod).map Prod.fst = some uid := by
  induction list with
  | nil => simp
  | cons pod list ih =>
    intro c
    rw [List.foldl_cons, ih, storePod_knows]
    simp [or_assoc]

/-- **What an event does to the known pods.** -/
theorem onEvent_knows (c : CacheState) (e : WatchEvent) (uid : Text) :
    (c.onEvent e).knows uid = true ↔ e.Shows uid ∨ c.knows uid = true ∧ ¬ e.Deletes uid := by
  cases e with
  | initApply pod =>
    refine (storePod_knows c pod uid).trans ?_
    simp only [WatchEvent.Shows, WatchEvent.Deletes, not_false_eq_true, and_true]
    exact or_comm
  | apply pod =>
    have hs := storePod_knows c pod uid
    unfold CacheState.storePod at hs
    simp only [WatchEvent.Shows, WatchEvent.Deletes, not_false_eq_true, and_true]
    rw [or_comm, ← hs]
    simp only [CacheState.onEvent]
    cases podInfoFrom pod <;> simp
  | delete pod =>
    simp only [WatchEvent.Shows, WatchEvent.Deletes, false_or, CacheState.onEvent]
    cases pod.uid with
    | none => simp
    | some u =>
      simp only [removePodByUid_knows, Bool.and_eq_true, bne_iff_ne, ne_eq, Option.some.injEq]
      rw [and_comm, eq_comm (a := u)]
  | refresh list =>
    cases list with
    | none => simp [WatchEvent.Shows, WatchEvent.Deletes, CacheState.onEvent]
    | some list =>
      refine (foldl_storePod_knows list uid c).trans ?_
      simp only [WatchEvent.Shows, WatchEvent.Deletes, not_false_eq_true, and_true]
      exact or_comm
  | other root op =>
    simp only [WatchEvent.Shows, WatchEvent.Deletes, not_false_eq_true, and_true, false_or]
    rw [CacheState.onEvent, write_knows]
  | init | initDone | streamEnd | register root id relPath =>
    simp only [WatchEvent.Shows, WatchEvent.Deletes, not_false_eq_true, and_true, false_or]
    exact Iff.rfl

/-! ## Histories -/

theorem since_snoc {A B : WatchEvent → Prop} {past : List WatchEvent} {e : WatchEvent} :
    Since A B (past ++ [e]) ↔ A e ∨ Since A B past ∧ ¬ B e := by
  constructor
  · rintro ⟨before, x, after, hs, hx, hafter⟩
    rcases List.eq_nil_or_concat' after with rfl | ⟨after, y, rfl⟩
    · obtain ⟨-, h⟩ := List.append_inj' hs rfl
      rw [(List.cons.inj h).1]
      exact Or.inl hx
    · rw [← List.cons_append, ← List.append_assoc] at hs
      obtain ⟨rfl, h⟩ := List.append_inj' hs rfl
      rw [(List.cons.inj h).1]
      exact Or.inr ⟨⟨before, x, after, rfl, hx, fun z hz => hafter z (List.mem_append_left _ hz)⟩,
        hafter y (List.mem_append_right _ List.mem_cons_self)⟩
  · rintro (he | ⟨⟨before, x, after, rfl, hx, hafter⟩, he⟩)
    · exact ⟨past, e, [], rfl, he, fun x hx => nomatch hx⟩
    · refine ⟨before, x, after ++ [e], by simp, hx, fun z hz => ?_⟩
      rcases List.mem_append.mp hz with hz | hz
      · exact hafter z hz
      · rw [List.mem_singleton.mp hz]
        exact he

theorem not_since_nil {A B : WatchEvent → Prop} : ¬ Since A B [] := by
  rintro ⟨before, e, after, hs, -⟩
  cases before <;> cases hs

theorem Watcher.run_snoc (w : Watcher) (past : List WatchEvent) (e : WatchEvent) :
    w.run (past ++ [e]) = (w.run past).step e := List.foldl_append

/-- **The known pods are those shown and not deleted since.** -/
theorem knows_run (past : List WatchEvent) (uid : Text) :
    (Watcher.start.run past).cache.knows uid = true ↔ Shown past uid := by
  induction past using List.reverseRecOn with
  | nil => exact iff_of_false (fun h => nomatch h) not_since_nil
  | append_singleton past e ih =>
    rw [Watcher.run_snoc, Shown, since_snoc, ← Shown, ← ih]
    exact onEvent_knows _ _ _

theorem mem_listedAfter (listed : List Text) (e : WatchEvent) (uid : Text) :
    uid ∈ listedAfter listed e ↔ e.Lists uid ∨ uid ∈ listed ∧ e ≠ .init := by
  cases e <;> simp [listedAfter, WatchEvent.Lists, or_comm]

theorem listed_run (past : List WatchEvent) (uid : Text) :
    uid ∈ (Watcher.start.run past).listed ↔ Listed past uid := by
  induction past using List.reverseRecOn with
  | nil => exact iff_of_false List.not_mem_nil not_since_nil
  | append_singleton past e ih =>
    rw [Watcher.run_snoc, Listed, since_snoc, ← Listed, ← ih]
    exact mem_listedAfter _ _ _

/-- A property along a history, at each of its events. -/
theorem along_iff {P : Watcher → WatchEvent → Prop} {es : List WatchEvent} :
    Along P w es ↔ ∀ past e later, es = past ++ e :: later → P (w.run past) e := by
  induction es generalizing w with
  | nil =>
    refine iff_of_true trivial fun past e later hs => ?_
    cases past <;> cases hs
  | cons x es ih =>
    constructor
    · rintro ⟨hx, hes⟩ past e later hs
      cases past with
      | nil =>
        cases hs
        exact hx
      | cons y past =>
        cases hs
        exact ih.mp hes past e later rfl
    · intro h
      refine ⟨h [] x es rfl, ih.mpr fun past e later hs => ?_⟩
      exact h (x :: past) e later (by rw [hs]; rfl)

/-- What was listed since `Init` is known until `InitDone`: nothing is removed in between. -/
def ListedInv (w : Watcher) : Prop :=
  w.phase = .listing → ∀ uid ∈ w.listed, w.cache.knows uid = true

theorem listedInv_step (h : ListedInv w) {e : WatchEvent} (he : w.phase.admits e = true) :
    ListedInv (w.step e) := by
  intro hp uid hu
  cases e with
  | init => simp [Watcher.step, listedAfter] at hu
  | initApply pod =>
    simp only [Watcher.step, listedAfter, List.mem_append] at hu
    refine (storePod_knows _ _ _).mpr ?_
    rcases hu with hu | hu
    · exact Or.inl (h hp uid hu)
    · exact Or.inr (by simpa using hu)
  | apply pod | delete pod =>
    have hl : w.phase = .listing := hp
    rw [hl] at he
    cases he
  | register root id relPath => exact h hp uid hu
  | other root op => exact (write_knows root op uid).trans (h hp uid hu)
  | initDone => cases hp
  | streamEnd => cases hp
  | refresh list => cases hp

theorem listedInv_run {past later : List WatchEvent} (h : ListedInv w)
    (possible : Possible w (past ++ later)) : ListedInv (w.run past) := by
  induction past generalizing w with
  | nil => exact h
  | cons e past ih => exact ih (listedInv_step h possible.1) possible.2

/-- **At one event the law holds exactly if nothing was missed.** -/
theorem law_iff {past : List WatchEvent} {e : WatchEvent}
    (h : ListedInv (Watcher.start.run past))
    (he : (Watcher.start.run past).phase.admits e = true) :
    Law (Watcher.start.run past) e ↔ NothingMissed past e := by
  have hafter := fun uid => onEvent_knows (Watcher.start.run past).cache e uid
  cases e with
  | initDone =>
    have hl : (Watcher.start.run past).phase = .listing := by
      cases hp : (Watcher.start.run past).phase <;> rw [hp] at he <;> first | rfl | cases he
    have hsame : Law (Watcher.start.run past) .initDone ↔
        ∀ uid, Shown past uid ↔ Listed past uid :=
      forall_congr' fun uid => by
        rw [← knows_run, ← listed_run]
        rfl
    rw [hsame]
    refine ⟨fun law uid => (law uid).mp, fun all uid => ⟨all uid, fun hu => ?_⟩⟩
    rw [← listed_run] at hu
    rw [← knows_run]
    exact h hl uid hu
  | apply pod =>
    refine iff_of_true (fun uid => ?_) trivial
    rw [hafter uid]
    simp only [WatchEvent.Shows, WatchEvent.Deletes, not_false_eq_true, and_true]
    exact or_comm
  | delete pod =>
    refine iff_of_true (fun uid => ?_) trivial
    rw [hafter uid]
    simp only [WatchEvent.Shows, WatchEvent.Deletes, false_or, ne_eq]
  | refresh list =>
    -- a refresh only adds, and what it adds must be there already
    constructor
    · intro law uid hu
      rw [← knows_run, ← law uid]
      exact (hafter uid).mpr (Or.inl hu)
    · intro all uid
      rw [Bool.eq_iff_iff, hafter uid]
      refine ⟨?_, fun hu => Or.inr ⟨hu, id⟩⟩
      rintro (hu | ⟨hu, -⟩)
      · exact (knows_run past uid).mpr (all uid hu)
      · exact hu
  | initApply pod => exact iff_of_true trivial trivial
  | other root op => exact iff_of_true (fun uid => write_knows root op uid) trivial
  | init | streamEnd | register root id relPath => exact iff_of_true (fun _ => rfl) trivial

/-- **The pod cache tracks the API server** along a history exactly if every initial list repeats
the pods shown and not deleted before, and every list refresh has only such pods. -/
theorem watch_law_iff {es : List WatchEvent} (possible : Possible .start es) :
    Along Law .start es ↔ ∀ past e later, es = past ++ e :: later → NothingMissed past e := by
  rw [along_iff]
  refine forall_congr' fun past => forall_congr' fun e => forall_congr' fun later =>
    imp_congr_right fun hs => ?_
  have hinv : ListedInv (Watcher.start.run past) :=
    listedInv_run (fun hp => nomatch hp) (hs ▸ possible)
  exact law_iff hinv (along_iff.mp possible past e later hs)

/-- A pod with nothing but its UID. -/
def barePod (uid : Text) : Pod := ⟨some uid, none, none, none, none⟩

/-- The pod listed, then deleted by an event. -/
theorem watch_law_iff_deleted :
    Possible .start [.init, .initApply (barePod ['u']), .initDone, .delete (barePod ['u'])] ∧
      Along Law .start [.init, .initApply (barePod ['u']), .initDone, .delete (barePod ['u'])] := by
  have possible : Possible .start
      [.init, .initApply (barePod ['u']), .initDone, .delete (barePod ['u'])] :=
    ⟨rfl, rfl, rfl, rfl, trivial⟩
  refine ⟨possible, (watch_law_iff possible).mpr fun past e later hs => ?_⟩
  match past, hs with
  | [], hs | [_], hs | [_, _, _], hs =>
    cases hs
    exact trivial
  | [_, _], hs =>
    -- at `InitDone` the pod shown is the one listed
    cases hs
    rintro uid ⟨before, x, after, hpast, hx, -⟩
    match before, hpast with
    | [], hpast =>
      cases hpast
      cases hx
    | [_], hpast =>
      cases hpast
      exact ⟨[.init], _, [], rfl, hx, fun _ h => nomatch h⟩
    | _ :: _ :: before, hpast => cases before <;> cases hpast
  | _ :: _ :: _ :: _ :: past, hs => cases past <;> cases hs

/-- **A deletion that was not seen.** The pod is listed, the stream ends, and the next initial list
does not have it: it is still known after `InitDone`. -/
theorem deleted_unseen :
    Possible .start [.init, .initApply (barePod ['u']), .initDone, .streamEnd, .refresh none,
        .init, .initDone] ∧
      ¬ Along Law .start [.init, .initApply (barePod ['u']), .initDone, .streamEnd, .refresh none,
        .init, .initDone] := by
  refine ⟨⟨rfl, rfl, rfl, rfl, rfl, rfl, rfl, trivial⟩, fun h => ?_⟩
  obtain ⟨-, -, -, -, -, -, law, -⟩ := h
  exact List.not_mem_nil ((law ['u']).mp rfl)

end Statix.Attribution
