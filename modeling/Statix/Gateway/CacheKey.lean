import Statix.Gateway.Handlers
import Statix.Lib.Separator

/-!
# Cache keys of dashboard requests

`cache_key` (`statix-gateway/src/routes/dashboard/mod.rs`) writes the seven fields of a
`NormalizedQuery` one after another, the two free texts last: `…&n=<node>&q=<q>`. Neither is escaped.

* `cacheKey_toList`: the key as a list of characters, up to the free texts.
* `Collide`: the node filter of one question goes on with `&q=` where the node filter of the other
  one ends, and the rest of the two keys fits.
* **`cacheKey_eq_iff`**: two normalized questions have one key exactly if they are the same or
  collide.
-/

namespace Statix.Gateway

open Statix.Lib

/-- The text between the two filters. -/
def qSeparator : List Char := ['&', 'q', '=']

theorem unbordered_qSeparator : Unbordered qSeparator := by
  intro n hpos hlt
  have hlt : n < 3 := hlt
  obtain rfl | rfl : n = 1 ∨ n = 2 := by omega
  · decide
  · decide

namespace NormalizedQuery

/-- The node filter, empty without one. -/
def nodeText (q : NormalizedQuery) : List Char := (q.node.getD "").toList

/-- The text filter, empty without one. -/
def qText (q : NormalizedQuery) : List Char := (q.q.getD "").toList

/-- No filter is the empty text. -/
structure Normal (q : NormalizedQuery) : Prop where
  text : q.q ≠ some ""
  host : q.node ≠ some ""

/-- The two questions agree in everything but the filters. -/
structure SameView (q q' : NormalizedQuery) : Prop where
  rangeSecs : q.rangeSecs = q'.rangeSecs
  sort : q.sort = q'.sort
  order : q.order = q'.order
  unattributed : q.unattributed = q'.unattributed
  limit : q.limit = q'.limit

/-- **Two different questions with one key**: the node filter of one is the node filter of the other,
`&q=` and a text `x`, and the text filter of the other is `x`, `&q=` and the text filter of the
first. -/
structure Collide (q q' : NormalizedQuery) : Prop where
  view : SameView q q'
  filters : Absorbs qSeparator q.nodeText q.qText q'.nodeText q'.qText ∨
    Absorbs qSeparator q'.nodeText q'.qText q.nodeText q.qText

end NormalizedQuery

open NormalizedQuery

variable {q q' : NormalizedQuery}

/-! ## The fields of a key -/

theorem normal_new (ext : Externals) (p : StateParams) (maxLimit : Nat) :
    Normal (.new ext p maxLimit) where
  text := by
    intro h
    obtain ⟨s, hs, e⟩ := Option.map_eq_some_iff.mp h
    have hne : s.toList ≠ [] := by
      have := (Option.filter_eq_some_iff.mp hs).2
      simpa using this
    -- a text is cut after 64 characters, never to nothing
    split at e
    · have := congrArg String.toList e
      simp [hne] at this
    · rw [e] at hne
      exact hne rfl
  host := by
    intro h
    have := (Option.filter_eq_some_iff.mp h).2
    simp at this

/-- The key, with its first `&` in sight at each field. -/
theorem cacheKey_toList (q : NormalizedQuery) : q.cacheKey.toList =
    'r' :: '=' :: (Nat.toDigits 10 q.rangeSecs ++ '&' :: 's' :: '=' :: (q.sort.asStr.toList ++ '&' ::
      'o' :: '=' :: (q.order.asStr.toList ++ '&' :: 'u' :: '=' :: ((toString q.unattributed).toList ++
        '&' :: 'l' :: '=' :: (Nat.toDigits 10 q.limit ++ '&' :: 'n' :: '=' ::
          (q.nodeText ++ qSeparator ++ q.qText)))))) := by
  unfold cacheKey
  simp [nodeText, qText, qSeparator, Nat.toList_repr]

theorem amp_notMem_toDigits (n : Nat) : '&' ∉ Nat.toDigits 10 n := by
  intro h
  have := Nat.isDigit_of_mem_toDigits (by decide) (by decide) h
  exact absurd this (by decide)

theorem toDigits_inj {n m : Nat} (h : Nat.toDigits 10 n = Nat.toDigits 10 m) : n = m := by
  have := congrArg (fun digits => Nat.ofDigitChars 10 digits 0) h
  simpa using this

theorem amp_notMem_sort (s : SortBy) : '&' ∉ s.asStr.toList := by
  cases s <;> decide

theorem sort_inj {s s' : SortBy} (h : s.asStr.toList = s'.asStr.toList) : s = s' := by
  cases s <;> cases s' <;> first | rfl | exact absurd h (by decide)

theorem amp_notMem_order (o : OrderBy) : '&' ∉ o.asStr.toList := by
  cases o <;> decide

theorem order_inj {o o' : OrderBy} (h : o.asStr.toList = o'.asStr.toList) : o = o' := by
  cases o <;> cases o' <;> first | rfl | exact absurd h (by decide)

theorem amp_notMem_bool (b : Bool) : '&' ∉ (toString b).toList := by
  cases b <;> decide

theorem bool_inj {b b' : Bool} (h : (toString b).toList = (toString b').toList) : b = b' := by
  cases b <;> cases b' <;> first | rfl | exact absurd h (by decide)

/-- A filter is read back from its text. -/
theorem getD_inj {s s' : Option String} (hs : s ≠ some "") (hs' : s' ≠ some "")
    (h : (s.getD "").toList = (s'.getD "").toList) : s = s' := by
  have h : s.getD "" = s'.getD "" := String.toList_inj.mp h
  cases s with
  | none =>
    cases s' with
    | none => rfl
    | some t' => exact absurd (congrArg some h.symm) hs'
  | some t =>
    cases s' with
    | none => exact absurd (congrArg some h) hs
    | some t' => exact congrArg some h

/-! ## One key, two questions -/

/-- **When two keys are equal**: the same view, and the joined filters are the same text. -/
theorem cacheKey_eq_iff_joined (q q' : NormalizedQuery) : q.cacheKey = q'.cacheKey ↔
    SameView q q' ∧
      q.nodeText ++ qSeparator ++ q.qText = q'.nodeText ++ qSeparator ++ q'.qText := by
  rw [← String.toList_inj, cacheKey_toList, cacheKey_toList]
  constructor
  · intro h
    simp only [List.cons.injEq, true_and] at h
    obtain ⟨hrange, h⟩ := append_cons_inj (amp_notMem_toDigits _) (amp_notMem_toDigits _) h
    simp only [List.cons.injEq, true_and] at h
    obtain ⟨hsort, h⟩ := append_cons_inj (amp_notMem_sort _) (amp_notMem_sort _) h
    simp only [List.cons.injEq, true_and] at h
    obtain ⟨horder, h⟩ := append_cons_inj (amp_notMem_order _) (amp_notMem_order _) h
    simp only [List.cons.injEq, true_and] at h
    obtain ⟨hunattr, h⟩ := append_cons_inj (amp_notMem_bool _) (amp_notMem_bool _) h
    simp only [List.cons.injEq, true_and] at h
    obtain ⟨hlimit, h⟩ := append_cons_inj (amp_notMem_toDigits _) (amp_notMem_toDigits _) h
    simp only [List.cons.injEq, true_and] at h
    exact ⟨⟨toDigits_inj hrange, sort_inj hsort, order_inj horder, bool_inj hunattr,
      toDigits_inj hlimit⟩, h⟩
  · rintro ⟨hview, h⟩
    rw [hview.rangeSecs, hview.sort, hview.order, hview.unattributed, hview.limit, h]

/-- **Two normalized questions have one key exactly if they are the same or collide.** -/
theorem cacheKey_eq_iff (hq : Normal q) (hq' : Normal q') :
    q.cacheKey = q'.cacheKey ↔ q = q' ∨ Collide q q' := by
  rw [cacheKey_eq_iff_joined, append_sep_eq_iff unbordered_qSeparator]
  constructor
  · rintro ⟨hview, ⟨hnode, htext⟩ | habsorbs⟩
    · left
      have hn := getD_inj hq.host hq'.host hnode
      have ht := getD_inj hq.text hq'.text htext
      obtain ⟨h1, h2, h3, h4, h5⟩ := hview
      cases q
      cases q'
      simp_all
    · exact Or.inr ⟨hview, habsorbs⟩
  · rintro (rfl | h)
    · exact ⟨⟨rfl, rfl, rfl, rfl, rfl⟩, Or.inl ⟨rfl, rfl⟩⟩
    · exact ⟨h.view, Or.inr h.filters⟩

/-- The filters of colliding questions differ. -/
theorem Collide.ne (h : Collide q q') : q ≠ q' := by
  rintro rfl
  rcases h.filters with ⟨m, hm, -⟩ | ⟨m, hm, -⟩
  all_goals
    have := congrArg List.length hm
    simp only [List.length_append, qSeparator, List.length_cons] at this
    omega

end Statix.Gateway
