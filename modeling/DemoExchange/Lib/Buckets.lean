import DemoExchange.Lib.SortedMap
import Mathlib.Data.List.Sort

/-!
# A list split into buckets by key

`Buckets r key m l` says that `m` is the list `l` sorted into buckets: the
keys of `m` increase in `r`, each bucket is the sublist of `l` with its key
(so it keeps the order of `l`) and is not empty, and every key of `l` has a
bucket. The lemmas say how `m` follows `l` when `l` grows at the end, loses
elements or has elements rewritten, and what the first bucket is.
-/

namespace Buckets
set_option autoImplicit false
open SortedMap

variable {κ α : Type} [DecidableEq κ]

/-- `m` is `l` sorted into buckets. -/
structure Of (r : κ → κ → Prop) (key : α → κ) (m : List (κ × List α)) (l : List α) : Prop where
  sorted : Sorted r m
  bucket : ∀ x ∈ m, x.2 = l.filter (fun a => key a = x.1)
  nonempty : ∀ x ∈ m, x.2 ≠ []
  covers : ∀ a ∈ l, ∃ x ∈ m, x.1 = key a

variable {r : κ → κ → Prop} {key : α → κ} {m : List (κ × List α)} {l : List α} {k : κ} {b : List α}

theorem Of.nil (r : κ → κ → Prop) (key : α → κ) : Of r key [] [] :=
  ⟨List.Pairwise.nil, by simp, by simp, by simp⟩

/-- A bucket holds elements of the list, under their own key. -/
theorem Of.mem (h : Of r key m l) (hx : (k, b) ∈ m) {a : α} : a ∈ b ↔ a ∈ l ∧ key a = k := by
  have := h.bucket _ hx
  simp only at this
  rw [this]
  simp

theorem Of.keys (h : Of r key m l) : k ∈ m.map Prod.fst ↔ ∃ a ∈ l, key a = k := by
  constructor
  · intro hk
    obtain ⟨⟨k', b⟩, hx, rfl⟩ := List.mem_map.1 hk
    obtain ⟨a, ha⟩ := List.exists_mem_of_ne_nil _ (h.nonempty _ hx)
    exact ⟨a, (h.mem hx).1 ha⟩
  · rintro ⟨a, ha, rfl⟩
    obtain ⟨x, hx, same⟩ := h.covers a ha
    exact List.mem_map.2 ⟨x, hx, same⟩

theorem Of.eq_nil (h : Of r key [] l) : l = [] := by
  refine List.eq_nil_iff_forall_not_mem.2 fun a ha => ?_
  obtain ⟨x, hx, -⟩ := h.covers a ha
  cases hx

/-- Every element is in the bucket of its key. -/
theorem Of.lookup (h : Of r key m l) {a : α} (ha : a ∈ l) : (key a, l.filter fun c => key c = key a) ∈ m := by
  obtain ⟨⟨k, b⟩, hx, same⟩ := h.covers a ha
  have bucket := h.bucket _ hx
  simp only at same bucket
  subst same
  rwa [← bucket]

/-- Elements seen through a map that keeps their keys. -/
theorem Of.map {β : Type} {key' : β → κ} (h : Of r key m l) (f : α → β) (keep : ∀ a, key' (f a) = key a) :
    Of r key' (m.map (Prod.map id (List.map f))) (l.map f) where
  sorted := by
    rw [Sorted, List.pairwise_map]
    exact h.sorted
  bucket := by
    intro x hx
    obtain ⟨y, hy, rfl⟩ := List.mem_map.1 hx
    simp only [Prod.map, id, List.filter_map, h.bucket y hy]
    congr 1
    apply List.filter_congr
    intro a _
    simp [keep]
  nonempty := by
    intro x hx
    obtain ⟨y, hy, rfl⟩ := List.mem_map.1 hx
    simpa using h.nonempty y hy
  covers := by
    intro a ha
    obtain ⟨c, hc, rfl⟩ := List.mem_map.1 ha
    obtain ⟨y, hy, same⟩ := h.covers c hc
    exact ⟨_, List.mem_map_of_mem hy, by rw [keep]; exact same⟩

/-- A removal shrinks the buckets and drops those it empties. -/
theorem Of.filter (h : Of r key m l) (q : α → Bool) :
    Of r key ((m.map (Prod.map id (List.filter q))).filter fun x => x.2 ≠ []) (l.filter q) where
  sorted := by
    apply List.Pairwise.filter
    rw [List.pairwise_map]
    exact h.sorted
  bucket := by
    intro x hx
    obtain ⟨y, hy, rfl⟩ := List.mem_map.1 (List.mem_filter.1 hx).1
    simp only [Prod.map, id, h.bucket y hy, List.filter_filter, Bool.and_comm]
  nonempty := fun x hx => of_decide_eq_true (List.mem_filter.1 hx).2
  covers := by
    intro a ha
    obtain ⟨ha, kept⟩ := List.mem_filter.1 ha
    obtain ⟨⟨k, b⟩, hy, rfl⟩ := h.covers a ha
    have inside : a ∈ b.filter q := List.mem_filter.2 ⟨(h.mem hy).2 ⟨ha, rfl⟩, kept⟩
    refine ⟨_, List.mem_filter.2 ⟨List.mem_map_of_mem hy, ?_⟩, rfl⟩
    exact decide_eq_true (List.ne_nil_of_mem inside)

section Removal

variable {q : α → Bool} (only : ∀ a ∈ l, q a = false → key a = k)
include only

/-- A removal confined to the key `k` leaves every other bucket alone. -/
theorem filter_other {k' : κ} (ne : k' ≠ k) :
    (l.filter q).filter (fun a => key a = k') = l.filter (fun a => key a = k') := by
  rw [List.filter_filter]
  apply List.filter_congr
  intro a ha
  cases hq : q a with
  | true => simp
  | false => simp [only a ha hq, Ne.symm ne]

/-- A removal that leaves the bucket `b` of `k` nonempty shrinks that bucket. -/
theorem Of.shrink (h : Of r key m l) (hx : (k, b) ∈ m) (some : b.filter q ≠ []) :
    Of r key (put k (b.filter q) m) (l.filter q) where
  sorted := put_sorted h.sorted
  bucket := by
    intro x hx'
    rcases mem_put.1 hx' with ⟨hm, ne⟩ | ⟨rfl, -⟩
    · rw [filter_other only ne]
      exact h.bucket x hm
    · have bucket := h.bucket _ hx
      simp only at bucket
      simp only [bucket, List.filter_filter, Bool.and_comm]
  nonempty := by
    intro x hx'
    rcases mem_put.1 hx' with ⟨hm, -⟩ | ⟨rfl, -⟩
    · exact h.nonempty x hm
    · exact some
  covers := by
    intro a ha
    obtain ⟨y, hy, same⟩ := h.covers a (List.mem_of_mem_filter ha)
    by_cases here : y.1 = k
    · exact ⟨_, mem_put.2 (.inr ⟨rfl, b, hx⟩), by rw [← same, here]⟩
    · exact ⟨y, mem_put.2 (.inl ⟨hy, here⟩), same⟩

/-- A removal that empties the bucket `b` of `k` drops it. -/
theorem Of.empty (h : Of r key m l) (hx : (k, b) ∈ m) (none : b.filter q = []) :
    Of r key (drop k m) (l.filter q) where
  sorted := drop_sorted h.sorted
  bucket := by
    intro x hx'
    obtain ⟨hm, ne⟩ := List.mem_filter.1 hx'
    rw [filter_other only (of_decide_eq_true ne)]
    exact h.bucket x hm
  nonempty := fun x hx' => h.nonempty x (List.mem_filter.1 hx').1
  covers := by
    intro a ha
    obtain ⟨ha, kept⟩ := List.mem_filter.1 ha
    obtain ⟨y, hy, same⟩ := h.covers a ha
    have ne : y.1 ≠ k := by
      intro here
      have inside : a ∈ b.filter q :=
        List.mem_filter.2 ⟨(h.mem hx).2 ⟨ha, by rw [← same, here]⟩, kept⟩
      rw [none] at inside
      cases inside
    exact ⟨y, List.mem_filter.2 ⟨hy, by simpa using ne⟩, same⟩

end Removal

variable [IsStrictTotalOrder κ r]

/-- A list has one split into buckets. -/
theorem Of.unique {m' : List (κ × List α)} (h : Of r key m l) (h' : Of r key m' l) : m = m' := by
  have canonical : ∀ {n}, Of r key n l → n = (n.map Prod.fst).map fun k => (k, l.filter fun a => key a = k) := by
    intro n hn
    rw [List.map_map]
    conv_lhs => rw [← List.map_id n]
    exact List.map_congr_left fun x hx => Prod.ext rfl (hn.bucket x hx)
  have sortedKeys : ∀ {n : List (κ × List α)}, Sorted r n → (n.map Prod.fst).Pairwise r := by
    intro n hn
    rw [List.pairwise_map]
    exact hn
  have keys : m.map Prod.fst = m'.map Prod.fst :=
    List.Pairwise.eq_of_mem_iff (sortedKeys h.sorted) (sortedKeys h'.sorted)
      fun k => h.keys.trans h'.keys.symm
  rw [canonical h, canonical h', keys]

/-- An element added at the end joins the end of its bucket. -/
theorem Of.snoc [DecidableRel r] (h : Of r key m l) (a : α) :
    Of r key (upsert r (key a) [] (· ++ [a]) m) (l ++ [a]) where
  sorted := upsert_sorted h.sorted
  bucket := by
    intro x hx
    rcases (mem_upsert h.sorted).1 hx with ⟨hm, ne⟩ | ⟨same, b, value, inside | ⟨rfl, absent⟩⟩
    · rw [List.filter_append, ← h.bucket x hm]
      simp [Ne.symm ne]
    · have bucket := h.bucket _ inside
      simp only at bucket
      simp [same, value, bucket]
    · have none : l.filter (fun c => key c = key a) = [] := by
        refine List.filter_eq_nil_iff.2 fun c hc here => ?_
        obtain ⟨y, hy, keyed⟩ := h.covers c hc
        exact absent y hy (keyed.trans (of_decide_eq_true here))
      simp [same, value, none]
  nonempty := by
    intro x hx
    rcases (mem_upsert h.sorted).1 hx with ⟨hm, -⟩ | ⟨-, b, value, -⟩
    · exact h.nonempty x hm
    · simp [value]
  covers := by
    intro c hc
    by_cases same : key c = key a
    · by_cases present : ∃ b, (key a, b) ∈ m
      · obtain ⟨b, hb⟩ := present
        exact ⟨(key a, b ++ [a]), (mem_upsert h.sorted).2 (.inr ⟨rfl, b, rfl, .inl hb⟩), same.symm⟩
      · refine ⟨(key a, [] ++ [a]), (mem_upsert h.sorted).2 (.inr ⟨rfl, [], rfl, .inr ⟨rfl, ?_⟩⟩), same.symm⟩
        rintro ⟨k, b⟩ hy rfl
        exact present ⟨b, hy⟩
    · rcases List.mem_append.1 hc with hc | hc
      · obtain ⟨y, hy, keyed⟩ := h.covers c hc
        exact ⟨y, (mem_upsert h.sorted).2 (.inl ⟨hy, by rw [keyed]; exact same⟩), keyed⟩
      · exact absurd (by rw [List.mem_singleton.1 hc]) same

omit [IsStrictTotalOrder κ r] in
/-- The first bucket has the least key. -/
theorem Of.least (h : Of r key ((k, b) :: m) l) {a : α} (ha : a ∈ l) : key a = k ∨ r k (key a) := by
  obtain ⟨x, hx, same⟩ := h.covers a ha
  rcases List.mem_cons.1 hx with rfl | hx
  · exact .inl same.symm
  · exact .inr (same ▸ (List.pairwise_cons.1 h.sorted).1 x hx)

/-- Some of the first bucket has been taken off the front: `b` is what is left
of the bucket of `k`, and `m` is the rest, all of it behind `k`. -/
structure Front (r : κ → κ → Prop) (key : α → κ) (k : κ) (b : List α) (m : List (κ × List α)) (l : List α) :
    Prop where
  front : b = l.filter fun a => key a = k
  rest : Of r key m (l.filter fun a => key a ≠ k)
  behind : ∀ x ∈ m, r k x.1

theorem Of.open (h : Of r key ((k, b) :: m) l) : Front r key k b m l where
  front := h.bucket _ List.mem_cons_self
  rest := by
    have others := h.sorted.key_ne
    refine ⟨(List.pairwise_cons.1 h.sorted).2, ?_, fun x hx => h.nonempty x (List.mem_cons_of_mem _ hx), ?_⟩
    · intro x hx
      rw [h.bucket x (List.mem_cons_of_mem _ hx), List.filter_filter]
      apply List.filter_congr
      intro a _
      by_cases same : key a = x.1
      · simp [same, others x hx]
      · simp [same]
    · intro a ha
      obtain ⟨ha, ne⟩ := List.mem_filter.1 ha
      obtain ⟨x, hx, same⟩ := h.covers a ha
      rcases List.mem_cons.1 hx with rfl | hx
      · exact absurd same.symm (of_decide_eq_true ne)
      · exact ⟨x, hx, same⟩
  behind := (List.pairwise_cons.1 h.sorted).1

/-- A front bucket that is not used up is the first bucket. -/
theorem Front.close (h : Front r key k b m l) (some : b ≠ []) : Of r key ((k, b) :: m) l where
  sorted := List.pairwise_cons.2 ⟨h.behind, h.rest.sorted⟩
  bucket := by
    intro x hx
    rcases List.mem_cons.1 hx with rfl | hx
    · exact h.front
    · have ne : x.1 ≠ k := fun same => irrefl k (by have := h.behind x hx; rwa [same] at this)
      rw [h.rest.bucket x hx, List.filter_filter]
      apply List.filter_congr
      intro a _
      by_cases same : key a = x.1
      · simp [same, ne]
      · simp [same]
  nonempty := by
    intro x hx
    rcases List.mem_cons.1 hx with rfl | hx
    · exact some
    · exact h.rest.nonempty x hx
  covers := by
    intro a ha
    by_cases same : key a = k
    · exact ⟨_, List.mem_cons_self, same.symm⟩
    · obtain ⟨x, hx, keyed⟩ := h.rest.covers a (List.mem_filter.2 ⟨ha, by simpa using same⟩)
      exact ⟨x, List.mem_cons_of_mem _ hx, keyed⟩

omit [IsStrictTotalOrder κ r] in
/-- A front bucket that is used up leaves the buckets behind it. -/
theorem Front.used (h : Front r key k [] m l) : Of r key m l := by
  have all : l.filter (fun a => key a ≠ k) = l := by
    refine List.filter_eq_self.2 fun a ha => ?_
    have := List.filter_eq_nil_iff.1 h.front.symm a ha
    simpa using this
  have rest := h.rest
  rwa [all] at rest

omit [IsStrictTotalOrder κ r] in
/-- Elements of key `k` removed from the list leave the front bucket. -/
theorem Front.filter (h : Front r key k b m l) {q : α → Bool} (only : ∀ a ∈ l, q a = false → key a = k) :
    Front r key k (b.filter q) m (l.filter q) where
  front := by simp only [h.front, List.filter_filter, Bool.and_comm]
  rest := by
    have same : (l.filter q).filter (fun a => key a ≠ k) = l.filter (fun a => key a ≠ k) := by
      rw [List.filter_filter]
      apply List.filter_congr
      intro a ha
      cases hq : q a with
      | true => simp
      | false => simp [only a ha hq]
    rw [same]
    exact h.rest
  behind := h.behind

omit [IsStrictTotalOrder κ r] in
/-- Elements of key `k` rewritten under that key. -/
theorem Front.map (h : Front r key k b m l) {f : α → α} (keep : ∀ a, key (f a) = key a)
    (only : ∀ a ∈ l, key a ≠ k → f a = a) : Front r key k (b.map f) m (l.map f) where
  front := by
    rw [h.front, List.filter_map]
    congr 1
    apply List.filter_congr
    intro a _
    simp [keep]
  rest := by
    have same : (l.map f).filter (fun a => key a ≠ k) = l.filter (fun a => key a ≠ k) := by
      rw [List.filter_map]
      have kept : l.filter ((fun a => decide (key a ≠ k)) ∘ f) = l.filter fun a => key a ≠ k := by
        apply List.filter_congr
        intro a _
        simp [keep]
      rw [kept]
      conv_rhs => rw [← List.map_id (l.filter fun a => key a ≠ k)]
      refine List.map_congr_left fun a ha => ?_
      obtain ⟨ha, ne⟩ := List.mem_filter.1 ha
      exact only a ha (of_decide_eq_true ne)
    rw [same]
    exact h.rest
  behind := h.behind

/-! ## The buckets in a row -/

omit [IsStrictTotalOrder κ r] in
/-- A bucket keeps the order of the list. -/
theorem Of.sublist (h : Of r key m l) (hx : (k, b) ∈ m) : b.Sublist l := by
  rw [show b = l.filter (fun a => key a = k) from h.bucket _ hx]
  exact List.filter_sublist

omit [IsStrictTotalOrder κ r] in
/-- Read in a row, the buckets are the list sorted by key, elements of one key
in the order of the list. -/
theorem Of.pairwise (h : Of r key m l) {s : α → α → Prop} (ordered : l.Pairwise s) :
    (m.flatMap Prod.snd).Pairwise fun a c => r (key a) (key c) ∨ (key a = key c ∧ s a c) := by
  rw [List.pairwise_flatMap]
  constructor
  · intro x hx
    refine (ordered.sublist (h.sublist hx)).imp_of_mem fun ha hc before => .inr ⟨?_, before⟩
    rw [((h.mem hx).1 ha).2, ((h.mem hx).1 hc).2]
  · refine h.sorted.imp_of_mem fun hx hy before a ha c hc => .inl ?_
    rw [((h.mem hx).1 ha).2, ((h.mem hy).1 hc).2]
    exact before

/-- Read in a row, the buckets hold the elements of the list, each as often. -/
theorem Of.perm (h : Of r key m l) : (m.flatMap Prod.snd).Perm l := by
  induction m generalizing l with
  | nil => rw [h.eq_nil, List.flatMap_nil]
  | cons x m ih =>
    obtain ⟨k, b⟩ := x
    have front := h.open
    have rest := ih front.rest
    rw [List.flatMap_cons]
    have halves := List.filter_append_perm (fun a => decide (key a = k)) l
    rw [← front.front] at halves
    refine (rest.append_left b).trans ?_
    simpa using halves

end Buckets
