import DemoExchange.Lib.Buckets
import DemoExchange.Reference.Exchange

/-!
# Nodes and live orders

The link between the engine's memory and the reference exchange is one list of
`Item`s: the address of a node beside the live order it holds, in arrival
order. `Tracks` says that the pool, the slots and the identity index all hold
exactly those nodes; every change the engine makes to them is one of three
changes of the list: an item's order is rewritten under its key, an item
leaves, an item is added at the end.
-/

namespace DemoExchange.Refinement
set_option autoImplicit false
open OrderEntry MatchingEngine Reference Pool

/-- A node and the live order it holds. -/
abbrev Item := Addr × LiveOrder

/-- The pool, the slots and the index hold exactly the nodes of `items`. -/
structure Tracks (heap : Heap) (core : Core) (items : List Item) : Prop where
  proper : Proper core.nodePool
  pool : liveSlots core.nodePool = items.map Prod.fst
  slots : ∀ a n, heap a = some n ↔ ∃ i ∈ items, i.1 = a ∧ n = ⟨true, i.2.order⟩
  index : ∀ k a, core.restingIndex k = some a ↔ ∃ i ∈ items, i.1 = a ∧ i.2.order.key = k
  arrivals : items.Pairwise fun i j => i.2.arrival < j.2.arrival

section Tracked

variable {heap : Heap} {core : Core} {items : List Item}

theorem Tracks.nodup (h : Tracks heap core items) : (items.map Prod.fst).Nodup := by
  rw [← h.pool]
  exact h.proper.nodup

theorem Tracks.heap_eq (h : Tracks heap core items) {i : Item} (hi : i ∈ items) :
    heap i.1 = some ⟨true, i.2.order⟩ :=
  (h.slots _ _).2 ⟨i, hi, rfl, rfl⟩

theorem Tracks.index_eq (h : Tracks heap core items) {i : Item} (hi : i ∈ items) :
    core.restingIndex i.2.order.key = some i.1 :=
  (h.index _ _).2 ⟨i, hi, rfl, rfl⟩

/-- An item is known by its address. -/
theorem Tracks.addr_inj (h : Tracks heap core items) {i j : Item} (hi : i ∈ items) (hj : j ∈ items)
    (same : i.1 = j.1) : i = j :=
  List.inj_on_of_nodup_map h.nodup hi hj same

/-- An item is known by its key. -/
theorem Tracks.key_inj (h : Tracks heap core items) {i j : Item} (hi : i ∈ items) (hj : j ∈ items)
    (same : i.2.order.key = j.2.order.key) : i = j := by
  have found := h.index_eq hi
  rw [same, h.index_eq hj] at found
  exact h.addr_inj hi hj (Option.some.inj found).symm

/-- An item is known by its arrival number. -/
theorem Tracks.arrival_inj (h : Tracks heap core items) {i j : Item} (hi : i ∈ items) (hj : j ∈ items)
    (same : i.2.arrival = j.2.arrival) : i = j := by
  have distinct : (items.map fun i => i.2.arrival).Nodup := by
    rw [List.Nodup, List.pairwise_map]
    exact h.arrivals.imp Nat.ne_of_lt
  exact List.inj_on_of_nodup_map distinct hi hj same

theorem Tracks.deref_eq (h : Tracks heap core items) {i : Item} (hi : i ∈ items) :
    deref heap i.1 = .ok ⟨true, i.2.order⟩ := by
  simp only [deref, h.heap_eq hi]

/-- Events leave the nodes alone. -/
theorem Tracks.withOut (h : Tracks heap core items) (out : Outbox) : Tracks heap { core with out := out } items :=
  ⟨h.proper, h.pool, h.slots, h.index, h.arrivals⟩

/-- The index holds a key exactly when a live order has it. -/
theorem Tracks.index_none (h : Tracks heap core items) {key : OrderKey} :
    core.restingIndex key = none ↔ ∀ i ∈ items, i.2.order.key ≠ key := by
  constructor
  · rintro absent i hi rfl
    rw [h.index_eq hi] at absent
    cases absent
  · intro absent
    cases found : core.restingIndex key with
    | none => rfl
    | some a =>
      obtain ⟨i, hi, -, same⟩ := (h.index key a).1 found
      exact absurd same (absent i hi)

/-- The item with arrival number `arrival` gets the order that `f` makes of it. -/
def rewriteItem (arrival : Nat) (f : OrderState → OrderState) (i : Item) : Item :=
  if i.2.arrival = arrival then (i.1, { i.2 with order := f i.2.order }) else i

@[simp] theorem rewriteItem_addr (arrival : Nat) (f : OrderState → OrderState) (i : Item) :
    (rewriteItem arrival f i).1 = i.1 := by
  unfold rewriteItem
  split <;> rfl

@[simp] theorem rewriteItem_arrival (arrival : Nat) (f : OrderState → OrderState) (i : Item) :
    (rewriteItem arrival f i).2.arrival = i.2.arrival := by
  unfold rewriteItem
  split <;> rfl

theorem rewriteItem_live (arrival : Nat) (f : OrderState → OrderState) (items : List Item) :
    (items.map (rewriteItem arrival f)).map Prod.snd =
      (items.map Prod.snd).map fun o => if o.arrival = arrival then { o with order := f o.order } else o := by
  simp only [List.map_map]
  apply List.map_congr_left
  intro i _
  simp only [Function.comp, rewriteItem]
  split <;> rfl

/-- The rewritten item and the others, unchanged. -/
theorem Tracks.rewritten (h : Tracks heap core items) {i j : Item} (hi : i ∈ items) (hj : j ∈ items)
    (f : OrderState → OrderState) :
    rewriteItem i.2.arrival f j = if j = i then (i.1, { i.2 with order := f i.2.order }) else j := by
  unfold rewriteItem
  by_cases same : j = i
  · simp [same]
  · simp [same, show j.2.arrival ≠ i.2.arrival from fun e => same (h.arrival_inj hj hi e)]

/-- **An order rewritten in its slot**, under its key. -/
theorem Tracks.rewrite (h : Tracks heap core items) {i : Item} (hi : i ∈ items) {f : OrderState → OrderState}
    (keep : (f i.2.order).key = i.2.order.key) :
    Tracks (Function.update heap i.1 (some ⟨true, f i.2.order⟩)) core (items.map (rewriteItem i.2.arrival f)) where
  proper := h.proper
  pool := by
    rw [h.pool, List.map_map]
    exact List.map_congr_left fun j _ => (rewriteItem_addr _ _ j).symm
  slots := by
    intro a n
    constructor
    · intro found
      by_cases here : a = i.1
      · subst here
        rw [Function.update_self] at found
        refine ⟨_, List.mem_map_of_mem hi, rewriteItem_addr _ _ _, ?_⟩
        rw [h.rewritten hi hi]
        simpa using (Option.some.inj found).symm
      · rw [Function.update_of_ne here] at found
        obtain ⟨j, hj, rfl, rfl⟩ := (h.slots a n).1 found
        refine ⟨_, List.mem_map_of_mem hj, rewriteItem_addr _ _ _, ?_⟩
        rw [h.rewritten hi hj, if_neg fun same => here (by rw [same])]
    · rintro ⟨j', hj', rfl, rfl⟩
      obtain ⟨j, hj, rfl⟩ := List.mem_map.1 hj'
      rw [rewriteItem_addr, h.rewritten hi hj]
      by_cases same : j = i
      · simp [same]
      · have apart : j.1 ≠ i.1 := fun e => same (h.addr_inj hj hi e)
        simp [same, Function.update_of_ne apart, h.heap_eq hj]
  index := by
    intro k a
    rw [h.index]
    have key : ∀ j ∈ items, (rewriteItem i.2.arrival f j).2.order.key = j.2.order.key := by
      intro j hj
      rw [h.rewritten hi hj]
      by_cases same : j = i
      · simp [same, keep]
      · simp [same]
    constructor
    · rintro ⟨j, hj, rfl, rfl⟩
      exact ⟨_, List.mem_map_of_mem hj, rewriteItem_addr _ _ _, key j hj⟩
    · rintro ⟨j', hj', rfl, rfl⟩
      obtain ⟨j, hj, rfl⟩ := List.mem_map.1 hj'
      exact ⟨j, hj, (rewriteItem_addr _ _ _).symm, (key j hj).symm⟩
  arrivals := by
    rw [List.pairwise_map]
    simpa using h.arrivals

/-- The members after one slot has been given back. -/
def releasedCore (core : Core) (node : Addr) (key : OrderKey) : Core :=
  { core.eraseIndex key with nodePool := .free node :: core.nodePool }

/-- The items without one of them. -/
def without (arrival : Nat) (items : List Item) : List Item := items.filter fun j => j.2.arrival ≠ arrival

theorem without_live (arrival : Nat) (items : List Item) :
    (without arrival items).map Prod.snd = (items.map Prod.snd).filter fun o => o.arrival ≠ arrival := by
  rw [List.filter_map]
  rfl

theorem Tracks.mem_without (h : Tracks heap core items) {i j : Item} (hi : i ∈ items) :
    j ∈ without i.2.arrival items ↔ j ∈ items ∧ j ≠ i := by
  rw [without, List.mem_filter]
  constructor
  · rintro ⟨hj, ne⟩
    exact ⟨hj, fun same => by simp [same] at ne⟩
  · rintro ⟨hj, ne⟩
    exact ⟨hj, decide_eq_true fun same => ne (h.arrival_inj hj hi same)⟩

/-- **A node given back**: out of its slot, the index and the pool. -/
theorem Tracks.release (h : Tracks heap core items) {i : Item} (hi : i ∈ items) :
    Tracks (Function.update heap i.1 none) (releasedCore core i.1 i.2.order.key) (without i.2.arrival items) where
  proper := ⟨by rw [h.pool]; exact List.mem_map_of_mem hi, h.proper⟩
  pool := by
    simp only [releasedCore, liveSlots, h.pool]
    rw [List.Nodup.erase_eq_filter h.nodup, List.filter_map]
    congr 1
    apply List.filter_congr
    intro j hj
    by_cases same : j = i
    · simp [same]
    · have addr : j.1 ≠ i.1 := fun e => same (h.addr_inj hj hi e)
      have arrival : j.2.arrival ≠ i.2.arrival := fun e => same (h.arrival_inj hj hi e)
      simp [addr, arrival]
  slots := by
    intro a n
    by_cases here : a = i.1
    · subst here
      rw [Function.update_self]
      constructor
      · intro found
        cases found
      · rintro ⟨j, hj, same, -⟩
        obtain ⟨hj, ne⟩ := (h.mem_without hi).1 hj
        exact absurd (h.addr_inj hj hi same) ne
    · rw [Function.update_of_ne here, h.slots]
      constructor
      · rintro ⟨j, hj, rfl, rfl⟩
        exact ⟨j, (h.mem_without hi).2 ⟨hj, fun same => here (by rw [same])⟩, rfl, rfl⟩
      · rintro ⟨j, hj, rfl, rfl⟩
        exact ⟨j, ((h.mem_without hi).1 hj).1, rfl, rfl⟩
  index := by
    intro k a
    show Function.update core.restingIndex i.2.order.key none k = some a ↔ _
    by_cases here : k = i.2.order.key
    · subst here
      rw [Function.update_self]
      constructor
      · intro found
        cases found
      · rintro ⟨j, hj, -, same⟩
        obtain ⟨hj, ne⟩ := (h.mem_without hi).1 hj
        exact absurd (h.key_inj hj hi same) ne
    · rw [Function.update_of_ne here, h.index]
      constructor
      · rintro ⟨j, hj, rfl, rfl⟩
        exact ⟨j, (h.mem_without hi).2 ⟨hj, fun same => here (by rw [same])⟩, rfl, rfl⟩
      · rintro ⟨j, hj, rfl, rfl⟩
        exact ⟨j, ((h.mem_without hi).1 hj).1, rfl, rfl⟩
  arrivals := h.arrivals.filter _

/-- **A node handed out**, linked and indexed for an order that arrives last
under a new key. -/
theorem Tracks.add (h : Tracks heap core items) (alloc : Allocator) {o : LiveOrder}
    (last : ∀ i ∈ items, i.2.arrival < o.arrival) (unused : core.restingIndex o.order.key = none) :
    Tracks (Function.update heap (alloc.malloc core.nodePool) (some ⟨true, o.order⟩))
      ({ core with nodePool := .malloc (alloc.malloc core.nodePool) :: core.nodePool }.emplaceIndex o.order.key
        (alloc.malloc core.nodePool))
      (items ++ [(alloc.malloc core.nodePool, o)]) := by
  have fresh : ∀ j ∈ items, j.1 ≠ alloc.malloc core.nodePool := by
    intro j hj same
    refine alloc.fresh core.nodePool ?_
    rw [h.pool, ← same]
    exact List.mem_map_of_mem hj
  have newKey := h.index_none.1 unused
  simp only [Core.emplaceIndex, unused]
  generalize alloc.malloc core.nodePool = node at fresh ⊢
  refine ⟨⟨?_, h.proper⟩, ?_, ?_, ?_, ?_⟩
  · rw [h.pool]
    intro inside
    obtain ⟨j, hj, same⟩ := List.mem_map.1 inside
    exact fresh j hj same
  · simp only [liveSlots, h.pool, List.map_append, List.map_singleton]
  · intro a n
    by_cases here : a = node
    · subst here
      rw [Function.update_self]
      constructor
      · intro found
        exact ⟨_, List.mem_append_right _ (List.mem_singleton_self _), rfl, (Option.some.inj found).symm⟩
      · rintro ⟨j, hj, same, rfl⟩
        rcases List.mem_append.1 hj with hj | hj
        · exact absurd same (fresh j hj)
        · rw [List.mem_singleton.1 hj]
    · rw [Function.update_of_ne here, h.slots]
      constructor
      · rintro ⟨j, hj, rfl, rfl⟩
        exact ⟨j, List.mem_append_left _ hj, rfl, rfl⟩
      · rintro ⟨j, hj, rfl, rfl⟩
        rcases List.mem_append.1 hj with hj | hj
        · exact ⟨j, hj, rfl, rfl⟩
        · exact absurd (by rw [List.mem_singleton.1 hj]) here
  · intro k a
    show Function.update core.restingIndex o.order.key (some node) k = some a ↔ _
    by_cases here : k = o.order.key
    · subst here
      rw [Function.update_self]
      constructor
      · intro found
        exact ⟨_, List.mem_append_right _ (List.mem_singleton_self _), Option.some.inj found, rfl⟩
      · rintro ⟨j, hj, rfl, same⟩
        rcases List.mem_append.1 hj with hj | hj
        · exact absurd same (newKey j hj)
        · rw [List.mem_singleton.1 hj]
    · rw [Function.update_of_ne here, h.index]
      constructor
      · rintro ⟨j, hj, rfl, rfl⟩
        exact ⟨j, List.mem_append_left _ hj, rfl, rfl⟩
      · rintro ⟨j, hj, rfl, rfl⟩
        rcases List.mem_append.1 hj with hj | hj
        · exact ⟨j, hj, rfl, rfl⟩
        · exact absurd (by rw [List.mem_singleton.1 hj]) here
  · refine List.pairwise_append.2 ⟨h.arrivals, List.pairwise_singleton _ _, ?_⟩
    intro i hi j hj
    rw [List.mem_singleton.1 hj]
    exact last i hi

end Tracked

end DemoExchange.Refinement
