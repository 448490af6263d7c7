import DemoExchange.MatchingEngine.Totals
import DemoExchange.Reference.Room
import DemoExchange.Refinement.Requests

/-!
# When the arithmetic of the totals is exact

While what rests at each price can be counted, the total of a level is what
rests there, so no subtraction from it underflows; and the addition that places
a residual overflows just when the order does not fit.
-/

namespace DemoExchange.Refinement
set_option autoImplicit false
open OrderEntry MatchingEngine Reference Pool Engine

/-- What is left of some items. -/
def leavesCount (items : List Item) : Nat := (items.map fun i => i.2.order.leavesQty.toNat).sum

section Loops

variable {symbol : Symbol} {side : Side} {price : Price}

theorem leavesSum_exact {items : List Item} (within : leavesCount items < 2 ^ 64) :
    (leavesSum items).toNat = leavesCount items := by
  rw [leavesSum_toNat]
  exact Nat.mod_eq_of_lt within

/-- **The subtractions of the loop over one level**, by induction on its FIFO. -/
theorem consumeLevelOps_exact (bucket : List Item) : ∀ {total : Quantity} {taker : OrderState} {heap : Heap},
    (bucket.map Prod.fst).Nodup → (∀ i ∈ bucket, heap i.1 = some ⟨true, i.2.order⟩) → total.toNat = leavesCount bucket →
    ∀ op ∈ consumeLevelOps (bucket.map Prod.fst) total taker heap, op.Exact := by
  induction bucket with
  | nil =>
    intro total taker heap _ _ _ op member
    cases member
  | cons i bucket ih =>
    intro total taker heap distinct slots count op member
    rw [List.map_cons, List.nodup_cons] at distinct
    have whole : total.toNat = i.2.order.leavesQty.toNat + leavesCount bucket := count
    have within : (fillQty taker i).toNat ≤ i.2.order.leavesQty.toNat :=
      UInt64.le_iff_toNat_le.1 (min_le_right' _ _)
    have exact : fillQty taker i ≤ total := by
      rw [UInt64.le_iff_toNat_le]
      omega
    rw [List.map_cons, consumeLevelOps, slots i List.mem_cons_self] at member
    split at member
    · obtain rfl | member := List.mem_cons.1 member
      · apply exact
      · split at member
        · rename_i used
          refine ih distinct.2 (fun j hj => ?_) ?_ op member
          · have apart : j.1 ≠ i.1 := fun same => distinct.1 (same ▸ List.mem_map_of_mem hj)
            rw [Function.update_of_ne apart]
            exact slots j (List.mem_cons_of_mem _ hj)
          · rw [UInt64.toNat_sub_of_le _ _ exact]
            rw [leavesQty_used used] at whole
            omega
        · cases member
    · cases member

/-- **The subtractions of a match**, by induction on the levels it walks. -/
theorem matchOps_exact (g : List (Price × List Item)) : ∀ {heap : Heap} {core : Core} {items : List Item} {taker : OrderState},
    Tracks heap core items → Buckets.Of (before side) itemPrice g (sideItems items symbol side) →
    (taker.symbol = symbol ∧ side = otherSide taker.side) → (∀ x ∈ g, leavesCount x.2 < 2 ^ 64) →
    ∀ op ∈ matchOps (render g) taker heap core, op.Exact := by
  induction g with
  | nil =>
    intro heap core items taker _ _ _ _ op member
    cases member
  | cons x g ih =>
    obtain ⟨price, bucket⟩ := x
    intro heap core items taker tracks buckets terms within op member
    have sub : bucket.Sublist items := (buckets.sublist List.mem_cons_self).trans List.filter_sublist
    rw [render, List.map_cons, ← render] at member
    simp only [Prod.map, id, matchOps] at member
    split at member
    · rename_i go
      obtain member | member := List.mem_append.1 member
      · exact consumeLevelOps_exact bucket (tracks.nodup.sublist (sub.map _)) (fun i hi => tracks.heap_eq (sub.subset hi))
          (leavesSum_exact (within _ List.mem_cons_self)) op member
      · obtain ⟨fills, heap', core', items', taker', bucket', consumed, walked, front, -⟩ :=
          consumeLevel_spec bucket tracks buckets.open terms (crosses_iff.1 go.2)
        simp only [levelOf] at consumed member
        simp only [consumed, List.map_eq_nil_iff] at member
        split at member
        · rename_i used
          subst used
          exact ih walked.tracks front.used (walked.aims terms) (fun x hx => within x (List.mem_cons_of_mem _ hx)) op member
        · cases member
    · cases member

end Loops

section Requests

variable {e : Engine} {items : List Item} {x : Exchange} {symbol : Symbol} {book : OrderBook} {side : Side} {price : Price}
  {sent : NewOrderSingle} {i : Item}

/-- What rests at a price is what is left of the items there. -/
theorem Holds.levelTotal_eq (h : Holds e items x) (symbol : Symbol) (side : Side) (price : Price) :
    levelTotal x.live symbol side price = leavesCount ((sideItems items symbol side).filter fun i => itemPrice i = price) := by
  rw [Reference.levelTotal_eq, ← h.live, ← sideItems_live, List.filter_map, List.map_map]
  rfl

/-- The buckets of a side are no more than the bound. -/
theorem Holds.buckets_within (h : Holds e items x) (bounded : Bounded x.live) {g : List (Price × List Item)}
    (buckets : Buckets.Of (before side) itemPrice g (sideItems items symbol side)) :
    ∀ y ∈ g, leavesCount y.2 < 2 ^ 64 := by
  intro y hy
  rw [buckets.bucket y hy, ← h.levelTotal_eq]
  exact bounded _ _ _

theorem Holds.keys_nodup (h : Holds e items x) (hb : (symbol, book) ∈ e.books) (side : Side) :
    ((book.sideMap side).map Prod.fst).Nodup := by
  obtain ⟨g, buckets, same⟩ := h.renders symbol book hb side
  rw [same, render, List.map_map]
  exact buckets.sorted.nodup

/-- **The total of a level is what rests at its price**, 0 where there is no level. -/
theorem Holds.total_exact (h : Holds e items x) (bounded : Bounded x.live) (hb : (symbol, book) ∈ e.books) (side : Side)
    (price : Price) :
    ((((book.sideMap side).lookup price).map PriceLevel.totalRemaining).getD 0).toNat = levelTotal x.live symbol side price := by
  have whole := h.levelTotal_eq symbol side price
  obtain ⟨g, buckets, same⟩ := h.renders symbol book hb side
  cases found : (book.sideMap side).lookup price with
  | none =>
    have empty : (sideItems items symbol side).filter (fun i => itemPrice i = price) = [] := by
      refine List.filter_eq_nil_iff.2 fun i hi here => ?_
      obtain ⟨y, hy, keyed⟩ := buckets.covers i hi
      have there : ((book.sideMap side).lookup price).isSome = true := by
        rw [SortedMap.lookup_isSome, same, render, List.map_map]
        exact List.mem_map.2 ⟨y, hy, keyed.trans (of_decide_eq_true here)⟩
      rw [found] at there
      cases there
    rw [whole, empty]
    rfl
  | some level =>
    have inside := (SortedMap.lookup_eq_some (h.keys_nodup hb side)).1 found
    rw [same] at inside
    obtain ⟨⟨price', bucket⟩, hy, entry⟩ := List.mem_map.1 inside
    simp only [Prod.map, id, Prod.mk.injEq] at entry
    obtain ⟨rfl, rfl⟩ := entry
    have bucketed : bucket = (sideItems items symbol side).filter fun i => itemPrice i = price' := buckets.bucket _ hy
    rw [whole, ← bucketed]
    exact leavesSum_exact (h.buckets_within bounded buckets _ hy)

/-- **What a new order does to the totals is exact just when it fits.** -/
theorem acceptOps_exact_iff (h : Holds e items x) (orderly : Orderly x.live) (bounded : Bounded x.live)
    (hb : (sent.symbol, book) ∈ e.books) : (∀ op ∈ e.acceptOps book sent, op.Exact) ↔ Fits x.live sent := by
  have keys : sent.symbol ∈ e.books.map Prod.fst := List.mem_map.2 ⟨_, hb, rfl⟩
  have accepted := h.updateOut (emit · (report (orderFor sent) .newOrder .newOrder))
  have matched : ∀ op ∈ (e.updateOut (emit · (report (orderFor sent) .newOrder .newOrder))).matchOrdersOps book
      (orderFor sent), op.Exact := by
    obtain ⟨g, buckets, same⟩ := h.renders _ book hb (otherSide sent.side)
    unfold matchOrdersOps
    rw [show book.sideMap (opposite (orderFor sent).side) = render g from same]
    exact matchOps_exact g accepted.tracks buckets ⟨rfl, rfl⟩ (h.buckets_within bounded buckets)
  rw [← accepted.setBook_self hb] at accepted
  obtain ⟨book', e', items', ran, books, -, h'⟩ :=
    matchOrders_spec accepted keys (show (orderFor sent).symbol = sent.symbol from rfl)
  have stored : (sent.symbol, book') ∈ (e'.setBook sent.symbol book').books := Holds.mem_setBook (by rw [books]; exact keys)
  have swept : Bounded (sweep x.live (orderFor sent)).live :=
    fun _ _ _ => Nat.lt_of_le_of_lt (levelTotal_sweep orderly _) (bounded _ _ _)
  have level := h'.total_exact swept stored sent.side sent.price
  have fits := @residual_fits_iff x sent bounded orderly
  have terms := sweep_taker x.live (orderFor sent)
  rw [← fits]
  simp only [acceptOps, makeOrderState_eq, emitExecutionReport_eq, ran]
  rw [List.forall_mem_append, and_iff_right matched]
  generalize sweep x.live (orderFor sent) = s at *
  have price : s.taker.price = sent.price := terms.price
  have side : s.taker.side = sent.side := terms.side
  by_cases rests : Exchange.Rests s.taker
  · have placed : s.taker.leavesQty > 0 ∧ s.taker.price ≠ 0 := ⟨pos_iff_ne_zero.2 rests.1, rests.2⟩
    rw [if_pos placed, side, placeIntoOps, price, List.forall_mem_singleton, TotalOp.Exact, level, forall_prop_of_true rests]
  · have dropped : ¬(s.taker.leavesQty > 0 ∧ s.taker.price ≠ 0) := fun both => rests ⟨pos_iff_ne_zero.1 both.1, both.2⟩
    rw [if_neg dropped]
    simp [rests]

/-- A new order whose key is taken or whose symbol is unknown does nothing to the totals. -/
theorem newOrderSingleOps_exact_iff (h : Holds e items x) (orderly : Orderly x.live) (bounded : Bounded x.live)
    (sent : NewOrderSingle) : (∀ op ∈ e.newOrderSingleOps sent, op.Exact) ↔
      (x.find? ⟨sent.clientId, sent.clOrdId⟩ = none → sent.symbol ∈ x.configured → Fits x.live sent) := by
  unfold newOrderSingleOps
  obtain ⟨free, absent⟩ | ⟨i, -, -, found, live⟩ := h.find ⟨sent.clientId, sent.clOrdId⟩
  · simp only [checkDuplicate, free, absent, forall_const]
    by_cases known : sent.symbol ∈ x.configured
    · obtain ⟨book, hb⟩ := h.exists_book known
      simp only [findBook, h.lookup.2 hb, known, forall_const]
      exact acceptOps_exact_iff h orderly bounded hb
    · have missing := h.noBook.2 known
      simp [findBook, missing, known]
  · simp [checkDuplicate, found, live]

/-- **The subtraction for an order that is taken out.** -/
theorem removeRestingOps_exact (h : Holds e items x) (bounded : Bounded x.live) (hi : i ∈ items) :
    ∀ op ∈ e.removeRestingOps i.1, op.Exact := by
  intro op member
  unfold removeRestingOps at member
  rw [h.tracks.heap_eq hi] at member
  cases found : e.books.lookup i.2.order.symbol with
  | none =>
    simp only [found] at member
    cases member
  | some book =>
    simp only [found, cancelFromOps] at member
    have hb := h.lookup.1 found
    have whole := h.total_exact bounded hb i.2.order.side i.2.order.price
    have most := leaves_le_levelTotal (mem_sideOf.2 ⟨h.mem_live hi, rfl, rfl⟩)
    split at member
    · cases member
    · rename_i level there
      obtain rfl := List.mem_singleton.1 member
      rw [there] at whole
      apply UInt64.le_iff_toNat_le.2
      exact Nat.le_trans most (Nat.le_of_eq whole.symm)

/-- **What a request does to the totals is exact just when there is room for it.** -/
theorem totalOps_exact_iff (h : Holds e items x) (orderly : Orderly x.live) (bounded : Bounded x.live) (request : Request) :
    (∀ op ∈ e.totalOps request, op.Exact) ↔ Room x request := by
  cases request with
  | newOrderSingle sent => exact (newOrderSingleOps_exact_iff h orderly bounded sent).trans room_newOrder.symm
  | cancelOrder incoming =>
    refine iff_of_true ?_ (room_cancel incoming)
    simp only [totalOps, cancelOrderOps]
    obtain ⟨free, -⟩ | ⟨i, hi, -, found, -⟩ := h.find ⟨incoming.clientId, incoming.origClOrdId⟩
    · simp [free]
    · rw [found]
      exact removeRestingOps_exact h bounded hi
  | replaceOrder incoming =>
    rw [room_replace]
    simp only [totalOps, replaceOrderOps]
    obtain ⟨free, absent⟩ | ⟨i, hi, key, found, live⟩ := h.find ⟨incoming.clientId, incoming.origClOrdId⟩
    · simp [free, absent]
    obtain ⟨free', absent'⟩ | ⟨j, -, -, found', live'⟩ := h.find ⟨incoming.clientId, incoming.clOrdId⟩
    swap
    · simp [found, found', live']
    obtain ⟨book', e', items', removed, -, -, h'⟩ := removeResting_spec h hi
    rw [key] at removed
    have rest := newOrderSingleOps_exact_iff h' (orderly.filter _) (bounded.sublist List.filter_sublist)
      (replacementOf incoming)
    simp only [replacement_eq, found, free', live, absent', removed, Option.isSome_none, Bool.false_eq_true, if_false]
    rw [List.forall_mem_append, and_iff_right (removeRestingOps_exact h bounded hi), rest]
    have gone : (x.remove i.2.order.key).find? ⟨incoming.clientId, incoming.clOrdId⟩ = none := find_remove absent' _
    constructor
    · rintro fits o same - known
      obtain rfl := Option.some.inj same
      exact fits gone known
    · exact fun fits _ known => fits i.2 rfl trivial known
  | flush => exact iff_of_true (fun _ member => absurd member List.not_mem_nil) room_flush

end Requests

end DemoExchange.Refinement
