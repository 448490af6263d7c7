import DemoExchange.MatchingEngine.Engine

/-!
# The arithmetic of the totals

The `+=` and `-=` that handling a request makes on the `total_remaining` of
levels, in the order in which they are made: one for an order that is placed or
cancelled and one for each fill of `consume_level`. Erasing a level and `flush`
make none.
-/

namespace DemoExchange.MatchingEngine
set_option autoImplicit false
open OrderEntry

/-- An operation on a total: the total before it and the operand. -/
inductive TotalOp where
  | add (total quantity : Quantity)
  | sub (total quantity : Quantity)
  deriving DecidableEq, Repr

/-- The operation neither overflows nor underflows. -/
def TotalOp.Exact : TotalOp → Prop
  | .add total quantity => total.toNat + quantity.toNat < 2 ^ 64
  | .sub total quantity => quantity ≤ total

instance (op : TotalOp) : Decidable op.Exact :=
  match op with
  | .add _ _ => inferInstanceAs (Decidable (_ < _))
  | .sub _ _ => inferInstanceAs (Decidable (_ ≤ _))

/-- The total before it. -/
def TotalOp.total : TotalOp → Quantity
  | .add total _ | .sub total _ => total

/-- The total after it. -/
def TotalOp.result : TotalOp → Quantity
  | .add total quantity => total + quantity
  | .sub total quantity => total - quantity

/-- Operations on one total, each on what the one before it left. -/
def TotalOp.Chain : Quantity → List TotalOp → Quantity → Prop
  | start, [], stop => start = stop
  | start, op :: ops, stop => op.total = start ∧ Chain op.result ops stop

/-- The total that `place_into` adds to: a level created on first sight starts at 0. -/
def placeIntoOps (sideMap : SideMap) (order : OrderState) : List TotalOp :=
  [.add (((sideMap.lookup order.price).map PriceLevel.totalRemaining).getD 0) order.leavesQty]

def cancelFromOps (sideMap : SideMap) (order : OrderState) : List TotalOp :=
  match sideMap.lookup order.price with
  | none => []
  | some level => [.sub level.totalRemaining order.leavesQty]

/-- One subtraction for each fill of `consume_level`; a maker that is used up leaves its slot. -/
def consumeLevelOps : List Addr → Quantity → OrderState → Heap → List TotalOp
  | [], _, _, _ => []
  | node :: rest, total, taker, heap =>
    if taker.leavesQty > 0 then
      match heap node with
      | none => []
      | some maker =>
        let fillQty := min taker.leavesQty maker.data.leavesQty
        .sub total fillQty ::
          if maker.data.leavesQty - fillQty = 0 then
            consumeLevelOps rest (total - fillQty) { taker with leavesQty := taker.leavesQty - fillQty }
              (Function.update heap node none)
          else []
    else []

/-- The levels that `match` walks over. -/
def matchOps : SideMap → OrderState → Heap → Core → List TotalOp
  | [], _, _, _ => []
  | (price, level) :: rest, taker, heap, core =>
    if taker.leavesQty > 0 ∧ crosses taker price = true then
      consumeLevelOps level.orders level.totalRemaining taker heap ++
        match consumeLevel engineCallbacks price level.orders level.totalRemaining taker heap core with
        | .error _ => []
        | .ok out => if out.level.orders = [] then matchOps rest out.taker out.heap out.env else []
    else []

namespace Engine

variable (e : Engine)

def matchOrdersOps (book : OrderBook) (taker : OrderState) : List TotalOp :=
  matchOps (book.sideMap (opposite taker.side)) taker e.heap e.core

/-- `handle_new_order_single_impl` past its checks: the match, then the residual that is placed. -/
def acceptOps (book : OrderBook) (request : NewOrderSingle) : List TotalOp :=
  let order := makeOrderState request
  let e := e.updateOut (·.emitExecutionReport order .newOrder .newOrder)
  e.matchOrdersOps book order ++
    match e.matchOrders book order with
    | .error _ => []
    | .ok (_, book, order, _) =>
      if order.leavesQty > 0 ∧ order.price ≠ 0 then placeIntoOps (book.sideMap order.side) order else []

def newOrderSingleOps (request : NewOrderSingle) : List TotalOp :=
  match e.checkDuplicate ⟨request.clientId, request.clOrdId⟩ with
  | .error _ => []
  | .ok () =>
    match e.findBook request.symbol with
    | .error _ => []
    | .ok book => e.acceptOps book request

/-- What cancel and replace take off the level of a resting order. -/
def removeRestingOps (node : Addr) : List TotalOp :=
  match e.heap node with
  | none => []
  | some resting =>
    match e.books.lookup resting.data.symbol with
    | none => []
    | some book => cancelFromOps (book.sideMap resting.data.side) resting.data

def cancelOrderOps (incoming : CancelOrder) : List TotalOp :=
  match e.core.restingIndex ⟨incoming.clientId, incoming.origClOrdId⟩ with
  | none => []
  | some node => e.removeRestingOps node

def replaceOrderOps (incoming : ReplaceOrder) : List TotalOp :=
  let oldKey : OrderKey := ⟨incoming.clientId, incoming.origClOrdId⟩
  match e.core.restingIndex oldKey with
  | none => []
  | some node =>
    if (e.core.restingIndex ⟨incoming.clientId, incoming.clOrdId⟩).isSome then []
    else
      e.removeRestingOps node ++
        match e.removeResting oldKey node with
        | .error _ => []
        | .ok (_, _, _, e) => e.newOrderSingleOps (replacement incoming)

/-- The operations on totals that a request leads to. -/
def totalOps : Request → List TotalOp
  | .newOrderSingle request => e.newOrderSingleOps request
  | .replaceOrder request => e.replaceOrderOps request
  | .cancelOrder request => e.cancelOrderOps request
  | .flush => []

end Engine

section Chains

variable {price : Price}

/-- A node that has its slot freed was linked in it. -/
theorem unlink_release {heap heap' heap'' : Heap} {core core' : Core} {node : Addr} {n : OrderNode}
    (slot : heap node = some n) (unlinked : unlink heap node = .ok heap')
    (released : onRelease node heap' core = .ok (heap'', core')) : heap'' = Function.update heap node none := by
  simp only [unlink, deref, slot, bind, Except.bind] at unlinked
  split at unlinked
  · cases unlinked
    simp only [onRelease, releaseNode, deref, Function.update_self, Function.update_idem, bind, Except.bind,
      Bool.false_eq_true, if_false] at released
    cases released
    rfl
  · cases unlinked

/-- **The operations listed are those of the loop**: they lead from the total
of the level to the total it is left with. -/
theorem consumeLevelOps_chain (nodes : List Addr) : ∀ {total : Quantity} {taker : OrderState} {heap : Heap} {core : Core}
    {out : Consumed Core}, consumeLevel engineCallbacks price nodes total taker heap core = .ok out →
    TotalOp.Chain total (consumeLevelOps nodes total taker heap) out.level.totalRemaining := by
  induction nodes with
  | nil =>
    intro total taker heap core out ran
    cases ran
    rfl
  | cons node rest ih =>
    intro total taker heap core out ran
    rw [consumeLevel] at ran
    rw [consumeLevelOps]
    by_cases some : taker.leavesQty > 0
    · rw [if_pos some] at ran ⊢
      cases slot : heap node with
      | none => simp [deref, slot, bind, Except.bind] at ran
      | some maker =>
        simp only [deref, slot, bind, Except.bind] at ran
        refine ⟨rfl, ?_⟩
        split at ran
        · rename_i used
          rw [if_pos used]
          split at ran
          · cases ran
          rename_i heap' unlinked
          split at ran
          · cases ran
          rename_i released releasedOk
          split at ran
          · cases ran
          rename_i next ranNext
          cases ran
          have freed := unlink_release (Function.update_self _ _ _) unlinked releasedOk
          rw [Function.update_idem] at freed
          have chain := ih ranNext
          rw [freed] at chain
          exact chain
        · rename_i left
          rw [if_neg left]
          cases ran
          rfl
    · rw [if_neg some] at ran ⊢
      cases ran
      rfl

section OneOperation

variable {side : Side} {m m' : SideMap} {heap heap' : Heap} {node : Addr} {n : OrderNode} {op : TotalOp}

/-- `place_into` leaves the level at what its addition leads to. -/
theorem placeIntoOps_result (sorted : SortedMap.Sorted (before side) m) (slot : heap node = some n)
    (placed : placeInto side m heap node = .ok (m', heap')) (made : op ∈ placeIntoOps m n.data) :
    (m'.lookup n.data.price).map PriceLevel.totalRemaining = some op.result := by
  obtain rfl := List.mem_singleton.1 made
  cases linked : link heap node with
  | error fault => simp [placeInto, deref, slot, linked, bind, Except.bind] at placed
  | ok heap'' =>
    simp only [placeInto, deref, slot, linked, bind, Except.bind, pure, Except.pure, Except.ok.injEq, Prod.mk.injEq] at placed
    rw [← placed.1, SortedMap.lookup_upsert sorted, if_pos rfl, Option.map_some]
    cases m.lookup n.data.price <;> rfl

/-- `cancel_from` leaves the level, unless it is erased, at what its subtraction leads to. -/
theorem cancelFromOps_result {level : PriceLevel} (sorted : SortedMap.Sorted (before side) m) (slot : heap node = some n)
    (cancelled : cancelFrom m heap node = .ok (m', heap')) (stays : m'.lookup n.data.price = some level)
    (made : op ∈ cancelFromOps m n.data) : level.totalRemaining = op.result := by
  unfold cancelFromOps at made
  simp only [cancelFrom, deref, slot, bind, Except.bind] at cancelled
  cases found : m.lookup n.data.price with
  | none =>
    rw [found] at made
    cases made
  | some before =>
    rw [found] at made
    obtain rfl := List.mem_singleton.1 made
    simp only [found] at cancelled
    split at cancelled
    · cases cancelled
    split at cancelled
    · cases cancelled
    split at cancelled
    · cases cancelled
      have there := SortedMap.lookup_isSome.1 (Option.isSome_iff_exists.2 ⟨level, stays⟩)
      obtain ⟨entry, inside, same⟩ := List.mem_map.1 there
      exact absurd same (of_decide_eq_true (List.mem_filter.1 inside).2)
    · cases cancelled
      have inside := (SortedMap.lookup_eq_some (SortedMap.put_sorted sorted).nodup).1 stays
      obtain ⟨-, other⟩ | ⟨same, -⟩ := SortedMap.mem_put.1 inside
      · exact absurd rfl other
      · cases same
        rfl

end OneOperation

end Chains

end DemoExchange.MatchingEngine
