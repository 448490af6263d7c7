import DemoExchange.MatchingEngine.OrderBook

/-!
# The matching algorithm

`matching_engine/matching.hpp`. The template parameters `OnTrade` and
`OnRelease` are a `Callbacks σ` acting on an environment `σ`; a release may
also touch the slots, which is how the engine frees the node.
-/

namespace DemoExchange.MatchingEngine
set_option autoImplicit false
open OrderEntry

structure ExecutionSummary where
  trades : Nat := 0
  lastTraded : Option Price := none
  deriving DecidableEq, Repr

/-- A price of 0 is a market order and crosses unconditionally. -/
def crosses (taker : OrderState) (levelPrice : Price) : Bool :=
  if taker.price = 0 then true
  else
    match taker.side with
    | .buy => taker.price ≥ levelPrice
    | .sell => taker.price ≤ levelPrice

/-- The literal `"20260522"`. -/
def tradeDate : MarketData.TradeDate := ⟨[50, 48, 50, 54, 48, 53, 50, 50], by decide⟩

def makeTrade (taker maker : OrderState) (levelPrice : Price) (fillQty : Quantity) : MarketData.Trade :=
  let buyer := if taker.side = .buy then taker else maker
  let seller := if taker.side = .buy then maker else taker
  { securityId := taker.securityId
    tradeId := 0
    price := levelPrice
    quantity := fillQty
    buyer := some buyer.clOrdId
    seller := some seller.clOrdId
    tradeCondition := .regular
    tradeSubType := none
    tradeDate := tradeDate
    transactTime := 0 }

/-- A call of `on_trade`: the trade, and the two orders it was made from as
they were at the call. The wire trade names the orders only by `cl_ord_id`;
the orders themselves are kept for statements about a run and read by no code. -/
structure TradeCall where
  event : MarketData.Trade
  taker : OrderState
  maker : OrderState
  deriving DecidableEq, Repr

structure Callbacks (σ : Type) where
  onTrade : TradeCall → σ → σ
  onRelease : Addr → Heap → σ → Except Fault (Heap × σ)

/-- What `consume_level` leaves: the level, the taker, the number of trades,
the slots and the environment of the callbacks. -/
structure Consumed (σ : Type) where
  level : PriceLevel
  taker : OrderState
  trades : Nat
  heap : Heap
  env : σ

variable {σ : Type}

/-- `consume_level`, by recursion on the FIFO. -/
def consumeLevel (cb : Callbacks σ) (levelPrice : Price) :
    List Addr → Quantity → OrderState → Heap → σ → Except Fault (Consumed σ)
  | [], total, taker, heap, env => .ok ⟨⟨[], total⟩, taker, 0, heap, env⟩
  | node :: rest, total, taker, heap, env =>
    if taker.leavesQty > 0 then do
      let maker ← deref heap node
      let fillQty := min taker.leavesQty maker.data.leavesQty
      let env := cb.onTrade ⟨makeTrade taker maker.data levelPrice fillQty, taker, maker.data⟩ env
      let taker := { taker with leavesQty := taker.leavesQty - fillQty }
      let maker := { maker with data := { maker.data with leavesQty := maker.data.leavesQty - fillQty } }
      let heap := Function.update heap node (some maker)
      let total := total - fillQty
      if maker.data.leavesQty = 0 then
        let heap ← unlink heap node
        let (heap, env) ← cb.onRelease node heap env
        let out ← consumeLevel cb levelPrice rest total taker heap env
        return { out with trades := out.trades + 1 }
      else
        -- the fill was all the taker had left (`fill_exhausts`): the loop exits
        return ⟨⟨node :: rest, total⟩, taker, 1, heap, env⟩
    else .ok ⟨⟨node :: rest, total⟩, taker, 0, heap, env⟩

/-- A maker that a fill does not use up leaves the taker with nothing. -/
theorem fill_exhausts {taker maker : Quantity} (left : maker - min taker maker ≠ 0) :
    taker - min taker maker = 0 := by
  rw [Std.min_eq_if] at left ⊢
  split
  · exact UInt64.sub_self _
  · rename_i more
    simp only [more, if_false, UInt64.sub_self, ne_eq, not_true_eq_false] at left

/-- The loop of `match` stopped at an iterator: the entries it walked past and
those from it on. -/
structure Matched (σ : Type) where
  walked : SideMap
  remaining : SideMap
  taker : OrderState
  result : ExecutionSummary
  heap : Heap
  env : σ

/-- The walk of `match` from the best level outward. -/
def matchWalk (cb : Callbacks σ) (crosses : OrderState → Price → Bool) :
    SideMap → OrderState → ExecutionSummary → Heap → σ → Except Fault (Matched σ)
  | [], taker, result, heap, env => .ok ⟨[], [], taker, result, heap, env⟩
  | (price, level) :: rest, taker, result, heap, env =>
    if taker.leavesQty > 0 ∧ crosses taker price = true then do
      let out ← consumeLevel cb price level.orders level.totalRemaining taker heap env
      let result : ExecutionSummary :=
        if out.trades > 0 then ⟨result.trades + out.trades, some price⟩ else result
      if out.level.orders = [] then
        let next ← matchWalk cb crosses rest out.taker result out.heap out.env
        return { next with walked := (price, out.level) :: next.walked }
      else return ⟨[], (price, out.level) :: rest, out.taker, result, out.heap, out.env⟩
    else .ok ⟨[], (price, level) :: rest, taker, result, heap, env⟩

/-- `match`: the walk, then one range erase of the levels walked past. -/
def matchSide (cb : Callbacks σ) (crosses : OrderState → Price → Bool) (sideMap : SideMap) (taker : OrderState)
    (heap : Heap) (env : σ) : Except Fault (ExecutionSummary × SideMap × OrderState × Heap × σ) := do
  let out ← matchWalk cb crosses sideMap taker {} heap env
  let sideMap := if out.result.trades > 0 then out.remaining else out.walked ++ out.remaining
  return (out.result, sideMap, out.taker, out.heap, out.env)

end DemoExchange.MatchingEngine
