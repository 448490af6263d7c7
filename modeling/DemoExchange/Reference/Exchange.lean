import DemoExchange.MatchingEngine.Engine
import Mathlib.Data.List.MinMax
import Mathlib.Data.Prod.Lex
import Mathlib.Data.UInt

/-!
# The reference exchange

What the engine is for, stated without its data structures: one flat list of
live orders, each with its arrival number. A taker trades with the best-priced
live order on the other side of its symbol, the earliest arrival among those,
for as long as that price crosses. There is no book, no level, no index and no
pool, and the events leave the exchange with their ids still 0: `emit` numbers
them. Only the data types are the engine's. What crosses, what a trade, a report
or an update says and what a replacement asks for is written out here, and
the engine's own functions are proved equal to it.
-/

namespace DemoExchange.Reference
set_option autoImplicit false
open OrderEntry MatchingEngine

structure LiveOrder where
  arrival : Nat
  order : OrderState
  deriving DecidableEq, Repr

structure Exchange where
  configured : List Symbol
  live : List LiveOrder
  nextArrival : Nat

/-- The side that an aggressor trades with. -/
def otherSide : Side → Side
  | .buy => .sell
  | .sell => .buy

/-- A side as the market data has it. -/
def marketSide : Side → MarketData.Side
  | .buy => .buy
  | .sell => .sell

/-- A limit order trades at its own price or a better one, an order without a price at any. -/
def Crosses (taker : OrderState) (price : Price) : Prop :=
  taker.price = 0 ∨ (taker.side = .buy ∧ price ≤ taker.price) ∨ (taker.side = .sell ∧ taker.price ≤ price)

instance (taker : OrderState) (price : Price) : Decidable (Crosses taker price) := inferInstanceAs (Decidable (_ ∨ _))

theorem crosses_buy {taker : OrderState} {price : Price} (priced : taker.price ≠ 0) (side : taker.side = .buy) :
    Crosses taker price ↔ price ≤ taker.price := by
  simp [Crosses, priced, side]

theorem crosses_sell {taker : OrderState} {price : Price} (priced : taker.price ≠ 0) (side : taker.side = .sell) :
    Crosses taker price ↔ taker.price ≤ price := by
  simp [Crosses, priced, side]

/-- A new order, of which nothing has traded. -/
def orderFor (request : NewOrderSingle) : OrderState where
  clientId := request.clientId
  clOrdId := request.clOrdId
  securityId := request.securityId
  symbol := request.symbol
  securityExchange := request.securityExchange
  side := request.side
  ordType := request.ordType
  timeInForce := request.timeInForce
  price := request.price
  orderQty := request.orderQty
  leavesQty := request.orderQty

/-- The new order that a replace asks for. -/
def replacementOf (incoming : ReplaceOrder) : NewOrderSingle where
  clientId := incoming.clientId
  clOrdId := incoming.clOrdId
  securityId := incoming.securityId
  symbol := incoming.symbol
  securityExchange := incoming.securityExchange
  side := incoming.side
  ordType := incoming.ordType
  timeInForce := incoming.timeInForce
  orderQty := incoming.orderQty
  price := incoming.price

/-- Smaller is better: the lowest price for a sell, the highest for a buy. -/
def priceRank : Side → Price → Nat
  | .buy, price => UInt64.size - 1 - price.toNat
  | .sell, price => price.toNat

/-- Price first, then arrival. -/
def rank (o : LiveOrder) : Nat ×ₗ Nat := toLex (priceRank o.order.side o.order.price, o.arrival)

/-- Resting on one side of one symbol. -/
def OnSide (symbol : Symbol) (side : Side) (order : OrderState) : Prop :=
  order.symbol = symbol ∧ order.side = side

instance (symbol : Symbol) (side : Side) (order : OrderState) : Decidable (OnSide symbol side order) :=
  inferInstanceAs (Decidable (_ ∧ _))

/-- The live orders of one side of one symbol. -/
def sideOf (live : List LiveOrder) (symbol : Symbol) (side : Side) : List LiveOrder :=
  live.filter fun o => OnSide symbol side o.order

/-- The order of a side that trades first. -/
def bestOn (live : List LiveOrder) (symbol : Symbol) (side : Side) : Option LiveOrder :=
  (sideOf live symbol side).argmin rank

/-- The one of two orders that is on a side. -/
def partyOn (side : Side) (taker maker : OrderState) : OrderState := if taker.side = side then taker else maker

/-- The trade of two orders, its id still 0. -/
def tradeOf (taker maker : OrderState) (price : Price) (quantity : Quantity) : MarketData.Trade where
  securityId := taker.securityId
  tradeId := 0
  price := price
  quantity := quantity
  buyer := some (partyOn .buy taker maker).clOrdId
  seller := some (partyOn .sell taker maker).clOrdId
  tradeCondition := .regular
  tradeSubType := none
  tradeDate := ⟨Text.ascii "20260522", by decide⟩
  transactTime := 0

/-- A trade to be: the two orders as they stand before it. -/
structure Fill where
  taker : OrderState
  maker : OrderState
  deriving DecidableEq, Repr

def Fill.quantity (f : Fill) : Quantity := min f.taker.leavesQty f.maker.leavesQty

/-- The trade, at the maker's price. -/
def Fill.call (f : Fill) : TradeCall := ⟨tradeOf f.taker f.maker f.maker.price f.quantity, f.taker, f.maker⟩

/-- An order after `quantity` of it has traded. -/
def fillOrder (order : OrderState) (quantity : Quantity) : OrderState :=
  { order with leavesQty := order.leavesQty - quantity }

/-- A live order after `maker` traded `quantity`. -/
def filled (maker : LiveOrder) (quantity : Quantity) (o : LiveOrder) : LiveOrder :=
  if o.arrival = maker.arrival then { o with order := fillOrder o.order quantity } else o

/-- The live orders after `maker` traded `quantity`: it leaves when nothing of
it remains. -/
def settle (live : List LiveOrder) (maker : LiveOrder) (quantity : Quantity) : List LiveOrder :=
  if (fillOrder maker.order quantity).leavesQty = 0 then live.filter fun o => o.arrival ≠ maker.arrival
  else live.map (filled maker quantity)

/-- What an aggressor did: its trades in order, the live orders after them,
and itself with what it has left. -/
structure Sweep where
  fills : List Fill
  live : List LiveOrder
  taker : OrderState

theorem best_mem {live : List LiveOrder} {symbol : Symbol} {side : Side} {o : LiveOrder}
    (best : bestOn live symbol side = some o) : o ∈ live ∧ OnSide symbol side o.order := by
  have member := List.argmin_mem (Option.mem_def.2 best)
  simpa [sideOf] using member

theorem toNat_min (a b : UInt64) : (min a b).toNat = min a.toNat b.toNat := by
  rw [Std.min_eq_if, Nat.min_def]
  simp only [UInt64.le_iff_toNat_le]
  split <;> rfl

theorem toNat_sub_min_left (a b : UInt64) : (a - min a b).toNat = a.toNat - min a.toNat b.toNat := by
  have bound : min a b ≤ a := by
    rw [UInt64.le_iff_toNat_le, toNat_min]
    exact Nat.min_le_left _ _
  rw [UInt64.toNat_sub_of_le _ _ bound, toNat_min]

theorem toNat_sub_min_right (a b : UInt64) : (b - min a b).toNat = b.toNat - min a.toNat b.toNat := by
  have bound : min a b ≤ b := by
    rw [UInt64.le_iff_toNat_le, toNat_min]
    exact Nat.min_le_right _ _
  rw [UInt64.toNat_sub_of_le _ _ bound, toNat_min]

theorem settle_used {live : List LiveOrder} {maker : LiveOrder} {quantity : Quantity}
    (used : maker.order.leavesQty - quantity = 0) :
    settle live maker quantity = live.filter fun o => o.arrival ≠ maker.arrival :=
  if_pos used

theorem settle_left {live : List LiveOrder} {maker : LiveOrder} {quantity : Quantity}
    (left : maker.order.leavesQty - quantity ≠ 0) :
    settle live maker quantity = live.map (filled maker quantity) :=
  if_neg left

@[simp] theorem filled_arrival (maker : LiveOrder) (quantity : Quantity) (o : LiveOrder) :
    (filled maker quantity o).arrival = o.arrival := by
  unfold filled
  split <;> rfl

@[simp] theorem filled_key (maker : LiveOrder) (quantity : Quantity) (o : LiveOrder) :
    (filled maker quantity o).order.key = o.order.key := by
  unfold filled
  split <;> rfl

/-- A trade of the aggressor uses up its maker or the aggressor. -/
theorem settle_decreases {live : List LiveOrder} {maker : LiveOrder} {taker : OrderState} (member : maker ∈ live)
    (some : taker.leavesQty ≠ 0) :
    (settle live maker (min taker.leavesQty maker.order.leavesQty)).length +
        (fillOrder taker (min taker.leavesQty maker.order.leavesQty)).leavesQty.toNat <
      live.length + taker.leavesQty.toNat := by
  have less := toNat_sub_min_left taker.leavesQty maker.order.leavesQty
  by_cases used : maker.order.leavesQty - min taker.leavesQty maker.order.leavesQty = 0
  · have shorter : (live.filter fun o => o.arrival ≠ maker.arrival).length < live.length := by
      refine List.length_filter_lt_length_iff_exists.2 ⟨maker, member, ?_⟩
      simp
    rw [settle_used used]
    simp only [fillOrder]
    omega
  · have positive : taker.leavesQty.toNat ≠ 0 := fun zero => some (UInt64.toNat_inj.1 zero)
    rw [settle_left used, List.length_map]
    simp only [fillOrder, fill_exhausts used, UInt64.toNat_zero]
    omega

set_option linter.unusedVariables false in
/-- An aggressor trades while the best order opposite crosses. -/
def sweep (live : List LiveOrder) (taker : OrderState) : Sweep :=
  if empty : taker.leavesQty = 0 then ⟨[], live, taker⟩
  else
    match found : bestOn live taker.symbol (otherSide taker.side) with
    | none => ⟨[], live, taker⟩
    | some maker =>
      if Crosses taker maker.order.price then
        let fill : Fill := ⟨taker, maker.order⟩
        let next := sweep (settle live maker fill.quantity) (fillOrder taker fill.quantity)
        { next with fills := fill :: next.fills }
      else ⟨[], live, taker⟩
termination_by live.length + taker.leavesQty.toNat
decreasing_by exact settle_decreases (best_mem found).1 empty

/-- The best price of a side and the quantity resting at it. -/
def topOfBook (live : List LiveOrder) (symbol : Symbol) (side : Side) : Option LevelSnapshot :=
  (bestOn live symbol side).map fun best =>
    ⟨best.order.price,
      (((sideOf live symbol side).filter fun o => o.order.price = best.order.price).map (·.order.leavesQty)).sum⟩

def bestPriceOn (live : List LiveOrder) (symbol : Symbol) (side : Side) : Option Price :=
  (bestOn live symbol side).map (·.order.price)

/-- The published top of a side: its best price and quantity, or that there is none. -/
def updateOf (top : Option LevelSnapshot) (side : Side) (securityId : SecurityId) : MarketData.MboBookUpdate where
  securityId := securityId
  updateAction := if top.isSome then .change else .deleteOrder
  side := marketSide side
  restingOrderId := 0
  price := top.map (·.price)
  quantity := top.map (·.totalQuantity)
  previousQuantity := none
  transactTime := 0

def bookUpdate (live : List LiveOrder) (symbol : Symbol) (side : Side) (securityId : SecurityId) : Emission :=
  .marketData (.mboBookUpdate (updateOf (topOfBook live symbol side) side securityId))

/-- What is reported of an order, the id of the report still 0. -/
def reportOf (order : OrderState) (execType : ExecType) (ordStatus : OrdStatus)
    (origClOrdId : Option OrigClOrdId := none) (lastQty : Option Quantity := none) (lastPx : Option Price := none) :
    ExecutionReport where
  clientId := order.clientId
  clOrdId := order.clOrdId
  origClOrdId := origClOrdId
  orderId := order.clOrdId
  execId := 0
  securityId := order.securityId
  symbol := order.symbol
  securityExchange := order.securityExchange
  side := order.side
  ordType := order.ordType
  timeInForce := order.timeInForce
  execType := execType
  ordStatus := ordStatus
  orderQty := order.orderQty
  cumQty := order.orderQty - order.leavesQty
  leavesQty := order.leavesQty
  lastQty := lastQty
  lastPx := lastPx
  avgPx := lastPx
  transactTime := 0
  rejectReason := none
  text := ""

def report (order : OrderState) (execType : ExecType) (ordStatus : OrdStatus)
    (origClOrdId : Option OrigClOrdId := none) (lastQty : Option Quantity := none) (lastPx : Option Price := none) :
    Emission :=
  .orderEntry (.executionReport (reportOf order execType ordStatus origClOrdId lastQty lastPx))

/-- The reject of a request about an order, under the ids that it names. -/
def rejectOf (cancel : CancelOrder) (reason : RejectReason) (text : String) : CancelReject where
  clientId := cancel.clientId
  clOrdId := cancel.clOrdId
  origClOrdId := cancel.origClOrdId
  rejectReason := reason
  text := text
  transactTime := 0

def reject (cancel : CancelOrder) (reason : RejectReason) (text : String) : Emission :=
  .orderEntry (.cancelReject (rejectOf cancel reason text))

/-- The ids under which a replace is refused. -/
def cancelOf (incoming : ReplaceOrder) : CancelOrder := ⟨incoming.clientId, incoming.clOrdId, incoming.origClOrdId⟩

/-- The summary of what an aggressor took. -/
def summaryOf (request : NewOrderSingle) (lastPx : Price) (filledQty : Quantity) : MarketData.ExecutionSummary where
  securityId := request.securityId
  aggressorSide := marketSide request.side
  lastPx := lastPx
  fillQty := filledQty
  tradedHiddenQty := none
  cancelQty := none
  aggressorTime := 0
  transactTime := 0

/-- The summary and the aggressor's report, if it traded. -/
def tradeReports (request : NewOrderSingle) (taker : OrderState) (fills : List Fill) : List Emission :=
  match fills.getLast? with
  | none => []
  | some last =>
    let filledQty := request.orderQty - taker.leavesQty
    let status := if taker.leavesQty = 0 then OrdStatus.filled else .partiallyFilled
    [.marketData (.executionSummary (summaryOf request last.maker.price filledQty)),
      report taker .trade status none (some filledQty) (some last.maker.price)]

namespace Exchange

def find? (x : Exchange) (key : OrderKey) : Option LiveOrder := x.live.find? fun o => o.order.key = key

def remove (x : Exchange) (key : OrderKey) : Exchange :=
  { x with live := x.live.filter fun o => o.order.key ≠ key }

/-- The residual of an aggressor rests unless it is used up or has no price. -/
def Rests (order : OrderState) : Prop := order.leavesQty ≠ 0 ∧ order.price ≠ 0

instance (order : OrderState) : Decidable (Rests order) := inferInstanceAs (Decidable (_ ∧ _))

def rest (x : Exchange) (live : List LiveOrder) (order : OrderState) : Exchange :=
  if Rests order then { x with live := live ++ [⟨x.nextArrival, order⟩], nextArrival := x.nextArrival + 1 }
  else { x with live := live }

/-- A new order that is not refused. -/
def accept (x : Exchange) (request : NewOrderSingle) : Exchange × List Emission :=
  let order := orderFor request
  let s := sweep x.live order
  let x' := x.rest s.live s.taker
  (x',
    report order .newOrder .newOrder :: s.fills.map (fun f => .trade f.call) ++ tradeReports request s.taker s.fills ++
      (if s.fills = [] then []
        else [bookUpdate x'.live request.symbol (otherSide request.side) request.securityId]) ++
      if Rests s.taker ∧ bestPriceOn x'.live request.symbol request.side = some request.price then
        [bookUpdate x'.live request.symbol request.side request.securityId]
      else [])

/-- The update after `o` has left, if it stood at the best price. -/
def removalUpdate (x : Exchange) (o : LiveOrder) : List Emission :=
  if bestPriceOn x.live o.order.symbol o.order.side = some o.order.price then
    [bookUpdate (x.remove o.order.key).live o.order.symbol o.order.side o.order.securityId]
  else []

def newOrderSingle (x : Exchange) (request : NewOrderSingle) : Exchange × List Emission :=
  if (x.find? ⟨request.clientId, request.clOrdId⟩).isSome then (x, [])
  else if request.symbol ∈ x.configured then x.accept request
  else (x, [])

def cancelOrder (x : Exchange) (incoming : CancelOrder) : Exchange × List Emission :=
  match x.find? ⟨incoming.clientId, incoming.origClOrdId⟩ with
  | none => (x, [reject incoming .unknownOrder "unknown order"])
  | some o =>
    (x.remove o.order.key,
      report o.order .canceled .canceled (some incoming.origClOrdId) :: x.removalUpdate o)

/-- Refused when the original is not live or the new key is; otherwise the
original leaves and the replacement is a new order. -/
def replaceOrder (x : Exchange) (incoming : ReplaceOrder) : Exchange × List Emission :=
  match x.find? ⟨incoming.clientId, incoming.origClOrdId⟩ with
  | none => (x, [reject (cancelOf incoming) .unknownOrder "unknown order"])
  | some o =>
    if (x.find? ⟨incoming.clientId, incoming.clOrdId⟩).isSome then
      (x, [reject (cancelOf incoming) .duplicateOrder "duplicate cl_ord_id"])
    else if incoming.symbol ∈ x.configured then
      let (x', events) := (x.remove o.order.key).accept (replacementOf incoming)
      (x', x.removalUpdate o ++ events)
    else
      (x.remove o.order.key,
        x.removalUpdate o ++ [reject (cancelOf incoming) .unknownSymbol "unknown symbol"])

def step (x : Exchange) : Request → Exchange × List Emission
  | .newOrderSingle request => x.newOrderSingle request
  | .replaceOrder request => x.replaceOrder request
  | .cancelOrder request => x.cancelOrder request
  | .flush => ({ x with live := [] }, [])

/-- An exchange that has seen no request. -/
def init (configuration : EngineConfig) : Exchange where
  configured := configuration.validSymbols
  live := []
  nextArrival := 0

end Exchange

/-- Number an event and send it. -/
def emit (out : Outbox) : Emission → Outbox
  | .marketData message => { out with events := out.events ++ [.marketData message] }
  | .trade call =>
    { out with
      nextTradeId := out.nextTradeId + 1
      events := out.events ++ [.trade { call with event := { call.event with tradeId := out.nextTradeId } }] }
  | .orderEntry (.executionReport r) =>
    { out with
      nextExecId := out.nextExecId + 1
      events := out.events ++ [.orderEntry (.executionReport { r with execId := out.nextExecId })] }
  | .orderEntry (.cancelReject r) => { out with events := out.events ++ [.orderEntry (.cancelReject r)] }

def emitAll (out : Outbox) (events : List Emission) : Outbox := events.foldl emit out

/-- The exchange behind an outbox: one request and the numbered events of it. -/
def numberedStep (s : Exchange × Outbox) (request : Request) : (Exchange × Outbox) × List Emission :=
  let (x, events) := s.1.step request
  let out := emitAll { s.2 with events := [] } events
  ((x, out), out.events)

/-- A new exchange after a sequence of requests, with the events of each of them. -/
def run (configuration : EngineConfig) (requests : List Request) : Exchange × List (Request × List Emission) :=
  Run.drive Exchange.step (Exchange.init configuration) requests

/-- The same, behind an outbox that has numbered nothing. -/
def numberedRun (configuration : EngineConfig) (requests : List Request) :
    (Exchange × Outbox) × List (Request × List Emission) :=
  Run.drive numberedStep (Exchange.init configuration, ⟨1, 1, []⟩) requests

/-- An event before it was numbered. -/
def unnumbered : Emission → Emission
  | .trade call => .trade { call with event := { call.event with tradeId := 0 } }
  | .orderEntry (.executionReport r) => .orderEntry (.executionReport { r with execId := 0 })
  | event => event

section Engine

/-! ## The engine's functions -/

theorem opposite_eq (side : Side) : opposite side = otherSide side := rfl

theorem toMarketSide_eq (side : Side) : toMarketSide side = marketSide side := rfl

theorem crosses_iff {taker : OrderState} {price : Price} : crosses taker price = true ↔ Crosses taker price := by
  unfold crosses Crosses
  by_cases priced : taker.price = 0
  · simp [priced]
  · cases side : taker.side <;> simp [priced]

theorem makeOrderState_eq (request : NewOrderSingle) : makeOrderState request = orderFor request := rfl

theorem replacement_eq (incoming : ReplaceOrder) : Engine.replacement incoming = replacementOf incoming := rfl

theorem makeTrade_eq (taker maker : OrderState) (price : Price) (quantity : Quantity) :
    makeTrade taker maker price quantity = tradeOf taker maker price quantity := by
  unfold makeTrade tradeOf partyOn
  cases taker.side <;> rfl

theorem mboBookUpdate_eq (top : Option LevelSnapshot) (side : Side) (securityId : SecurityId) :
    mboBookUpdate top side securityId = updateOf top side securityId := by
  rw [mboBookUpdate, toMarketSide_eq, updateOf]

theorem executionReport_eq (order : OrderState) (execId : ExecId) (execType : ExecType) (ordStatus : OrdStatus)
    (origClOrdId : Option OrigClOrdId) (lastQty : Option Quantity) (lastPx : Option Price) :
    executionReport order execId execType ordStatus origClOrdId lastQty lastPx =
      { reportOf order execType ordStatus origClOrdId lastQty lastPx with execId } := rfl

theorem cancelReject_eq (cancel : CancelOrder) (reason : RejectReason) (text : String) :
    cancelReject cancel reason text = rejectOf cancel reason text := rfl

theorem replaceAsCancel_eq (incoming : ReplaceOrder) : Engine.replaceAsCancel incoming = cancelOf incoming := rfl

theorem executionSummary_eq (request : NewOrderSingle) (lastPx : Price) (filledQty : Quantity) :
    executionSummary request lastPx filledQty = summaryOf request lastPx filledQty := by
  rw [executionSummary, toMarketSide_eq, summaryOf]

theorem onTrade_eq (out : Outbox) (call : TradeCall) : out.onTrade call = emit out (.trade call) := rfl

theorem onMarketData_eq (out : Outbox) (message : MarketData.Message) :
    out.onMarketData message = emit out (.marketData message) := rfl

theorem emitExecutionReport_eq (out : Outbox) (order : OrderState) (execType : ExecType) (ordStatus : OrdStatus)
    (origClOrdId : Option OrigClOrdId) (lastQty : Option Quantity) (lastPx : Option Price) :
    out.emitExecutionReport order execType ordStatus origClOrdId lastQty lastPx =
      emit out (report order execType ordStatus origClOrdId lastQty lastPx) := by
  rw [Outbox.emitExecutionReport, executionReport_eq]
  rfl

theorem emitCancelReject_eq (out : Outbox) (cancel : CancelOrder) (reason : RejectReason) (text : String) :
    out.emitCancelReject cancel reason text = emit out (reject cancel reason text) := by
  rw [Outbox.emitCancelReject, cancelReject_eq]
  rfl

end Engine

end DemoExchange.Reference
