import DemoExchange.Lib.Run
import DemoExchange.MatchingEngine.Matching

/-!
# The engine

`matching_engine/engine.hpp` and `engine.cpp`. The two event callbacks append
to `Outbox.events`, one list for both so that their relative order is kept;
log lines are not modelled. `boost::pool` is a `Pool.Allocator`, any policy
that hands out a slot which is not in use; allocation succeeds. The callbacks
return and do not call back into the engine.
-/

namespace DemoExchange.MatchingEngine
set_option autoImplicit false
open OrderEntry Pool

/-- A call of `on_market_data` or `on_order_entry`. A trade keeps the orders
it was made from (`TradeCall`). -/
inductive Emission where
  | marketData (message : MarketData.Message)
  | trade (call : TradeCall)
  | orderEntry (event : Event)
  deriving DecidableEq, Repr

/-- What `on_market_data` was called with. -/
def Emission.message? : Emission → Option MarketData.Message
  | .marketData message => some message
  | .trade call => some (.trade call.event)
  | .orderEntry _ => none

/-- The id counters and the callbacks made while handling one request. -/
structure Outbox where
  nextExecId : ExecId := 1
  nextTradeId : MarketData.TradeId := 1
  events : List Emission := []

def Outbox.onMarketData (out : Outbox) (message : MarketData.Message) : Outbox :=
  { out with events := out.events ++ [.marketData message] }

def Outbox.onOrderEntry (out : Outbox) (event : Event) : Outbox :=
  { out with events := out.events ++ [.orderEntry event] }

/-- `on_trade`: number the trade and pass it on. -/
def Outbox.onTrade (out : Outbox) (call : TradeCall) : Outbox :=
  { out with
    nextTradeId := out.nextTradeId + 1
    events := out.events ++ [.trade { call with event := { call.event with tradeId := out.nextTradeId } }] }

/-- The report that `emit_execution_report` builds. -/
def executionReport (order : OrderState) (execId : ExecId) (execType : ExecType) (ordStatus : OrdStatus)
    (origClOrdId : Option OrigClOrdId) (lastQty : Option Quantity) (lastPx : Option Price) : ExecutionReport where
  clientId := order.clientId
  clOrdId := order.clOrdId
  origClOrdId := origClOrdId
  orderId := order.clOrdId
  execId := execId
  securityId := order.securityId
  symbol := order.symbol
  securityExchange := order.securityExchange
  side := order.side
  ordType := order.ordType
  timeInForce := order.timeInForce
  execType := execType
  ordStatus := ordStatus
  orderQty := order.orderQty
  cumQty := order.orderQty - order.leavesQty
  leavesQty := order.leavesQty
  lastQty := lastQty
  lastPx := lastPx
  avgPx := lastPx
  transactTime := 0
  rejectReason := none
  text := ""

def Outbox.emitExecutionReport (out : Outbox) (order : OrderState) (execType : ExecType) (ordStatus : OrdStatus)
    (origClOrdId : Option OrigClOrdId := none) (lastQty : Option Quantity := none) (lastPx : Option Price := none) :
    Outbox :=
  { out with nextExecId := out.nextExecId + 1 }.onOrderEntry
    (.executionReport (executionReport order out.nextExecId execType ordStatus origClOrdId lastQty lastPx))

/-- The reject that `emit_cancel_reject` builds. -/
def cancelReject (cancel : CancelOrder) (rejectReason : RejectReason) (text : String) : CancelReject where
  clientId := cancel.clientId
  clOrdId := cancel.clOrdId
  origClOrdId := cancel.origClOrdId
  rejectReason := rejectReason
  text := text
  transactTime := 0

def Outbox.emitCancelReject (out : Outbox) (cancel : CancelOrder) (rejectReason : RejectReason) (text : String) :
    Outbox :=
  out.onOrderEntry (.cancelReject (cancelReject cancel rejectReason text))

/-- The update that `emit_mbo_book_update` builds from a side's best level. -/
def mboBookUpdate (snapshot : Option LevelSnapshot) (affectedSide : Side) (securityId : SecurityId) :
    MarketData.MboBookUpdate where
  securityId := securityId
  updateAction := if snapshot.isSome then .change else .deleteOrder
  side := toMarketSide affectedSide
  restingOrderId := 0
  price := snapshot.map (·.price)
  quantity := snapshot.map (·.totalQuantity)
  previousQuantity := none
  transactTime := 0

def Outbox.emitMboBookUpdate (out : Outbox) (book : OrderBook) (affectedSide : Side) (securityId : SecurityId) :
    Outbox :=
  out.onMarketData (.mboBookUpdate (mboBookUpdate (book.bestLevel affectedSide) affectedSide securityId))

/-- The `execution_summary` of an aggressor that traded. -/
def executionSummary (request : NewOrderSingle) (lastPx : Price) (filledQty : Quantity) :
    MarketData.ExecutionSummary where
  securityId := request.securityId
  aggressorSide := toMarketSide request.side
  lastPx := lastPx
  fillQty := filledQty
  tradedHiddenQty := none
  cancelQty := none
  aggressorTime := 0
  transactTime := 0

/-- The members that the matching callbacks reach: the calls made to
`node_pool_`, latest first, the identity index, and the outbox. -/
structure Core where
  nodePool : List Op
  restingIndex : OrderKey → Option Addr
  out : Outbox

structure Engine where
  heap : Heap
  books : List (Symbol × OrderBook)
  core : Core

structure EngineConfig where
  validSymbols : List Symbol
  expectedRestingOrders : Nat
  nodePoolChunkSize : Nat
  deriving DecidableEq, Repr

/-- `error_code` with the payloads of `errors.hpp`. -/
inductive EngineError where
  | duplicateOrder (clientId : ClientId) (clOrdId : ClOrdId)
  | unknownSymbol (symbol : Symbol)
  deriving DecidableEq, Repr

def Core.eraseIndex (core : Core) (key : OrderKey) : Core :=
  { core with restingIndex := Function.update core.restingIndex key none }

/-- `resting_index_.emplace`: an entry that is there stays. -/
def Core.emplaceIndex (core : Core) (key : OrderKey) (node : Addr) : Core :=
  match core.restingIndex key with
  | some _ => core
  | none => { core with restingIndex := Function.update core.restingIndex key (some node) }

/-- `release_node`: the node must be in its slot and unlinked. -/
def releaseNode (node : Addr) (heap : Heap) (core : Core) : Except Fault (Heap × Core) := do
  let n ← deref heap node
  if n.linked then .error .linked
  else .ok (Function.update heap node none, { core with nodePool := .free node :: core.nodePool })

/-- `on_release`: drop the index entry of a filled maker, free its slot. -/
def onRelease (consumed : Addr) (heap : Heap) (core : Core) : Except Fault (Heap × Core) := do
  let n ← deref heap consumed
  releaseNode consumed heap (core.eraseIndex n.data.key)

/-- The callbacks that `match_orders` passes to `match`. -/
def engineCallbacks : Callbacks Core where
  onTrade call core := { core with out := core.out.onTrade call }
  onRelease := onRelease

namespace Engine

/-- One warm-up round trip; the chunk size is restored after it. -/
def reserveNodePool (alloc : Allocator) (expectedRestingOrders chunkSize : Nat) (ops : List Op) : List Op :=
  if expectedRestingOrders = 0 then ops
  else
    let ops := .setNextSize expectedRestingOrders :: ops
    let memory := alloc.malloc ops
    .setNextSize chunkSize :: .free memory :: .malloc memory :: ops

/-- `books_.try_emplace`: a symbol listed twice opens one book. -/
def openBook (books : List (Symbol × OrderBook)) (symbol : Symbol) : List (Symbol × OrderBook) :=
  if symbol ∈ books.map Prod.fst then books else books ++ [(symbol, ⟨[], []⟩)]

/-- The constructor. -/
def init (alloc : Allocator) (configuration : EngineConfig) : Engine where
  heap := fun _ => none
  books := configuration.validSymbols.foldl openBook []
  core :=
    { nodePool := reserveNodePool alloc configuration.expectedRestingOrders configuration.nodePoolChunkSize
        [.setNextSize configuration.nodePoolChunkSize]
      restingIndex := fun _ => none
      out := {} }

def updateOut (e : Engine) (f : Outbox → Outbox) : Engine := { e with core := { e.core with out := f e.core.out } }

/-- Write back a book handled by reference in the source. -/
def setBook (e : Engine) (symbol : Symbol) (book : OrderBook) : Engine :=
  { e with books := SortedMap.put symbol book e.books }

def allocateNode (alloc : Allocator) (e : Engine) (data : OrderState) : Addr × Engine :=
  let node := alloc.malloc e.core.nodePool
  (node,
    { e with
      heap := Function.update e.heap node (some ⟨false, data⟩)
      core := { e.core with nodePool := .malloc node :: e.core.nodePool } })

/-- `match_orders`: a buy eats the asks, a sell the bids. -/
def matchOrders (e : Engine) (book : OrderBook) (taker : OrderState) :
    Except Fault (ExecutionSummary × OrderBook × OrderState × Engine) := do
  let side := opposite taker.side
  let (summary, sideMap, taker, heap, core) ←
    matchSide engineCallbacks crosses (book.sideMap side) taker e.heap e.core
  return (summary, book.withSideMap side sideMap, taker, { e with heap := heap, core := core })

def checkDuplicate (e : Engine) (key : OrderKey) : Except EngineError Unit :=
  match e.core.restingIndex key with
  | some _ => .error (.duplicateOrder key.clientId key.clOrdId)
  | none => .ok ()

def findBook (e : Engine) (symbol : Symbol) : Except EngineError OrderBook :=
  match e.books.lookup symbol with
  | none => .error (.unknownSymbol symbol)
  | some book => .ok book

/-- Rest a residual: allocate its node, link it, index it. -/
def restResidual (alloc : Allocator) (e : Engine) (book : OrderBook) (key : OrderKey) (order : OrderState) :
    Except Fault (OrderBook × Engine) := do
  let (node, e) := allocateNode alloc e order
  let (book, heap) ← book.place e.heap node
  return (book, { e with heap := heap, core := e.core.emplaceIndex key node })

/-- The summary and the aggressor's report, when liquidity was removed. -/
def reportTrades (e : Engine) (request : NewOrderSingle) (order : OrderState) (summary : ExecutionSummary) : Engine :=
  let filledQty := request.orderQty - order.leavesQty
  match summary.lastTraded with
  | some lastTraded =>
    if summary.trades > 0 then
      let status := if order.leavesQty = 0 then OrdStatus.filled else .partiallyFilled
      e.updateOut fun out =>
        (out.onMarketData (.executionSummary (executionSummary request lastTraded filledQty))).emitExecutionReport
          order .trade status none (some filledQty) (some lastTraded)
    else e
  | none => e

/-- The book updates after a new order: the consumed side if liquidity was
removed, its own side if the residual landed at the new best. -/
def publishUpdates (e : Engine) (book : OrderBook) (request : NewOrderSingle) (removedLiquidity shouldPlaceOrder : Bool) :
    Engine :=
  let e := if removedLiquidity then
      e.updateOut (·.emitMboBookUpdate book (opposite request.side) request.securityId)
    else e
  if shouldPlaceOrder ∧ book.best request.side = some request.price then
    e.updateOut (·.emitMboBookUpdate book request.side request.securityId)
  else e

/-- `handle_new_order_single_impl` once the two up-front checks have passed. -/
def acceptNewOrderSingle (alloc : Allocator) (e : Engine) (book : OrderBook) (request : NewOrderSingle) :
    Except Fault Engine := do
  let incomingKey : OrderKey := ⟨request.clientId, request.clOrdId⟩
  let order := makeOrderState request
  let e := e.updateOut (·.emitExecutionReport order .newOrder .newOrder)
  let (summary, book, order, e) ← e.matchOrders book order
  let removedLiquidity : Bool := summary.trades > 0
  let isMarket : Bool := order.price = 0
  let shouldPlaceOrder : Bool := order.leavesQty > 0 ∧ ¬ isMarket
  let e := e.reportTrades request order summary
  let (book, e) ← if shouldPlaceOrder then e.restResidual alloc book incomingKey order else pure (book, e)
  let e := e.setBook request.symbol book
  return e.publishUpdates book request removedLiquidity shouldPlaceOrder

/-- `handle_new_order_single_impl`: the `lab::result` and the engine after it. -/
def handleNewOrderSingleImpl (alloc : Allocator) (e : Engine) (request : NewOrderSingle) :
    Except Fault (Except EngineError Unit × Engine) :=
  match e.checkDuplicate ⟨request.clientId, request.clOrdId⟩ with
  | .error error => .ok (.error error, e)
  | .ok () =>
    match e.findBook request.symbol with
    | .error error => .ok (.error error, e)
    | .ok book => do
      let e ← e.acceptNewOrderSingle alloc book request
      return (.ok (), e)

/-- `handle(new_order_single)`: both errors end in a log line. -/
def handleNewOrderSingle (alloc : Allocator) (e : Engine) (request : NewOrderSingle) : Except Fault Engine := do
  match ← e.handleNewOrderSingleImpl alloc request with
  | (.ok (), e) => return e
  | (.error (.duplicateOrder _ _), e) => return e
  | (.error (.unknownSymbol _), e) => return e

/-- The part that cancel and replace share: resolve the book of a resting
node, note whether it rests at the best price, unlink it, drop its index entry
and free its slot. Returns the order as it was and the book without it. -/
def removeResting (e : Engine) (key : OrderKey) (node : Addr) : Except Fault (OrderState × OrderBook × Bool × Engine) := do
  let resting := (← deref e.heap node).data
  match e.books.lookup resting.symbol with
  | none => .error .assertion
  | some book =>
    let affectsMboBookUpdate : Bool := book.best resting.side = some resting.price
    let (book, heap) ← book.cancel e.heap node
    let (heap, core) ← releaseNode node heap (e.core.eraseIndex key)
    return (resting, book, affectsMboBookUpdate, { e with heap := heap, core := core }.setBook resting.symbol book)

def handleCancelOrder (e : Engine) (incoming : CancelOrder) : Except Fault Engine := do
  let key : OrderKey := ⟨incoming.clientId, incoming.origClOrdId⟩
  match e.core.restingIndex key with
  | none => return e.updateOut (·.emitCancelReject incoming .unknownOrder "unknown order")
  | some node =>
    let (resting, book, affectsMboBookUpdate, e) ← e.removeResting key node
    let e := e.updateOut (·.emitExecutionReport resting .canceled .canceled (some incoming.origClOrdId))
    return if affectsMboBookUpdate then e.updateOut (·.emitMboBookUpdate book resting.side resting.securityId) else e

/-- The `cancel_order` that a refused replace is answered as. -/
def replaceAsCancel (incoming : ReplaceOrder) : CancelOrder := ⟨incoming.clientId, incoming.clOrdId, incoming.origClOrdId⟩

/-- The `new_order_single` with the replacement terms. -/
def replacement (incoming : ReplaceOrder) : NewOrderSingle where
  clientId := incoming.clientId
  clOrdId := incoming.clOrdId
  securityId := incoming.securityId
  symbol := incoming.symbol
  securityExchange := incoming.securityExchange
  side := incoming.side
  ordType := incoming.ordType
  timeInForce := incoming.timeInForce
  orderQty := incoming.orderQty
  price := incoming.price

def handleReplaceOrder (alloc : Allocator) (e : Engine) (incoming : ReplaceOrder) : Except Fault Engine := do
  let oldKey : OrderKey := ⟨incoming.clientId, incoming.origClOrdId⟩
  match e.core.restingIndex oldKey with
  | none => return e.updateOut (·.emitCancelReject (replaceAsCancel incoming) .unknownOrder "unknown order")
  | some node =>
    let newKey : OrderKey := ⟨incoming.clientId, incoming.clOrdId⟩
    if (e.core.restingIndex newKey).isSome then
      return e.updateOut (·.emitCancelReject (replaceAsCancel incoming) .duplicateOrder "duplicate cl_ord_id")
    else
      let (resting, book, affectsMboBookUpdate, e) ← e.removeResting oldKey node
      let e := if affectsMboBookUpdate then
          e.updateOut (·.emitMboBookUpdate book resting.side resting.securityId)
        else e
      match ← e.handleNewOrderSingleImpl alloc (replacement incoming) with
      | (.ok (), e) => return e
      | (.error (.duplicateOrder _ _), e) =>
        return e.updateOut (·.emitCancelReject (replaceAsCancel incoming) .duplicateOrder "duplicate cl_ord_id")
      | (.error (.unknownSymbol _), e) =>
        return e.updateOut (·.emitCancelReject (replaceAsCancel incoming) .unknownSymbol "unknown symbol")

/-- `drain_side` on one level: each FIFO head leaves the index and the list
and its slot is freed. -/
def drainLevel : List Addr → Heap → Core → Except Fault (Heap × Core)
  | [], heap, core => .ok (heap, core)
  | node :: rest, heap, core => do
    let n ← deref heap node
    let core := core.eraseIndex n.data.key
    let heap ← unlink heap node
    let (heap, core) ← releaseNode node heap core
    drainLevel rest heap core

/-- `drain_side`: levels are dropped as they empty; the front of an empty
level does not exist. -/
def drainSide : SideMap → Heap → Core → Except Fault (Heap × Core)
  | [], heap, core => .ok (heap, core)
  | (_, level) :: rest, heap, core =>
    if level.orders = [] then .error .notLinked
    else do
      let (heap, core) ← drainLevel level.orders heap core
      drainSide rest heap core

/-- `handle(flush)` on the books it walks. -/
def drainBooks : List (Symbol × OrderBook) → Heap → Core → Except Fault (List (Symbol × OrderBook) × Heap × Core)
  | [], heap, core => .ok ([], heap, core)
  | (symbol, book) :: rest, heap, core => do
    let (heap, core) ← drainSide book.bids heap core
    let (heap, core) ← drainSide book.asks heap core
    let (rest, heap, core) ← drainBooks rest heap core
    return ((symbol, { bids := [], asks := [] }) :: rest, heap, core)

def handleFlush (e : Engine) : Except Fault Engine := do
  let (books, heap, core) ← drainBooks e.books e.heap e.core
  return { heap := heap, books := books, core := core }

/-- The `handle` overload of the request. -/
def handle (alloc : Allocator) (e : Engine) : Request → Except Fault Engine
  | .newOrderSingle request => e.handleNewOrderSingle alloc request
  | .replaceOrder request => e.handleReplaceOrder alloc request
  | .cancelOrder request => e.handleCancelOrder request
  | .flush => e.handleFlush

/-- `send`, and the callbacks made during it. -/
def send (alloc : Allocator) (e : Engine) (cmd : Request) : Except Fault (Engine × List Emission) := do
  let e ← (e.updateOut fun out => { out with events := [] }).handle alloc cmd
  return (e, e.core.out.events)

/-- A new engine after a sequence of requests, with what each of them emitted. -/
def run (alloc : Allocator) (configuration : EngineConfig) (requests : List Request) :
    Except Fault (Engine × List (Request × List Emission)) :=
  Run.run (send alloc) (init alloc configuration) requests

/-! ## What the engine's memory holds -/

/-- The order in a slot. -/
def orderAt (e : Engine) (node : Addr) : Option OrderState := (e.heap node).map (·.data)

/-- The order that the identity index has under a key. -/
def liveOrder (e : Engine) (key : OrderKey) : Option OrderState := (e.core.restingIndex key).bind e.orderAt

/-- One side of a book as a list of prices, with the orders at each, first to
last, and the total of the level. -/
def levels (e : Engine) (book : OrderBook) (side : Side) : List (Price × List (Option OrderState) × Quantity) :=
  (book.sideMap side).map fun level => (level.1, level.2.orders.map e.orderAt, level.2.totalRemaining)

/-- The nodes linked in the books. -/
def linkedNodes (e : Engine) : List Addr := e.books.flatMap fun entry => entry.2.nodes .buy ++ entry.2.nodes .sell

end Engine

end DemoExchange.MatchingEngine
