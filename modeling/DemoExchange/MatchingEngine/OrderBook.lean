import DemoExchange.Lib.Pool
import DemoExchange.Lib.SortedMap
import DemoExchange.MarketData.Messages
import DemoExchange.OrderEntry.Messages
import Mathlib.Logic.Function.Basic

/-!
# Order nodes and the per-symbol book

`matching_engine/{types,order_state,order_node,order_book}.hpp`. An
`order_node*` is the address of a pool slot, the intrusive FIFO of a level the
list of the addresses linked in it, and the memory of the slots a `Heap`. What
the C++ leaves undefined or asserts is a `Fault`.
-/

namespace DemoExchange.MatchingEngine
set_option autoImplicit false
open OrderEntry

/-- `types::order_key`: the identity of a resting order across symbols. -/
structure OrderKey where
  clientId : ClientId
  clOrdId : ClOrdId
  deriving DecidableEq, Repr

structure OrderState where
  clientId : ClientId
  clOrdId : ClOrdId
  securityId : SecurityId
  symbol : Symbol
  securityExchange : SecurityExchange
  side : Side
  ordType : OrdType
  timeInForce : TimeInForce
  price : Price
  orderQty : Quantity
  leavesQty : Quantity
  deriving DecidableEq, Repr

/-- The key that the engine builds from an order's fields wherever it names it. -/
def OrderState.key (order : OrderState) : OrderKey := ⟨order.clientId, order.clOrdId⟩

/-- `make_order_state` (`factories.hpp`). -/
def makeOrderState (incoming : NewOrderSingle) : OrderState where
  clientId := incoming.clientId
  clOrdId := incoming.clOrdId
  securityId := incoming.securityId
  symbol := incoming.symbol
  securityExchange := incoming.securityExchange
  side := incoming.side
  ordType := incoming.ordType
  timeInForce := incoming.timeInForce
  price := incoming.price
  orderQty := incoming.orderQty
  leavesQty := incoming.orderQty

/-- `to_market_side` (`conversions.hpp`). -/
def toMarketSide : Side → MarketData.Side
  | .buy => .buy
  | .sell => .sell

/-- An `order_node*`: a slot of the engine's pool. -/
abbrev Addr := Pool.Slot

/-- A node in its slot: the payload, and whether the hook is in some list. -/
structure OrderNode where
  linked : Bool
  data : OrderState
  deriving DecidableEq, Repr

/-- The constructed nodes; a slot that holds none is `none`. -/
abbrev Heap := Addr → Option OrderNode

/-- Where the C++ would abort or leave its defined behaviour. -/
inductive Fault where
  /-- a `LAB_ASSERT` that fails -/
  | assertion
  /-- a pointer used, or a slot freed, with no node in the slot -/
  | dangling
  /-- a linked node pushed to a list, or its slot freed -/
  | linked
  /-- a node unlinked that the list does not hold, or the front of an empty list -/
  | notLinked
  deriving DecidableEq, Repr

/-- `*node`. -/
def deref (heap : Heap) (node : Addr) : Except Fault OrderNode :=
  match heap node with
  | some n => .ok n
  | none => .error .dangling

/-- The hook's part of `push_back`. -/
def link (heap : Heap) (node : Addr) : Except Fault Heap := do
  let n ← deref heap node
  if n.linked then .error .linked
  else .ok (Function.update heap node (some { n with linked := true }))

/-- The hook's part of `erase` and `pop_front`. -/
def unlink (heap : Heap) (node : Addr) : Except Fault Heap := do
  let n ← deref heap node
  if n.linked then .ok (Function.update heap node (some { n with linked := false }))
  else .error .notLinked

structure PriceLevel where
  orders : List Addr
  totalRemaining : Quantity := 0
  deriving DecidableEq, Repr

structure LevelSnapshot where
  price : Price
  totalQuantity : Quantity
  deriving DecidableEq, Repr

/-- The comparator of a side map: `std::greater<>` for bids, `std::less<>` for asks. -/
def before : Side → Price → Price → Prop
  | .buy, p, q => q < p
  | .sell, p, q => p < q

instance (side : Side) : DecidableRel (before side) := fun p q =>
  match side with
  | .buy => inferInstanceAs (Decidable (q < p))
  | .sell => inferInstanceAs (Decidable (p < q))

instance (side : Side) : IsStrictTotalOrder Price (before side) where
  trichotomous p q := by cases side <;> simp only [before, UInt64.lt_iff_toNat_lt, ← UInt64.toNat_inj] <;> omega
  irrefl p := by cases side <;> simp [before]
  trans p q s := by cases side <;> simp only [before, UInt64.lt_iff_toNat_lt] <;> omega

/-- A `flat_map` of price levels; its comparator is that of the side it serves. -/
abbrev SideMap := List (Price × PriceLevel)

structure OrderBook where
  bids : SideMap := []
  asks : SideMap := []
  deriving DecidableEq, Repr

def OrderBook.sideMap (book : OrderBook) : Side → SideMap
  | .buy => book.bids
  | .sell => book.asks

def OrderBook.withSideMap (book : OrderBook) (side : Side) (sideMap : SideMap) : OrderBook :=
  match side with
  | .buy => { book with bids := sideMap }
  | .sell => { book with asks := sideMap }

@[simp] theorem OrderBook.sideMap_withSideMap (book : OrderBook) (side : Side) (m : SideMap) :
    (book.withSideMap side m).sideMap side = m := by
  cases side <;> rfl

theorem OrderBook.sideMap_withSideMap_ne (book : OrderBook) {side side' : Side} (ne : side' ≠ side) (m : SideMap) :
    (book.withSideMap side m).sideMap side' = book.sideMap side' := by
  cases side <;> cases side' <;> first | rfl | exact absurd rfl ne

/-- Append to the level's FIFO and bump its running total. -/
def PriceLevel.append (node : Addr) (quantity : Quantity) (level : PriceLevel) : PriceLevel where
  orders := level.orders ++ [node]
  totalRemaining := level.totalRemaining + quantity

/-- `place_into`: the level is created on first sight of its price. -/
def placeInto (side : Side) (sideMap : SideMap) (heap : Heap) (node : Addr) : Except Fault (SideMap × Heap) := do
  let n ← deref heap node
  let heap ← link heap node
  return (SortedMap.upsert (before side) n.data.price { orders := [] } (PriceLevel.append node n.data.leavesQty) sideMap,
    heap)

/-- `cancel_from`: the level must exist and is erased with its last order. -/
def cancelFrom (sideMap : SideMap) (heap : Heap) (node : Addr) : Except Fault (SideMap × Heap) := do
  let n ← deref heap node
  match sideMap.lookup n.data.price with
  | none => .error .assertion
  | some level =>
    if node ∉ level.orders then .error .notLinked
    else
      let heap ← unlink heap node
      let level : PriceLevel :=
        { orders := level.orders.erase node, totalRemaining := level.totalRemaining - n.data.leavesQty }
      if level.orders = [] then return (SortedMap.drop n.data.price sideMap, heap)
      else return (SortedMap.put n.data.price level sideMap, heap)

/-- `place`: the node's own side chooses the map. -/
def OrderBook.place (book : OrderBook) (heap : Heap) (node : Addr) : Except Fault (OrderBook × Heap) := do
  let n ← deref heap node
  let (sideMap, heap) ← placeInto n.data.side (book.sideMap n.data.side) heap node
  return (book.withSideMap n.data.side sideMap, heap)

def OrderBook.cancel (book : OrderBook) (heap : Heap) (node : Addr) : Except Fault (OrderBook × Heap) := do
  let n ← deref heap node
  let (sideMap, heap) ← cancelFrom (book.sideMap n.data.side) heap node
  return (book.withSideMap n.data.side sideMap, heap)

def bestPrice : SideMap → Option Price
  | [] => none
  | (price, _) :: _ => some price

def totalAtBest : SideMap → Option Quantity
  | [] => none
  | (_, level) :: _ => some level.totalRemaining

def bestLevelOf : SideMap → Option LevelSnapshot
  | [] => none
  | (price, level) :: _ => some ⟨price, level.totalRemaining⟩

theorem totalAtBest_eq (sideMap : SideMap) : totalAtBest sideMap = (bestLevelOf sideMap).map LevelSnapshot.totalQuantity := by
  cases sideMap <;> rfl

def OrderBook.bestBid (book : OrderBook) : Option Price := bestPrice book.bids

def OrderBook.bestAsk (book : OrderBook) : Option Price := bestPrice book.asks

def OrderBook.totalAtBestBid (book : OrderBook) : Option Quantity := totalAtBest book.bids

def OrderBook.totalAtBestAsk (book : OrderBook) : Option Quantity := totalAtBest book.asks

def OrderBook.best (book : OrderBook) : Side → Option Price
  | .buy => book.bestBid
  | .sell => book.bestAsk

def OrderBook.bestLevel (book : OrderBook) (side : Side) : Option LevelSnapshot := bestLevelOf (book.sideMap side)

/-- The nodes of one side, by level and in FIFO order. -/
def OrderBook.nodes (book : OrderBook) (side : Side) : List Addr := (book.sideMap side).flatMap (·.2.orders)

end DemoExchange.MatchingEngine
