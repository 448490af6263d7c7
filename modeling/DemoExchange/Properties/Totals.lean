import DemoExchange.Properties.Average
import DemoExchange.Refinement.Totals

/-!
# The totals of levels

`total_remaining` is a `uint64` that nothing guards. A run keeps every total
exact, never overflows or underflows one and publishes only exact quantities
just when each order that is accepted has room: what rests at its price of its
side then and all of it are less than `2^64`.
-/

namespace DemoExchange.Properties
set_option autoImplicit false
open OrderEntry MatchingEngine Reference Refinement

/-- What is left of the orders at a price. -/
def restingAt (resting : List OrderState) (price : Price) : Nat := (resting.map (leavesIf fun o => o.price = price)).sum

/-- `total` is the sum of what is left of the orders at a price, as an unbounded
integer, and no less than what is left of any of them. -/
structure SumAt (resting : List OrderState) (price : Price) (total : Quantity) : Prop where
  exact : total.toNat = restingAt resting price
  covers : ∀ o ∈ resting, o.price = price → o.leavesQty ≤ total

/-- Every level of every book has the exact total. -/
def LevelsExact (e : Engine) : Prop :=
  ∀ entry ∈ e.books, ∀ side, ∀ level ∈ entry.2.sideMap side,
    SumAt (restingOrders e entry.1 side) level.1 level.2.totalRemaining

/-- The update shows a price at which orders rest and the exact quantity there, or that none rest. -/
def TellsLevel (resting : List OrderState) (side : Side) (update : MarketData.MboBookUpdate) : Prop :=
  update.side = marketSide side ∧
    ((resting = [] ∧ update.price = none ∧ update.quantity = none) ∨
      ∃ price total, update.price = some price ∧ update.quantity = some total ∧ (∃ o ∈ resting, o.price = price) ∧
        SumAt resting price total)

/-- The resting orders of a side, without the original of a replacement. -/
def staying (e : Engine) (request : Request) (symbol : Symbol) (side : Side) : List OrderState :=
  match request with
  | .replaceOrder incoming =>
    (restingOrders e symbol side).filter fun o => o.key ≠ ⟨incoming.clientId, incoming.origClOrdId⟩
  | _ => restingOrders e symbol side

/-- What an update sent between `e` and `e'` tells of: the orders after the
request or, of a replacement, also those left when the original has gone. -/
def Publishes (e e' : Engine) (request : Request) (update : MarketData.MboBookUpdate) : Prop :=
  match request with
  | .newOrderSingle sent => ∃ side, TellsLevel (restingOrders e' sent.symbol side) side update
  | .cancelOrder incoming =>
    ∃ o, e.liveOrder ⟨incoming.clientId, incoming.origClOrdId⟩ = some o ∧
      TellsLevel (restingOrders e' o.symbol o.side) o.side update
  | .replaceOrder incoming =>
    (∃ o, e.liveOrder ⟨incoming.clientId, incoming.origClOrdId⟩ = some o ∧
      TellsLevel (staying e request o.symbol o.side) o.side update) ∨
      ∃ side, TellsLevel (restingOrders e' incoming.symbol side) side update
  | .flush => False

/-- No total of the run wraps: those of the states reached, the operations on
them, and the quantities published. -/
structure TotalsExact (alloc : Pool.Allocator) (configuration : EngineConfig) (requests : List Request) : Prop where
  states : ∀ before, before <+: requests →
    ∃ e trace, Engine.run alloc configuration before = .ok (e, trace) ∧ LevelsExact e
  steps : ∀ before request, before ++ [request] <+: requests →
    ∃ e trace e' events, Engine.run alloc configuration before = .ok (e, trace) ∧
      Engine.send alloc e request = .ok (e', events) ∧ (∀ op ∈ e.totalOps request, op.Exact) ∧
      ∀ update, Emission.marketData (.mboBookUpdate update) ∈ events → Publishes e e' request update

/-- Whatever order the request is accepted as has room at its price. -/
def HasRoom (e : Engine) (request : Request) : Prop :=
  ∀ sent, Accepts e request sent →
    restingAt (staying e request sent.symbol sent.side) sent.price + sent.orderQty.toNat < 2 ^ 64

/-- Every request of the run has room in the engine that it is sent to. -/
def RoomThroughout (alloc : Pool.Allocator) (configuration : EngineConfig) (requests : List Request) : Prop :=
  ∀ before request, before ++ [request] <+: requests →
    ∀ e trace, Engine.run alloc configuration before = .ok (e, trace) → HasRoom e request

section Sums

variable {live : List LiveOrder} {symbol : Symbol} {side : Side} {price : Price} {resting : List OrderState} {total : Quantity}

theorem restingAt_eq (perm : resting.Perm ((sideOf live symbol side).map (·.order))) (price : Price) :
    restingAt resting price = levelTotal live symbol side price := by
  rw [restingAt, (perm.map _).sum_eq, List.map_map]
  rfl

/-- An exact total covers its orders. -/
theorem SumAt.of_exact (perm : resting.Perm ((sideOf live symbol side).map (·.order)))
    (exact : total.toNat = levelTotal live symbol side price) : SumAt resting price total where
  exact := exact.trans (restingAt_eq perm price).symm
  covers := by
    rintro o member rfl
    obtain ⟨o', inside, rfl⟩ := List.mem_map.1 (perm.mem_iff.1 member)
    rw [UInt64.le_iff_toNat_le, exact]
    exact leaves_le_levelTotal inside

/-- **The top of a side is told as it is**, within the bound. -/
theorem tells_top (bounded : Bounded live) (perm : resting.Perm ((sideOf live symbol side).map (·.order)))
    (securityId : SecurityId) : TellsLevel resting side (mboBookUpdate (topOfBook live symbol side) side securityId) := by
  refine ⟨rfl, ?_⟩
  unfold topOfBook
  cases best : bestOn live symbol side with
  | none =>
    rw [best_none.1 best, List.map_nil] at perm
    exact .inl ⟨perm.eq_nil, rfl, rfl⟩
  | some m =>
    have inside : m ∈ sideOf live symbol side := mem_sideOf.2 (best_mem best)
    refine .inr ⟨_, _, rfl, rfl, ⟨m.order, perm.mem_iff.2 (List.mem_map_of_mem inside), rfl⟩, SumAt.of_exact perm ?_⟩
    have within := bounded symbol side m.order.price
    rw [levelTotal_eq] at within ⊢
    rw [toNat_sum, List.map_map]
    exact Nat.mod_eq_of_lt within

end Sums

section Publishing

variable {x y : Exchange} {sent : NewOrderSingle} {update : MarketData.MboBookUpdate}

/-- The updates of a new order are of sides of its symbol after it. -/
theorem update_of_accept (member : Emission.marketData (.mboBookUpdate update) ∈ (x.accept sent).2) :
    ∃ side, update = mboBookUpdate (topOfBook (x.accept sent).1.live sent.symbol side) side sent.securityId := by
  obtain same | ⟨f, -, same⟩ | member | ⟨side, same⟩ := accept_events member
  · cases same
  · cases same
  · unfold tradeReports at member
    split at member
    · cases member
    · obtain same | member := List.mem_cons.1 member
      · cases same
      · cases List.mem_singleton.1 member
  · cases same
    exact ⟨side, rfl⟩

theorem update_of_removal {o : LiveOrder} (member : Emission.marketData (.mboBookUpdate update) ∈ x.removalUpdate o) :
    update = mboBookUpdate (topOfBook (x.remove o.order.key).live o.order.symbol o.order.side) o.order.side
      o.order.securityId := by
  unfold Exchange.removalUpdate at member
  split at member
  · cases List.mem_singleton.1 member
    rfl
  · cases member

/-- A live order is found under its key. -/
theorem find_member (orderly : Orderly x.live) {o : LiveOrder} (member : o ∈ x.live) {key : OrderKey}
    (keyed : o.order.key = key) : x.find? key = some o := by
  cases found : x.find? key with
  | none => exact absurd keyed (Exchange.find?_none.1 found o member)
  | some p =>
    obtain ⟨inside, same⟩ := Exchange.find?_some found
    rw [orderly.key_inj inside member (same.trans keyed.symm)]

variable {e e' : Engine} {items items' : List Item} {request : Request}

/-- **What a step publishes**, within the bound before it and after it. -/
theorem publishes (h : Holds e items x) (h' : Holds e' items' (x.step request).1) (orderly : Orderly x.live)
    (bounded : Bounded x.live) (bounded' : Bounded (x.step request).1.live)
    (member : Emission.marketData (.mboBookUpdate update) ∈ (x.step request).2) : Publishes e e' request update := by
  have configured := step_configured x request
  have live : ∀ {o : LiveOrder} {key : OrderKey}, o ∈ x.live → o.order.key = key → e.liveOrder key = some o.order := by
    intro o key inside keyed
    rw [h.liveOrder, find_member orderly inside keyed]
    rfl
  -- the update for the original of a replacement is sent when it has left
  have original : ∀ {incoming : ReplaceOrder} {o : LiveOrder}, o ∈ x.live →
      o.order.key = ⟨incoming.clientId, incoming.origClOrdId⟩ →
      Emission.marketData (.mboBookUpdate update) ∈ x.removalUpdate o →
      ∃ o', e.liveOrder ⟨incoming.clientId, incoming.origClOrdId⟩ = some o' ∧
        TellsLevel (staying e (.replaceOrder incoming) o'.symbol o'.side) o'.side update := by
    intro incoming o inside keyed member
    rw [update_of_removal member, keyed]
    exact ⟨o.order, live inside keyed,
      tells_top (bounded.sublist List.filter_sublist) (restingOrders_without h (h.known o inside) _ _) _⟩
  have outcome := step_outcome x request
  generalize x.step request = next at outcome h' bounded' configured member
  cases outcome with
  | refused request events rejects =>
    obtain ⟨_, _, _, impossible⟩ := rejects _ member
    cases impossible
  | accepted sent absent known =>
    obtain ⟨side, rfl⟩ := update_of_accept member
    rw [← configured] at known
    exact ⟨side, tells_top bounded' (restingOrders_perm h' known side) _⟩
  | cancelled incoming o inside keyed =>
    obtain impossible | member := List.mem_cons.1 member
    · cases impossible
    · rw [update_of_removal member]
      exact ⟨o.order, live inside keyed, tells_top bounded' (restingOrders_perm h' (h.known o inside) _) _⟩
  | replaced incoming o inside keyed absent known =>
    obtain member | member := List.mem_append.1 member
    · exact .inl (original inside keyed member)
    · obtain ⟨side, rfl⟩ := update_of_accept member
      rw [← configured] at known
      exact .inr ⟨side, tells_top bounded' (restingOrders_perm h' known side) _⟩
  | lost incoming o inside keyed unknown =>
    obtain member | member := List.mem_append.1 member
    · exact .inl (original inside keyed member)
    · cases List.mem_singleton.1 member
  | flushed => cases member

/-- The engine accepts what the exchange accepts. -/
theorem accepts_iff (h : Holds e items x) : Accepts e request sent ↔ ∃ y, Admits x request y sent := by
  constructor
  · intro accepts
    cases accepts with
    | newOrder sent free known => exact ⟨x, .newOrder sent (h.free.1 free) ((h.configured _).1 known)⟩
    | replacement incoming original free known =>
      obtain ⟨none, -⟩ | ⟨i, -, -, -, live⟩ := h.find ⟨incoming.clientId, incoming.origClOrdId⟩
      · rw [none] at original
        cases original
      · exact ⟨_, .replacement incoming i.2 live (h.free.1 free) ((h.configured _).1 known)⟩
  · rintro ⟨y, admits⟩
    cases admits with
    | newOrder _ absent known => exact .newOrder _ (h.free.2 absent) ((h.configured _).2 known)
    | replacement incoming o original absent known =>
      refine .replacement incoming ?_ (h.free.2 absent) ((h.configured _).2 known)
      rw [← Option.ne_none_iff_isSome, ne_eq, h.free, original]
      exact Option.some_ne_none o

/-- The orders that stay are those of the exchange that accepts. -/
theorem staying_perm (h : Holds e items x) (admits : Admits x request y sent) (side : Side) :
    (staying e request sent.symbol side).Perm ((sideOf y.live sent.symbol side).map (·.order)) := by
  cases admits with
  | newOrder _ absent known => exact restingOrders_perm h known side
  | replacement incoming o original absent known =>
    rw [(Exchange.find?_some original).2]
    exact restingOrders_without h known side _

/-- There is room in an engine just when there is in its exchange. -/
theorem hasRoom_iff (h : Holds e items x) : HasRoom e request ↔ Room x request := by
  constructor
  · intro room y sent admits
    have fits := room sent ((accepts_iff h).2 ⟨y, admits⟩)
    rwa [restingAt_eq (staying_perm h admits _)] at fits
  · intro room sent accepts
    obtain ⟨y, admits⟩ := (accepts_iff h).1 accepts
    rw [restingAt_eq (staying_perm h admits _)]
    exact room y sent admits

/-- Within the bound every level is exact. -/
theorem levels_exact (h : Holds e items x) (bounded : Bounded x.live) : LevelsExact e := by
  rintro ⟨symbol, book⟩ hb side ⟨price, level⟩ hl
  have known : symbol ∈ x.configured := (h.configured symbol).1 (List.mem_map_of_mem hb)
  have total := h.total_exact bounded hb side price
  rw [(SortedMap.lookup_eq_some (h.keys_nodup hb side)).2 hl] at total
  exact SumAt.of_exact (restingOrders_perm h known side) total

end Publishing

section Runs

variable {configuration : EngineConfig} {requests : List Request}

/-- Where each step within the bound has room, the bound holds throughout. -/
theorem bounded_throughout (room : ∀ before request, before ++ [request] <+: requests →
    Bounded (run configuration before).1.live → Room (run configuration before).1 request) :
    ∀ before, before <+: requests → Bounded (run configuration before).1.live := by
  refine Run.prefix_rule (P := fun before => Bounded (run configuration before).1.live) ?_ ?_
  · intro symbol side price
    exact Nat.two_pow_pos 64
  · intro before request part bounded
    rw [run, Run.drive_snoc]
    exact bounded.step (run_valid configuration before).orderly (room before request part bounded)

end Runs

/-- **Level totals.** Every total of a run is exact, through every operation on
it and in every update, just when each accepted order has room at its price. -/
theorem totals_exact_iff (alloc : Pool.Allocator) (configuration : EngineConfig) (requests : List Request) :
    TotalsExact alloc configuration requests ↔ RoomThroughout alloc configuration requests := by
  have orderly := fun before => (run_valid configuration before).orderly
  constructor
  · intro exact
    have room : ∀ before request, before ++ [request] <+: requests → Bounded (run configuration before).1.live →
        Room (run configuration before).1 request := by
      intro before request part bounded
      obtain ⟨e, trace, e', events, ran, -, ops, -⟩ := exact.steps before request part
      obtain ⟨items, h⟩ := reached ran
      exact (totalOps_exact_iff h (orderly before) bounded request).1 ops
    intro before request part e trace ran
    obtain ⟨items, h⟩ := reached ran
    have bounded := bounded_throughout room before ((List.prefix_append _ _).trans part)
    exact (hasRoom_iff h).2 (room before request part bounded)
  · intro enough
    have room : ∀ before request, before ++ [request] <+: requests → Room (run configuration before).1 request := by
      intro before request part
      obtain ⟨e, ran, -⟩ := engine_run alloc configuration before
      obtain ⟨items, h⟩ := reached ran
      exact (hasRoom_iff h).1 (enough before request part e _ ran)
    have bounded := bounded_throughout fun before request part _ => room before request part
    refine ⟨fun before part => ?_, fun before request part => ?_⟩
    · obtain ⟨e, ran, -⟩ := engine_run alloc configuration before
      obtain ⟨items, h⟩ := reached ran
      exact ⟨e, _, ran, levels_exact h (bounded before part)⟩
    · obtain ⟨e, ran, -⟩ := engine_run alloc configuration before
      obtain ⟨items, h⟩ := reached ran
      have within := bounded before ((List.prefix_append _ _).trans part)
      obtain ⟨e', handled, ⟨items', h'⟩, -⟩ := send_numbered alloc ⟨items, h⟩ request
      have numbered := sent_unnumbered (run configuration before).1 request e.core.out
      refine ⟨e, _, e', _, ran, handled,
        (totalOps_exact_iff h (orderly before) within request).2 (room before request part), fun update member => ?_⟩
      refine publishes h h' (orderly before) within (within.step (orderly before) (room before request part)) ?_
      rw [← numbered]
      exact List.mem_map.2 ⟨_, member, rfl⟩

/-! ## A level that wraps -/

/-- Two bids at one price for `2^64` in all. -/
def wrappingBids : List Request :=
  [.newOrderSingle (makeNewOrderSingle alice 1 .buy 10 18446744073709551615),
    .newOrderSingle (makeNewOrderSingle bob 101 .buy 10 1)]

/-- The level of the two bids has the total 0. -/
theorem level_total_wraps :
    ¬∀ (alloc : Pool.Allocator) (configuration : EngineConfig) (requests : List Request),
      TotalsExact alloc configuration requests := by
  intro claim
  obtain ⟨e, trace, ran, exact⟩ := (claim .above defaultConfig wrappingBids).states wrappingBids List.prefix_rfl
  have state : (Engine.run .above defaultConfig wrappingBids).map (fun out =>
      (out.1.books.map fun entry => (entry.1, entry.2.bids.map fun level => (level.1, level.2.totalRemaining)),
        restingAt (restingOrders out.1 aapl .buy) 10)) = .ok ([(aapl, [(10, 0)])], 2 ^ 64) := by
    decide
  rw [ran] at state
  obtain ⟨books, rests⟩ := Prod.mk.inj (Except.ok.inj state)
  obtain ⟨⟨symbol, book⟩, hb, same⟩ := List.mem_map.1 (books ▸ List.mem_singleton_self _)
  obtain ⟨rfl, bids⟩ := Prod.mk.inj same
  obtain ⟨⟨price, level⟩, hl, same⟩ := List.mem_map.1 (bids ▸ List.mem_singleton_self _)
  obtain ⟨rfl, total⟩ := Prod.mk.inj same
  have sum := (exact _ hb .buy _ hl).exact
  rw [rests, total] at sum
  cases sum

end DemoExchange.Properties
