import DemoExchange.Properties.Bracket
import DemoExchange.Reference.Terms

/-!
# The average price of an aggressor

The report of an order's trades gives its last price as `avg_px`. Which is its
average to within one price step exactly when the sweep was narrow: what it
gained on the better priced orders that it used up first is less than the
quantity it traded.
-/

namespace DemoExchange.Properties
set_option autoImplicit false
open OrderEntry MatchingEngine Reference Refinement

/-- The orders that rest on a side of a symbol's book, first to trade first. -/
def restingOrders (e : Engine) (symbol : Symbol) (side : Side) : List OrderState :=
  match e.books.lookup symbol with
  | none => []
  | some book => (book.nodes side).filterMap e.orderAt

/-- The resting orders opposite to the order that a request sends; the original
of a replacement will have left. -/
def opposing (e : Engine) (request : Request) (sent : NewOrderSingle) : List OrderState :=
  match request with
  | .replaceOrder incoming =>
    (restingOrders e sent.symbol (otherSide sent.side)).filter fun o => o.key ≠ ⟨incoming.clientId, incoming.origClOrdId⟩
  | _ => restingOrders e sent.symbol (otherSide sent.side)

/-- By how much `price` is better than `last` for an aggressor. -/
def improvement : Side → Price → Price → Nat
  | .buy, last, price => last.toNat - price.toNat
  | .sell, last, price => price.toNat - last.toNat

/-- The quantity resting at better prices than `price`. -/
def ahead (sent : NewOrderSingle) (resting : List OrderState) (price : Price) : Nat :=
  (resting.map (leavesIf fun o => 0 < improvement sent.side price o.price)).sum

/-- The quantity resting at prices that cross. -/
def crossing (sent : NewOrderSingle) (resting : List OrderState) : Nat :=
  (resting.map (leavesIf fun o => Crosses (orderFor sent) o.price)).sum

/-- The order has enough to get through to `price`. -/
def Reaches (sent : NewOrderSingle) (resting : List OrderState) (price : Price) : Prop :=
  Crosses (orderFor sent) price ∧ ahead sent resting price < sent.orderQty.toNat

/-- The worst price that the order reaches. -/
structure ReachesLast (sent : NewOrderSingle) (resting : List OrderState) (last : Price) : Prop where
  offered : ∃ o ∈ resting, o.price = last
  reaches : Reaches sent resting last
  worst : ∀ o ∈ resting, Reaches sent resting o.price → improvement sent.side o.price last = 0

/-- What the order gains on its last price is less than what it trades. -/
def Narrow (sent : NewOrderSingle) (resting : List OrderState) : Prop :=
  ∀ last, ReachesLast sent resting last →
    (resting.map fun o => o.leavesQty.toNat * improvement sent.side last o.price).sum <
      min sent.orderQty.toNat (crossing sent resting)

/-- The value of some trades. -/
def tradedValue (calls : List TradeCall) : Nat := (calls.map fun c => c.event.price.toNat * c.event.quantity.toNat).sum

/-- A neighbouring integer of the average price of some trades. -/
def IsAverage (price : Price) (calls : List TradeCall) : Prop :=
  |(price.toNat * tradedTotal calls : Int) - tradedValue calls| < tradedTotal calls

/-- The trade that an event is. -/
def trade? : Emission → Option TradeCall
  | .trade call => some call
  | _ => none

/-- The event is the report of an order's trades. -/
def tradeReport? : Emission → Option ExecutionReport
  | .orderEntry (.executionReport r) => if r.execType = .trade then some r else none
  | _ => none

theorem tradeReport?_eq_some {event : Emission} {r : ExecutionReport} (is : tradeReport? event = some r) :
    event = .orderEntry (.executionReport r) ∧ r.execType = .trade := by
  cases event with
  | marketData message => cases is
  | trade call => cases is
  | orderEntry event =>
    cases event with
    | executionReport r' =>
      simp only [tradeReport?, Option.ite_none_right_eq_some, Option.some.injEq] at is
      obtain ⟨traded, rfl⟩ := is
      exact ⟨rfl, traded⟩
    | cancelReject r' => cases is

section Sides

variable {sent : NewOrderSingle} {last price : Price}

/-- An improvement is a difference of ranks on the side that is consumed. -/
theorem improvement_eq (side : Side) (last price : Price) :
    improvement side last price = priceRank (otherSide side) last - priceRank (otherSide side) price := by
  have hl := UInt64.toNat_lt last
  have hp := UInt64.toNat_lt price
  cases side with
  | buy => rfl
  | sell =>
    simp only [improvement, otherSide, priceRank]
    unfold UInt64.size
    omega

/-- Priced at most at `bound`, the fills cost less than at `bound` by what each is below it. -/
theorem value_below (bound : Nat) (fills : List Fill) (below : ∀ f ∈ fills, f.maker.price.toNat ≤ bound) :
    (fills.map fun f => f.maker.price.toNat * f.quantity.toNat).sum +
        (fills.map fun f => f.quantity.toNat * (bound - f.maker.price.toNat)).sum = bound * filledTotal fills := by
  induction fills with
  | nil => simp [filledTotal]
  | cons f fills ih =>
    have ih := ih fun g hg => below g (List.mem_cons_of_mem _ hg)
    obtain ⟨d, apart⟩ := Nat.exists_eq_add_of_le (below f List.mem_cons_self)
    have one : f.maker.price.toNat * f.quantity.toNat + f.quantity.toNat * (bound - f.maker.price.toNat) =
        bound * f.quantity.toNat := by
      rw [apart, Nat.add_sub_cancel_left, Nat.add_mul, Nat.mul_comm d]
    simp only [filledTotal, List.map_cons, List.sum_cons, Nat.mul_add] at ih ⊢
    omega

/-- Priced at least at `bound`, they cost more than at `bound`. -/
theorem value_above (bound : Nat) (fills : List Fill) (above : ∀ f ∈ fills, bound ≤ f.maker.price.toNat) :
    bound * filledTotal fills + (fills.map fun f => f.quantity.toNat * (f.maker.price.toNat - bound)).sum =
      (fills.map fun f => f.maker.price.toNat * f.quantity.toNat).sum := by
  induction fills with
  | nil => simp [filledTotal]
  | cons f fills ih =>
    have ih := ih fun g hg => above g (List.mem_cons_of_mem _ hg)
    obtain ⟨d, apart⟩ := Nat.exists_eq_add_of_le (above f List.mem_cons_self)
    have one : bound * f.quantity.toNat + f.quantity.toNat * (f.maker.price.toNat - bound) =
        f.maker.price.toNat * f.quantity.toNat := by
      rw [apart, Nat.add_sub_cancel_left, Nat.add_mul, Nat.mul_comm d]
    simp only [filledTotal, List.map_cons, List.sum_cons, Nat.mul_add] at ih ⊢
    omega

/-- The last price is off the value of the fills by what they gained on it. -/
theorem abs_value (side : Side) (last : Price) (fills : List Fill)
    (ordered : ∀ f ∈ fills, priceRank (otherSide side) f.maker.price ≤ priceRank (otherSide side) last) :
    |(last.toNat * filledTotal fills : Int) - ((fills.map fun f => f.maker.price.toNat * f.quantity.toNat).sum : Nat)| =
      ((fills.map fun f => f.quantity.toNat * improvement side last f.maker.price).sum : Nat) := by
  cases side with
  | buy =>
    have gap := value_below last.toNat fills ordered
    simp only [improvement]
    rw [← Int.natCast_mul, ← gap, Int.natCast_add, add_sub_cancel_left]
    exact abs_of_nonneg (Int.natCast_nonneg _)
  | sell =>
    have above : ∀ f ∈ fills, last.toNat ≤ f.maker.price.toNat := by
      intro f hf
      have better := ordered f hf
      have hl := UInt64.toNat_lt last
      simp only [otherSide, priceRank] at better
      unfold UInt64.size at better
      omega
    have gap := value_above last.toNat fills above
    simp only [improvement]
    rw [← Int.natCast_mul, ← gap, Int.natCast_add, sub_add_cancel_left, abs_neg]
    exact abs_of_nonneg (Int.natCast_nonneg _)

end Sides

section Reaching

variable {live : List LiveOrder} {sent : NewOrderSingle} {resting : List OrderState} {last : Fill}

/-- The sums over the resting orders are totals of the side that is consumed. -/
theorem sum_resting (perm : resting.Perm ((sideOf live sent.symbol (otherSide sent.side)).map (·.order)))
    (weight : OrderState → Nat) : (resting.map weight).sum = total live sent.symbol (otherSide sent.side) weight := by
  rw [(perm.map weight).sum_eq, List.map_map]
  rfl

/-- An order that rests opposite. -/
theorem mem_resting (perm : resting.Perm ((sideOf live sent.symbol (otherSide sent.side)).map (·.order))) {o : OrderState} :
    o ∈ resting ↔ ∃ o' ∈ sideOf live sent.symbol (otherSide sent.side), o'.order = o := by
  rw [perm.mem_iff, List.mem_map]

/-- What is ahead of a price is what has a lower rank. -/
theorem ahead_eq (perm : resting.Perm ((sideOf live sent.symbol (otherSide sent.side)).map (·.order))) (price : Price) :
    ahead sent resting price = total live sent.symbol (otherSide sent.side)
      (leavesIf fun o => priceRank (otherSide sent.side) o.price < priceRank (otherSide sent.side) price) := by
  rw [ahead, sum_resting perm]
  congr 2
  funext o
  rw [improvement_eq]
  simp only [Nat.sub_pos_iff_lt]

/-- What is ahead of a price that crosses, and an order at that price, cross. -/
theorem ahead_add_le (perm : resting.Perm ((sideOf live sent.symbol (otherSide sent.side)).map (·.order))) {o : OrderState}
    (member : o ∈ resting) (hit : Crosses (orderFor sent) o.price) :
    ahead sent resting o.price + o.leavesQty.toNat ≤ crossing sent resting := by
  obtain ⟨o', inside, rfl⟩ := (mem_resting perm).1 member
  have here := weight_le_total inside
    (leavesIf fun p => priceRank (otherSide sent.side) p.price = priceRank (otherSide sent.side) o'.order.price)
  have counted : leavesIf (fun p => priceRank (otherSide sent.side) p.price = priceRank (otherSide sent.side) o'.order.price)
      o'.order = o'.order.leavesQty.toNat := if_pos (decide_eq_true rfl)
  rw [counted] at here
  rw [ahead_eq perm, crossing, sum_resting perm]
  refine Nat.le_trans (Nat.add_le_add_left here _) ?_
  rw [total, total, ← List.sum_map_add]
  refine List.sum_le_sum fun p hp => ?_
  -- at most one of the two counts the order, and it crosses then
  have crossed : priceRank (otherSide sent.side) p.order.price ≤ priceRank (otherSide sent.side) o'.order.price →
      leavesIf (fun o => Crosses (orderFor sent) o.price) p.order = p.order.leavesQty.toNat :=
    fun better => if_pos (decide_eq_true (crosses_of_better hit better))
  simp only [leavesIf, decide_eq_true_eq] at crossed ⊢
  split
  · rename_i less
    rw [crossed (Nat.le_of_lt less), if_neg (Nat.ne_of_lt less)]
    exact Nat.le_refl _
  · split
    · rename_i same
      rw [crossed (Nat.le_of_eq same)]
      omega
    · omega

/-- **The last fill is at the worst price reached.** -/
theorem reachesLast_last (orderly : Orderly live)
    (perm : resting.Perm ((sideOf live sent.symbol (otherSide sent.side)).map (·.order)))
    (final : (sweep live (orderFor sent)).fills.getLast? = some last) :
    ReachesLast sent resting last.maker.price := by
  have taken : TakenTo live sent.symbol (otherSide sent.side) (sweep live (orderFor sent)).fills
      (priceRank (otherSide sent.side) last.maker.price) := sweep_takenTo live (orderFor sent) orderly last final
  have quantity := sweep_total live (orderFor sent) orderly
  have inside := List.mem_of_getLast? final
  obtain ⟨terms, hit⟩ := sweep_crosses live (orderFor sent) last inside
  obtain ⟨o, ho, q, same⟩ := sweep_sides live (orderFor sent) last inside
  obtain ⟨q', taker⟩ := terms
  rw [taker] at hit
  have crossed : crossing sent resting = total live sent.symbol (otherSide sent.side)
      (leavesIf fun o => Crosses (orderFor sent) o.price) := sum_resting perm _
  change _ = min sent.orderQty.toNat (total live sent.symbol (otherSide sent.side) _) at quantity
  rw [← crossed] at quantity
  refine ⟨⟨o.order, (mem_resting perm).2 ⟨o, ho, rfl⟩, by rw [same]⟩, ⟨hit, ?_⟩, ?_⟩
  · have beyond := taken.beyond
    rw [ahead_eq perm]
    exact Nat.lt_of_lt_of_le beyond (by omega)
  · rintro p hp ⟨hit', less⟩
    rw [improvement_eq]
    refine Nat.sub_eq_zero_of_le (Nat.le_of_not_lt fun worse => ?_)
    -- everything that was taken is ahead of `p`, so more than `p` leaves would have been
    have most := ahead_add_le perm hp hit'
    have positive : p.leavesQty.toNat ≠ 0 := by
      obtain ⟨p', hp', rfl⟩ := (mem_resting perm).1 hp
      exact fun zero => (orderly.left p' (mem_sideOf.1 hp').1).1 (UInt64.toNat_inj.1 zero)
    have before : filledTotal (sweep live (orderFor sent)).fills ≤ ahead sent resting p.price := by
      rw [ahead_eq perm]
      refine Nat.le_trans taken.within (total_mono fun o _ => ?_)
      simp only [leavesIf, decide_eq_true_eq]
      split
      · rename_i better
        rw [if_pos (Nat.lt_of_le_of_lt better worse)]
      · exact Nat.zero_le _
    omega

/-- There is one worst price reached. -/
theorem ReachesLast.unique {p q : Price} (h : ReachesLast sent resting p) (h' : ReachesLast sent resting q) : p = q := by
  obtain ⟨o, ho, rfl⟩ := h.offered
  obtain ⟨o', ho', rfl⟩ := h'.offered
  have here := h.worst o' ho' h'.reaches
  have there := h'.worst o ho h.reaches
  rw [improvement_eq] at here there
  refine @priceRank_inj (otherSide sent.side) _ _ ?_
  omega

/-- **The last price is the average exactly when the sweep is narrow.** -/
theorem average_iff_narrow (orderly : Orderly live)
    (perm : resting.Perm ((sideOf live sent.symbol (otherSide sent.side)).map (·.order)))
    (final : (sweep live (orderFor sent)).fills.getLast? = some last) {calls : List TradeCall}
    (same : calls.map unnumberedCall = (sweep live (orderFor sent)).fills.map Fill.call) :
    IsAverage last.maker.price calls ↔ Narrow sent resting := by
  have taken : TakenTo live sent.symbol (otherSide sent.side) (sweep live (orderFor sent)).fills
      (priceRank (otherSide sent.side) last.maker.price) := sweep_takenTo live (orderFor sent) orderly last final
  have quantity := sweep_total live (orderFor sent) orderly
  have reached := reachesLast_last orderly perm final
  have crossed : crossing sent resting = total live sent.symbol (otherSide sent.side)
      (leavesIf fun o => Crosses (orderFor sent) o.price) := sum_resting perm _
  change _ = min sent.orderQty.toNat (total live sent.symbol (otherSide sent.side) _) at quantity
  rw [← crossed] at quantity
  have value : tradedValue calls =
      ((sweep live (orderFor sent)).fills.map fun f => f.maker.price.toNat * f.quantity.toNat).sum := by
    have values : tradedValue (calls.map unnumberedCall) =
        tradedValue ((sweep live (orderFor sent)).fills.map Fill.call) := by rw [same]
    simp only [tradedValue, List.map_map] at values
    exact values
  have gain : ((sweep live (orderFor sent)).fills.map fun f =>
        f.quantity.toNat * improvement sent.side last.maker.price f.maker.price).sum =
      (resting.map fun o => o.leavesQty.toNat * improvement sent.side last.maker.price o.price).sum := by
    rw [sum_resting perm]
    simp only [improvement_eq]
    exact taken.weighed
  unfold IsAverage
  rw [(calls_of_fills same).1, value, abs_value sent.side _ _ taken.ordered, gain, Int.ofNat_lt, quantity]
  constructor
  · intro less price last'
    rw [last'.unique reached]
    exact less
  · exact fun narrow => narrow _ reached

end Reaching

section Engines

variable {e : Engine} {items : List Item} {x : Exchange} {symbol : Symbol} {sent : NewOrderSingle}

/-- The resting orders of a side are its live orders. -/
theorem restingOrders_perm (h : Holds e items x) (known : symbol ∈ x.configured) (side : Side) :
    (restingOrders e symbol side).Perm ((sideOf x.live symbol side).map (·.order)) := by
  obtain ⟨book, hb⟩ := h.exists_book known
  obtain ⟨queue, perm, -, nodes⟩ := h.queue hb side
  have orders : (queue.map Prod.fst).filterMap e.orderAt = queue.map fun i => i.2.order := by
    rw [List.filterMap_map, ← List.filterMap_eq_map]
    refine List.filterMap_congr fun i hi => ?_
    exact h.orderAt (mem_sideItems.1 (perm.mem_iff.1 hi)).1
  have found : restingOrders e symbol side = (book.nodes side).filterMap e.orderAt := by
    unfold restingOrders
    rw [h.lookup.2 hb]
  rw [found, nodes, orders, ← h.live, ← sideItems_live, List.map_map]
  exact perm.map _

/-- A trade report of a new order is about its last fill. -/
theorem avgPx_of_accept {r : ExecutionReport} (member : Emission.orderEntry (.executionReport r) ∈ (x.accept sent).2)
    (traded : r.execType = .trade) :
    ∃ last, (sweep x.live (orderFor sent)).fills.getLast? = some last ∧ r.avgPx = some last.maker.price := by
  obtain same | ⟨f, -, same⟩ | member | ⟨side, same⟩ := accept_events member
  · cases same
    cases traded
  · cases same
  · unfold tradeReports at member
    split at member
    · cases member
    · rename_i last final
      obtain same | member := List.mem_cons.1 member
      · cases same
      · cases List.mem_singleton.1 member
        exact ⟨last, final, rfl⟩
  · cases same

/-- The trades of a new order are its fills. -/
theorem trades_of_accept (x : Exchange) (sent : NewOrderSingle) :
    (x.accept sent).2.filterMap trade? = (sweep x.live (orderFor sent)).fills.map Fill.call := by
  have trades : ∀ fills : List Fill, (fills.map fun f => Emission.trade f.call).filterMap trade? = fills.map Fill.call := by
    intro fills
    rw [List.filterMap_map, ← List.filterMap_eq_map]
    rfl
  have reports : ∀ taker fills, (tradeReports sent taker fills).filterMap trade? = [] := by
    intro taker fills
    unfold tradeReports
    split <;> rfl
  have updates : ∀ (p : Prop) [Decidable p] (live side), (if p then [bookUpdate live sent.symbol side sent.securityId] else
      []).filterMap trade? = [] := by
    intro p _ live side
    split <;> rfl
  have updates' : ∀ (p : Prop) [Decidable p] (live side), (if p then [] else
      [bookUpdate live sent.symbol side sent.securityId]).filterMap trade? = [] := by
    intro p _ live side
    split <;> rfl
  simp only [Exchange.accept, List.filterMap_append, List.filterMap_cons, trades, reports, updates, updates', List.append_nil]
  rfl

theorem filterMap_unnumbered (events : List Emission) :
    (events.map unnumbered).filterMap trade? = (events.filterMap trade?).map unnumberedCall := by
  rw [List.filterMap_map, List.map_filterMap]
  congr 1
  funext event
  cases event with
  | marketData message => rfl
  | trade call => rfl
  | orderEntry event => cases event <;> rfl

/-- Without the order of a key, the resting orders of a side are its live orders once that has left. -/
theorem restingOrders_without (h : Holds e items x) (known : symbol ∈ x.configured) (side : Side) (key : OrderKey) :
    ((restingOrders e symbol side).filter fun o => o.key ≠ key).Perm ((sideOf (x.remove key).live symbol side).map (·.order)) := by
  have perm := (restingOrders_perm h known side).filter fun o => o.key ≠ key
  have left : (sideOf (x.remove key).live symbol side).map (·.order) =
      ((sideOf x.live symbol side).map (·.order)).filter fun o => o.key ≠ key := by
    rw [List.filter_map]
    simp only [Exchange.remove, sideOf, List.filter_filter]
    congr 1
    refine List.filter_congr fun o _ => ?_
    exact Bool.and_comm _ _
  rw [left]
  exact perm

/-- What an accepted order meets: an orderly side, which is the opposing orders. -/
theorem meets (h : Holds e items x) (valid : Valid x) {request : Request} {y : Exchange} {removed : List Emission}
    (known : sent.symbol ∈ y.configured)
    (origin : (request = .newOrderSingle sent ∧ y = x ∧ removed = []) ∨
      ∃ incoming, ∃ o ∈ x.live, request = .replaceOrder incoming ∧
        o.order.key = ⟨incoming.clientId, incoming.origClOrdId⟩ ∧ y = x.remove o.order.key ∧ removed = x.removalUpdate o) :
    Orderly y.live ∧
      (opposing e request sent).Perm ((sideOf y.live sent.symbol (otherSide sent.side)).map (·.order)) ∧
      ∀ event ∈ removed, ∃ message, event = .marketData message := by
  obtain ⟨rfl, rfl, rfl⟩ | ⟨incoming, o, -, rfl, keyed, rfl, rfl⟩ := origin
  · exact ⟨valid.orderly, restingOrders_perm h known _, fun _ member => absurd member List.not_mem_nil⟩
  · refine ⟨valid.orderly.filter _, ?_, fun _ => mem_removalUpdate⟩
    rw [keyed]
    exact restingOrders_without h known _ _

end Engines

/-- **The average price.** The `avg_px` that is reported with the trades of an
accepted order is their average, rounded to a neighbour, exactly when the sweep
was narrow in the book as it was. -/
theorem avgPx_is_average_iff (alloc : Pool.Allocator) (configuration : EngineConfig) (requests : List Request) {e : Engine}
    {trace : List (Request × List Emission)} (ran : Engine.run alloc configuration requests = .ok (e, trace))
    {request : Request} {sent : NewOrderSingle} (accepts : Accepts e request sent) {e' : Engine} {events : List Emission}
    (handled : Engine.send alloc e request = .ok (e', events)) {r : ExecutionReport}
    (reported : Emission.orderEntry (.executionReport r) ∈ events) (traded : r.execType = .trade) :
    (∃ price, r.avgPx = some price ∧ IsAverage price (events.filterMap trade?)) ↔ Narrow sent (opposing e request sent) := by
  obtain ⟨items, h⟩ := reached ran
  have valid := run_valid configuration requests
  obtain ⟨y, removed, absent, known, step, origin⟩ := accepts.step h
  obtain ⟨e'', handled', -⟩ := send_numbered alloc ⟨items, h⟩ request
  rw [handled'] at handled
  cases handled
  have numbered := sent_unnumbered (run configuration requests).1 request e.core.out
  obtain ⟨orderly, perm, silent⟩ := meets h valid known origin
  generalize (emitAll (cleared e.core.out) ((run configuration requests).1.step request).2).events = events at numbered reported ⊢
  replace numbered : events.map unnumbered = removed ++ (y.accept sent).2 := numbered.trans (congrArg Prod.snd step)
  have same : (events.filterMap trade?).map unnumberedCall = (sweep y.live (orderFor sent)).fills.map Fill.call := by
    rw [← filterMap_unnumbered, numbered, List.filterMap_append, trades_of_accept, List.filterMap_eq_nil_iff.2, List.nil_append]
    intro event member
    obtain ⟨message, rfl⟩ := silent event member
    rfl
  have inside : Emission.orderEntry (.executionReport { r with execId := 0 }) ∈ removed ++ (y.accept sent).2 := by
    rw [← numbered]
    exact List.mem_map.2 ⟨_, reported, rfl⟩
  obtain ⟨last, final, avgPx⟩ : ∃ last, (sweep y.live (orderFor sent)).fills.getLast? = some last ∧
      r.avgPx = some last.maker.price := by
    rcases List.mem_append.1 inside with inside | inside
    · obtain ⟨message, impossible⟩ := silent _ inside
      cases impossible
    · exact avgPx_of_accept (r := { r with execId := 0 }) inside traded
  rw [← average_iff_narrow orderly perm final same, avgPx]
  simp

/-! ## A sweep of two levels -/

/-- The asks of `twoAsks` and 150 of them bought: 100 at 10 and 50 at 12. -/
theorem crossingBid_handled :
    ∃ e trace e' events r, Engine.run .above defaultConfig twoAsks = .ok (e, trace) ∧
      Accepts e (.newOrderSingle crossingBid) crossingBid ∧
      Engine.send .above e (.newOrderSingle crossingBid) = .ok (e', events) ∧
      Emission.orderEntry (.executionReport r) ∈ events ∧ r.execType = .trade ∧ r.avgPx = some 12 ∧
      tradedTotal (events.filterMap trade?) = 150 ∧ tradedValue (events.filterMap trade?) = 1600 := by
  obtain ⟨e, ran, represents, -⟩ := engine_run .above defaultConfig twoAsks
  obtain ⟨e', events, handled⟩ : ∃ e' events, Engine.send .above e (.newOrderSingle crossingBid) = .ok (e', events) := by
    obtain ⟨e', handled, -⟩ := send_numbered .above represents (.newOrderSingle crossingBid)
    exact ⟨e', _, handled⟩
  have state : (Engine.run .above defaultConfig twoAsks).map (fun out =>
      decide (out.1.core.restingIndex ⟨alice, 1⟩ = none ∧ aapl ∈ out.1.books.map Prod.fst)) = .ok true := by
    decide
  have answer : (Engine.run .above defaultConfig twoAsks).bind (fun out =>
      (Engine.send .above out.1 (.newOrderSingle crossingBid)).map fun sent =>
        ((sent.2.filterMap tradeReport?).map (·.avgPx), tradedTotal (sent.2.filterMap trade?),
          tradedValue (sent.2.filterMap trade?))) = .ok ([some 12], 150, 1600) := by
    decide
  rw [ran] at state answer
  obtain ⟨free, known⟩ := of_decide_eq_true (Except.ok.inj state)
  simp only [Except.bind, handled, Except.map, Except.ok.injEq, Prod.mk.injEq] at answer
  obtain ⟨reports, total, value⟩ := answer
  obtain ⟨r, rest, found, avgPx, -⟩ := List.map_eq_cons_iff.1 reports
  have member : r ∈ events.filterMap tradeReport? := by
    rw [found]
    exact List.mem_cons_self
  obtain ⟨event, inside, is⟩ := List.mem_filterMap.1 member
  obtain ⟨rfl, traded⟩ := tradeReport?_eq_some is
  exact ⟨e, _, e', events, r, ran, .newOrder crossingBid free known, handled, inside, traded, avgPx, total, value⟩

theorem avgPx_is_average_iff_crossingBid :
    ∃ e trace e' events r, Engine.run .above defaultConfig twoAsks = .ok (e, trace) ∧
      Engine.send .above e (.newOrderSingle crossingBid) = .ok (e', events) ∧
      Emission.orderEntry (.executionReport r) ∈ events ∧ r.execType = .trade ∧
      ((∃ price, r.avgPx = some price ∧ IsAverage price (events.filterMap trade?)) ↔
        Narrow crossingBid (opposing e (.newOrderSingle crossingBid) crossingBid)) := by
  obtain ⟨e, trace, e', events, r, ran, accepts, handled, reported, traded, -⟩ := crossingBid_handled
  exact ⟨e, trace, e', events, r, ran, handled, reported, traded,
    avgPx_is_average_iff .above defaultConfig twoAsks ran accepts handled reported traded⟩

/-- 150 were bought for 1600, and 12 is reported as their average. -/
theorem avgPx_is_last_price :
    ¬∀ (alloc : Pool.Allocator) (configuration : EngineConfig) (requests : List Request) e trace,
      Engine.run alloc configuration requests = .ok (e, trace) → ∀ request sent, Accepts e request sent →
        ∀ e' events, Engine.send alloc e request = .ok (e', events) →
          ∀ r, Emission.orderEntry (.executionReport r) ∈ events → r.execType = .trade →
            ∃ price, r.avgPx = some price ∧ IsAverage price (events.filterMap trade?) := by
  intro claim
  obtain ⟨e, trace, e', events, r, ran, accepts, handled, reported, traded, avgPx, total, value⟩ := crossingBid_handled
  obtain ⟨price, is, average⟩ :=
    claim .above defaultConfig twoAsks e trace ran _ _ accepts e' events handled r reported traded
  rw [avgPx] at is
  cases is
  unfold IsAverage at average
  rw [total, value] at average
  exact absurd average (by decide)

end DemoExchange.Properties
