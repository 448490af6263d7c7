import DemoExchange.Reference.Ledger
import DemoExchange.Reference.Top

/-!
# The feed determines the top of every side

`published id side log` is what the last book update for a security and a side
said. A step emits an update for each side whose top it changes, after the
change, so as long as no flush is sent and security ids tell the symbols apart
the feed always shows the top.
-/

namespace DemoExchange.Reference
set_option autoImplicit false
open OrderEntry MatchingEngine

/-- A price and a quantity, as a book update carries them. -/
abbrev Shown := Option Price × Option Quantity

/-- What a client knows of a side after one more event. -/
def readUpdate (securityId : SecurityId) (side : MarketData.Side) (last : Shown) (event : Emission) : Shown :=
  match event.message? with
  | some (.mboBookUpdate update) =>
    if update.securityId = securityId ∧ update.side = side then (update.price, update.quantity) else last
  | _ => last

/-- The price and the quantity of the last book update for a security and a
side; neither before the first. -/
def published (securityId : SecurityId) (side : MarketData.Side) (log : List Emission) : Shown :=
  log.foldl (readUpdate securityId side) (none, none)

/-- A top of a side, as a book update shows it. -/
def shown (top : Option LevelSnapshot) : Shown := (top.map (·.price), top.map (·.totalQuantity))

/-- The symbol and the security id that a request is sent with. -/
def names : Request → Option (Symbol × SecurityId)
  | .newOrderSingle request => some (request.symbol, request.securityId)
  | .replaceOrder request => some (request.symbol, request.securityId)
  | .cancelOrder _ => none
  | .flush => none

/-- Among these requests `symbol` goes with `securityId` and no other symbol does. -/
def Labelled (symbol : Symbol) (securityId : SecurityId) (request : Request) : Prop :=
  ∀ s id, names request = some (s, id) → (s = symbol ↔ id = securityId)

/-- The event is not a book update. -/
def Mute (event : Emission) : Prop := ∀ securityId side last, readUpdate securityId side last event = last

section Reading

variable {securityId : SecurityId} {side : MarketData.Side} {log events : List Emission}

theorem published_append : published securityId side (log ++ events) =
    events.foldl (readUpdate securityId side) (published securityId side log) :=
  List.foldl_append

theorem published_mute (mute : ∀ event ∈ events, Mute event) :
    published securityId side (log ++ events) = published securityId side log := by
  induction events using List.reverseRecOn with
  | nil => rw [List.append_nil]
  | append_singleton events event ih =>
    rw [← List.append_assoc, published_append]
    show readUpdate _ _ (published securityId side (log ++ events)) event = _
    rw [mute event (by simp), ih fun e he => mute e (by simp [he])]

theorem mute_orderEntry (event : Event) : Mute (.orderEntry event) := fun _ _ _ => rfl

theorem mute_trade (call : TradeCall) : Mute (.trade call) := fun _ _ _ => rfl

/-- What a new order emits before its book updates. -/
theorem mute_execution (order : OrderState) (request : NewOrderSingle) (taker : OrderState) (fills : List Fill) :
    ∀ event ∈ report order .newOrder .newOrder :: trades fills ++ tradeReports request taker fills, Mute event := by
  intro event member
  rcases List.mem_append.1 member with member | member
  · rcases List.mem_cons.1 member with rfl | member
    · exact mute_orderEntry _
    · obtain ⟨f, -, rfl⟩ := List.mem_map.1 member
      exact mute_trade _
  · unfold tradeReports at member
    split at member
    · cases member
    · rcases List.mem_cons.1 member with rfl | member
      · exact fun _ _ _ => rfl
      · rw [List.mem_singleton.1 member]
        exact mute_orderEntry _

theorem marketSide_inj {side side' : Side} : marketSide side = marketSide side' ↔ side = side' := by
  cases side <;> cases side' <;> decide

/-- A book update is read by those who follow its security and side. -/
theorem published_bookUpdate (live : List LiveOrder) (symbol : Symbol) (side' : Side) (id : SecurityId) (side : Side) :
    published securityId (marketSide side) (log ++ [bookUpdate live symbol side' id]) =
      if id = securityId ∧ side' = side then shown (topOfBook live symbol side')
      else published securityId (marketSide side) log := by
  rw [published_append]
  exact if_congr (and_congr_right fun _ => marketSide_inj) rfl rfl

end Reading

/-- The feed of a symbol: its live orders carry its security id and no others
do, and on either side the last update shows the top. -/
structure Fed (symbol : Symbol) (securityId : SecurityId) (x : Exchange) (log : List Emission) : Prop where
  valid : Valid x
  label : ∀ o ∈ x.live, o.order.symbol = symbol ↔ o.order.securityId = securityId
  top : ∀ side, published securityId (marketSide side) log = shown (topOfBook x.live symbol side)

section Steps

variable {symbol : Symbol} {securityId : SecurityId} {x : Exchange} {log events : List Emission}

theorem Fed.mute (h : Fed symbol securityId x log) (mute : ∀ event ∈ events, Mute event) :
    Fed symbol securityId x (log ++ events) :=
  ⟨h.valid, h.label, fun side => by rw [published_mute mute]; exact h.top side⟩

/-- **An order leaves**: its side is published if it stood at the best price. -/
theorem Fed.remove (h : Fed symbol securityId x log) {o : LiveOrder} (member : o ∈ x.live) :
    Fed symbol securityId (x.remove o.order.key) (log ++ x.removalUpdate o) := by
  refine ⟨h.valid.remove _, fun p hp => h.label p (List.mem_filter.1 hp).1, fun side => ?_⟩
  have others : ¬OnSide symbol side o.order →
      topOfBook (x.remove o.order.key).live symbol side = topOfBook x.live symbol side :=
    fun apart => topOfBook_of_sideOf (sideOf_remove_other h.valid.orderly member apart)
  unfold Exchange.removalUpdate
  by_cases best : bestPriceOn x.live o.order.symbol o.order.side = some o.order.price
  · rw [if_pos best, published_bookUpdate]
    split
    · rename_i mine
      rw [← mine.2, (h.label o member).2 mine.1]
    · rename_i other
      rw [h.top, others fun here => other ⟨(h.label o member).1 here.1, here.2⟩]
  · rw [if_neg best, List.append_nil, h.top]
    by_cases here : OnSide symbol side o.order
    · obtain ⟨rfl, rfl⟩ := here
      exact congrArg shown (topOfBook_remove h.valid.orderly member best).symm
    · rw [others here]

section Accept

variable {request : NewOrderSingle} {s : Sweep} (swept : sweep x.live (orderFor request) = s)
include swept

/-- The residual of a new order is on its own side. -/
theorem residual_onSide (side : Side) : OnSide symbol side s.taker ↔ request.symbol = symbol ∧ request.side = side := by
  rw [← swept]
  exact (sweep_taker x.live (orderFor request)).onSide

/-- A new order shows on the side it consumes and on its own only. -/
theorem topOfBook_accept_other (orderly : Orderly x.live) {side : Side}
    (consumed : ¬(request.symbol = symbol ∧ otherSide request.side = side))
    (resting : ¬(request.symbol = symbol ∧ request.side = side)) :
    topOfBook (x.rest s.live s.taker).live symbol side = topOfBook x.live symbol side := by
  have apart := mt (residual_onSide swept side).1 resting
  rw [topOfBook_of_sideOf (sideOf_rest_other x apart), ← swept]
  exact topOfBook_of_sideOf (sideOf_sweep_other orderly (orderFor request) consumed)

/-- Published after the update of the consumed side: the new top of that side,
the old one of any other. -/
theorem Fed.consumed (h : Fed symbol securityId x log)
    (label : request.symbol = symbol ↔ request.securityId = securityId) (mute : ∀ event ∈ events, Mute event) (side : Side) :
    published securityId (marketSide side) (log ++ events ++ if s.fills = [] then [] else
        [bookUpdate (x.rest s.live s.taker).live request.symbol (otherSide request.side) request.securityId]) =
      if request.symbol = symbol ∧ otherSide request.side = side then
        shown (topOfBook (x.rest s.live s.taker).live symbol side)
      else shown (topOfBook x.live symbol side) := by
  by_cases none : s.fills = []
  · rw [if_pos none, List.append_nil, published_mute mute, h.top]
    split
    · rename_i here
      have apart : ¬OnSide symbol side s.taker := by
        rw [residual_onSide swept]
        exact fun there => opposite_ne request.side (here.2.trans there.2.symm)
      have idle : s.live = x.live := by
        rw [← swept] at none ⊢
        rw [sweep_of_no_fills _ _ none]
      rw [topOfBook_of_sideOf (sideOf_rest_other x apart), idle]
    · rfl
  · rw [if_neg none, published_bookUpdate, published_mute mute, h.top]
    by_cases here : request.symbol = symbol ∧ otherSide request.side = side
    · rw [if_pos here, if_pos ⟨label.1 here.1, here.2⟩, here.1, here.2]
    · rw [if_neg here, if_neg fun both => here ⟨label.2 both.1, both.2⟩]

/-- A residual that is not published leaves the top of its side as it was. -/
theorem topOfBook_residual (orderly : Orderly x.live) (behind : ¬(Exchange.Rests s.taker ∧
      bestPriceOn (x.rest s.live s.taker).live request.symbol request.side = some request.price)) :
    topOfBook (x.rest s.live s.taker).live request.symbol request.side = topOfBook x.live request.symbol request.side := by
  have consumed : ¬(request.symbol = request.symbol ∧ otherSide request.side = request.side) :=
    fun here => opposite_ne request.side here.2
  have terms := sweep_taker x.live (orderFor request)
  rw [swept] at terms
  have symbol : s.taker.symbol = request.symbol := terms.symbol
  have side : s.taker.side = request.side := terms.side
  have price : s.taker.price = request.price := terms.price
  have hidden := topOfBook_rest x s.live s.taker
  rw [symbol, side, price] at hidden
  rw [hidden behind, ← swept]
  exact topOfBook_of_sideOf (sideOf_sweep_other orderly (orderFor request) consumed)

end Accept

/-- **A new order**: the side it consumed is published if it traded, its own
side if its residual is the best of it. -/
theorem Fed.accept (h : Fed symbol securityId x log) {request : NewOrderSingle} (known : request.symbol ∈ x.configured)
    (absent : x.find? ⟨request.clientId, request.clOrdId⟩ = none)
    (label : request.symbol = symbol ↔ request.securityId = securityId) :
    Fed symbol securityId (x.accept request).1 (log ++ (x.accept request).2) := by
  refine ⟨h.valid.accept known absent, ?_, fun side => ?_⟩
  · intro o ho
    obtain ⟨o', inside, _, terms⟩ | ⟨_, terms⟩ := accept_live ho
    · rw [terms]
      exact h.label o' inside
    · rw [terms]
      exact label
  · simp only [Exchange.accept]
    generalize swept : sweep x.live (orderFor request) = s
    have consumed := h.consumed swept label (mute_execution (orderFor request) request s.taker s.fills) side
    rw [← List.append_assoc, ← List.append_assoc]
    by_cases rested : Exchange.Rests s.taker ∧
        bestPriceOn (x.rest s.live s.taker).live request.symbol request.side = some request.price
    · rw [if_pos rested, published_bookUpdate]
      by_cases here : request.symbol = symbol ∧ request.side = side
      · rw [if_pos ⟨label.1 here.1, here.2⟩, here.1, here.2]
      · rw [if_neg fun both => here ⟨label.2 both.1, both.2⟩]
        refine consumed.trans ?_
        split
        · rfl
        · rename_i other
          rw [topOfBook_accept_other swept h.valid.orderly other here]
    · rw [if_neg rested, List.append_nil]
      refine consumed.trans ?_
      split
      · rfl
      · rename_i other
        by_cases here : request.symbol = symbol ∧ request.side = side
        · rw [← here.1, ← here.2, topOfBook_residual swept h.valid.orderly rested]
        · rw [topOfBook_accept_other swept h.valid.orderly other here]

/-- **Every step but a flush keeps the feed.** -/
theorem Fed.step (h : Fed symbol securityId x log) {request : Request} (audible : request ≠ .flush)
    (label : Labelled symbol securityId request) :
    Fed symbol securityId (x.step request).1 (log ++ (x.step request).2) := by
  have rejected : ∀ {events : List Emission}, (∀ event ∈ events, ∃ cancel reason text, event = reject cancel reason text) →
      ∀ event ∈ events, Mute event := by
    intro events rejects event member
    obtain ⟨cancel, reason, text, rfl⟩ := rejects event member
    exact mute_orderEntry _
  have outcome := step_outcome x request
  generalize x.step request = next at outcome ⊢
  cases outcome with
  | refused request events rejects => exact h.mute (rejected rejects)
  | accepted request absent known => exact h.accept known absent (label _ _ rfl)
  | cancelled incoming o member keyed =>
    have reported : Fed symbol securityId x (log ++ [report o.order .canceled .canceled (some incoming.origClOrdId)]) := by
      refine h.mute fun event member => ?_
      rw [List.mem_singleton.1 member]
      exact mute_orderEntry _
    have removed := reported.remove member
    rw [List.append_assoc] at removed
    exact removed
  | replaced incoming o member keyed absent known =>
    rw [← List.append_assoc]
    exact (h.remove member).accept (show (replacementOf incoming).symbol ∈ _ from known) absent (label _ _ rfl)
  | lost incoming o member =>
    rw [← List.append_assoc]
    exact (h.remove member).mute (rejected fun event only => ⟨_, _, _, List.mem_singleton.1 only⟩)
  | flushed => exact absurd rfl audible

theorem run_fed (configuration : EngineConfig) (requests : List Request) (symbol : Symbol) (securityId : SecurityId)
    (audible : ∀ request ∈ requests, request ≠ .flush)
    (label : ∀ request ∈ requests, Labelled symbol securityId request) :
    Fed symbol securityId (run configuration requests).1 (logOf (run configuration requests).2) :=
  Run.drive_rule (P := fun x trace => Fed symbol securityId x (logOf trace))
    (Q := fun request => request ≠ .flush ∧ Labelled symbol securityId request)
    ⟨Valid.empty _ _, by simp, fun side => by cases side <;> rfl⟩
    (fun x trace request before allowed => by rw [logOf_snoc]; exact before.step allowed.1 allowed.2) requests
    fun request member => ⟨audible request member, label request member⟩

end Steps

end DemoExchange.Reference
