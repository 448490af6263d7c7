import DemoExchange.Reference.Fills
import DemoExchange.Reference.Top

/-!
# How much rests at a price

`levelTotal` is what rests at one price, as a natural number, and `Bounded`
says that a 64-bit quantity can count it at every price. A sweep and an order
that leaves only take away from it, and an accepted order adds at most what it
was sent with, at its own price: it fits there or it breaks the bound. Since no
book is crossed, an order that trades has nothing resting at its own price.
-/

namespace DemoExchange.Reference
set_option autoImplicit false
open OrderEntry MatchingEngine

/-- The quantity resting at a price of a side. -/
def levelTotal (live : List LiveOrder) (symbol : Symbol) (side : Side) (price : Price) : Nat :=
  total live symbol side (leavesIf fun o => o.price = price)

/-- At no price rests more than a quantity can count. -/
def Bounded (live : List LiveOrder) : Prop := ∀ symbol side price, levelTotal live symbol side price < 2 ^ 64

/-- What rests at the price of an order leaves room for all of it. -/
def Fits (live : List LiveOrder) (sent : NewOrderSingle) : Prop :=
  levelTotal live sent.symbol sent.side sent.price + sent.orderQty.toNat < 2 ^ 64

/-- The request is accepted as the order `sent`, by the exchange `y` that is left once a replaced order is gone. -/
inductive Admits (x : Exchange) : Request → Exchange → NewOrderSingle → Prop where
  | newOrder (sent : NewOrderSingle) (absent : x.find? ⟨sent.clientId, sent.clOrdId⟩ = none)
      (known : sent.symbol ∈ x.configured) : Admits x (.newOrderSingle sent) x sent
  | replacement (incoming : ReplaceOrder) (o : LiveOrder)
      (original : x.find? ⟨incoming.clientId, incoming.origClOrdId⟩ = some o)
      (absent : x.find? ⟨incoming.clientId, incoming.clOrdId⟩ = none) (known : incoming.symbol ∈ x.configured) :
      Admits x (.replaceOrder incoming) (x.remove o.order.key) (replacementOf incoming)

/-- Whatever order the request is accepted as fits. -/
def Room (x : Exchange) (request : Request) : Prop := ∀ y sent, Admits x request y sent → Fits y.live sent

section Requests

variable {x : Exchange}

theorem room_newOrder {sent : NewOrderSingle} : Room x (.newOrderSingle sent) ↔
    (x.find? ⟨sent.clientId, sent.clOrdId⟩ = none → sent.symbol ∈ x.configured → Fits x.live sent) := by
  constructor
  · exact fun room absent known => room _ _ (.newOrder sent absent known)
  · intro room y sent admits
    cases admits with
    | newOrder _ absent known => exact room absent known

theorem room_replace {incoming : ReplaceOrder} : Room x (.replaceOrder incoming) ↔
    ∀ o, x.find? ⟨incoming.clientId, incoming.origClOrdId⟩ = some o →
      x.find? ⟨incoming.clientId, incoming.clOrdId⟩ = none → incoming.symbol ∈ x.configured →
        Fits (x.remove o.order.key).live (replacementOf incoming) := by
  constructor
  · exact fun room o original absent known => room _ _ (.replacement incoming o original absent known)
  · intro room y sent admits
    cases admits with
    | replacement _ o original absent known => exact room o original absent known

theorem room_cancel (incoming : CancelOrder) : Room x (.cancelOrder incoming) :=
  fun _ _ admits => nomatch admits

theorem room_flush : Room x .flush := fun _ _ admits => nomatch admits

end Requests

section Levels

variable {live live' : List LiveOrder} {symbol : Symbol} {side : Side} {price : Price} {maker : LiveOrder}
  {taker : OrderState} {quantity : Quantity}

/-- What rests at a price is the sum over the orders there. -/
theorem levelTotal_eq (live : List LiveOrder) (symbol : Symbol) (side : Side) (price : Price) :
    levelTotal live symbol side price =
      (((sideOf live symbol side).filter fun o => o.order.price = price).map fun o => o.order.leavesQty.toNat).sum := by
  rw [levelTotal, total]
  induction sideOf live symbol side with
  | nil => rfl
  | cons o l ih =>
    rw [List.map_cons, List.sum_cons, ih, List.filter_cons]
    by_cases here : o.order.price = price
    · rw [if_pos (decide_eq_true here), List.map_cons, List.sum_cons, leavesIf, if_pos (decide_eq_true here)]
    · rw [if_neg (mt of_decide_eq_true here), leavesIf, if_neg (mt of_decide_eq_true here), Nat.zero_add]

theorem levelTotal_sublist (sub : live'.Sublist live) :
    levelTotal live' symbol side price ≤ levelTotal live symbol side price :=
  ((sub.filter _).map _).sum_le_sum fun _ _ => Nat.zero_le _

theorem Bounded.sublist (bounded : Bounded live) (sub : live'.Sublist live) : Bounded live' :=
  fun symbol side price => Nat.lt_of_le_of_lt (levelTotal_sublist sub) (bounded symbol side price)

/-- An order on the level is no more than what rests there. -/
theorem leaves_le_levelTotal (member : maker ∈ sideOf live symbol side) :
    maker.order.leavesQty.toNat ≤ levelTotal live symbol side maker.order.price := by
  have most := weight_le_total member (leavesIf fun o => o.price = maker.order.price)
  rwa [leavesIf, if_pos (decide_eq_true rfl)] at most

/-- A fill takes from its level. -/
theorem levelTotal_settle (orderly : Orderly live) (member : maker ∈ live) (within : quantity ≤ maker.order.leavesQty) :
    levelTotal (settle live maker quantity) symbol side price ≤ levelTotal live symbol side price := by
  by_cases used : maker.order.leavesQty - quantity = 0
  · rw [settle_used used]
    exact levelTotal_sublist List.filter_sublist
  · rw [settle_left used, levelTotal, total, sideOf_filled, List.map_map]
    refine List.sum_le_sum fun o ho => ?_
    simp only [Function.comp, filled]
    split
    · rename_i same
      obtain rfl := orderly.arrival_inj (mem_sideOf.1 ho).1 member same
      have less : (o.order.leavesQty - quantity).toNat ≤ o.order.leavesQty.toNat := by
        rw [UInt64.toNat_sub_of_le _ _ within]
        omega
      by_cases here : o.order.price = price
      · simpa only [leavesIf, fillOrder, here, decide_true, if_true] using less
      · simp [leavesIf, fillOrder, here]
    · exact Nat.le_refl _

/-- **A sweep takes from the levels.** -/
theorem levelTotal_sweep (orderly : Orderly live) (taker : OrderState) :
    levelTotal (sweep live taker).live symbol side price ≤ levelTotal live symbol side price := by
  have kept := sweep_rule
    (P := fun live' _ _ => Orderly live' ∧ levelTotal live' symbol side price ≤ levelTotal live symbol side price)
    ?_ live taker [] ⟨orderly, Nat.le_refl _⟩
  · exact kept.2
  · rintro live' taker' fills maker hits ⟨orderly', less⟩
    have member := (best_mem hits.best).1
    exact ⟨orderly'.settle hits, Nat.le_trans (levelTotal_settle orderly' member (min_le_right' _ _)) less⟩

/-- An order at the end adds what is left of it to its level. -/
theorem levelTotal_append (live : List LiveOrder) (o : LiveOrder) :
    levelTotal (live ++ [o]) symbol side price = levelTotal live symbol side price +
      if OnSide symbol side o.order ∧ o.order.price = price then o.order.leavesQty.toNat else 0 := by
  rw [levelTotal, total, sideOf_append, List.map_append, List.sum_append]
  congr 1
  by_cases here : OnSide symbol side o.order <;> simp [here, leavesIf]

end Levels

section Accepting

variable {x y : Exchange} {sent : NewOrderSingle} {request : Request}

/-- A residual is no more than the order was. -/
theorem residual_le (live : List LiveOrder) (sent : NewOrderSingle) :
    (sweep live (orderFor sent)).taker.leavesQty.toNat ≤ sent.orderQty.toNat := by
  have quantity : _ = sent.orderQty.toNat := sweep_quantity live (orderFor sent)
  omega

/-- **An order that fits keeps the bound.** -/
theorem Bounded.accept (bounded : Bounded x.live) (orderly : Orderly x.live) (fits : Fits x.live sent) :
    Bounded (x.accept sent).1.live := by
  intro symbol side price
  have swept := @levelTotal_sweep _ symbol side price orderly (orderFor sent)
  have before := bounded symbol side price
  have residual := residual_le x.live sent
  have terms := sweep_taker x.live (orderFor sent)
  simp only [Exchange.accept, Exchange.rest]
  split
  · rw [levelTotal_append]
    split
    · rename_i here
      rw [terms.onSide, terms.price] at here
      obtain ⟨⟨rfl, rfl⟩, rfl⟩ := here
      exact Nat.lt_of_le_of_lt (Nat.add_le_add swept residual) fits
    · exact Nat.lt_of_le_of_lt swept before
  · exact Nat.lt_of_le_of_lt swept before

/-- **An order with something resting at its own price is not matched**: nothing opposite crosses that. -/
theorem sweep_of_level (orderly : Orderly x.live) (some : levelTotal x.live sent.symbol sent.side sent.price ≠ 0) :
    sweep x.live (orderFor sent) = ⟨[], x.live, orderFor sent⟩ ∧ sent.price ≠ 0 := by
  obtain ⟨o, member, here, same⟩ : ∃ o ∈ x.live, OnSide sent.symbol sent.side o.order ∧ o.order.price = sent.price := by
    refine Classical.byContradiction fun none => some (total_eq_zero fun o ho => if_neg fun same => none ?_)
    obtain ⟨member, here⟩ := mem_sideOf.1 ho
    exact ⟨o, member, here, of_decide_eq_true same⟩
  have priced : sent.price ≠ 0 := by
    rw [← same]
    exact orderly.priced o member
  refine ⟨?_, priced⟩
  cases best : bestOn x.live sent.symbol (otherSide sent.side) with
  | none => exact sweep_none best
  | some maker =>
    obtain ⟨member', there⟩ := best_mem best
    refine sweep_miss best ?_
    cases side : sent.side with
    | buy =>
      rw [crosses_buy priced side]
      rw [side] at here there
      have apart := orderly.uncrossed o member maker member' (here.1.trans there.1.symm) here.2 there.2
      rw [same] at apart
      simpa [orderFor, side] using apart
    | sell =>
      rw [crosses_sell priced side]
      rw [side] at here there
      have apart := orderly.uncrossed maker member' o member (there.1.trans here.1.symm) there.2 here.2
      rw [same] at apart
      simpa [orderFor, side] using apart

/-- **The addition that places a residual is exact just when the order fits.** -/
theorem residual_fits_iff (bounded : Bounded x.live) (orderly : Orderly x.live) :
    (Exchange.Rests (sweep x.live (orderFor sent)).taker →
        levelTotal (sweep x.live (orderFor sent)).live sent.symbol sent.side sent.price +
          (sweep x.live (orderFor sent)).taker.leavesQty.toNat < 2 ^ 64) ↔ Fits x.live sent := by
  by_cases some : levelTotal x.live sent.symbol sent.side sent.price = 0
  · have swept := @levelTotal_sweep _ sent.symbol sent.side sent.price orderly (orderFor sent)
    have residual := residual_le x.live sent
    have range := UInt64.toNat_lt sent.orderQty
    unfold Fits
    constructor
    · intro _
      omega
    · intro _ _
      omega
  · obtain ⟨idle, priced⟩ := sweep_of_level orderly some
    rw [idle]
    constructor
    · intro placed
      by_cases empty : sent.orderQty = 0
      · rw [Fits, empty]
        exact bounded _ _ _
      · exact placed ⟨empty, priced⟩
    · exact fun fits _ => fits

/-- A request is accepted as the step says, or it adds no order. -/
theorem step_admits (x : Exchange) (request : Request) :
    (∃ y sent, Admits x request y sent ∧ (x.step request).1 = (y.accept sent).1) ∨
      (x.step request).1.live.Sublist x.live := by
  cases request with
  | newOrderSingle sent =>
    simp only [Exchange.step, Exchange.newOrderSingle]
    split
    · exact .inr (List.Sublist.refl _)
    rename_i absent
    split
    · rename_i known
      exact .inl ⟨x, sent, .newOrder sent (Option.not_isSome_iff_eq_none.1 absent) known, rfl⟩
    · exact .inr (List.Sublist.refl _)
  | replaceOrder incoming =>
    simp only [Exchange.step, Exchange.replaceOrder]
    split
    · exact .inr (List.Sublist.refl _)
    rename_i o original
    split
    · exact .inr (List.Sublist.refl _)
    rename_i absent
    split
    · rename_i known
      exact .inl ⟨_, _, .replacement incoming o original (Option.not_isSome_iff_eq_none.1 absent) known, rfl⟩
    · exact .inr List.filter_sublist
  | cancelOrder incoming =>
    simp only [Exchange.step, Exchange.cancelOrder]
    split
    · exact .inr (List.Sublist.refl _)
    · exact .inr List.filter_sublist
  | flush => exact .inr (List.nil_sublist _)

/-- The orders left once a replaced order is gone are orders that were there. -/
theorem Admits.keeps (admits : Admits x request y sent) (orderly : Orderly x.live) :
    Orderly y.live ∧ y.live.Sublist x.live := by
  cases admits with
  | newOrder => exact ⟨orderly, List.Sublist.refl _⟩
  | replacement => exact ⟨orderly.filter _, List.filter_sublist⟩

/-- **A step with room keeps the bound.** -/
theorem Bounded.step (bounded : Bounded x.live) (orderly : Orderly x.live) (room : Room x request) :
    Bounded (x.step request).1.live := by
  obtain ⟨y, sent, admits, same⟩ | sub := step_admits x request
  · obtain ⟨orderly', sub⟩ := admits.keeps orderly
    rw [same]
    exact (bounded.sublist sub).accept orderly' (room y sent admits)
  · exact bounded.sublist sub

end Accepting

end DemoExchange.Reference
