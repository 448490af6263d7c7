import DemoExchange.Reference.Exchange
import Mathlib.Algebra.BigOperators.Group.List.Basic
import Mathlib.Algebra.Order.Ring.Nat

/-!
# What a taker takes from a queue of makers

A queue of makers with the price of each, and a taker that trades with them in
order, each for what both have left, until it is used up: the trades, which
makers they use up, and what they leave the taker.
-/

namespace DemoExchange.Reference
set_option autoImplicit false
open OrderEntry MatchingEngine

/-- A maker in its queue. -/
structure Maker where
  price : Price
  node : Addr
  order : OrderState
  deriving DecidableEq, Repr

/-- A trade to be: the maker and the taker as they stand before it. -/
structure Taken where
  maker : Maker
  taker : OrderState
  deriving DecidableEq, Repr

namespace Taken

def quantity (t : Taken) : Quantity := min t.taker.leavesQty t.maker.order.leavesQty

/-- What `on_trade` is called with: a trade at the price of the maker's level. -/
def call (t : Taken) : TradeCall :=
  ⟨tradeOf t.taker t.maker.order t.maker.price t.quantity, t.taker, t.maker.order⟩

/-- The maker after the trade. -/
def makerAfter (t : Taken) : OrderState := fillOrder t.maker.order t.quantity

/-- The taker after the trade. -/
def takerAfter (t : Taken) : OrderState := fillOrder t.taker t.quantity

/-- Nothing is left of the maker. -/
def usesUp (t : Taken) : Bool := t.makerAfter.leavesQty = 0

end Taken

/-- The trades of a taker with makers in order. -/
def takenFrom : OrderState → List Maker → List Taken
  | _, [] => []
  | taker, maker :: rest =>
    if taker.leavesQty = 0 then [] else ⟨maker, taker⟩ :: takenFrom (Taken.takerAfter ⟨maker, taker⟩) rest

/-- The taker after its trades with makers in order. -/
def takerLeft (taker : OrderState) (makers : List Maker) : OrderState :=
  makers.foldl (fun taker maker => Taken.takerAfter ⟨maker, taker⟩) taker

/-- The quantity that is left of some makers. -/
def leavesTotal (makers : List Maker) : Nat := (makers.map (·.order.leavesQty.toNat)).sum

/-- The quantity of some trades. -/
def takenTotal (ts : List Taken) : Nat := (ts.map (·.quantity.toNat)).sum

/-- The nodes of the makers that some trades use up. -/
def releasedNodes (ts : List Taken) : List Addr := (ts.filter (·.usesUp)).map (·.maker.node)

section Lemmas

variable {taker : OrderState} {maker : Maker} {makers makers' : List Maker} {t : Taken}

theorem Taken.quantity_toNat (t : Taken) : t.quantity.toNat = min t.taker.leavesQty.toNat t.maker.order.leavesQty.toNat :=
  toNat_min _ _

theorem Taken.takerAfter_toNat (t : Taken) :
    t.takerAfter.leavesQty.toNat = t.taker.leavesQty.toNat - t.maker.order.leavesQty.toNat := by
  have left := toNat_sub_min_left t.taker.leavesQty t.maker.order.leavesQty
  change t.takerAfter.leavesQty.toNat = _ at left
  omega

theorem Taken.makerAfter_toNat (t : Taken) :
    t.makerAfter.leavesQty.toNat = t.maker.order.leavesQty.toNat - t.taker.leavesQty.toNat := by
  have left := toNat_sub_min_right t.taker.leavesQty t.maker.order.leavesQty
  change t.makerAfter.leavesQty.toNat = _ at left
  omega

theorem toNat_eq_zero {a : UInt64} : a.toNat = 0 ↔ a = 0 := by
  rw [← UInt64.toNat_inj]
  rfl

/-- A taker that leaves some of a maker is used up. -/
theorem Taken.used_taker (left : t.usesUp = false) : t.takerAfter.leavesQty = 0 := by
  have some : t.makerAfter.leavesQty.toNat ≠ 0 := fun zero => by
    rw [Taken.usesUp, toNat_eq_zero.1 zero] at left
    exact absurd left (by decide)
  rw [← toNat_eq_zero, t.takerAfter_toNat]
  rw [t.makerAfter_toNat] at some
  omega

theorem takenFrom_empty (empty : taker.leavesQty = 0) : takenFrom taker makers = [] := by
  cases makers with
  | nil => rfl
  | cons maker makers => exact if_pos empty

theorem takenFrom_cons (some : taker.leavesQty ≠ 0) :
    takenFrom taker (maker :: makers) = ⟨maker, taker⟩ :: takenFrom (Taken.takerAfter ⟨maker, taker⟩) makers :=
  if_neg some

theorem takerLeft_cons : takerLeft taker (maker :: makers) = takerLeft (Taken.takerAfter ⟨maker, taker⟩) makers := rfl

/-- What is left of a taker: what the makers have not taken up. -/
theorem takerLeft_toNat : ∀ taker, (takerLeft taker makers).leavesQty.toNat = taker.leavesQty.toNat - leavesTotal makers := by
  induction makers with
  | nil => exact fun _ => rfl
  | cons maker makers ih =>
    intro taker
    have first := Taken.takerAfter_toNat ⟨maker, taker⟩
    rw [takerLeft_cons, ih, first]
    simp only [leavesTotal, List.map_cons, List.sum_cons]
    omega

/-- A taker that is used up stays as it is. -/
theorem takerLeft_empty (empty : taker.leavesQty = 0) : takerLeft taker makers = taker := by
  induction makers with
  | nil => rfl
  | cons maker makers ih =>
    have none : Taken.quantity ⟨maker, taker⟩ = 0 := by
      rw [← toNat_eq_zero, Taken.quantity_toNat, empty]
      exact Nat.zero_min _
    have same : Taken.takerAfter ⟨maker, taker⟩ = taker := by
      rw [Taken.takerAfter, none, fillOrder, sub_zero]
    rw [takerLeft, List.foldl_cons, same]
    exact ih

theorem takerLeft_append (taker : OrderState) :
    takerLeft taker (makers ++ makers') = takerLeft (takerLeft taker makers) makers' :=
  List.foldl_append

/-- Only what is left changes. -/
theorem takerLeft_terms : ∀ taker, takerLeft taker makers = { taker with leavesQty := (takerLeft taker makers).leavesQty } := by
  induction makers with
  | nil => exact fun _ => rfl
  | cons maker makers ih => exact fun taker => ih (Taken.takerAfter ⟨maker, taker⟩)

/-- **The quantity traded** is the lesser of the taker's and the makers'. -/
theorem takenTotal_eq : ∀ taker, takenTotal (takenFrom taker makers) = min taker.leavesQty.toNat (leavesTotal makers) := by
  induction makers with
  | nil =>
    intro taker
    simp [takenFrom, takenTotal, leavesTotal]
  | cons maker makers ih =>
    intro taker
    by_cases empty : taker.leavesQty = 0
    · rw [takenFrom_empty empty, empty]
      simp [takenTotal]
    · have first := Taken.takerAfter_toNat ⟨maker, taker⟩
      have quantity := Taken.quantity_toNat ⟨maker, taker⟩
      have rest := ih (Taken.takerAfter ⟨maker, taker⟩)
      rw [takenFrom_cons empty]
      simp only [takenTotal, leavesTotal, List.map_cons, List.sum_cons] at rest first quantity ⊢
      omega

theorem takenFrom_append : ∀ taker,
    takenFrom taker (makers ++ makers') = takenFrom taker makers ++ takenFrom (takerLeft taker makers) makers' := by
  induction makers with
  | nil => exact fun _ => rfl
  | cons maker makers ih =>
    intro taker
    by_cases empty : taker.leavesQty = 0
    · have none : (takerLeft taker (maker :: makers)).leavesQty = 0 := by
        rw [← toNat_eq_zero, takerLeft_toNat, empty]
        exact Nat.zero_sub _
      rw [takenFrom_empty empty, takenFrom_empty empty, takenFrom_empty none]
      rfl
    · rw [List.cons_append, takenFrom_cons empty, takenFrom_cons empty, ih]
      rfl

/-- The makers of the trades come first in the queue. -/
theorem takenFrom_makers : ∀ taker, (takenFrom taker makers).map (·.maker) <+: makers := by
  induction makers with
  | nil => exact fun _ => List.prefix_refl _
  | cons maker makers ih =>
    intro taker
    by_cases empty : taker.leavesQty = 0
    · rw [takenFrom_empty empty]
      exact List.nil_prefix
    · rw [takenFrom_cons empty, List.map_cons]
      exact List.cons_prefix_cons.2 ⟨rfl, ih _⟩

/-- Only the last trade may leave some of its maker, and then it is the taker's last. -/
theorem takenFrom_left : ∀ taker, ∀ t ∈ takenFrom taker makers, t.usesUp = false →
    (takenFrom taker makers).getLast? = some t ∧ (takerLeft taker makers).leavesQty = 0 := by
  induction makers with
  | nil => exact fun _ _ member => absurd member List.not_mem_nil
  | cons maker makers ih =>
    intro taker t member left
    by_cases empty : taker.leavesQty = 0
    · rw [takenFrom_empty empty] at member
      cases member
    · rw [takenFrom_cons empty] at member ⊢
      obtain rfl | member := List.mem_cons.1 member
      · have none := Taken.used_taker left
        rw [takenFrom_empty none]
        refine ⟨rfl, ?_⟩
        rw [← toNat_eq_zero]
        show (takerLeft (Taken.takerAfter ⟨maker, taker⟩) makers).leavesQty.toNat = 0
        rw [takerLeft_toNat, none]
        exact Nat.zero_sub _
      · obtain ⟨last, none⟩ := ih _ t member left
        rw [List.getLast?_cons, last]
        exact ⟨rfl, none⟩

/-- A taker that has something left has used every maker up. -/
theorem takenFrom_all (some : (takerLeft taker makers).leavesQty ≠ 0) : (takenFrom taker makers).map (·.maker) = makers := by
  induction makers generalizing taker with
  | nil => rfl
  | cons maker makers ih =>
    by_cases empty : taker.leavesQty = 0
    · refine absurd ?_ some
      rw [← toNat_eq_zero, takerLeft_toNat, empty]
      exact Nat.zero_sub _
    · rw [takenFrom_cons empty, List.map_cons, ih some]

end Lemmas

end DemoExchange.Reference
